import PooFlow.ProofCase.Validators

namespace PooFlow.ProofCase

open Foundation List

/-- The vector holds the fields of the case, and nothing else. -/
structure Decodes (vector : List UInt8) (proofCase : AuthorizedEffectProofCase) : Prop where
  size : vector.length = vectorSize
  version : u32 vector abiVersionOffset = abiVersion
  caseKind : u32 vector caseKindOffset = caseKindAuthorizedEffectToken
  fingerprint : slice vector schemaFingerprintOffset 32 = schemaFingerprint
  tokenDigest : digest32Bytes proofCase.tokenDigest false = .ok (slice vector tokenDigestOffset 32)
  policyRevision :
    digest32Bytes proofCase.policyRevision false = .ok (slice vector policyRevisionOffset 32)
  effectDigest :
    digest32Bytes proofCase.effectDigest false = .ok (slice vector effectDigestOffset 32)
  semanticRoot :
    digest32Bytes proofCase.semanticRoot false = .ok (slice vector semanticRootOffset 32)
  executionRoot :
    digest32Bytes proofCase.executionRoot false = .ok (slice vector executionRootOffset 32)
  batchRoot : digest32Bytes proofCase.batchRoot true = .ok (slice vector batchRootOffset 32)
  subjectBinding :
    digest32Bytes proofCase.subjectBinding false = .ok (slice vector subjectBindingOffset 32)
  resourceBinding :
    digest32Bytes proofCase.resourceBinding false = .ok (slice vector resourceBindingOffset 32)
  actionBinding :
    digest32Bytes proofCase.actionBinding false = .ok (slice vector actionBindingOffset 32)
  previousEvidenceRoot : digest32Bytes proofCase.previousEvidenceRoot false =
    .ok (slice vector previousEvidenceRootOffset 32)
  nonce : (u64 vector nonceOffset : ℤ) = proofCase.nonce
  epoch : (u64 vector epochOffset : ℤ) = proofCase.epoch
  sequence : (u64 vector sequenceOffset : ℤ) = proofCase.sequence
  required : (u64 vector requiredObligationMaskOffset : ℤ) = proofCase.requiredObligationMask
  present : (u64 vector presentObligationMaskOffset : ℤ) = proofCase.presentObligationMask
  count : (u32 vector obligationCountOffset : ℤ) = proofCase.obligationCount
  outcome : mediationTag proofCase.outcome = .ok (u32 vector mediationOutcomeOffset)
  durability : durabilityTag proofCase.durability = .ok (u32 vector durabilityProfileOffset)
  reserved : vector.drop reservedOffset = List.replicate 12 0

structure Consistent (proofCase : AuthorizedEffectProofCase) : Prop where
  supported : ∀ bit, proofCase.requiredObligationMask.testBit bit = true ∨
    proofCase.presentObligationMask.testBit bit = true → bit < 8
  included : ∀ bit, proofCase.presentObligationMask.testBit bit = true →
    proofCase.requiredObligationMask.testBit bit = true
  count : proofCase.obligationCount ≤ 8

/-- A target that is written up to `size`: the fields so far can be read, and the rest
is zero. -/
structure Filled (target : List UInt8) (size : ℕ) (fields : List (ℕ × List UInt8)) : Prop where
  length : target.length = vectorSize
  inside : ∀ field ∈ fields, field.1 + field.2.length ≤ size
  reads : ∀ field ∈ fields, slice target field.1 field.2.length = field.2
  zeros : target.drop size = List.replicate (vectorSize - size) 0

theorem filled_zeros : Filled (List.replicate vectorSize 0) 0 [] :=
  ⟨length_replicate, forall_mem_nil _, forall_mem_nil _, rfl⟩

section

variable {target bytes : List UInt8} {offset : ℕ}

/-- What lies before a piece stays. -/
theorem slice_overwrite_before {start size : ℕ} (hbefore : start + size ≤ offset)
    (h : offset ≤ target.length) :
    slice (overwrite target offset bytes) start size = slice target start size := by
  have hstart : start ≤ (target.take offset).length := by
    rw [length_take]
    omega
  have hsize : size ≤ ((target.take offset).drop start).length := by
    rw [length_drop, length_take]
    omega
  rw [slice, overwrite, append_assoc, drop_append_of_le_length hstart,
    take_append_of_le_length hsize, drop_take, take_take, slice, Nat.min_eq_left (by omega)]

theorem slice_overwrite_self (h : offset ≤ target.length) :
    slice (overwrite target offset bytes) offset bytes.length = bytes := by
  have hlength : (target.take offset).length = offset := length_take_of_le h
  have hdrop : (target.take offset ++ (bytes ++ target.drop (offset + bytes.length))).drop offset =
      bytes ++ target.drop (offset + bytes.length) := drop_left' hlength
  rw [slice, overwrite, append_assoc, hdrop, take_left]

theorem drop_overwrite (h : offset ≤ target.length) :
    (overwrite target offset bytes).drop (offset + bytes.length) =
      target.drop (offset + bytes.length) := by
  have hlength : (target.take offset ++ bytes).length = offset + bytes.length := by
    rw [length_append, length_take_of_le h]
  rw [overwrite, drop_left' hlength]

theorem Filled.write {fields : List (ℕ × List UInt8)} (h : Filled target offset fields)
    (bytes : List UInt8) (hfits : offset + bytes.length ≤ vectorSize) :
    Filled (overwrite target offset bytes) (offset + bytes.length)
      ((offset, bytes) :: fields) := by
  have hoffset : offset ≤ target.length := by
    rw [h.length]
    omega
  constructor
  case length => rw [length_overwrite (by rwa [h.length]), h.length]
  case inside =>
    rw [forall_mem_cons]
    exact ⟨le_rfl, fun field hfield => (h.inside field hfield).trans (Nat.le_add_right _ _)⟩
  case reads =>
    rw [forall_mem_cons]
    refine ⟨slice_overwrite_self hoffset, fun field hfield => ?_⟩
    rw [slice_overwrite_before (h.inside field hfield) hoffset, h.reads field hfield]
  case zeros =>
    rw [drop_overwrite hoffset, ← drop_drop, h.zeros, drop_replicate]
    congr 1
    omega

end

theorem littleEndian_getElem? {count index : ℕ} (value : ℕ) (h : index < count) :
    (littleEndian count value)[index]? = some (UInt8.ofNat (value / 256 ^ index)) := by
  induction count generalizing index value with
  | zero => exact absurd h (Nat.not_lt_zero _)
  | succ count ih =>
    rw [littleEndian]
    cases index with
    | zero => simp
    | succ index =>
      rw [List.getElem?_cons_succ, ih _ (Nat.lt_of_succ_lt_succ h), Nat.div_div_eq_div_mul,
        pow_succ']

theorem setNumber_eq {target : List UInt8} {offset count value : ℕ}
    (h : offset + count ≤ target.length) :
    setNumber target offset count value = overwrite target offset (littleEndian count value) := by
  have hbyte : ∀ index, UInt8.ofNat ((value >>> (index * 8)) &&& 0xff) =
      UInt8.ofNat (value / 256 ^ index) := by
    intro index
    have hpow : 2 ^ (index * 8) = 256 ^ index := by
      rw [Nat.mul_comm, pow_mul]
      rfl
    rw [Nat.shiftRight_eq_div_pow, hpow, show 0xff = 2 ^ 8 - 1 from rfl,
      Nat.and_two_pow_sub_one_eq_mod]
    exact UInt8.ofNat_mod_size
  have hcopy := foldl_set_eq offset (littleEndian count value) 0 count target
    (by rw [littleEndian_length, Nat.zero_add]) (by rwa [littleEndian_length])
  rw [Nat.add_zero, drop_zero] at hcopy
  rw [setNumber, range_eq_range', ← hcopy]
  refine foldl_ext _ _ _ fun _ index hindex => ?_
  have hlt : index < count := by
    rw [mem_range'_1] at hindex
    omega
  rw [hbyte, getD_eq_getElem?_getD, littleEndian_getElem? value hlt, Option.getD_some]

theorem copyBytes_eq {source target : List UInt8} {offset : ℕ}
    (h : offset + source.length ≤ target.length) :
    copyBytes source target offset = overwrite target offset source := by
  have hcopy := foldl_set_eq offset source 0 source.length target (Nat.zero_add _) h
  rwa [Nat.add_zero, drop_zero, ← range_eq_range'] at hcopy

section

variable {target written : List UInt8} {offset size : ℕ} {fields : List (ℕ × List UInt8)}

variable {value : ℤ} {start : ℕ}

theorem Filled.writeNumber (count : ℕ) {limit : ℤ} {error : String} (h : Filled target size fields)
    {next : List UInt8 → Except String (List UInt8)}
    (hrun : (do guardElse (0 ≤ value ∧ value ≤ limit) error
                return setNumber target offset count value.toNat) >>= next = .ok written)
    (hoffset : offset = size) (hfits : offset + count ≤ vectorSize) :
    ∃ target', (0 ≤ value ∧ value ≤ limit) ∧ next target' = .ok written ∧
      Filled target' (offset + count) ((offset, littleEndian count value.toNat) :: fields) := by
  subst hoffset
  obtain ⟨_, hwrite, hnext⟩ := bind_eq_ok.1 hrun
  obtain ⟨hrange, hwritten⟩ := then_eq_ok.1 hwrite
  have hfield := h.write (littleEndian count value.toNat) (by rwa [littleEndian_length])
  rw [littleEndian_length] at hfield
  refine ⟨_, guardElse_eq_ok.1 hrange, hnext, ?_⟩
  rwa [← Except.ok.inj hwritten, setNumber_eq (by rwa [h.length])]

theorem length_digest32Bytes {value : DigestValue} {isOptional : Bool} {bytes : List UInt8}
    (h : digest32Bytes value isOptional = .ok bytes) : bytes.length = 32 := by
  obtain ⟨normalized, -, h⟩ := bind_eq_ok.1 h
  obtain ⟨-, h⟩ := then_eq_ok.1 h
  obtain ⟨decoded, -, h⟩ := bind_eq_ok.1 h
  obtain ⟨hlength, h⟩ := then_eq_ok.1 h
  rw [← Except.ok.inj h]
  exact guardElse_eq_ok.1 hlength

section

variable (h : Filled target size fields)

include h

theorem Filled.copyBytes (bytes : List UInt8) (hoffset : offset = size)
    (hfits : offset + bytes.length ≤ vectorSize) :
    Filled (copyBytes bytes target offset) (offset + bytes.length) ((offset, bytes) :: fields) := by
  subst hoffset
  rw [copyBytes_eq (by rwa [h.length])]
  exact h.write bytes hfits

theorem Filled.writeDigest {value : DigestValue} {isOptional : Bool}
    {next : List UInt8 → Except String (List UInt8)}
    (hrun : writeDigest value target offset isOptional >>= next = .ok written)
    (hoffset : offset = size) (hfits : offset + 32 ≤ vectorSize) :
    ∃ bytes target', bytes.length = 32 ∧ digest32Bytes value isOptional = .ok bytes ∧
      next target' = .ok written ∧ Filled target' (offset + 32) ((offset, bytes) :: fields) := by
  obtain ⟨_, hwrite, hnext⟩ := bind_eq_ok.1 hrun
  obtain ⟨bytes, hbytes, hwritten⟩ := bind_eq_ok.1 hwrite
  cases hwritten
  have hsize := length_digest32Bytes hbytes
  have hfield := h.copyBytes bytes hoffset (by rwa [hsize])
  rw [hsize] at hfield
  exact ⟨bytes, _, hsize, hbytes, hnext, hfield⟩

/-- A number of four bytes is read back. -/
theorem Filled.u32 (hrange : 0 ≤ value ∧ value ≤ 0xffffffff)
    (hfield : (start, littleEndian 4 value.toNat) ∈ fields) : (u32 target start : ℤ) = value := by
  have hread := h.reads _ hfield
  rw [littleEndian_length] at hread
  rw [ProofCase.u32, hread, ofLittleEndian_of_lt (by norm_num; omega), Int.toNat_of_nonneg hrange.1]

/-- A number of eight bytes is read back. -/
theorem Filled.u64 (hrange : 0 ≤ value ∧ value ≤ 0xffffffffffffffff)
    (hfield : (start, littleEndian 8 value.toNat) ∈ fields) : (u64 target start : ℤ) = value := by
  have hread := h.reads _ hfield
  rw [littleEndian_length] at hread
  rw [ProofCase.u64, hread, ofLittleEndian_of_lt (by norm_num; omega), Int.toNat_of_nonneg hrange.1]

theorem Filled.bytes {bytes : List UInt8} (hsize : bytes.length = 32)
    (hfield : (start, bytes) ∈ fields) : slice target start 32 = bytes := by
  have hread := h.reads _ hfield
  rwa [hsize] at hread

end

end

variable {proofCase : AuthorizedEffectProofCase} {target vector : List UInt8}

theorem mediationTag_range {outcome : String} {tag : ℕ} (h : mediationTag outcome = .ok tag) :
    tag ∈ [mediationAllow, mediationDeny, mediationInvalidToken] := by
  unfold mediationTag at h
  split_ifs at h <;> cases h <;> decide

theorem durabilityTag_range {durability : String} {tag : ℕ} (h : durabilityTag durability = .ok tag) :
    tag ∈ [durabilityStrict, durabilityBatched, durabilityDiagnostic] := by
  unfold durabilityTag at h
  split_ifs at h <;> cases h <;> decide

theorem vectorWrite_decodes (h : vectorWrite proofCase target = .ok vector) :
    Decodes vector proofCase := by
  obtain ⟨-, h⟩ := then_eq_ok.1 h
  obtain ⟨hsize, h⟩ := then_eq_ok.1 h
  rw [guardElse_eq_ok.1 hsize] at h
  -- each write fills the next bytes of a vector of zeros
  obtain ⟨_, hversion, h, hfilled⟩ := filled_zeros.writeNumber 4 h rfl (by decide)
  obtain ⟨_, hkind, h, hfilled⟩ := hfilled.writeNumber 4 h rfl (by decide)
  -- the fingerprint is copied without a guard
  have hfingerprint : Filled _ schemaFingerprintOffset _ := hfilled
  have hfilled := hfingerprint.copyBytes schemaFingerprint rfl (by decide)
  obtain ⟨_, _, hsizeToken, hToken, h, hfilled⟩ := hfilled.writeDigest h rfl (by decide)
  obtain ⟨_, _, hsizePolicy, hPolicy, h, hfilled⟩ := hfilled.writeDigest h rfl (by decide)
  obtain ⟨_, _, hsizeEffect, hEffect, h, hfilled⟩ := hfilled.writeDigest h rfl (by decide)
  obtain ⟨_, _, hsizeSemantic, hSemantic, h, hfilled⟩ := hfilled.writeDigest h rfl (by decide)
  obtain ⟨_, _, hsizeExecution, hExecution, h, hfilled⟩ := hfilled.writeDigest h rfl (by decide)
  obtain ⟨_, _, hsizeBatch, hBatch, h, hfilled⟩ := hfilled.writeDigest h rfl (by decide)
  obtain ⟨_, _, hsizeSubject, hSubject, h, hfilled⟩ := hfilled.writeDigest h rfl (by decide)
  obtain ⟨_, _, hsizeResource, hResource, h, hfilled⟩ := hfilled.writeDigest h rfl (by decide)
  obtain ⟨_, _, hsizeAction, hAction, h, hfilled⟩ := hfilled.writeDigest h rfl (by decide)
  obtain ⟨_, _, hsizePrevious, hPrevious, h, hfilled⟩ := hfilled.writeDigest h rfl (by decide)
  obtain ⟨_, hnonce, h, hfilled⟩ := hfilled.writeNumber 8 h rfl (by decide)
  obtain ⟨_, hepoch, h, hfilled⟩ := hfilled.writeNumber 8 h rfl (by decide)
  obtain ⟨_, hsequence, h, hfilled⟩ := hfilled.writeNumber 8 h rfl (by decide)
  obtain ⟨_, hrequired, h, hfilled⟩ := hfilled.writeNumber 8 h rfl (by decide)
  obtain ⟨_, hpresent, h, hfilled⟩ := hfilled.writeNumber 8 h rfl (by decide)
  obtain ⟨_, hcount, h, hfilled⟩ := hfilled.writeNumber 4 h rfl (by decide)
  obtain ⟨mediation, hmediation, h⟩ := bind_eq_ok.1 h
  obtain ⟨_, houtcome, h, hfilled⟩ := hfilled.writeNumber 4 h rfl (by decide)
  obtain ⟨durability, hdurability, h⟩ := bind_eq_ok.1 h
  obtain ⟨_, hprofile, ⟨⟩, hfilled⟩ := hfilled.writeNumber 4 ((bind_pure _).trans h) rfl (by decide)
  -- a later write keeps the bytes of an earlier one
  constructor
  case size => exact hfilled.length
  case version => exact_mod_cast hfilled.u32 hversion (by simp)
  case caseKind => exact_mod_cast hfilled.u32 hkind (by simp)
  case fingerprint => exact hfilled.bytes rfl (by simp)
  case tokenDigest => rw [hToken, hfilled.bytes hsizeToken (by simp)]
  case policyRevision => rw [hPolicy, hfilled.bytes hsizePolicy (by simp)]
  case effectDigest => rw [hEffect, hfilled.bytes hsizeEffect (by simp)]
  case semanticRoot => rw [hSemantic, hfilled.bytes hsizeSemantic (by simp)]
  case executionRoot => rw [hExecution, hfilled.bytes hsizeExecution (by simp)]
  case batchRoot => rw [hBatch, hfilled.bytes hsizeBatch (by simp)]
  case subjectBinding => rw [hSubject, hfilled.bytes hsizeSubject (by simp)]
  case resourceBinding => rw [hResource, hfilled.bytes hsizeResource (by simp)]
  case actionBinding => rw [hAction, hfilled.bytes hsizeAction (by simp)]
  case previousEvidenceRoot => rw [hPrevious, hfilled.bytes hsizePrevious (by simp)]
  case nonce => exact hfilled.u64 hnonce (by simp)
  case epoch => exact hfilled.u64 hepoch (by simp)
  case sequence => exact hfilled.u64 hsequence (by simp)
  case required => exact hfilled.u64 hrequired (by simp)
  case present => exact hfilled.u64 hpresent (by simp)
  case count => exact hfilled.u32 hcount (by simp)
  case outcome =>
    have hread : (u32 vector mediationOutcomeOffset : ℤ) = mediation :=
      hfilled.u32 houtcome (by simp)
    rw [hmediation, Int.natCast_inj.1 hread]
  case durability =>
    have hread : (u32 vector durabilityProfileOffset : ℤ) = durability :=
      hfilled.u32 hprofile (by simp)
    rw [hdurability, Int.natCast_inj.1 hread]
  case reserved => exact hfilled.zeros

theorem ldiff_eq_zero {value mask : ℕ} : Int.land value (Int.lnot mask) = 0 ↔
      ∀ bit, value.testBit bit = true → mask.testBit bit = true := by
  rw [land_lnot, Int.natCast_eq_zero]
  constructor
  · intro hzero bit hbit
    have hclear : (Nat.ldiff value mask).testBit bit = false := by rw [hzero, Nat.zero_testBit]
    rw [Nat.testBit_ldiff, hbit] at hclear
    simpa using hclear
  · intro hincluded
    refine Nat.eq_of_testBit_eq fun bit => ?_
    rw [Nat.testBit_ldiff, Nat.zero_testBit]
    cases hbit : value.testBit bit with
    | false => rfl
    | true => rw [hincluded bit hbit]; rfl

/-- The masks and the count alone decide. -/
theorem validate_of_decodes (h : Decodes vector proofCase) :
    validateProofCaseVector vector = .ok ↔ Consistent proofCase := by
  have hmask : ∀ bit, Nat.testBit requiredObligationMask bit = true ↔ bit < 8 := fun bit => by
    rw [show requiredObligationMask = 2 ^ 8 - 1 from rfl, Nat.testBit_two_pow_sub_one,
      decide_eq_true_eq]
  have hreserved : ¬(vector.drop reservedOffset).any (· ≠ 0) = true := by
    rw [h.reserved]
    decide
  have hmediation := mediationTag_range h.outcome
  have hdurability := durabilityTag_range h.durability
  have hkind : u32 vector caseKindOffset ∈ [caseKindAuthorizedEffectToken] :=
    mem_singleton.2 h.caseKind
  have hconsistent : Consistent proofCase ↔
      (Int.land (u64 vector requiredObligationMaskOffset |||
          u64 vector presentObligationMaskOffset : ℕ) (Int.lnot requiredObligationMask) = 0 ∧
        Int.land (u64 vector presentObligationMaskOffset)
          (Int.lnot (u64 vector requiredObligationMaskOffset)) = 0) ∧
        u32 vector obligationCountOffset ≤ 8 := by
    rw [ldiff_eq_zero, ldiff_eq_zero]
    simp only [Nat.testBit_or, Bool.or_eq_true, hmask]
    constructor
    · rintro ⟨hsupported, hincluded, hcount⟩
      rw [← h.required, ← h.present] at hsupported
      rw [← h.required, ← h.present] at hincluded
      rw [← h.count] at hcount
      exact ⟨⟨hsupported, hincluded⟩, by exact_mod_cast hcount⟩
    · rintro ⟨⟨hsupported, hincluded⟩, hcount⟩
      constructor
      case supported => rwa [← h.required, ← h.present]
      case included => rwa [← h.required, ← h.present]
      case count => rw [← h.count]; exact_mod_cast hcount
  rw [hconsistent, validateProofCaseVector, if_neg (not_not.2 h.size), if_neg (not_not.2 h.version),
    if_neg (not_not.2 h.fingerprint)]
  dsimp only
  rw [if_neg (not_not.2 hkind), if_neg (not_not.2 hmediation), if_neg (not_not.2 hdurability),
    if_neg hreserved]
  split_ifs with hunsupported hmalformed hcount
  · simp [hunsupported]
  · simp [hmalformed]
  · simpa using fun _ _ => hcount
  · simpa using ⟨⟨not_not.1 hunsupported, not_not.1 hmalformed⟩, not_lt.1 hcount⟩

/-- **The codec of proof case vectors.** -/
structure CodecExact : Prop where
  agree : ∀ vector, validateProofCaseVector vector = (proofCaseInit true (some vector)).1
  decodes : ∀ proofCase target vector, vectorWrite proofCase target = .ok vector →
    Decodes vector proofCase
  accepted : ∀ proofCase target vector, vectorWrite proofCase target = .ok vector →
    (validateProofCaseVector vector = .ok ↔ Consistent proofCase)

/-- **The codec of proof case vectors** in the three languages. -/
theorem codec_exact : CodecExact where
  agree := validate_eq_init
  decodes _ _ _ h := vectorWrite_decodes h
  accepted _ _ _ h := validate_of_decodes (vectorWrite_decodes h)

def demoDigest : String := String.ofList (List.replicate 64 'a')

def demoProofCase : AuthorizedEffectProofCase where
  kind := "poo-flow-authorized-effect-proof-case"
  tokenDigest := .text demoDigest
  policyRevision := .text demoDigest
  effectDigest := .text demoDigest
  semanticRoot := .text demoDigest
  executionRoot := .text demoDigest
  batchRoot := .absent
  subjectBinding := .text demoDigest
  resourceBinding := .text demoDigest
  actionBinding := .text demoDigest
  previousEvidenceRoot := .text demoDigest
  nonce := 1
  epoch := 1
  sequence := 1
  requiredObligationMask := 256
  presentObligationMask := 0
  obligationCount := 1
  outcome := "allow"
  durability := "strict"

/-- The writer writes what the validators refuse. -/
theorem written_not_accepted : ¬∀ proofCase target vector,
    vectorWrite proofCase target = .ok vector → validateProofCaseVector vector = .ok := by
  intro haccepted
  have hwrites : (vectorWrite demoProofCase (List.replicate vectorSize 0)).isOk = true := by
    decide +kernel
  cases hwritten : vectorWrite demoProofCase (List.replicate vectorSize 0) with
  | error _ => rw [hwritten] at hwrites; cases hwrites
  | ok vector =>
    have hconsistent := (validate_of_decodes (vectorWrite_decodes hwritten)).1
      (haccepted _ _ _ hwritten)
    exact absurd (hconsistent.supported 8 (.inl (by decide))) (by decide)

end PooFlow.ProofCase
