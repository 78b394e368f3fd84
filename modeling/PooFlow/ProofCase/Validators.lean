import PooFlow.ProofCase.Vector

namespace PooFlow.ProofCase

open Foundation List

theorem or_shiftLeft (low byte count : ℕ) (h : low < 256 ^ count) :
    low ||| byte <<< (8 * count) = low + 256 ^ count * byte := by
  have hpow : 256 ^ count = 2 ^ (8 * count) := by
    rw [pow_mul]
    rfl
  rw [hpow] at h ⊢
  rw [Nat.or_comm, ← Nat.shiftLeft_add_eq_or_of_lt h, Nat.shiftLeft_eq, Nat.mul_comm, Nat.add_comm]

theorem ofLittleEndian_append (front back : List UInt8) : ofLittleEndian (front ++ back) =
      ofLittleEndian front + 256 ^ front.length * ofLittleEndian back := by
  induction front with
  | nil => simp [ofLittleEndian]
  | cons byte front ih =>
    rw [cons_append, ofLittleEndian, ih, ofLittleEndian, length_cons, pow_succ]
    ring

variable {bytes : List UInt8}

theorem take_succ_getD {count : ℕ} (h : count < bytes.length) :
    bytes.take (count + 1) = bytes.take count ++ [bytes.getD count 0] := by
  rw [take_succ_eq_append_getElem h, getD_eq_getElem?_getD, List.getElem?_eq_getElem h,
    Option.getD_some]

theorem ofLittleEndian_take_succ {count : ℕ} (h : count < bytes.length) :
    ofLittleEndian (bytes.take (count + 1)) =
      ofLittleEndian (bytes.take count) ||| (bytes.getD count 0).toNat <<< (8 * count) := by
  have hlength : (bytes.take count).length = count := length_take_of_le h.le
  have hlt := ofLittleEndian_lt (bytes.take count)
  rw [hlength] at hlt
  rw [or_shiftLeft _ _ _ hlt, take_succ_getD h, ofLittleEndian_append, hlength, ofLittleEndian,
    ofLittleEndian, Nat.mul_zero, Nat.add_zero]

theorem readU64Le_toNat (h : 8 ≤ bytes.length) :
    (readU64Le bytes).toNat = ofLittleEndian (bytes.take 8) := by
  have hloop : ∀ count ≤ 8, ((List.range count).foldl (fun result index =>
      result ||| (bytes.getD index 0).toUInt64 <<< UInt64.ofNat (index * 8)) (0 : UInt64)).toNat =
        ofLittleEndian (bytes.take count) := by
    intro count hcount
    induction count with
    | zero => rfl
    | succ count ih =>
      have hbyte : (bytes.getD count 0).toNat < 256 := (bytes.getD count 0).toNat_lt
      have hshift : (bytes.getD count 0).toNat <<< (8 * count) < 2 ^ 64 := by
        rw [Nat.shiftLeft_eq]
        calc (bytes.getD count 0).toNat * 2 ^ (8 * count)
            < 256 * 2 ^ (8 * count) := Nat.mul_lt_mul_of_pos_right hbyte (Nat.two_pow_pos _)
          _ = 2 ^ (8 * (count + 1)) := by rw [show (256 : ℕ) = 2 ^ 8 from rfl, ← pow_add]; ring_nf
          _ ≤ 2 ^ 64 := Nat.pow_le_pow_right (by decide) (by omega)
      have hword : (UInt64.ofNat (count * 8)).toNat % 64 = 8 * count := by
        rw [UInt64.toNat_ofNat', Nat.mod_eq_of_lt (by omega)]
        omega
      rw [range_succ, foldl_append, foldl_cons, foldl_nil, UInt64.toNat_or,
        ih (by omega), UInt64.toNat_shiftLeft, UInt8.toNat_toUInt64, hword,
        Nat.mod_eq_of_lt hshift, ← ofLittleEndian_take_succ (by omega)]
  exact hloop 8 le_rfl

theorem readU32Le_toNat (h : 4 ≤ bytes.length) :
    (readU32Le bytes).toNat = ofLittleEndian (bytes.take 4) := by
  have hshift : ∀ (byte : UInt8) (count : ℕ), count < 4 →
      (byte.toUInt32 <<< UInt32.ofNat (8 * count)).toNat = byte.toNat <<< (8 * count) := by
    intro byte count hcount
    have hbyte : byte.toNat < 256 := byte.toNat_lt
    have hword : (UInt32.ofNat (8 * count)).toNat % 32 = 8 * count := by
      rw [UInt32.toNat_ofNat', Nat.mod_eq_of_lt (by omega)]
      omega
    have hfits : byte.toNat <<< (8 * count) < 2 ^ 32 := by
      rw [Nat.shiftLeft_eq]
      calc byte.toNat * 2 ^ (8 * count)
          < 256 * 2 ^ (8 * count) := Nat.mul_lt_mul_of_pos_right hbyte (Nat.two_pow_pos _)
        _ = 2 ^ (8 * (count + 1)) := by rw [show (256 : ℕ) = 2 ^ 8 from rfl, ← pow_add]; ring_nf
        _ ≤ 2 ^ 32 := Nat.pow_le_pow_right (by decide) (by omega)
    rw [UInt32.toNat_shiftLeft, UInt8.toNat_toUInt32, hword, Nat.mod_eq_of_lt hfits]
  have hone := hshift (bytes.getD 1 0) 1 (by decide)
  have htwo := hshift (bytes.getD 2 0) 2 (by decide)
  have hthree := hshift (bytes.getD 3 0) 3 (by decide)
  have hzero : ofLittleEndian (bytes.take (0 + 1)) = (bytes.getD 0 0).toNat := by
    rw [ofLittleEndian_take_succ (by omega)]
    simp [ofLittleEndian]
  rw [ofLittleEndian_take_succ (by omega), ofLittleEndian_take_succ (by omega),
    ofLittleEndian_take_succ (by omega), hzero, readU32Le, UInt32.toNat_or, UInt32.toNat_or,
    UInt32.toNat_or, UInt8.toNat_toUInt32]
  exact congrArg₂ _ (congrArg₂ _ (congrArg₂ _ rfl hone) htwo) hthree

/-- Clearing bits, of an unbounded integer. -/
theorem land_lnot (value mask : ℕ) :
    Int.land value (Int.lnot mask) = (Nat.ldiff value mask : ℕ) := rfl

/-- Clearing bits, of a word. -/
theorem toNat_and_not (value mask : UInt64) :
    (value &&& ~~~mask).toNat = Nat.ldiff value.toNat mask.toNat := by
  refine Nat.eq_of_testBit_eq fun i => ?_
  rw [UInt64.toNat_and, UInt64.toNat_not, Nat.testBit_and, Nat.testBit_ldiff]
  by_cases hi : i < 64
  · have hmask : UInt64.size - 1 - mask.toNat = 2 ^ 64 - (mask.toNat + 1) := by
      rw [Nat.sub_sub, Nat.add_comm]
      rfl
    rw [hmask, Nat.testBit_two_pow_sub_succ mask.toNat_lt]
    simp [hi]
  · have hzero : value.toNat.testBit i = false :=
      Nat.testBit_lt_two_pow (value.toNat_lt.trans_le
        (Nat.pow_le_pow_right (by decide) (not_lt.1 hi)))
    rw [hzero, Bool.false_and, Bool.false_and]

section

variable {vector : List UInt8}

section

variable (hsize : vector.length = vectorSize)

include hsize

theorem readU32Le_eq {offset : ℕ} (h : offset + 4 ≤ 424) :
    (readU32Le (vector.drop offset)).toNat = u32 vector offset :=
  readU32Le_toNat (by rw [length_drop, hsize, vectorSize]; omega)

theorem readU64Le_eq {offset : ℕ} (h : offset + 8 ≤ 424) :
    (readU64Le (vector.drop offset)).toNat = u64 vector offset :=
  readU64Le_toNat (by rw [length_drop, hsize, vectorSize]; omega)

theorem reserved_any :
    ((List.range 12).any fun index => vector.getD (reservedOffset + index) 0 ≠ 0) =
      (vector.drop reservedOffset).any (· ≠ 0) := by
  have hlength : (vector.drop reservedOffset).length = 12 := by
    rw [length_drop, hsize]
    rfl
  have hmap : vector.drop reservedOffset =
      (List.range 12).map fun index => vector.getD (reservedOffset + index) 0 := by
    refine ext_getElem (by rw [hlength, length_map, length_range]) fun i hi _ => ?_
    rw [getElem_map, getElem_range, getElem_drop, getD_eq_getElem?_getD,
      List.getElem?_eq_getElem, Option.getD_some]
  rw [hmap, any_map]
  rfl

/-- A word in C is the number in Python. -/
theorem readU32Le_eq_iff {offset value : ℕ} (h : offset + 4 ≤ 424) (hvalue : value < 2 ^ 32) :
    readU32Le (vector.drop offset) = UInt32.ofNat value ↔ u32 vector offset = value := by
  rw [← UInt32.toNat_inj, readU32Le_eq hsize h, UInt32.toNat_ofNat', Nat.mod_eq_of_lt hvalue]

end

/-- One disjunction of the checks of C is a chain of checks of Python. -/
theorem fields_eq (kind count mediation durability : ℕ) (rest : Status) :
    (if kind ∉ [1] then .malformedEvidence else if 8 < count then .malformedEvidence
      else if mediation ∉ [1, 2, 3] then .malformedEvidence
      else if durability ∉ [1, 2, 3] then .malformedEvidence else rest) =
    if kind ≠ 1 ∨ 8 < count ∨ mediation < 1 ∨ 3 < mediation ∨ durability < 1 ∨ 3 < durability then
      .malformedEvidence else rest := by
  have hrange : ∀ value : ℕ, value ∉ [1, 2, 3] ↔ value < 1 ∨ 3 < value := by
    intro value
    simp only [mem_cons, not_mem_nil, or_false]
    omega
  have hone : kind ∉ [1] ↔ kind ≠ 1 := by rw [mem_singleton]
  simp only [hrange, hone]
  split_ifs <;> first | rfl | (exfalso; omega)

/-- **The validators agree.** -/
theorem validate_eq_init (vector : List UInt8) :
    validateProofCaseVector vector = (proofCaseInit true (some vector)).1 := by
  have hinit : (proofCaseInit true (some vector)).1 = validateVector (some vector) := by
    rw [proofCaseInit, if_neg (by decide)]
    cases validateVector (some vector) <;> rfl
  rw [hinit, validateProofCaseVector, validateVector]
  by_cases hsize : vector.length = vectorSize
  · have hword : ∀ word : UInt64, word = 0 ↔ word.toNat = 0 := fun word => by
      rw [← UInt64.toNat_inj]
      rfl
    have hmask : (UInt64.ofNat requiredObligationMask).toNat = requiredObligationMask := by decide
    -- a mask is tested on words here, and on integers there
    have hunsupported : (readU64Le (vector.drop requiredObligationMaskOffset) |||
          readU64Le (vector.drop presentObligationMaskOffset)) &&&
            ~~~(UInt64.ofNat requiredObligationMask) = 0 ↔
        Int.land (u64 vector requiredObligationMaskOffset |||
          u64 vector presentObligationMaskOffset : ℕ) (Int.lnot requiredObligationMask) = 0 := by
      simp (disch := decide) only [hword, toNat_and_not, UInt64.toNat_or, readU64Le_eq hsize, hmask,
        land_lnot, Int.natCast_eq_zero]
    have hmalformed : readU64Le (vector.drop presentObligationMaskOffset) &&&
          ~~~readU64Le (vector.drop requiredObligationMaskOffset) = 0 ↔
        Int.land (u64 vector presentObligationMaskOffset)
          (Int.lnot (u64 vector requiredObligationMaskOffset)) = 0 := by
      simp (disch := decide) only [hword, toNat_and_not, readU64Le_eq hsize, land_lnot,
        Int.natCast_eq_zero]
    have hless : ∀ (word : UInt32) (value : ℕ), value < 2 ^ 32 →
        (word < UInt32.ofNat value ↔ word.toNat < value) := by
      intro word value hvalue
      rw [UInt32.lt_iff_toNat_lt, UInt32.toNat_ofNat', Nat.mod_eq_of_lt hvalue]
    have hgreater : ∀ (word : UInt32) (value : ℕ), value < 2 ^ 32 →
        (UInt32.ofNat value < word ↔ value < word.toNat) := by
      intro word value hvalue
      rw [UInt32.lt_iff_toNat_lt, UInt32.toNat_ofNat', Nat.mod_eq_of_lt hvalue]
    dsimp only
    simp (disch := decide) only [hsize, ne_eq, not_true_eq_false, if_false, readU32Le_eq_iff hsize,
      hunsupported, hmalformed, hless, show (8 : UInt32) = UInt32.ofNat 8 from rfl, hgreater,
      readU32Le_eq hsize]
    rw [← reserved_any hsize]
    refine ite_congr rfl (fun _ => rfl) fun _ => ite_congr rfl (fun _ => rfl) fun _ =>
      ite_congr rfl (fun _ => rfl) fun _ => ite_congr rfl (fun _ => rfl) fun _ => ?_
    exact fields_eq (u32 vector caseKindOffset) (u32 vector obligationCountOffset)
      (u32 vector mediationOutcomeOffset) (u32 vector durabilityProfileOffset) _
  · rw [if_pos hsize]
    dsimp only
    rw [if_pos hsize]

end

end PooFlow.ProofCase
