import PooFlow.Foundation.Hex
import PooFlow.Foundation.Overwrite
import Mathlib.Data.Int.Bitwise

namespace PooFlow.ProofCase

open Foundation

/-- `ProofStatus`, `poo_flow_proof_status`. -/
inductive Status where
  | ok
  | invalidArgument
  | bufferTooSmall
  | staleHandle
  | schemaMismatch
  | malformedEvidence
  | unsupportedObligation

def abiVersion : ℕ := 1
def vectorSize : ℕ := 424
def requiredObligationMask : ℕ := 0xff
def caseKindAuthorizedEffectToken : ℕ := 1
def mediationAllow : ℕ := 1
def mediationDeny : ℕ := 2
def mediationInvalidToken : ℕ := 3
def durabilityStrict : ℕ := 1
def durabilityBatched : ℕ := 2
def durabilityDiagnostic : ℕ := 3

def abiVersionOffset : ℕ := 0
def caseKindOffset : ℕ := 4
def schemaFingerprintOffset : ℕ := 8
def tokenDigestOffset : ℕ := 40
def policyRevisionOffset : ℕ := 72
def effectDigestOffset : ℕ := 104
def semanticRootOffset : ℕ := 136
def executionRootOffset : ℕ := 168
def batchRootOffset : ℕ := 200
def subjectBindingOffset : ℕ := 232
def resourceBindingOffset : ℕ := 264
def actionBindingOffset : ℕ := 296
def previousEvidenceRootOffset : ℕ := 328
def nonceOffset : ℕ := 360
def epochOffset : ℕ := 368
def sequenceOffset : ℕ := 376
def requiredObligationMaskOffset : ℕ := 384
def presentObligationMaskOffset : ℕ := 392
def obligationCountOffset : ℕ := 400
def mediationOutcomeOffset : ℕ := 404
def durabilityProfileOffset : ℕ := 408
def reservedOffset : ℕ := 412

def schemaFingerprint : List UInt8 :=
  [0xba, 0xd9, 0xc5, 0xd0, 0x78, 0x1d, 0x0a, 0x99, 0xe2, 0xf8, 0xd5, 0x8c, 0xb9, 0x4a, 0xba, 0xe9,
    0xdf, 0xc2, 0xed, 0xa4, 0xc7, 0x1a, 0x01, 0x00, 0x98, 0x97, 0xf7, 0xfc, 0x54, 0x19, 0xe0, 0xe7]

def slice (vector : List UInt8) (offset size : ℕ) : List UInt8 := (vector.drop offset).take size

def u32 (vector : List UInt8) (offset : ℕ) : ℕ := ofLittleEndian (slice vector offset 4)

def u64 (vector : List UInt8) (offset : ℕ) : ℕ := ofLittleEndian (slice vector offset 8)

def validateProofCaseVector (vector : List UInt8) : Status :=
  if vector.length ≠ vectorSize then .malformedEvidence
  else if u32 vector abiVersionOffset ≠ abiVersion then .schemaMismatch
  else if slice vector schemaFingerprintOffset 32 ≠ schemaFingerprint then .schemaMismatch
  else
    let required := u64 vector requiredObligationMaskOffset
    let present := u64 vector presentObligationMaskOffset
    -- the integers of Python are unbounded, and a complement is negative
    if Int.land (required ||| present : ℕ) (Int.lnot requiredObligationMask) ≠ 0 then
      .unsupportedObligation
    else if Int.land present (Int.lnot required) ≠ 0 then .malformedEvidence
    else if u32 vector caseKindOffset ∉ [caseKindAuthorizedEffectToken] then .malformedEvidence
    else if 8 < u32 vector obligationCountOffset then .malformedEvidence
    else if u32 vector mediationOutcomeOffset ∉
        [mediationAllow, mediationDeny, mediationInvalidToken] then .malformedEvidence
    else if u32 vector durabilityProfileOffset ∉
        [durabilityStrict, durabilityBatched, durabilityDiagnostic] then .malformedEvidence
    else if (vector.drop reservedOffset).any (· ≠ 0) then .malformedEvidence
    else .ok

def readU32Le (bytes : List UInt8) : UInt32 :=
  (bytes.getD 0 0).toUInt32 ||| (bytes.getD 1 0).toUInt32 <<< 8 |||
    (bytes.getD 2 0).toUInt32 <<< 16 ||| (bytes.getD 3 0).toUInt32 <<< 24

def readU64Le (bytes : List UInt8) : UInt64 :=
  (List.range 8).foldl (fun result index =>
    result ||| (bytes.getD index 0).toUInt64 <<< UInt64.ofNat (index * 8)) 0

/-- `validate_vector`; `none` is `NULL`. -/
def validateVector (vector : Option (List UInt8)) : Status :=
  match vector with
  | none => .invalidArgument
  | some vector =>
    if vector.length ≠ vectorSize then .malformedEvidence
    else if readU32Le (vector.drop abiVersionOffset) ≠ UInt32.ofNat abiVersion then .schemaMismatch
    else if slice vector schemaFingerprintOffset 32 ≠ schemaFingerprint then .schemaMismatch
    else
      let requiredMask := readU64Le (vector.drop requiredObligationMaskOffset)
      let presentMask := readU64Le (vector.drop presentObligationMaskOffset)
      if (requiredMask ||| presentMask) &&& ~~~(UInt64.ofNat requiredObligationMask) ≠ 0 then
        .unsupportedObligation
      else if presentMask &&& ~~~requiredMask ≠ 0 then .malformedEvidence
      else
        let caseKind := readU32Le (vector.drop caseKindOffset)
        let obligationCount := readU32Le (vector.drop obligationCountOffset)
        let mediation := readU32Le (vector.drop mediationOutcomeOffset)
        let durability := readU32Le (vector.drop durabilityProfileOffset)
        if caseKind ≠ UInt32.ofNat caseKindAuthorizedEffectToken ∨ 8 < obligationCount ∨
            mediation < UInt32.ofNat mediationAllow ∨
            UInt32.ofNat mediationInvalidToken < mediation ∨
            durability < UInt32.ofNat durabilityStrict ∨
            UInt32.ofNat durabilityDiagnostic < durability then .malformedEvidence
        else if (List.range 12).any fun index => vector.getD (reservedOffset + index) 0 ≠ 0 then
          .malformedEvidence
        else .ok

/-- `poo_flow_proof_case_handle`. -/
structure Handle where
  data : Option (List UInt8)
  size : ℕ
  generation : ℕ

/-- `poo_flow_proof_case_init`; the handle is what the call leaves in `out_handle`, if
there is one. -/
def proofCaseInit (outHandle : Bool) (vector : Option (List UInt8)) : Status × Option Handle :=
  if outHandle = false then (.invalidArgument, none)
  else
    match validateVector vector with
    | .ok => (.ok, some ⟨vector, (vector.getD []).length, 1⟩)
    | status => (status, some ⟨none, 0, 0⟩)

/-- What a slot for a digest holds: a text, an object with one, or `#f`. -/
inductive DigestValue where
  | text (value : String)
  | object (digest : String)
  | absent

structure AuthorizedEffectProofCase where
  kind : String
  tokenDigest : DigestValue
  policyRevision : DigestValue
  effectDigest : DigestValue
  semanticRoot : DigestValue
  executionRoot : DigestValue
  batchRoot : DigestValue
  subjectBinding : DigestValue
  resourceBinding : DigestValue
  actionBinding : DigestValue
  previousEvidenceRoot : DigestValue
  nonce : ℤ
  epoch : ℤ
  sequence : ℤ
  requiredObligationMask : ℤ
  presentObligationMask : ℤ
  obligationCount : ℤ
  outcome : String
  durability : String

/-- `u8vector-set!` of the bytes of a number, one by one. -/
def setNumber (target : List UInt8) (offset count value : ℕ) : List UInt8 :=
  (List.range count).foldl (fun target index =>
    target.set (offset + index) (UInt8.ofNat ((value >>> (index * 8)) &&& 0xff))) target

def writeU32Le (target : List UInt8) (offset : ℕ) (value : ℤ) : Except String (List UInt8) := do
  guardElse (0 ≤ value ∧ value ≤ 0xffffffff) "proof vector u32 out of range"
  return setNumber target offset 4 value.toNat

def writeU64Le (target : List UInt8) (offset : ℕ) (value : ℤ) : Except String (List UInt8) := do
  guardElse (0 ≤ value ∧ value ≤ 0xffffffffffffffff) "proof vector u64 out of range"
  return setNumber target offset 8 value.toNat

/-- `copy-u8vector!`. -/
def copyBytes (source target : List UInt8) (offset : ℕ) : List UInt8 :=
  (List.range source.length).foldl (fun target index =>
    target.set (offset + index) (source.getD index 0)) target

/-- The text that a slot stands for; `#f` has none where it is not optional. -/
def normalizeDigest (value : DigestValue) (isOptional : Bool) : Except String String :=
  match value with
  | .text value => .ok value
  | .object digest => .ok digest
  | .absent =>
    if isOptional then .ok (String.ofList (List.replicate 64 '0'))
    else .error "proof vector digest is not an object"

def digest32Bytes (value : DigestValue) (isOptional : Bool) : Except String (List UInt8) := do
  let normalized ← normalizeDigest value isOptional
  guardElse (normalized.length = 64) "proof vector digest must contain 64 hex characters"
  let bytes ← presentElse (Hex.decode normalized.toList) "proof vector digest is not valid hex"
  guardElse (bytes.length = 32) "proof vector digest must decode to 32 bytes"
  return bytes

def writeDigest (value : DigestValue) (target : List UInt8) (offset : ℕ) (isOptional : Bool) :
    Except String (List UInt8) := do
  let bytes ← digest32Bytes value isOptional
  return copyBytes bytes target offset

def mediationTag (outcome : String) : Except String ℕ :=
  if outcome = "committed" ∨ outcome = "allow" then .ok mediationAllow
  else if outcome = "denied" ∨ outcome = "deny" then .ok mediationDeny
  else if outcome = "invalid-token" then .ok mediationInvalidToken
  else .error "unsupported proof mediation outcome"

def durabilityTag (durability : String) : Except String ℕ :=
  if durability = "strict" then .ok durabilityStrict
  else if durability = "batched" then .ok durabilityBatched
  else if durability = "diagnostic" then .ok durabilityDiagnostic
  else .error "unsupported proof durability"

def vectorWrite (proofCase : AuthorizedEffectProofCase) (target : List UInt8) :
    Except String (List UInt8) := do
  guardElse (proofCase.kind = "poo-flow-authorized-effect-proof-case")
    "proof vector requires AuthorizedEffectProofCase"
  guardElse (target.length = vectorSize) "proof vector target has wrong size"
  let target := List.replicate target.length 0
  let target ← writeU32Le target abiVersionOffset abiVersion
  let target ← writeU32Le target caseKindOffset caseKindAuthorizedEffectToken
  let target := copyBytes schemaFingerprint target schemaFingerprintOffset
  let target ← writeDigest proofCase.tokenDigest target tokenDigestOffset false
  let target ← writeDigest proofCase.policyRevision target policyRevisionOffset false
  let target ← writeDigest proofCase.effectDigest target effectDigestOffset false
  let target ← writeDigest proofCase.semanticRoot target semanticRootOffset false
  let target ← writeDigest proofCase.executionRoot target executionRootOffset false
  let target ← writeDigest proofCase.batchRoot target batchRootOffset true
  let target ← writeDigest proofCase.subjectBinding target subjectBindingOffset false
  let target ← writeDigest proofCase.resourceBinding target resourceBindingOffset false
  let target ← writeDigest proofCase.actionBinding target actionBindingOffset false
  let target ← writeDigest proofCase.previousEvidenceRoot target previousEvidenceRootOffset false
  let target ← writeU64Le target nonceOffset proofCase.nonce
  let target ← writeU64Le target epochOffset proofCase.epoch
  let target ← writeU64Le target sequenceOffset proofCase.sequence
  let target ← writeU64Le target requiredObligationMaskOffset proofCase.requiredObligationMask
  let target ← writeU64Le target presentObligationMaskOffset proofCase.presentObligationMask
  let target ← writeU32Le target obligationCountOffset proofCase.obligationCount
  let mediation ← mediationTag proofCase.outcome
  let target ← writeU32Le target mediationOutcomeOffset mediation
  let durability ← durabilityTag proofCase.durability
  writeU32Le target durabilityProfileOffset durability

end PooFlow.ProofCase
