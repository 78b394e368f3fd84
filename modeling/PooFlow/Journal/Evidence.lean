import PooFlow.Foundation.Guard
import PooFlow.Foundation.Hex

/-! The values of `evidence_model.py`. Byte strings have any length; a nonce is a pair of integers
in a request and text in a row. -/

namespace PooFlow

open Foundation

abbrev Bytes := List UInt8

/-- What a store operation raises: an `AuthorizedEffectEvidenceError`, or an
exception of the language or the database. -/
inductive Raised where
  | evidenceError (message : String)
  | other
deriving DecidableEq

def zeroRoot : Bytes := List.replicate 32 0

@[simp] theorem length_zeroRoot : zeroRoot.length = 32 := rfl

abbrev Nonce := ℤ × ℤ

def Nonce.IsUint64 (nonce : Nonce) : Prop :=
  (0 ≤ nonce.1 ∧ nonce.1 < 2 ^ 64) ∧ 0 ≤ nonce.2 ∧ nonce.2 < 2 ^ 64

instance (nonce : Nonce) : Decidable nonce.IsUint64 := inferInstanceAs (Decidable (_ ∧ _))

def Nonce.text (nonce : Nonce) : String :=
  String.ofList (Hex.digits 16 nonce.1.toNat ++ Hex.digits 16 nonce.2.toNat)

def evidenceNonceText (nonce : Nonce) : Except Raised String := do
  guardElse nonce.IsUint64 (.evidenceError "nonce limbs must be uint64")
  return nonce.text

/-- `parse_evidence_nonce`. Of the spellings that `int(_, 16)` reads, rows hold
digits only. -/
def parseEvidenceNonce (text : String) : Except Raised Nonce := do
  let high ← presentElse (Hex.read (text.toList.take 16)) .other
  let low ← presentElse (Hex.read (text.toList.drop 16)) .other
  return (high, low)

theorem evidenceNonceText_eq_ok {nonce : Nonce} {text : String} :
    evidenceNonceText nonce = .ok text ↔ nonce.IsUint64 ∧ nonce.text = text := by
  simp [evidenceNonceText]

/-- **A stored nonce is read back as it was given.** -/
theorem parse_evidenceNonceText {nonce : Nonce} (h : nonce.IsUint64) :
    parseEvidenceNonce nonce.text = .ok nonce := by
  obtain ⟨high, low⟩ := nonce
  obtain ⟨⟨hhigh0, hhigh⟩, hlow0, hlow⟩ := h
  dsimp only at hhigh0 hhigh hlow0 hlow
  have hreadHigh := @Hex.read_digits 16 high.toNat (by decide) (by omega)
  have hreadLow := @Hex.read_digits 16 low.toNat (by decide) (by omega)
  have htext : (Nonce.text (high, low)).toList =
      Hex.digits 16 high.toNat ++ Hex.digits 16 low.toNat := String.toList_ofList
  have htake : (Nonce.text (high, low)).toList.take 16 = Hex.digits 16 high.toNat := by
    rw [htext, List.take_left' (Hex.length_digits _ _)]
  have hdrop : (Nonce.text (high, low)).toList.drop 16 = Hex.digits 16 low.toNat := by
    rw [htext, List.drop_left' (Hex.length_digits _ _)]
  rw [parseEvidenceNonce, htake, hdrop, hreadHigh, hreadLow]
  have hhighCast : (high.toNat : ℤ) = high := Int.toNat_of_nonneg hhigh0
  have hlowCast : (low.toNat : ℤ) = low := Int.toNat_of_nonneg hlow0
  simp only [presentElse, bind, Except.bind, pure, Except.pure, hhighCast, hlowCast]

theorem Nonce.text_inj {a b : Nonce} (ha : a.IsUint64) (hb : b.IsUint64)
    (h : a.text = b.text) : a = b := by
  have hparse := parse_evidenceNonceText ha
  rw [h, parse_evidenceNonceText hb] at hparse
  exact (Except.ok.inj hparse).symm

structure EffectBinding (ν : Type) where
  sessionId : String
  mediationSequence : ℤ
  firstSequence : ℤ
  lastSequence : ℤ
  nonce : ν
  semanticRoot : Bytes
  beforeExecutionRoot : Bytes
deriving DecidableEq

abbrev AuthorizedEffectEvidenceReservation := EffectBinding Nonce

inductive EvidenceOutcome where
  | committed | buffered | indeterminate
  | unsupported (text : String)
deriving DecidableEq

def EvidenceOutcome.text : EvidenceOutcome → String
  | .committed => "committed"
  | .buffered => "buffered"
  | .indeterminate => "indeterminate"
  | .unsupported text => text

structure Evidence (ν : Type) extends EffectBinding ν where
  afterExecutionRoot : Bytes
  outcome : EvidenceOutcome
  observationDigest : Bytes
  evidenceReference : String := ""
  kernelSignature : Bytes := []
  signatureVerified : Bool := false
  inclusionProofVerified : Bool := false
  createdAtNs : ℤ
deriving DecidableEq

abbrev AuthorizedEffectEvidenceReceipt := Evidence Nonce

section

variable {ν μ : Type}

def EffectBinding.withNonce (b : EffectBinding ν) (nonce : μ) : EffectBinding μ :=
  { b with nonce := nonce }

def Evidence.withNonce (e : Evidence ν) (nonce : μ) : Evidence μ :=
  { e with toEffectBinding := e.toEffectBinding.withNonce nonce }

end

/-- The first check of `validate_authorized_effect_evidence_receipt`. -/
def EffectBinding.InOrder {ν : Type} (b : EffectBinding ν) : Prop :=
  b.sessionId ≠ "" ∧ 0 < b.mediationSequence ∧ 0 < b.firstSequence ∧
    b.firstSequence ≤ b.lastSequence

instance {ν : Type} (b : EffectBinding ν) : Decidable b.InOrder :=
  inferInstanceAs (Decidable (_ ∧ _))

namespace Evidence

variable {ν : Type} (e : Evidence ν)

def Digested : Prop :=
  e.semanticRoot.length = 32 ∧ e.beforeExecutionRoot.length = 32 ∧
    e.afterExecutionRoot.length = 32 ∧ e.observationDigest.length = 32

instance : Decidable e.Digested := inferInstanceAs (Decidable (_ ∧ _))

/-- Evidence that is not committed leaves the root where it was. -/
def KeepsRoot : Prop :=
  e.outcome = .buffered ∨ e.outcome = .indeterminate →
    e.afterExecutionRoot = e.beforeExecutionRoot

instance : Decidable e.KeepsRoot := inferInstanceAs (Decidable (_ → _))

end Evidence

/-- `validate_authorized_effect_evidence_receipt`. -/
def validateReceipt (receipt : AuthorizedEffectEvidenceReceipt) : Except Raised Unit := do
  guardElse receipt.InOrder (.evidenceError "invalid evidence session or sequence")
  guardElse (receipt.outcome = .committed ∨ receipt.outcome = .buffered ∨
    receipt.outcome = .indeterminate) (.evidenceError "unsupported mediation outcome")
  guardElse receipt.Digested (.evidenceError "evidence digest must be 32 bytes")
  guardElse receipt.KeepsRoot
    (.evidenceError "non-committed evidence cannot advance execution root")

structure ValidReceipt {ν : Type} (e : Evidence ν) : Prop where
  inOrder : e.InOrder
  supported : e.outcome = .committed ∨ e.outcome = .buffered ∨ e.outcome = .indeterminate
  digested : e.Digested
  keepsRoot : e.KeepsRoot

theorem validateReceipt_eq_ok {receipt : AuthorizedEffectEvidenceReceipt} {u : Unit} :
    validateReceipt receipt = .ok u ↔ ValidReceipt receipt := by
  simp only [validateReceipt, bind_eq_ok, guardElse_eq_ok, exists_const]
  constructor
  · rintro ⟨horder, hsupported, hdigested, hroot⟩
    exact ⟨horder, hsupported, hdigested, hroot⟩
  · rintro ⟨horder, hsupported, hdigested, hroot⟩
    exact ⟨horder, hsupported, hdigested, hroot⟩

/-- `authorized_effect_evidence_receipt`: the receipt, once it is valid. -/
def authorizedEffectEvidenceReceipt (receipt : AuthorizedEffectEvidenceReceipt) :
    Except Raised AuthorizedEffectEvidenceReceipt := do
  validateReceipt receipt
  return receipt

end PooFlow
