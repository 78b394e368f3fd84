import Mathlib.Data.String.Basic
import PooFlow.Foundation.Sorting
import PooFlow.Journal.Merkle

namespace PooFlow.Temporal

open Foundation List

inductive Condition where
  | error (message : String) (irritants : List String)
  | invalid
  | divideByZero
  | wrongType
deriving DecidableEq

/-- `(error message irritant …)`. -/
def raise (message : String) (irritants : List String) : Condition := .error message irritants

variable {α : Type} {values : List String}

theorem forM_eq_ok {f : α → Except Condition Unit} {items : List α} :
    items.forM f = .ok () ↔ ∀ item ∈ items, f item = .ok () := by
  induction items with
  | nil => exact ⟨fun _ => forall_mem_nil _, fun _ => rfl⟩
  | cons item items ih =>
    show (f item >>= fun _ => items.forM f) = .ok () ↔ _
    rw [bind_eq_ok, forall_mem_cons, ← ih]
    exact ⟨fun ⟨⟨⟩, hstep⟩ => hstep, fun hstep => ⟨⟨⟩, hstep⟩⟩

/-- `(/ value divisor)`. -/
def divide (value divisor : ℚ) : Except Condition ℚ :=
  if divisor = 0 then .error .divideByZero else .ok (value / divisor)

theorem divide_of_ne {value divisor : ℚ} (h : divisor ≠ 0) :
    divide value divisor = .ok (value / divisor) :=
  if_neg h

def Text (value : String) : Prop := value ≠ ""

instance : DecidablePred Text := fun value => inferInstanceAs (Decidable (value ≠ ""))

/-- `(list-sort string<? values)`. -/
def sortTexts (values : List String) : List String := values.insertionSort (· ≤ ·)

@[simp] theorem mem_sortTexts {value : String} : value ∈ sortTexts values ↔ value ∈ values :=
  (perm_insertionSort _ _).mem_iff

theorem nodup_sortTexts : (sortTexts values).Nodup ↔ values.Nodup :=
  (perm_insertionSort _ _).nodup_iff

theorem sortTexts_eq_iff {values' : List String} :
    sortTexts values = sortTexts values' ↔ values.Perm values' := by
  constructor
  · intro h
    have hleft : (sortTexts values').Perm values := h ▸ perm_insertionSort _ values
    exact hleft.symm.trans (perm_insertionSort _ values')
  · intro h
    exact @sortOn_congr _ _ _ id _ _ h fun _ _ _ _ => id

/-- What `write` prints. -/
inductive Datum where
  | symbol (name : String)
  | text (value : String)
  | integer (value : ℕ)
  | rational (value : ℚ)
  | boolean (value : Bool)
  | list (items : List Datum)

def Datum.number (value : ℚ) : Datum :=
  if value.den = 1 ∧ 0 ≤ value.num then .integer value.num.toNat else .rational value

def Datum.texts (values : List String) : Datum := .list (values.map .text)

/-- A value, or `#f`. -/
def Datum.orFalse (row : Option Datum) : Datum := row.getD (.boolean false)

def digest (sha256 : Bytes → Digest) (write : Datum → String) (datum : Datum) : String :=
  "sha256:" ++ hexText (sha256 (encodeText (write datum))).bytes

theorem text_digest {sha256 : Bytes → Digest} {write : Datum → String} (datum : Datum) :
    Text (digest sha256 write datum) := by
  intro hempty
  have hlength := congrArg String.length hempty
  rw [digest, String.length_append] at hlength
  exact absurd hlength (by
    have : "sha256:".length = 7 := by decide
    rw [String.length_empty]
    omega)

mutual

/-- What `write` prints, of texts without special characters. -/
def writeDatum : Datum → String
  | .symbol name => name
  | .text value => "\"" ++ value ++ "\""
  | .integer value => toString value
  | .rational value =>
    if value.den = 1 then toString value.num else toString value.num ++ "/" ++ toString value.den
  | .boolean value => if value then "#t" else "#f"
  | .list items => "(" ++ writeItems items ++ ")"

def writeItems : List Datum → String
  | [] => ""
  | [item] => writeDatum item
  | item :: items => writeDatum item ++ " " ++ writeItems items

end

def checksum (bytes : Bytes) : Digest :=
  ⟨(List.range digestBytes).map fun i => UInt8.ofNat
      (bytes.foldl (fun total byte => (total * 257 + byte.toNat + 1) % 2 ^ 256) 0 / 256 ^ i),
    by simp⟩

structure Instant where
  identity : String
  domainIdentity : String
  coordinate : ℕ
  provenanceIdentity : String
  modality : String
deriving DecidableEq

def Instant.Shape (value : Instant) : Prop :=
  Text value.identity ∧ Text value.domainIdentity ∧ Text value.provenanceIdentity

instance : DecidablePred Instant.Shape := fun _ => inferInstanceAs (Decidable (_ ∧ _))

def instantRow (instant : Instant) : Datum :=
  .list [.text instant.identity, .text instant.domainIdentity, .integer instant.coordinate,
    .text instant.provenanceIdentity, .symbol instant.modality]

structure Interval where
  identity : String
  start : Instant
  finish : Instant
  startClosed : Bool
  endClosed : Bool
deriving DecidableEq

def Interval.Shape (value : Interval) : Prop :=
  Text value.identity ∧ value.start.Shape ∧ value.finish.Shape ∧
    value.start.domainIdentity = value.finish.domainIdentity ∧
    value.start.coordinate ≤ value.finish.coordinate

instance : DecidablePred Interval.Shape := fun _ => inferInstanceAs (Decidable (_ ∧ _))

inductive Membership where
  | inside | outside | incomparable | unknown

/-- `poo-flow-temporal-interval-contains?`, of an interval that may be `#f`. -/
def intervalContains (interval : Option Interval) (instant : Instant) :
    Except Condition Membership :=
  match interval with
  | none => .error (raise "interval membership requires an interval and instant" [])
  | some interval => do
    guardElse (interval.Shape ∧ instant.Shape)
      (raise "interval membership requires an interval and instant" [])
    if interval.start.domainIdentity ≠ instant.domainIdentity then
      return .incomparable
    else if interval.start.modality ≠ "observed" ∨ interval.finish.modality ≠ "observed" ∨
        instant.modality ≠ "observed" then
      return .unknown
    else
      let position := instant.coordinate
      let lower := interval.start.coordinate
      let upper := interval.finish.coordinate
      if (if interval.startClosed then lower ≤ position else lower < position) ∧
          (if interval.endClosed then position ≤ upper else position < upper) then
        return .inside
      else
        return .outside

inductive Operation where
  | assert | correct | retract
deriving DecidableEq

def Operation.symbol : Operation → String
  | .assert => "assert"
  | .correct => "correct"
  | .retract => "retract"

structure EvidenceRevision where
  identity : String
  subjectIdentity : String
  operation : Operation
  predecessorIdentity : Option String
  admissionInstant : Instant
  validInterval : Option Interval
  contentIdentity : Option String
deriving DecidableEq

/-- A value that is not `#f` and has the property. -/
def Given {α : Type} (p : α → Prop) (value : Option α) : Prop := ∃ a ∈ value, p a

instance {α : Type} {p : α → Prop} [DecidablePred p] : DecidablePred (Given p) := fun value =>
  match value with
  | none => isFalse nofun
  | some a => decidable_of_iff (p a) ⟨fun h => ⟨a, rfl, h⟩, fun ⟨_, rfl, h⟩ => h⟩

def Operation.Fits (operation : Operation) (predecessor : Option String)
    (interval : Option Interval) (content : Option String) : Prop :=
  match operation with
  | .assert => predecessor = none ∧ Given Interval.Shape interval ∧ Given Text content
  | .correct => Given Text predecessor ∧ Given Interval.Shape interval ∧ Given Text content
  | .retract => Given Text predecessor ∧ interval = none ∧ content = none

instance (operation : Operation) (predecessor : Option String) (interval : Option Interval)
    (content : Option String) : Decidable (operation.Fits predecessor interval content) :=
  match operation with
  | .assert => inferInstanceAs (Decidable (_ ∧ _ ∧ _))
  | .correct => inferInstanceAs (Decidable (_ ∧ _ ∧ _))
  | .retract => inferInstanceAs (Decidable (_ ∧ _ ∧ _))

def EvidenceRevision.Shape (value : EvidenceRevision) : Prop :=
  Text value.identity ∧ Text value.subjectIdentity ∧ value.admissionInstant.Shape ∧
    value.admissionInstant.modality = "observed" ∧
    value.operation.Fits value.predecessorIdentity value.validInterval value.contentIdentity

instance : DecidablePred EvidenceRevision.Shape := fun _ =>
  inferInstanceAs (Decidable (_ ∧ _ ∧ _ ∧ _ ∧ _))

structure EvidenceJournal where
  identity : String
  semanticDigest : String
  admissionDomainIdentity : String
  revisions : List EvidenceRevision

def EvidenceJournal.Shape (value : EvidenceJournal) : Prop :=
  (∀ text ∈ [value.identity, value.semanticDigest, value.admissionDomainIdentity], Text text) ∧
    ∀ revision ∈ value.revisions, revision.Shape

instance : DecidablePred EvidenceJournal.Shape := fun _ => inferInstanceAs (Decidable (_ ∧ _))

structure EvidenceSnapshot where
  journalDigest : String
  cutDigest : String
  projectionDigest : String
  asOfInstantIdentity : String
  validAtInstantIdentity : Option String
  validAtInstantDigest : Option String
  activeRevisionIdentities : List String
  retractedSubjectIdentities : List String
  conflictedSubjectIdentities : List String
  outsideValidSubjectIdentities : List String
  uncertainSubjectIdentities : List String
  incomparableSubjectIdentities : List String
  visibleRevisionIdentities : List String
  futureRevisionIdentities : List String

def EvidenceSnapshot.Shape (value : EvidenceSnapshot) : Prop :=
  (∀ text ∈ [value.journalDigest, value.cutDigest, value.projectionDigest,
    value.asOfInstantIdentity], Text text) ∧
  (value.validAtInstantIdentity = none ∨ Given Text value.validAtInstantIdentity) ∧
  (value.validAtInstantIdentity = none ∧ value.validAtInstantDigest = none ∨
    Given Text value.validAtInstantIdentity ∧ Given Text value.validAtInstantDigest) ∧
  ∀ texts ∈ [value.activeRevisionIdentities, value.retractedSubjectIdentities,
    value.conflictedSubjectIdentities, value.outsideValidSubjectIdentities,
    value.uncertainSubjectIdentities, value.incomparableSubjectIdentities,
    value.visibleRevisionIdentities, value.futureRevisionIdentities], ∀ text ∈ texts, Text text

instance : DecidablePred EvidenceSnapshot.Shape := fun _ =>
  inferInstanceAs (Decidable (_ ∧ _ ∧ _ ∧ _))

end PooFlow.Temporal
