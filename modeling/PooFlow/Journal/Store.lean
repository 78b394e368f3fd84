import Mathlib.Data.List.Sort
import PooFlow.Foundation.Run
import PooFlow.Journal.Merkle

/-! `evidence.py` and `batched_evidence_store.py`: five tables, each the list of its rows as
inserted. A transaction that raises is rolled back; `available` is false when the database fails a
statement of it. -/

namespace PooFlow

open Foundation

/-- The integers of the database: what `int` makes of one that was written. Of 64
bits they come back as they are, beyond as the real number that is stored for them. -/
class Turso where
  integer : ℤ → ℤ
  integer_eq : ∀ n, -2 ^ 63 ≤ n → n < 2 ^ 63 → integer n = n
  integer_integer : ∀ n, integer (integer n) = integer n

namespace Turso

/-- A database that keeps the nearest multiple of 2048 of an integer beyond 64 bits:
up to `2 ^ 64` these are the real numbers. -/
scoped instance rounding : Turso where
  integer n := if -2 ^ 63 ≤ n ∧ n < 2 ^ 63 then n else (n + 1024) / 2048 * 2048
  integer_eq n hle hlt := if_pos ⟨hle, hlt⟩
  integer_integer n := by
    split_ifs <;> omega

end Turso

section

variable [Turso]

/-- The range as the database gives it back. The other integers of a row count rows,
or are never read. -/
def EffectBinding.stored {ν : Type} (b : EffectBinding ν) : EffectBinding ν :=
  { b with
    firstSequence := Turso.integer b.firstSequence
    lastSequence := Turso.integer b.lastSequence }

def Evidence.stored (e : Evidence String) : Evidence String :=
  { e with toEffectBinding := e.toEffectBinding.stored }

theorem EffectBinding.stored_stored {ν : Type} (b : EffectBinding ν) :
    b.stored.stored = b.stored := by
  simp only [EffectBinding.stored, Turso.integer_integer]

/-- **A range of 64 bits** is read back as it was written. -/
theorem EffectBinding.stored_of_lt {ν : Type} {b : EffectBinding ν} (h : b.InOrder)
    (hlast : b.lastSequence < 2 ^ 63) : b.stored = b := by
  obtain ⟨-, -, hfirst, hle⟩ := h
  rw [EffectBinding.stored, Turso.integer_eq b.firstSequence (by omega) (by omega),
    Turso.integer_eq b.lastSequence (by omega) hlast]

end

inductive ReservationState where
  | reserved | finalized | staged
deriving DecidableEq

/-- A row of `authorized_effect_reservations`. -/
structure ReservationRow extends EffectBinding String where
  state : ReservationState
deriving DecidableEq

/-- A row of `authorized_effect_evidence_heads`. -/
structure HeadRow where
  sessionId : String
  mediationSequence : ℤ
  executionRoot : Bytes
deriving DecidableEq

inductive LeafState where
  | staged | flushed
deriving DecidableEq

/-- A row of `authorized_effect_batched_leaves`. -/
structure LeafRow where
  sessionId : String
  mediationSequence : ℤ
  leafIndex : ℕ
  inputDigest : Bytes
  leafDigest : Bytes
  state : LeafState := .staged
  batchId : Option ℤ := none
deriving DecidableEq

/-- A row of `authorized_effect_evidence_batches`. -/
structure BatchRow where
  sessionId : String
  batchId : ℤ
  firstMediationSequence : ℤ
  lastMediationSequence : ℤ
  leafCount : ℕ
  beforeRoot : Bytes
  batchRoot : Bytes
  afterRoot : Bytes
  evidenceDigest : Bytes
  attestationDigest : Bytes
  verificationFlags : ℤ
deriving DecidableEq

/-- The tables, as they are read; rows of `authorized_effect_evidence` keep the nonce
as text. -/
structure EvidenceStore where
  evidence : List (Evidence String) := []
  reservations : List ReservationRow := []
  heads : List HeadRow := []
  leaves : List LeafRow := []
  batches : List BatchRow := []
deriving DecidableEq

/-- `begin immediate` to `commit` or `rollback`: an evidence error passes
through, any other exception is raised as `failure`. -/
def transaction {α : Type} (available : Bool) (failure : String) (body : Except Raised α) :
    Except Raised α :=
  match available, body with
  | true, .ok result => .ok result
  | true, .error (.evidenceError message) => .error (.evidenceError message)
  | _, _ => .error (.evidenceError failure)

theorem transaction_eq_ok {α : Type} {available : Bool} {failure : String}
    {body : Except Raised α} {result : α} :
    transaction available failure body = .ok result ↔ available = true ∧ body = .ok result := by
  cases available with
  | false => simp [transaction]
  | true =>
    cases body with
    | ok value => simp [transaction]
    | error raised => cases raised <;> simp [transaction]

namespace EvidenceStore

section

variable (store : EvidenceStore) (sessionId : String)

def loadHead : Option HeadRow := store.heads.find? (·.sessionId = sessionId)

def headRoot : Bytes := (store.loadHead sessionId).elim zeroRoot HeadRow.executionRoot

def reservation (sequence : ℤ) : Option ReservationRow :=
  store.reservations.find? fun row =>
    row.sessionId = sessionId ∧ row.mediationSequence = sequence

def reservationsOf : List ReservationRow := store.reservations.filter (·.sessionId = sessionId)

def evidenceOf : List (Evidence String) := store.evidence.filter (·.sessionId = sessionId)

def batchesOf : List BatchRow := store.batches.filter (·.sessionId = sessionId)

def next (column : List ℤ) : ℤ := column.max?.elim 1 (· + 1)

def nextReservationSequence : ℤ :=
  next ((store.reservationsOf sessionId).map (·.mediationSequence))

def nextBatchId : ℤ := next ((store.batchesOf sessionId).map BatchRow.batchId)

def stagedLeaves : List LeafRow :=
  store.leaves.filter fun row => row.sessionId = sessionId ∧ row.state = .staged

def stagedCount : ℕ := (store.stagedLeaves sessionId).length

def stagedRows : List LeafRow :=
  (store.stagedLeaves sessionId).mergeSort fun a b => a.leafIndex ≤ b.leafIndex

def Unresolved : Prop := ∃ row ∈ store.reservationsOf sessionId, row.state = .reserved

instance : Decidable (store.Unresolved sessionId) :=
  inferInstanceAs (Decidable (∃ row ∈ _, _))

end

variable [Turso]

section

variable (store : EvidenceStore)

def insertReservation (row : ReservationRow) : Except Raised EvidenceStore := do
  guardElse (∀ old ∈ store.reservations, old.sessionId = row.sessionId →
    old.mediationSequence ≠ row.mediationSequence ∧ old.nonce ≠ row.nonce) .other
  return { store with reservations := store.reservations ++ [row] }

/-- `_insert_receipt`, with the primary key and the unique nonce of the table. -/
def insertReceipt (receipt : AuthorizedEffectEvidenceReceipt) : Except Raised EvidenceStore := do
  let nonce ← evidenceNonceText receipt.nonce
  guardElse (∀ old ∈ store.evidence, old.sessionId = receipt.sessionId →
    old.mediationSequence ≠ receipt.mediationSequence ∧ old.nonce ≠ nonce) .other
  return { store with evidence := store.evidence ++ [(receipt.withNonce nonce).stored] }

def insertLeaf (row : LeafRow) : Except Raised EvidenceStore := do
  guardElse (∀ old ∈ store.leaves, old.sessionId = row.sessionId →
    old.mediationSequence ≠ row.mediationSequence) .other
  return { store with leaves := store.leaves ++ [row] }

def insertBatch (row : BatchRow) : Except Raised EvidenceStore := do
  guardElse (∀ old ∈ store.batches, old.sessionId = row.sessionId →
    old.batchId ≠ row.batchId) .other
  return { store with batches := store.batches ++ [row] }

/-- `update authorized_effect_reservations set state` of one mediation. -/
def resolveReservation (sessionId : String) (sequence : ℤ) (state : ReservationState) :
    EvidenceStore :=
  { store with
    reservations := store.reservations.map fun row =>
      if row.sessionId = sessionId ∧ row.mediationSequence = sequence then
        { row with state := state }
      else row }

/-- `insert or replace` of a head. -/
def replaceHead (head : HeadRow) : EvidenceStore :=
  { store with heads := store.heads.filter (·.sessionId ≠ head.sessionId) ++ [head] }

end

/-- `_reservation_matches`: the nonce is spelled only when the range agrees. -/
def reservationMatches (reservation : AuthorizedEffectEvidenceReservation)
    (row : ReservationRow) : Except Raised Bool :=
  if reservation.firstSequence = row.firstSequence ∧
      reservation.lastSequence = row.lastSequence then do
    let nonce ← evidenceNonceText reservation.nonce
    return decide (nonce = row.nonce ∧ reservation.semanticRoot = row.semanticRoot ∧
      reservation.beforeExecutionRoot = row.beforeExecutionRoot)
  else .ok false

def validateReservation (reservation : AuthorizedEffectEvidenceReservation) :
    Except Raised Unit := do
  guardElse (reservation.InOrder ∧ reservation.semanticRoot.length = 32 ∧
    reservation.beforeExecutionRoot.length = 32) (.evidenceError "invalid evidence reservation")
  let _ ← evidenceNonceText reservation.nonce

def insertNewReservation (store : EvidenceStore)
    (reservation : AuthorizedEffectEvidenceReservation) : Except Raised EvidenceStore := do
  guardElse (¬store.Unresolved reservation.sessionId)
    (.evidenceError "unresolved durable reservation blocks new effect")
  guardElse (reservation.mediationSequence = store.nextReservationSequence reservation.sessionId)
    (.evidenceError "reservation does not extend mediation sequence")
  guardElse (reservation.beforeExecutionRoot = store.headRoot reservation.sessionId)
    (.evidenceError "reservation forks durable execution root")
  let nonce ← evidenceNonceText reservation.nonce
  store.insertReservation { (reservation.withNonce nonce).stored with state := .reserved }

def reserve (store : EvidenceStore) (available : Bool)
    (reservation : AuthorizedEffectEvidenceReservation) : Except Raised EvidenceStore := do
  validateReservation reservation
  transaction available "durable evidence reservation failed"
    (match store.reservation reservation.sessionId reservation.mediationSequence with
    | some existing => do
      -- a reservation made before is confirmed in whatever state it is
      let same ← reservationMatches reservation existing
      guardElse (same = true) (.evidenceError "durable reservation binding mismatch")
      return store
    | none => store.insertNewReservation reservation)

def assertReserved (store : EvidenceStore) (receipt : AuthorizedEffectEvidenceReceipt) :
    Except Raised Unit :=
  match store.reservation receipt.sessionId receipt.mediationSequence with
  | none => .error (.evidenceError "evidence finalize requires matching durable reservation")
  | some row => do
    guardElse (row.state = .reserved)
      (.evidenceError "evidence finalize requires matching durable reservation")
    let same ← reservationMatches receipt.toEffectBinding row
    guardElse (same = true)
      (.evidenceError "evidence finalize requires matching durable reservation")

def assertExtends (receipt : AuthorizedEffectEvidenceReceipt) (head : Option HeadRow) :
    Except Raised Unit := do
  guardElse (receipt.mediationSequence = head.elim 1 (·.mediationSequence + 1))
    (.evidenceError "mediation sequence does not extend durable evidence head")
  guardElse (receipt.beforeExecutionRoot = head.elim zeroRoot HeadRow.executionRoot)
    (.evidenceError "before execution root forks durable evidence head")

def append (store : EvidenceStore) (available : Bool)
    (receipt : AuthorizedEffectEvidenceReceipt) : Except Raised EvidenceStore := do
  validateReceipt receipt
  transaction available "durable evidence append failed" do
    store.assertReserved receipt
    assertExtends receipt (store.loadHead receipt.sessionId)
    let store ← store.insertReceipt receipt
    let store := store.resolveReservation receipt.sessionId receipt.mediationSequence .finalized
    return store.replaceHead
      ⟨receipt.sessionId, receipt.mediationSequence, receipt.afterExecutionRoot⟩

section

variable (sha256 : Bytes → Digest)

/-- `authorized_effect_evidence_digest`; a receipt that was appended has the numbers of a
row, and `str` writes them. -/
def evidenceDigest (receipt : AuthorizedEffectEvidenceReceipt) : Bytes :=
  (sha256 (List.intercalate (encodeText "|")
    [encodeText receipt.sessionId, encodeText (toString receipt.mediationSequence),
      encodeText (toString receipt.firstSequence), encodeText (toString receipt.lastSequence),
      encodeText receipt.nonce.text, receipt.semanticRoot, receipt.beforeExecutionRoot,
      receipt.afterExecutionRoot, encodeText receipt.outcome.text, receipt.observationDigest,
      encodeText receipt.evidenceReference])).bytes

def appendAndDigest (store : EvidenceStore) (available : Bool)
    (receipt : AuthorizedEffectEvidenceReceipt) : Except Raised (EvidenceStore × Bytes) := do
  let store ← store.append available receipt
  return (store, evidenceDigest sha256 receipt)

/-- The leaf that staging `receipt` at `index` adds. -/
def leafOf (receipt : AuthorizedEffectEvidenceReceipt) (index : ℕ) (nonce : String)
    (inputDigest : Bytes) : Except Raised BatchedEvidenceLeaf := do
  guardElse (Prints receipt.mediationSequence) .other
  batchedEvidenceLeaf sha256
    (receipt.sessionId ++ ":" ++ toString receipt.mediationSequence) index nonce
    receipt.firstSequence receipt.lastSequence (hexText inputDigest)
    (hexText receipt.semanticRoot) (hexText receipt.beforeExecutionRoot)
    (hexText receipt.observationDigest) receipt.outcome.text

/-- `stage_batched_evidence`: the new tables with the leaf digest. -/
def stageBatched (store : EvidenceStore) (available : Bool)
    (receipt : AuthorizedEffectEvidenceReceipt) (inputDigest : Bytes) :
    Except Raised (EvidenceStore × Bytes) := do
  validateReceipt receipt
  guardElse (receipt.outcome = .buffered ∧ inputDigest.length = 32)
    (.evidenceError "invalid Batched evidence leaf")
  transaction available "durable Batched evidence staging failed" do
    store.assertReserved receipt
    guardElse (receipt.beforeExecutionRoot = store.headRoot receipt.sessionId)
      (.evidenceError "Batched leaf forks durable evidence head")
    -- leaves are numbered within the batch that is open
    let leafIndex := store.stagedCount receipt.sessionId
    let nonce ← evidenceNonceText receipt.nonce
    let leaf ← leafOf sha256 receipt leafIndex nonce inputDigest
    let leafDigest ← bytesFromHex leaf.digest
    let store ← store.insertReceipt receipt
    let store ← store.insertLeaf {
      sessionId := receipt.sessionId
      mediationSequence := receipt.mediationSequence
      leafIndex, inputDigest, leafDigest }
    return (store.resolveReservation receipt.sessionId receipt.mediationSequence .staged,
      leafDigest)

def batchRootDomain : String := "poo-flow.batched-execution-root.draft.1|"

def batchExecutionRoot (beforeRoot batchRoot : Bytes) : Bytes :=
  (sha256 (encodeText (batchRootDomain ++ frameText (hexText beforeRoot) ++
    frameText (hexText batchRoot)))).bytes

def batchEvidenceDigest (sessionId : String) (batchId : ℤ) (before root after : Bytes) : Bytes :=
  (sha256 (List.intercalate (encodeText "|")
    [encodeText sessionId, encodeText (toString batchId), before, root, after])).bytes

def attestation (kernelSignature : Bytes) : Bytes :=
  if kernelSignature = [] then zeroRoot else (sha256 kernelSignature).bytes

/-- The two updates of `_commit_batch`: every staged leaf of the session joins
the batch and every staged reservation is final. -/
def closeStaged (store : EvidenceStore) (sessionId : String) (batchId : ℤ) : EvidenceStore :=
  { store with
    leaves := store.leaves.map fun row =>
      if row.sessionId = sessionId ∧ row.state = .staged then
        { row with state := .flushed, batchId := some batchId }
      else row
    reservations := store.reservations.map fun row =>
      if row.sessionId = sessionId ∧ row.state = .staged then
        { row with state := .finalized }
      else row }

/-- The batch that a flush of `rows` commits; it is also the receipt. -/
def batchOf (store : EvidenceStore) (sessionId : String) (rows : List LeafRow)
    (batchRoot : Bytes) (kernelSignature : Bytes) (verificationFlags : ℤ) : BatchRow :=
  let beforeRoot := store.headRoot sessionId
  let batchId := store.nextBatchId sessionId
  let afterRoot := batchExecutionRoot sha256 beforeRoot batchRoot
  { sessionId, batchId
    firstMediationSequence := (rows.head?.map LeafRow.mediationSequence).getD 0
    lastMediationSequence := (rows.getLast?.map LeafRow.mediationSequence).getD 0
    leafCount := rows.length
    beforeRoot, batchRoot, afterRoot
    evidenceDigest := batchEvidenceDigest sha256 sessionId batchId beforeRoot batchRoot afterRoot
    attestationDigest := attestation sha256 kernelSignature
    verificationFlags }

/-- `flush_batched_evidence`: the new tables with the batch. -/
def flushBatched (store : EvidenceStore) (available : Bool) (sessionId : String)
    (leafDigests : List Bytes) (kernelSignature : Bytes) (verificationFlags : ℤ) :
    Except Raised (EvidenceStore × BatchRow) :=
  transaction available "durable Batched evidence flush failed" do
    let rows := store.stagedRows sessionId
    let durableDigests := rows.map LeafRow.leafDigest
    guardElse (rows ≠ [] ∧ durableDigests = leafDigests)
      (.evidenceError "flush leaf range does not match durable staged leaves")
    let batchRoot ← batchedMerkleRootDigests sha256 durableDigests
    let batch := store.batchOf sha256 sessionId rows batchRoot kernelSignature verificationFlags
    let store ← store.insertBatch batch
    let store := store.closeStaged sessionId batch.batchId
    return (store.replaceHead ⟨sessionId, batch.lastMediationSequence, batch.afterRoot⟩, batch)

end

end EvidenceStore

structure AuthorizedEffectEvidenceReconciliation where
  semanticRoot : Bytes
  executionRoot : Bytes
  mediationSequence : ℤ
  runtimeSequence : ℤ
  consumedNonces : List Nonce
  stagedMediationSequences : List ℤ
  stagedLeafDigests : List Bytes
deriving DecidableEq

namespace EvidenceStore

def orderedReservations (store : EvidenceStore) (sessionId : String) : List ReservationRow :=
  (store.reservationsOf sessionId).mergeSort fun a b =>
    a.mediationSequence ≤ b.mediationSequence

def reconciliation (store : EvidenceStore) (sessionId : String) :
    Except Raised (Option AuthorizedEffectEvidenceReconciliation) :=
  match store.orderedReservations sessionId with
  | [] => .ok none
  | first :: rest => do
    let last := (first :: rest).getLast (List.cons_ne_nil _ _)
    guardElse (∀ row ∈ first :: rest, row.semanticRoot = first.semanticRoot)
      (.evidenceError "durable evidence history changes semantic root")
    let nonces ← (first :: rest).mapM fun row => parseEvidenceNonce row.nonce
    return some {
      semanticRoot := first.semanticRoot
      executionRoot := store.headRoot sessionId
      mediationSequence := last.mediationSequence
      runtimeSequence := last.lastSequence
      consumedNonces := nonces
      stagedMediationSequences := (store.stagedRows sessionId).map LeafRow.mediationSequence
      stagedLeafDigests := (store.stagedRows sessionId).map LeafRow.leafDigest }

end EvidenceStore

/-- A call of the store with its arguments. A restart closes the connection and
opens the database again. -/
inductive StoreCall where
  | reserve (available : Bool) (reservation : AuthorizedEffectEvidenceReservation)
  | append (available : Bool) (receipt : AuthorizedEffectEvidenceReceipt)
  | stageBatched (available : Bool) (receipt : AuthorizedEffectEvidenceReceipt)
      (inputDigest : Bytes)
  | flushBatched (available : Bool) (sessionId : String) (leafDigests : List Bytes)
      (kernelSignature : Bytes) (verificationFlags : ℤ)
  | restart

namespace EvidenceStore

variable [Turso] (sha256 : Bytes → Digest)

def answer (store : EvidenceStore) : StoreCall → Except Raised EvidenceStore
  | .reserve available reservation => store.reserve available reservation
  | .append available receipt => store.append available receipt
  | .stageBatched available receipt inputDigest =>
    (store.stageBatched sha256 available receipt inputDigest).map Prod.fst
  | .flushBatched available sessionId leafDigests kernelSignature verificationFlags =>
    (store.flushBatched sha256 available sessionId leafDigests kernelSignature
      verificationFlags).map Prod.fst
  | .restart => .ok store

def step (store : EvidenceStore) (call : StoreCall) : EvidenceStore :=
  match store.answer sha256 call with
  | .ok store' => store'
  | .error _ => store

end EvidenceStore

end PooFlow
