import PooFlow.Journal.Refinement

namespace PooFlow

open Foundation List

def StoreCall.sessionId : StoreCall → Option String
  | .reserve _ reservation => some reservation.sessionId
  | .append _ receipt | .stageBatched _ receipt _ => some receipt.sessionId
  | .flushBatched _ sessionId .. => some sessionId
  | .restart => none

theorem transaction_map {α β : Type} (available : Bool) (failure : String) (f : α → β)
    (body : Except Raised α) :
    transaction available failure (f <$> body) = f <$> transaction available failure body := by
  cases available with
  | false => cases body <;> rfl
  | true =>
    cases body with
    | ok value => rfl
    | error raised => cases raised <;> rfl

namespace EvidenceStore

/-- The rows of one session. -/
def only (store : EvidenceStore) (s : String) : EvidenceStore where
  evidence := store.evidence.filter (·.sessionId = s)
  reservations := store.reservations.filter (·.sessionId = s)
  heads := store.heads.filter (·.sessionId = s)
  leaves := store.leaves.filter (·.sessionId = s)
  batches := store.batches.filter (·.sessionId = s)

variable (store : EvidenceStore) (s : String)

theorem loadHead_only : (store.only s).loadHead s = store.loadHead s := by
  simp [loadHead, only, List.find?_filter]

theorem headRoot_only : (store.only s).headRoot s = store.headRoot s := by
  rw [headRoot, loadHead_only, headRoot]

theorem reservationsOf_only : (store.only s).reservationsOf s = store.reservationsOf s := by
  simp [reservationsOf, only, filter_filter]

theorem reservation_only (sequence : ℤ) :
    (store.only s).reservation s sequence = store.reservation s sequence := by
  rw [reservation_eq_find?, reservation_eq_find?, reservationsOf_only]

theorem nextBatchId_only : (store.only s).nextBatchId s = store.nextBatchId s := by
  simp [nextBatchId, batchesOf, only, filter_filter]

theorem stagedLeaves_only : (store.only s).stagedLeaves s = store.stagedLeaves s := by
  simp only [stagedLeaves, only, filter_filter]
  refine filter_congr fun row _ => ?_
  by_cases hrow : row.sessionId = s
  · simp [hrow]
  · simp [hrow]

theorem stagedRows_only : (store.only s).stagedRows s = store.stagedRows s := by
  rw [stagedRows, stagedLeaves_only, stagedRows]

theorem reconciliation_only : (store.only s).reconciliation s = store.reconciliation s := by
  simp only [reconciliation, orderedReservations, reservationsOf_only, stagedRows_only,
    headRoot_only]

section

theorem only_resolveReservation (sequence : ℤ) (state : ReservationState) :
    (store.only s).resolveReservation s sequence state =
      (store.resolveReservation s sequence state).only s := by
  simp only [only, resolveReservation]
  rw [filter_map_update]
  exact fun _ _ => rfl

theorem only_closeStaged (batchId : ℤ) :
    (store.only s).closeStaged s batchId = (store.closeStaged s batchId).only s := by
  simp only [only, closeStaged]
  rw [filter_map_update, filter_map_update]
  · exact fun _ _ => rfl
  · exact fun _ _ => rfl

variable {store s}

theorem only_insertReservation {row : ReservationRow} (hs : row.sessionId = s) :
    (store.only s).insertReservation row = (·.only s) <$> store.insertReservation row := by
  subst hs
  simp [insertReservation, only]

theorem only_insertReceipt [Turso] {e : AuthorizedEffectEvidenceReceipt} (hs : e.sessionId = s) :
    (store.only s).insertReceipt e = (·.only s) <$> store.insertReceipt e := by
  subst hs
  rw [insertReceipt, insertReceipt, map_bind]
  congr 1
  funext nonce
  have hs : (e.withNonce nonce).sessionId = e.sessionId := rfl
  simp [only, hs]

theorem only_insertLeaf {row : LeafRow} (hs : row.sessionId = s) :
    (store.only s).insertLeaf row = (·.only s) <$> store.insertLeaf row := by
  subst hs
  simp [insertLeaf, only]

theorem only_insertBatch {row : BatchRow} (hs : row.sessionId = s) :
    (store.only s).insertBatch row = (·.only s) <$> store.insertBatch row := by
  subst hs
  simp [insertBatch, only]

theorem only_replaceHead {head : HeadRow} (hs : head.sessionId = s) :
    (store.only s).replaceHead head = (store.replaceHead head).only s := by
  simp [only, replaceHead, hs, filter_filter, Bool.and_comm]

end

section

variable {s} (available : Bool) {sha256 : Bytes → Digest}

theorem only_flushBatched (leafDigests : List Bytes) (kernelSignature : Bytes)
    (verificationFlags : ℤ) :
    (store.only s).flushBatched sha256 available s leafDigests kernelSignature verificationFlags =
      (fun flushed => (flushed.1.only s, flushed.2)) <$>
        store.flushBatched sha256 available s leafDigests kernelSignature verificationFlags := by
  rw [flushBatched, flushBatched, stagedRows_only, ← transaction_map]
  simp only [map_bind, batchOf, headRoot_only, nextBatchId_only, only_insertBatch, map_pure,
    bind_map_left, only_closeStaged, only_replaceHead]

variable [Turso]

theorem only_reserve {r : AuthorizedEffectEvidenceReservation} (hs : r.sessionId = s) :
    (store.only s).reserve available r = (·.only s) <$> store.reserve available r := by
  subst hs
  have hnew : (store.only r.sessionId).insertNewReservation r =
      (·.only r.sessionId) <$> store.insertNewReservation r := by
    simp only [insertNewReservation, nextReservationSequence, headRoot_only, map_bind, Unresolved,
      reservationsOf_only]
    congr! 5
    funext _
    congr 1
    funext _
    exact only_insertReservation rfl
  rw [reserve, reserve, map_bind]
  congr 1
  funext _
  rw [← transaction_map, reservation_only]
  cases store.reservation r.sessionId r.mediationSequence with
  | none => rw [hnew]
  | some existing => simp

theorem only_append {e : AuthorizedEffectEvidenceReceipt} (hs : e.sessionId = s) :
    (store.only s).append available e = (·.only s) <$> store.append available e := by
  subst hs
  simp only [append, map_bind, ← transaction_map, assertReserved, reservation_only, loadHead_only,
    only_insertReceipt, map_pure, bind_map_left, only_resolveReservation, only_replaceHead]

theorem only_stageBatched {e : AuthorizedEffectEvidenceReceipt} (hs : e.sessionId = s)
    (inputDigest : Bytes) : (store.only s).stageBatched sha256 available e inputDigest =
      (fun staged => (staged.1.only s, staged.2)) <$>
        store.stageBatched sha256 available e inputDigest := by
  subst hs
  simp only [stageBatched, map_bind, ← transaction_map, assertReserved, reservation_only,
    headRoot_only, stagedCount, stagedLeaves_only, only_insertReceipt, only_insertLeaf, map_pure,
    bind_map_left, only_resolveReservation]

theorem only_answer {call : StoreCall} (hs : call.sessionId = some s) :
    (store.only s).answer sha256 call = (·.only s) <$> store.answer sha256 call := by
  cases call with
  | reserve available r => exact only_reserve store available (Option.some.inj hs)
  | append available e => exact only_append store available (Option.some.inj hs)
  | stageBatched available e inputDigest =>
    rw [answer, only_stageBatched store available (Option.some.inj hs), answer]
    cases store.stageBatched sha256 available e inputDigest <;> rfl
  | flushBatched available sessionId leafDigests kernelSignature verificationFlags =>
    obtain rfl := Option.some.inj hs
    rw [answer, only_flushBatched, answer]
    cases store.flushBatched sha256 available sessionId leafDigests kernelSignature
      verificationFlags <;> rfl
  | restart => cases hs

end

section

variable {store s} {sessionId : String} (hs : sessionId ≠ s)

include hs

/-- An update of rows of another session. -/
theorem filter_update_of_ne {ρ : Type} {rows : List ρ} {id : ρ → String} {c : ρ → Prop}
    [DecidablePred c] {update : ρ → ρ}
    (hc : ∀ row, c row → id row = sessionId ∧ id (update row) = sessionId) :
    (rows.map fun row => if c row then update row else row).filter (id · = s) =
      rows.filter (id · = s) := by
  rw [filter_map_update fun row hrow => by rw [(hc row hrow).1, (hc row hrow).2], map_update_none]
  intro row hrow hupdated
  exact hs ((hc row hupdated).1.symm.trans (of_decide_eq_true (mem_filter.1 hrow).2))

theorem only_resolveReservation_of_ne (sequence : ℤ) (state : ReservationState) :
    (store.resolveReservation sessionId sequence state).only s = store.only s := by
  simp only [only, resolveReservation]
  rw [filter_update_of_ne hs]
  exact fun _ h => ⟨h.1, h.1⟩

theorem only_closeStaged_of_ne (batchId : ℤ) :
    (store.closeStaged sessionId batchId).only s = store.only s := by
  simp only [only, closeStaged]
  rw [filter_update_of_ne hs, filter_update_of_ne hs]
  · exact fun _ h => ⟨h.1, h.1⟩
  · exact fun _ h => ⟨h.1, h.1⟩

theorem only_replaceHead_of_ne (sequence : ℤ) (root : Bytes) :
    (store.replaceHead ⟨sessionId, sequence, root⟩).only s = store.only s := by
  have hheads :
      store.heads.filter (fun head => head.sessionId = s && !(head.sessionId = sessionId)) =
        store.heads.filter (·.sessionId = s) := by
    refine filter_congr fun head _ => ?_
    by_cases hhead : head.sessionId = s
    · simp [hhead, Ne.symm hs]
    · simp [hhead]
  simp [only, replaceHead, hs, hheads]

end

theorem only_flushed_of_ne {batch : BatchRow} (hs : batch.sessionId ≠ s) :
    (store.flushed batch).only s = store.only s := by
  rw [flushed, only_replaceHead_of_ne hs, only_closeStaged_of_ne hs]
  simp [only, hs]

variable [Turso]

theorem only_answer_of_ne {sha256 : Bytes → Digest} {call : StoreCall} {store' : EvidenceStore}
    {s : String} (hs : call.sessionId ≠ some s) (h : store.answer sha256 call = .ok store') :
    store'.only s = store.only s := by
  cases call with
  | reserve available r =>
    have hne : r.sessionId ≠ s := fun h => hs (congrArg some h)
    rcases reserve_eq_ok.1 h with ⟨_, rfl⟩ | ⟨_, rfl⟩
    · rfl
    · simp [only, opened, hne]
  | append available e =>
    have hne : e.sessionId ≠ s := fun h => hs (congrArg some h)
    obtain ⟨_, _, _, rfl⟩ := append_eq_ok.1 h
    rw [appended, only_replaceHead_of_ne hne, only_resolveReservation_of_ne hne]
    simp [only, recorded, hne]
  | stageBatched available e inputDigest =>
    have hne : e.sessionId ≠ s := fun h => hs (congrArg some h)
    obtain ⟨⟨_, _⟩, hstage, rfl⟩ := map_eq_ok.1 h
    obtain ⟨_, _, _, _, _, _, rfl⟩ := stageBatched_eq_ok.1 hstage
    rw [stagedWith, only_resolveReservation_of_ne hne]
    simp [only, recorded, leafRow, hne]
  | flushBatched available sessionId leafDigests kernelSignature verificationFlags =>
    have hne : sessionId ≠ s := fun h => hs (congrArg some h)
    obtain ⟨⟨_, _⟩, hflush, rfl⟩ := map_eq_ok.1 h
    obtain ⟨_, _, _, ⟨root, _, rfl⟩, _, rfl⟩ := flushBatched_eq_ok.1 hflush
    exact only_flushed_of_ne store s hne
  | restart => rw [← Except.ok.inj h]

/-- **Sessions are independent**: after any calls the rows of a session are those that its own
calls make of its own rows, with the same reconciliation, and its next call is answered alike. -/
theorem sessions_independent (sha256 : Bytes → Digest) (calls : List StoreCall) :
    let all := run (step sha256) store calls
    let own := run (step sha256) (store.only s) (calls.filter (·.sessionId = some s))
    own = all.only s ∧ own.reconciliation s = all.reconciliation s ∧
      ∀ call, call.sessionId = some s →
        own.answer sha256 call = (·.only s) <$> all.answer sha256 call := by
  intro all own
  have hown : own = all.only s := by
    refine (run_filter (·.only s) (·.sessionId = some s) (fun store call hs => ?_)
      (fun store call hs => ?_) store calls).symm
    · rw [step, step, only_answer store hs]
      cases store.answer sha256 call <;> rfl
    · rw [step]
      cases hanswer : store.answer sha256 call with
      | ok store' => exact only_answer_of_ne store hs hanswer
      | error _ => rfl
  refine ⟨hown, ?_, fun call hs => ?_⟩
  · rw [hown, reconciliation_only]
  · rw [hown, only_answer all hs]

end EvidenceStore

end PooFlow
