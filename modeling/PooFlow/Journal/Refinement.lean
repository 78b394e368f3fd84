import PooFlow.Journal.Ledger
import PooFlow.Journal.Operations

namespace PooFlow

open Foundation List EvidenceStore EffectBinding

namespace EvidenceStore

variable {store store' : EvidenceStore} {s : String}

theorem mem_reservationsOf {row : ReservationRow} :
    row ∈ store.reservationsOf s ↔ row ∈ store.reservations ∧ row.sessionId = s := by
  simp [reservationsOf]

theorem reservation_eq_find? (sequence : ℤ) : store.reservation s sequence =
      (store.reservationsOf s).find? (·.mediationSequence = sequence) := by
  simp [reservation, reservationsOf, List.find?_filter]

variable (sessionId : String) (batchId : ℤ) (e : AuthorizedEffectEvidenceReceipt)

theorem reservationsOf_update {changes : ReservationRow → Prop} [DecidablePred changes]
    (state : ReservationState) : (store.reservations.map fun row =>
      if row.sessionId = sessionId ∧ changes row then { row with state } else row).filter
        (·.sessionId = s) =
      if sessionId = s then
        (store.reservationsOf s).map fun row => if changes row then { row with state } else row
      else store.reservationsOf s := by
  have hkeep : ∀ row : ReservationRow, decide (row.sessionId = s) = decide (row.sessionId = s) :=
    fun _ => rfl
  rw [filter_map_update (fun row _ => hkeep row)]
  split
  · next hs =>
    refine map_congr_left fun row hrow => ?_
    have hrow' : row.sessionId = s := (mem_reservationsOf.1 hrow).2
    simp only [hs, hrow', true_and]
  · next hs =>
    refine map_update_none fun row hrow hupdated => hs ?_
    rw [← hupdated.1, (mem_reservationsOf.1 hrow).2]

theorem reservationsOf_resolve (sequence : ℤ) (state : ReservationState) :
    (store.resolveReservation sessionId sequence state).reservationsOf s =
      if sessionId = s then
        (store.reservationsOf s).map fun row =>
          if row.mediationSequence = sequence then { row with state := state } else row
      else store.reservationsOf s :=
  reservationsOf_update sessionId state

theorem loadHead_replaceHead (head : HeadRow) : (store.replaceHead head).loadHead s =
      if head.sessionId = s then some head else store.loadHead s := by
  rw [loadHead, replaceHead]
  dsimp only
  rw [List.find?_append]
  split
  · next hs =>
    have hnone : (store.heads.filter (·.sessionId ≠ head.sessionId)).find?
        (·.sessionId = s) = none := by
      rw [List.find?_eq_none]
      intro row hrow
      have hother := (mem_filter.1 hrow).2
      simp only [decide_eq_true_eq] at hother ⊢
      rwa [← hs]
    rw [hnone]
    simp [hs]
  · next hs =>
    have hfind : (store.heads.filter (·.sessionId ≠ head.sessionId)).find?
        (·.sessionId = s) = store.loadHead s := by
      rw [List.find?_filter, loadHead]
      congr 1
      funext row
      by_cases hrow : row.sessionId = s
      · simp [hrow, Ne.symm hs]
      · simp [hrow]
    rw [hfind]
    simp [hs]

theorem reservationsOf_closeStaged : (store.closeStaged sessionId batchId).reservationsOf s =
      if sessionId = s then
        (store.reservationsOf s).map fun row =>
          if row.state = .staged then { row with state := .finalized } else row
      else store.reservationsOf s :=
  reservationsOf_update sessionId .finalized

theorem stagedLeaves_closeStaged : (store.closeStaged sessionId batchId).stagedLeaves s =
      if sessionId = s then [] else store.stagedLeaves s := by
  rw [stagedLeaves, closeStaged]
  split
  · next hs =>
    rw [filter_eq_nil_iff]
    intro row hrow
    obtain ⟨old, _, rfl⟩ := mem_map.1 hrow
    simp only [decide_eq_true_eq, not_and, hs]
    split
    · simp
    · next hold => exact fun hsession hstate => hold ⟨hsession, hstate⟩
  · next hs =>
    rw [filter_map_update]
    · refine map_update_none fun row hrow hupdated => hs ?_
      have hrow' := (mem_filter.1 hrow).2
      rw [decide_eq_true_eq] at hrow'
      rw [← hupdated.1, hrow'.1]
    · intro row hupdated
      have hother : row.sessionId ≠ s := fun h => hs (hupdated.1 ▸ h)
      simp [hother]

theorem batchesOf_flushed (batch : BatchRow) : (store.flushed batch).batchesOf s =
      if batch.sessionId = s then store.batchesOf s ++ [batch] else store.batchesOf s := by
  have hbatches : (store.flushed batch).batches = store.batches ++ [batch] := rfl
  rw [batchesOf, hbatches, batchesOf, filter_concat]

variable [Turso]

theorem reservationsOf_opened (r : AuthorizedEffectEvidenceReservation) :
    (store.opened r).reservationsOf s =
      if r.sessionId = s then store.reservationsOf s ++ [r.spelled.stored.row .reserved]
      else store.reservationsOf s := by
  rw [reservationsOf, opened, reservationsOf, filter_concat]
  rfl

theorem evidenceOf_recorded : (store.recorded e).evidenceOf s =
      if e.sessionId = s then store.evidenceOf s ++ [e.spelled.stored] else store.evidenceOf s := by
  rw [evidenceOf, recorded, evidenceOf, filter_concat]
  rfl

theorem stagedLeaves_stagedWith {row : LeafRow} (hstate : row.state = .staged) :
    (store.stagedWith e row).stagedLeaves s =
      if row.sessionId = s then store.stagedLeaves s ++ [row] else store.stagedLeaves s := by
  have hleaves : (store.stagedWith e row).leaves = store.leaves ++ [row] := rfl
  rw [stagedLeaves, hleaves, stagedLeaves, filter_concat]
  simp only [hstate, and_true]

end EvidenceStore

namespace Ledger

variable (L : Ledger)

def reservationRows : List ReservationRow :=
  L.final.map (·.toEffectBinding.row .finalized) ++
    L.staged.map (·.evidence.toEffectBinding.row .staged) ++
      L.pending.toList.map (·.row .reserved)

def headRow (s : String) : Option HeadRow :=
  if L.final = [] then none else some ⟨s, L.final.length, L.root⟩

theorem map_reservationRows : L.reservationRows.map (·.toEffectBinding) = L.bindings := by
  simp [reservationRows, bindings, records, Function.comp_def]

theorem length_reservationRows : L.reservationRows.length = L.bindings.length := by
  rw [← L.map_reservationRows, length_map]

theorem sequences_reservationRows :
    L.reservationRows.map (·.mediationSequence) = L.bindings.map (·.mediationSequence) := by
  rw [← L.map_reservationRows, map_map]
  rfl

theorem reservationRows_pending {b : EffectBinding String} (hpending : L.pending = some b) :
    L.reservationRows =
      (L.final.map (·.toEffectBinding.row .finalized) ++
        L.staged.map (·.evidence.toEffectBinding.row .staged)) ++ [b.row .reserved] := by
  rw [reservationRows, hpending]
  rfl

theorem reserved_mem {row : ReservationRow} : row ∈ L.reservationRows ∧ row.state = .reserved ↔
      ∃ b, L.pending = some b ∧ row = b.row .reserved := by
  constructor
  · rintro ⟨hrow, hstate⟩
    rw [reservationRows, mem_append, mem_append] at hrow
    rcases hrow with (hrow | hrow) | hrow
    · obtain ⟨e, _, rfl⟩ := mem_map.1 hrow
      cases hstate
    · obtain ⟨x, _, rfl⟩ := mem_map.1 hrow
      cases hstate
    · obtain ⟨b, hb, rfl⟩ := mem_map.1 hrow
      exact ⟨b, Option.mem_toList.1 hb, rfl⟩
  · rintro ⟨b, hpending, rfl⟩
    refine ⟨?_, rfl⟩
    rw [L.reservationRows_pending hpending]
    exact mem_append_right _ (mem_singleton.2 rfl)

theorem reservationRows_flush (batch : BatchRow) : L.reservationRows.map (fun row =>
        if row.state = .staged then { row with state := .finalized } else row) =
      (L.flush batch).reservationRows := by
  simp only [reservationRows, flush, records, map_append, map_map, map_nil, append_nil]
  congr 1

end Ledger

variable [Turso]

structure Represents (store : EvidenceStore) (s : String) (L : Ledger) : Prop where
  valid : L.Valid
  reservations : store.reservationsOf s = L.reservationRows
  evidence : store.evidenceOf s = L.records
  head : store.loadHead s = L.headRow s
  batches : store.batchesOf s = L.batches
  staged : store.stagedLeaves s = L.staged.map StagedRecord.leaf
  leaves : ∀ row ∈ store.leaves, row.sessionId = s → row.mediationSequence ≤ L.records.length

theorem Represents.empty (s : String) : Represents {} s {} where
  valid := .empty
  reservations := rfl
  evidence := rfl
  head := rfl
  batches := rfl
  staged := rfl
  leaves := by simp

namespace Represents

variable {store store' : EvidenceStore} {s : String} {L : Ledger} (h : Represents store s L)
include h

theorem headRoot : store.headRoot s = L.root := by
  rw [EvidenceStore.headRoot, h.head, Ledger.headRow]
  split
  · next hfinal => exact (h.valid.root_of_nil hfinal).symm
  · rfl

theorem nextHead :
    (store.loadHead s).elim 1 (·.mediationSequence + 1) = (L.final.length : ℤ) + 1 := by
  rw [h.head, Ledger.headRow]
  split
  · next hfinal => simp [hfinal]
  · rfl

theorem stagedCount : store.stagedCount s = L.staged.length := by
  rw [EvidenceStore.stagedCount, h.staged, length_map]

theorem stagedRows : store.stagedRows s = L.staged.map StagedRecord.leaf := by
  rw [EvidenceStore.stagedRows, h.staged]
  apply mergeSort_of_pairwise
  have hindices : ((L.staged.map StagedRecord.leaf).map LeafRow.leafIndex).Pairwise (· < ·) := by
    rw [map_map]
    have hrange : L.staged.map (LeafRow.leafIndex ∘ StagedRecord.leaf) =
        List.range L.staged.length := h.valid.leaf_index
    rw [hrange]
    exact pairwise_lt_range
  rw [pairwise_map] at hindices
  refine hindices.imp fun hlt => ?_
  simp only [decide_eq_true_eq]
  omega

theorem ordered : store.orderedReservations s = L.reservationRows := by
  rw [orderedReservations, h.reservations]
  apply mergeSort_of_pairwise
  have hsequences : (L.reservationRows.map (·.mediationSequence)).Pairwise (· < ·) := by
    rw [L.sequences_reservationRows, h.valid.numbered]
    exact pairwise_numbers _
  rw [pairwise_map] at hsequences
  refine hsequences.imp fun hlt => ?_
  simp only [decide_eq_true_eq]
  omega

theorem unresolved_iff : store.Unresolved s ↔ L.pending ≠ none := by
  rw [EvidenceStore.Unresolved, h.reservations]
  constructor
  · rintro ⟨row, hrow⟩ hnone
    obtain ⟨b, hpending, _⟩ := L.reserved_mem.1 hrow
    rw [hnone] at hpending
    cases hpending
  · intro hsome
    obtain ⟨b, hpending⟩ := Option.ne_none_iff_exists'.1 hsome
    exact ⟨b.row .reserved, L.reserved_mem.2 ⟨b, hpending, rfl⟩⟩

theorem nextReservationSequence :
    store.nextReservationSequence s = (L.bindings.length : ℤ) + 1 := by
  rw [EvidenceStore.nextReservationSequence, EvidenceStore.next, h.reservations,
    L.sequences_reservationRows, h.valid.numbered]
  rcases L.bindings.length with _ | n
  · rfl
  · rw [max?_numbers]
    show (n : ℤ) + 1 + 1 = ((n + 1 : ℕ) : ℤ) + 1
    omega

theorem nodup_sequences : (L.reservationRows.map (·.mediationSequence)).Nodup := by
  rw [L.sequences_reservationRows, h.valid.numbered]
  exact nodup_numbers _

theorem pending_of_reserved {e : AuthorizedEffectEvidenceReceipt} (hs : e.sessionId = s)
    (hreserved : store.Reserved e) : L.pending = some e.toEffectBinding.spelled := by
  have hrow := hreserved.row
  rw [hs, reservation_eq_find?, h.reservations] at hrow
  obtain ⟨b, hpending, hb⟩ := L.reserved_mem.1 ⟨mem_of_find?_eq_some hrow, rfl⟩
  have hbinding := congrArg ReservationRow.toEffectBinding hb
  rw [toEffectBinding_row, toEffectBinding_row] at hbinding
  rw [hbinding]
  exact hpending

theorem reservations_resolved {b : EffectBinding String} (hpending : L.pending = some b)
    (state : ReservationState) : (store.reservationsOf s).map (fun row =>
        if row.mediationSequence = b.mediationSequence then { row with state := state } else row) =
      (L.final.map (·.toEffectBinding.row .finalized) ++
        L.staged.map (·.evidence.toEffectBinding.row .staged)) ++ [b.row state] := by
  have hnodup := h.nodup_sequences
  rw [L.reservationRows_pending hpending] at hnodup
  rw [h.reservations, L.reservationRows_pending hpending]
  exact map_update_last hnodup

end Represents

section

variable {store store' : EvidenceStore} {available : Bool} {s : String} {L : Ledger}
  {opens : Ledger → EffectBinding String → Prop} {r : AuthorizedEffectEvidenceReservation}
  {e : AuthorizedEffectEvidenceReceipt}

/-- A receipt that closes a reservation has the numbers of its row. -/
theorem Ledger.Valid.stored_of_pending (h : L.Valid)
    (hpending : L.pending = some e.toEffectBinding.spelled) : e.spelled.stored = e.spelled := by
  have hmem : e.toEffectBinding.spelled ∈ L.bindings := by
    rw [bindings, hpending]
    exact mem_append_right _ (mem_singleton.2 rfl)
  have hbinding : e.spelled.toEffectBinding.stored = e.spelled.toEffectBinding := h.stored _ hmem
  rw [Evidence.stored, hbinding]

theorem Represents.opened (h : Represents store s L) (hr : store.Opens available r)
    (hallowed : r.sessionId = s → opens L r.spelled.stored) :
    ∃ L', LedgerMove opens L L' ∧ Represents (store.opened r) s L' := by
  by_cases hs : r.sessionId = s
  · subst hs
    have hpending : L.pending = none := not_not.1 fun hsome =>
      hr.resolved (h.unresolved_iff.2 hsome)
    have hsequence : r.mediationSequence = L.records.length + 1 := by
      rw [hr.sequence, h.nextReservationSequence, L.length_bindings, hpending]
      rfl
    have hfresh : r.spelled.stored.nonce ∉ L.bindings.map (·.nonce) := by
      intro hmem
      rw [← L.map_reservationRows, ← h.reservations, map_map] at hmem
      obtain ⟨old, hold, hnonce⟩ := mem_map.1 hmem
      obtain ⟨hmem', hsession⟩ := mem_reservationsOf.1 hold
      exact (hr.unused old hmem' hsession).2 hnonce
    have hmove : LedgerMove opens L (L.reserve r.spelled.stored) :=
      .reserved L r.spelled.stored hpending hsequence (hr.root.trans h.headRoot) hfresh
        ⟨r.nonce, hr.valid.nonce, rfl⟩ r.spelled.stored_stored (hallowed rfl)
    refine ⟨_, hmove, { h with valid := hmove.valid h.valid, reservations := ?_ }⟩
    rw [reservationsOf_opened, if_pos rfl, h.reservations]
    simp [Ledger.reservationRows, Ledger.reserve, hpending]
  · refine ⟨L, .idle L, { h with reservations := ?_ }⟩
    rw [reservationsOf_opened, if_neg hs, h.reservations]

theorem Represents.appended (h : Represents store s L) (he : store.Finalizes e)
    (hnext : e.mediationSequence = (store.loadHead e.sessionId).elim 1 (·.mediationSequence + 1)) :
    ∃ L', LedgerMove opens L L' ∧ Represents (store.appended e) s L' := by
  have hreservations : (store.appended e).reservationsOf s = if e.sessionId = s then
      (store.reservationsOf s).map fun row => if row.mediationSequence = e.mediationSequence then
        { row with state := .finalized } else row
      else store.reservationsOf s :=
    reservationsOf_resolve e.sessionId e.mediationSequence .finalized
  have hevidence : (store.appended e).evidenceOf s = if e.sessionId = s then
      store.evidenceOf s ++ [e.spelled.stored] else store.evidenceOf s :=
    evidenceOf_recorded e
  have hhead : (store.appended e).loadHead s = if e.sessionId = s then
      some ⟨e.sessionId, e.mediationSequence, e.afterExecutionRoot⟩ else store.loadHead s :=
    loadHead_replaceHead ⟨e.sessionId, e.mediationSequence, e.afterExecutionRoot⟩
  by_cases hs : e.sessionId = s
  · subst hs
    have hpending := h.pending_of_reserved rfl he.reserved
    have hstored := h.valid.stored_of_pending hpending
    have hsequence : e.mediationSequence = L.records.length + 1 :=
      h.valid.pending_sequence hpending
    -- the head is behind the staged leaves, so there are none
    have hstaged : L.staged = [] := by
      rw [hnext, h.nextHead, L.length_records] at hsequence
      exact length_eq_zero_iff.1 (by omega)
    have hmove : LedgerMove opens L (L.append e.spelled) :=
      .appended L e.spelled hpending hstaged (he.root.trans h.headRoot) he.valid.spelled
    have hrecords : (L.append e.spelled).records = L.records ++ [e.spelled] := by
      simp [Ledger.records, Ledger.append, hstaged]
    rw [if_pos rfl] at hreservations hevidence hhead
    refine ⟨_, hmove, hmove.valid h.valid, ?_, ?_, ?_, ?_, ?_, ?_⟩
    · have hresolved := h.reservations_resolved hpending .finalized
      rw [mediationSequence_spelled] at hresolved
      rw [hreservations, hresolved, hstaged]
      simp [Ledger.reservationRows, Ledger.append, hstaged]
    · rw [hevidence, hstored, hrecords, h.evidence]
    · refine hhead.trans ?_
      have hlength : (L.append e.spelled).final.length = L.records.length + 1 := by
        simp [Ledger.append, Ledger.records, hstaged]
      rw [Ledger.headRow, if_neg (by simp [Ledger.append]), hlength, hsequence]
      rfl
    · exact h.batches
    · exact h.staged
    · intro row hrow hsession
      have hle := h.leaves row hrow hsession
      rw [hrecords, length_append]
      omega
  · rw [if_neg hs] at hreservations hevidence hhead
    exact ⟨L, .idle L, { h with
      reservations := hreservations.trans h.reservations
      evidence := hevidence.trans h.evidence
      head := hhead.trans h.head }⟩

theorem Represents.stagedWith (h : Represents store s L) (he : store.Finalizes e)
    (hbuffered : e.outcome = .buffered) (inputDigest leafDigest : Bytes) :
    ∃ L', LedgerMove opens L L' ∧
      Represents (store.stagedWith e (store.leafRow e inputDigest leafDigest)) s L' := by
  have hreservations : (store.stagedWith e (store.leafRow e inputDigest leafDigest)).reservationsOf
      s = if e.sessionId = s then
      (store.reservationsOf s).map fun row => if row.mediationSequence = e.mediationSequence then
        { row with state := .staged } else row
      else store.reservationsOf s :=
    reservationsOf_resolve e.sessionId e.mediationSequence .staged
  have hevidence : (store.stagedWith e (store.leafRow e inputDigest leafDigest)).evidenceOf s =
      if e.sessionId = s then store.evidenceOf s ++ [e.spelled.stored] else store.evidenceOf s :=
    evidenceOf_recorded e
  have hleaves : (store.stagedWith e (store.leafRow e inputDigest leafDigest)).stagedLeaves s =
      if e.sessionId = s then store.stagedLeaves s ++ [store.leafRow e inputDigest leafDigest]
      else store.stagedLeaves s :=
    stagedLeaves_stagedWith e rfl
  by_cases hs : e.sessionId = s
  · subst hs
    have hpending := h.pending_of_reserved rfl he.reserved
    have hstored := h.valid.stored_of_pending hpending
    have hsequence : e.mediationSequence = L.records.length + 1 :=
      h.valid.pending_sequence hpending
    let x : StagedRecord := ⟨e.spelled, store.leafRow e inputDigest leafDigest⟩
    have hmove : LedgerMove opens L (L.stage x) :=
      .staged L x hpending (he.root.trans h.headRoot) he.valid.spelled hbuffered rfl h.stagedCount
    have hrecords : (L.stage x).records = L.records ++ [e.spelled] := by
      simp [Ledger.records, Ledger.stage, x]
    rw [if_pos rfl] at hreservations hevidence hleaves
    refine ⟨_, hmove, hmove.valid h.valid, ?_, ?_, ?_, ?_, ?_, ?_⟩
    · have hresolved := h.reservations_resolved hpending .staged
      rw [mediationSequence_spelled] at hresolved
      rw [hreservations, hresolved]
      simp [Ledger.reservationRows, Ledger.stage, x]
    · rw [hevidence, hstored, hrecords, h.evidence]
    · exact h.head
    · exact h.batches
    · rw [hleaves, h.staged]
      simp [Ledger.stage, x]
    · intro row hrow hsession
      rw [hrecords, length_append, length_singleton]
      rcases mem_append.1 hrow with hold | hnew
      · have hle := h.leaves row hold hsession
        omega
      · have hnewSequence : row.mediationSequence = e.mediationSequence := by
          rw [mem_singleton.1 hnew]
          rfl
        omega
  · have hother : (store.leafRow e inputDigest leafDigest).sessionId ≠ s := hs
    rw [if_neg hs] at hreservations hevidence hleaves
    refine ⟨L, .idle L, { h with
      reservations := hreservations.trans h.reservations
      evidence := hevidence.trans h.evidence
      staged := hleaves.trans h.staged
      leaves := ?_ }⟩
    intro row hrow hsession
    rcases mem_append.1 hrow with hold | hnew
    · exact h.leaves row hold hsession
    · exact absurd (mem_singleton.1 hnew ▸ hsession) hother

theorem Ledger.Valid.last_staged (h : L.Valid) (hstaged : L.staged ≠ []) :
    (((L.staged.map StagedRecord.leaf).getLast?.map LeafRow.mediationSequence).getD 0) =
      L.records.length := by
  obtain ⟨front, x, hsplit⟩ := (eq_nil_or_concat L.staged).resolve_left hstaged
  rw [concat_eq_append] at hsplit
  have hx : x.leaf.mediationSequence = x.evidence.mediationSequence :=
    h.leaf_sequence x (by rw [hsplit]; simp)
  have hrecords : L.records =
      (L.final ++ front.map StagedRecord.evidence) ++ [x.evidence] := by
    rw [Ledger.records, hsplit, map_append, map_singleton, append_assoc]
  have hnumbers := h.numbered_records
  have hlength : L.records.length = (L.final ++ front.map StagedRecord.evidence).length + 1 := by
    rw [hrecords, length_append, length_singleton]
  rw [hlength, numbers_succ, hrecords, map_append] at hnumbers
  have hlast : x.evidence.mediationSequence =
      ((L.final ++ front.map StagedRecord.evidence).length : ℤ) + 1 :=
    head_eq_of_cons_eq (append_inj' hnumbers rfl).2
  rw [hsplit, map_append, map_singleton, List.getLast?_concat, hlength]
  show x.leaf.mediationSequence = _
  rw [hx, hlast]
  rfl

theorem Represents.flushed (h : Represents store s L) {sha256 : Bytes → Digest}
    {sessionId : String} {root kernelSignature : Bytes} {verificationFlags : ℤ} {batch : BatchRow}
    (hrows : store.stagedRows sessionId ≠ [])
    (hbatch : batch = store.batchOf sha256 sessionId (store.stagedRows sessionId) root
      kernelSignature verificationFlags) :
    ∃ L', LedgerMove opens L L' ∧ Represents (store.flushed batch) s L' := by
  have hsession : batch.sessionId = sessionId := by rw [hbatch, batchOf]
  have hreservations : (store.flushed batch).reservationsOf s = if batch.sessionId = s then
      (store.reservationsOf s).map fun row =>
        if row.state = .staged then { row with state := .finalized } else row
      else store.reservationsOf s :=
    reservationsOf_closeStaged batch.sessionId batch.batchId
  have hstaged : (store.flushed batch).stagedLeaves s =
      if batch.sessionId = s then [] else store.stagedLeaves s :=
    @stagedLeaves_closeStaged { store with batches := store.batches ++ [batch] } s
      batch.sessionId batch.batchId
  have hbatches : (store.flushed batch).batchesOf s = if batch.sessionId = s then
      store.batchesOf s ++ [batch] else store.batchesOf s :=
    batchesOf_flushed batch
  have hhead : (store.flushed batch).loadHead s = if batch.sessionId = s then
      some ⟨batch.sessionId, batch.lastMediationSequence, batch.afterRoot⟩
      else store.loadHead s :=
    loadHead_replaceHead
      ⟨batch.sessionId, batch.lastMediationSequence, batch.afterRoot⟩
  have hleaves : ∀ row ∈ (store.flushed batch).leaves, ∃ old ∈ store.leaves,
      old.sessionId = row.sessionId ∧ old.mediationSequence = row.mediationSequence := by
    intro row hrow
    obtain ⟨old, hold, rfl⟩ := mem_map.1 hrow
    refine ⟨old, hold, ?_⟩
    split <;> exact ⟨rfl, rfl⟩
  have hkept : ∀ row ∈ (store.flushed batch).leaves, row.sessionId = s →
      row.mediationSequence ≤ L.records.length := by
    intro row hrow hs
    obtain ⟨old, hold, hsame, hsequence⟩ := hleaves row hrow
    rw [← hsequence]
    exact h.leaves old hold (hsame.trans hs)
  -- the batch is of the session that is followed, or leaves its rows alone
  by_cases hs : batch.sessionId = s
  · have hrowsOf : store.stagedRows sessionId = L.staged.map StagedRecord.leaf := by
      rw [← hsession, hs]
      exact h.stagedRows
    have hne : L.staged ≠ [] := by
      rintro hnil
      rw [hrowsOf, hnil] at hrows
      exact hrows rfl
    have hlast : batch.lastMediationSequence = L.records.length := by
      rw [← h.valid.last_staged hne, ← hrowsOf, hbatch, batchOf]
    have hbefore : batch.beforeRoot = L.root := by
      rw [← h.headRoot, ← hs, hsession, hbatch, batchOf]
    -- the ledger flushes what it has staged, under the same root
    have hmove : LedgerMove opens L (L.flush batch) := .flushed L batch hne hlast hbefore
    have hrecords := Ledger.records_flush (L := L) batch
    rw [if_pos hs] at hreservations hstaged hbatches hhead
    refine ⟨_, hmove, hmove.valid h.valid, ?_, ?_, ?_, ?_, ?_, ?_⟩
    · rw [hreservations, h.reservations, Ledger.reservationRows_flush]
    · rw [hrecords]
      exact h.evidence
    · have hfinal : (L.flush batch).final ≠ [] := by
        simp [Ledger.flush, Ledger.records, hne]
      rw [hhead, Ledger.headRow, if_neg hfinal, hs, hlast]
      rfl
    · rw [hbatches, h.batches]
      rfl
    · exact hstaged
    · rw [hrecords]
      exact hkept
  · rw [if_neg hs] at hreservations hstaged hbatches hhead
    exact ⟨L, .idle L, { h with
      reservations := hreservations.trans h.reservations
      head := hhead.trans h.head
      batches := hbatches.trans h.batches
      staged := hstaged.trans h.staged
      leaves := hkept }⟩

end

/-- Every reservation that the call takes out meets `allowed`. -/
def StoreCall.Opens (allowed : EvidenceStore → AuthorizedEffectEvidenceReservation → Prop)
    (store : EvidenceStore) : StoreCall → Prop
  | .reserve available r => store.Opens available r → allowed store r
  | _ => True

section

variable {sha256 : Bytes → Digest} {store : EvidenceStore} {s : String} {L : Ledger}
  {allowed : EvidenceStore → AuthorizedEffectEvidenceReservation → Prop}

/-- **Every call makes at most one ledger move** in a session. -/
theorem ledger_step (opens : Ledger → EffectBinding String → Prop) (h : Represents store s L)
    {call : StoreCall} (hcall : call.Opens allowed store)
    (hopens : ∀ r, ValidReservation r → allowed store r → r.sessionId = s →
      opens L r.spelled.stored) :
    ∃ L', LedgerMove opens L L' ∧ Represents (store.step sha256 call) s L' := by
  rw [step]
  rcases hanswer : store.answer sha256 call with raised | store'
  · exact ⟨L, .idle L, h⟩
  · cases call with
    | reserve available r =>
      rcases reserve_eq_ok.1 hanswer with ⟨_, rfl⟩ | ⟨hr, rfl⟩
      · exact ⟨L, .idle L, h⟩
      · exact h.opened hr (hopens r hr.valid (hcall hr))
    | append available e =>
      obtain ⟨_, he, hnext, rfl⟩ := append_eq_ok.1 hanswer
      exact h.appended he hnext
    | stageBatched available e inputDigest =>
      obtain ⟨⟨store'', leafDigest⟩, hstage, rfl⟩ := map_eq_ok.1 hanswer
      obtain ⟨_, he, hbuffered, _, _, _, rfl⟩ := stageBatched_eq_ok.1 hstage
      exact h.stagedWith he hbuffered inputDigest leafDigest
    | flushBatched available sessionId leafDigests kernelSignature verificationFlags =>
      obtain ⟨⟨store'', batch⟩, hflush, rfl⟩ := map_eq_ok.1 hanswer
      obtain ⟨_, hrows, _, ⟨root, _, hbatch⟩, _, rfl⟩ :=
        flushBatched_eq_ok.1 hflush
      exact h.flushed hrows hbatch
    | restart =>
      obtain rfl := Except.ok.inj hanswer
      exact ⟨L, .idle L, h⟩

/-- **The tables of a run represent a ledger** in every session. -/
theorem ledger_run (sha256 : Bytes → Digest) (h : ∀ s, ∃ L, Represents store s L) (calls : List StoreCall) (s : String) :
    ∃ L, Represents (run (step sha256) store calls) s L := by
  revert s
  refine run_invariant (I := fun t : EvidenceStore => ∀ s, ∃ L, Represents t s L) ?_ h calls
  intro t call ht s
  obtain ⟨L, hL⟩ := ht s
  have hcall : call.Opens (fun _ _ => True) t := by
    cases call with
    | reserve => exact fun _ => trivial
    | _ => trivial
  obtain ⟨L', _, hL'⟩ := ledger_step (fun _ _ => True) hL hcall fun _ _ _ _ => trivial
  exact ⟨L', hL'⟩

end

end PooFlow
