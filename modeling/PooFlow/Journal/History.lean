import PooFlow.Journal.Refinement
import PooFlow.Journal.Reserving

namespace PooFlow

open Foundation List EvidenceStore

/-- Representation invariant of a session. -/
structure WellKept (store : EvidenceStore) (s : String) : Prop where
  contiguous : (store.orderedReservations s).map (·.mediationSequence) =
    numbers (store.reservationsOf s).length
  one_reserved : ((store.reservationsOf s).filter (·.state = .reserved)).length ≤ 1
  linked : Linked zeroRoot
    ((store.evidenceOf s).flatMap (Evidence.transitions (store.batchesOf s))) (store.headRoot s)
  staged_root : ∀ row ∈ store.stagedLeaves s, ∃ e ∈ store.evidenceOf s,
    e.mediationSequence = row.mediationSequence ∧ e.beforeExecutionRoot = store.headRoot s
  same_semantic : ∀ row ∈ store.reservationsOf s, ∀ row' ∈ store.reservationsOf s,
    row'.semanticRoot = row.semanticRoot
  evidence_semantic : ∀ e ∈ store.evidenceOf s, ∃ row ∈ store.reservationsOf s,
    row.mediationSequence = e.mediationSequence ∧ row.semanticRoot = e.semanticRoot
  reconciles : ∃ result, store.reconciliation s = .ok result

def SameSemanticRoot (store : EvidenceStore) (r : AuthorizedEffectEvidenceReservation) : Prop :=
  ∀ row ∈ store.reservationsOf r.sessionId, row.semanticRoot = r.semanticRoot

def Ledger.OneSemantic (L : Ledger) : Prop :=
  ∀ b ∈ L.bindings, ∀ b' ∈ L.bindings, b'.semanticRoot = b.semanticRoot

/-- A new mediation carries the semantic root of those before it. -/
def OpensSemantic (L : Ledger) (b : EffectBinding String) : Prop :=
  ∀ b' ∈ L.bindings, b'.semanticRoot = b.semanticRoot

theorem Ledger.reserved_rows (L : Ledger) :
    L.reservationRows.filter (·.state = .reserved) = L.pending.toList.map (·.row .reserved) := by
  have hfinal : (L.final.map (·.toEffectBinding.row .finalized)).filter (·.state = .reserved) =
      [] := by
    rw [filter_eq_nil_iff]
    intro row hrow
    obtain ⟨e, _, rfl⟩ := mem_map.1 hrow
    simp [EffectBinding.row]
  have hstaged : (L.staged.map (·.evidence.toEffectBinding.row .staged)).filter
      (·.state = .reserved) = [] := by
    rw [filter_eq_nil_iff]
    intro row hrow
    obtain ⟨x, _, rfl⟩ := mem_map.1 hrow
    simp [EffectBinding.row]
  have hpending : (L.pending.toList.map (·.row .reserved)).filter (·.state = .reserved) =
      L.pending.toList.map (·.row .reserved) := by
    rw [filter_eq_self]
    intro row hrow
    obtain ⟨b, _, rfl⟩ := mem_map.1 hrow
    rfl
  rw [Ledger.reservationRows, filter_append, filter_append, hfinal, hstaged, hpending]
  rfl

theorem parse_rows {rows : List ReservationRow}
    (hrows : ∀ row ∈ rows, ∃ nonce : Nonce, nonce.IsUint64 ∧ row.nonce = nonce.text) :
    ∃ nonces, rows.mapM (fun row => parseEvidenceNonce row.nonce) = .ok nonces := by
  induction rows with
  | nil => exact ⟨[], rfl⟩
  | cons row rest ih =>
    obtain ⟨nonce, huint, hnonce⟩ := hrows row mem_cons_self
    obtain ⟨nonces, hrest⟩ := ih fun r hr => hrows r (mem_cons_of_mem _ hr)
    refine ⟨nonce :: nonces, ?_⟩
    rw [mapM_cons, hnonce, parse_evidenceNonceText huint, hrest]
    rfl

section

variable [Turso]

theorem LedgerMove.oneSemantic {L L' : Ledger} (hmove : LedgerMove OpensSemantic L L')
    (h : L.OneSemantic) : L'.OneSemantic := by
  cases hmove with
  | idle => exact h
  | reserved b hpending hsequence hroot hfresh hspelled hstored hopens =>
    rw [Ledger.OneSemantic, Ledger.bindings_reserve hpending]
    intro c hc c' hc'
    rw [mem_append, mem_singleton] at hc hc'
    have hsame : ∀ x, x ∈ L.bindings ∨ x = b → x.semanticRoot = b.semanticRoot := by
      rintro x (hx | rfl)
      · exact hopens x hx
      · rfl
    exact (hsame c' hc').trans (hsame c hc).symm
  | appended e hpending hstaged hroot hvalid =>
    rw [Ledger.OneSemantic, Ledger.bindings_append hpending hstaged]
    exact h
  | staged x hpending hroot hvalid hbuffered hsequence hindex =>
    rw [Ledger.OneSemantic, Ledger.bindings_stage hpending]
    exact h
  | flushed batch hstaged hlast hbefore =>
    rw [Ledger.OneSemantic, Ledger.bindings_flush]
    exact h

def SemanticStore (store : EvidenceStore) : Prop :=
  ∀ s, ∃ L, Represents store s L ∧ L.OneSemantic

theorem semanticStore_empty : SemanticStore {} := by
  intro s
  refine ⟨{}, .empty s, ?_⟩
  intro b hb
  cases hb

section

variable {sha256 : Bytes → Digest} {store : EvidenceStore} {s : String} {L : Ledger}

theorem semanticStore_step (h : SemanticStore store) {call : StoreCall}
    (hcall : call.Opens SameSemanticRoot store) : SemanticStore (store.step sha256 call) := by
  intro s
  obtain ⟨L, hL, hsemantic⟩ := h s
  have hopens : ∀ r, ValidReservation r → SameSemanticRoot store r → r.sessionId = s →
      OpensSemantic L r.spelled.stored := by
    intro r _ hsame hs b hb
    rw [← L.map_reservationRows, ← hL.reservations, ← hs] at hb
    obtain ⟨row, hrow, rfl⟩ := mem_map.1 hb
    exact hsame row hrow
  obtain ⟨L', hmove, hL'⟩ := ledger_step OpensSemantic hL hcall hopens
  exact ⟨L', hL', hmove.oneSemantic hsemantic⟩

theorem Represents.reconciles (h : Represents store s L) (hsemantic : L.OneSemantic) :
    ∃ result, store.reconciliation s = .ok result := by
  have hbinding : ∀ row ∈ L.reservationRows, row.toEffectBinding ∈ L.bindings := by
    intro row hrow
    rw [← L.map_reservationRows]
    exact mem_map_of_mem hrow
  rw [reconciliation, h.ordered]
  rcases hrows : L.reservationRows with _ | ⟨first, rest⟩
  · exact ⟨none, rfl⟩
  · rw [hrows] at hbinding
    have hsame : ∀ row ∈ first :: rest, row.semanticRoot = first.semanticRoot := by
      intro row hrow
      exact hsemantic _ (hbinding first mem_cons_self) _ (hbinding row hrow)
    obtain ⟨nonces, hnonces⟩ := parse_rows fun row hrow =>
      h.valid.spelled _ (hbinding row hrow)
    have hguard : guardElse (∀ row ∈ first :: rest, row.semanticRoot = first.semanticRoot)
        (Raised.evidenceError "durable evidence history changes semantic root") = .ok () :=
      guardElse_eq_ok.2 hsame
    dsimp only
    rw [hguard, hnonces]
    exact ⟨_, rfl⟩

theorem Represents.raises (h : Represents store s L) {row row' : ReservationRow}
    (hrow : row ∈ store.reservationsOf s) (hrow' : row' ∈ store.reservationsOf s)
    (hne : row'.semanticRoot ≠ row.semanticRoot)
    (result : Option AuthorizedEffectEvidenceReconciliation) :
    store.reconciliation s ≠ .ok result := by
  intro hok
  rw [reconciliation, h.ordered] at hok
  rw [h.reservations] at hrow hrow'
  rcases hrows : L.reservationRows with _ | ⟨first, rest⟩
  · rw [hrows] at hrow
    cases hrow
  · rw [hrows] at hok hrow hrow'
    obtain ⟨_, hguard, _⟩ := bind_eq_ok.1 hok
    have hsame := guardElse_eq_ok.1 hguard
    exact hne ((hsame row' hrow').trans (hsame row hrow).symm)

/-- **A ledger of one semantic root is well kept.** -/
theorem Represents.wellKept (h : Represents store s L) (hsemantic : L.OneSemantic) :
    WellKept store s where
  contiguous := by
    rw [h.ordered, h.reservations, L.sequences_reservationRows, h.valid.numbered,
      L.length_reservationRows]
  one_reserved := by
    rw [h.reservations, L.reserved_rows, length_map]
    cases L.pending <;> simp
  linked := by
    rw [h.evidence, h.batches, h.headRoot]
    exact h.valid.linked
  staged_root := by
    intro row hrow
    rw [h.staged] at hrow
    obtain ⟨x, hx, rfl⟩ := mem_map.1 hrow
    refine ⟨x.evidence, ?_, (h.valid.leaf_sequence x hx).symm, ?_⟩
    · rw [h.evidence, Ledger.records]
      exact mem_append_right _ (mem_map_of_mem hx)
    · rw [h.headRoot]
      exact h.valid.staged_root x hx
  same_semantic := by
    intro row hrow row' hrow'
    rw [h.reservations] at hrow hrow'
    have hmem : row.toEffectBinding ∈ L.bindings := by
      rw [← L.map_reservationRows]
      exact mem_map_of_mem hrow
    have hmem' : row'.toEffectBinding ∈ L.bindings := by
      rw [← L.map_reservationRows]
      exact mem_map_of_mem hrow'
    exact hsemantic _ hmem _ hmem'
  evidence_semantic := by
    intro e he
    rw [h.evidence] at he
    have hmem : e.toEffectBinding ∈ L.bindings :=
      mem_append_left _ (mem_map_of_mem he)
    rw [← L.map_reservationRows, ← h.reservations] at hmem
    obtain ⟨row, hrow, heq⟩ := mem_map.1 hmem
    exact ⟨row, hrow, congrArg (fun b : EffectBinding String => b.mediationSequence) heq,
      congrArg (fun b : EffectBinding String => b.semanticRoot) heq⟩
  reconciles := h.reconciles hsemantic

theorem semanticStore_wellKept (h : SemanticStore store) (s : String) : WellKept store s := by
  obtain ⟨L, hL, hsemantic⟩ := h s
  exact hL.wellKept hsemantic

theorem not_wellKept_step {call : StoreCall} (hcall : ¬call.Opens SameSemanticRoot store) :
    ¬∀ s, WellKept (store.step sha256 call) s := by
  cases call with
  | reserve available r =>
    obtain ⟨hopens, hother⟩ := Classical.not_imp.1 hcall
    rw [step_reserve hopens]
    intro hall
    have hrows : (store.opened r).reservationsOf r.sessionId =
        store.reservationsOf r.sessionId ++ [r.spelled.stored.row .reserved] := by
      rw [reservationsOf_opened, if_pos rfl]
    refine hother fun row hrow => ?_
    have hsame := (hall r.sessionId).same_semantic
    rw [hrows] at hsame
    exact hsame _ (mem_append_right _ (mem_singleton.2 rfl)) row
      (mem_append_left _ hrow)
  | _ => exact absurd trivial hcall

end

/-- **The history of every session is well kept** in exactly the runs whose
reservations carry the semantic root of their session. -/
theorem history_kept_iff (sha256 : Bytes → Digest) (calls : List StoreCall) :
    (∀ front back, calls = front ++ back →
      ∀ s, WellKept (run (EvidenceStore.step sha256) {} front) s) ↔
      Along (EvidenceStore.step sha256) (fun t call => call.Opens SameSemanticRoot t) {} calls :=
  throughout_iff (I := SemanticStore) (P := fun t => ∀ s, WellKept t s)
    (fun _ h => semanticStore_wellKept h) (fun _ _ h hcall => semanticStore_step h hcall)
    (fun _ _ _ hcall => not_wellKept_step hcall) semanticStore_empty calls

end

section

open Turso

def otherReservation : AuthorizedEffectEvidenceReservation :=
  { firstReservation with
    mediationSequence := 2
    nonce := (0, 2)
    semanticRoot := List.replicate 32 1 }

def changesSemanticRoot : List StoreCall :=
  [.reserve true firstReservation, .append true firstReceipt, .reserve true otherReservation,
    .append true { firstReceipt with toEffectBinding := otherReservation }]

/-- **The condition is needed**: no reservation is open, and reconciliation raises. -/
theorem history_changes_semantic_root :
    ¬∀ (sha256 : Bytes → Digest) (calls : List StoreCall) (s : String),
      WellKept (run (EvidenceStore.step sha256) {} calls) s := by
  intro h
  obtain ⟨result, hresult⟩ := (h (fun _ => .zero) changesSemanticRoot "s").reconciles
  obtain ⟨L, hL⟩ := ledger_run (fun _ => .zero) (fun s => ⟨{}, .empty s⟩) changesSemanticRoot "s"
  have hfirst : firstReservation.spelled.row .finalized ∈
      (run (EvidenceStore.step fun _ => .zero) {} changesSemanticRoot).reservationsOf "s" := by
    decide +kernel
  have hother : otherReservation.spelled.row .finalized ∈
      (run (EvidenceStore.step fun _ => .zero) {} changesSemanticRoot).reservationsOf "s" := by
    decide +kernel
  exact hL.raises hfirst hother (by decide) result hresult

end

end PooFlow
