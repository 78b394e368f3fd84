import PooFlow.Journal.Refinement
import PooFlow.Journal.Reserving

namespace PooFlow

open Foundation List EvidenceStore Option

section

variable [Turso]

/-- Each outcome of a reserved mediation has a receipt that is accepted. -/
structure Finalizable (sha256 : Bytes → Digest) (store : EvidenceStore)
    (r : AuthorizedEffectEvidenceReservation) : Prop where
  strict : ∀ outcome, outcome = .committed ∨ outcome = .indeterminate →
    ∃ e : AuthorizedEffectEvidenceReceipt, e.outcome = outcome ∧ e.toEffectBinding = r ∧
      e.beforeExecutionRoot = store.headRoot r.sessionId ∧
      ∃ store', store.append true e = .ok store'
  batched : ∃ (e : AuthorizedEffectEvidenceReceipt) (inputDigest : Bytes),
    e.outcome = .buffered ∧ e.toEffectBinding = r ∧
      e.beforeExecutionRoot = store.headRoot r.sessionId ∧
      ∃ result, store.stageBatched sha256 true e inputDigest = .ok result

/-- A call takes the reservation out: it is accepted, and the mediation had none. -/
def TakenOut (sha256 : Bytes → Digest) (calls : List StoreCall)
    (r : AuthorizedEffectEvidenceReservation) : Prop :=
  ∃ front available back, calls = front ++ .reserve available r :: back ∧
    (run (EvidenceStore.step sha256) {} front).Opens available r

/-- **The journal never wedges**: at any time, a reservation that was taken out and is
still in the state `reserved` can be closed. -/
def AlwaysFinalizable (sha256 : Bytes → Digest) (calls : List StoreCall) : Prop :=
  ∀ front back, calls = front ++ back → ∀ r, TakenOut sha256 front r →
    (∃ row, (run (EvidenceStore.step sha256) {} front).reservation r.sessionId
      r.mediationSequence = some row ∧ row.state = .reserved) →
        Finalizable sha256 (run (EvidenceStore.step sha256) {} front) r

/-- A reservation is made without staged leaves, with numbers that are read back as they
are written, and printed. -/
structure OpensSafely (store : EvidenceStore) (r : AuthorizedEffectEvidenceReservation) : Prop where
  unstaged : store.stagedCount r.sessionId = 0
  stored : r.stored = r
  mediation : Prints r.mediationSequence
  last : Prints r.lastSequence

end

/-- The reserved mediation follows the head and starts from the current root. -/
structure Closable (L : Ledger) : Prop where
  unstaged : ∀ b, L.pending = some b → L.staged = []
  root : ∀ b, L.pending = some b → b.beforeExecutionRoot = L.root

theorem Closable.of_idle {L : Ledger} (hpending : L.pending = none) : Closable L := by
  constructor
  all_goals
    intro b hb
    rw [hpending] at hb
    cases hb

def closingReceipt (r : AuthorizedEffectEvidenceReservation) (outcome : EvidenceOutcome) :
    AuthorizedEffectEvidenceReceipt :=
  { r with
    afterExecutionRoot := r.beforeExecutionRoot
    outcome := outcome
    observationDigest := zeroRoot
    createdAtNs := 0 }

theorem closingReceipt_valid {r : AuthorizedEffectEvidenceReservation} {outcome : EvidenceOutcome}
    (hr : ValidReservation r)
    (houtcome : outcome = .committed ∨ outcome = .buffered ∨ outcome = .indeterminate) :
    ValidReceipt (closingReceipt r outcome) where
  inOrder := hr.inOrder
  supported := houtcome
  digested := ⟨hr.semanticRoot, hr.beforeExecutionRoot, hr.beforeExecutionRoot, rfl⟩
  keepsRoot := fun _ => rfl

section

variable [Turso]

theorem LedgerMove.closable {L L' : Ledger} (hmove : LedgerMove (fun L _ => L.staged = []) L L')
    (h : Closable L) : Closable L' := by
  cases hmove with
  | idle => exact h
  | reserved b hpending hsequence hroot hfresh hspelled hstored hopens =>
    constructor
    · exact fun _ _ => hopens
    · rintro b' hb'
      obtain rfl := some.inj hb'
      exact hroot
  | appended | staged => exact .of_idle rfl
  | flushed batch hstaged hlast hbefore =>
    apply Closable.of_idle
    rcases hpending : L.pending with _ | b
    · exact hpending
    · exact absurd (h.unstaged b hpending) hstaged

def ClosableStore (store : EvidenceStore) : Prop :=
  ∀ s, ∃ L, Represents store s L ∧ Closable L

theorem closableStore_empty : ClosableStore {} :=
  fun s => ⟨{}, .empty s, .of_idle rfl⟩

section

variable {sha256 : Bytes → Digest} {store : EvidenceStore} {s : String} {L : Ledger}

theorem closableStore_step (h : ClosableStore store) {call : StoreCall}
    (hcall : call.Opens OpensSafely store) : ClosableStore (store.step sha256 call) := by
  intro s
  obtain ⟨L, hL, hclosable⟩ := h s
  have hopens : ∀ r, ValidReservation r → OpensSafely store r → r.sessionId = s →
      L.staged = [] := by
    intro r _ hsafely hs
    have hunstaged := hsafely.unstaged
    rw [hs, hL.stagedCount] at hunstaged
    exact length_eq_zero_iff.1 hunstaged
  obtain ⟨L', hmove, hL'⟩ := ledger_step (fun L _ => L.staged = []) hL hcall hopens
  exact ⟨L', hL', hmove.closable hclosable⟩

variable {r : AuthorizedEffectEvidenceReservation} {outcome : EvidenceOutcome}

theorem Represents.finalizes (h : Represents store s L) (hclosable : Closable L)
    (hr : ValidReservation r) (hpending : L.pending = some r.spelled) (hs : r.sessionId = s)
    (houtcome : outcome = .committed ∨ outcome = .buffered ∨ outcome = .indeterminate) :
    store.Finalizes (closingReceipt r outcome) where
  valid := closingReceipt_valid hr houtcome
  reserved := by
    refine ⟨?_, hr.nonce⟩
    have hmem : r.spelled.row .reserved ∈ L.reservationRows :=
      (L.reserved_mem.2 ⟨r.spelled, hpending, rfl⟩).1
    have hfound := find?_key h.nodup_sequences hmem
    rw [← h.reservations] at hfound
    show store.reservation r.sessionId r.mediationSequence = some (r.spelled.row .reserved)
    rw [hs, reservation_eq_find?]
    exact hfound
  root := by
    show r.beforeExecutionRoot = store.headRoot r.sessionId
    rw [hs, h.headRoot]
    exact hclosable.root r.spelled hpending
  unrecorded := by
    intro old hold hsession
    have hrecord : old ∈ L.records := by
      rw [← h.evidence, evidenceOf, mem_filter]
      exact ⟨hold, decide_eq_true (hsession.trans hs)⟩
    constructor
    · have hle := (h.valid.record_sequence hrecord).2
      have hnext : r.mediationSequence = L.records.length + 1 :=
        h.valid.pending_sequence hpending
      show old.mediationSequence ≠ r.mediationSequence
      omega
    · have hnodup := h.valid.nonces_nodup
      rw [Ledger.bindings, hpending, map_append, nodup_append] at hnodup
      have hold' : old.nonce ∈ (L.records.map Evidence.toEffectBinding).map (·.nonce) :=
        mem_map_of_mem (mem_map_of_mem hrecord)
      exact hnodup.2.2 _ hold' r.nonce.text (mem_singleton.2 rfl)

/-- **A closable session is finalizable.** -/
theorem Represents.finalizable (h : Represents store s L) (hclosable : Closable L)
    (hr : ValidReservation r) (hpending : L.pending = some r.spelled) (hs : r.sessionId = s)
    (hmediation : Prints r.mediationSequence) (hlast : Prints r.lastSequence) :
    Finalizable sha256 store r := by
  constructor
  · intro outcome houtcome
    have hfinalizes : store.Finalizes (closingReceipt r outcome) :=
      h.finalizes hclosable hr hpending hs (houtcome.imp id Or.inr)
    have hnext : r.mediationSequence = (store.loadHead r.sessionId).elim 1
        (·.mediationSequence + 1) := by
      rw [hs, h.nextHead]
      have hsequence : r.mediationSequence = L.records.length + 1 :=
        h.valid.pending_sequence hpending
      rw [hsequence, L.length_records, hclosable.unstaged r.spelled hpending]
      rfl
    exact ⟨closingReceipt r outcome, rfl, rfl, hfinalizes.root, _,
      append_eq_ok.2 ⟨rfl, hfinalizes, hnext, rfl⟩⟩
  · have hfinalizes : store.Finalizes (closingReceipt r .buffered) :=
      h.finalizes hclosable hr hpending hs (Or.inr (Or.inl rfl))
    have hcount : store.stagedCount r.sessionId = 0 := by
      rw [hs, h.stagedCount, hclosable.unstaged r.spelled hpending, length_nil]
    obtain ⟨-, -, hfirst, hle⟩ := hr.inOrder
    have hprinted : EvidenceStore.Printed (closingReceipt r .buffered)
        (store.stagedCount r.sessionId) := by
      refine ⟨hmediation, ?_, hlast.mono (le_of_lt hfirst) hle, hlast⟩
      rw [hcount]
      exact prints_of_lt (by decide) (by decide)
    obtain ⟨leafDigest, hleaf⟩ := (exists_leafDigest_iff sha256 hfinalizes.valid
      (store.stagedCount r.sessionId) zeroRoot).2 hprinted
    refine ⟨closingReceipt r .buffered, zeroRoot, rfl, rfl, hfinalizes.root, _, stageBatched_eq_ok.2
        ⟨rfl, hfinalizes, rfl, length_zeroRoot, hleaf, ?_, rfl⟩⟩
    intro old hold hsession
    have hle := h.leaves old hold (hsession.trans hs)
    have hnext : r.mediationSequence = L.records.length + 1 := h.valid.pending_sequence hpending
    show old.mediationSequence ≠ r.mediationSequence
    omega

section

variable {available : Bool} (hr : store.Opens available r)

include hr

/-- **A reservation taken out behind staged leaves** cannot be closed by a strict
receipt. -/
theorem Represents.unstaged_of_finalizable (h : Represents store r.sessionId L)
    (hfinalizable : Finalizable sha256 (store.opened r) r) : store.stagedCount r.sessionId = 0 := by
  obtain ⟨e, _, rfl, _, store', happend⟩ := hfinalizable.strict .committed (Or.inl rfl)
  obtain ⟨_, _, hnext, _⟩ := append_eq_ok.1 happend
  have hhead : (store.opened e.toEffectBinding).loadHead e.sessionId = store.loadHead e.sessionId :=
    rfl
  have hpending : L.pending = none := not_not.1 fun hsome =>
    hr.resolved (h.unresolved_iff.2 hsome)
  have hopened := hr.sequence
  rw [h.nextReservationSequence, L.length_bindings, hpending, L.length_records] at hopened
  rw [hhead, h.nextHead, hopened] at hnext
  rw [h.stagedCount]
  simp only [toList_none, length_nil, Nat.add_zero] at hnext
  omega

/-- **A reservation with a range that is read back as another** matches no receipt. -/
theorem stored_of_finalizable (hfinalizable : Finalizable sha256 (store.opened r) r) :
    r.stored = r := by
  obtain ⟨e, _, rfl, _, store', happend⟩ := hfinalizable.strict .committed (Or.inl rfl)
  obtain ⟨_, hfinalizes, _, _⟩ := append_eq_ok.1 happend
  have hbinding := bindingAt_of_opens hr
  rw [bindingAt, hfinalizes.reserved.row] at hbinding
  exact EffectBinding.spelled_inj hr.valid.nonce hr.valid.nonce (some.inj hbinding).symm

theorem printed_of_finalizable (hfinalizable : Finalizable sha256 (store.opened r) r) :
    Prints r.mediationSequence ∧ Prints r.lastSequence := by
  obtain ⟨e, inputDigest, _, rfl, _, ⟨store', leafDigest⟩, hstage⟩ := hfinalizable.batched
  obtain ⟨_, hfinalizes, _, _, hleaf, _, _⟩ := stageBatched_eq_ok.1 hstage
  have hprinted := (exists_leafDigest_iff sha256 hfinalizes.valid _ inputDigest).1
    ⟨leafDigest, hleaf⟩
  exact ⟨hprinted.mediation, hprinted.last⟩

end

end

variable {sha256 : Bytes → Digest} {calls : List StoreCall}

/-- A reservation that is taken out safely can be closed while it is reserved. -/
theorem finalizable_of_along
    (h : Along (step sha256) (fun t call => call.Opens OpensSafely t) {} calls)
    {r : AuthorizedEffectEvidenceReservation} (htaken : TakenOut sha256 calls r)
    {row : ReservationRow} (hrow : (run (step sha256) {} calls).reservation
      r.sessionId r.mediationSequence = some row) (hstate : row.state = .reserved) :
    Finalizable sha256 (run (step sha256) {} calls) r := by
  obtain ⟨L, hL, hclosable⟩ := h.invariant
    (fun _ _ ht hcall => closableStore_step ht hcall) closableStore_empty r.sessionId
  obtain ⟨front, available, back, rfl, hopens⟩ := htaken
  have hsafely : OpensSafely (run (step sha256) {} front) r := h.at hopens
  -- the binding that was written is still there, so the ledger has it pending
  have hbinding := bindingAt_run sha256 back
    (bindingAt_of_opens hopens)
  rw [hsafely.stored, ← step_reserve hopens sha256, ← run_cons, ← run_append,
    bindingAt, hrow] at hbinding
  have hmem : row ∈ L.reservationRows := by
    rw [← hL.reservations]
    rw [reservation_eq_find?] at hrow
    exact mem_of_find?_eq_some hrow
  obtain ⟨b, hpending, rfl⟩ := L.reserved_mem.1 ⟨hmem, hstate⟩
  obtain rfl : b = r.spelled := some.inj hbinding
  exact hL.finalizable hclosable hopens.valid hpending rfl hsafely.mediation hsafely.last

/-- **The journal never wedges** in exactly the runs that take reservations out
without staged leaves, and with numbers that are written and read back. -/
theorem journal_finalizable_iff (sha256 : Bytes → Digest) (calls : List StoreCall) :
    AlwaysFinalizable sha256 calls ↔
      Along (EvidenceStore.step sha256) (fun t call => call.Opens OpensSafely t) {} calls := by
  constructor
  · intro h
    refine along_of_at fun front call back hsplit => ?_
    cases call with
    | reserve available r =>
      intro hopens
      have hafter : run (EvidenceStore.step sha256) {} (front ++ [.reserve available r]) =
          (run (EvidenceStore.step sha256) {} front).opened r := by
        rw [run_concat, EvidenceStore.step_reserve hopens]
      have hfinalizable := h (front ++ [.reserve available r]) back (by simpa using hsplit) r
        ⟨front, available, [], rfl, hopens⟩ (by
          rw [hafter]
          exact ⟨_, EvidenceStore.reservation_of_opens hopens, rfl⟩)
      rw [hafter] at hfinalizable
      obtain ⟨L, hL⟩ := ledger_run sha256 (fun s => ⟨{}, .empty s⟩) front r.sessionId
      have hprinted := printed_of_finalizable hopens hfinalizable
      exact ⟨hL.unstaged_of_finalizable hopens hfinalizable,
        stored_of_finalizable hopens hfinalizable, hprinted.1, hprinted.2⟩
    | _ => trivial
  · rintro h front back rfl r htaken ⟨row, hrow, hstate⟩
    exact finalizable_of_along (along_append.1 h).1 htaken hrow hstate

theorem not_alwaysFinalizable {front : List StoreCall} {r : AuthorizedEffectEvidenceReservation}
    (hopens : (run (step sha256) {} front).Opens true r)
    (hrounded : ¬OpensSafely (run (step sha256) {} front) r) :
    ¬AlwaysFinalizable sha256 (front ++ [.reserve true r]) :=
  fun h => hrounded (((journal_finalizable_iff sha256 _).1 h).at hopens)

end

section

open Turso

def secondReservation : AuthorizedEffectEvidenceReservation :=
  { firstReservation with mediationSequence := 2, nonce := (0, 2) }

def stagesFirst : List StoreCall :=
  [.reserve true firstReservation,
    .stageBatched true (closingReceipt firstReservation .buffered) zeroRoot]

/-- A range that ends beyond the integers of the database. -/
def wideReservation : AuthorizedEffectEvidenceReservation :=
  { firstReservation with lastSequence := 2 ^ 63 + 1 }

/-- **The conditions are needed**: no strict receipt closes a second reservation that is
taken out while the first mediation is staged, and none closes a reservation whose range
is rounded. -/
theorem journal_wedged :
    ¬AlwaysFinalizable (fun _ => .zero) (stagesFirst ++ [.reserve true secondReservation]) ∧
      ¬AlwaysFinalizable (fun _ => .zero) [.reserve true wideReservation] := by
  constructor
  · have hreserve : (run (EvidenceStore.step fun _ => .zero) {} stagesFirst).reserve true
        secondReservation =
          .ok ((run (EvidenceStore.step fun _ => .zero) {} stagesFirst).opened
            secondReservation) := by
      decide +kernel
    refine not_alwaysFinalizable (EvidenceStore.opens_of_reserve hreserve (by decide +kernel))
      fun hsafely => ?_
    exact absurd hsafely.unstaged (by decide +kernel)
  · have hreserve : (run (EvidenceStore.step fun _ => .zero) {} []).reserve true wideReservation =
        .ok (({} : EvidenceStore).opened wideReservation) := by
      decide +kernel
    refine not_alwaysFinalizable (EvidenceStore.opens_of_reserve hreserve (by decide +kernel))
      fun hsafely => ?_
    exact absurd hsafely.stored (by decide)

end

end PooFlow
