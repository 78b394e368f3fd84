import PooFlow.Journal.Operations

namespace PooFlow

open Foundation Option EvidenceStore

namespace EvidenceStore

variable {sha256 : Bytes → Digest} {store store' : EvidenceStore} {available : Bool} {s : String}
  {sequence : ℤ} {b : EffectBinding String}

def bindingAt (store : EvidenceStore) (s : String) (sequence : ℤ) : Option (EffectBinding String) :=
  (store.reservation s sequence).map (·.toEffectBinding)

/-- Rows that are inserted go behind those that are there. -/
theorem bindingAt_opened [Turso] (r : AuthorizedEffectEvidenceReservation)
    (h : store.bindingAt s sequence = some b) : (store.opened r).bindingAt s sequence = some b := by
  obtain ⟨row, hrow, rfl⟩ := map_eq_some_iff.1 h
  have hfound : (store.opened r).reservation s sequence = some row := by
    rw [reservation] at hrow ⊢
    show (store.reservations ++ [r.spelled.stored.row .reserved]).find? _ = some row
    rw [List.find?_append, hrow]
    rfl
  rw [bindingAt, hfound]
  rfl

theorem bindingAt_of_map {update : ReservationRow → ReservationRow}
    (hkeep : ∀ row, (update row).toEffectBinding = row.toEffectBinding)
    (hmap : store'.reservations = store.reservations.map update) :
    store'.bindingAt s sequence = store.bindingAt s sequence := by
  rw [bindingAt, bindingAt, reservation, reservation, hmap, List.find?_map, map_map]
  have hkey : (fun row : ReservationRow =>
      decide (row.sessionId = s ∧ row.mediationSequence = sequence)) ∘ update =
      fun row => decide (row.sessionId = s ∧ row.mediationSequence = sequence) := by
    funext row
    simp only [Function.comp_apply, hkeep]
  have hbinding : (fun row : ReservationRow => row.toEffectBinding) ∘ update =
      fun row => row.toEffectBinding := by
    funext row
    exact hkeep row
  rw [hkey, hbinding]

variable [Turso]

/-- **A binding is kept** by every call. -/
theorem bindingAt_step (call : StoreCall) (h : store.bindingAt s sequence = some b) :
    (store.step sha256 call).bindingAt s sequence = some b := by
  rw [step]
  rcases hanswer : store.answer sha256 call with raised | store'
  · exact h
  · cases call with
    | reserve available r =>
      rcases reserve_eq_ok.1 hanswer with ⟨_, rfl⟩ | ⟨_, rfl⟩
      · exact h
      · exact bindingAt_opened r h
    | append available e =>
      obtain ⟨_, _, _, rfl⟩ := append_eq_ok.1 hanswer
      refine (bindingAt_of_map (fun row => ?_) rfl).trans h
      split <;> rfl
    | stageBatched available e inputDigest =>
      obtain ⟨⟨_, leafDigest⟩, hstage, rfl⟩ := map_eq_ok.1 hanswer
      obtain ⟨_, _, _, _, _, _, rfl⟩ := stageBatched_eq_ok.1 hstage
      refine (bindingAt_of_map (fun row => ?_) rfl).trans h
      split <;> rfl
    | flushBatched available sessionId leafDigests kernelSignature verificationFlags =>
      obtain ⟨⟨_, batch⟩, hflush, rfl⟩ := map_eq_ok.1 hanswer
      obtain ⟨_, _, _, _, _, rfl⟩ := flushBatched_eq_ok.1 hflush
      refine (bindingAt_of_map (fun row => ?_) rfl).trans h
      split <;> rfl
    | restart =>
      obtain rfl := Except.ok.inj hanswer
      exact h

theorem bindingAt_run (sha256 : Bytes → Digest) (calls : List StoreCall)
    (h : store.bindingAt s sequence = some b) :
    (run (step sha256) store calls).bindingAt s sequence = some b :=
  run_invariant (I := fun t : EvidenceStore => t.bindingAt s sequence = some b)
    (fun _ call ht => bindingAt_step call ht) h calls

section

variable {r r' : AuthorizedEffectEvidenceReservation}

theorem reservation_of_opens (hopens : store.Opens available r) :
    (store.opened r).reservation r.sessionId r.mediationSequence =
      some (r.spelled.stored.row .reserved) := by
  have habsent := hopens.absent
  rw [reservation] at habsent ⊢
  show (store.reservations ++ [r.spelled.stored.row .reserved]).find? _ = _
  rw [List.find?_append, habsent]
  simp

theorem bindingAt_of_opens (hopens : store.Opens available r) :
    (store.opened r).bindingAt r.sessionId r.mediationSequence = some r.stored.spelled := by
  rw [bindingAt, reservation_of_opens hopens]
  rfl

theorem bindingAt_reserve (h : store.reserve available r = .ok store') : ValidReservation r ∧
      ∃ r', (r' = r ∨ r' = r.stored) ∧
        store'.bindingAt r.sessionId r.mediationSequence = some r'.spelled := by
  rcases reserve_eq_ok.1 h with ⟨hconfirms, rfl⟩ | ⟨hopens, rfl⟩
  · obtain ⟨row, hrow, hbinding⟩ := hconfirms.existing
    refine ⟨hconfirms.valid, r, .inl rfl, ?_⟩
    rw [bindingAt, hrow, map_some, hbinding]
  · exact ⟨hopens.valid, r.stored, .inr rfl, bindingAt_of_opens hopens⟩

theorem reserve_of_bindingAt (h : store.bindingAt r.sessionId r.mediationSequence = some b) :
    store.reserve available r = .ok store' ↔
      ValidReservation r ∧ available = true ∧ r.spelled = b ∧ store' = store := by
  obtain ⟨row, hrow, rfl⟩ := map_eq_some_iff.1 h
  rw [reserve_eq_ok]
  constructor
  · rintro (⟨hconfirms, rfl⟩ | ⟨hopens, _⟩)
    · obtain ⟨row', hrow', hbinding⟩ := hconfirms.existing
      obtain rfl := some.inj (hrow.symm.trans hrow')
      exact ⟨hconfirms.valid, hconfirms.available, hbinding.symm, rfl⟩
    · have habsent := hopens.absent
      rw [hrow] at habsent
      cases habsent
  · rintro ⟨hvalid, havailable, hbinding, rfl⟩
    exact Or.inl ⟨⟨hvalid, havailable, row, hrow, hbinding.symm⟩, rfl⟩

end

end EvidenceStore

section

variable [Turso]

/-- **A mediation is reserved once**: after a reserve has succeeded, another of
the same mediation that succeeds, after any calls and restarts, is the same
reservation, or the one that the database gives back for it, and leaves the tables
as they are. -/
theorem reserved_once (sha256 : Bytes → Digest) (front back : List StoreCall)
    {available available' : Bool} {r r' : AuthorizedEffectEvidenceReservation}
    {store store' : EvidenceStore}
    (hfirst : (run (EvidenceStore.step sha256) {} front).reserve available r = .ok store)
    (hsecond : (run (EvidenceStore.step sha256) store back).reserve available' r' = .ok store')
    (hsession : r'.sessionId = r.sessionId)
    (hsequence : r'.mediationSequence = r.mediationSequence) :
    (r' = r ∨ r' = r.stored) ∧ (r.lastSequence < 2 ^ 63 → r' = r) ∧
      store' = run (EvidenceStore.step sha256) store back := by
  obtain ⟨hvalid, kept, hkeptIs, hbinding⟩ := EvidenceStore.bindingAt_reserve hfirst
  have hkept := EvidenceStore.bindingAt_run sha256 back hbinding
  rw [← hsession, ← hsequence] at hkept
  obtain ⟨hvalid', _, hspelled, hstore⟩ := (EvidenceStore.reserve_of_bindingAt hkept).1 hsecond
  have hnonce : kept.nonce = r.nonce := by rcases hkeptIs with rfl | rfl <;> rfl
  obtain rfl : r' = kept :=
    EffectBinding.spelled_inj hvalid'.nonce (hnonce ▸ hvalid.nonce) hspelled
  refine ⟨hkeptIs, fun hlast => ?_, hstore⟩
  rcases hkeptIs with hsame | hstored
  · exact hsame
  · rw [hstored, EffectBinding.stored_of_lt hvalid.inOrder hlast]

/-- **A reservation is confirmed** at any time, in whatever state it is, if its range
is read back as it was written. -/
theorem reserved_again (sha256 : Bytes → Digest) (calls : List StoreCall) {available : Bool}
    {r : AuthorizedEffectEvidenceReservation} {store store' : EvidenceStore} (hstored : r.stored = r)
    (h : store.reserve available r = .ok store') :
    (run (step sha256) store' calls).reserve true r =
      .ok (run (step sha256) store' calls) := by
  obtain ⟨hvalid, kept, hkeptIs, hbinding⟩ := bindingAt_reserve h
  obtain rfl : kept = r := hkeptIs.elim id fun hkept => hkept.trans hstored
  have hkept := bindingAt_run sha256 calls hbinding
  exact (reserve_of_bindingAt hkept).2 ⟨hvalid, rfl, rfl, rfl⟩

end

def firstReservation : AuthorizedEffectEvidenceReservation where
  sessionId := "s"
  mediationSequence := 1
  firstSequence := 1
  lastSequence := 1
  nonce := (0, 1)
  semanticRoot := zeroRoot
  beforeExecutionRoot := zeroRoot

section

open Turso

theorem firstReservation_reserved : ({} : EvidenceStore).reserve true firstReservation =
      .ok (({} : EvidenceStore).opened firstReservation) := by
  decide +kernel

/-- Reserved twice, with a restart in between. -/
theorem reserved_once_after_restart :
    (firstReservation = firstReservation ∨ firstReservation = firstReservation.stored) ∧
      (firstReservation.lastSequence < 2 ^ 63 → firstReservation = firstReservation) ∧
      ({} : EvidenceStore).opened firstReservation =
        run (EvidenceStore.step fun _ => .zero) (({} : EvidenceStore).opened firstReservation)
          [.restart] :=
  reserved_once (fun _ => .zero) [] [.restart] firstReservation_reserved
    (by decide +kernel : (run (EvidenceStore.step fun _ => .zero)
      (({} : EvidenceStore).opened firstReservation) [.restart]).reserve true firstReservation = _)
    rfl rfl

def firstReceipt : AuthorizedEffectEvidenceReceipt :=
  { firstReservation with
    afterExecutionRoot := zeroRoot
    outcome := .committed
    observationDigest := zeroRoot
    createdAtNs := 0 }

/-- **Reserve succeeds twice** for a mediation, with an append and a restart in
between. -/
theorem reserved_twice : ¬∀ (front back : List StoreCall) (available available' : Bool)
      (r r' : AuthorizedEffectEvidenceReservation) (store store' : EvidenceStore),
      (run (EvidenceStore.step fun _ => .zero) {} front).reserve available r = .ok store →
      r'.sessionId = r.sessionId → r'.mediationSequence = r.mediationSequence →
      (run (EvidenceStore.step fun _ => .zero) store back).reserve available' r' ≠ .ok store' := by
  intro h
  exact h [] [.append true firstReceipt, .restart] true true firstReservation firstReservation _ _
    firstReservation_reserved rfl rfl (reserved_again _ _ (by decide) firstReservation_reserved)

end

end PooFlow
