import PooFlow.Runtime.Inflight

namespace PooFlow

open Foundation Function Tracked

variable {σ : Type}

def Unleased (b : Table) (i : Fin maxResources) : Prop :=
  (b.entry i).kind = .session →
    ∀ l, b.Lives l .lease → (b.entry l).outstanding ≠ slotId i

instance (b : Table) (i : Fin maxResources) : Decidable (Unleased b i) :=
  inferInstanceAs (Decidable (_ → ∀ _, _ → _))

/-- The allocations of a lease's poll are alive, and it names their slots. -/
structure BoundTo (b : Table) (l : Fin maxResources) (o : LeaseOrigin) : Prop where
  origin : (b.lineage l).origin = some o
  outstanding : (b.entry l).outstanding = slotId o.session
  parent : (b.entry l).parentId = slotId o.arena
  session : b.Lives o.session .session
  session_serial : (b.lineage o.session).serial = o.sessionSerial
  arena : b.Lives o.arena .arena
  arena_serial : (b.lineage o.arena).serial = o.arenaSerial

/-- **Binding invariant.** -/
structure Binding (b : Table) : Prop where
  queues : ∀ i, (b.entry i).kind ≠ .session → (b.entry i).queue.pending = []
  bound : ∀ l, b.Lives l .lease → ∃ o, BoundTo b l o
  holding : ∀ l, b.Lives l .lease → 0 < (b.entry l).sequence
  inflight : ∀ a, b.Lives a .arena → (b.entry a).inflightCount = ∑ l, b.held a l

section

variable {b b' : Table}

theorem Binding.accounted (h : Binding b) : Inflight b where
  queues := h.queues
  arena := by
    intro l hl
    obtain ⟨o, ho⟩ := h.bound l hl
    exact ⟨o.arena, ho.arena, ho.parent⟩
  holding := h.holding
  inflight := h.inflight

theorem Binding.of_bound (h : Inflight b)
    (hbound : ∀ l, b.Lives l .lease → ∃ o, BoundTo b l o) : Binding b :=
  ⟨h.queues, hbound, h.holding, h.inflight⟩

variable {l i : Fin maxResources}

theorem Binding.refers (h : Binding b) (hl : b.Lives l .lease) :
    ∃ s a, b.Lives s .session ∧ b.Lives a .arena ∧ (b.entry l).outstanding = slotId s ∧
      (b.entry l).parentId = slotId a := by
  obtain ⟨o, ho⟩ := h.bound l hl
  exact ⟨o.session, o.arena, ho.session, ho.arena, ho.outstanding, ho.parent⟩

theorem BoundTo.keep {o : LeaseOrigin} (h : BoundTo b l o)
    (horigin : (b'.lineage l).origin = (b.lineage l).origin)
    (hlease : (b'.entry l).outstanding = (b.entry l).outstanding ∧
      (b'.entry l).parentId = (b.entry l).parentId)
    (hslots : ∀ i, i = o.session ∨ i = o.arena →
      (b'.entry i).alive = (b.entry i).alive ∧ (b'.entry i).kind = (b.entry i).kind ∧
        (b'.lineage i).serial = (b.lineage i).serial) : BoundTo b' l o := by
  obtain ⟨hsalive, hskind, hsserial⟩ := hslots o.session (Or.inl rfl)
  obtain ⟨haalive, hakind, haserial⟩ := hslots o.arena (Or.inr rfl)
  exact ⟨horigin.trans h.origin, hlease.1.trans h.outstanding, hlease.2.trans h.parent,
    ⟨hsalive.trans h.session.1, hskind.trans h.session.2⟩, hsserial.trans h.session_serial,
    ⟨haalive.trans h.arena.1, hakind.trans h.arena.2⟩, haserial.trans h.arena_serial⟩

theorem Binding.bound_frame (h : Binding b) (hl : b'.Lives l .lease)
    (hlineage : b'.lineage = b.lineage) (hentry : ∀ i, (b'.entry i).alive = (b.entry i).alive ∧
      (b'.entry i).kind = (b.entry i).kind)
    (hlease : ∀ l, (b.entry l).kind = .lease →
      (b'.entry l).outstanding = (b.entry l).outstanding ∧
      (b'.entry l).parentId = (b.entry l).parentId) : ∃ o, BoundTo b' l o := by
  rw [Table.Lives, (hentry l).1, (hentry l).2] at hl
  obtain ⟨o, ho⟩ := h.bound l hl
  refine ⟨o, ho.keep ?_ (hlease l hl.2) fun i _ => ?_⟩
  · rw [hlineage]
  · exact ⟨(hentry i).1, (hentry i).2, by rw [hlineage]⟩

theorem Binding.bound_replace (h : Binding b)
    (hentry : ∀ j, j ≠ i → b'.entry j = b.entry j ∧ b'.lineage j = b.lineage j)
    (hnew : ¬b'.Lives i .lease) (hunused : ∀ l, b.Lives l .lease →
      (b.entry l).outstanding ≠ slotId i ∧ (b.entry l).parentId ≠ slotId i) (hl : b'.Lives l .lease)
    : ∃ o, BoundTo b' l o := by
  have hne : l ≠ i := by
    rintro rfl
    exact hnew hl
  rw [Table.Lives, (hentry l hne).1] at hl
  obtain ⟨o, ho⟩ := h.bound l hl
  obtain ⟨hsession, harena⟩ := hunused l hl
  refine ⟨o, ho.keep ?_ ?_ ?_⟩
  · rw [(hentry l hne).2]
  · rw [(hentry l hne).1]
    exact ⟨rfl, rfl⟩
  · rintro j (rfl | rfl)
    · have hj : o.session ≠ i := fun heq => hsession (heq ▸ ho.outstanding)
      rw [(hentry _ hj).1, (hentry _ hj).2]
      exact ⟨rfl, rfl, rfl⟩
    · have hj : o.arena ≠ i := fun heq => harena (heq ▸ ho.parent)
      rw [(hentry _ hj).1, (hentry _ hj).2]
      exact ⟨rfl, rfl, rfl⟩

theorem Binding.bound_polled (h : Binding b) {s a : Fin maxResources} (instanceId : ℕ)
    (hsession : b.Lives s .session) (harena : b.Lives a .arena) (hfree : (b.entry l).alive = false)
    (hi : (b.poll s a l instanceId).Lives i .lease) :
    ∃ o, BoundTo (b.poll s a l instanceId) i o := by
  by_cases hil : i = l
  · subst hil
    have hs := hsession.ne_of_dead hfree
    have ha := harena.ne_of_dead hfree
    refine ⟨_, congrArg Lineage.origin (b.poll_lineage_lease s a i instanceId), ?_, ?_,
      (b.poll_lives_of_ne s a instanceId hs).2 hsession, ?_,
      (b.poll_lives_of_ne s a instanceId ha).2 harena, ?_⟩
    · rw [b.poll_lease]
      rfl
    · rw [b.poll_lease]
      rfl
    · exact congrArg Lineage.serial (b.poll_lineage_of_ne s a instanceId hs)
    · exact congrArg Lineage.serial (b.poll_lineage_of_ne s a instanceId ha)
  · obtain ⟨o, ho⟩ := h.bound i ((b.poll_lives_of_ne s a instanceId hil).1 hi)
    refine ⟨o, ho.keep ?_ ?_ fun j hj => ?_⟩
    · exact congrArg Lineage.origin (b.poll_lineage_of_ne s a instanceId hil)
    · rw [b.poll_of_ne s a instanceId hil]
      exact ⟨rfl, rfl⟩
    · have hjl : j ≠ l := by
        rcases hj with rfl | rfl
        · exact ho.session.ne_of_dead hfree
        · exact ho.arena.ne_of_dead hfree
      rw [b.poll_of_ne s a instanceId hjl]
      exact ⟨rfl, rfl, congrArg Lineage.serial (b.poll_lineage_of_ne s a instanceId hjl)⟩

theorem Binding.bound_acknowledged (h : Binding b) {s a : Fin maxResources}
    (hlease : b.Lives l .lease) (hi : (b.acknowledge s a l).Lives i .lease) :
    ∃ o, BoundTo (b.acknowledge s a l) i o := by
  obtain ⟨hil, hi⟩ := (b.acknowledge_lives s a).1 hi
  obtain ⟨o, ho⟩ := h.bound i hi
  refine ⟨o, ho.keep rfl ?_ fun j hj => ?_⟩
  · rw [b.acknowledge_of_ne s a hil]
    exact ⟨rfl, rfl⟩
  · have hjl : j ≠ l := by
      rcases hj with rfl | rfl
      · exact ho.session.ne hlease (by decide)
      · exact ho.arena.ne hlease (by decide)
    rw [b.acknowledge_of_ne s a hjl]
    exact ⟨rfl, rfl, rfl⟩

theorem Binding.bound_set (h : Binding b) {r : Resource} (hl : (b.set i r).Lives l .lease)
    (halive : r.alive = (b.entry i).alive) (hkind : r.kind = (b.entry i).kind)
    (hlease : (b.entry i).kind ≠ .lease) : ∃ o, BoundTo (b.set i r) l o := by
  refine h.bound_frame hl rfl (fun j => ?_) (fun l hleased => ?_)
  · by_cases hji : j = i
    · subst hji
      rw [b.set_self]
      exact ⟨halive, hkind⟩
    · rw [b.set_of_ne hji]
      exact ⟨rfl, rfl⟩
  · have hli : l ≠ i := by
      rintro rfl
      exact hlease hleased
    rw [b.set_of_ne hli]
    exact ⟨rfl, rfl⟩

/-- **Every move that releases sessions without leases keeps the invariant.** -/
theorem Binding.move {presents : Table → Fin maxResources → Fin maxResources → Prop}
    {new : Option Handle} (hmove : TableMove Unleased presents b b' new) (h : Binding b) :
    Binding b' := by
  refine .of_bound (h.accounted.move hmove) fun l hl => ?_
  cases hmove with
  | quiet hquiet =>
    refine h.bound_frame hl rfl (fun i => ⟨(hquiet i).alive, (hquiet i).kind⟩) fun l hkind => ?_
    obtain ⟨hparent, hout, _⟩ := (hquiet l).lease hkind
    exact ⟨hout, hparent⟩
  | @allocated i instanceId kind entry hfree hkind hdresses =>
    refine h.bound_replace (i := i) (fun j hj => ?_) ?_ (fun l hl => ?_) hl
    · exact ⟨update_of_ne hj _ _, update_of_ne hj _ _⟩
    · intro hl
      have hnew := hl.2
      dsimp only at hnew
      rw [update_self, hdresses.kind] at hnew
      exact hkind hnew
    · obtain ⟨s, a, hs, ha, hout, hparent⟩ := h.refers hl
      rw [hout, hparent, Ne, slotId_inj, Ne, slotId_inj]
      exact ⟨hs.ne_of_dead hfree, ha.ne_of_dead hfree⟩
  | @released i kind r hlives hkind hidle hreleased hfrees =>
    have hgone : ¬(b.set i r).Lives i .lease := by
      intro hl
      have halive := hl.1
      rw [b.set_self] at halive
      rcases hreleased with rfl | rfl <;> cases halive
    refine h.bound_replace (i := i) (fun j hj => ⟨b.set_of_ne hj r, rfl⟩) hgone (fun l hl => ?_) hl
    obtain ⟨s, a, hs, ha, hout, hparent⟩ := h.refers hl
    rcases hfrees with hplain | hunleased
    · rw [hout, hparent, Ne, slotId_inj, Ne, slotId_inj]
      exact ⟨hs.ne hlives (Ne.symm hplain.1), ha.ne hlives (Ne.symm hplain.2.1)⟩
    · constructor
      · -- the release of a session asks for the condition
        intro hsame
        rw [hout, slotId_inj] at hsame
        exact hunleased (hsame ▸ hs.2) l hl (hsame ▸ hout)
      · -- the release of an arena finds it busy
        intro hsame
        have hsame' := hsame
        rw [hparent, slotId_inj] at hsame
        have harena := hsame ▸ ha
        exact h.accounted.unheld harena (hidle (hlives.2.symm.trans harena.2)) hl hsame'
  | recycled generation hlives hidle hfrees =>
    refine h.bound_set hl rfl rfl ?_
    rw [hlives.2]
    decide
  | published hsession harena hinstance hcheck =>
    refine h.bound_set hl rfl rfl ?_
    rw [hsession.2]
    decide
  | polled instanceId hsession harena hinstance hfree hready =>
    exact h.bound_polled instanceId hsession harena hfree hl
  | acknowledged hsession harena hlease houtstanding hparent hpresents =>
    exact h.bound_acknowledged hlease hl

end

def Call.KeepsLeases (t : Tracked σ) (c : Call σ) : Prop :=
  c.Proper t ∧ c.Frees Unleased t

instance (t : Tracked σ) (c : Call σ) : Decidable (c.KeepsLeases t) :=
  inferInstanceAs (Decidable (_ ∧ _))

theorem binding_run (world : σ) (calls : List (Call σ))
    (hruns : Along step (fun t c => c.KeepsLeases t) (initial world) calls) :
    (run step (initial world) calls).Identified ∧
      Binding (run step (initial world) calls).table := by
  refine hruns.invariant (I := fun t : Tracked σ => t.Identified ∧ Binding t.table) ?_ ?_
  · intro t c ⟨hid, hbinding⟩ ⟨hproper, hfrees⟩
    have hmove : TableMove Unleased (fun _ _ _ => True) t.table (step t c).table
        (c.answer t.runtime t.world).issued := by
      refine table_step (hid.names hproper.1) hfrees ?_
      cases c <;> first | exact trivial | exact fun _ _ => trivial
    exact ⟨identity_step hid hproper, hbinding.move hmove⟩
  · have hnone : ∀ l kind, ¬(initial world).table.Lives l kind :=
      fun l kind hl => absurd hl.1 (by simp [initial, table, Runtime.initial])
    refine ⟨identity_initial world, fun i _ => rfl, ?_, ?_, ?_⟩
    · exact fun l hl => absurd hl (hnone l _)
    · exact fun l hl => absurd hl (hnone l _)
    · exact fun a ha => absurd ha (hnone a _)

def Table.originOf (b : Table) (s a : Fin maxResources) : LeaseOrigin where
  session := s
  sessionSerial := (b.lineage s).serial
  arena := a
  arenaSerial := (b.lineage a).serial

theorem BoundTo.of_slots {b : Table} {l s a : Fin maxResources} {o : LeaseOrigin}
    (h : BoundTo b l o) (hsession : (b.entry l).outstanding = slotId s)
    (harena : (b.entry l).parentId = slotId a) : BoundTo b l (b.originOf s a) := by
  have hs : o.session = s := slotId_inj.1 (h.outstanding.symm.trans hsession)
  have ha : o.arena = a := slotId_inj.1 (h.parent.symm.trans harena)
  have ho : o = b.originOf s a := by
    rw [Table.originOf, ← hs, ← ha, h.session_serial, h.arena_serial]
  exact ho ▸ h

/-- Every live lease's session and arena are alive and are the allocations of
its poll, and an acknowledgement or a mediation is admitted with an issued
lease only for these. -/
def Tracked.LeasesBound (t : Tracked σ) : Prop :=
  (∀ l, t.table.Lives l .lease → ∃ o, BoundTo t.table l o) ∧
    (∀ inst session lease plan, lease ∈ t.issued →
      ackAdmission t.runtime inst session lease = .ok plan →
        BoundTo t.table plan.lease (t.table.originOf plan.session plan.arena)) ∧
    ∀ inst session (request : Option (StrictMediationRequest σ)) result plan,
      plan.request.lease ∈ t.issued →
      mediationAdmission t.runtime inst session request result = .ok plan →
        BoundTo t.table plan.lease (t.table.originOf plan.session plan.arena)

/-- **Lease binding**, in a run with issued handles that releases no session
with a live lease. -/
theorem lease_bound (world : σ) (calls : List (Call σ))
    (hruns : Along step (fun t c => c.KeepsLeases t) (Tracked.initial world) calls) :
    (run step (Tracked.initial world) calls).LeasesBound := by
  obtain ⟨hid, hbinding⟩ := binding_run world calls hruns
  refine ⟨hbinding.bound, ?_, ?_⟩
  · intro inst session lease plan hissued hadmission
    obtain ⟨_, hlease, hout, hparent, _⟩ := ackAdmission_ok hadmission
    obtain ⟨o, ho⟩ := hbinding.bound plan.lease (hid.kind_of_resolve hissued hlease)
    exact ho.of_slots hout hparent
  · intro inst session request result plan hissued hadmission
    obtain ⟨hsession, _, harena, hlease, hbind, _⟩ := mediationAdmission_ok hadmission
    obtain ⟨o, ho⟩ := hbinding.bound plan.lease (hid.kind_of_resolve hissued hlease)
    exact ho.of_slots (hbind.2.2.1.trans (resolve_eq_ok.1 hsession).2.2.1)
      (hbind.2.1.trans (resolve_eq_ok.1 harena).2.2.1)

def replacedSession (acknowledged : Bool) : List (Call Unit) :=
  let it : Installation := {}
  it.setUp ++ [it.publish 1 1, it.poll] ++
    (if acknowledged then [it.submit 1 1, it.ack (Installation.lease 1)] else []) ++
    [.sessionClose it.instance_ it.session 0, .sessionRelease it.instance_ it.session,
      .sessionOpen it.instance_ it.bundle (some {}) true true]

def reopened : Installation := { session := ⟨1, 4, 2, .session⟩ }

theorem lease_bound_after_acknowledgement : (run step (Tracked.initial ())
      (replacedSession true ++ [reopened.publish 1 1, reopened.poll])).LeasesBound :=
  lease_bound () _ (by decide +kernel)

/-- **The condition is needed**: a session with a live lease is released, and
the lease is accepted with the session that takes its slot. -/
theorem lease_rebound : ¬∀ calls : List (Call Unit),
      Along step (fun t c => c.Proper t) (Tracked.initial ()) calls →
        (run step (Tracked.initial ()) calls).LeasesBound := by
  intro h
  obtain ⟨_, hack, _⟩ := h (replacedSession false) (by decide +kernel)
  have hbound := hack reopened.instance_ reopened.session (Installation.lease 1)
    { session := 3, lease := 5, arena := 4 } (by decide +kernel) (by decide +kernel)
  have horigin : ((run step (Tracked.initial ()) (replacedSession false)).table.lineage 5).origin =
      some ⟨3, 1, 4, 1⟩ := by decide +kernel
  have hserial : ((run step (Tracked.initial ()) (replacedSession false)).table.lineage 3).serial =
      2 := by decide +kernel
  have hsame := hbound.origin
  dsimp only at hsame
  rw [horigin, Table.originOf, hserial] at hsame
  have hserials := congrArg LeaseOrigin.sessionSerial (Option.some.inj hsame)
  exact absurd hserials (by decide)

end PooFlow
