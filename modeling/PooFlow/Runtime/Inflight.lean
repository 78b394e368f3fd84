import Mathlib.Algebra.BigOperators.Fin
import Mathlib.Algebra.Order.BigOperators.Group.Finset
import PooFlow.Runtime.TableMoves

namespace PooFlow

open Foundation List Function Tracked

variable {σ : Type}

/-- The events of arena `a` that lease `l` has in flight. -/
def Table.held (b : Table) (a l : Fin maxResources) : ℕ :=
  if b.Lives l .lease ∧ (b.entry l).parentId = slotId a then (b.entry l).sequence else 0

variable {b : Table} {l : Fin maxResources}

theorem Table.held_of_lives (hl : b.Lives l .lease) (a : Fin maxResources) :
    b.held a l = if (b.entry l).parentId = slotId a then (b.entry l).sequence else 0 := by
  unfold Table.held
  by_cases hparent : (b.entry l).parentId = slotId a
  · rw [if_pos ⟨hl, hparent⟩, if_pos hparent]
  · rw [if_neg (fun h => hparent h.2), if_neg hparent]

theorem Table.held_of_not (hl : ¬b.Lives l .lease) (a : Fin maxResources) :
    b.held a l = 0 := if_neg fun h => hl h.1

theorem Table.held_congr {b' : Table} (hlives : b'.Lives l .lease ↔ b.Lives l .lease)
    (h : b.Lives l .lease → (b'.entry l).parentId = (b.entry l).parentId ∧
      (b'.entry l).sequence = (b.entry l).sequence) (a : Fin maxResources) :
    b'.held a l = b.held a l := by
  by_cases hl : b.Lives l .lease
  · rw [held_of_lives hl, held_of_lives (hlives.2 hl), (h hl).1, (h hl).2]
  · rw [held_of_not hl, held_of_not (fun h => hl (hlives.1 h))]

/-- **Inflight invariant.** -/
structure Inflight (b : Table) : Prop where
  queues : ∀ i, (b.entry i).kind ≠ .session → (b.entry i).queue.pending = []
  arena : ∀ l, b.Lives l .lease → ∃ a, b.Lives a .arena ∧ (b.entry l).parentId = slotId a
  holding : ∀ l, b.Lives l .lease → 0 < (b.entry l).sequence
  inflight : ∀ a, b.Lives a .arena → (b.entry a).inflightCount = ∑ l, b.held a l

/-- Two sums that differ at one place. -/
theorem sum_add_of_eq_off {f g : Fin maxResources → ℕ} (h : ∀ i, i ≠ l → f i = g i) :
    (∑ i, f i) + g l = (∑ i, g i) + f l := by
  have hrest : ∑ i ∈ Finset.univ.erase l, f i = ∑ i ∈ Finset.univ.erase l, g i :=
    Finset.sum_congr rfl fun i hi => h i (Finset.ne_of_mem_erase hi)
  rw [← Finset.sum_erase_add _ _ (Finset.mem_univ l),
    ← Finset.sum_erase_add _ g (Finset.mem_univ l), hrest]
  omega

section

variable {b b' : Table}

variable {a l i s : Fin maxResources}

section

variable (h : Inflight b)

include h

theorem Inflight.unheld (harena : b.Lives a .arena) (hidle : (b.entry a).inflightCount = 0)
    (hl : b.Lives l .lease) : (b.entry l).parentId ≠ slotId a := by
  intro hparent
  have hsum := (h.inflight a harena).symm.trans hidle
  rw [Finset.sum_eq_zero_iff] at hsum
  have hheld := hsum l (Finset.mem_univ l)
  rw [Table.held, if_pos ⟨hl, hparent⟩] at hheld
  have hpos := h.holding l hl
  omega

theorem Inflight.frame (hentry : ∀ i, (b'.entry i).alive = (b.entry i).alive ∧
      (b'.entry i).kind = (b.entry i).kind ∧
      (b'.entry i).inflightCount = (b.entry i).inflightCount)
    (hlease : ∀ l, (b.entry l).kind = .lease →
      (b'.entry l).parentId = (b.entry l).parentId ∧
      (b'.entry l).sequence = (b.entry l).sequence)
    (hqueues : ∀ i, (b.entry i).kind ≠ .session → (b'.entry i).queue.pending = []) :
    Inflight b' := by
  have hlives : ∀ i kind, b'.Lives i kind ↔ b.Lives i kind := by
    intro i kind
    rw [Table.Lives, Table.Lives, (hentry i).1, (hentry i).2.1]
  refine ⟨fun i hi => hqueues i ((hentry i).2.1 ▸ hi), fun l hl => ?_, fun l hl => ?_,
    fun a ha => ?_⟩
  · rw [hlives] at hl
    obtain ⟨a, ha, hparent⟩ := h.arena l hl
    exact ⟨a, (hlives a _).2 ha, (hlease l hl.2).1.trans hparent⟩
  · rw [hlives] at hl
    rw [(hlease l hl.2).2]
    exact h.holding l hl
  · rw [hlives] at ha
    rw [(hentry a).2.2, h.inflight a ha]
    refine Finset.sum_congr rfl fun l _ => ?_
    exact (Table.held_congr (hlives l _) (fun hl => hlease l hl.2) a).symm

theorem Inflight.replace (hentry : ∀ j, j ≠ i → b'.entry j = b.entry j) (hold : ¬b.Lives i .lease)
    (hnew : ¬b'.Lives i .lease) (hunused : ∀ l, b.Lives l .lease → (b.entry l).parentId ≠ slotId i)
    (hidle : b'.Lives i .arena → (b'.entry i).inflightCount = 0)
    (hqueue : (b'.entry i).queue.pending = []) : Inflight b' := by
  have hlives : ∀ l, b'.Lives l .lease → l ≠ i ∧ b.Lives l .lease := by
    intro l hl
    have hne : l ≠ i := by
      rintro rfl
      exact hnew hl
    refine ⟨hne, ?_⟩
    rwa [Table.Lives, hentry l hne] at hl
  have hheld : ∀ a l, b'.held a l = b.held a l := by
    intro a l
    by_cases hli : l = i
    · subst hli
      rw [Table.held_of_not hnew, Table.held_of_not hold]
    · refine Table.held_congr ?_ (fun _ => ?_) a
      · rw [Table.Lives, Table.Lives, hentry l hli]
      · rw [hentry l hli]
        exact ⟨rfl, rfl⟩
  refine ⟨fun j hj => ?_, fun l hl => ?_, fun l hl => ?_, fun a ha => ?_⟩
  · by_cases hji : j = i
    · rw [hji, hqueue]
    · rw [hentry j hji] at hj ⊢
      exact h.queues j hj
  · obtain ⟨hne, hl⟩ := hlives l hl
    obtain ⟨a, ha, hparent⟩ := h.arena l hl
    have hai : a ≠ i := fun heq => hunused l hl (heq ▸ hparent)
    refine ⟨a, ?_, ?_⟩
    · rwa [Table.Lives, hentry a hai]
    · rwa [hentry l hne]
  · obtain ⟨hne, hl⟩ := hlives l hl
    rw [hentry l hne]
    exact h.holding l hl
  · rw [Finset.sum_congr rfl fun l _ => hheld a l]
    by_cases hai : a = i
    · subst hai
      rw [hidle ha]
      refine (Finset.sum_eq_zero fun l _ => if_neg fun hl => ?_).symm
      exact hunused l hl.1 hl.2
    · rw [Table.Lives, hentry a hai] at ha
      rw [hentry a hai]
      exact h.inflight a ha

theorem Inflight.polled (instanceId : ℕ) (hsession : b.Lives s .session) (harena : b.Lives a .arena)
    (hfree : (b.entry l).alive = false) (hready : b.window s a ≠ []) :
    Inflight (b.poll s a l instanceId) := by
  have hnotlease : ∀ kind, ¬b.Lives l kind := by
    intro kind hl
    rw [hl.1] at hfree
    cases hfree
  have hheld : ∀ a' i, i ≠ l → (b.poll s a l instanceId).held a' i = b.held a' i := by
    intro a' i hil
    refine Table.held_congr (b.poll_lives_of_ne s a instanceId hil) (fun _ => ?_) a'
    rw [b.poll_of_ne s a instanceId hil]
    exact ⟨rfl, rfl⟩
  refine ⟨fun i hi => ?_, fun i hi => ?_, fun i hi => ?_, fun a' ha' => ?_⟩
  · by_cases hil : i = l
    · rw [hil, b.poll_lease]
      rfl
    · rw [b.poll_of_ne s a instanceId hil] at hi ⊢
      have his : i ≠ s := fun heq => hi (heq ▸ hsession.2)
      rw [if_neg his]
      exact h.queues i hi
  · by_cases hil : i = l
    · subst hil
      rw [b.poll_lease]
      exact ⟨a, (b.poll_lives_of_ne s a instanceId (harena.ne_of_dead hfree)).2 harena, rfl⟩
    · obtain ⟨a', ha', hparent⟩ := h.arena i ((b.poll_lives_of_ne s a instanceId hil).1 hi)
      rw [b.poll_of_ne s a instanceId hil]
      exact ⟨a', (b.poll_lives_of_ne s a instanceId (ha'.ne_of_dead hfree)).2 ha', hparent⟩
  · by_cases hil : i = l
    · rw [hil, b.poll_lease]
      exact length_pos_iff.2 hready
    · rw [b.poll_of_ne s a instanceId hil]
      exact h.holding i ((b.poll_lives_of_ne s a instanceId hil).1 hi)
  · have hal : a' ≠ l := by
      rintro rfl
      have hkind := ha'.2
      rw [b.poll_lease] at hkind
      cases hkind
    have hbefore := h.inflight a' ((b.poll_lives_of_ne s a instanceId hal).1 ha')
    have hsum := sum_add_of_eq_off (hheld a')
    have hnone : b.held a' l = 0 := Table.held_of_not (hnotlease _) a'
    have hnew : (b.poll s a l instanceId).held a' l =
        if a = a' then (b.window s a).length else 0 := by
      have hl : (b.poll s a l instanceId).Lives l .lease := by
        rw [Table.Lives, b.poll_lease]
        exact ⟨rfl, rfl⟩
      rw [Table.held_of_lives hl, b.poll_lease]
      simp only [Table.leased, slotId_inj]
    rw [hnone, hnew] at hsum
    rw [b.poll_of_ne s a instanceId hal]
    dsimp only
    split
    · next haa =>
      rw [if_pos haa.symm] at hsum
      omega
    · next haa =>
      rw [if_neg (Ne.symm haa)] at hsum
      omega

theorem Inflight.acknowledged (hsession : b.Lives s .session) (hlease : b.Lives l .lease)
    (hparent : (b.entry l).parentId = slotId a) : Inflight (b.acknowledge s a l) := by
  refine ⟨fun i hi => ?_, fun i hi => ?_, fun i hi => ?_, fun a' ha' => ?_⟩
  · by_cases hil : i = l
    · rw [hil, b.acknowledge_lease]
      rfl
    · rw [b.acknowledge_of_ne s a hil] at hi ⊢
      have his : i ≠ s := fun heq => hi (heq ▸ hsession.2)
      rw [if_neg his]
      exact h.queues i hi
  · obtain ⟨hil, hi⟩ := (b.acknowledge_lives s a).1 hi
    obtain ⟨a', ha', hparent'⟩ := h.arena i hi
    have hal : a' ≠ l := ha'.ne hlease (by decide)
    rw [b.acknowledge_of_ne s a hil]
    exact ⟨a', (b.acknowledge_lives s a).2 ⟨hal, ha'⟩, hparent'⟩
  · obtain ⟨hil, hi⟩ := (b.acknowledge_lives s a).1 hi
    rw [b.acknowledge_of_ne s a hil]
    exact h.holding i hi
  · obtain ⟨hal, ha'⟩ := (b.acknowledge_lives s a).1 ha'
    have hheld : ∀ i, i ≠ l → (b.acknowledge s a l).held a' i = b.held a' i := by
      intro i hil
      refine Table.held_congr ?_ (fun _ => ?_) a'
      · rw [b.acknowledge_lives]
        exact and_iff_right hil
      · rw [b.acknowledge_of_ne s a hil]
        exact ⟨rfl, rfl⟩
    have hbefore := h.inflight a' ha'
    have hsum := sum_add_of_eq_off hheld
    have hgone : (b.acknowledge s a l).held a' l = 0 :=
      Table.held_of_not (fun hl => ((b.acknowledge_lives s a).1 hl).1 rfl) a'
    have hwas : b.held a' l = if a = a' then (b.entry l).sequence else 0 := by
      rw [Table.held_of_lives hlease, hparent]
      simp only [slotId_inj]
    rw [hgone, hwas] at hsum
    rw [b.acknowledge_of_ne s a hal]
    dsimp only
    split
    · next haa =>
      rw [if_pos haa.symm] at hsum
      omega
    · next haa =>
      rw [if_neg (Ne.symm haa)] at hsum
      omega

theorem Inflight.set {r : Resource} (halive : r.alive = (b.entry i).alive)
    (hkind : r.kind = (b.entry i).kind) (hinflight : r.inflightCount = (b.entry i).inflightCount)
    (hlease : (b.entry i).kind ≠ .lease)
    (hqueue : (b.entry i).kind ≠ .session → r.queue.pending = []) : Inflight (b.set i r) := by
  have hentry : ∀ j, j ≠ i → (b.set i r).entry j = b.entry j := fun j hj => b.set_of_ne hj r
  refine h.frame (fun j => ?_) (fun l hl => ?_) (fun j hj => ?_)
  · by_cases hji : j = i
    · subst hji
      rw [b.set_self]
      exact ⟨halive, hkind, hinflight⟩
    · rw [hentry j hji]
      exact ⟨rfl, rfl, rfl⟩
  · have hli : l ≠ i := by
      rintro rfl
      exact hlease hl
    rw [hentry l hli]
    exact ⟨rfl, rfl⟩
  · by_cases hji : j = i
    · subst hji
      rw [b.set_self]
      exact hqueue hj
    · rw [hentry j hji]
      exact h.queues j hj

end

/-- **Every move keeps the invariant.** -/
theorem Inflight.move {frees : Table → Fin maxResources → Prop}
    {presents : Table → Fin maxResources → Fin maxResources → Prop}
    {new : Option Handle} (hmove : TableMove frees presents b b' new) (h : Inflight b) :
    Inflight b' := by
  cases hmove with
  | quiet hquiet =>
    have hqueues : ∀ i, (b.entry i).kind ≠ .session → (b.entry i).queue.pending = [] := h.queues
    refine h.frame (fun i => ?_) (fun l hl => ?_) (fun i hi => ?_)
    · exact ⟨(hquiet i).alive, (hquiet i).kind, (hquiet i).inflightCount⟩
    · obtain ⟨hparent, _, _, _, _, hsequence⟩ := (hquiet l).lease hl
      exact ⟨hparent, hsequence (hqueues l (by rw [hl]; decide))⟩
    · have hlength := (hquiet i).pending.length_eq
      rw [hqueues i hi] at hlength
      exact length_eq_zero_iff.1 hlength.symm
  | @allocated i instanceId kind entry hfree hkind hdresses =>
    refine h.replace (i := i) (fun j hj => ?_) ?_ ?_ (fun l hl => ?_) ?_ ?_
    · exact update_of_ne hj _ _
    · intro hl
      rw [hl.1] at hfree
      cases hfree
    · intro hl
      have hnew := hl.2
      dsimp only at hnew
      rw [update_self, hdresses.kind] at hnew
      exact hkind hnew
    · obtain ⟨a, ha, hparent⟩ := h.arena l hl
      rw [hparent, Ne, slotId_inj]
      exact ha.ne_of_dead hfree
    · intro _
      dsimp only
      rw [update_self]
      exact hdresses.inflightCount
    · dsimp only
      rw [update_self]
      exact hdresses.pending
  | @released i kind r hlives hkind hidle hreleased hfrees =>
    have hdead : r.alive = false ∧ r.queue.pending = [] := by
      rcases hreleased with rfl | rfl <;> exact ⟨rfl, rfl⟩
    have hgone : ∀ kind, ¬(b.set i r).Lives i kind := by
      intro kind hl
      have halive := hl.1
      rw [b.set_self, hdead.1] at halive
      cases halive
    refine h.replace (i := i) (fun j hj => b.set_of_ne hj r)
      (fun hl => hkind (hlives.2.symm.trans hl.2)) (hgone _) (fun l hl => ?_)
      (fun ha => absurd ha (hgone _)) (by rw [b.set_self]; exact hdead.2)
    -- the release of an arena finds it idle, other kinds are no lease's arena
    obtain ⟨a, ha, hparent⟩ := h.arena l hl
    intro hsame
    have hai : a = i := slotId_inj.1 (hparent.symm.trans hsame)
    subst hai
    exact h.unheld ha (hidle (hlives.2.symm.trans ha.2)) hl hsame
  | recycled generation hlives hidle hfrees =>
    refine h.set rfl rfl rfl ?_ fun hi => h.queues _ hi
    rw [hlives.2]
    decide
  | published hsession harena hinstance hcheck =>
    refine h.set rfl rfl rfl ?_ fun hi => absurd hsession.2 hi
    rw [hsession.2]
    decide
  | polled instanceId hsession harena hinstance hfree hready =>
    exact h.polled instanceId hsession harena hfree hready
  | acknowledged hsession harena hlease houtstanding hparent hpresents =>
    exact h.acknowledged hsession hlease hparent

end

theorem inflight_initial (world : σ) : Inflight (initial world).table := by
  have hnone : ∀ l kind, ¬(initial world).table.Lives l kind :=
    fun l kind hl => absurd hl.1 (by simp [initial, table, Runtime.initial])
  refine ⟨fun i _ => rfl, ?_, ?_, ?_⟩
  · exact fun l hl => absurd hl (hnone l _)
  · exact fun l hl => absurd hl (hnone l _)
  · exact fun a ha => absurd ha (hnone a _)

theorem inflight_run (world : σ) (calls : List (Call σ))
    (hruns : Along step (fun t c => c.Proper t) (initial world) calls) :
    (run step (initial world) calls).Identified ∧
      Inflight (run step (initial world) calls).table := by
  refine hruns.invariant (I := fun t : Tracked σ => t.Identified ∧ Inflight t.table) ?_ ?_
  · intro t c ⟨hid, hinflight⟩ hproper
    exact ⟨identity_step hid hproper, hinflight.move (table_proper hid hproper)⟩
  · exact ⟨identity_initial world, inflight_initial world⟩

def Table.Idle (b : Table) (a : Fin maxResources) : Prop :=
  ∀ l, b.Lives l .lease → (b.entry l).parentId ≠ slotId a

/-- **Inflight accounting**: counts are sums over live leases and the arenas of
live leases are alive; so an issued lease presented with its session is
acknowledged, and an arena is released and recycled exactly when it is idle. -/
structure Tracked.Accounted (t : Tracked σ) : Prop where
  inflight : ∀ a, t.table.Lives a .arena →
    (t.table.entry a).inflightCount = ∑ l, t.table.held a l
  arena : ∀ l, t.table.Lives l .lease →
    ∃ a, t.table.Lives a .arena ∧ (t.table.entry l).parentId = slotId a
  acknowledged : ∀ inst session lease s l, lease ∈ t.issued →
    resolve t.runtime inst session .session = .ok s →
    resolve t.runtime inst lease .lease = .ok l →
    (t.runtime.resources l).outstanding = session.resourceId →
      ∃ a, ackAdmission t.runtime inst session lease = .ok { session := s, lease := l, arena := a } ∧
        (t.runtime.resources l).sequence ≤ (t.runtime.resources a).inflightCount
  released : ∀ inst arena a, arena ∈ t.issued → resolve t.runtime inst arena .arena = .ok a →
    ((arenaRelease t.runtime inst arena).status = .ok ↔ t.table.Idle a)
  recycled : ∀ inst arena a expected next, arena ∈ t.issued →
    resolve t.runtime inst arena .arena = .ok a →
    (t.runtime.resources a).arenaGeneration = expected → expected < next →
      ((arenaRecycle t.runtime inst arena expected next).status = .ok ↔ t.table.Idle a)

section

variable {b : Table}

theorem Inflight.held_le (h : Inflight b) {a l : Fin maxResources} (ha : b.Lives a .arena)
    (hl : b.Lives l .lease) (hparent : (b.entry l).parentId = slotId a) :
    (b.entry l).sequence ≤ (b.entry a).inflightCount := by
  have hheld : b.held a l = (b.entry l).sequence := by
    rw [Table.held_of_lives hl, if_pos hparent]
  rw [h.inflight a ha, ← hheld]
  exact Finset.single_le_sum (f := fun l => b.held a l) (fun _ _ => Nat.zero_le _)
    (Finset.mem_univ l)

theorem Inflight.idle_iff (h : Inflight b) {a : Fin maxResources} (ha : b.Lives a .arena) :
    (b.entry a).inflightCount = 0 ↔ b.Idle a := by
  constructor
  · exact fun hzero l hl => h.unheld ha hzero hl
  · intro hidle
    rw [h.inflight a ha]
    exact Finset.sum_eq_zero fun l _ => if_neg fun hl => hidle l hl.1 hl.2

end

/-- **Inflight accounting**, in a run with issued handles that uses up the
generations of no slot. -/
theorem inflight_accounted (world : σ) (calls : List (Call σ))
    (hruns : Along step (fun t c => c.Proper t) (Tracked.initial world) calls) :
    (run step (Tracked.initial world) calls).Accounted := by
  obtain ⟨hid, hinflight⟩ := inflight_run world calls hruns
  generalize run step (Tracked.initial world) calls = t at hid hinflight
  refine ⟨hinflight.inflight, hinflight.arena, ?_, ?_, ?_⟩
  · intro inst session lease s l hissued hsession hlease hout
    have hl := hid.kind_of_resolve hissued hlease
    obtain ⟨a, ha, hparent⟩ := hinflight.arena l hl
    have hle := hinflight.held_le ha hl hparent
    refine ⟨a, ?_, hle⟩
    simp only [ackAdmission, bind_eq_ok, guardElse_eq_ok, presentElse_eq_ok, exists_const,
      pure_eq_ok, slot_eq_some]
    exact ⟨s, hsession, l, hlease, hout, a, hparent, ⟨ha.1, ha.2⟩, hle, rfl⟩
  · intro inst arena a hissued hresolve
    have ha := hid.kind_of_resolve hissued hresolve
    have hne : arenaReleaseAdmission t.runtime inst arena ≠ .error .ok := by
      simp [arenaReleaseAdmission, bind_eq_error, resolve_ne_error_ok]
    rw [← hinflight.idle_iff ha, arenaRelease, Outcome.ofAdmission_ok_iff hne fun _ => rfl]
    simp only [arenaReleaseAdmission, hresolve, bind_eq_ok, guardElse_eq_ok, exists_const,
      pure_eq_ok, Except.ok.injEq, exists_eq_left', exists_and_left, exists_eq', and_true]
    exact Iff.rfl
  · intro inst arena a expected next hissued hresolve hexpected hnext
    have ha := hid.kind_of_resolve hissued hresolve
    have hne : arenaRecycleAdmission t.runtime inst arena expected next ≠ .error .ok := by
      simp [arenaRecycleAdmission, bind_eq_error, resolve_ne_error_ok]
    rw [← hinflight.idle_iff ha, arenaRecycle, Outcome.ofAdmission_ok_iff hne fun _ => rfl]
    simp only [arenaRecycleAdmission, hresolve, hexpected, hnext, bind_eq_ok, guardElse_eq_ok,
      exists_const, pure_eq_ok, Except.ok.injEq, exists_eq_left', exists_and_left, exists_eq',
      and_true, true_and]
    exact Iff.rfl

theorem inflight_accounted_after_poll :
    let it : Installation := {}
    (run step (Tracked.initial ()) (it.setUp ++ [it.publish 5 2, it.poll])).Accounted :=
  inflight_accounted () _ (by decide +kernel)

def Call.Issued (t : Tracked σ) (c : Call σ) : Prop := ∀ h ∈ c.handles, h ∈ t.issued

instance (t : Tracked σ) (c : Call σ) : Decidable (c.Issued t) :=
  inferInstanceAs (Decidable (∀ _ ∈ _, _))

theorem step_issued (t : Tracked σ) (c : Call σ) {h : Handle} (hmem : h ∈ t.issued) :
    h ∈ (step t c).issued :=
  mem_append_left _ hmem

/-- Slot one holds an instance, slot two has been allocated and freed `n` times,
and no other slot has been used. -/
structure Turned (n : ℕ) (rt : Runtime) : Prop where
  instance_ : rt.resources 0 =
    { alive := true, kind := .instance_, generation := 1, instanceId := 1 }
  dead : (rt.resources 1).alive = false
  generation : (rt.resources 1).generation = n
  unused : ∀ j, j ≠ 0 → j ≠ 1 → rt.resources j = {}
  counter : rt.nextInstanceId = 2

def turnRequest : NegotiateRequest :=
  { bundleSchema := some (textBytes bundleSchema), requiredCapabilities := 0x7f }

/-- Negotiate a profile and release it, for the `n`-th time. -/
def turn (n : ℕ) : List (Call Unit) :=
  [.negotiate ⟨1, 1, 1, .instance_⟩ (some turnRequest) (some {}),
    .profileRelease ⟨1, 1, 1, .instance_⟩ ⟨1, 2, n, .profile⟩]

def turns : ℕ → List (Call Unit)
  | 0 => []
  | n + 1 => turns n ++ turn (n + 1)

section

variable {n : ℕ} {rt : Runtime}

theorem Turned.freeSlot (h : Turned n rt) : PooFlow.freeSlot rt = some 1 := by
  have hslots : List.finRange maxResources = 0 :: 1 :: (List.finRange maxResources).drop 2 := by
    decide +kernel
  rw [PooFlow.freeSlot, hslots, List.find?_cons, List.find?_cons, h.instance_, h.dead]
  rfl

theorem Turned.resolveInstance (h : Turned n rt) :
    instanceEntry rt ⟨1, 1, 1, .instance_⟩ = .ok 0 := by
  refine resolve_eq_ok.2 ⟨rfl, rfl, rfl, ?_, ?_, ?_, ?_⟩ <;> rw [h.instance_]

def profiled (rt : Runtime) : Runtime :=
  (rt.allocate 1 1 .profile).modify 1 (fun r =>
    { r with capabilities := supportedCapabilities &&& (0x7f ||| 0) })

section

variable (h : Turned n rt) (hn : n + 1 < 2 ^ 32)

include h hn

theorem Turned.profile : (profiled rt).resources 1 =
      { alive := true, kind := .profile, generation := n + 1, instanceId := 1,
        capabilities := supportedCapabilities &&& (0x7f ||| 0) } := by
  simp [profiled, Runtime.allocate, Resource.fresh, h.generation, nextGeneration_of_lt hn]

theorem Turned.negotiate :
    let o := PooFlow.negotiate rt ⟨1, 1, 1, .instance_⟩ (some turnRequest) (some {})
    o.runtime = profiled rt ∧ (o.written.bind fun r => some r.profile) =
      some ⟨1, 2, n + 1, .profile⟩ := by
  have hadmission : negotiateAdmission rt ⟨1, 1, 1, .instance_⟩ (some turnRequest) (some {}) =
      .ok (turnRequest, {}) := by
    rw [negotiateAdmission, h.resolveInstance]
    rfl
  have halloc := allocateResource_of_freeSlot 1 .profile h.freeSlot
  have hhandle : handleOf (rt.allocate 1 1 .profile) 1 = ⟨1, 2, n + 1, .profile⟩ := by
    simp [handleOf, Runtime.allocate, Resource.fresh, slotId, maxResources, h.generation,
      nextGeneration_of_lt hn]
  dsimp only
  rw [PooFlow.negotiate, hadmission]
  dsimp only [Outcome.ofAdmission]
  rw [halloc]
  exact ⟨rfl, congrArg some hhandle⟩

theorem Turned.release : Turned (n + 1) (profileRelease (profiled rt) ⟨1, 1, 1, .instance_⟩
      ⟨1, 2, n + 1, .profile⟩).runtime := by
  have hresolve : resolve (profiled rt) ⟨1, 1, 1, .instance_⟩ ⟨1, 2, n + 1, .profile⟩ .profile =
      .ok 1 := by
    refine resolve_eq_ok.2 ⟨rfl, rfl, rfl, ?_, ?_, ?_, ?_⟩ <;> rw [h.profile hn]
  have hruntime : (profileRelease (profiled rt) ⟨1, 1, 1, .instance_⟩
      ⟨1, 2, n + 1, .profile⟩).runtime = (profiled rt).modify 1 Resource.release := by
    rw [profileRelease, releaseOfKind, hresolve]
    rfl
  have hother : ∀ j, j ≠ 1 → ((profiled rt).modify 1 Resource.release).resources j =
      rt.resources j := by
    intro j hj
    rw [Runtime.modify_of_ne _ _ hj, profiled, Runtime.modify_of_ne _ _ hj, Runtime.allocate,
      Runtime.modify_of_ne _ _ hj]
  rw [hruntime]
  refine ⟨?_, ?_, ?_, fun j hj hj' => ?_, h.counter⟩
  · rw [hother 0 (by decide)]
    exact h.instance_
  · rw [Runtime.modify_self]
    rfl
  · rw [Runtime.modify_self, h.profile hn]
    rfl
  · rw [hother j hj']
    exact h.unused j hj hj'

end

/-- What a run has to have written out for the next turn. -/
structure Turning (n : ℕ) (t : Tracked Unit) : Prop where
  turned : Turned n t.runtime
  instance_ : ⟨1, 1, 1, .instance_⟩ ∈ t.issued
  first : 0 < n → ⟨1, 2, 1, .profile⟩ ∈ t.issued

variable {t : Tracked Unit}

theorem turn_turning (h : Turning n t) (hn : n + 1 < 2 ^ 32) :
    Along step Call.Issued t (turn (n + 1)) ∧ Turning (n + 1) (run step t (turn (n + 1))) := by
  obtain ⟨hruntime, hwritten⟩ := h.turned.negotiate hn
  let negotiated := step t (.negotiate ⟨1, 1, 1, .instance_⟩ (some turnRequest) (some {}))
  have hinstance : ⟨1, 1, 1, .instance_⟩ ∈ negotiated.issued := step_issued t _ h.instance_
  have hprofile : ⟨1, 2, n + 1, .profile⟩ ∈ negotiated.issued := by
    refine mem_append_right _ ?_
    change _ ∈ ((PooFlow.negotiate t.runtime ⟨1, 1, 1, .instance_⟩ (some turnRequest)
      (some {})).written.bind fun r => some r.profile).toList
    rw [hwritten]
    exact mem_singleton_self _
  have hreleased := h.turned.release hn
  rw [← hruntime] at hreleased
  refine ⟨⟨?_, ?_, trivial⟩, hreleased, step_issued _ _ hinstance, fun _ => ?_⟩
  · intro handle hmem
    obtain rfl := mem_singleton.1 hmem
    exact h.instance_
  · intro handle hmem
    rcases mem_cons.1 hmem with rfl | hmem
    · exact hinstance
    · obtain rfl := mem_singleton.1 hmem
      exact hprofile
  · refine step_issued _ _ ?_
    rcases Nat.eq_zero_or_pos n with rfl | hpos
    · exact hprofile
    · exact step_issued _ _ (h.first hpos)

/-- **Any number of turns** below the number of generations. -/
theorem turns_turning (h : Turning 0 t) (hn : n < 2 ^ 32) :
    Along step Call.Issued t (turns n) ∧ Turning n (run step t (turns n)) := by
  induction n with
  | zero => exact ⟨trivial, h⟩
  | succ n ih =>
    obtain ⟨halong, hturning⟩ := ih (by omega)
    obtain ⟨halong', hturning'⟩ := turn_turning hturning hn
    refine ⟨along_append.2 ⟨halong, halong'⟩, ?_⟩
    rw [turns, run_append]
    exact hturning'

end

theorem run_of_table (calls : List (Call Unit)) {t' : Tracked Unit}
    (hruntime : t.runtime = t'.runtime) (hissued : ∀ h ∈ t'.issued, h ∈ t.issued)
    (halong : Along step Call.Issued t' calls) : Along step Call.Issued t calls ∧
      (run step t calls).runtime = (run step t' calls).runtime := by
  induction calls generalizing t t' with
  | nil => exact ⟨trivial, hruntime⟩
  | cons c rest ih =>
    have hanswer : c.answer t.runtime t.world = c.answer t'.runtime t'.world := by
      rw [hruntime]
    have hstep : (step t c).runtime = (step t' c).runtime := congrArg Answer.runtime hanswer
    have hsubset : ∀ h ∈ (step t' c).issued, h ∈ (step t c).issued := by
      intro h hmem
      rcases mem_append.1 hmem with hold | hnew
      · exact mem_append_left _ (hissued h hold)
      · refine mem_append_right _ ?_
        rw [hanswer]
        exact hnew
    obtain ⟨hrest, heq⟩ := ih hstep hsubset halong.2
    exact ⟨⟨fun h hmem => hissued h (halong.1 h hmem), hrest⟩, heq⟩

def wrapped : Tracked Unit where
  world := ()
  runtime :=
    { resources := fun i =>
        if i = 0 then { alive := true, kind := .instance_, generation := 1, instanceId := 1 }
        else if i = 1 then
          { alive := true, kind := .arena, generation := 1, instanceId := 1, arenaPtr := 64,
            arenaCapacity := 128, arenaGeneration := 1 }
        else {}
      nextInstanceId := 2 }
  issued := [⟨1, 1, 1, .instance_⟩, ⟨1, 2, 1, .profile⟩, ⟨1, 2, 1, .arena⟩]

def wrappedInstallation : Installation where
  profile := ⟨1, 3, 1, .profile⟩
  bundle := ⟨1, 4, 1, .bundle⟩
  session := ⟨1, 5, 1, .session⟩
  arena := ⟨1, 2, 1, .arena⟩

def registers : Call Unit :=
  .arenaRegister ⟨1, 1, 1, .instance_⟩ (some { ptr := 64, capacity := 128, generation := 1 }) true

def losesArena : List (Call Unit) :=
  let it := wrappedInstallation
  (it.setUp.drop 1).take 3 ++
    [it.publish 5 1, it.poll, .profileRelease it.instance_ ⟨1, 2, 1, .profile⟩]

/-- Allocate slot two `n` times, then let an arena have it. -/
def afterTurns (n : ℕ) : List (Call Unit) :=
  .instanceCreate true :: (turns n ++ registers :: losesArena)

theorem Turned.register {n : ℕ} (h : Turned n t.runtime) (hn : n = 2 ^ 32 - 1) :
    (step t registers).runtime = wrapped.runtime ∧
      ⟨1, 2, 1, .arena⟩ ∈ (step t registers).issued := by
  have hadmission : arenaRegisterAdmission t.runtime ⟨1, 1, 1, .instance_⟩
      (some { ptr := 64, capacity := 128, generation := 1 }) true =
        .ok { ptr := 64, capacity := 128, generation := 1 } := by
    rw [arenaRegisterAdmission, h.resolveInstance]
    rfl
  have halloc := allocateResource_of_freeSlot 1 .arena h.freeSlot
  have hfresh : (t.runtime.resources 1).fresh 1 .arena =
      { alive := true, kind := .arena, generation := 1, instanceId := 1 } := by
    rw [Resource.fresh, h.generation, hn]
    rfl
  have hruntime : (step t registers).runtime = (t.runtime.allocate 1 1 .arena).modify 1 (fun r =>
      { r with arenaPtr := 64, arenaCapacity := 128, arenaGeneration := 1 }) := by
    change (arenaRegister t.runtime _ _ _).runtime = _
    rw [arenaRegister, hadmission]
    dsimp only [Outcome.ofAdmission]
    rw [halloc]
    rfl
  have hissued : (step t registers).issued = t.issued ++
      ((arenaRegister t.runtime ⟨1, 1, 1, .instance_⟩
        (some { ptr := 64, capacity := 128, generation := 1 }) true).written.bind some).toList := rfl
  refine ⟨?_, ?_⟩
  · rw [hruntime]
    refine congrArg₂ Runtime.mk (funext fun j => ?_) h.counter
    change ((t.runtime.allocate 1 1 .arena).modify 1 (fun r =>
      { r with arenaPtr := 64, arenaCapacity := 128, arenaGeneration := 1 })).resources j = _
    by_cases hone : j = 1
    · subst hone
      rw [Runtime.modify_self, Runtime.allocate, Runtime.modify_self, hfresh]
      rfl
    · rw [Runtime.modify_of_ne _ _ hone, Runtime.allocate, Runtime.modify_of_ne _ _ hone]
      by_cases hzero : j = 0
      · subst hzero
        exact h.instance_
      · rw [h.unused j hzero hone, if_neg hzero, if_neg hone]
  · rw [hissued, arenaRegister, hadmission]
    dsimp only [Outcome.ofAdmission]
    rw [halloc]
    refine mem_append_right _ (mem_singleton.2 ?_)
    simp [handleOf, Runtime.allocate, hfresh, slotId, maxResources]

theorem instance_turning : Turning 0 (step (initial ()) (.instanceCreate true)) := by
  have hfree : freeSlot { Runtime.initial with
      nextInstanceId := (Runtime.initial.nextInstanceId + 1) % 2 ^ 64 } = some 0 := by
    decide +kernel
  have halloc := allocateResource_of_freeSlot Runtime.initial.nextInstanceId .instance_ hfree
  have hruntime : (step (initial ()) (.instanceCreate true)).runtime =
      Runtime.allocate ⟨Runtime.initial.resources, 2⟩ 0 1 .instance_ := by
    show (instanceCreate Runtime.initial true).runtime = _
    rw [instanceCreate, if_neg (by decide)]
    dsimp only
    rw [halloc]
    rfl
  refine ⟨?_, by decide +kernel, fun hpos => absurd hpos (lt_irrefl 0)⟩
  rw [hruntime]
  refine ⟨rfl, rfl, rfl, fun j hj hj' => ?_, rfl⟩
  rw [Runtime.allocate, Runtime.modify_of_ne _ _ hj]
  rfl

/-- **Used-up generations**: after `2 ^ 32` allocations of one slot, all with
issued handles, the arena of a live lease is gone. -/
theorem arena_lost :
    ¬∀ calls : List (Call Unit), Along step Call.Issued (Tracked.initial ()) calls →
      (run step (Tracked.initial ()) calls).Accounted := by
  intro h
  obtain ⟨n, hn⟩ : ∃ n, n = 2 ^ 32 - 1 := ⟨_, rfl⟩
  obtain ⟨halong, hturning⟩ := turns_turning (n := n) instance_turning (by omega)
  obtain ⟨hruntime, harena⟩ := hturning.turned.register hn
  have hissued : ∀ handle ∈ wrapped.issued, handle ∈ (step (run step (step (Tracked.initial ())
      (.instanceCreate true)) (turns n)) registers).issued := by
    intro handle hmem
    simp only [wrapped, mem_cons, not_mem_nil, or_false] at hmem
    rcases hmem with rfl | rfl | rfl
    · exact step_issued _ _ hturning.instance_
    · exact step_issued _ _ (hturning.first (by omega))
    · exact harena
  obtain ⟨hloses, hfinal⟩ := run_of_table losesArena hruntime hissued
    (by decide +kernel)
  have hregisters : Call.Issued (run step (step (Tracked.initial ()) (.instanceCreate true))
      (turns n)) registers := by
    intro handle hmem
    obtain rfl := mem_singleton.1 hmem
    exact hturning.instance_
  have haccounted := h (afterTurns n)
    ⟨by decide, along_append.2 ⟨halong, hregisters, hloses⟩⟩
  rw [afterTurns, run_cons, run_append, run_cons] at haccounted
  have hlease : (run step wrapped losesArena).table.Lives 5 .lease ∧
      ∀ a, ¬((run step wrapped losesArena).table.Lives a .arena ∧
        ((run step wrapped losesArena).table.entry 5).parentId = slotId a) := by
    decide +kernel
  obtain ⟨a, ha⟩ := haccounted.arena 5 (by
    rw [Table.Lives, Tracked.table, hfinal]
    exact hlease.1)
  rw [Table.Lives, Tracked.table, hfinal] at ha
  exact hlease.2 a ha

end PooFlow
