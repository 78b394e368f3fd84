import PooFlow.Runtime.Ranges
import PooFlow.Runtime.TableMoves

namespace PooFlow

open Foundation List Function Tracked

variable {σ : Type}

def ArenaUnused (b : Table) (i : Fin maxResources) : Prop :=
  (b.entry i).kind = .arena →
    ∀ s, ∀ e ∈ (b.entry s).queue.pending, e.arenaId ≠ slotId i

instance (b : Table) (i : Fin maxResources) : Decidable (ArenaUnused b i) :=
  inferInstanceAs (Decidable (_ → ∀ _, ∀ e ∈ _, _))

/-- The lease comes from a poll of the session that now lives in the slot. -/
def OwnLease (b : Table) (s l : Fin maxResources) : Prop :=
  (b.lineage l).origin.map (fun o => (o.session, o.sessionSerial)) =
    some (s, (b.lineage s).serial)

instance (b : Table) (s l : Fin maxResources) : Decidable (OwnLease b s l) :=
  inferInstanceAs (Decidable (_ = _))

theorem ownLease_iff {b : Table} {s l : Fin maxResources} :
    OwnLease b s l ↔ ∃ o, (b.lineage l).origin = some o ∧ o.session = s ∧
      o.sessionSerial = (b.lineage s).serial := by
  simp [OwnLease, Option.map_eq_some_iff]

/-- The arena in slot `a` backs the event of a session of `instanceId`. -/
structure Backs (b : Table) (e : PendingEvent) (a : Fin maxResources) (instanceId : ℕ) :
    Prop where
  slot : e.arenaId = slotId a
  arena : b.Lives a .arena
  sameInstance : (b.entry a).instanceId = instanceId
  generation : (b.entry a).arenaGeneration = e.arenaGeneration
  inside : sliceInBounds e.header.payloadOffset e.header.payloadLength (b.entry a).arenaCapacity

/-- **Backing invariant.** -/
def Backing (b : Table) : Prop :=
  ∀ s, ∀ e ∈ (b.entry s).queue.pending, ∃ a, Backs b e a (b.entry s).instanceId

section

variable {b b' : Table}

variable {e' : PendingEvent} {q : EventQueue} {i : Fin maxResources}

variable {a : Fin maxResources} {instanceId arenaId : ℕ} {s : Fin maxResources} {kind : Kind}
  {l : Fin maxResources}

theorem Backs.keep {e : PendingEvent} (h : Backs b e a instanceId) (hsame : SameEvent e e')
    (hentry : (b'.entry a).alive = (b.entry a).alive ∧ (b'.entry a).kind = (b.entry a).kind ∧
      (b'.entry a).instanceId = (b.entry a).instanceId ∧
      (b'.entry a).arenaGeneration = (b.entry a).arenaGeneration ∧
      (b'.entry a).arenaCapacity = (b.entry a).arenaCapacity) : Backs b' e' a instanceId := by
  obtain ⟨halive, hkind, hinstance, hgeneration, hcapacity⟩ := hentry
  refine ⟨hsame.arenaId.trans h.slot, ⟨halive.trans h.arena.1, hkind.trans h.arena.2⟩,
    hinstance.trans h.sameInstance, ?_, ?_⟩
  · rw [hgeneration, hsame.arenaGeneration]
    exact h.generation
  · rw [hcapacity, hsame.header]
    exact h.inside

theorem Backing.frame (h : Backing b)
    (hevents : ∀ s, ∀ e' ∈ (b'.entry s).queue.pending, ∃ e ∈ (b.entry s).queue.pending,
      SameEvent e e' ∧ (b'.entry s).instanceId = (b.entry s).instanceId)
    (harenas : ∀ a, b.Lives a .arena →
      (∃ s, ∃ e ∈ (b.entry s).queue.pending, e.arenaId = slotId a) →
      (b'.entry a).alive = (b.entry a).alive ∧ (b'.entry a).kind = (b.entry a).kind ∧
        (b'.entry a).instanceId = (b.entry a).instanceId ∧
        (b'.entry a).arenaGeneration = (b.entry a).arenaGeneration ∧
        (b'.entry a).arenaCapacity = (b.entry a).arenaCapacity) : Backing b' := by
  intro s e' he'
  obtain ⟨e, he, hsame, hinstance⟩ := hevents s e' he'
  obtain ⟨a, hbacks⟩ := h s e he
  rw [hinstance]
  exact ⟨a, hbacks.keep hsame (harenas a hbacks.arena ⟨s, e, he, hbacks.slot⟩)⟩

theorem SameEvent.refl (e : PendingEvent) : SameEvent e e := ⟨rfl, rfl, rfl⟩

theorem mem_acknowledge {first last : ℕ} (h : e' ∈ (q.acknowledge arenaId first last).pending) :
    ∃ e ∈ q.pending, SameEvent e e' := by
  obtain ⟨consumed, hpending, _⟩ := acknowledge_events q arenaId first last
  rw [hpending] at h
  obtain ⟨e, he, rfl⟩ := mem_map.1 h
  exact ⟨e, mem_of_mem_drop he, (acknowledge_same arenaId first last e).1⟩

theorem mem_poll {arenaGeneration : ℕ} (h : e' ∈ (q.poll arenaId arenaGeneration).pending) :
    ∃ e ∈ q.pending, SameEvent e e' := by
  obtain ⟨e, he, hsame⟩ := forall₂_mem_right (q.poll_events arenaId arenaGeneration) h
  exact ⟨e, he, hsame.polls_same.1⟩

section

variable (h : Backing b)

include h

theorem Backing.requeue
    (hevents : ∀ e' ∈ q.pending, (∃ e ∈ (b.entry s).queue.pending, SameEvent e e') ∨
      ∃ a, Backs b e' a (b.entry s).instanceId) :
    Backing (b.set s { b.entry s with queue := q }) := by
  have harena : ∀ a, ((b.set s { b.entry s with queue := q }).entry a).alive =
        (b.entry a).alive ∧
      ((b.set s { b.entry s with queue := q }).entry a).kind = (b.entry a).kind ∧
      ((b.set s { b.entry s with queue := q }).entry a).instanceId = (b.entry a).instanceId ∧
      ((b.set s { b.entry s with queue := q }).entry a).arenaGeneration =
        (b.entry a).arenaGeneration ∧
      ((b.set s { b.entry s with queue := q }).entry a).arenaCapacity =
        (b.entry a).arenaCapacity := by
    intro a
    by_cases has : a = s
    · subst has
      rw [b.set_self]
      exact ⟨rfl, rfl, rfl, rfl, rfl⟩
    · rw [b.set_of_ne has]
      exact ⟨rfl, rfl, rfl, rfl, rfl⟩
  intro i e' he'
  rw [(harena i).2.2.1]
  by_cases his : i = s
  · subst his
    rw [b.set_self] at he'
    rcases hevents e' he' with ⟨e, he, hsame⟩ | ⟨a, hbacks⟩
    · obtain ⟨a, hbacks⟩ := h i e he
      exact ⟨a, hbacks.keep hsame (harena a)⟩
    · exact ⟨a, hbacks.keep (.refl e') (harena a)⟩
  · rw [b.set_of_ne his] at he'
    obtain ⟨a, hbacks⟩ := h i e' he'
    exact ⟨a, hbacks.keep (.refl e') (harena a)⟩

variable {entry : Fin maxResources → Resource}

theorem Backing.quiet
    (hquiet : ∀ i, Quiet (b.entry i) (entry i)) : Backing { b with entry := entry } := by
  refine h.frame (fun s e' he' => ?_) (fun a _ _ => ?_)
  · obtain ⟨e, he, hsame⟩ := forall₂_mem_right (hquiet s).pending he'
    exact ⟨e, he, hsame.accepts_same.1, (hquiet s).instanceId⟩
  · exact ⟨(hquiet a).alive, (hquiet a).kind, (hquiet a).instanceId,
      (hquiet a).arenaGeneration, (hquiet a).arenaCapacity⟩

theorem Backing.allocated {serial : ℕ} {entry : Resource} (hfree : (b.entry i).alive = false)
    (hdresses : Dresses ((b.entry i).fresh instanceId kind) entry) :
    Backing ⟨update b.entry i entry, update b.lineage i ⟨serial, none⟩⟩ := by
  refine h.frame (fun s e' he' => ?_) (fun a ha _ => ?_)
  · by_cases hsi : s = i
    · subst hsi
      dsimp only at he'
      rw [update_self, hdresses.pending] at he'
      cases he'
    · dsimp only at he' ⊢
      rw [update_of_ne hsi] at he' ⊢
      exact ⟨e', he', .refl e', rfl⟩
  · dsimp only
    rw [update_of_ne (ha.ne_of_dead hfree)]
    exact ⟨rfl, rfl, rfl, rfl, rfl⟩

theorem Backing.released {r : Resource} (hlives : b.Lives i kind)
    (hreleased : r = (b.entry i).release ∨ r = (b.entry i).releaseArena)
    (hfrees : kind.Plain ∨ ArenaUnused b i) : Backing (b.set i r) := by
  have hnone : r.queue.pending = [] := by
    rcases hreleased with rfl | rfl <;> rfl
  refine h.frame (fun s e' he' => ?_) (fun a ha hused => ?_)
  · by_cases hsi : s = i
    · subst hsi
      rw [b.set_self, hnone] at he'
      cases he'
    · rw [b.set_of_ne hsi] at he' ⊢
      exact ⟨e', he', .refl e', rfl⟩
  · have hai : a ≠ i := by
      rintro rfl
      rcases hfrees with hplain | hunused
      · exact hplain.2.1 (hlives.2.symm.trans ha.2)
      · obtain ⟨s, e, he, hslot⟩ := hused
        exact hunused ha.2 s e he hslot
    rw [b.set_of_ne hai]
    exact ⟨rfl, rfl, rfl, rfl, rfl⟩

theorem Backing.recycled (generation : ℕ) (hfrees : ArenaUnused b i) :
    Backing (b.set i ((b.entry i).recycle generation)) := by
  refine h.frame (fun s e' he' => ?_) (fun a ha hused => ?_)
  · by_cases hsi : s = i
    · subst hsi
      rw [b.set_self] at he' ⊢
      exact ⟨e', he', .refl e', rfl⟩
    · rw [b.set_of_ne hsi] at he' ⊢
      exact ⟨e', he', .refl e', rfl⟩
  · have hai : a ≠ i := by
      rintro rfl
      obtain ⟨s, e, he, hslot⟩ := hused
      exact hfrees ha.2 s e he hslot
    rw [b.set_of_ne hai]
    exact ⟨rfl, rfl, rfl, rfl, rfl⟩

theorem Backing.published {headers : List EventHeader} (harena : b.Lives a .arena)
    (hinstance : (b.entry a).instanceId = (b.entry s).instanceId)
    (hcheck : checkPublish (b.entry a).arenaCapacity (b.entry s).queue.lastSequence? headers =
      .ok ()) :
    Backing (b.set s { b.entry s with
      queue := (b.entry s).queue.publish (slotId a) (b.entry a).arenaGeneration headers }) := by
  refine h.requeue fun e' he' => ?_
  rcases mem_append.1 he' with hold | hnew
  · exact Or.inl ⟨e', hold, .refl e'⟩
  · obtain ⟨header, hheader, rfl⟩ := mem_map.1 hnew
    exact Or.inr ⟨a, rfl, harena, hinstance, rfl, (checkPublish_ok hcheck).1 header hheader⟩

theorem Backing.polled (s a : Fin maxResources) (instanceId : ℕ) (hfree : (b.entry l).alive = false)
    : Backing (b.poll s a l instanceId) := by
  refine h.frame (fun i e' he' => ?_) (fun a' ha' _ => ?_)
  · by_cases hil : i = l
    · subst hil
      rw [b.poll_lease] at he'
      cases he'
    · rw [b.poll_of_ne s a instanceId hil] at he' ⊢
      dsimp only at he' ⊢
      split at he'
      · obtain ⟨e, he, hsame⟩ := mem_poll he'
        exact ⟨e, he, hsame, rfl⟩
      · exact ⟨e', he', .refl e', rfl⟩
  · rw [b.poll_of_ne s a instanceId (ha'.ne_of_dead hfree)]
    exact ⟨rfl, rfl, rfl, rfl, rfl⟩

theorem Backing.acknowledged (s a : Fin maxResources) (hlease : b.Lives l .lease) :
    Backing (b.acknowledge s a l) := by
  refine h.frame (fun i e' he' => ?_) (fun a' ha' _ => ?_)
  · by_cases hil : i = l
    · subst hil
      rw [b.acknowledge_lease] at he'
      cases he'
    · rw [b.acknowledge_of_ne s a hil] at he' ⊢
      dsimp only at he' ⊢
      split at he'
      · obtain ⟨e, he, hsame⟩ := mem_acknowledge he'
        exact ⟨e, he, hsame, rfl⟩
      · exact ⟨e', he', .refl e', rfl⟩
  · rw [b.acknowledge_of_ne s a (ha'.ne hlease (by decide))]
    exact ⟨rfl, rfl, rfl, rfl, rfl⟩

end

/-- **Every move that frees unused arenas only keeps the invariant.** -/
theorem Backing.move {presents : Table → Fin maxResources → Fin maxResources → Prop}
    {new : Option Handle} (hmove : TableMove ArenaUnused presents b b' new) (h : Backing b) :
    Backing b' := by
  cases hmove with
  | quiet hquiet => exact h.quiet hquiet
  | allocated hfree hkind hdresses => exact h.allocated hfree hdresses
  | released r hlives hkind hidle hreleased hfrees => exact h.released hlives hreleased hfrees
  | recycled generation hlives hidle hfrees => exact h.recycled generation hfrees
  | published hsession harena hinstance hcheck => exact h.published harena hinstance hcheck
  | polled instanceId hsession harena hinstance hfree hready =>
    exact h.polled _ _ instanceId hfree
  | acknowledged hsession harena hlease houtstanding hparent hpresents =>
    exact h.acknowledged _ _ hlease

end

/-- **Range invariant of the table**: the leases of a live session cover
disjoint ranges of its queue. -/
structure Ranged (b : Table) : Prop where
  tidy : ∀ s, Tidy (b.entry s).queue
  past : ∀ l, b.Lives l .lease → ∀ o, (b.lineage l).origin = some o →
    o.sessionSerial ≤ (b.lineage o.session).serial
  covers : ∀ s l, (b.entry s).alive = true → b.Lives l .lease → OwnLease b s l →
    Covers (b.entry s).queue (b.entry l).range
  disjoint : ∀ s l l', l ≠ l' → (b.entry s).alive = true → b.Lives l .lease →
    b.Lives l' .lease → OwnLease b s l → OwnLease b s l' →
      (b.entry l).range.last < (b.entry l').range.first ∨
        (b.entry l').range.last < (b.entry l).range.first

section

variable {b b' : Table}

/-- What an old lease keeps through a move. -/
structure Carries (b b' : Table) (l : Fin maxResources) : Prop where
  lives : b.Lives l .lease
  range : (b'.entry l).range = (b.entry l).range
  origin : (b'.lineage l).origin = (b.lineage l).origin

/-- Allocations only grow older, and a session that is still there was there. -/
structure Ages (b b' : Table) : Prop where
  serial : ∀ s, (b.lineage s).serial ≤ (b'.lineage s).serial
  alive : ∀ s, (b'.entry s).alive = true →
    (b'.lineage s).serial = (b.lineage s).serial → (b.entry s).alive = true

variable {s l a i : Fin maxResources} {instanceId : ℕ}

theorem Ranged.own (h : Ranged b) (hages : Ages b b') (hcarries : Carries b b' l)
    (halive : (b'.entry s).alive = true) (hown : OwnLease b' s l) :
    (b.entry s).alive = true ∧ OwnLease b s l := by
  obtain ⟨o, horigin, rfl, hserial⟩ := ownLease_iff.1 hown
  rw [hcarries.origin] at horigin
  have hpast := h.past l hcarries.lives o horigin
  have hle := hages.serial o.session
  have hsame : (b'.lineage o.session).serial = (b.lineage o.session).serial := by omega
  exact ⟨hages.alive _ halive hsame, ownLease_iff.2 ⟨o, horigin, rfl, hserial.trans hsame⟩⟩

theorem Ranged.frame (h : Ranged b) (hages : Ages b b')
    (hleases : ∀ l, b'.Lives l .lease → Carries b b' l) (htidy : ∀ s, Tidy (b'.entry s).queue)
    (hcovers : ∀ s l, (b.entry s).alive = true → b'.Lives l .lease → OwnLease b s l →
      Covers (b.entry s).queue (b.entry l).range →
      (b'.entry s).alive = true → Covers (b'.entry s).queue (b.entry l).range) :
    Ranged b' where
  tidy := htidy
  past := by
    intro l hl o horigin
    obtain ⟨hlives, _, hsame⟩ := hleases l hl
    exact (h.past l hlives o (hsame.symm.trans horigin)).trans (hages.serial _)
  covers := by
    intro s l halive hl hown
    have hcarries := hleases l hl
    obtain ⟨halive', hown'⟩ := h.own hages hcarries halive hown
    rw [hcarries.range]
    exact hcovers s l halive' hl hown' (h.covers s l halive' hcarries.lives hown') halive
  disjoint := by
    intro s l l' hne halive hl hl' hown hown'
    have hcarries := hleases l hl
    have hcarries' := hleases l' hl'
    obtain ⟨halive₀, hown₀⟩ := h.own hages hcarries halive hown
    obtain ⟨_, hown₀'⟩ := h.own hages hcarries' halive hown'
    rw [hcarries.range, hcarries'.range]
    exact h.disjoint s l l' hne halive₀ hcarries.lives hcarries'.lives hown₀ hown₀'

theorem Ranged.requeue (h : Ranged b) {q : EventQueue} (htidy : Tidy q)
    (hcovers : ∀ range, Covers (b.entry s).queue range → Covers q range) :
    Ranged (b.set s { b.entry s with queue := q }) := by
  have hentry : ∀ i, (b.set s { b.entry s with queue := q }).entry i =
      { b.entry i with queue := if i = s then q else (b.entry i).queue } := by
    intro i
    by_cases his : i = s
    · subst his
      rw [b.set_self, if_pos rfl]
    · rw [b.set_of_ne his, if_neg his]
  refine h.frame ⟨fun _ => le_refl _, fun i halive _ => ?_⟩ (fun l hl => ⟨?_, ?_, rfl⟩)
    (fun i => ?_) (fun i l _ _ _ hc _ => ?_)
  · rwa [hentry] at halive
  · rwa [Table.Lives, hentry] at hl
  · rw [hentry]
    rfl
  · rw [hentry]
    dsimp only
    split
    · exact htidy
    · exact h.tidy i
  · rw [hentry]
    dsimp only
    split
    · next his =>
      subst his
      exact hcovers _ hc
    · exact hc

theorem Ages.polled (b : Table) (s a l : Fin maxResources) (instanceId : ℕ) :
    Ages b (b.poll s a l instanceId) := by
  refine ⟨fun i => ?_, fun i halive hserial => ?_⟩
  · by_cases hil : i = l
    · subst hil
      rw [b.poll_lineage_lease]
      exact Nat.le_succ _
    · rw [b.poll_lineage_of_ne s a instanceId hil]
  · by_cases hil : i = l
    · subst hil
      rw [b.poll_lineage_lease] at hserial
      exact absurd hserial (Nat.succ_ne_self _)
    · rwa [b.poll_of_ne s a instanceId hil] at halive

theorem Carries.polled (hil : i ≠ l) (hi : (b.poll s a l instanceId).Lives i .lease) :
    Carries b (b.poll s a l instanceId) i := by
  refine ⟨(b.poll_lives_of_ne s a instanceId hil).1 hi, ?_, ?_⟩
  · rw [b.poll_of_ne s a instanceId hil]
    rfl
  · rw [b.poll_lineage_of_ne s a instanceId hil]

theorem OwnLease.of_polled (h : OwnLease (b.poll s a l instanceId) i l) : i = s := by
  obtain ⟨o, horigin, rfl, _⟩ := ownLease_iff.1 h
  rw [b.poll_lineage_lease] at horigin
  exact congrArg LeaseOrigin.session (Option.some.inj horigin).symm

theorem polled_range (s a l : Fin maxResources) (instanceId : ℕ) :
    ((b.poll s a l instanceId).entry l).range =
      (b.entry s).queue.windowRange (slotId a) (b.entry a).arenaGeneration := by
  rw [b.poll_lease]
  rfl

section

variable (h : Ranged b)

include h

theorem Ranged.before_polled (hready : b.window s a ≠ []) (hil : i ≠ l)
    (hi : (b.poll s a l instanceId).Lives i .lease)
    (halive : ((b.poll s a l instanceId).entry s).alive = true)
    (hown : OwnLease (b.poll s a l instanceId) s i) :
    ((b.poll s a l instanceId).entry i).range.last <
      ((b.poll s a l instanceId).entry l).range.first := by
  have hcarries := Carries.polled hil hi
  obtain ⟨halive', hown'⟩ := h.own (.polled b s a l instanceId) hcarries halive hown
  rw [hcarries.range, polled_range]
  exact (h.covers s i halive' hcarries.lives hown').before_window _ _ hready

theorem Ranged.polled (instanceId : ℕ) (hsession : b.Lives s .session)
    (hfree : (b.entry l).alive = false) (hready : b.window s a ≠ []) :
    Ranged (b.poll s a l instanceId) := by
  have hages := Ages.polled b s a l instanceId
  have hs := hsession.ne_of_dead hfree
  refine ⟨fun i => ?_, fun i hi o horigin => ?_, fun i j halive hj hown => ?_,
    fun i j k hne halive hj hk hown hown' => ?_⟩
  · by_cases hil : i = l
    · subst hil
      rw [b.poll_lease]
      exact .empty rfl
    · rw [b.poll_of_ne s a instanceId hil]
      dsimp only
      split
      · exact (h.tidy i).poll _ _
      · exact h.tidy i
  · by_cases hil : i = l
    · subst hil
      rw [b.poll_lineage_lease] at horigin
      obtain rfl := Option.some.inj horigin
      rw [b.poll_lineage_of_ne s a instanceId hs]
    · have hcarries := Carries.polled hil hi
      have hold := h.past i hcarries.lives o (hcarries.origin.symm.trans horigin)
      exact hold.trans (hages.serial _)
  · by_cases hjl : j = l
    · subst hjl
      obtain rfl := hown.of_polled
      rw [polled_range, b.poll_of_ne i a instanceId hs]
      dsimp only
      rw [if_pos rfl]
      exact covers_window _ _ (h.tidy i) hready
    · have hcarries := Carries.polled hjl hj
      obtain ⟨halive', hown'⟩ := h.own hages hcarries halive hown
      have hil : i ≠ l := by
        rintro rfl
        rw [halive'] at hfree
        cases hfree
      have hold := h.covers i j halive' hcarries.lives hown'
      rw [hcarries.range, b.poll_of_ne s a instanceId hil]
      dsimp only
      split
      · exact hold.poll _ _
      · exact hold
  · by_cases hjl : j = l
    · subst hjl
      obtain rfl := hown.of_polled
      exact Or.inr (h.before_polled hready (Ne.symm hne) hk halive hown')
    by_cases hkl : k = l
    · subst hkl
      obtain rfl := hown'.of_polled
      exact Or.inl (h.before_polled hready hjl hj halive hown)
    have hcarries := Carries.polled hjl hj
    have hcarries' := Carries.polled hkl hk
    obtain ⟨halive₀, hown₀⟩ := h.own hages hcarries halive hown
    obtain ⟨_, hown₀'⟩ := h.own hages hcarries' halive hown'
    rw [hcarries.range, hcarries'.range]
    exact h.disjoint i j k hne halive₀ hcarries.lives hcarries'.lives hown₀ hown₀'

theorem Ranged.acknowledged (hsession : b.Lives s .session) (hlease : b.Lives l .lease)
    (hown : OwnLease b s l) : Ranged (b.acknowledge s a l) := by
  have hgone : ∀ i, ((b.acknowledge s a l).entry i).alive = true → i ≠ l ∧
      (b.entry i).alive = true := fun i halive =>
    have hlives := (b.acknowledge_lives s a).1 ⟨halive, rfl⟩
    ⟨hlives.1, hlives.2.1⟩
  refine h.frame ⟨fun _ => le_refl _, fun i halive _ => (hgone i halive).2⟩ (fun i hi => ?_)
    (fun i => ?_) (fun i j halive hj hown' hc halive' => ?_)
  · obtain ⟨hil, hi⟩ := (b.acknowledge_lives s a).1 hi
    refine ⟨hi, ?_, rfl⟩
    rw [b.acknowledge_of_ne s a hil]
    rfl
  · by_cases hil : i = l
    · subst hil
      rw [b.acknowledge_lease]
      exact .empty rfl
    · rw [b.acknowledge_of_ne s a hil]
      dsimp only
      split
      · exact (h.tidy i).acknowledge _ _ _
      · exact h.tidy i
  · rw [b.acknowledge_of_ne s a (hgone i halive').1]
    obtain ⟨hjl, hlives⟩ := (b.acknowledge_lives s a).1 hj
    dsimp only
    split
    · next his =>
      subst his
      exact hc.acknowledge _ (h.disjoint i l j (Ne.symm hjl) halive hlease hlives hown hown')
    · exact hc

theorem Ranged.quiet
    (hquiet : ∀ i, Quiet (b.entry i) (entry i)) : Ranged { b with entry := entry } := by
  refine h.frame ⟨fun _ => le_refl _, fun i halive _ => (hquiet i).alive.symm.trans halive⟩
    (fun l hl => ?_) (fun i => (h.tidy i).accepts (hquiet i).pending) (fun i l _ _ _ hc _ => ?_)
  · have hlives : b.Lives l .lease :=
      ⟨(hquiet l).alive.symm.trans hl.1, (hquiet l).kind.symm.trans hl.2⟩
    obtain ⟨hparent, _, hepoch, hfirst, hlast, _⟩ := (hquiet l).lease hlives.2
    refine ⟨hlives, ?_, rfl⟩
    simp only [Resource.range, hparent, hepoch, hfirst, hlast]
  · exact hc.accepts (hquiet i).pending (hquiet i).pollCursor

theorem Ranged.allocated {kind : Kind} {entry : Resource} (hfree : (b.entry i).alive = false)
    (hkind : kind ≠ .lease) (hdresses : Dresses ((b.entry i).fresh instanceId kind) entry) :
    Ranged ⟨update b.entry i entry,
      update b.lineage i ⟨(b.lineage i).serial + 1, none⟩⟩ := by
  refine h.frame ⟨fun s => ?_, fun s halive hserial => ?_⟩ (fun l hl => ?_) (fun s => ?_)
    (fun s l halive _ _ hc _ => ?_)
  · dsimp only
    by_cases hsi : s = i
    · subst hsi
      rw [update_self]
      exact Nat.le_succ _
    · rw [update_of_ne hsi]
  · dsimp only at halive hserial
    by_cases hsi : s = i
    · subst hsi
      rw [update_self] at hserial
      exact absurd hserial (Nat.succ_ne_self _)
    · rwa [update_of_ne hsi] at halive
  · obtain ⟨halive, hlease⟩ := hl
    dsimp only at halive hlease
    by_cases hli : l = i
    · subst hli
      rw [update_self, hdresses.kind] at hlease
      exact absurd hlease hkind
    · rw [update_of_ne hli] at halive hlease
      refine ⟨⟨halive, hlease⟩, ?_, ?_⟩
      · dsimp only
        rw [update_of_ne hli]
      · dsimp only
        rw [update_of_ne hli]
  · dsimp only
    by_cases hsi : s = i
    · subst hsi
      rw [update_self]
      exact .empty hdresses.pending
    · rw [update_of_ne hsi]
      exact h.tidy s
  · have hsi : s ≠ i := by
      rintro rfl
      rw [halive] at hfree
      cases hfree
    dsimp only
    rw [update_of_ne hsi]
    exact hc

theorem Ranged.released {r : Resource}
    (hreleased : r = (b.entry i).release ∨ r = (b.entry i).releaseArena) : Ranged (b.set i r) := by
  have hdead : r.alive = false ∧ r.queue.pending = [] := by
    rcases hreleased with rfl | rfl <;> exact ⟨rfl, rfl⟩
  have hgone : ∀ s, ((b.set i r).entry s).alive = true → s ≠ i := by
    rintro s halive rfl
    rw [b.set_self, hdead.1] at halive
    cases halive
  refine h.frame ⟨fun _ => le_refl _, fun s halive _ => ?_⟩ (fun l hl => ?_) (fun s => ?_)
    (fun s l _ _ _ hc halive => ?_)
  · rwa [b.set_of_ne (hgone s halive)] at halive
  · have hli := hgone l hl.1
    rw [Table.Lives, b.set_of_ne hli] at hl
    refine ⟨hl, ?_, rfl⟩
    rw [b.set_of_ne hli]
  · by_cases hsi : s = i
    · subst hsi
      rw [b.set_self]
      exact .empty hdead.2
    · rw [b.set_of_ne hsi]
      exact h.tidy s
  · rw [b.set_of_ne (hgone s halive)]
    exact hc

theorem Ranged.recycled (i : Fin maxResources) (generation : ℕ) :
    Ranged (b.set i ((b.entry i).recycle generation)) := by
  have hentry : ∀ j, ((b.set i ((b.entry i).recycle generation)).entry j) =
      if j = i then (b.entry j).recycle generation else b.entry j := by
    intro j
    by_cases hji : j = i
    · subst hji
      rw [b.set_self, if_pos rfl]
    · rw [b.set_of_ne hji, if_neg hji]
  refine h.frame ⟨fun _ => le_refl _, fun s halive _ => ?_⟩ (fun l hl => ⟨?_, ?_, rfl⟩)
    (fun s => ?_) (fun s l _ _ _ hc _ => ?_)
  · rw [hentry] at halive
    split at halive <;> exact halive
  · rw [Table.Lives, hentry] at hl
    split at hl <;> exact hl
  · rw [hentry]
    split <;> rfl
  · rw [hentry]
    split <;> exact h.tidy s
  · rw [hentry]
    split <;> exact hc

end

/-- **Every move with own leases only keeps the invariant.** -/
theorem Ranged.move {frees : Table → Fin maxResources → Prop} {new : Option Handle}
    (hmove : TableMove frees OwnLease b b' new) (h : Ranged b) : Ranged b' := by
  cases hmove with
  | quiet hquiet => exact h.quiet hquiet
  | allocated hfree hkind hdresses => exact h.allocated hfree hkind hdresses
  | released r hlives hkind hidle hreleased hfrees => exact h.released hreleased
  | recycled generation hlives hidle hfrees => exact h.recycled _ generation
  | @published s a headers hsession harena hinstance hcheck =>
    exact h.requeue ((h.tidy s).publish hcheck) fun range hc => hc.publish (h.tidy s) hcheck
  | polled instanceId hsession harena hinstance hfree hready =>
    exact h.polled instanceId hsession hfree hready
  | acknowledged hsession harena hlease houtstanding hparent hpresents =>
    exact h.acknowledged hsession hlease hpresents

end

def Call.KeepsArenas (t : Tracked σ) (c : Call σ) : Prop :=
  c.Proper t ∧ c.Frees ArenaUnused t ∧ c.Presents OwnLease t

instance (t : Tracked σ) (c : Call σ) : Decidable (c.KeepsArenas t) :=
  inferInstanceAs (Decidable (_ ∧ _))

structure ArenasKept (t : Tracked σ) : Prop where
  identified : t.Identified
  backing : Backing t.table
  ranged : Ranged t.table

theorem arenasKept_run (world : σ) (calls : List (Call σ))
    (hruns : Along step (fun t c => c.KeepsArenas t) (initial world) calls) :
    ArenasKept (run step (initial world) calls) := by
  refine hruns.invariant (I := ArenasKept) ?_ ?_
  · intro t c h ⟨hproper, hfrees, hpresents⟩
    have hmove := table_step (h.identified.names hproper.1) hfrees hpresents
    exact ⟨identity_step h.identified hproper, h.backing.move hmove, h.ranged.move hmove⟩
  · have hnone : ∀ l kind, ¬(initial world).table.Lives l kind :=
      fun l kind hl => absurd hl.1 (by simp [initial, table, Runtime.initial])
    refine ⟨identity_initial world, fun s e he => ?_, fun s => .empty rfl, ?_, ?_, ?_⟩
    · cases he
    · exact fun l hl => absurd hl (hnone l _)
    · exact fun s l _ hl => absurd hl (hnone l _)
    · exact fun s l l' _ _ hl => absurd hl (hnone l _)

section

variable {t : Tracked σ}

theorem Backing.inside (h : Backing t.table) {s a : Fin maxResources} {e : PendingEvent}
    (he : e ∈ (t.runtime.resources s).queue.pending) (hslot : e.arenaId = slotId a) :
    sliceInBounds e.header.payloadOffset e.header.payloadLength
      (t.runtime.resources a).arenaCapacity := by
  obtain ⟨a', hbacks⟩ := h s e he
  obtain rfl : a' = a := slotId_inj.1 (hbacks.slot.symm.trans hslot)
  exact hbacks.inside

theorem ArenasKept.window_inside (h : ArenasKept t) {inst session : Handle}
    {request : Option PollRequest} {result : Option PollResult}
    {plan : BatchPlan PollRequest PollResult}
    (hadmission : pollAdmission t.runtime inst session request result = .ok plan) :
    ∀ e ∈ plan.window t.runtime, sliceInBounds e.header.payloadOffset e.header.payloadLength
      (t.runtime.resources plan.arena).arenaCapacity := by
  intro e he
  obtain ⟨_, _, harena⟩ := pollAdmission_ok hadmission
  have hslot := (resolve_eq_ok.1 (resolveArena_eq_ok.1 harena).1).2.2.1
  have hmem : e ∈ (t.runtime.resources plan.session).queue.pending :=
    mem_of_mem_drop ((takeWhile_sublist _).subset he)
  apply h.backing.inside hmem
  rw [← hslot]
  exact (EventQueue.mem_window _ _ _ he).2.1

theorem ArenasKept.invocation_inside (h : ArenasKept t) {inst session : Handle}
    {request : Option (StrictMediationRequest σ)} {result : Option StrictMediationResult}
    (hkeeps : (Call.strictMediate inst session request result).KeepsArenas t)
    {plan : MediationPlan σ}
    (hadmission : mediationAdmission t.runtime inst session request result = .ok plan) :
    ∀ header ∈ (plan.invocation t.runtime).headers,
      sliceInBounds header.payloadOffset header.payloadLength
        (plan.invocation t.runtime).payloadCapacity := by
  obtain ⟨⟨hissued, _⟩, _, hown⟩ := hkeeps
  obtain ⟨hsession, hrequest, harena, hlease, hbinding, hrange, _, _, hfirst, _⟩ :=
    mediationAdmission_ok hadmission
  have hlives := h.identified.kind_of_resolve
    (hissued plan.request.lease (by simp [Call.handles, hrequest])) hlease
  have halive := (resolve_eq_ok.1 hsession).2.2.2.2.2.1
  have hcovers := h.ranged.covers plan.session plan.lease halive hlives (hown plan hadmission)
  obtain ⟨_, hparent, _, hepoch, _, hordered, hleaseFirst, hleaseLast⟩ := hbinding
  intro header hheader
  obtain ⟨e, he, rfl⟩ := mem_map.1 hheader
  rw [hfirst] at he
  obtain ⟨hmem, hge, hle⟩ := (h.ranged.tidy plan.session).handed_out hordered hrange he
  -- every event in the range is of the lease's arena, which is the one presented
  have hevent := (hcovers.events e hmem (hleaseFirst.trans_le hge) (hle.trans_eq hleaseLast.symm)).1
  have hslot : e.arenaId = slotId plan.arena :=
    hevent.trans (hparent.trans (resolve_eq_ok.1 harena).2.2.1)
  exact h.backing.inside hmem hslot

end

/-- Every pending event is backed by an arena of its session's instance, and
polls and mediations hand out payloads inside the presented arena. -/
def Tracked.EventsBacked (t : Tracked σ) : Prop :=
  Backing t.table ∧
    (∀ inst session request result plan,
      pollAdmission t.runtime inst session request result = .ok plan →
        ∀ e ∈ plan.window t.runtime, sliceInBounds e.header.payloadOffset e.header.payloadLength
            (t.runtime.resources plan.arena).arenaCapacity) ∧
    ∀ inst session request result plan,
      (Call.strictMediate inst session request result).KeepsArenas t →
      mediationAdmission t.runtime inst session request result = .ok plan →
        ∀ header ∈ (plan.invocation t.runtime).headers,
          sliceInBounds header.payloadOffset header.payloadLength
            (plan.invocation t.runtime).payloadCapacity

/-- **Pending events stay backed**, in a run with issued handles that frees
unused arenas only and presents leases only with the sessions that polled
them. -/
theorem events_backed (world : σ) (calls : List (Call σ))
    (hruns : Along step (fun t c => c.KeepsArenas t) (Tracked.initial world) calls) :
    (run step (Tracked.initial world) calls).EventsBacked := by
  have h := arenasKept_run world calls hruns
  exact ⟨h.backing, fun _ _ _ _ _ hadmission => h.window_inside hadmission,
    fun _ _ _ _ _ hkeeps hadmission => h.invocation_inside hkeeps hadmission⟩

def recycledArena : List (Call Unit) :=
  let it : Installation := {}
  let recycled : Installation := { arenaGeneration := 2 }
  it.setUp ++ [it.publish 1 1, it.poll, it.submit 1 1, it.ack (Installation.lease 1),
    .arenaRecycle it.instance_ it.arena 1 2, recycled.publish 2 2, recycled.poll]

theorem events_backed_after_recycling :
    (run step (Tracked.initial ()) recycledArena).EventsBacked :=
  events_backed () recycledArena (by decide +kernel)

/-- An arena is released under an event that has not been polled, and a smaller
one takes its slot at the same generation. -/
def releasedArena : List (Call Unit) :=
  let it : Installation := {}
  it.setUp ++ [it.publish 1 1, .arenaRelease it.instance_ it.arena,
    .arenaRegister it.instance_ (some { ptr := 128, capacity := 4, generation := 1 }) true]

/-- **The conditions are needed**: the event of a released arena stays pending,
with a payload outside the arena that replaces it. -/
theorem event_unbacked : ¬∀ calls : List (Call Unit),
      Along step (fun t c => c.Proper t) (Tracked.initial ()) calls →
        (run step (Tracked.initial ()) calls).EventsBacked := by
  intro h
  obtain ⟨hbacking, _, _⟩ := h releasedArena (by decide +kernel)
  have hpending : ((run step (Tracked.initial ()) releasedArena).table.entry 3).queue.pending =
      [.published 5 1 (Installation.header 1)] := by decide +kernel
  have hcapacity : ((run step (Tracked.initial ()) releasedArena).table.entry 4).arenaCapacity =
      4 := by decide +kernel
  obtain ⟨a, hbacks⟩ := hbacking 3 (.published 5 1 (Installation.header 1))
    (by rw [hpending]; exact mem_singleton_self _)
  obtain rfl : a = 4 := slotId_inj.1 hbacks.slot.symm
  have hinside := hbacks.inside
  rw [hcapacity] at hinside
  exact absurd hinside (by decide)

end PooFlow
