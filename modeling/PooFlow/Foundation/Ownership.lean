import Mathlib.Order.WellFoundedSet

namespace PooFlow.Foundation

open List

variable {τ κ : Type}

/-- Every marked key is held, once and by one party, and no other key is. -/
structure Owned (marked : κ → Prop) (held : τ → List κ) : Prop where
  nodup : ∀ t, (held t).Nodup
  owner : ∀ t u k, k ∈ held t → k ∈ held u → t = u
  marked : ∀ k, marked k ↔ ∃ t, k ∈ held t

namespace Owned

variable {marked marked' : κ → Prop} {held held' : τ → List κ} {t : τ} {k : κ}

theorem congr (h : Owned marked held) (hmarked : ∀ j, marked' j ↔ marked j)
    (hheld : ∀ u, held' u = held u) : Owned marked' held' where
  nodup u := hheld u ▸ h.nodup u
  owner u v j hu hv := h.owner u v j (hheld u ▸ hu) (hheld v ▸ hv)
  marked j := by
    rw [hmarked, h.marked]
    exact exists_congr fun u => by rw [hheld]

theorem take (h : Owned marked held) (hfree : ¬marked k) (hself : held' t = k :: held t)
    (hothers : ∀ u, u ≠ t → held' u = held u) (hmarked : ∀ j, marked' j ↔ marked j ∨ j = k) :
    Owned marked' held' := by
  have hnone : ∀ u, k ∉ held u := fun u hu => hfree ((h.marked k).2 ⟨u, hu⟩)
  have hmem : ∀ u j, j ∈ held' u ↔ j ∈ held u ∨ (u = t ∧ j = k) := by
    intro u j
    by_cases hu : u = t
    · subst hu
      rw [hself, mem_cons, or_comm]
      simp
    · rw [hothers u hu]
      simp [hu]
  constructor
  · intro u
    by_cases hu : u = t
    · subst hu
      rw [hself]
      exact nodup_cons.2 ⟨hnone u, h.nodup u⟩
    · rw [hothers u hu]
      exact h.nodup u
  · intro u v j hu hv
    rcases (hmem u j).1 hu with hu | ⟨rfl, rfl⟩ <;> rcases (hmem v j).1 hv with hv | ⟨rfl, hj⟩
    · exact h.owner u v j hu hv
    · exact absurd (hj ▸ hu) (hnone u)
    · exact absurd hv (hnone v)
    · rfl
  · intro j
    rw [hmarked, h.marked]
    constructor
    · rintro (⟨u, hu⟩ | rfl)
      · exact ⟨u, (hmem u j).2 (.inl hu)⟩
      · exact ⟨t, (hmem t j).2 (.inr ⟨rfl, rfl⟩)⟩
    · rintro ⟨u, hu⟩
      rcases (hmem u j).1 hu with hu | ⟨_, rfl⟩
      · exact .inl ⟨u, hu⟩
      · exact .inr rfl

/-- A party lets go of the key it took last. -/
theorem drop (h : Owned marked held) (hself : held t = k :: held' t)
    (hothers : ∀ u, u ≠ t → held' u = held u) (hmarked : ∀ j, marked' j ↔ marked j ∧ j ≠ k) :
    Owned marked' held' := by
  have hnodup := h.nodup t
  rw [hself, nodup_cons] at hnodup
  have hmem : ∀ u j, j ∈ held' u ↔ j ∈ held u ∧ j ≠ k := by
    intro u j
    by_cases hu : u = t
    · subst hu
      rw [hself, mem_cons]
      constructor
      · intro hj
        refine ⟨.inr hj, ?_⟩
        rintro rfl
        exact hnodup.1 hj
      · rintro ⟨rfl | hj, hne⟩
        · exact absurd rfl hne
        · exact hj
    · rw [hothers u hu]
      refine ⟨fun hj => ⟨hj, ?_⟩, And.left⟩
      rintro rfl
      exact hu (h.owner u t j hj (by rw [hself]; exact mem_cons_self))
  constructor
  · intro u
    by_cases hu : u = t
    · subst hu
      exact hnodup.2
    · rw [hothers u hu]
      exact h.nodup u
  · exact fun u v j hu hv => h.owner u v j ((hmem u j).1 hu).1 ((hmem v j).1 hv).1
  · intro j
    rw [hmarked, h.marked]
    constructor
    · rintro ⟨⟨u, hu⟩, hne⟩
      exact ⟨u, (hmem u j).2 ⟨hu, hne⟩⟩
    · rintro ⟨u, hu⟩
      exact ⟨⟨u, ((hmem u j).1 hu).1⟩, ((hmem u j).1 hu).2⟩

end Owned

theorem exists_running {holds waits : τ → κ → Prop} {before : κ → κ → Prop} {keys : Set κ}
    (hfinite : keys.Finite) (hirrefl : ∀ k, ¬before k k)
    (htrans : ∀ i j k, before i j → before j k → before i k)
    (hkeys : ∀ t k, waits t k → k ∈ keys) (hheld : ∀ t k, waits t k → ∃ u, holds u k)
    (hbefore : ∀ t j k, holds t j → waits t k → before j k) {t : τ} {k : κ} (hwaits : waits t k) :
    ∃ u j, holds u j ∧ ∀ l, ¬waits u l := by
  have hstrict : IsStrictOrder κ (Function.swap before) :=
    { irrefl := hirrefl, trans := fun i j k hij hjk => htrans k j i hjk hij }
  have hfounded := @Set.Finite.wellFoundedOn κ (Function.swap before) hstrict keys hfinite
  by_contra hall
  push Not at hall
  -- the holder of the key that is waited for waits in turn, for a key that comes later
  have hnever : ∀ j, j ∈ keys → ¬∃ u, waits u j := by
    intro j hj
    refine hfounded.induction (P := fun j => ¬∃ u, waits u j) hj ?_
    rintro i _ ih ⟨u, hu⟩
    obtain ⟨v, hv⟩ := hheld u i hu
    obtain ⟨l, hl⟩ := hall v i hv
    exact ih l (hkeys v l hl) (hbefore v i l hv hl) ⟨v, hl⟩
  exact hnever k (hkeys t k hwaits) ⟨t, hwaits⟩

end PooFlow.Foundation
