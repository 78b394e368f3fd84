import Mathlib.Data.Fintype.EquivFin

namespace PooFlow.Foundation

open Function Option

variable {α : Type} {table : ℕ → Option α} {live live' : α → Prop} {a : α} {slot : ℕ}

structure Custody (table : ℕ → Option α) (live : α → Prop) : Prop where
  held : ∀ a, live a → ∃! slot, table slot = some a
  live : ∀ slot a, table slot = some a → live a

namespace Custody

section

variable (h : Custody table live)

include h

theorem once {other : ℕ} (hslot : table slot = some a) (hother : table other = some a) :
    slot = other :=
  (h.held a (h.live slot a hslot)).unique hslot hother

theorem congr (hlive : ∀ a, live' a ↔ live a) : Custody table live' where
  held a ha := h.held a ((hlive a).1 ha)
  live slot a ha := (hlive a).2 (h.live slot a ha)

theorem store (hfree : table slot = none) (hfresh : ¬live a) (hlive : ∀ b, live' b ↔ live b ∨ b = a)
    : Custody (update table slot (some a)) live' := by
  have hother : ∀ {other b}, live b → table other = some b →
      update table slot (some a) other = some b := by
    intro other b _ hb
    rwa [update_of_ne]
    rintro rfl
    rw [hfree] at hb
    cases hb
  constructor
  · intro b hb
    rcases (hlive b).1 hb with hb | rfl
    · obtain ⟨place, hplace, hunique⟩ := h.held b hb
      refine ⟨place, hother hb hplace, fun other heq => ?_⟩
      dsimp only at heq
      by_cases hslot : other = slot
      · subst hslot
        rw [update_self] at heq
        exact absurd (some.inj heq ▸ hb) hfresh
      · rw [update_of_ne hslot] at heq
        exact hunique other heq
    · refine ⟨slot, update_self _ _ _, fun other heq => ?_⟩
      dsimp only at heq
      by_contra hslot
      rw [update_of_ne hslot] at heq
      exact hfresh (h.live other b heq)
  · intro other b heq
    by_cases hslot : other = slot
    · subst hslot
      rw [update_self] at heq
      exact (hlive b).2 (.inr (some.inj heq).symm)
    · rw [update_of_ne hslot] at heq
      exact (hlive b).2 (.inl (h.live other b heq))

theorem clear (hslot : table slot = some a) (hlive : ∀ b, live' b ↔ live b ∧ b ≠ a) :
    Custody (update table slot none) live' := by
  constructor
  · intro b hb
    obtain ⟨hb, hne⟩ := (hlive b).1 hb
    obtain ⟨place, hplace, hunique⟩ := h.held b hb
    have hother : place ≠ slot := by
      rintro rfl
      rw [hslot] at hplace
      exact hne (some.inj hplace).symm
    refine ⟨place, by dsimp only; rwa [update_of_ne hother], fun other heq => ?_⟩
    dsimp only at heq
    have hnone : other ≠ slot := by
      rintro rfl
      rw [update_self] at heq
      cases heq
    rw [update_of_ne hnone] at heq
    exact hunique other heq
  · intro other b heq
    have hnone : other ≠ slot := by
      rintro rfl
      rw [update_self] at heq
      cases heq
    rw [update_of_ne hnone] at heq
    refine (hlive b).2 ⟨h.live other b heq, ?_⟩
    rintro rfl
    exact hnone (h.once heq hslot)

theorem exists_free {ι : Type} [Fintype ι] {name : α → ι → Prop}
    (hnamed : ∀ a, live a → ∃ i, name a i)
    (hname : ∀ {a b i}, live a → live b → name a i → name b i → a = b) {start count : ℕ}
    (hcount : Fintype.card ι < count) :
    ∃ slot, start ≤ slot ∧ slot < start + count ∧ table slot = none := by
  by_contra hfull
  push Not at hfull
  have hsome : ∀ k : Fin count, ∃ a i, table (start + k) = some a ∧ live a ∧ name a i := by
    intro k
    obtain ⟨a, ha⟩ := ne_none_iff_exists'.1 (hfull (start + k) (by omega) (by omega))
    obtain ⟨i, hi⟩ := hnamed a (h.live _ _ ha)
    exact ⟨a, i, ha, h.live _ _ ha, hi⟩
  choose thing index htable hlive hindex using hsome
  have hinjective : Function.Injective index := by
    intro k l heq
    have hthing := hname (hlive k) (hlive l) (hindex k) (heq ▸ hindex l)
    have hslot := h.once (htable k) (hthing ▸ htable l)
    exact Fin.ext (Nat.add_left_cancel hslot)
  have hcard := Fintype.card_le_of_injective index hinjective
  rw [Fintype.card_fin] at hcard
  omega

end

end Custody

end PooFlow.Foundation
