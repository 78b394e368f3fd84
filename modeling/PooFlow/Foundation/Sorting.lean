import Mathlib.Data.List.Sort

namespace PooFlow.Foundation

open List

/-- `sorted` by a key. -/
def sortOn {α β : Type} [LinearOrder β] (key : α → β) (values : List α) : List α :=
  values.insertionSort fun a b => key a ≤ key b

variable {α β : Type} [LinearOrder β] {key : α → β} {values values' : List α}

theorem perm_sortOn (key : α → β) (values : List α) : (sortOn key values).Perm values :=
  perm_insertionSort _ values

@[simp] theorem mem_sortOn {a : α} : a ∈ sortOn key values ↔ a ∈ values :=
  (perm_sortOn key values).mem_iff

theorem pairwise_sortOn (key : α → β) (values : List α) :
    (sortOn key values).Pairwise fun a b => key a ≤ key b := by
  have htotal : Std.Total fun a b : α => key a ≤ key b := ⟨fun a b => le_total _ _⟩
  have htrans : IsTrans α fun a b => key a ≤ key b := ⟨fun a b c hab hbc => le_trans hab hbc⟩
  exact pairwise_insertionSort _ values

@[simp] theorem sortOn_sortOn (key : α → β) (values : List α) :
    sortOn key (sortOn key values) = sortOn key values :=
  (pairwise_sortOn key values).insertionSort_eq

theorem sortOn_congr (hperm : values.Perm values')
    (hkey : ∀ a ∈ values, ∀ b ∈ values, key a = key b → a = b) :
    sortOn key values = sortOn key values' := by
  refine List.Perm.eq_of_pairwise (fun a b ha hb hab hba => ?_) (pairwise_sortOn key values)
    (pairwise_sortOn key values')
    ((perm_sortOn key values).trans (hperm.trans (perm_sortOn key values').symm))
  exact hkey a (mem_sortOn.1 ha) b (hperm.mem_iff.2 (mem_sortOn.1 hb)) (le_antisymm hab hba)

/-- **Which value comes last** in a list that descends: one with the least key. -/
theorem take_sorted_perm_iff {α β : Type*} [LinearOrder β] {key : α → β} {sorted rest : List α}
    {last : α} (hsorted : sorted.Pairwise fun a b => key b ≤ key a)
    (hperm : sorted.Perm (rest ++ [last])) (hdistinct : ∀ a ∈ rest, key a ≠ key last) :
    (sorted.take rest.length).Perm rest ↔ ∀ a ∈ rest, key last < key a := by
  have hlength : sorted.length = rest.length + 1 := by
    rw [hperm.length_eq, length_append, length_singleton]
  obtain ⟨final, hfinal⟩ : ∃ final, sorted.drop rest.length = [final] := by
    rw [← length_eq_one_iff, length_drop, hlength, Nat.add_sub_cancel_left]
  have hsplit : sorted.take rest.length ++ [final] = sorted := by
    rw [← hfinal, take_append_drop]
  have hbelow : ∀ a ∈ sorted.take rest.length, key final ≤ key a := by
    rw [← hsplit] at hsorted
    intro a ha
    exact (pairwise_append.1 hsorted).2.2 a ha final mem_cons_self
  constructor
  · intro htake a ha
    -- what is left out of the list is left out of the permutation
    have hsame : [final].Perm [last] := by
      refine (perm_append_left_iff rest).1 ?_
      refine (htake.symm.append_right [final]).trans ?_
      rw [hsplit]
      exact hperm
    obtain rfl := singleton_inj.1 (perm_singleton.1 hsame)
    exact lt_of_le_of_ne (hbelow a (htake.mem_iff.2 ha)) (hdistinct a ha).symm
  · intro hleast
    have hmem : final ∈ rest ++ [last] := hperm.mem_iff.1 (by rw [← hsplit]; simp)
    have hsame : final = last := by
      rcases mem_append.1 hmem with hrest | hlast
      · have hin : last ∈ sorted.take rest.length ++ [final] := by
          rw [hsplit]
          exact hperm.mem_iff.2 (by simp)
        rcases mem_append.1 hin with htake | hequal
        · exact absurd (hbelow last htake) (not_le.2 (hleast final hrest))
        · exact (mem_singleton.1 hequal).symm
      · exact mem_singleton.1 hlast
    rw [hsame] at hsplit
    refine (perm_append_right_iff [last]).1 ?_
    rw [hsplit]
    exact hperm

end PooFlow.Foundation
