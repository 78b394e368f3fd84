import Mathlib.Data.List.Sort
import Mathlib.Data.Prod.Lex

namespace PooFlow.Foundation

open List

structure Keyed (κ β : Type*) where
  rows : List (κ × β)
  nodup : (rows.map Prod.fst).Nodup

namespace Keyed

variable {κ β ι : Type*}

def empty : Keyed κ β := ⟨[], nodup_nil⟩

section

variable (table : Keyed κ β)

/-- The value under `key`. -/
def find? [DecidableEq κ] (key : κ) : Option β := (table.rows.find? (·.1 = key)).map Prod.snd

/-- Delete the rows whose key meets `p`. -/
def delete (p : κ → Prop) [DecidablePred p] : Keyed κ β where
  rows := table.rows.filter fun row => ¬p row.1
  nodup := (filter_sublist.map Prod.fst).nodup table.nodup

/-- Insert or replace the row of `key`. -/
def put [DecidableEq κ] (key : κ) (value : β) : Keyed κ β where
  rows := (table.delete (· = key)).rows ++ [(key, value)]
  nodup := by
    rw [map_append, nodup_append]
    -- the rows that are kept have other keys
    refine ⟨(table.delete _).nodup, nodup_singleton key, ?_⟩
    intro other hother same hsame
    obtain ⟨row, hrow, rfl⟩ := mem_map.1 hother
    obtain rfl := mem_singleton.1 hsame
    simpa using (mem_filter.1 hrow).2

/-- The rows whose key meets `p`, by the rank of their keys. -/
def select [LinearOrder ι] (p : κ → Prop) [DecidablePred p] (rank : κ → ι) : List (κ × β) :=
  (table.rows.filter fun row => p row.1).insertionSort fun row row' => rank row.1 ≤ rank row'.1

end

variable {table : Keyed κ β} {row : κ × β}

theorem eq_of_key {row' : κ × β} (hrow : row ∈ table.rows) (hrow' : row' ∈ table.rows)
    (hkey : row.1 = row'.1) : row = row' :=
  inj_on_of_nodup_map table.nodup hrow hrow' hkey

theorem mem_delete {p : κ → Prop} [DecidablePred p] :
    row ∈ (table.delete p).rows ↔ row ∈ table.rows ∧ ¬p row.1 := by
  simp [delete]

section

variable [DecidableEq κ]

theorem find?_eq_some {key : κ} {value : β} :
    table.find? key = some value ↔ (key, value) ∈ table.rows := by
  rw [find?, Option.map_eq_some_iff]
  constructor
  · rintro ⟨row, hrow, rfl⟩
    have hkey : row.1 = key := by simpa using List.find?_some hrow
    rw [← hkey]
    exact mem_of_find?_eq_some hrow
  · intro hmem
    obtain ⟨row, hrow⟩ : ∃ row, table.rows.find? (·.1 = key) = some row :=
      Option.isSome_iff_exists.1 (List.find?_isSome.2 ⟨_, hmem, by simp⟩)
    refine ⟨row, hrow, ?_⟩
    have hkey : row.1 = key := by simpa using List.find?_some hrow
    rw [eq_of_key (mem_of_find?_eq_some hrow) hmem hkey]

@[simp] theorem find?_empty (key : κ) : (empty : Keyed κ β).find? key = none := rfl

theorem mem_put {key : κ} {value : β} : row ∈ (table.put key value).rows ↔
      row ∈ table.rows ∧ row.1 ≠ key ∨ row = (key, value) := by
  simp [put, mem_delete]

@[simp] theorem find?_delete (p : κ → Prop) [DecidablePred p] (key : κ) :
    (table.delete p).find? key = if p key then none else table.find? key := by
  ext value
  rw [find?_eq_some, mem_delete]
  split
  · next hkey => simp [hkey]
  · next hkey => simp [hkey, find?_eq_some]

@[simp] theorem find?_put (key : κ) (value : β) (other : κ) :
    (table.put key value).find? other = if other = key then some value else table.find? other := by
  ext found
  rw [find?_eq_some, mem_put]
  split
  · next hsame => simp [hsame, eq_comm]
  · next hother => simp [hother, find?_eq_some]

end

section

variable [LinearOrder ι] {p : κ → Prop} [DecidablePred p] {rank : κ → ι}

@[simp] theorem mem_select : row ∈ table.select p rank ↔ row ∈ table.rows ∧ p row.1 := by
  simp [select]

theorem nodup_select : ((table.select p rank).map Prod.fst).Nodup :=
  ((perm_insertionSort _ _).map Prod.fst).nodup_iff.2
    ((filter_sublist.map Prod.fst).nodup table.nodup)

theorem pairwise_select (hrank : ∀ key key', p key → p key' → rank key = rank key' → key = key') :
    (table.select p rank).Pairwise fun row row' => rank row.1 < rank row'.1 := by
  have hsorted : (table.select p rank).Pairwise fun row row' => rank row.1 ≤ rank row'.1 :=
    pairwise_insertionSort _ _
  have hdistinct : (table.select p rank).Pairwise fun row row' => row.1 ≠ row'.1 :=
    pairwise_map.1 nodup_select
  refine (hsorted.and hdistinct).imp_of_mem ?_
  intro row row' hrow hrow' hboth
  refine lt_of_le_of_ne hboth.1 fun heq => hboth.2 ?_
  exact hrank _ _ (mem_select.1 hrow).2 (mem_select.1 hrow').2 heq

end

/-- **Sorted lists are determined by their members.** -/
theorem eq_of_sorted {α : Type*} [LinearOrder ι] (rank : α → ι) {l l' : List α}
    (hl : l.Pairwise fun a b => rank a < rank b) (hl' : l'.Pairwise fun a b => rank a < rank b)
    (hmem : ∀ a, a ∈ l ↔ a ∈ l') : l = l' := by
  have hnodup : ∀ {m : List α}, (m.Pairwise fun a b => rank a < rank b) → m.Nodup := fun hm =>
    hm.imp fun hlt heq => absurd (congrArg rank heq) hlt.ne
  refine List.Perm.eq_of_pairwise ?_ hl hl'
    ((perm_ext_iff_of_nodup (hnodup hl) (hnodup hl')).2 hmem)
  intro a b _ _ hab hba
  exact absurd hba hab.asymm

end Keyed

end PooFlow.Foundation
