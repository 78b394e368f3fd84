import Mathlib.Data.List.Nodup
import Mathlib.Data.List.Range
import Mathlib.Tactic.Linarith

namespace PooFlow.Foundation

open List

/-- The numbers from one to `n`. -/
def numbers (n : ℕ) : List ℤ := (List.range n).map fun k : ℕ => (k : ℤ) + 1

variable (n : ℕ)

@[simp] theorem length_numbers : (numbers n).length = n := by
  simp [numbers]

theorem numbers_succ : numbers (n + 1) = numbers n ++ [(n : ℤ) + 1] := by
  simp [numbers, range_succ]

@[simp] theorem mem_numbers {n : ℕ} {q : ℤ} : q ∈ numbers n ↔ 1 ≤ q ∧ q ≤ n := by
  simp only [numbers, mem_map, mem_range]
  constructor
  · rintro ⟨k, hk, rfl⟩
    omega
  · rintro ⟨hlow, hhigh⟩
    exact ⟨(q - 1).toNat, by omega, by omega⟩

theorem pairwise_numbers : (numbers n).Pairwise (· < ·) := by
  induction n with
  | zero => exact List.Pairwise.nil
  | succ n ih =>
    rw [numbers_succ, pairwise_append]
    refine ⟨ih, pairwise_singleton _ _, ?_⟩
    intro a ha b hb
    rw [mem_numbers] at ha
    rw [mem_singleton.1 hb]
    omega

theorem nodup_numbers : (numbers n).Nodup :=
  (pairwise_numbers n).imp fun h => ne_of_lt h

theorem max?_numbers : (numbers (n + 1)).max? = some ((n : ℤ) + 1) := by
  rw [List.max?_eq_some_iff]
  refine ⟨mem_numbers.2 ⟨by omega, by omega⟩, ?_⟩
  intro q hq
  have hbound := (mem_numbers.1 hq).2
  omega

theorem numbers_of_append {front back : List ℤ} {n : ℕ} (h : front ++ back = numbers n) :
    front = numbers front.length := by
  have hlength : front.length ≤ n := by
    have hsame := congrArg List.length h
    rw [length_append, length_numbers] at hsame
    omega
  have htake : front = (numbers n).take front.length := by
    rw [← h, take_left' rfl]
  conv_lhs => rw [htake]
  simp only [numbers, ← map_take, take_range, Nat.min_eq_left hlength]

variable {α κ : Type*} [DecidableEq κ] {key : α → κ} {rows : List α} {row : α}

theorem find?_key (hnodup : (rows.map key).Nodup) (hrow : row ∈ rows) :
    rows.find? (fun r => key r = key row) = some row := by
  induction rows with
  | nil => exact absurd hrow not_mem_nil
  | cons first rest ih =>
    rw [map_cons, nodup_cons] at hnodup
    rcases mem_cons.1 hrow with rfl | hrest
    · simp
    · have hother : key first ≠ key row := by
        intro heq
        exact hnodup.1 (heq ▸ mem_map_of_mem hrest)
      rw [List.find?_cons_of_neg (by simpa using hother)]
      exact ih hnodup.2 hrest

theorem filter_concat {p : α → Prop} [DecidablePred p] : (rows ++ [row]).filter (fun r => p r) =
      if p row then rows.filter (fun r => p r) ++ [row] else rows.filter (fun r => p r) := by
  rw [filter_append]
  split
  · next hrow => simp [hrow]
  · next hrow => simp [hrow]

section

variable {c : α → Prop} [DecidablePred c] {update : α → α}

theorem map_update_none (hnone : ∀ r ∈ rows, ¬c r) :
    rows.map (fun r => if c r then update r else r) = rows := by
  have hsame : rows.map (fun r => if c r then update r else r) = rows.map id :=
    map_congr_left fun r hr => if_neg (hnone r hr)
  rw [hsame, map_id]

theorem filter_map_update {p : α → Bool} (hkeep : ∀ r, c r → p (update r) = p r) :
    (rows.map fun r => if c r then update r else r).filter p =
      (rows.filter p).map fun r => if c r then update r else r := by
  rw [filter_map]
  congr 2
  funext r
  simp only [Function.comp_apply]
  split
  · next hr => exact hkeep r hr
  · rfl

theorem map_update_last (hnodup : ((rows ++ [row]).map key).Nodup) :
    (rows ++ [row]).map (fun r => if key r = key row then update r else r) =
      rows ++ [update row] := by
  have hother : ∀ r ∈ rows, key r ≠ key row := by
    rw [map_append, nodup_append] at hnodup
    intro r hr
    exact hnodup.2.2 _ (mem_map_of_mem hr) _ (by simp)
  rw [map_append, map_singleton, if_pos rfl, map_update_none hother]

end

end PooFlow.Foundation
