import Mathlib.Data.List.Nodup

namespace PooFlow.Foundation

open List

variable {α β : Type} {defines : α → Option β} {order own : List α} {a : α}

def definer (defines : α → Option β) (order : List α) : Option α :=
  order.find? fun a => (defines a).isSome

theorem definer_eq_none : definer defines order = none ↔ ∀ a ∈ order, defines a = none := by
  simp [definer, List.find?_eq_none]

theorem mem_of_definer (h : definer defines order = some a) : a ∈ order :=
  mem_of_find?_eq_some h

theorem isSome_of_definer (h : definer defines order = some a) : (defines a).isSome = true :=
  @List.find?_some _ (fun a => (defines a).isSome) a order h

theorem definer_cons_of_isSome (h : (defines a).isSome = true) :
    definer defines (a :: order) = some a :=
  List.find?_cons_of_pos h

theorem definer_cons_of_none (h : defines a = none) :
    definer defines (a :: order) = definer defines order :=
  List.find?_cons_of_neg (by rw [h]; exact Bool.false_ne_true)

theorem findSome?_eq_definer : order.findSome? defines = (definer defines order).bind defines := by
  induction order with
  | nil => rfl
  | cons a order ih =>
    cases h : defines a with
    | none => rw [List.findSome?_cons, h, definer_cons_of_none h, ih]
    | some b =>
      rw [List.findSome?_cons, h, definer_cons_of_isSome (by rw [h]; rfl), Option.bind_some, h]

theorem definer_sublist (hsub : own.Sublist order) (hnodup : order.Nodup)
    (h : definer defines order = some a) (ha : a ∈ own) : definer defines own = some a := by
  induction hsub with
  | slnil => cases ha
  | @cons own order b hsub ih =>
    rw [nodup_cons] at hnodup
    have hne : a ≠ b := fun heq => hnodup.1 (hsub.subset (heq ▸ ha))
    cases hb : defines b with
    | none => exact ih hnodup.2 (definer_cons_of_none hb ▸ h) ha
    | some value =>
      rw [definer_cons_of_isSome (by rw [hb]; rfl)] at h
      exact absurd (Option.some.inj h).symm hne
  | @cons_cons own order b hsub ih =>
    rw [nodup_cons] at hnodup
    cases hb : defines b with
    | none =>
      rw [definer_cons_of_none hb] at h ⊢
      have hne : a ≠ b := fun heq => hnodup.1 (heq ▸ mem_of_definer h)
      exact ih hnodup.2 h ((mem_cons.1 ha).resolve_left hne)
    | some value =>
      rw [definer_cons_of_isSome (by rw [hb]; rfl)] at h ⊢
      exact h

end PooFlow.Foundation
