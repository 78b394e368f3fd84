import PooFlow.Foundation.JsonText

namespace PooFlow.Foundation

open List
open Prod (fst)

section

variable {α : Type} {key : String} {value : α} {fields : List (String × α)}

theorem perm_insertField (hkey : key ∉ fields.map fst) :
    (insertField key value fields).Perm ((key, value) :: fields) := by
  induction fields with
  | nil => exact .refl _
  | cons first fields ih =>
    rw [map_cons, mem_cons, not_or] at hkey
    rw [insertField_cons]
    split_ifs with hlt hgt
    · exact .refl _
    · exact ((ih hkey.2).cons first).trans (.swap _ _ _)
    · exact absurd (le_antisymm (not_lt.1 hgt) (not_lt.1 hlt)) hkey.1

theorem perm_sortFields (h : (fields.map fst).Nodup) : (sortFields fields).Perm fields := by
  induction fields with
  | nil => exact .refl _
  | cons first fields ih =>
    obtain ⟨hfirst, hfields⟩ := nodup_cons.1 h
    have hperm := ih hfields
    have hnew : first.1 ∉ (sortFields fields).map fst := fun hmem =>
      hfirst ((hperm.map fst).mem_iff.1 hmem)
    exact (perm_insertField hnew).trans (hperm.cons first)

end

namespace JsonTree

mutual

def sorted : JsonTree → JsonTree
  | .null => .null
  | .bool value => .bool value
  | .number value => .number value
  | .string value => .string value
  | .array items => .array (sortedItems items)
  | .object fields => .ofFields (sortedFields fields)

def sortedItems : List JsonTree → List JsonTree
  | [] => []
  | item :: items => sorted item :: sortedItems items

def sortedFields : List (String × JsonTree) → List (String × JsonTree)
  | [] => []
  | (key, value) :: fields => (key, sorted value) :: sortedFields fields

end

theorem keys_sortedFields (fields : List (String × JsonTree)) :
    (sortedFields fields).map fst = fields.map fst := by
  induction fields with
  | nil => rfl
  | cons field fields ih => exact congrArg (field.1 :: ·) ih

theorem length_sortedItems (items : List JsonTree) : (sortedItems items).length = items.length := by
  induction items with
  | nil => rfl
  | cons item items ih => exact congrArg (· + 1) ih

mutual

theorem canonical_sorted : ∀ value : JsonTree, value.sorted.Canonical
  | .null => canonical_null
  | .bool value => canonical_bool value
  | .number value => canonical_number value
  | .string value => canonical_string value
  | .array items => canonical_array.2 (canonical_sortedItems items)
  | .object fields => canonical_ofFields (canonical_sortedFields fields)

theorem canonical_sortedItems : ∀ items : List JsonTree, ∀ item ∈ sortedItems items, item.Canonical
  | [] => forall_mem_nil _
  | item :: items => forall_mem_cons.2 ⟨canonical_sorted item, canonical_sortedItems items⟩

theorem canonical_sortedFields : ∀ fields : List (String × JsonTree),
    ∀ field ∈ sortedFields fields, field.2.Canonical
  | [] => forall_mem_nil _
  | (_, value) :: fields =>
    forall_mem_cons.2 ⟨canonical_sorted value, canonical_sortedFields fields⟩

end

mutual
theorem sorted_of_canonical : ∀ {value : JsonTree}, value.Canonical → value.sorted = value
  | .null, _ => rfl
  | .bool _, _ => rfl
  | .number _, _ => rfl
  | .string _, _ => rfl
  | .array _, h => congrArg array (sortedItems_of_canonical h)
  | .object _, h => by
    rw [sorted, sortedFields_of_canonical h.2, ofFields, sortFields_of_sorted h.1]

theorem sortedItems_of_canonical : ∀ {items : List JsonTree}, CanonicalItems items →
    sortedItems items = items
  | [], _ => rfl
  | _ :: _, h => congrArg₂ List.cons (sorted_of_canonical h.1) (sortedItems_of_canonical h.2)

theorem sortedFields_of_canonical : ∀ {fields : List (String × JsonTree)}, CanonicalFields fields →
    sortedFields fields = fields
  | [], _ => rfl
  | (key, _) :: _, h => congrArg₂ (fun value fields => (key, value) :: fields)
    (sorted_of_canonical h.1) (sortedFields_of_canonical h.2)
end

end JsonTree

end PooFlow.Foundation
