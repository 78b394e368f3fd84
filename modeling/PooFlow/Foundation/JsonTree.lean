import Mathlib.Data.List.Sort
import Mathlib.Data.String.Basic

namespace PooFlow.Foundation

open List
open Prod (fst snd)

inductive JsonTree where
  | null
  | bool (value : Bool)
  | number (value : ℤ)
  | string (value : String)
  | array (items : List JsonTree)
  | object (fields : List (String × JsonTree))

section

variable {α : Type} {key : String} {value value' : α} {fields fields' : List (String × α)}

def insertField (key : String) (value : α) : List (String × α) → List (String × α)
  | [] => [(key, value)]
  | field :: fields =>
    if key < field.1 then (key, value) :: field :: fields
    else if field.1 < key then field :: insertField key value fields
    else (key, value) :: fields

theorem insertField_cons (key : String) (value : α) (field : String × α)
    (fields : List (String × α)) : insertField key value (field :: fields) =
      if key < field.1 then (key, value) :: field :: fields
      else if field.1 < key then field :: insertField key value fields
      else (key, value) :: fields :=
  rfl

def sortFields (fields : List (String × α)) : List (String × α) :=
  fields.foldr (fun field sorted => insertField field.1 field.2 sorted) []

/-- Members in the order of their keys, no key twice. -/
def FieldsSorted (fields : List (String × α)) : Prop := (fields.map Prod.fst).Pairwise (· < ·)

theorem mem_insertField {field : String × α} (h : field ∈ insertField key value fields) :
    field = (key, value) ∨ field ∈ fields := by
  induction fields with
  | nil => exact .inl (mem_singleton.1 h)
  | cons first fields ih =>
    rw [insertField_cons] at h
    split_ifs at h with hkey hfirst
    · exact mem_cons.1 h
    · rcases mem_cons.1 h with rfl | h
      · exact .inr mem_cons_self
      · exact (ih h).imp_right (mem_cons_of_mem _)
    · exact (mem_cons.1 h).imp_right (mem_cons_of_mem _)

theorem fieldsSorted_insertField (h : FieldsSorted fields) :
    FieldsSorted (insertField key value fields) := by
  induction fields with
  | nil => simp [FieldsSorted, insertField]
  | cons first fields ih =>
    obtain ⟨hfirst, hfields⟩ := pairwise_cons.1 h
    rw [insertField_cons]
    split_ifs with hlt hgt
    · refine pairwise_cons.2 ⟨fun other hother => ?_, h⟩
      rcases mem_cons.1 hother with rfl | hother
      · exact hlt
      · exact hlt.trans (hfirst other hother)
    · refine pairwise_cons.2 ⟨fun other hother => ?_, ih hfields⟩
      obtain ⟨field, hfield, rfl⟩ := mem_map.1 hother
      rcases mem_insertField hfield with rfl | hfield
      · exact hgt
      · exact hfirst _ (mem_map_of_mem hfield)
    · obtain heq : key = first.1 := le_antisymm (not_lt.1 hgt) (not_lt.1 hlt)
      exact pairwise_cons.2 ⟨heq ▸ hfirst, hfields⟩

theorem fieldsSorted_sortFields (fields : List (String × α)) : FieldsSorted (sortFields fields) := by
  induction fields with
  | nil => exact List.Pairwise.nil
  | cons field fields ih => exact fieldsSorted_insertField ih

theorem sortFields_of_sorted (h : FieldsSorted fields) : sortFields fields = fields := by
  induction fields with
  | nil => rfl
  | cons first fields ih =>
    obtain ⟨hfirst, hfields⟩ := pairwise_cons.1 h
    have hrest := ih hfields
    rw [sortFields] at hrest ⊢
    rw [foldr_cons, hrest]
    cases fields with
    | nil => rfl
    | cons second fields => rw [insertField_cons, if_pos (hfirst second.1 mem_cons_self)]

theorem mem_sortFields {field : String × α} (h : field ∈ sortFields fields) : field ∈ fields := by
  induction fields with
  | nil => exact h
  | cons first fields ih =>
    rcases mem_insertField h with rfl | h
    · exact mem_cons_self
    · exact mem_cons_of_mem _ (ih h)

/-- The members under other keys, of sorted members. -/
theorem filter_insertField (hkey : key ∉ fields.map fst) :
    (insertField key value fields).filter (·.1 ≠ key) = fields := by
  induction fields with
  | nil => simp [insertField]
  | cons first fields ih =>
    simp only [map_cons, mem_cons, not_or] at hkey
    have hkept : fields.filter (·.1 ≠ key) = fields := by
      refine filter_eq_self.2 fun field hfield => ?_
      have hne : field.1 ≠ key := fun heq => hkey.2 (heq ▸ mem_map_of_mem hfield)
      simpa using hne
    rw [insertField_cons]
    split_ifs with hlt hgt
    · simpa [Ne.symm hkey.1] using hkept
    · rw [filter_cons_of_pos (by simpa using Ne.symm hkey.1), ih hkey.2]
    · exact absurd (le_antisymm (not_lt.1 hgt) (not_lt.1 hlt)) hkey.1

theorem mem_insertField_self : (key, value) ∈ insertField key value fields := by
  induction fields with
  | nil => simp [insertField]
  | cons first fields ih =>
    rw [insertField_cons]
    split_ifs
    · exact mem_cons_self
    · exact mem_cons_of_mem _ ih
    · exact mem_cons_self

theorem insertField_inj (hkey : key ∉ fields.map fst) (hkey' : key ∉ fields'.map fst)
    (h : insertField key value fields = insertField key value' fields') :
    value = value' ∧ fields = fields' := by
  have hkept : (insertField key value fields).filter (·.1 ≠ key) = fields := filter_insertField hkey
  have hfields : fields = fields' := by
    rw [← hkept, h, filter_insertField hkey']
  refine ⟨?_, hfields⟩
  have hmem : (key, value) ∈ insertField key value' fields' := h ▸ mem_insertField_self
  rcases mem_insertField hmem with heq | hmem
  · exact congrArg snd heq
  · exact absurd (mem_map_of_mem (f := fst) hmem) hkey'

theorem sortFields_inj (hkeys : fields.map fst = fields'.map fst)
    (hnodup : (fields.map fst).Nodup) (h : sortFields fields = sortFields fields') :
    fields = fields' := by
  induction fields generalizing fields' with
  | nil =>
    cases fields' with
    | nil => rfl
    | cons => cases hkeys
  | cons first fields ih =>
    cases fields' with
    | nil => cases hkeys
    | cons first' fields' =>
      obtain ⟨hfirst, hkeys⟩ := List.cons.inj hkeys
      obtain ⟨hnew, hnodup⟩ := nodup_cons.1 hnodup
      have hsub : ∀ l : List (String × α), first.1 ∉ l.map fst →
          first.1 ∉ (sortFields l).map fst := by
        intro l hl hmem
        obtain ⟨field, hfield, heq⟩ := mem_map.1 hmem
        exact hl (heq ▸ mem_map_of_mem (mem_sortFields hfield))
      have hins : insertField first.1 first.2 (sortFields fields) =
          insertField first.1 first'.2 (sortFields fields') :=
        h.trans (by rw [hfirst]; rfl)
      obtain ⟨hvalue, hrest⟩ := insertField_inj (hsub _ hnew) (hsub _ (hkeys ▸ hnew)) hins
      rw [ih hkeys hnodup hrest, Prod.ext hfirst hvalue]

end

namespace JsonTree

def ofFields (fields : List (String × JsonTree)) : JsonTree := .object (sortFields fields)

mutual

/-- The members of every object stand in order, each key once. -/
def Canonical : JsonTree → Prop
  | .array items => CanonicalItems items
  | .object fields => FieldsSorted fields ∧ CanonicalFields fields
  | _ => True

def CanonicalItems : List JsonTree → Prop
  | [] => True
  | item :: items => Canonical item ∧ CanonicalItems items

def CanonicalFields : List (String × JsonTree) → Prop
  | [] => True
  | (_, value) :: fields => Canonical value ∧ CanonicalFields fields

end

mutual

def decideCanonical : (value : JsonTree) → Decidable value.Canonical
  | .null | .bool _ | .number _ | .string _ => isTrue trivial
  | .array items => decideCanonicalItems items
  | .object fields =>
    letI := decideCanonicalFields fields
    inferInstanceAs (Decidable ((fields.map Prod.fst).Pairwise (· < ·) ∧ _))

def decideCanonicalItems : (items : List JsonTree) → Decidable (CanonicalItems items)
  | [] => isTrue trivial
  | item :: items =>
    letI := decideCanonical item
    letI := decideCanonicalItems items
    inferInstanceAs (Decidable (_ ∧ _))

def decideCanonicalFields : (fields : List (String × JsonTree)) → Decidable (CanonicalFields fields)
  | [] => isTrue trivial
  | (_, value) :: fields =>
    letI := decideCanonical value
    letI := decideCanonicalFields fields
    inferInstanceAs (Decidable (_ ∧ _))

end

instance : DecidablePred Canonical := decideCanonical

variable {fields : List (String × JsonTree)}

theorem canonicalFields_iff : CanonicalFields fields ↔ ∀ field ∈ fields, Canonical field.2 := by
  induction fields with
  | nil => exact iff_of_true trivial nofun
  | cons field fields ih =>
    rw [forall_mem_cons, ← ih]
    exact Iff.rfl

theorem canonicalItems_iff {items : List JsonTree} :
    CanonicalItems items ↔ ∀ item ∈ items, Canonical item := by
  induction items with
  | nil => exact iff_of_true trivial nofun
  | cons item items ih =>
    rw [forall_mem_cons, ← ih]
    exact Iff.rfl

@[simp] theorem canonical_null : Canonical .null := trivial

@[simp] theorem canonical_bool (value : Bool) : Canonical (.bool value) := trivial

@[simp] theorem canonical_number (value : ℤ) : Canonical (.number value) := trivial

@[simp] theorem canonical_string (value : String) : Canonical (.string value) := trivial

@[simp] theorem canonical_array {items : List JsonTree} :
    Canonical (.array items) ↔ ∀ item ∈ items, Canonical item :=
  canonicalItems_iff

theorem canonical_object : Canonical (.object fields) ↔
      FieldsSorted fields ∧ ∀ field ∈ fields, Canonical field.2 :=
  and_congr_right' canonicalFields_iff

theorem canonical_ofFields (h : ∀ field ∈ fields, Canonical field.2) :
    Canonical (ofFields fields) :=
  canonical_object.2 ⟨fieldsSorted_sortFields fields, fun field hfield =>
    h field (mem_sortFields hfield)⟩

theorem ofFields_inj {fields' : List (String × JsonTree)}
    (hkeys : fields.map fst = fields'.map fst) (hnodup : (fields.map fst).Nodup)
    (h : ofFields fields = ofFields fields') : fields = fields' :=
  sortFields_inj hkeys hnodup (JsonTree.object.inj h)

end JsonTree

abbrev CanonicalTree := { tree : JsonTree // tree.Canonical }

end PooFlow.Foundation
