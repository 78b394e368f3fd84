import PooFlow.Foundation.Definers
import Mathlib.Logic.Relation

namespace PooFlow.Roles

open Foundation List Option

/-- How a slot gets its value: by `$constant-slot-spec`, or from the object it is in. -/
inductive SlotSpec (Value : Type) where
  | constant (value : Value)
  | computed

def SlotSpec.value? {Value : Type} : SlotSpec Value → Option Value
  | .constant value => some value
  | .computed => none

structure Objects (Role Slot Value : Type) where
  slots : Role → List (Slot × SlotSpec Value)
  supers : Role → List Role
  depth : Role → ℕ
  depth_lt : ∀ {role super}, super ∈ supers role → depth super < depth role

variable {Role Slot Value : Type} [DecidableEq Slot]

def slotSpec? (slots : List (Slot × SlotSpec Value)) (slot : Slot) : Option (SlotSpec Value) :=
  slots.reverse.lookup slot

namespace Objects

variable (objects : Objects Role Slot Value) (linearize : List Role → Option (List Role))

def own (slot : Slot) (role : Role) : Option (SlotSpec Value) := slotSpec? (objects.slots role) slot

def Inherits : Role → Role → Prop :=
  Relation.ReflTransGen fun role super => super ∈ objects.supers role

def precedence (role : Role) : Option (List Role) :=
  (linearize (objects.supers role)).map (role :: ·)

def valueIn (order : List Role) (slot : Slot) : Option Value :=
  (order.findSome? (objects.own slot)).bind SlotSpec.value?

def allSlots (role : Role) : Option (List Slot) :=
  (objects.precedence linearize role).map fun order =>
    order.flatMap fun role => (objects.slots role).map Prod.fst

def ref (role : Role) (slot : Slot) : Option Value :=
  (objects.precedence linearize role).bind fun order => objects.valueIn order slot

/-- `.slot?` -/
def hasSlot (role : Role) (slot : Slot) : Bool :=
  (objects.allSlots linearize role).any fun slots => slots.contains slot

end Objects

structure Lawful [DecidableEq Role] (objects : Objects Role Slot Value)
    (linearize : List Role → Option (List Role)) : Prop where
  nodup : ∀ {roles order}, linearize roles = some order → order.Nodup
  mem_iff : ∀ {roles order}, linearize roles = some order →
    ∀ role, role ∈ order ↔ ∃ start ∈ roles, objects.Inherits start role
  keeps : ∀ {roles order}, linearize roles = some order → roles.Sublist order
  supers_after : ∀ {roles order}, linearize roles = some order → ∀ role ∈ order,
    ∀ super ∈ objects.supers role, order.idxOf role < order.idxOf super
  monotone : ∀ {roles order}, linearize roles = some order → ∀ role ∈ order,
    ∃ own, objects.precedence linearize role = some own ∧ own.Sublist order

/-- `role-compose`: the order of precedence of the composed object. -/
def roleCompose (linearize : List Role → Option (List Role)) (controlPlaneRole : Role)
    (roles : List Role) : Option (List Role) :=
  linearize (roles ++ [controlPlaneRole])

section

variable [DecidableEq Role] {objects : Objects Role Slot Value}
  {linearize : List Role → Option (List Role)} {roles order own : List Role} {role : Role}

omit [DecidableEq Slot] in
theorem Lawful.idxOf_le (h : Lawful objects linearize) (horder : linearize roles = some order)
    {start : Role} (hstart : start ∈ roles) (hrole : objects.Inherits start role) :
    order.idxOf start ≤ order.idxOf role := by
  induction hrole with
  | refl => exact Nat.le_refl _
  | @tail role super hrole hsuper ih =>
    have hmem := (h.mem_iff horder role).2 ⟨start, hstart, hrole⟩
    exact Nat.le_trans ih (Nat.le_of_lt (h.supers_after horder role hmem super hsuper))

omit [DecidableEq Slot] in
theorem Lawful.cons {first : Role} (h : Lawful objects linearize)
    (horder : linearize (first :: roles) = some order) :
    ∃ rest, order = first :: rest ∧ roles.Sublist rest := by
  have hkeeps := h.keeps horder
  have hnodup := h.nodup horder
  cases order with
  | nil => cases hkeeps
  | cons head rest =>
    obtain ⟨start, hstart, hinherits⟩ := (h.mem_iff horder head).1 mem_cons_self
    have hle := h.idxOf_le horder hstart hinherits
    have heq : head = start := by
      by_contra hne
      rw [idxOf_cons_self, idxOf_cons_ne _ hne] at hle
      exact Nat.not_succ_le_zero _ hle
    subst heq
    rw [nodup_cons] at hnodup
    cases hkeeps with
    | cons _ hrest => exact absurd (hrest.subset hstart) hnodup.1
    | cons_cons _ hrest => exact ⟨rest, rfl, hrest⟩

omit [DecidableEq Slot] in
theorem Lawful.cons_cons {first second : Role} (h : Lawful objects linearize)
    (hfirst : objects.supers first = [])
    (horder : linearize (first :: second :: roles) = some order) :
    ∃ rest, order = first :: second :: rest := by
  obtain ⟨rest, rfl, hkeeps⟩ := h.cons horder
  have hnodup := h.nodup horder
  rw [nodup_cons] at hnodup
  cases rest with
  | nil => cases hkeeps
  | cons head rest =>
    obtain ⟨start, hstart, hinherits⟩ :=
      (h.mem_iff horder head).1 (mem_cons_of_mem _ mem_cons_self)
    have hne : first ≠ head := fun heq => hnodup.1 (heq ▸ mem_cons_self)
    have hle := h.idxOf_le horder hstart hinherits
    have hidx : (first :: head :: rest).idxOf head = 1 := by
      rw [idxOf_cons_ne _ hne, idxOf_cons_self]
    rw [hidx] at hle
    have hstart' : start ≠ first := by
      rintro rfl
      rcases Relation.ReflTransGen.cases_head hinherits with heq | ⟨super, hsuper, -⟩
      · exact hne heq
      · rw [hfirst] at hsuper
        cases hsuper
    have heq : head = start := by
      by_contra hother
      rw [idxOf_cons_ne _ (Ne.symm hstart'), idxOf_cons_ne _ hother] at hle
      omega
    subst heq
    have hnodup' := hnodup.2
    rw [nodup_cons] at hnodup'
    cases hkeeps with
    | cons _ hrest =>
      have hmem := (mem_cons.1 hstart).resolve_left hstart'
      exact absurd (hrest.subset hmem) hnodup'.1
    | cons_cons _ hrest => exact ⟨rest, rfl⟩

omit [DecidableEq Role] in
theorem slotSpec?_eq_none {slots : List (Slot × SlotSpec Value)} {slot : Slot} :
    slotSpec? slots slot = none ↔ slot ∉ slots.map Prod.fst := by
  rw [slotSpec?, lookup_eq_none_iff]
  simp only [mem_reverse, List.mem_map, bne_iff_ne, ne_eq, not_exists, not_and]
  exact ⟨fun h entry hentry heq => h entry hentry heq.symm,
    fun h entry hentry heq => h entry hentry heq.symm⟩

omit [DecidableEq Role] in
theorem valueIn_eq_definer (slot : Slot) : objects.valueIn order slot =
      ((definer (objects.own slot) order).bind (objects.own slot)).bind SlotSpec.value? := by
  rw [Objects.valueIn, findSome?_eq_definer]

section

variable (h : Lawful objects linearize) (horder : linearize roles = some order)
  (hrole : role ∈ order)

include h horder hrole

theorem Lawful.ref_eq :
    ∃ own, own.Sublist order ∧ (∀ other, other ∈ own ↔ objects.Inherits role other) ∧
      (∀ slot, objects.ref linearize role slot = objects.valueIn own slot) ∧
      objects.allSlots linearize role =
        some (own.flatMap fun role => (objects.slots role).map Prod.fst) := by
  obtain ⟨own, hown, hsub⟩ := h.monotone horder role hrole
  refine ⟨own, hsub, fun other => ?_, fun slot => ?_, ?_⟩
  · obtain ⟨supers, hsupers, rfl⟩ := map_eq_some_iff.1 hown
    rw [mem_cons, h.mem_iff hsupers other]
    constructor
    · rintro (rfl | ⟨start, hstart, hother⟩)
      · exact .refl
      · exact .head hstart hother
    · intro hother
      rcases Relation.ReflTransGen.cases_head hother with heq | ⟨super, hsuper, hrest⟩
      · exact .inl heq.symm
      · exact .inr ⟨super, hsuper, hrest⟩
  · rw [Objects.ref, hown, bind_some]
  · rw [Objects.allSlots, hown, map_some]

theorem Lawful.hasSlot_iff (slot : Slot) : objects.hasSlot linearize role slot = true ↔
      ∃ other, objects.Inherits role other ∧ objects.own slot other ≠ none := by
  obtain ⟨own, -, hmem, -, hslots⟩ := h.ref_eq horder hrole
  have hown : ∀ other, objects.own slot other ≠ none ↔
      slot ∈ (objects.slots other).map Prod.fst := fun other => by
    rw [Objects.own, Ne, slotSpec?_eq_none, not_not]
  rw [Objects.hasSlot, hslots, any_some, contains_iff_mem, mem_flatMap]
  simp only [hmem, hown]

theorem Lawful.ref_eq_none {slot : Slot} (hslot : objects.hasSlot linearize role slot = false) :
    objects.ref linearize role slot = none := by
  obtain ⟨own, -, hmem, href, -⟩ := h.ref_eq horder hrole
  have hnone : definer (objects.own slot) own = none := definer_eq_none.2 fun other hother => by
    by_contra hown
    have htrue := (h.hasSlot_iff horder hrole slot).2 ⟨other, (hmem other).1 hother, hown⟩
    rw [hslot] at htrue
    cases htrue
  rw [href, valueIn_eq_definer, hnone]
  rfl

end

/-- The composition takes the slot from this role, or from a super of it, or takes the
same value from elsewhere. -/
def Provides (objects : Objects Role Slot Value) (linearize : List Role → Option (List Role))
    (order : List Role) (role : Role) (slot : Slot) : Prop :=
  ∀ first, definer (objects.own slot) order = some first → objects.Inherits role first ∨
    objects.ref linearize role slot = (objects.own slot first).bind SlotSpec.value?

theorem Lawful.ref_eq_iff (h : Lawful objects linearize) (horder : linearize roles = some order)
    (hrole : role ∈ order) (slot : Slot) :
    objects.ref linearize role slot = objects.valueIn order slot ↔
      Provides objects linearize order role slot := by
  obtain ⟨own, hsub, hmem, href, -⟩ := h.ref_eq horder hrole
  rw [valueIn_eq_definer]
  cases hfirst : definer (objects.own slot) order with
  | none =>
    have hnone : definer (objects.own slot) own = none :=
      definer_eq_none.2 fun other hother => definer_eq_none.1 hfirst other (hsub.subset hother)
    rw [href, valueIn_eq_definer, hnone, Provides, hfirst]
    simp
  | some first =>
    constructor
    · intro heq other hother
      rw [hfirst] at hother
      cases hother
      exact .inr heq
    · intro hprovides
      rcases hprovides first hfirst with hinherits | heq
      · have hown := definer_sublist hsub (h.nodup horder) hfirst ((hmem first).2 hinherits)
        rw [href, valueIn_eq_definer, hown]
      · exact heq

end

end PooFlow.Roles
