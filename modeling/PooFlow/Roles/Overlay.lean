import PooFlow.Roles.Composition

namespace PooFlow.Roles

open Foundation List
open Option (bind_eq_some_iff any_some some_ne_none none_or)

variable {Role Slot Value : Type} [DecidableEq Role] [DecidableEq Slot]

section

variable (objects : Objects Role Slot Value) (linearize : List Role → Option (List Role))

def roleConstantSlotSpecs (slots : List (Slot × SlotSpec Value)) : Bool :=
  slots.all fun slot => slot.2.value?.isSome

def roleInstanceOverlayCompatibleSeen (role : Role) (path : List Role) : Bool :=
  decide (role ∉ path) && roleConstantSlotSpecs (objects.slots role) &&
    (objects.supers role).attach.all fun super =>
      roleInstanceOverlayCompatibleSeen super.1 (role :: path)
termination_by objects.depth role
decreasing_by exact objects.depth_lt super.2

def roleInstanceOverlayCompatible (role : Role) : Bool :=
  roleInstanceOverlayCompatibleSeen objects role []

structure Instance (Slot Value : Type) where
  defaults : List (Slot × Value)
  slots : List (Slot × SlotSpec Value)

/-- `.ref` of an object without supers. -/
def Instance.ref (object : Instance Slot Value) (slot : Slot) : Option Value :=
  match slotSpec? object.slots slot with
  | some spec => spec.value?
  | none => object.defaults.lookup slot

def roleInstanceOverlayDefaults (shared : Role) : Option (List (Slot × Value)) := do
  let slots ← objects.allSlots linearize shared
  slots.mapM fun slot => do
    let value ← objects.ref linearize shared slot
    return (slot, value)

/-- `role-instance-overlay3/compatible` -/
def roleInstanceOverlay3 (marker localRole : Role) (sharedDefaults : List (Slot × Value)) :
    Instance Slot Value where
  defaults := sharedDefaults
  slots := objects.slots localRole ++ objects.slots marker

/-- `role-instance-overlay-owner-index/one`, of the slots of one role. -/
def roleInstanceOverlayOwnerIndexOne (keys : List Slot) (source : Role)
    (owners : Slot → Option Role) : Slot → Option Role :=
  keys.foldl (fun owners key =>
    if (owners key).isSome then owners else Function.update owners key (some source)) owners

def roleInstanceOverlayOwnerIndex : List Role → (Slot → Option Role) → Option (Slot → Option Role)
  | [], owners => some owners
  | [_], owners => some owners
  | source :: next :: roles, owners => do
    let keys ← objects.allSlots linearize source
    roleInstanceOverlayOwnerIndex (next :: roles)
      (roleInstanceOverlayOwnerIndexOne keys source owners)

structure FunctionObject (Slot Value : Type) where
  keys : List Slot
  resolve : Slot → Option Value

/-- `.ref` of such an object. -/
def FunctionObject.ref (object : FunctionObject Slot Value) (slot : Slot) : Option Value :=
  if slot ∈ object.keys then object.resolve slot else none

def roleInstanceOverlayResolve (owners : Slot → Option Role) (fallback : Role) (slot : Slot) :
    Option Value :=
  objects.ref linearize ((owners slot).getD fallback) slot

/-- `role-instance-overlay/compatible` -/
def roleInstanceOverlayCompatibleRoles (roles : List Role) :
    Option (FunctionObject Slot Value) := do
  let owners ← roleInstanceOverlayOwnerIndex objects linearize roles fun _ => none
  let fallback ← roles.getLast?
  let keys ← roles.mapM (objects.allSlots linearize)
  return ⟨keys.flatten, roleInstanceOverlayResolve objects linearize owners fallback⟩

/-- `role-instance-overlay`; `none` is an error. -/
def roleInstanceOverlay (roles : List Role) : Option (FunctionObject Slot Value) :=
  if roles ≠ [] ∧ roles.all (roleInstanceOverlayCompatible objects) = true then
    roleInstanceOverlayCompatibleRoles objects linearize roles
  else none

structure DomainCase where
  marker : Bool → Role
  sharedPrototype : Role
  instanceOverlayCompatible : Bool
  marker_supers : ∀ compatible, objects.supers (marker compatible) = []
  compatible_eq : instanceOverlayCompatible = roleInstanceOverlayCompatible objects sharedPrototype

/-- What `domain-case-compose-instance` returns. -/
inductive Composition (Role Slot Value : Type) where
  | overlay (object : Instance Slot Value)
  | mix (order : List Role)
  | failed

def domainCaseComposeInstance (controlPlaneRole : Role) (overlayCompatible : Bool)
    (marker localRole shared : Role) : Composition Role Slot Value :=
  if overlayCompatible then
    match roleInstanceOverlayDefaults objects linearize shared with
    | some defaults => .overlay (roleInstanceOverlay3 objects marker localRole defaults)
    | none => .failed
  else
    match roleCompose linearize controlPlaneRole [marker, localRole, shared] with
    | some order => .mix order
    | none => .failed

def domainCaseInstantiateValid (controlPlaneRole : Role) (domainCase : DomainCase objects)
    (localRole : Role) : Composition Role Slot Value :=
  let overlayCompatible := domainCase.instanceOverlayCompatible &&
    roleInstanceOverlayCompatible objects localRole
  domainCaseComposeInstance objects linearize controlPlaneRole overlayCompatible
    (domainCase.marker overlayCompatible) localRole domainCase.sharedPrototype

/-- The slots and values of the composition, without those that only the role that
`role-compose` adds has. -/
def composedRef (roles order : List Role) (slot : Slot) : Option Value :=
  if roles.any fun role => objects.hasSlot linearize role slot then objects.valueIn order slot
  else none

def Agrees (controlPlaneRole : Role) (roles : List Role) (ref : Slot → Option Value) : Prop :=
  ∃ order, roleCompose linearize controlPlaneRole roles = some order ∧
    ∀ slot, ref slot = composedRef objects linearize roles order slot

def SharedProvides (controlPlaneRole marker localRole shared : Role) : Prop :=
  ∃ order, roleCompose linearize controlPlaneRole [marker, localRole, shared] = some order ∧
    ∀ slot, objects.own slot marker = none → objects.own slot localRole = none →
      (∃ role ∈ [marker, localRole, shared], objects.hasSlot linearize role slot = true) →
      Provides objects linearize order shared slot

def FirstProvides (controlPlaneRole : Role) (roles : List Role) : Prop :=
  ∃ order, roleCompose linearize controlPlaneRole roles = some order ∧
    ∀ slot role, roles.find? (fun role => objects.hasSlot linearize role slot) = some role →
      Provides objects linearize order role slot

end

section

variable {objects : Objects Role Slot Value} {linearize : List Role → Option (List Role)}
  {controlPlaneRole : Role} {roles order : List Role}

omit [DecidableEq Role] in
theorem slotSpec?_append (slots others : List (Slot × SlotSpec Value)) (slot : Slot) :
    slotSpec? (slots ++ others) slot = (slotSpec? others slot).or (slotSpec? slots slot) := by
  rw [slotSpec?, reverse_append, lookup_append]
  rfl

omit [DecidableEq Role] in
theorem lookup_of_mapM {f : Slot → Option Value} {keys : List Slot} {pairs : List (Slot × Value)}
    (h : (keys.mapM fun key => do
      let value ← f key
      return (key, value)) = some pairs) (slot : Slot) :
    pairs.lookup slot = if slot ∈ keys then f slot else none := by
  induction keys generalizing pairs with
  | nil =>
    cases h
    rfl
  | cons key keys ih =>
    rw [mapM_cons] at h
    obtain ⟨pair, hpair, h⟩ := bind_eq_some_iff.1 h
    obtain ⟨value, hvalue, hpair⟩ := bind_eq_some_iff.1 hpair
    obtain ⟨rest, hrest, h⟩ := bind_eq_some_iff.1 h
    cases h
    cases hpair
    rw [lookup_cons, ih hrest]
    by_cases hslot : slot = key
    · subst hslot
      simp [hvalue]
    · simp [hslot, beq_eq_false_iff_ne.2 hslot]

theorem Lawful.lookup_defaults (h : Lawful objects linearize)
    (horder : linearize roles = some order) {shared : Role} (hshared : shared ∈ order)
    {defaults : List (Slot × Value)}
    (hdefaults : roleInstanceOverlayDefaults objects linearize shared = some defaults)
    (slot : Slot) : defaults.lookup slot = objects.ref linearize shared slot := by
  obtain ⟨slots, hslots, hmap⟩ := bind_eq_some_iff.1 hdefaults
  rw [lookup_of_mapM hmap]
  by_cases hslot : slot ∈ slots
  · rw [if_pos hslot]
  · have hnone : objects.hasSlot linearize shared slot = false := by
      rw [Objects.hasSlot, hslots, any_some]
      simpa using hslot
    rw [if_neg hslot, h.ref_eq_none horder hshared hnone]

omit [DecidableEq Role] in
theorem valueIn_cons {role : Role} {slot : Slot} {spec : SlotSpec Value}
    (hown : objects.own slot role = some spec) :
    objects.valueIn (role :: order) slot = spec.value? := by
  rw [Objects.valueIn, List.findSome?_cons, hown]
  rfl

omit [DecidableEq Role] in
theorem valueIn_cons_of_none {role : Role} {slot : Slot} (hown : objects.own slot role = none) :
    objects.valueIn (role :: order) slot = objects.valueIn order slot := by
  rw [Objects.valueIn, Objects.valueIn, List.findSome?_cons, hown]

theorem Lawful.overlay3_agrees (h : Lawful objects linearize) {marker localRole shared : Role}
    (hmarker : objects.supers marker = []) {defaults : List (Slot × Value)}
    (hdefaults : roleInstanceOverlayDefaults objects linearize shared = some defaults)
    (horder : roleCompose linearize controlPlaneRole [marker, localRole, shared] = some order)
    (slot : Slot) : (roleInstanceOverlay3 objects marker localRole defaults).ref slot =
        composedRef objects linearize [marker, localRole, shared] order slot ↔
      (objects.own slot marker = none → objects.own slot localRole = none →
        (∃ role ∈ [marker, localRole, shared], objects.hasSlot linearize role slot = true) →
        Provides objects linearize order shared slot) := by
  have hkept : ∀ role ∈ [marker, localRole, shared], role ∈ order := fun role hrole =>
    (h.keeps horder).subset (mem_append_left _ hrole)
  have hshared : shared ∈ order := hkept shared (by simp)
  obtain ⟨rest, hrest⟩ := h.cons_cons hmarker horder
  have hdefines : ∀ {role : Role}, role ∈ [marker, localRole, shared] →
      objects.own slot role ≠ none →
      ([marker, localRole, shared].any fun role => objects.hasSlot linearize role slot) = true :=
    fun hrole hown => any_eq_true.2
      ⟨_, hrole, (h.hasSlot_iff horder (hkept _ hrole) slot).2 ⟨_, .refl, hown⟩⟩
  have hslots : slotSpec? (roleInstanceOverlay3 objects marker localRole defaults).slots slot =
      (objects.own slot marker).or (objects.own slot localRole) := slotSpec?_append _ _ slot
  rw [Instance.ref, hslots, composedRef]
  cases hmine : objects.own slot marker with
  | some spec =>
    have hany := hdefines mem_cons_self (by rw [hmine]; exact some_ne_none _)
    rw [if_pos hany, hrest, valueIn_cons hmine]
    simp
  | none =>
    cases hlocal : objects.own slot localRole with
    | some spec =>
      have hany := @hdefines localRole (by simp)
        (by rw [hlocal]; exact some_ne_none _)
      rw [if_pos hany, hrest, valueIn_cons_of_none hmine, valueIn_cons hlocal]
      simp
    | none =>
      have hvalue := h.lookup_defaults horder hshared hdefaults slot
      have href := h.ref_eq_iff horder hshared slot
      dsimp only [Option.or]
      rw [show (roleInstanceOverlay3 objects marker localRole defaults).defaults = defaults from rfl,
        hvalue]
      split_ifs with hany
      · rw [href]
        rw [any_eq_true] at hany
        exact ⟨fun hprovides _ _ _ => hprovides, fun hprovides => hprovides rfl rfl hany⟩
      · have hmissing : objects.hasSlot linearize shared slot = false := by
          rw [Bool.not_eq_true, any_eq_false] at hany
          simpa using hany shared (by simp)
        rw [any_eq_true] at hany
        exact ⟨fun _ _ _ hsome => absurd hsome hany, fun _ => h.ref_eq_none horder hshared hmissing⟩

omit [DecidableEq Role] in
theorem ownerIndexOne_eq (keys : List Slot) (source : Role) (owners : Slot → Option Role)
    (slot : Slot) : roleInstanceOverlayOwnerIndexOne keys source owners slot =
      (owners slot).or (if slot ∈ keys then some source else none) := by
  induction keys generalizing owners with
  | nil => simp [roleInstanceOverlayOwnerIndexOne]
  | cons key keys ih =>
    simp only [roleInstanceOverlayOwnerIndexOne] at ih ⊢
    rw [foldl_cons, ih]
    by_cases hkey : slot = key
    · subst hkey
      cases howner : owners slot with
      | none => simp
      | some owner => simp [howner]
    · split_ifs <;> simp_all

omit [DecidableEq Role] in
theorem ownerIndex_eq {owners index : Slot → Option Role}
    (h : roleInstanceOverlayOwnerIndex objects linearize roles owners = some index) (slot : Slot) :
    index slot = (owners slot).or
      (roles.dropLast.find? fun role => objects.hasSlot linearize role slot) := by
  induction roles generalizing owners with
  | nil =>
    cases h
    simp
  | cons source roles ih =>
    cases roles with
    | nil =>
      cases h
      simp
    | cons next roles =>
      rw [roleInstanceOverlayOwnerIndex] at h
      obtain ⟨keys, hkeys, h⟩ := bind_eq_some_iff.1 h
      have hhas : objects.hasSlot linearize source slot = decide (slot ∈ keys) := by
        rw [Objects.hasSlot, hkeys, any_some, contains_eq_mem]
      rw [ih h, ownerIndexOne_eq, Option.or_assoc, dropLast_cons_cons, List.find?_cons, hhas]
      by_cases hslot : slot ∈ keys <;> simp [hslot]

omit [DecidableEq Role] in
theorem hasSlot_of_mapM {keys : List (List Slot)}
    (h : roles.mapM (objects.allSlots linearize) = some keys) (slot : Slot) : slot ∈ keys.flatten ↔
      (roles.any fun role => objects.hasSlot linearize role slot) = true := by
  induction roles generalizing keys with
  | nil =>
    cases h
    simp
  | cons role roles ih =>
    rw [mapM_cons] at h
    obtain ⟨slots, hslots, h⟩ := bind_eq_some_iff.1 h
    obtain ⟨rest, hrest, h⟩ := bind_eq_some_iff.1 h
    cases h
    rw [flatten_cons, mem_append, ih hrest, any_cons, Bool.or_eq_true,
      Objects.hasSlot, hslots, any_some, contains_iff_mem]

theorem Lawful.overlay_agrees (h : Lawful objects linearize) {object : FunctionObject Slot Value}
    (hobject : roleInstanceOverlayCompatibleRoles objects linearize roles = some object)
    (horder : roleCompose linearize controlPlaneRole roles = some order) (slot : Slot) :
    object.ref slot = composedRef objects linearize roles order slot ↔
      ∀ role, roles.find? (fun role => objects.hasSlot linearize role slot) = some role →
        Provides objects linearize order role slot := by
  obtain ⟨owners, howners, hobject⟩ := bind_eq_some_iff.1 hobject
  obtain ⟨fallback, hfallback, hobject⟩ := bind_eq_some_iff.1 hobject
  obtain ⟨keys, hkeys, hobject⟩ := bind_eq_some_iff.1 hobject
  cases hobject
  have hindex := ownerIndex_eq howners slot
  have hmem := hasSlot_of_mapM hkeys slot
  rw [FunctionObject.ref, composedRef]
  cases hfind : roles.find? fun role => objects.hasSlot linearize role slot with
  | none =>
    have hnone : ¬(roles.any fun role => objects.hasSlot linearize role slot) = true := by
      rw [any_eq_true]
      rw [List.find?_eq_none] at hfind
      exact fun ⟨role, hrole, hslot⟩ => hfind role hrole hslot
    rw [if_neg hnone, if_neg (mt hmem.1 hnone)]
    simp
  | some first =>
    have hfirst : first ∈ roles := mem_of_find?_eq_some hfind
    have hhas : objects.hasSlot linearize first slot = true :=
      @List.find?_some _ (fun role => objects.hasSlot linearize role slot) first roles hfind
    have hany : (roles.any fun role => objects.hasSlot linearize role slot) = true :=
      any_eq_true.2 ⟨first, hfirst, hhas⟩
    -- the owner is the first role with the slot, or else the last role is
    have howner : (owners slot).getD fallback = first := by
      rw [← dropLast_append_getLast? fallback hfallback, List.find?_append] at hfind
      rw [hindex, none_or]
      cases hearly : roles.dropLast.find? fun role => objects.hasSlot linearize role slot with
      | some early =>
        rw [hearly, Option.some_or] at hfind
        exact Option.some.inj hfind
      | none =>
        rw [hearly, none_or] at hfind
        exact (mem_singleton.1 (mem_of_find?_eq_some hfind)).symm
    have horder' : first ∈ order :=
      (h.keeps horder).subset (mem_append_left _ hfirst)
    rw [if_pos hany, if_pos (hmem.2 hany)]
    dsimp only
    rw [roleInstanceOverlayResolve, howner, h.ref_eq_iff horder horder' slot]
    constructor
    · rintro hprovides role heq
      cases heq
      exact hprovides
    · exact fun hprovides => hprovides first rfl

/-- **Instance overlays.** The instance of a domain case agrees with the composition
exactly when the shared prototype provides what neither the marker nor the local role
defines, and the overlay of a list of roles when the first role with a slot provides it. -/
theorem overlay_iff (h : Lawful objects linearize) (controlPlaneRole : Role) :
    (∀ (domainCase : DomainCase objects) (localRole : Role) (object : Instance Slot Value),
      domainCaseInstantiateValid objects linearize controlPlaneRole domainCase localRole =
        .overlay object →
      (Agrees objects linearize controlPlaneRole
          [domainCase.marker true, localRole, domainCase.sharedPrototype] object.ref ↔
        SharedProvides objects linearize controlPlaneRole (domainCase.marker true) localRole
          domainCase.sharedPrototype)) ∧
    ∀ (roles : List Role) (object : FunctionObject Slot Value),
      roleInstanceOverlay objects linearize roles = some object →
      (Agrees objects linearize controlPlaneRole roles object.ref ↔
        FirstProvides objects linearize controlPlaneRole roles) := by
  constructor
  · intro domainCase localRole object hinstance
    rw [domainCaseInstantiateValid, domainCaseComposeInstance] at hinstance
    generalize hcompatible : (domainCase.instanceOverlayCompatible &&
      roleInstanceOverlayCompatible objects localRole) = compatible at hinstance
    cases compatible with
    | false =>
      rw [if_neg Bool.false_ne_true] at hinstance
      split at hinstance <;> cases hinstance
    | true =>
      rw [if_pos rfl] at hinstance
      cases hdefaults : roleInstanceOverlayDefaults objects linearize
          domainCase.sharedPrototype with
      | none =>
        rw [hdefaults] at hinstance
        cases hinstance
      | some defaults =>
        rw [hdefaults] at hinstance
        cases hinstance
        exact exists_congr fun order => and_congr_right fun horder => forall_congr' fun slot =>
          h.overlay3_agrees (domainCase.marker_supers true) hdefaults horder slot
  · intro roles object hobject
    rw [roleInstanceOverlay] at hobject
    split_ifs at hobject
    exact exists_congr fun order => and_congr_right fun horder => forall_congr' fun slot =>
      h.overlay_agrees hobject horder slot

end

inductive DemoRole where
  | controlPlane
  | marker
  | shared
  | base
  | inheriting
  | plain
deriving DecidableEq

def demoObjects : Objects DemoRole String String where
  slots
    | .controlPlane => [("name", .constant "control-plane"), ("kind", .constant "system")]
    | .marker => [("domain-case/key", .constant "case-key")]
    | .shared => [("reviewer", .constant "shared-reviewer")]
    | .base => [("budget", .constant "base-budget")]
    | .inheriting => [("agent-id", .constant "inheriting-agent")]
    | .plain => [("agent-id", .constant "plain-agent"), ("domain-case/key", .constant "spoofed-key")]
  supers
    | .shared => [.controlPlane]
    | .inheriting => [.base]
    | _ => []
  depth
    | .shared => 1
    | .inheriting => 1
    | _ => 0
  depth_lt := by
    intro role super hsuper
    cases role <;> simp_all

def demoOrders : List (List DemoRole × List DemoRole) :=
  [([], []), ([.controlPlane], [.controlPlane]), ([.base], [.base]),
    ([.plain, .base, .controlPlane], [.plain, .base, .controlPlane]),
    ([.marker, .plain, .shared, .controlPlane], [.marker, .plain, .shared, .controlPlane]),
    ([.marker, .inheriting, .shared, .controlPlane],
      [.marker, .inheriting, .base, .shared, .controlPlane])]

def demoLinearize (roles : List DemoRole) : Option (List DemoRole) := demoOrders.lookup roles

theorem mem_demoOrders {roles order : List DemoRole} (h : demoLinearize roles = some order) :
    (roles, order) ∈ demoOrders := by
  obtain ⟨before, after, heq, -⟩ := lookup_eq_some_iff.1 h
  rw [heq]
  exact mem_append_right _ mem_cons_self

theorem demo_lawful : Lawful demoObjects demoLinearize where
  nodup h := by
    have hall : ∀ entry ∈ demoOrders, entry.2.Nodup := by decide
    exact hall _ (mem_demoOrders h)
  keeps h := by
    have hall : ∀ entry ∈ demoOrders, entry.1.Sublist entry.2 := by decide
    exact hall _ (mem_demoOrders h)
  supers_after h := by
    have hall : ∀ entry ∈ demoOrders, ∀ role ∈ entry.2, ∀ super ∈ demoObjects.supers role,
      entry.2.idxOf role < entry.2.idxOf super := by decide
    exact hall _ (mem_demoOrders h)
  mem_iff {roles order} h role := by
    have hclosed : ∀ entry ∈ demoOrders, ∀ role ∈ entry.2, ∀ super ∈ demoObjects.supers role,
      super ∈ entry.2 := by decide
    have hkept : ∀ entry ∈ demoOrders, ∀ role ∈ entry.1, role ∈ entry.2 := by decide
    have hreached : ∀ entry ∈ demoOrders, ∀ role ∈ entry.2, role ∈ entry.1 ∨
      ∃ start ∈ entry.1, role ∈ demoObjects.supers start := by decide
    constructor
    · intro hrole
      rcases hreached _ (mem_demoOrders h) role hrole with hmem | ⟨start, hstart, hsuper⟩
      · exact ⟨role, hmem, .refl⟩
      · exact ⟨start, hstart, .single hsuper⟩
    · rintro ⟨start, hstart, hinherits⟩
      induction hinherits with
      | refl => exact hkept _ (mem_demoOrders h) start hstart
      | tail _ hsuper ih => exact hclosed _ (mem_demoOrders h) _ ih _ hsuper
  monotone {roles order} h role hrole := by
    have hall : ∀ entry ∈ demoOrders, ∀ role ∈ entry.2,
      ((demoObjects.precedence demoLinearize role).any fun own => own.isSublist entry.2) = true := by
      decide
    obtain ⟨own, hown, hsub⟩ := (Option.any_eq_true _ _).1 (hall _ (mem_demoOrders h) role hrole)
    exact ⟨own, hown, isSublist_iff_sublist.1 hsub⟩

theorem demo_compatible (role : DemoRole) :
    roleInstanceOverlayCompatible demoObjects role = true := by
  -- the path holds roles of a greater depth
  suffices h : ∀ n role path, demoObjects.depth role = n →
      (∀ other ∈ path, demoObjects.depth role < demoObjects.depth other) →
      roleInstanceOverlayCompatibleSeen demoObjects role path = true from
    h _ role [] rfl fun _ => nofun
  intro n
  induction n using Nat.strongRecOn with
  | ind n ih =>
    rintro role path rfl hpath
    rw [roleInstanceOverlayCompatibleSeen, Bool.and_eq_true, Bool.and_eq_true, decide_eq_true_eq,
      all_eq_true]
    refine ⟨⟨fun hmem => Nat.lt_irrefl _ (hpath role hmem), by cases role <;> rfl⟩, fun super _ => ?_⟩
    have hlt := demoObjects.depth_lt super.2
    exact ih _ hlt _ _ rfl
      (forall_mem_cons.2 ⟨hlt, fun other hother => Nat.lt_trans hlt (hpath other hother)⟩)

def demoCase : DomainCase demoObjects where
  marker _ := .marker
  sharedPrototype := .shared
  instanceOverlayCompatible := true
  marker_supers _ := rfl
  compatible_eq := (demo_compatible .shared).symm

def demoInstance (localRole : DemoRole) : Instance String String :=
  roleInstanceOverlay3 demoObjects .marker localRole
    [("reviewer", "shared-reviewer"), ("name", "control-plane"), ("kind", "system")]

theorem demo_instantiated (localRole : DemoRole) :
    domainCaseInstantiateValid demoObjects demoLinearize .controlPlane demoCase localRole =
      .overlay (demoInstance localRole) := by
  have hdefaults : roleInstanceOverlayDefaults demoObjects demoLinearize .shared =
      some [("reviewer", "shared-reviewer"), ("name", "control-plane"), ("kind", "system")] := by
    decide
  rw [domainCaseInstantiateValid, demo_compatible, domainCaseComposeInstance]
  simp [demoCase, hdefaults, demoInstance]

/-- A local role without supers, and a list of two of them. -/
theorem overlay_iff_plain : Agrees demoObjects demoLinearize .controlPlane
      [.marker, .plain, .shared] (demoInstance .plain).ref ∧
    ∃ object, roleInstanceOverlay demoObjects demoLinearize [.plain, .base] = some object ∧
      Agrees demoObjects demoLinearize .controlPlane [.plain, .base] object.ref := by
  have hagrees := overlay_iff demo_lawful .controlPlane
  obtain ⟨object, hobject⟩ : ∃ object, roleInstanceOverlay demoObjects demoLinearize
      [.plain, .base] = some object :=
    Option.isSome_iff_exists.1 (by
      rw [roleInstanceOverlay, if_pos ⟨by simp, by simp [demo_compatible]⟩]
      rfl)
  refine ⟨(hagrees.1 demoCase .plain _ (demo_instantiated .plain)).2
    ⟨[.marker, .plain, .shared, .controlPlane], by decide,
      fun slot hmarker hplain _ first hfirst => ?_⟩,
    object, hobject, (hagrees.2 _ object hobject).2
      ⟨[.plain, .base, .controlPlane], by decide, fun slot role hrole first hfirst => ?_⟩⟩
  · have hsome := isSome_of_definer hfirst
    cases first with
    | marker => exact absurd hmarker (Option.isSome_iff_ne_none.1 hsome)
    | plain => exact absurd hplain (Option.isSome_iff_ne_none.1 hsome)
    | shared => exact .inl .refl
    | controlPlane => exact .inl (.single (by decide))
    | base | inheriting => exact absurd (mem_of_definer hfirst) (by decide)
  · have hown : ∀ role ∈ [DemoRole.plain, .base], demoObjects.hasSlot demoLinearize role slot =
        (demoObjects.own slot role).isSome := by
      intro role hmem
      have hslots : demoObjects.allSlots demoLinearize role =
          some ((demoObjects.slots role).map Prod.fst) := by
        rcases mem_pair.1 hmem with rfl | rfl <;> rfl
      rw [Objects.hasSlot, hslots, Option.any_some, Objects.own, Bool.eq_iff_iff,
        contains_iff_mem, Option.isSome_iff_ne_none, Ne, slotSpec?_eq_none, not_not]
    have hlisted : definer (demoObjects.own slot) [.plain, .base] = some role := by
      rw [← hrole, definer]
      simp only [List.find?_cons, List.find?_nil, hown .plain (by simp), hown .base (by simp)]
    rw [show [DemoRole.plain, .base, .controlPlane] = [.plain, .base] ++ [.controlPlane] from rfl,
      definer, List.find?_append, ← definer, hlisted] at hfirst
    obtain rfl := Option.some.inj hfirst
    exact .inl .refl

/-- The slots of a super of the local role are missing. -/
theorem inheriting_disagrees : Lawful demoObjects demoLinearize ∧ ∃ object,
    domainCaseInstantiateValid demoObjects demoLinearize .controlPlane demoCase .inheriting =
      .overlay object ∧
    ¬Agrees demoObjects demoLinearize .controlPlane [.marker, .inheriting, .shared] object.ref := by
  refine ⟨demo_lawful, _, demo_instantiated .inheriting, ?_⟩
  rintro ⟨order, horder, hagrees⟩
  have heq : order = [.marker, .inheriting, .base, .shared, .controlPlane] :=
    Option.some.inj (horder.symm.trans (by decide))
  subst heq
  exact absurd (hagrees "budget") (by decide)

end PooFlow.Roles
