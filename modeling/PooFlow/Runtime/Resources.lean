import Mathlib.Data.List.FinRange
import PooFlow.Foundation.Guard
import PooFlow.Runtime.Types

namespace PooFlow

open Foundation

/-- `slot`: resource ids count from one. -/
def slot (resourceId : ℕ) : Option (Fin maxResources) :=
  if h : resourceId = 0 ∨ maxResources < resourceId then none
  else some ⟨resourceId - 1, by omega⟩

def slotId (i : Fin maxResources) : ℕ := i.val + 1

@[simp] theorem slot_eq_some {resourceId : ℕ} {i : Fin maxResources} :
    slot resourceId = some i ↔ resourceId = slotId i := by
  unfold slot slotId
  split
  · next h =>
    have := i.isLt
    constructor
    · intro hnone
      cases hnone
    · intro heq
      omega
  · next h =>
    simp only [Option.some.injEq, Fin.ext_iff]
    omega

theorem slotId_injective : Function.Injective slotId := by
  intro i j h
  exact Fin.ext (Nat.succ.inj h)

@[simp] theorem slotId_inj {i j : Fin maxResources} : slotId i = slotId j ↔ i = j :=
  slotId_injective.eq_iff

namespace Runtime

def modify (rt : Runtime) (i : Fin maxResources) (f : Resource → Resource) : Runtime :=
  { rt with resources := Function.update rt.resources i (f (rt.resources i)) }

variable (rt : Runtime) (i : Fin maxResources) (f : Resource → Resource)

@[simp] theorem modify_self : (rt.modify i f).resources i = f (rt.resources i) :=
  Function.update_self ..

@[simp] theorem modify_of_ne {i j : Fin maxResources} (h : j ≠ i) :
    (rt.modify i f).resources j = rt.resources j :=
  Function.update_of_ne h ..

theorem modify_apply (j : Fin maxResources) : (rt.modify i f).resources j =
      if j = i then f (rt.resources i) else rt.resources j := by
  by_cases h : j = i
  · subst h; simp
  · simp [h]

end Runtime

/-- `resolve`: the checks in the order the code makes them. The kind tested is
the one the caller wrote into the handle, not the one stored in the slot. -/
def resolve (rt : Runtime) (instance_ handle : Handle) (kind : Kind) :
    Except Status (Fin maxResources) := do
  guardElse (handle.instanceId = instance_.instanceId) .crossInstanceHandle
  guardElse (handle.kind = kind) .wrongHandleKind
  let i ← presentElse (slot handle.resourceId) .staleHandle
  guardElse ((rt.resources i).generation = handle.generation) .staleHandle
  guardElse ((rt.resources i).released = false) .alreadyReleased
  guardElse ((rt.resources i).alive = true) .staleHandle
  guardElse ((rt.resources i).instanceId = instance_.instanceId) .crossInstanceHandle
  return i

def instanceEntry (rt : Runtime) (instance_ : Handle) : Except Status (Fin maxResources) :=
  resolve rt instance_ instance_ .instance_

variable {rt : Runtime} {handle : Handle} {kind : Kind} {i : Fin maxResources}

theorem resolve_eq_ok {instance_ : Handle} : resolve rt instance_ handle kind = .ok i ↔
      handle.instanceId = instance_.instanceId ∧ handle.kind = kind ∧
      handle.resourceId = slotId i ∧
      (rt.resources i).generation = handle.generation ∧
      (rt.resources i).released = false ∧ (rt.resources i).alive = true ∧
      (rt.resources i).instanceId = instance_.instanceId := by
  simp only [resolve, bind_eq_ok, guardElse_eq_ok, presentElse_eq_ok, slot_eq_some, exists_const,
    pure_eq_ok]
  constructor
  · rintro ⟨hinst, hkind, j, hslot, hgen, hrel, halive, hent, rfl⟩
    exact ⟨hinst, hkind, hslot, hgen, hrel, halive, hent⟩
  · rintro ⟨hinst, hkind, hslot, hgen, hrel, halive, hent⟩
    exact ⟨hinst, hkind, i, hslot, hgen, hrel, halive, hent, rfl⟩

theorem resourceId_of_resolve {inst : Handle} {j : Fin maxResources}
    (h : resolve rt inst handle kind = .ok j) : handle.resourceId = slotId i ↔ i = j := by
  rw [(resolve_eq_ok.1 h).2.2.1, slotId_inj, eq_comm]

/-- No check of `resolve` fails with status OK. -/
theorem resolve_ne_error_ok {instance_ : Handle} :
    resolve rt instance_ handle kind ≠ .error .ok := by
  simp [resolve, bind_eq_error]

def freeSlot (rt : Runtime) : Option (Fin maxResources) :=
  (List.finRange maxResources).find? (fun i => !(rt.resources i).alive)

theorem freeSlot_dead (h : freeSlot rt = some i) : (rt.resources i).alive = false := by
  simpa using List.find?_some h

/-- The 32-bit generation after `generation`, skipping zero. -/
def nextGeneration (generation : ℕ) : ℕ :=
  if (generation + 1) % 2 ^ 32 = 0 then 1 else (generation + 1) % 2 ^ 32

/-- The zeroed entry that `allocate_resource` leaves in a slot. -/
def Resource.fresh (previous : Resource) (instanceId : ℕ) (kind : Kind) : Resource where
  alive := true
  kind := kind
  generation := nextGeneration previous.generation
  instanceId := instanceId

def handleOf (rt : Runtime) (i : Fin maxResources) : Handle where
  instanceId := (rt.resources i).instanceId
  resourceId := slotId i
  generation := (rt.resources i).generation
  kind := (rt.resources i).kind

/-- The table after the allocation of slot `i`. -/
def Runtime.allocate (rt : Runtime) (i : Fin maxResources) (instanceId : ℕ) (kind : Kind) :
    Runtime :=
  rt.modify i (fun r => r.fresh instanceId kind)

/-- `allocate_resource`: the slot taken and the table after it; the handle
written out is `handleOf` of that slot. -/
def allocateResource (rt : Runtime) (instanceId : ℕ) (kind : Kind) :
    Except Status (Fin maxResources × Runtime) := do
  let i ← presentElse (freeSlot rt) .allocationFailure
  return (i, rt.allocate i instanceId kind)

theorem allocateResource_eq_ok {rt' : Runtime} {instanceId : ℕ} :
    allocateResource rt instanceId kind = .ok (i, rt') ↔
      freeSlot rt = some i ∧ rt' = rt.allocate i instanceId kind := by
  simp only [allocateResource, bind_eq_ok, presentElse_eq_ok, pure_eq_ok, Prod.mk.injEq]
  constructor
  · rintro ⟨j, hfree, rfl, rfl⟩
    exact ⟨hfree, rfl⟩
  · rintro ⟨hfree, rfl⟩
    exact ⟨i, hfree, rfl, rfl⟩

theorem allocateResource_of_freeSlot (instanceId : ℕ) (kind : Kind) (hfree : freeSlot rt = some i) :
    allocateResource rt instanceId kind = .ok (i, rt.allocate i instanceId kind) :=
  allocateResource_eq_ok.2 ⟨hfree, rfl⟩

/-- `release_resource`: kind, generation and counters stay in the dead slot. -/
def Resource.release (r : Resource) : Resource :=
  { r with
    bytes := none
    queue := { r.queue with pending := [], capacity := 0 }
    released := true
    alive := false }

/-- What a call leaves behind: the status it returns, what it wrote through its
result pointer, and the table. -/
structure Outcome (ρ : Type*) where
  status : Status
  written : Option ρ := none
  runtime : Runtime

namespace Outcome

variable {ρ : Type*}

/-- A call that returns `status` and changes nothing. -/
def rejected (rt : Runtime) (status : Status) : Outcome ρ := { status, runtime := rt }

def accepted (rt : Runtime) (value : ρ) : Outcome ρ :=
  { status := .ok, written := some value, runtime := rt }

def ofAdmission {α : Type*} (rt : Runtime) (admission : Except Status α)
    (effect : α → Outcome ρ) : Outcome ρ :=
  match admission with
  | .ok a => effect a
  | .error status => rejected rt status

variable (rt : Runtime) (value : ρ) {α : Type*} {admission : Except Status α}
  {effect : α → Outcome ρ}

@[simp] theorem rejected_runtime (status : Status) :
    (rejected rt status : Outcome ρ).runtime = rt := rfl

@[simp] theorem accepted_runtime : (accepted rt value).runtime = rt := rfl

@[simp] theorem accepted_written : (accepted rt value).written = some value := rfl

@[simp] theorem accepted_status : (accepted rt value).status = .ok := rfl

theorem ofAdmission_cases {rt : Runtime} {P : Outcome ρ → Prop}
    (hrejected : ∀ status, admission = .error status → P (rejected rt status))
    (hadmitted : ∀ a, admission = .ok a → P (effect a)) : P (ofAdmission rt admission effect) := by
  cases admission with
  | ok a => exact hadmitted a rfl
  | error status => exact hrejected status rfl

theorem ofAdmission_eq (admission : Except Status α) (effect : α → Outcome ρ) :
    (∃ status, admission = .error status ∧
        ofAdmission rt admission effect = rejected rt status) ∨
      ∃ a, admission = .ok a ∧ ofAdmission rt admission effect = effect a := by
  cases admission with
  | ok a => exact Or.inr ⟨a, rfl, rfl⟩
  | error status => exact Or.inl ⟨status, rfl, rfl⟩

theorem admitted_of_ok {rt : Runtime} (hne : admission ≠ .error .ok)
    (h : (ofAdmission rt admission effect).status = .ok) :
    ∃ a, admission = .ok a ∧ ofAdmission rt admission effect = effect a := by
  rcases ofAdmission_eq rt admission effect with ⟨status, herror, heq⟩ | hadmission
  · rw [heq] at h
    obtain rfl : status = .ok := h
    exact absurd herror hne
  · exact hadmission

theorem ofAdmission_ok_iff {rt : Runtime} (hne : admission ≠ .error .ok)
    (heffect : ∀ a, (effect a).status = .ok) :
    (ofAdmission rt admission effect).status = .ok ↔ ∃ a, admission = .ok a := by
  constructor
  · intro h
    obtain ⟨a, hadmission, _⟩ := admitted_of_ok hne h
    exact ⟨a, hadmission⟩
  · rintro ⟨a, rfl⟩
    exact heffect a

end Outcome

end PooFlow
