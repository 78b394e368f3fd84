import Mathlib.Data.List.Induction
import Mathlib.Data.List.Nodup

/-! The registry of `core/flow-strand.ss`. Of a descriptor only its name is read; hash tables are
functions. -/

namespace PooFlow.Core

open List Function

variable {δ : Type} (strandName : δ → String)

structure StrandRegistry (δ : Type) where
  name : String
  descriptors : List δ
  coreRequirements : List String

def descriptorsReplace (replacement : δ) : List δ → List δ
  | [] => [replacement]
  | descriptor :: descriptors =>
    if strandName replacement = strandName descriptor then replacement :: descriptors
    else descriptor :: descriptorsReplace replacement descriptors

def registryExtend (registry : StrandRegistry δ) (descriptor : δ) : StrandRegistry δ :=
  { registry with descriptors := descriptorsReplace strandName descriptor registry.descriptors }

/-- The tables that `loop-extra` fills; a key is `override-seen` if it has an override. -/
structure MergeTables (δ : Type) where
  overrides : String → Option δ
  newSeen : String → Bool
  newKeys : List String

/-- One round of `loop-extra`. -/
def MergeTables.add (baseSeen : String → Bool) (tables : MergeTables δ) (descriptor : δ) :
    MergeTables δ :=
  let key := strandName descriptor
  let isOld := baseSeen key || tables.newSeen key
  { overrides := Function.update tables.overrides key (some descriptor)
    newSeen := if isOld then tables.newSeen else Function.update tables.newSeen key true
    newKeys := if isOld then tables.newKeys else key :: tables.newKeys }

def finishExistingRev (overrides : String → Option δ) : List δ → (String → Bool) → List δ → List δ
  | [], _, resultRev => resultRev
  | descriptor :: remaining, replacementUsed, resultRev =>
    let key := strandName descriptor
    match if replacementUsed key then none else overrides key with
    | some override =>
      finishExistingRev overrides remaining (Function.update replacementUsed key true)
        (override :: resultRev)
    | none => finishExistingRev overrides remaining replacementUsed (descriptor :: resultRev)

def finishNewRev (overrides : String → Option δ) : List String → List δ → List δ
  | [], resultRev => resultRev
  | key :: keys, resultRev => finishNewRev overrides keys ((overrides key).toList ++ resultRev)

def registryMerge (registry : StrandRegistry δ) (descriptors : List δ) : StrandRegistry δ :=
  if descriptors = [] then registry
  else
    let baseSeen := fun key => registry.descriptors.any (strandName · = key)
    let tables := descriptors.foldl (MergeTables.add strandName baseSeen)
      ⟨fun _ => none, fun _ => false, []⟩
    { registry with
      descriptors := (finishNewRev tables.overrides tables.newKeys.reverse
        (finishExistingRev strandName tables.overrides registry.descriptors (fun _ => false)
          [])).reverse }

variable {overrides : String → Option δ} {descriptors : List δ} {descriptor : δ}

def settled : (String → Option δ) → List δ → List δ
  | _, [] => []
  | overrides, descriptor :: descriptors =>
    let key := strandName descriptor
    (overrides key).getD descriptor :: settled (Function.update overrides key none) descriptors

theorem finishExistingRev_eq (used : String → Bool) (resultRev : List δ) :
    finishExistingRev strandName overrides descriptors used resultRev =
      (settled strandName (fun key => if used key then none else overrides key)
        descriptors).reverse ++ resultRev := by
  induction descriptors generalizing used resultRev with
  | nil => rfl
  | cons descriptor descriptors ih =>
    rw [finishExistingRev, settled]
    split
    · next override hoverride =>
      rw [ih, hoverride, reverse_cons, append_assoc]
      congr 3
      funext key
      by_cases hkey : key = strandName descriptor <;> simp [hkey]
    · next hnone =>
      have hkept := update_eq_self (strandName descriptor)
        fun key => if used key then none else overrides key
      rw [hnone] at hkept
      rw [ih, hnone, hkept, reverse_cons, append_assoc]
      rfl

theorem settled_none : settled strandName (fun _ => none) descriptors = descriptors := by
  induction descriptors with
  | nil => rfl
  | cons descriptor descriptors ih => rw [settled, update_eq_self, ih]; rfl

theorem finishNewRev_eq (keys : List String) (resultRev : List δ) :
    finishNewRev overrides keys resultRev =
      (keys.filterMap overrides).reverse ++ resultRev := by
  induction keys generalizing resultRev with
  | nil => rfl
  | cons key keys ih =>
    rw [finishNewRev, ih, filterMap_cons]
    cases overrides key <;> simp

variable {strandName}

def Named (strandName : δ → String) (overrides : String → Option δ) : Prop :=
  ∀ key override, overrides key = some override → strandName override = key

theorem Named.none (h : Named strandName overrides) (key : String) :
    Named strandName (update overrides key none) := by
  intro other override hother
  by_cases heq : other = key
  · simp [heq] at hother
  · exact h other override (by simpa [heq] using hother)

/-- **One more override** replaces the first descriptor of its name, or follows them all. -/
theorem descriptorsReplace_settled (h : Named strandName overrides) :
    descriptorsReplace strandName descriptor (settled strandName overrides descriptors) =
      settled strandName (update overrides (strandName descriptor) (some descriptor))
        (if descriptors.any (strandName · = strandName descriptor) then descriptors
          else descriptors ++ [descriptor]) := by
  induction descriptors generalizing overrides with
  | nil => simp [settled, descriptorsReplace]
  | cons other descriptors ih =>
    have hother : strandName ((overrides (strandName other)).getD other) = strandName other := by
      cases hoverride : overrides (strandName other) with
      | none => rfl
      | some override => exact h _ _ hoverride
    rw [settled, descriptorsReplace, hother, any_cons]
    by_cases hname : strandName descriptor = strandName other
    · simp [hname, settled]
    · rw [if_neg hname, ih (h.none _), decide_eq_false (Ne.symm hname), Bool.false_or,
        update_comm (Ne.symm hname)]
      split <;> simp [settled, update_of_ne (Ne.symm hname)]

theorem filterMap_update_of_notMem {keys : List String} {key : String} (h : key ∉ keys) :
    keys.filterMap (update overrides key none) = keys.filterMap overrides :=
  filterMap_congr fun _ hmem => update_of_ne (ne_of_mem_of_not_mem hmem h) ..

theorem settled_append {firsts : List δ} (honce : (firsts.map strandName).Nodup)
    (hfirst : ∀ key ∈ firsts.map strandName,
      key ∉ descriptors.map strandName ∧ (overrides key).isSome) :
    settled strandName overrides (descriptors ++ firsts) =
      settled strandName overrides descriptors ++ (firsts.map strandName).filterMap overrides := by
  induction descriptors generalizing overrides with
  | nil =>
    rw [nil_append, settled, nil_append]
    induction firsts generalizing overrides with
    | nil => rfl
    | cons first firsts ih =>
      rw [map_cons, nodup_cons] at honce
      rw [map_cons, forall_mem_cons] at hfirst
      obtain ⟨override, hoverride⟩ := Option.isSome_iff_exists.1 hfirst.1.2
      have hrest : ∀ key ∈ firsts.map strandName, key ∉ [].map strandName ∧
          (update overrides (strandName first) none key).isSome := fun key hkey => by
        rw [update_of_ne (ne_of_mem_of_not_mem hkey honce.1)]
        exact hfirst.2 key hkey
      rw [settled, ih honce.2 hrest, map_cons, filterMap_cons_some hoverride,
        filterMap_update_of_notMem honce.1, hoverride]
      rfl
  | cons other descriptors ih =>
    have hother : strandName other ∉ firsts.map strandName := fun hmem =>
      (hfirst _ hmem).1 (mem_cons_self ..)
    have hrest : ∀ key ∈ firsts.map strandName, key ∉ descriptors.map strandName ∧
        (update overrides (strandName other) none key).isSome := fun key hkey => by
      rw [update_of_ne (ne_of_mem_of_not_mem hkey hother)]
      exact ⟨fun hmem => (hfirst key hkey).1 (mem_cons_of_mem _ hmem), (hfirst key hkey).2⟩
    rw [cons_append, settled, settled, ih hrest, filterMap_update_of_notMem hother]
    rfl

structure MergeTables.Built (strandName : δ → String) (base firsts : List δ)
    (tables : MergeTables δ) : Prop where
  named : Named strandName tables.overrides
  keys : tables.newKeys.reverse = firsts.map strandName
  new : ∀ key, tables.newSeen key = firsts.any (strandName · = key)
  once : (firsts.map strandName).Nodup
  first : ∀ key ∈ firsts.map strandName, key ∉ base.map strandName ∧ (tables.overrides key).isSome

/-- **One round of a merge is one extension.** -/
theorem MergeTables.Built.add {base firsts : List δ} {tables : MergeTables δ}
    (h : tables.Built strandName base firsts) (descriptor : δ) :
    let next := tables.add strandName (fun key => base.any (strandName · = key)) descriptor
    ∃ firsts', next.Built strandName base firsts' ∧
      descriptorsReplace strandName descriptor
          (settled strandName tables.overrides (base ++ firsts)) =
        settled strandName next.overrides (base ++ firsts') := by
  have hnamed : Named strandName
      (update tables.overrides (strandName descriptor) (some descriptor)) := by
    intro key override hoverride
    by_cases hkey : key = strandName descriptor
    · subst hkey
      rw [update_self, Option.some.injEq] at hoverride
      rw [← hoverride]
    · exact h.named key override (by simpa [hkey] using hoverride)
  have hfound : ∀ key ∈ firsts.map strandName, key ∉ base.map strandName ∧
      (update tables.overrides (strandName descriptor) (some descriptor) key).isSome := by
    intro key hkey
    by_cases heq : key = strandName descriptor
    · exact ⟨(h.first key hkey).1, by simp [heq]⟩
    · simpa [heq] using h.first key hkey
  rw [descriptorsReplace_settled h.named, any_append, ← h.new]
  cases hold : base.any (strandName · = strandName descriptor) ||
    tables.newSeen (strandName descriptor)
  · refine ⟨firsts ++ [descriptor], ?_, by simp [MergeTables.add]⟩
    simp only [MergeTables.add, hold]
    rw [h.new] at hold
    have hnew : strandName descriptor ∉ base.map strandName ∧
        strandName descriptor ∉ firsts.map strandName := by simpa using hold
    have hkeys : (firsts ++ [descriptor]).map strandName =
        firsts.map strandName ++ [strandName descriptor] := map_append
    refine ⟨hnamed, by simp [h.keys], fun key => ?_, ?_, ?_⟩
    · by_cases hkey : key = strandName descriptor
      · simp [hkey]
      · simp [hkey, Ne.symm hkey, h.new]
    · rw [hkeys, nodup_append_comm]
      exact nodup_cons.2 ⟨hnew.2, h.once⟩
    · rw [hkeys, forall_mem_append, forall_mem_singleton]
      exact ⟨hfound, hnew.1, by simp⟩
  · refine ⟨firsts, ?_, by simp [MergeTables.add]⟩
    simp only [MergeTables.add, hold, if_true]
    exact ⟨hnamed, h.keys, h.new, h.once, hfound⟩

/-- **A merge is one extension after the other**, with names that come twice. -/
theorem registryMerge_eq_foldl (strandName : δ → String) (registry : StrandRegistry δ)
    (descriptors : List δ) : registryMerge strandName registry descriptors =
      descriptors.foldl (registryExtend strandName) registry := by
  let baseSeen := fun key => registry.descriptors.any (strandName · = key)
  let initial : MergeTables δ := ⟨fun _ => none, fun _ => false, []⟩
  have hrun : ∀ descriptors : List δ, ∃ firsts,
      (descriptors.foldl (MergeTables.add strandName baseSeen) initial).Built strandName
          registry.descriptors firsts ∧
        descriptors.foldl (registryExtend strandName) registry =
          { registry with
            descriptors := settled strandName
              (descriptors.foldl (MergeTables.add strandName baseSeen) initial).overrides
              (registry.descriptors ++ firsts) } := by
    intro descriptors
    induction descriptors using List.reverseRecOn with
    | nil =>
      refine ⟨[], ⟨nofun, rfl, by simp [initial], nodup_nil, by simp⟩, ?_⟩
      rw [foldl_nil, foldl_nil, append_nil, settled_none]
    | append_singleton descriptors descriptor ih =>
      obtain ⟨firsts, hbuilt, hmerged⟩ := ih
      obtain ⟨firsts', hbuilt', hmerged'⟩ := hbuilt.add descriptor
      rw [foldl_append, foldl_append, hmerged]
      exact ⟨firsts', hbuilt', by simp [registryExtend, baseSeen, hmerged']⟩
  rw [registryMerge]
  split
  · next hempty => rw [hempty]; rfl
  · obtain ⟨firsts, hbuilt, hmerged⟩ := hrun descriptors
    rw [hmerged, settled_append hbuilt.once hbuilt.first, ← hbuilt.keys]
    simp [finishNewRev_eq, finishExistingRev_eq, initial, baseSeen]

end PooFlow.Core
