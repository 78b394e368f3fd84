import PooFlow.Semantic.Organization
import Mathlib.Data.Finset.Card

namespace PooFlow.Semantic

open Foundation List

variable {Id : Type} [DecidableEq Id] {writing : Writing Id} {bundle : Bundle Id}

def Marked (bundle : Bundle Id) (authority : Id) : Prop :=
  ∃ capability ∈ bundle.capabilities, capability.id = authority ∧ capability.delegable = true

def Declared (bundle : Bundle Id) (id : Id) : Prop :=
  ∃ capability ∈ bundle.capabilities, capability.id = id

/-- **Attenuated authority**, of one child under one root. -/
structure AttenuatedUnder (bundle : Bundle Id) (root child : Agent Id) : Prop where
  roots : bundle.roots = [root]
  children : bundle.children = [child]
  marked : ∀ authority ∈ child.authorities, Marked bundle authority
  held : ∀ authority ∈ child.authorities, authority ∈ root.authorities
  delegated : ∀ authority ∈ child.authorities, ⟨root.id, child.id, authority⟩ ∈ bundle.delegations
  smaller : ∃ authority ∈ root.authorities, authority ∉ child.authorities
  visible : ∃ context, bundle.context? child.id = some context ∧
    ∀ id ∈ context.visible, id ∈ root.contextVisible

/-- **Attenuated authority** of an organization. -/
structure Attenuated (bundle : Bundle Id) : Prop where
  hierarchy : ∃ root child, AttenuatedUnder bundle root child
  effects : ∀ effect ∈ bundle.effects, Declared bundle effect.capabilityId
  transitions : ∀ transition ∈ bundle.transitions, Declared bundle transition.capabilityId

omit [DecidableEq Id] in
@[simp] theorem unlessHolds_eq_nil {p : Prop} [Decidable p] {code : String}
    {path : List (Datum Id)} {expected observed : Datum Id} :
    unlessHolds p code path expected observed = [] ↔ p := by
  unfold unlessHolds
  split_ifs with h <;> simp [h]

theorem semanticSubset_iff {child parent : List Id} :
    semanticSubset child parent = true ↔ ∀ value ∈ child, value ∈ parent := by
  simp [semanticSubset]

theorem lacks_of_properSubset {child parent : List Id}
    (h : semanticProperSubset child parent = true) :
    (∀ value ∈ child, value ∈ parent) ∧ ∃ value ∈ parent, value ∉ child := by
  rw [semanticProperSubset, Bool.and_eq_true, semanticSubset_iff, decide_eq_true_eq,
    semanticUniqueCount, semanticUniqueCount, ← card_toFinset, ← card_toFinset] at h
  refine ⟨h.1, ?_⟩
  by_contra hback
  push Not at hback
  have hsubset : parent.toFinset ⊆ child.toFinset := fun value hvalue =>
    mem_toFinset.2 (hback value (mem_toFinset.1 hvalue))
  exact absurd h.2 (not_lt.2 (Finset.card_le_card hsubset))

omit [DecidableEq Id] in
theorem declared_iff {id : Id} :
    id ∈ bundle.capabilities.map Capability.id ↔ Declared bundle id := mem_map

theorem hierarchyDiagnostics_eq_nil {parent child : Agent Id}
    (h : hierarchyDiagnostics bundle parent child = []) :
    semanticProperSubset child.authorities parent.authorities = true ∧
    (∃ context, bundle.context? child.id = some context ∧
      ∀ id ∈ context.visible, id ∈ parent.contextVisible) ∧
    ∀ authority ∈ child.authorities, ⟨parent.id, child.id, authority⟩ ∈ bundle.delegations := by
  rw [hierarchyDiagnostics] at h
  simp only [append_eq_nil_iff, unlessHolds_eq_nil, flatMap_eq_nil_iff] at h
  obtain ⟨⟨⟨-, hsubset⟩, hcontext⟩, hdelegated⟩ := h
  refine ⟨hsubset, ?_, hdelegated⟩
  cases hfound : bundle.context? child.id with
  | none =>
    rw [hfound] at hcontext
    cases hcontext
  | some context =>
    rw [hfound] at hcontext
    exact ⟨context, rfl, semanticSubset_iff.1 (unlessHolds_eq_nil.1 hcontext)⟩

theorem rootDiagnostics_eq_nil (h : rootDiagnostics bundle = []) :
    ∃ root child, bundle.roots = [root] ∧ bundle.children = [child] ∧
      hierarchyDiagnostics bundle root child = [] := by
  rw [rootDiagnostics] at h
  simp only [append_eq_nil_iff, unlessHolds_eq_nil] at h
  obtain ⟨⟨hroots, hchildren⟩, hhierarchy⟩ := h
  obtain ⟨root, hroot⟩ := length_eq_one_iff.1 hroots
  obtain ⟨child, hchild⟩ := length_eq_one_iff.1 hchildren
  rw [hroot, hchild] at hhierarchy
  exact ⟨root, child, hroot, hchild, hhierarchy⟩

/-- **What validation has checked.** -/
theorem validate_eq_nil {identity : Option (Identity Id)}
    (h : (bundle.validate writing identity).diagnostics = []) :
    rootDiagnostics bundle = [] ∧ effectDiagnostics bundle = [] ∧
      transitionDiagnostics bundle = [] := by
  rw [Bundle.validate] at h
  cases hresult : bundle.validateUnsafe writing identity with
  | error error =>
    rw [hresult] at h
    cases h
  | ok receipt =>
    rw [hresult] at h
    rw [Bundle.validateUnsafe] at hresult
    cases hcanonical : bundle.normalize writing with
    | error error =>
      rw [hcanonical] at hresult
      cases hresult
    | ok canonical =>
      rw [hcanonical] at hresult
      obtain rfl := Except.ok.inj hresult
      simp only [append_eq_nil_iff] at h
      obtain ⟨⟨⟨⟨⟨-, hroots⟩, heffects⟩, htransitions⟩, -⟩, -⟩ := h
      exact ⟨hroots, heffects, htransitions⟩

/-- **Authority is attenuated exactly as far as the child holds what may be
delegated**: of a bundle without diagnostics, everything else has been checked. -/
theorem attenuated_iff (writing : Writing Id) (bundle : Bundle Id) (identity : Option (Identity Id))
    (h : (bundle.validate writing identity).diagnostics = []) : Attenuated bundle ↔
      ∀ child ∈ bundle.children, ∀ authority ∈ child.authorities, Marked bundle authority := by
  obtain ⟨hroots, heffects, htransitions⟩ := validate_eq_nil h
  obtain ⟨root, child, hroot, hchild, hhierarchy⟩ := rootDiagnostics_eq_nil hroots
  obtain ⟨hsubset, hvisible, hdelegated⟩ := hierarchyDiagnostics_eq_nil hhierarchy
  constructor
  · rintro ⟨⟨root', child', hunder⟩, -, -⟩ other hother
    rw [hunder.children, mem_singleton] at hother
    exact hother ▸ hunder.marked
  · intro hmarked
    have hheld : ∀ authority ∈ child.authorities, authority ∈ root.authorities :=
      (lacks_of_properSubset hsubset).1
    refine ⟨⟨root, child, hroot, hchild, ?_, hheld, hdelegated, (lacks_of_properSubset hsubset).2,
      hvisible⟩, fun effect heffect => ?_, fun transition htransition => ?_⟩
    · exact hmarked child (hchild ▸ mem_singleton_self child)
    · rw [effectDiagnostics, flatMap_eq_nil_iff] at heffects
      exact declared_iff.1 (unlessHolds_eq_nil.1 (heffects effect heffect))
    · rw [transitionDiagnostics, flatMap_eq_nil_iff] at htransitions
      have hchecks := htransitions transition htransition
      rw [append_eq_nil_iff] at hchecks
      exact declared_iff.1 (unlessHolds_eq_nil.1 hchecks.2)

def textWriting : Writing String where
  idString
    | .id value => value
    | _ => ""
  stable _ := true
  digest _ := ""

def team (delegable : Bool) : Bundle String where
  epoch := .number 0
  organization := ⟨facetSchema, "organization", [.principal "owner", .role "member",
    .agent ⟨"lead", "owner", "member", none, ["deploy", "search"], ["notes"]⟩,
    .agent ⟨"worker", "owner", "member", some "lead", ["search"], ["notes"]⟩], [], []⟩
  authority := ⟨facetSchema, "authority", [.capability ⟨"deploy", false⟩,
    .capability ⟨"search", delegable⟩], [.delegation ⟨"lead", "worker", "search"⟩], []⟩
  context := ⟨facetSchema, "context", [.contextProjection ⟨"worker", ["notes"]⟩], [], []⟩
  protocol := ⟨facetSchema, "protocol", [.toolEffect ⟨"look-up", "search", "read"⟩], [], []⟩
  evidence := ⟨facetSchema, "evidence", [], [], []⟩

theorem validate_team (delegable : Bool) :
    ((team delegable).validate textWriting none).diagnostics = [] := by
  cases delegable <;> rfl

theorem attenuated_iff_team :
    ((team true).validate textWriting none).diagnostics = [] ∧ Attenuated (team true) :=
  ⟨validate_team true, (attenuated_iff textWriting (team true) none (validate_team true)).2 (by
    intro child hchild authority hauthority
    obtain rfl := mem_singleton.1 hchild
    obtain rfl := mem_singleton.1 hauthority
    exact ⟨⟨"search", true⟩, mem_cons_of_mem _ mem_cons_self, rfl, rfl⟩)⟩

/-- A bundle without diagnostics whose child holds a capability that is not delegable. -/
theorem team_not_attenuated :
    ((team false).validate textWriting none).diagnostics = [] ∧ ¬Attenuated (team false) := by
  refine ⟨validate_team false, ?_⟩
  rintro ⟨⟨root, child, hunder⟩, -, -⟩
  have hchild : child = ⟨"worker", "owner", "member", some "lead", ["search"], ["notes"]⟩ :=
    (List.cons.inj hunder.children).1.symm
  obtain ⟨capability, hcapability, hid, hdelegable⟩ :=
    hunder.marked "search" (hchild ▸ mem_singleton_self _)
  have hall : ∀ capability ∈ (team false).capabilities, capability.delegable = false := by decide
  exact absurd (hall capability hcapability) (by rw [hdelegable]; decide)

end PooFlow.Semantic
