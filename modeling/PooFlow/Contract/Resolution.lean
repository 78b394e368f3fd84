import PooFlow.Contract.Normalize
import Mathlib.Data.List.Basic
import Mathlib.Logic.Relation

namespace PooFlow.Contract

open List Relation

section

variable (resolveRef : String → Parsed Node)

theorem resolveNodes_eq (nodes : List Node) :
    resolveNodes resolveRef nodes = (nodes.map fun node => (resolveNode resolveRef node).1,
      nodes.flatMap fun node => (resolveNode resolveRef node).2) := by
  induction nodes with
  | nil => rfl
  | cons node nodes ih => simp [resolveNodes, ih]

theorem resolveProperties_eq (properties : List (Property Node)) :
    resolveProperties resolveRef properties =
      (properties.map fun property =>
        ⟨property.name, (resolveNode resolveRef property.schema).1, property.required⟩,
      properties.flatMap fun property => (resolveNode resolveRef property.schema).2) := by
  induction properties with
  | nil => rfl
  | cons property properties ih =>
    cases property
    simp [resolveProperties, resolveProperty, ih]

theorem resolvePatterns_eq (properties : List (PatternProperty Node)) :
    resolvePatterns resolveRef properties =
      (properties.map fun property =>
        ⟨property.pattern, (resolveNode resolveRef property.schema).1⟩,
      properties.flatMap fun property => (resolveNode resolveRef property.schema).2) := by
  induction properties with
  | nil => rfl
  | cons property properties ih =>
    cases property
    simp [resolvePatterns, resolvePattern, ih]

end

def Additional.nodes : Additional Node → List Node
  | .flag _ => []
  | .schema node => [node]

def Node.children : Node → List Node
  | .array _ items => [items]
  | .tuple _ items => items
  | .logical _ children => children
  | .object _ properties additional patternProperties =>
    properties.map Property.schema ++ additional.nodes ++
      patternProperties.map PatternProperty.schema
  | _ => []

def Node.parts : Node → List Node
  | .negation child => [child]
  | node => node.children

def Descends : Node → Node → Prop := Relation.ReflTransGen fun node child => child ∈ node.children

/-- A node is somewhere in another. -/
def Inside (part : Node) (node : Node) : Prop :=
  Relation.ReflTransGen (fun node child => child ∈ node.parts) node part

theorem sizeOf_child {node child : Node} (h : child ∈ node.children) :
    sizeOf child < sizeOf node := by
  cases node with
  | array schema items =>
    rw [Node.children, mem_singleton] at h
    simp only [h, Node.array.sizeOf_spec]
    omega
  | tuple schema items =>
    have hlt := sizeOf_lt_of_mem h
    simp only [Node.children, Node.tuple.sizeOf_spec] at hlt ⊢
    omega
  | logical kind children =>
    have hlt := sizeOf_lt_of_mem h
    simp only [Node.children, Node.logical.sizeOf_spec] at hlt ⊢
    omega
  | object schema properties additional patternProperties =>
    simp only [Node.children, mem_append, mem_map] at h
    simp only [Node.object.sizeOf_spec]
    rcases h with (⟨property, hmem, rfl⟩ | hmem) | ⟨property, hmem, rfl⟩
    · have hlt := sizeOf_lt_of_mem hmem
      cases property
      simp only [Property.mk.sizeOf_spec] at hlt ⊢
      omega
    · cases additional with
      | flag allowed => cases hmem
      | schema node =>
        rw [Additional.nodes, mem_singleton] at hmem
        simp only [hmem, Additional.schema.sizeOf_spec]
        omega
    · have hlt := sizeOf_lt_of_mem hmem
      cases property
      simp only [PatternProperty.mk.sizeOf_spec] at hlt ⊢
      omega
  | _ => cases h

theorem Node.inductionOn_children {motive : Node → Prop} (node : Node)
    (h : ∀ node, (∀ child ∈ node.children, motive child) → motive node) : motive node :=
  h node fun child _ => child.inductionOn_children h
termination_by sizeOf node
decreasing_by exact sizeOf_child ‹_›

variable {f : String → Parsed Node} {node : Node} {reference : String}

theorem inside_iff {part : Node} :
    Inside part node ↔ node = part ∨ ∃ child ∈ node.parts, Inside part child :=
  ReflTransGen.cases_head_iff

theorem resolveNode_children (hnode : ∀ reference, node ≠ .ref reference) :
    (∀ reference, (resolveNode f node).1 ≠ .ref reference) ∧
      ((∀ child, node ≠ .negation child) → (resolveNode f node).1.parts =
        node.children.map fun child => (resolveNode f child).1) ∧
      (resolveNode f node).2 = node.children.flatMap fun child => (resolveNode f child).2 := by
  cases node with
  | ref reference => exact absurd rfl (hnode reference)
  | negation child => exact ⟨nofun, fun h => absurd rfl (h child), rfl⟩
  | object schema properties additional patternProperties =>
    cases additional <;>
      simp [resolveNode, resolveProperties_eq, resolvePatterns_eq, resolveAdditional, Node.parts,
        Node.children, Additional.nodes, flatMap_map, Function.comp_def]
  | _ => simp [resolveNode, resolveNodes_eq, Node.parts, Node.children]

def Leaves (f : String → Parsed Node) (reference : String) : Node → Prop
  | .negation child => Inside (.ref reference) child
  | .ref other => Inside (.ref reference) (f other).1
  | _ => False

/-- **Which references are left**: those of negations and of what references stand for. -/
theorem inside_resolveNode : Inside (.ref reference) (resolveNode f node).1 ↔
      ∃ part, Descends node part ∧ Leaves f reference part := by
  induction node using Node.inductionOn_children with
  | h node ih =>
  have hhead : (∃ part, Descends node part ∧ Leaves f reference part) ↔ Leaves f reference node ∨
      ∃ child ∈ node.children, Inside (.ref reference) (resolveNode f child).1 := by
    simp only [Descends, ReflTransGen.cases_head_iff (a := node)]
    constructor
    · rintro ⟨part, rfl | ⟨child, hchild, hpart⟩, hleaves⟩
      · exact .inl hleaves
      · exact .inr ⟨child, hchild, (ih child hchild).2 ⟨part, hpart, hleaves⟩⟩
    · rintro (hleaves | ⟨child, hchild, hinside⟩)
      · exact ⟨node, .inl rfl, hleaves⟩
      · obtain ⟨part, hpart, hleaves⟩ := (ih child hchild).1 hinside
        exact ⟨part, .inr ⟨child, hchild, hpart⟩, hleaves⟩
  rw [hhead]
  cases hnode : node with
  | ref other => simp [resolveNode, Leaves, Node.children]
  | negation child => simp [resolveNode, @inside_iff (.negation child), Leaves, Node.parts,
      Node.children]
  | _ =>
    have hnone : ¬Leaves f reference node := by
      rw [hnode]
      exact id
    obtain ⟨hother, hparts, -⟩ := @resolveNode_children f node (by simp [hnode])
    rw [← hnode, inside_iff, hparts (by simp [hnode])]
    simp [hother, hnone]

theorem mem_resolveNode_snd {diagnostic : SchemaDiagnostic} (hmem : diagnostic ∈ (f reference).2)
    (h : Descends node (.ref reference)) : diagnostic ∈ (resolveNode f node).2 := by
  induction h using ReflTransGen.head_induction_on with
  | refl => exact hmem
  | @head node child hchild _ ih =>
    rw [(resolveNode_children (fun reference hnode => by subst hnode; cases hchild)).2.2]
    exact mem_flatMap.2 ⟨child, hchild, ih⟩

variable {references : List (String × Node)} {seen : List String} {rounds rounds' : ℕ}

inductive Comes (references : List (String × Node)) :
    List String → Node → List String → Node → Prop
  | here {seen node part} : Descends node part → Comes references seen node seen part
  | follow {seen node reference name target seen' part} : Descends node (.ref reference) →
    localDefinitionName reference = some name → name ∉ seen →
    references.find? (·.1 = name) = some target →
    Comes references (name :: seen) target.2 seen' part → Comes references seen node seen' part

def FallsBack (references : List (String × Node)) (seen : List String) (reference : String) : Prop :=
  ∀ name, localDefinitionName reference = some name →
    name ∈ seen ∨ references.find? (·.1 = name) = none

/-- The rounds that a resolution has left. -/
def unseen (references : List (String × Node)) (seen : List String) : ℕ :=
  ((references.map Prod.fst).filter (· ∉ seen)).length

theorem unseen_cons {name : String} {target : String × Node} (hname : name ∉ seen)
    (htarget : references.find? (·.1 = name) = some target) :
    unseen references (name :: seen) < unseen references seen := by
  have hfound : target.1 = name := by simpa using List.find?_some htarget
  have hsub : ((references.map Prod.fst).filter (· ∉ name :: seen)).Sublist
      ((references.map Prod.fst).filter (· ∉ seen)) :=
    monotone_filter_right _ fun other hother => by simp_all
  refine lt_of_le_of_ne hsub.length_le fun heq => ?_
  have hmem : name ∈ (references.map Prod.fst).filter (· ∉ seen) := by
    refine mem_filter.2 ⟨mem_map.2 ⟨target, mem_of_find?_eq_some htarget, hfound⟩, ?_⟩
    simpa using hname
  rw [← hsub.eq_of_length heq] at hmem
  simpa using (mem_filter.1 hmem).2

theorem resolveRef_fallsBack (h : FallsBack references seen reference) : ∃ reason message, ∀ rounds,
      resolveRef references rounds seen reference = fallback reason message reference := by
  unfold FallsBack at h
  cases hlocal : localDefinitionName reference with
  | none => exact ⟨_, _, fun rounds => by rw [resolveRef, hlocal]⟩
  | some name =>
    by_cases hname : name ∈ seen
    · exact ⟨.cyclicReference, "Cyclic JSON Schema references fall back to an opaque predicate",
        fun rounds => by simp only [resolveRef, hlocal, hname, if_true]⟩
    · exact ⟨.unresolvedReference, "Local JSON Schema reference could not be resolved",
        fun rounds => by
          simp only [resolveRef, hlocal, hname, if_false, (h name hlocal).resolve_left hname]⟩

theorem resolveRef_follow {name : String} {target : String × Node}
    (hlocal : localDefinitionName reference = some name) (hname : name ∉ seen)
    (htarget : references.find? (·.1 = name) = some target) (h : unseen references seen ≤ rounds) :
    ∃ rest, rounds = rest + 1 ∧ unseen references (name :: seen) ≤ rest ∧
      resolveRef references rounds seen reference =
        resolveNode (resolveRef references rest (name :: seen)) target.2 := by
  have hlt := unseen_cons hname htarget
  obtain ⟨rest, rfl⟩ := Nat.exists_eq_add_of_lt (Nat.zero_lt_of_lt (hlt.trans_le h))
  rw [Nat.zero_add] at h ⊢
  exact ⟨rest, rfl, by omega, by simp [resolveRef, hlocal, hname, htarget]⟩

theorem exists_of_not_fallsBack (h : ¬FallsBack references seen reference) :
    ∃ name target, localDefinitionName reference = some name ∧ name ∉ seen ∧
      references.find? (·.1 = name) = some target := by
  simp only [FallsBack, not_forall, not_or, ← ne_eq, Option.ne_none_iff_exists'] at h
  obtain ⟨name, hlocal, hname, target, htarget⟩ := h
  exact ⟨name, target, hlocal, hname, htarget⟩

/-- **More rounds than there are names make no difference.** -/
theorem resolveRef_rounds (h : unseen references seen ≤ rounds)
    (h' : unseen references seen ≤ rounds') :
    resolveRef references rounds seen = resolveRef references rounds' seen := by
  induction rounds using Nat.strong_induction_on generalizing rounds' seen with
  | h rounds ih =>
  funext reference
  by_cases hfalls : FallsBack references seen reference
  · obtain ⟨reason, message, hfallback⟩ := resolveRef_fallsBack hfalls
    rw [hfallback, hfallback]
  · obtain ⟨name, target, hlocal, hname, htarget⟩ := exists_of_not_fallsBack hfalls
    obtain ⟨rest, rfl, hrest, heq⟩ := resolveRef_follow hlocal hname htarget h
    obtain ⟨rest', rfl, hrest', heq'⟩ := resolveRef_follow hlocal hname htarget h'
    rw [heq, heq', ih rest (Nat.lt_succ_self _) hrest hrest']

/-- **Which references are left**, whatever the definitions are. -/
theorem inside_resolved (h : unseen references seen ≤ rounds) :
    Inside (.ref reference) (resolveNode (resolveRef references rounds seen) node).1 ↔
      ∃ seen' child, Comes references seen node seen' (.negation child) ∧
        Inside (.ref reference) child := by
  induction rounds using Nat.strong_induction_on generalizing seen node with
  | h rounds ih =>
  rw [inside_resolveNode]
  constructor
  · rintro ⟨part, hpart, hleaves⟩
    cases part with
    | negation child => exact ⟨seen, child, .here hpart, hleaves⟩
    | ref other =>
      rw [Leaves] at hleaves
      by_cases hfalls : FallsBack references seen other
      · obtain ⟨reason, message, hfallback⟩ := resolveRef_fallsBack hfalls
        rw [hfallback, fallback, inside_iff] at hleaves
        simp [Node.parts, Node.children] at hleaves
      · obtain ⟨name, target, hlocal, hname, htarget⟩ := exists_of_not_fallsBack hfalls
        obtain ⟨rest, rfl, hrest, heq⟩ := resolveRef_follow hlocal hname htarget h
        rw [heq] at hleaves
        obtain ⟨seen', child, hcomes, hinside⟩ := (ih rest (Nat.lt_succ_self _) hrest).1 hleaves
        exact ⟨seen', child, .follow hpart hlocal hname htarget hcomes, hinside⟩
    | _ => exact hleaves.elim
  · rintro ⟨seen', child, hcomes, hinside⟩
    cases hcomes with
    | here hpart => exact ⟨_, hpart, hinside⟩
    | @follow _ _ other name target _ _ hpart hlocal hname htarget hcomes =>
      obtain ⟨rest, rfl, hrest, heq⟩ := resolveRef_follow hlocal hname htarget h
      refine ⟨_, hpart, ?_⟩
      rw [Leaves, heq]
      exact (ih rest (Nat.lt_succ_self _) hrest).2 ⟨seen', child, hcomes, hinside⟩

theorem Comes.diagnosed {seen' : List String}
    (hcomes : Comes references seen node seen' (.ref reference))
    (hfalls : FallsBack references seen' reference) (h : unseen references seen ≤ rounds) :
    ∃ diagnostic ∈ (resolveNode (resolveRef references rounds seen) node).2,
      diagnostic.value = .text reference := by
  generalize hpart : Node.ref reference = part at hcomes
  induction hcomes generalizing rounds with
  | @here seen node part hdescends =>
    subst hpart
    obtain ⟨reason, message, hfallback⟩ := resolveRef_fallsBack hfalls
    have hmem : (⟨reason, message, .text reference⟩ : SchemaDiagnostic) ∈
        (resolveRef references rounds seen reference).2 := by
      rw [hfallback]
      exact mem_singleton_self _
    exact ⟨_, mem_resolveNode_snd hmem hdescends, rfl⟩
  | follow hdescends hlocal hname htarget _ ih =>
    obtain ⟨rest, rfl, hrest, heq⟩ := resolveRef_follow hlocal hname htarget h
    obtain ⟨diagnostic, hmem, hvalue⟩ := ih hfalls hrest hpart
    rw [← heq] at hmem
    exact ⟨diagnostic, mem_resolveNode_snd hmem hdescends, hvalue⟩

/-- **The resolution is exact** unless it comes to a negation of something with a reference. -/
theorem resolution_exact_iff (references : List (String × Node)) (seen : List String)
    (node : Node) :
    ((∀ rounds ≥ references.length, resolveNode (resolveRef references rounds seen) node =
        resolveNode (resolveRef references references.length seen) node) ∧
      (∀ reference, ¬Inside (.ref reference)
        (resolveNode (resolveRef references references.length seen) node).1) ∧
      ∀ seen' reference, Comes references seen node seen' (.ref reference) →
        FallsBack references seen' reference →
        ∃ diagnostic ∈ (resolveNode (resolveRef references references.length seen) node).2,
          diagnostic.value = .text reference) ↔
    ∀ seen' child, Comes references seen node seen' (.negation child) →
      ∀ reference, ¬Inside (.ref reference) child := by
  have hrounds : unseen references seen ≤ references.length :=
    (length_filter_le ..).trans (length_map _).le
  refine ⟨fun h seen' child hcomes reference hinside => ?_, fun h => ⟨fun rounds hlonger => ?_,
    fun reference hinside => ?_, fun seen' reference hcomes hfalls => ?_⟩⟩
  · exact h.2.1 reference ((inside_resolved hrounds).2 ⟨seen', child, hcomes, hinside⟩)
  · rw [resolveRef_rounds (hrounds.trans hlonger) hrounds]
  · obtain ⟨seen', child, hcomes, hinside⟩ := (inside_resolved hrounds).1 hinside
    exact h seen' child hcomes reference hinside
  · exact hcomes.diagnosed hfalls hrounds

/-- The reference in a negation stays, although its definition is there. -/
theorem negated_reference_left : Inside (.ref "#/definitions/Name")
    (resolveNode (resolveRef [("Name", .scalar .string [])] 1 [])
      (.negation (.ref "#/definitions/Name"))).1 :=
  .single (mem_singleton_self _)

end PooFlow.Contract
