import PooFlow.Execution.Flow
import PooFlow.Foundation.Succession
import PooFlow.Foundation.Logged
import Mathlib.Data.List.Induction
import Mathlib.Data.List.Sort

/-! `core/plan.ss` for steps whose flows are given by their runs, and the incremental frontier of
`core/funcs.ss`. -/

namespace PooFlow.Execution

open Foundation List Function

variable {α : Type}

abbrev Exec (α β : Type) := Logged (Event α) (Raised α) β

/-- A flow of a step: its name, and what `runner-run` does with it. -/
structure Nested (α : Type) where
  name : String
  run : Value α → Exec α (Value α × Receipt α)

inductive Action (α : Type) where
  | task (task : Task α)
  | flow (nested : Nested α)
  | branch (name : String) (left right : Nested α)
  | try (name : String) (source : Nested α)
  | kleisli (name : String) (source : Nested α) (binder : Value α → Nested α)

namespace Action

def kind : Action α → String
  | .task t => t.kind
  | .flow _ => "flow"
  | .branch .. => "branch"
  | .try .. => "try"
  | .kleisli .. => "kleisli"

def name : Action α → String
  | .task t => t.name
  | .flow nested => nested.name
  | .branch name .. => name
  | .try name _ => name
  | .kleisli name .. => name

def isBranch : Action α → Bool
  | .branch .. => true
  | _ => false

end Action

structure PlanNode (α : Type) where
  id : NodeId
  ordinal : ℕ
  action : Action α
  kind : String
  name : String
  dependencies : List NodeId

structure ExecutionPlan (α : Type) where
  flowName : String
  nodes : List (PlanNode α)

def stepPlanNode (flowName : String) (ordinal : ℕ) (action : Action α)
    (dependencies : List NodeId) : PlanNode α :=
  ⟨⟨flowName, ordinal, action.kind, action.name⟩, ordinal, action, action.kind, action.name,
    dependencies⟩

def branchArmNode (flowName : String) (ordinal : ℕ) (kind : String) (arm : Nested α)
    (dependencies : List NodeId) : PlanNode α :=
  ⟨⟨flowName, ordinal, kind, arm.name⟩, ordinal, .flow arm, kind, arm.name, dependencies⟩

structure LoweredSteps (α : Type) where
  nodes : List (PlanNode α)
  terminalIds : List NodeId
  nextOrdinal : ℕ

/-- `lower-step`, with `lower-branch-step` and `lower-linear-step`. -/
def lowerStep (flowName : String) (action : Action α) (previousTerminalIds : List NodeId)
    (ordinal : ℕ) : LoweredSteps α :=
  match action with
  | .branch _ left right =>
    let leftNode := branchArmNode flowName ordinal "branch-left" left previousTerminalIds
    let rightNode := branchArmNode flowName (ordinal + 1) "branch-right" right previousTerminalIds
    let joinNode := stepPlanNode flowName (ordinal + 2) action [leftNode.id, rightNode.id]
    ⟨[leftNode, rightNode, joinNode], [joinNode.id], ordinal + 3⟩
  | action =>
    let node := stepPlanNode flowName ordinal action previousTerminalIds
    ⟨[node], [node.id], ordinal + 1⟩

def lowerSteps (flowName : String) : List (Action α) → List NodeId → ℕ → LoweredSteps α
  | [], previousTerminalIds, ordinal => ⟨[], previousTerminalIds, ordinal⟩
  | action :: actions, previousTerminalIds, ordinal =>
    let loweredStep := lowerStep flowName action previousTerminalIds ordinal
    let loweredRest := lowerSteps flowName actions loweredStep.terminalIds loweredStep.nextOrdinal
    ⟨loweredStep.nodes ++ loweredRest.nodes, loweredRest.terminalIds, loweredRest.nextOrdinal⟩

def linearPlan (flowName : String) (actions : List (Action α)) : ExecutionPlan α :=
  ⟨flowName, (lowerSteps flowName actions [] 0).nodes⟩

def dependencyEdges (nodes : List (PlanNode α)) : List (NodeId × NodeId) :=
  nodes.flatMap fun node => node.dependencies.map fun dependency => (dependency, node.id)

def terminalNodes (plan : ExecutionPlan α) : List (PlanNode α) :=
  plan.nodes.filter fun node => node.id ∉ (dependencyEdges plan.nodes).map Prod.fst

def planNodeIds (plan : ExecutionPlan α) : List NodeId := plan.nodes.map PlanNode.id

def PlanNode.ready (node : PlanNode α) (completed : List NodeId) : Bool :=
  node.id ∉ completed ∧ ∀ dependency ∈ node.dependencies, dependency ∈ completed

def readyNodeIds (nodes : List (PlanNode α)) (completed : List NodeId) : List NodeId :=
  (nodes.filter (·.ready completed)).map PlanNode.id

/-- `poo-flow-frontier-state`: hash tables are functions. -/
structure FrontierState where
  ready : List NodeId
  dependents : NodeId → List NodeId
  remaining : NodeId → ℤ
  ordinals : NodeId → ℕ

/-- The tables of `poo-flow-make-frontier-state` after one more node. -/
def FrontierState.addNode (state : FrontierState) (node : PlanNode α) : FrontierState where
  ready := if node.dependencies.isEmpty then node.id :: state.ready else state.ready
  dependents := node.dependencies.foldl
    (fun dependents dependency => Function.update dependents dependency
      (node.id :: dependents dependency)) state.dependents
  remaining := Function.update state.remaining node.id node.dependencies.length
  ordinals := Function.update state.ordinals node.id node.ordinal

def makeFrontierState (nodes : List (PlanNode α)) : FrontierState :=
  let state := nodes.foldl FrontierState.addNode
    ⟨[], fun _ => [], fun _ => 0, fun _ => 0⟩
  { state with ready := state.ready.reverse }

def frontierInsert (ordinals : NodeId → ℕ) (id : NodeId) : List NodeId → List NodeId
  | [] => [id]
  | other :: ids =>
    if ordinals id < ordinals other then id :: other :: ids
    else other :: frontierInsert ordinals id ids

/-- One dependent of `poo-flow-frontier-state-complete!`. -/
def FrontierState.settle (state : FrontierState) (dependent : NodeId) : FrontierState :=
  let count := state.remaining dependent - 1
  { state with
    remaining := Function.update state.remaining dependent count
    ready := if count = 0 then frontierInsert state.ordinals dependent state.ready
      else state.ready }

def FrontierState.complete (state : FrontierState) (completed : NodeId) : FrontierState :=
  (state.dependents completed).reverse.foldl FrontierState.settle
    { state with ready := state.ready.erase completed }

structure Chained (nodes : List (PlanNode α)) : Prop where
  ordinal : ∀ node ∈ nodes, node.id.ordinal = node.ordinal
  ordered : nodes.Pairwise fun node other => node.ordinal < other.ordinal
  once : ∀ node ∈ nodes, node.dependencies.Nodup
  earlier : ∀ node ∈ nodes, ∀ dependency ∈ node.dependencies, dependency.ordinal < node.ordinal

variable {nodes : List (PlanNode α)} {state : FrontierState} {id : NodeId}

variable {other : PlanNode α} {dependencies : List NodeId} {ordinals : NodeId → ℕ}
  {ids : List NodeId} {dependent : NodeId} {completed : List NodeId}

section

variable (h : Chained nodes) {node : PlanNode α} (hnode : node ∈ nodes) (hother : other ∈ nodes)

include h node hnode hother

theorem Chained.ordinal_injOn (hordinal : node.ordinal = other.ordinal) : node = other := by
  have hpair := pairwise_iff_getElem.1 h.ordered
  obtain ⟨i, hi, rfl⟩ := mem_iff_getElem.1 hnode
  obtain ⟨j, hj, rfl⟩ := mem_iff_getElem.1 hother
  rcases lt_trichotomy i j with hlt | rfl | hlt
  · exact absurd hordinal (hpair i j hi hj hlt).ne
  · rfl
  · exact absurd hordinal.symm (hpair j i hj hi hlt).ne

theorem Chained.id_injOn (hid : node.id = other.id) : node = other :=
  h.ordinal_injOn hnode hother (by rw [← h.ordinal node hnode, ← h.ordinal other hother, hid])

end

theorem Chained.nodup (h : Chained nodes) : (nodes.map PlanNode.id).Nodup := by
  refine List.Nodup.map_on (fun node hnode other hother => h.id_injOn hnode hother) ?_
  exact h.ordered.imp fun hlt heq => absurd (heq ▸ hlt) (lt_irrefl _)

/-- The state of a frontier in which `completed` are done. -/
structure FrontierState.Tracks (state : FrontierState) (nodes : List (PlanNode α))
    (completed : List NodeId) : Prop where
  ready : state.ready = readyNodeIds nodes completed
  dependents : ∀ id, state.dependents id =
    ((nodes.filter (id ∈ ·.dependencies)).map PlanNode.id).reverse
  remaining : ∀ node ∈ nodes, state.remaining node.id =
    (node.dependencies.filter (· ∉ completed)).length
  ordinals : ∀ node ∈ nodes, state.ordinals node.id = node.ordinal

theorem foldl_update (hnodup : dependencies.Nodup) (dependents : NodeId → List NodeId)
    (id other : NodeId) :
    dependencies.foldl (fun dependents dependency => update dependents dependency
      (id :: dependents dependency)) dependents other =
    if other ∈ dependencies then id :: dependents other else dependents other := by
  induction dependencies generalizing dependents with
  | nil => simp
  | cons dependency dependencies ih =>
    obtain ⟨hnot, hnodup⟩ := nodup_cons.1 hnodup
    rw [foldl_cons, ih hnodup]
    by_cases heq : other = dependency
    · subst heq
      simp [hnot]
    · simp [heq]

structure FrontierState.Built (state : FrontierState) (nodes : List (PlanNode α)) : Prop where
  ready : state.ready =
    ((nodes.filter (·.dependencies.isEmpty)).map PlanNode.id).reverse
  dependents : ∀ id, state.dependents id =
    ((nodes.filter (id ∈ ·.dependencies)).map PlanNode.id).reverse
  remaining : ∀ node ∈ nodes, state.remaining node.id = node.dependencies.length
  ordinals : ∀ node ∈ nodes, state.ordinals node.id = node.ordinal

theorem FrontierState.Built.addNode (h : state.Built nodes) {node : PlanNode α}
    (hnodup : node.dependencies.Nodup) (hfresh : ∀ other ∈ nodes, other.id ≠ node.id) :
    (state.addNode node).Built (nodes ++ [node]) where
  ready := by
    rw [FrontierState.addNode]
    by_cases hempty : node.dependencies.isEmpty = true
    · simp [hempty, h.ready, filter_append]
    · simp [hempty, h.ready, filter_append]
  dependents id := by
    rw [FrontierState.addNode]
    dsimp only
    rw [foldl_update hnodup, h.dependents]
    by_cases hmem : id ∈ node.dependencies
    · simp [hmem, filter_append]
    · simp [hmem, filter_append]
  remaining := by
    intro other hother
    rw [FrontierState.addNode]
    dsimp only
    rcases mem_append.1 hother with hother | hother
    · rw [update_of_ne (hfresh other hother), h.remaining other hother]
    · rw [mem_singleton.1 hother, update_self]
  ordinals := by
    intro other hother
    rw [FrontierState.addNode]
    dsimp only
    rcases mem_append.1 hother with hother | hother
    · rw [update_of_ne (hfresh other hother), h.ordinals other hother]
    · rw [mem_singleton.1 hother, update_self]

theorem built_foldl (h : Chained nodes) :
    (nodes.foldl FrontierState.addNode ⟨[], fun _ => [], fun _ => 0, fun _ => 0⟩).Built nodes := by
  induction nodes using List.reverseRecOn with
  | nil => exact ⟨rfl, fun _ => rfl, forall_mem_nil _, forall_mem_nil _⟩
  | append_singleton nodes node ih =>
    have hordered := pairwise_append.1 h.ordered
    have hnode : node ∈ nodes ++ [node] := by simp
    have hpart : Chained nodes :=
      ⟨fun other hother => h.ordinal other (mem_append_left _ hother), hordered.1,
        fun other hother => h.once other (mem_append_left _ hother),
        fun other hother => h.earlier other (mem_append_left _ hother)⟩
    rw [foldl_append, foldl_cons, foldl_nil]
    refine (ih hpart).addNode (h.once node hnode) fun other hother hid => ?_
    have heq := h.id_injOn (mem_append_left _ hother) hnode hid
    exact absurd (hordered.2.2 other hother node (by simp)) (heq ▸ lt_irrefl _)

theorem tracks_makeFrontierState (h : Chained nodes) :
    (makeFrontierState nodes).Tracks nodes [] := by
  have hbuilt := built_foldl h
  refine ⟨?_, hbuilt.dependents, ?_, hbuilt.ordinals⟩
  · rw [makeFrontierState]
    dsimp only
    rw [hbuilt.ready, reverse_reverse, readyNodeIds]
    congr 2
    funext node
    cases hdependencies : node.dependencies with
    | nil => simp [PlanNode.ready, hdependencies]
    | cons head tail =>
      simp only [PlanNode.ready, hdependencies]
      simp
      exact ⟨head, fun hne => absurd rfl hne⟩
  · intro node hnode
    rw [makeFrontierState]
    dsimp only
    rw [hbuilt.remaining node hnode, filter_eq_self.2 (by simp)]

variable {other : NodeId}

theorem mem_frontierInsert : other ∈ frontierInsert ordinals id ids ↔ other = id ∨ other ∈ ids := by
  induction ids with
  | nil => simp [frontierInsert]
  | cons head ids ih =>
    rw [frontierInsert]
    split
    · simp
    · rw [mem_cons, ih, mem_cons]
      tauto

theorem pairwise_frontierInsert (h : ids.Pairwise fun a b => ordinals a < ordinals b)
    (hfresh : ∀ other ∈ ids, ordinals other ≠ ordinals id) :
    (frontierInsert ordinals id ids).Pairwise fun a b => ordinals a < ordinals b := by
  induction ids with
  | nil => simp [frontierInsert]
  | cons head ids ih =>
    rw [pairwise_cons] at h
    rw [forall_mem_cons] at hfresh
    rw [frontierInsert]
    split
    · next hlt =>
      refine pairwise_cons.2 ⟨?_, pairwise_cons.2 h⟩
      exact forall_mem_cons.2 ⟨hlt, fun other hother => hlt.trans (h.1 other hother)⟩
    · next hge =>
      refine pairwise_cons.2 ⟨fun other hother => ?_, ih h.2 hfresh.2⟩
      rcases mem_frontierInsert.1 hother with rfl | hother
      · exact lt_of_le_of_ne (not_lt.1 hge) hfresh.1
      · exact h.1 other hother

theorem mem_settle_ready : id ∈ (state.settle dependent).ready ↔
      id ∈ state.ready ∨ id = dependent ∧ state.remaining id = 1 := by
  rw [FrontierState.settle]
  dsimp only
  split
  · next hcount =>
    rw [mem_frontierInsert]
    constructor
    · rintro (rfl | hmem)
      · exact .inr ⟨rfl, by omega⟩
      · exact .inl hmem
    · rintro (hmem | ⟨rfl, -⟩)
      · exact .inr hmem
      · exact .inl rfl
  · next hcount =>
    constructor
    · exact .inl
    · rintro (hmem | ⟨rfl, hone⟩)
      · exact hmem
      · omega

theorem pairwise_settle
    (hsorted : state.ready.Pairwise fun a b => state.ordinals a < state.ordinals b)
    (hfresh : ∀ other ∈ state.ready, state.ordinals other ≠ state.ordinals dependent) :
    (state.settle dependent).ready.Pairwise fun a b => state.ordinals a < state.ordinals b := by
  rw [FrontierState.settle]
  dsimp only
  split
  · exact pairwise_frontierInsert hsorted hfresh
  · exact hsorted

theorem foldl_settle {dependents : List NodeId} (hnodup : dependents.Nodup)
    (hsorted : state.ready.Pairwise fun a b => state.ordinals a < state.ordinals b)
    (hfresh : ∀ id ∈ dependents, ∀ other ∈ state.ready, state.ordinals other ≠ state.ordinals id)
    (hapart : ∀ id ∈ dependents, ∀ other ∈ dependents, state.ordinals other = state.ordinals id →
      other = id) :
    let after := dependents.foldl FrontierState.settle state
    (after.ready.Pairwise fun a b => state.ordinals a < state.ordinals b) ∧
      (∀ id, id ∈ after.ready ↔ id ∈ state.ready ∨ id ∈ dependents ∧ state.remaining id = 1) ∧
      (∀ id, after.remaining id = if id ∈ dependents then state.remaining id - 1
        else state.remaining id) ∧
      after.ordinals = state.ordinals ∧ after.dependents = state.dependents := by
  induction dependents generalizing state with
  | nil => simp [hsorted]
  | cons dependent dependents ih =>
    obtain ⟨hnot, hnodup⟩ := nodup_cons.1 hnodup
    rw [forall_mem_cons] at hfresh
    have hrest := @ih (state.settle dependent) hnodup (pairwise_settle hsorted hfresh.1)
      (fun id hid other hother => by
        rcases mem_settle_ready.1 hother with hother | ⟨rfl, -⟩
        · exact hfresh.2 id hid other hother
        · -- the dependent that was settled is not met again
          intro heq
          have hsame := hapart id (mem_cons_of_mem _ hid) other mem_cons_self heq
          exact hnot (hsame ▸ hid))
      (fun id hid other hother => hapart id (mem_cons_of_mem _ hid) other
        (mem_cons_of_mem _ hother))
    obtain ⟨hsorted', hmem, hremaining, hordinals, hdependents⟩ := hrest
    refine ⟨hsorted', fun id => ?_, fun id => ?_, hordinals, hdependents⟩
    · rw [foldl_cons, hmem, mem_settle_ready, FrontierState.settle, mem_cons]
      dsimp only
      by_cases heq : id = dependent
      · subst heq
        simp [hnot]
      · simp [heq]
    · rw [foldl_cons, hremaining, FrontierState.settle]
      simp only [mem_cons]
      by_cases heq : id = dependent
      · subst heq
        simp [hnot]
      · simp [heq]

theorem mem_readyNodeIds : id ∈ readyNodeIds nodes completed ↔
      ∃ node ∈ nodes, node.id = id ∧ id ∉ completed ∧
        ∀ dependency ∈ node.dependencies, dependency ∈ completed := by
  simp only [readyNodeIds, mem_map, mem_filter, PlanNode.ready, decide_eq_true_eq]
  constructor
  · rintro ⟨node, ⟨hnode, hid, hdependencies⟩, rfl⟩
    exact ⟨node, hnode, rfl, hid, hdependencies⟩
  · rintro ⟨node, hnode, rfl, hid, hdependencies⟩
    exact ⟨node, ⟨hnode, hid, hdependencies⟩, rfl⟩

theorem length_open (hnodup : dependencies.Nodup) (hid : id ∉ completed) :
    (dependencies.filter (· ∉ completed)).length =
      (dependencies.filter (· ∉ id :: completed)).length + if id ∈ dependencies then 1 else 0 := by
  have hfilter : dependencies.filter (· ∉ id :: completed) =
      (dependencies.filter (· ∉ completed)).erase id := by
    rw [List.Nodup.erase_eq_filter (hnodup.filter _), filter_filter]
    congr 1
    funext other
    by_cases heq : other = id <;> simp [heq]
  rw [hfilter, length_erase]
  by_cases hmem : id ∈ dependencies
  · have hopen : id ∈ dependencies.filter (· ∉ completed) := by simp [hmem, hid]
    have hpos := length_pos_of_mem hopen
    rw [if_pos hmem, if_pos hopen]
    omega
  · rw [if_neg hmem, if_neg (by simp [hmem])]
    rfl

namespace FrontierState.Tracks

variable {state : FrontierState} {nodes : List (PlanNode α)} {completed : List NodeId} {id : NodeId}

theorem pairwise_ready (h : state.Tracks nodes completed) (hnodes : Chained nodes)
    (later : List NodeId) :
    (readyNodeIds nodes later).Pairwise fun a b => state.ordinals a < state.ordinals b := by
  rw [readyNodeIds, pairwise_map]
  refine (hnodes.ordered.sublist filter_sublist).imp_of_mem fun {node other} hnode hother => ?_
  rw [h.ordinals node (mem_filter.1 hnode).1, h.ordinals other (mem_filter.1 hother).1]
  exact id

theorem ordinals_inj (h : state.Tracks nodes completed) (hnodes : Chained nodes)
    {node other : PlanNode α} (hnode : node ∈ nodes) (hother : other ∈ nodes)
    (heq : state.ordinals node.id = state.ordinals other.id) : node = other := by
  rw [h.ordinals node hnode, h.ordinals other hother] at heq
  exact hnodes.ordinal_injOn hnode hother heq

theorem mem_dependents (h : state.Tracks nodes completed) : other ∈ (state.dependents id).reverse ↔
      ∃ node ∈ nodes, node.id = other ∧ id ∈ node.dependencies := by
  rw [h.dependents, reverse_reverse, mem_map]
  constructor
  · rintro ⟨node, hnode, rfl⟩
    obtain ⟨hnode, hid⟩ := mem_filter.1 hnode
    exact ⟨node, hnode, rfl, of_decide_eq_true hid⟩
  · rintro ⟨node, hnode, rfl, hid⟩
    exact ⟨node, mem_filter.2 ⟨hnode, decide_eq_true hid⟩, rfl⟩

section

variable (h : state.Tracks nodes completed) (hnodes : Chained nodes) (hid : id ∉ completed)
  (hlater : ∀ node ∈ nodes, id ∈ node.dependencies → node.id ∉ completed)

include h hnodes hid hlater

theorem mem_ready_cons : other ∈ readyNodeIds nodes (id :: completed) ↔
      other ∈ state.ready.erase id ∨
        other ∈ (state.dependents id).reverse ∧ state.remaining other = 1 := by
  have hsorted := h.pairwise_ready hnodes completed
  have hnodup : (readyNodeIds nodes completed).Nodup :=
    hsorted.imp fun hlt heq => absurd (heq ▸ hlt) (lt_irrefl _)
  rw [h.ready, hnodup.mem_erase_iff, mem_readyNodeIds, mem_readyNodeIds, h.mem_dependents]
  constructor
  · rintro ⟨node, hnode, rfl, hopen, hdone⟩
    rw [mem_cons, not_or] at hopen
    by_cases hdepends : id ∈ node.dependencies
    · refine .inr ⟨⟨node, hnode, rfl, hdepends⟩, ?_⟩
      have hnone : node.dependencies.filter (· ∉ id :: completed) = [] :=
        filter_eq_nil_iff.2 fun dependency hdependency hopen =>
          of_decide_eq_true hopen (hdone dependency hdependency)
      rw [h.remaining node hnode, length_open (hnodes.once node hnode) hid, hnone, if_pos hdepends]
      rfl
    · refine .inl ⟨hopen.1, node, hnode, rfl, hopen.2, fun dependency hdependency => ?_⟩
      rcases mem_cons.1 (hdone dependency hdependency) with rfl | hmem
      · exact absurd hdependency hdepends
      · exact hmem
  · rintro (⟨hne, node, hnode, rfl, hopen, hdone⟩ | ⟨⟨node, hnode, rfl, hdepends⟩, hone⟩)
    · exact ⟨node, hnode, rfl, by simp [hne, hopen],
        fun dependency hdependency => mem_cons_of_mem _ (hdone dependency hdependency)⟩
    · rw [h.remaining node hnode, length_open (hnodes.once node hnode) hid, if_pos hdepends] at hone
      have hnone : node.dependencies.filter (· ∉ id :: completed) = [] :=
        length_eq_zero_iff.1 (by omega)
      have hne : node.id ≠ id := by
        intro heq
        have hlt := hnodes.earlier node hnode id hdepends
        rw [← heq, hnodes.ordinal node hnode] at hlt
        exact lt_irrefl _ hlt
      refine ⟨node, hnode, rfl, by simp [hne, hlater node hnode hdepends],
        fun dependency hdependency => ?_⟩
      by_contra hopen
      exact filter_eq_nil_iff.1 hnone dependency hdependency (decide_eq_true hopen)

/-- **The incremental frontier is the recomputed one.** -/
theorem complete : (state.complete id).Tracks nodes (id :: completed) := by
  have hsorted := h.pairwise_ready hnodes completed
  rw [← h.ready] at hsorted
  have hnodup : (state.dependents id).reverse.Nodup := by
    rw [h.dependents, reverse_reverse]
    exact hnodes.nodup.sublist (filter_sublist.map _)
  have hfresh : ∀ dependent ∈ (state.dependents id).reverse, ∀ other ∈ state.ready.erase id,
      state.ordinals other ≠ state.ordinals dependent := by
    intro dependent hdependent other hother heq
    obtain ⟨node, hnode, rfl, hdepends⟩ := h.mem_dependents.1 hdependent
    have hready := mem_of_mem_erase hother
    rw [h.ready, mem_readyNodeIds] at hready
    obtain ⟨ready, hmem, rfl, -, hdone⟩ := hready
    rw [h.ordinals_inj hnodes hmem hnode heq] at hdone
    exact hid (hdone id hdepends)
  have hapart : ∀ dependent ∈ (state.dependents id).reverse,
      ∀ other ∈ (state.dependents id).reverse,
        state.ordinals other = state.ordinals dependent → other = dependent := by
    intro dependent hdependent other hother heq
    obtain ⟨node, hnode, rfl, -⟩ := h.mem_dependents.1 hdependent
    obtain ⟨node', hnode', rfl, -⟩ := h.mem_dependents.1 hother
    rw [h.ordinals_inj hnodes hnode' hnode heq]
  obtain ⟨hsorted', hmem, hremaining, hordinals, hdependents⟩ :=
    @foldl_settle { state with ready := state.ready.erase id } _ hnodup
      (hsorted.sublist erase_sublist) hfresh hapart
  rw [← FrontierState.complete] at hsorted' hmem hremaining hordinals hdependents
  refine ⟨?_, fun other => ?_, fun node hnode => ?_, fun node hnode => ?_⟩
  · have hsorted'' := h.pairwise_ready hnodes (id :: completed)
    have hirrefl : ∀ {ids : List NodeId},
        ids.Pairwise (fun a b => state.ordinals a < state.ordinals b) → ids.Nodup :=
      fun hpair => hpair.imp fun hlt heq => absurd (heq ▸ hlt) (lt_irrefl _)
    refine ((perm_ext_iff_of_nodup (hirrefl hsorted') (hirrefl hsorted'')).2 fun other => ?_)
      |>.eq_of_pairwise (fun a b _ _ hlt hgt => absurd (lt_trans hlt hgt) (lt_irrefl _)) hsorted'
      hsorted''
    rw [hmem, h.mem_ready_cons hnodes hid hlater]
  · rw [hdependents]
    exact h.dependents other
  · rw [hremaining]
    dsimp only
    rw [h.remaining node hnode, length_open (hnodes.once node hnode) hid]
    by_cases hdepends : id ∈ node.dependencies
    · rw [if_pos (h.mem_dependents.2 ⟨node, hnode, rfl, hdepends⟩), if_pos hdepends]
      push_cast
      omega
    · have hnot : node.id ∉ (state.dependents id).reverse := by
        intro hmem
        obtain ⟨other, hother, heq, hdepends'⟩ := h.mem_dependents.1 hmem
        rw [hnodes.id_injOn hother hnode heq] at hdepends'
        exact hdepends hdepends'
      rw [if_neg hnot, if_neg hdepends]
      rfl
  · rw [hordinals]
    exact h.ordinals node hnode

end

end FrontierState.Tracks

structure Lowered (previous : List NodeId) (ordinal : ℕ) (lowered : LoweredSteps α) : Prop where
  ordinals : ∀ node ∈ lowered.nodes, node.id.ordinal = node.ordinal
  once : ∀ node ∈ lowered.nodes, node.dependencies.Nodup
  chain : Succession PlanNode.id PlanNode.dependencies NodeId.ordinal previous ordinal lowered.nodes
    lowered.terminalIds lowered.nextOrdinal

variable (flowName : String) {previous : List NodeId} {ordinal : ℕ} (actions : List (Action α))

theorem lowered_lowerStep (action : Action α) (hnodup : previous.Nodup)
    (hprevious : ∀ id ∈ previous, id.ordinal < ordinal) :
    Lowered previous ordinal (lowerStep flowName action previous ordinal) ∧
      (lowerStep flowName action previous ordinal).nodes ≠ [] := by
  cases action with
  | branch name left right =>
    refine ⟨⟨?_, ?_, ?_, ?_, ?_, ?_, ?_, ?_, ?_, ?_, ?_⟩, ?_⟩ <;>
      simp [lowerStep, branchArmNode, stepPlanNode, hnodup]
    · refine ⟨hprevious, fun id hid => ?_⟩
      have hlt := hprevious id hid
      omega
    · exact fun id hid => .inl hid
    · exact fun id hid => .inl hid
  | _ =>
    refine ⟨⟨?_, ?_, ?_, ?_, ?_, ?_, ?_, ?_, ?_, ?_, ?_⟩, ?_⟩ <;>
      simp [lowerStep, stepPlanNode, hnodup]
    · exact hprevious
    · exact fun id hid => .inl hid

/-- **Steps are lowered to a chain.** -/
theorem lowered_lowerSteps (hnodup : previous.Nodup)
    (hprevious : ∀ id ∈ previous, id.ordinal < ordinal) :
    Lowered previous ordinal (lowerSteps flowName actions previous ordinal) := by
  induction actions generalizing previous ordinal with
  | nil => exact ⟨forall_mem_nil _, forall_mem_nil _, .nil previous ordinal⟩
  | cons action actions ih =>
    obtain ⟨hstep, hnodes⟩ := lowered_lowerStep flowName action hnodup hprevious
    obtain ⟨hterminal, hlt⟩ := hstep.chain.terminal_lt hnodes
    have hrest := ih hterminal hlt
    exact ⟨forall_mem_append.2 ⟨hstep.ordinals, hrest.ordinals⟩,
      forall_mem_append.2 ⟨hstep.once, hrest.once⟩, hstep.chain.append hnodes hrest.chain⟩

theorem lowered_linear : Lowered [] 0 (lowerSteps flowName actions [] 0) :=
  lowered_lowerSteps flowName actions nodup_nil (forall_mem_nil _)

theorem chained_linearPlan : Chained (linearPlan flowName actions).nodes := by
  obtain ⟨hordinals, honce, hchain⟩ := lowered_linear flowName actions
  refine ⟨hordinals, ?_, honce, fun node hnode => hordinals node hnode ▸ hchain.earlier node hnode⟩
  exact hchain.ordered.imp_of_mem fun hnode hother hlt =>
    hordinals _ hnode ▸ hordinals _ hother ▸ hlt

theorem mem_dependencyEdges {nodes : List (PlanNode α)} {id : NodeId} :
    id ∈ (dependencyEdges nodes).map Prod.fst ↔ ∃ node ∈ nodes, id ∈ node.dependencies := by
  simp [dependencyEdges]

/-- **A plan ends in one node**, or has none. -/
theorem terminalNodes_linearPlan : (terminalNodes (linearPlan flowName actions)).map PlanNode.id =
      (lowerSteps flowName actions [] 0).terminalIds := by
  refine (lowered_linear flowName actions).chain.last_unneeded fun node => ?_
  rw [decide_eq_true_eq, mem_dependencyEdges]
  rfl

structure Completes (nodes : List (PlanNode α)) (ids : List NodeId) : Prop where
  once : ids.Nodup
  after : ∀ before id rest, ids = before ++ id :: rest →
    ∃ node ∈ nodes, node.id = id ∧ ∀ dependency ∈ node.dependencies, dependency ∈ before

theorem Completes.initial {ids rest : List NodeId} (h : Completes nodes (ids ++ rest)) :
    Completes nodes ids :=
  ⟨(nodup_append.1 h.once).1, fun before id later heq => h.after before id (later ++ rest)
    (by rw [heq, append_assoc, cons_append])⟩

theorem Completes.tracks {ids : List NodeId} (h : Completes nodes ids) (hnodes : Chained nodes) :
    (ids.foldl FrontierState.complete (makeFrontierState nodes)).Tracks nodes ids.reverse := by
  induction ids using List.reverseRecOn with
  | nil => exact tracks_makeFrontierState hnodes
  | append_singleton ids id ih =>
    have hfresh : id ∉ ids := fun hid => (nodup_append.1 h.once).2.2 id hid id (by simp) rfl
    rw [foldl_append, reverse_append]
    refine (ih h.initial).complete hnodes (by simpa using hfresh) fun node hnode hdepends hdone => ?_
    -- a node that was completed before needs nothing that is not
    obtain ⟨before, later, hids⟩ := append_of_mem (mem_reverse.1 hdone)
    obtain ⟨other, hother, hid, hafter⟩ := h.initial.after before node.id later hids
    rw [hnodes.id_injOn hother hnode hid] at hafter
    exact hfresh (hids ▸ mem_append_left _ (hafter id hdepends))

theorem completes_linearPlan :
    Completes (linearPlan flowName actions).nodes (planNodeIds (linearPlan flowName actions)) := by
  refine ⟨(chained_linearPlan flowName actions).nodup, fun before id rest heq => ?_⟩
  obtain ⟨first, second, hnodes, rfl, hsecond⟩ := map_eq_append_iff.1 heq
  obtain ⟨node, second, rfl, rfl, -⟩ := map_eq_cons_iff.1 hsecond
  refine ⟨node, hnodes ▸ by simp, rfl, fun dependency hdependency => mem_map.2 ?_⟩
  exact (lowered_linear flowName actions).chain.precedes hnodes hdependency

/-- **The frontier is exact** after every run over a plan, and nodes come after what
they depend on. -/
theorem frontier_exact : (∀ ids, Completes (linearPlan flowName actions).nodes ids →
      (ids.foldl FrontierState.complete
          (makeFrontierState (linearPlan flowName actions).nodes)).ready =
        readyNodeIds (linearPlan flowName actions).nodes ids) ∧
    (∀ ids, ids <+: planNodeIds (linearPlan flowName actions) →
      Completes (linearPlan flowName actions).nodes ids) ∧
    (planNodeIds (linearPlan flowName actions)).Nodup ∧
    ∀ before node after, (linearPlan flowName actions).nodes = before ++ node :: after →
      ∀ dependency ∈ node.dependencies, dependency ∈ before.map PlanNode.id := by
  have hnodes := chained_linearPlan flowName actions
  refine ⟨fun ids hids => ?_, fun ids hids => ?_, hnodes.nodup,
    fun before node after heq dependency hdependency => mem_map.2 ?_⟩
  · rw [(hids.tracks hnodes).ready]
    simp [readyNodeIds, PlanNode.ready]
  · obtain ⟨rest, hfront⟩ := hids
    exact (hfront ▸ completes_linearPlan flowName actions).initial
  · exact (lowered_linear flowName actions).chain.precedes heq hdependency

end PooFlow.Execution
