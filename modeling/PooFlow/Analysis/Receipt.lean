import PooFlow.Analysis.Order

/-! `poo-flow-graph-analysis-receipt` of `graph/algorithms.ss`. -/

namespace PooFlow.Analysis

open Foundation List Relation

variable {α : Type*} [DecidableEq α]

structure PooFlowGraphAnalysis (α : Type*) where
  graphId : α
  nodeCount : ℕ
  edgeCount : ℕ
  rootIds : List α
  terminalIds : List α
  reachableIds : List α
  dependencyCone : List α
  topologicalOrder : Option (List α)
  cyclePath : Option (List α)
  acyclic : Bool
  diagnostics : List (String × List α)

def outgoingNodes (edgePairs : List (α × α)) (ids : List α) :
    List (outgoingNetwork edgePairs ids).Node :=
  ids.pmap Subtype.mk fun _ hid => mem_append_left _ hid

def incomingNodes (edgePairs : List (α × α)) (ids : List α) :
    List (incomingNetwork edgePairs ids).Node :=
  ids.pmap Subtype.mk fun _ hid => mem_append_left _ hid

def graphCyclePath (nodeIds : List α) (edgePairs : List (α × α)) : Option (List α) :=
  (findCycleFromNodes (outgoingNetwork edgePairs nodeIds) (outgoingNodes edgePairs nodeIds) []).1

def pooFlowGraphReachableIds (graph : PooFlowGraph α) (startIds : List α) : List α :=
  (outgoingNetwork graph.edges startIds).walk (outgoingNodes graph.edges startIds) []

def pooFlowGraphDependencyCone (graph : PooFlowGraph α) (targetIds : List α) : List α :=
  (incomingNetwork graph.edges targetIds).walk (incomingNodes graph.edges targetIds) []

/-- `poo-flow-graph-analysis-receipt`, with the start and target ids that are given. -/
def pooFlowGraphAnalysisReceipt (graph : PooFlowGraph α) (start target : Option (List α)) :
    PooFlowGraphAnalysis α :=
  let outgoing := outgoingIndex graph.edges
  let incoming := incomingIndex graph.edges
  let roots := graph.nodes.filter fun id => incoming id = []
  let terminals := graph.nodes.filter fun id => outgoing id = []
  let startIds := start.getD roots
  let targetIds := target.getD terminals
  let cyclePath := graphCyclePath graph.nodes graph.edges
  { graphId := graph.graphId
    nodeCount := graph.nodes.length
    edgeCount := graph.edges.length
    rootIds := roots
    terminalIds := terminals
    reachableIds := (outgoingNetwork graph.edges startIds).walk
      (outgoingNodes graph.edges startIds) []
    dependencyCone := (incomingNetwork graph.edges targetIds).walk
      (incomingNodes graph.edges targetIds) []
    -- an order is computed for acyclic graphs only
    topologicalOrder := match cyclePath with
      | some _ => none
      | none => topologicalOrder graph.nodes graph.edges outgoing
    cyclePath
    acyclic := cyclePath.isNone
    diagnostics := match cyclePath with
      | some cycle => [("cycle-path", cycle)]
      | none => [] }

def PooFlowGraph.Sourced (graph : PooFlowGraph α) : Prop :=
  ∀ source target, (source, target) ∈ graph.edges → target ∈ graph.nodes → source ∈ graph.nodes

def PooFlowGraph.Forward (graph : PooFlowGraph α) (order : List α) : Prop :=
  ∀ source target, (source, target) ∈ graph.edges → source ∈ graph.nodes →
    target ∈ graph.nodes → order.idxOf source < order.idxOf target

variable (graph : PooFlowGraph α)

theorem receipt_topologicalOrder (start target : Option (List α)) (order : List α) :
    (pooFlowGraphAnalysisReceipt graph start target).topologicalOrder = some order ↔
      (pooFlowGraphAnalysisReceipt graph start target).cyclePath = none ∧
        topologicalOrder graph.nodes graph.edges (outgoingIndex graph.edges) = some order := by
  simp only [pooFlowGraphAnalysisReceipt]
  cases graphCyclePath graph.nodes graph.edges with
  | some cycle => simp
  | none => simp

def PooFlowGraph.Edge (graph : PooFlowGraph α) (source target : α) : Prop :=
  (source, target) ∈ graph.edges

theorem outgoingNetwork_leads (ids : List α) :
    (outgoingNetwork graph.edges ids).Leads = graph.Edge := by
  funext source target
  exact propext mem_outgoingIndex

theorem incomingNetwork_leads (ids : List α) :
    (incomingNetwork graph.edges ids).Leads = Function.swap graph.Edge := by
  funext source target
  exact propext mem_incomingIndex

theorem mem_pooFlowGraphReachableIds {graph : PooFlowGraph α} {startIds : List α} {id : α} :
    id ∈ pooFlowGraphReachableIds graph startIds ↔
      ∃ first ∈ startIds, ReflTransGen graph.Edge first id := by
  rw [pooFlowGraphReachableIds, Network.mem_walk, outgoingNetwork_leads]
  constructor
  · rintro ⟨first, hfirst, hpath⟩
    obtain ⟨_, hmem, rfl⟩ := mem_pmap.1 hfirst
    exact ⟨_, hmem, hpath⟩
  · rintro ⟨first, hfirst, hpath⟩
    exact ⟨⟨first, mem_append_left _ hfirst⟩, mem_pmap.2 ⟨first, hfirst, rfl⟩, hpath⟩

theorem mem_pooFlowGraphDependencyCone {graph : PooFlowGraph α} {targetIds : List α} {id : α} :
    id ∈ pooFlowGraphDependencyCone graph targetIds ↔
      ∃ last ∈ targetIds, ReflTransGen graph.Edge id last := by
  rw [pooFlowGraphDependencyCone, Network.mem_walk, incomingNetwork_leads]
  constructor
  · rintro ⟨last, hlast, hpath⟩
    obtain ⟨_, hmem, rfl⟩ := mem_pmap.1 hlast
    exact ⟨_, hmem, Relation.reflTransGen_swap.1 hpath⟩
  · rintro ⟨last, hlast, hpath⟩
    exact ⟨⟨last, mem_append_left _ hlast⟩, mem_pmap.2 ⟨last, hlast, rfl⟩,
      Relation.reflTransGen_swap.2 hpath⟩

def PooFlowGraph.reversed (graph : PooFlowGraph α) : PooFlowGraph α :=
  { graph with edges := graph.edges.map Prod.swap }

theorem pooFlowGraphDependencyCone_eq (targetIds : List α) :
    pooFlowGraphDependencyCone graph targetIds =
      pooFlowGraphReachableIds graph.reversed targetIds := by
  have hnetwork : incomingNetwork graph.edges targetIds =
      outgoingNetwork graph.reversed.edges targetIds := by
    simp [incomingNetwork, outgoingNetwork, incomingIndex, outgoingIndex, PooFlowGraph.reversed,
      map_reverse, Function.comp_def]
  have hwalk : ∀ {M N : Network α} (hM : ∀ id ∈ targetIds, id ∈ M.nodes)
      (hN : ∀ id ∈ targetIds, id ∈ N.nodes), M = N →
      M.walk (targetIds.pmap Subtype.mk hM) [] = N.walk (targetIds.pmap Subtype.mk hN) [] := by
    rintro M _ hM hN rfl
    rfl
  exact hwalk _ _ hnetwork

/-- **Walks compute reachability.** The ids that are reached are those that a start
id leads to and each is listed once; they depend on which edges there are, not on
how often an edge occurs. A cone holds the ids that lead to a target id, and is the
walk over the edges turned around. -/
theorem graph_walks_reach (graph : PooFlowGraph α) (ids : List α) :
    (∀ id, id ∈ pooFlowGraphReachableIds graph ids ↔
      ∃ first ∈ ids, Relation.ReflTransGen graph.Edge first id) ∧
    (pooFlowGraphReachableIds graph ids).Nodup ∧
    (∀ id, id ∈ pooFlowGraphDependencyCone graph ids ↔
      ∃ last ∈ ids, Relation.ReflTransGen graph.Edge id last) ∧
    (pooFlowGraphDependencyCone graph ids).Nodup ∧
    pooFlowGraphDependencyCone graph ids = pooFlowGraphReachableIds graph.reversed ids ∧
    ∀ edges : List (α × α), (∀ edge, edge ∈ edges ↔ edge ∈ graph.edges) →
      (pooFlowGraphReachableIds { graph with edges } ids).Perm
          (pooFlowGraphReachableIds graph ids) ∧
        (pooFlowGraphDependencyCone { graph with edges } ids).Perm
          (pooFlowGraphDependencyCone graph ids) := by
  have hreachable : ∀ graph : PooFlowGraph α, (pooFlowGraphReachableIds graph ids).Nodup :=
    fun graph => Network.nodup_walk _ nodup_nil
  have hcone : ∀ graph : PooFlowGraph α, (pooFlowGraphDependencyCone graph ids).Nodup :=
    fun graph => Network.nodup_walk _ nodup_nil
  refine ⟨fun id => mem_pooFlowGraphReachableIds, hreachable graph,
    fun id => mem_pooFlowGraphDependencyCone, hcone graph, pooFlowGraphDependencyCone_eq graph ids,
    fun edges hedges => ?_⟩
  have hedge : PooFlowGraph.Edge { graph with edges } = graph.Edge := by
    funext source target
    exact propext (hedges (source, target))
  constructor
  · refine (perm_ext_iff_of_nodup (hreachable _) (hreachable _)).2 fun id => ?_
    rw [mem_pooFlowGraphReachableIds, mem_pooFlowGraphReachableIds, hedge]
  · refine (perm_ext_iff_of_nodup (hcone _) (hcone _)).2 fun id => ?_
    rw [mem_pooFlowGraphDependencyCone, mem_pooFlowGraphDependencyCone, hedge]

theorem graphCyclePath_eq_none {graph : PooFlowGraph α} :
    graphCyclePath graph.nodes graph.edges = none ↔
      ∀ first ∈ graph.nodes, ∀ id, ReflTransGen graph.Edge first id →
        ¬TransGen graph.Edge id id := by
  rw [graphCyclePath, findCycleFromNodes_none, outgoingNetwork_leads]
  constructor
  · intro h first hfirst
    exact h ⟨first, mem_append_left _ hfirst⟩ (mem_pmap.2 ⟨first, hfirst, rfl⟩)
  · intro h first hfirst
    obtain ⟨id, hid, rfl⟩ := mem_pmap.1 hfirst
    exact h id hid

theorem graphCyclePath_closed {graph : PooFlowGraph α} {cycle : List α}
    (h : graphCyclePath graph.nodes graph.edges = some cycle) : ClosedPath graph.Edge cycle := by
  rw [← outgoingNetwork_leads graph graph.nodes]
  exact findCycleFromNodes_closed h

/-- **Cycle search is sound and complete.** There is a cycle path exactly when a
declared node leads to a cycle, and it starts and ends with the same id and
follows the edges. -/
theorem cycle_path_sound_complete (graph : PooFlowGraph α) :
    (graphCyclePath graph.nodes graph.edges = none ↔
      ¬∃ first ∈ graph.nodes, ∃ id, Relation.ReflTransGen graph.Edge first id ∧
        Relation.TransGen graph.Edge id id) ∧
    ∀ cycle, graphCyclePath graph.nodes graph.edges = some cycle →
      (∃ id inner, cycle = id :: (inner ++ [id])) ∧ cycle.IsChain graph.Edge := by
  refine ⟨graphCyclePath_eq_none.trans ?_, fun cycle hcycle => ?_⟩
  · constructor
    · rintro h ⟨first, hfirst, id, hpath, hcycle⟩
      exact h first hfirst id hpath hcycle
    · intro h first hfirst id hpath hcycle
      exact h ⟨first, hfirst, id, hpath, hcycle⟩
  · obtain ⟨hclosed, hfollows⟩ := graphCyclePath_closed hcycle
    exact ⟨hclosed, hfollows⟩

theorem graphCyclePath_none {nodeIds : List α} {edgePairs : List (α × α)}
    (h : graphCyclePath nodeIds edgePairs = none) :
    ∃ visited, Descends (outgoingNetwork edgePairs nodeIds) visited ∧ nodeIds ⊆ visited := by
  obtain ⟨hdescends, hvisited⟩ := findCycleFromNodes_descends h
  refine ⟨_, hdescends, fun id hid => ?_⟩
  exact hvisited ⟨id, mem_append_left _ hid⟩ (mem_pmap.2 ⟨id, hid, rfl⟩)

/-- **Receipts are consistent.** A receipt with an order has no cycle, and the
order holds the ids of the nodes. Of distinct ids there is an order exactly when
there is no cycle and every edge to a node comes from a node, and it follows the
edges. -/
theorem analysis_receipt_consistent (graph : PooFlowGraph α) (start target : Option (List α)) :
    ((pooFlowGraphAnalysisReceipt graph start target).acyclic = true ↔
      (pooFlowGraphAnalysisReceipt graph start target).cyclePath = none) ∧
    (∀ order, (pooFlowGraphAnalysisReceipt graph start target).topologicalOrder = some order →
      (pooFlowGraphAnalysisReceipt graph start target).acyclic = true ∧
        order.Perm graph.nodes) ∧
    (graph.nodes.Nodup →
      ((pooFlowGraphAnalysisReceipt graph start target).topologicalOrder.isSome = true ↔
        (pooFlowGraphAnalysisReceipt graph start target).acyclic = true ∧ graph.Sourced) ∧
      ∀ order, (pooFlowGraphAnalysisReceipt graph start target).topologicalOrder = some order →
        graph.Forward order) := by
  have hacyclic : (pooFlowGraphAnalysisReceipt graph start target).acyclic = true ↔
      (pooFlowGraphAnalysisReceipt graph start target).cyclePath = none := by
    rw [← Option.isNone_iff_eq_none]
    exact Iff.rfl
  refine ⟨hacyclic, ?_, fun hdistinct => ⟨⟨?_, ?_⟩, ?_⟩⟩
  · intro order horder
    obtain ⟨hcycle, htopological⟩ := (receipt_topologicalOrder graph start target order).1 horder
    exact ⟨hacyclic.2 hcycle, topologicalOrder_perm htopological⟩
  · intro hsome
    obtain ⟨order, horder⟩ := Option.isSome_iff_exists.1 hsome
    obtain ⟨hcycle, htopological⟩ := (receipt_topologicalOrder graph start target order).1 horder
    exact ⟨hacyclic.2 hcycle, (topologicalOrder_follows hdistinct htopological).2⟩
  · rintro ⟨hnone, hsourced⟩
    -- the ids descend in the order in which the search has left them
    have hcycle := hacyclic.1 hnone
    obtain ⟨visited, hdescends, hvisited⟩ := graphCyclePath_none hcycle
    obtain ⟨order, horder⟩ := Option.isSome_iff_exists.1
      (topologicalOrder_isSome hdistinct hdescends hvisited hsourced)
    exact Option.isSome_iff_exists.2
      ⟨order, (receipt_topologicalOrder graph start target order).2 ⟨hcycle, horder⟩⟩
  · intro order horder source target hedge _ htarget
    have htopological := ((receipt_topologicalOrder graph start _ order).1 horder).2
    exact (topologicalOrder_follows hdistinct htopological).1 source target hedge
      ((topologicalOrder_perm htopological).mem_iff.2 htarget)

theorem analysis_receipt_consistent_chain :
    (pooFlowGraphAnalysisReceipt (⟨0, [3, 1, 2], [(1, 2), (2, 3)]⟩ : PooFlowGraph ℕ)
        none none).topologicalOrder.isSome = true ↔
      (pooFlowGraphAnalysisReceipt (⟨0, [3, 1, 2], [(1, 2), (2, 3)]⟩ : PooFlowGraph ℕ)
        none none).acyclic = true ∧
      (⟨0, [3, 1, 2], [(1, 2), (2, 3)]⟩ : PooFlowGraph ℕ).Sourced :=
  ((analysis_receipt_consistent ⟨0, [3, 1, 2], [(1, 2), (2, 3)]⟩ none none).2.2 (by decide)).1

def undeclaredSource : PooFlowGraph ℕ := ⟨0, [1], [(2, 1)]⟩

def declaredTwice : PooFlowGraph ℕ := ⟨0, [1, 1, 3, 4, 2], [(1, 2), (3, 4), (4, 2)]⟩

theorem undeclaredSource_cyclePath :
    graphCyclePath undeclaredSource.nodes undeclaredSource.edges = none := by
  simp [graphCyclePath, findCycleFromNodes, undeclaredSource, outgoingNodes, cycleDfsNeighbors,
    cycleDfs, Network.childNodes, outgoingNetwork, outgoingIndex, collect, pushUnder]

theorem declaredTwice_cyclePath :
    graphCyclePath declaredTwice.nodes declaredTwice.edges = none := by
  simp [graphCyclePath, findCycleFromNodes, declaredTwice, outgoingNodes, cycleDfsNeighbors,
    cycleDfs, Network.childNodes, outgoingNetwork, outgoingIndex, collect, pushUnder]

/-- The edges to `2` are counted down twice for `1`, before `4` is reached. -/
theorem declaredTwice_order : topologicalOrder declaredTwice.nodes declaredTwice.edges
    (outgoingIndex declaredTwice.edges) = some [1, 1, 3, 2, 4] := by
  simp [topologicalOrder, declaredTwice, graphIndegrees, topologicalLoop,
    topologicalEnqueueTargets, outgoingIndex, collect, pushUnder]

/-- **Where receipts are not consistent**: an id that only an undeclared id leads
to is never ready, and a repeated id lets an edge lead backward. -/
theorem analysis_receipt_inconsistent :
    ((pooFlowGraphAnalysisReceipt undeclaredSource none none).acyclic = true ∧
      (pooFlowGraphAnalysisReceipt undeclaredSource none none).topologicalOrder = none) ∧
    (pooFlowGraphAnalysisReceipt declaredTwice none none).topologicalOrder =
        some [1, 1, 3, 2, 4] ∧
      ¬declaredTwice.Forward [1, 1, 3, 2, 4] := by
  refine ⟨⟨?_, ?_⟩, ?_, fun hforward => ?_⟩
  · show (graphCyclePath undeclaredSource.nodes undeclaredSource.edges).isNone = true
    rw [undeclaredSource_cyclePath]
    rfl
  · rw [Option.eq_none_iff_forall_not_mem]
    intro order horder
    have htopological := ((receipt_topologicalOrder undeclaredSource none none order).1 horder).2
    have hsource := (topologicalOrder_follows (nodup_singleton 1) htopological).2 2 1
      (mem_singleton.2 rfl) (mem_singleton.2 rfl)
    exact absurd (mem_singleton.1 hsource) (by decide)
  · exact (receipt_topologicalOrder declaredTwice none none _).2
      ⟨declaredTwice_cyclePath, declaredTwice_order⟩
  · exact absurd (hforward 4 2 (by simp [declaredTwice]) (by simp [declaredTwice])
      (by simp [declaredTwice])) (by decide)

end PooFlow.Analysis
