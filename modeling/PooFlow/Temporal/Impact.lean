import PooFlow.Foundation.Routes
import PooFlow.Foundation.Worklist
import PooFlow.Temporal.Types

/-! The analysis in `funs.ss` of what depends on changed nodes, along selected relations, with a
trajectory to each affected node. -/

namespace PooFlow.Temporal

open Foundation List

variable {α : Type}

structure RelationEdge (α : Type) where
  source : α
  target : α
  kind : String

structure RelationGraph (α : Type) where
  graphId : Datum
  nodes : List α
  edges : List (RelationEdge α)

inductive Direction where
  | dependents | dependencies

inductive ImpactStatus where
  | snapshotScopedImpact | partialImpact | invalidInventory

structure StructuralImpact (α : Type) where
  status : ImpactStatus
  graphId : Datum
  changedNodeIds : List α
  direction : Direction
  selectedRelations : List String
  affectedNodeIds : List α
  relationTrajectories : List (Route α String)
  unresolvedEdges : List (RelationEdge α)

def StructuralImpact.Shape (value : StructuralImpact α) : Prop :=
  value.changedNodeIds ≠ [] ∧ value.selectedRelations ≠ []

variable [DecidableEq α]

instance : DecidablePred (StructuralImpact.Shape (α := α)) := fun _ =>
  inferInstanceAs (Decidable (_ ∧ _))

/-- `node-index`: the ids of the nodes, the last one first. -/
def indexNodes [ToString α] : List α → List α → Except Condition (List α)
  | [], index => .ok index
  | id :: ids, index => do
    guardElse (id ∉ index) (raise "duplicate graph node identity" [toString id])
    indexNodes ids (id :: index)

section

variable (graph : RelationGraph α) (selectedRelations : List String)

def resolvedEdges : List (RelationEdge α) :=
  graph.edges.filter fun edge =>
    edge.kind ∈ selectedRelations ∧ edge.source ∈ graph.nodes ∧ edge.target ∈ graph.nodes

def unresolvedEdges : List (RelationEdge α) :=
  graph.edges.filter fun edge =>
    edge.kind ∈ selectedRelations ∧ ¬(edge.source ∈ graph.nodes ∧ edge.target ∈ graph.nodes)

def RelationEdge.oriented (edge : RelationEdge α) : Direction → α × α × String
  | .dependents => (edge.target, edge.source, edge.kind)
  | .dependencies => (edge.source, edge.target, edge.kind)

/-- `adjacency`, in the order of the edges. -/
def adjacency (direction : Direction) (origin : α) : List (α × String) :=
  (collect ((resolvedEdges graph selectedRelations).map (·.oriented direction)) origin).reverse

theorem mem_adjacency {direction : Direction} {origin destination : α} {relation : String} :
    (destination, relation) ∈ adjacency graph selectedRelations direction origin ↔
      ∃ edge ∈ resolvedEdges graph selectedRelations,
        edge.oriented direction = (origin, destination, relation) := by
  rw [adjacency, mem_reverse, mem_collect, mem_map]

def roads (direction : Direction) : Roads α String where
  nodes := graph.nodes
  next := adjacency graph selectedRelations direction
  closed := by
    intro origin destination relation hnext
    obtain ⟨edge, hedge, horiented⟩ := (mem_adjacency graph selectedRelations).1 hnext
    have hends := (of_decide_eq_true (mem_filter.1 hedge).2).2
    cases direction with
    | dependents =>
      obtain ⟨_, rfl, _⟩ := by simpa [RelationEdge.oriented] using horiented
      exact hends.1
    | dependencies =>
      obtain ⟨_, rfl, _⟩ := by simpa [RelationEdge.oriented] using horiented
      exact hends.2

/-- `poo-flow-structural-impact-analyze`. The queue holds the witnesses of the
waiting nodes in place of their ids. -/
def structuralImpactAnalyze [ToString α] (changedNodeIds : List α) (direction : Direction)
    (inventoryComplete : Bool) : Except Condition (StructuralImpact α) := do
  guardElse (changedNodeIds ≠ [] ∧ changedNodeIds.Nodup ∧ selectedRelations ≠ [])
    (raise "invalid structural Impact selection" [])
  let index ← indexNodes graph.nodes []
  changedNodeIds.forM fun changed =>
    guardElse (changed ∈ index) (raise "changed node is absent from graph" [toString changed])
  let trajectories := ((roads graph selectedRelations direction).exploreFrom changedNodeIds).reverse
  let unresolved := unresolvedEdges graph selectedRelations
  let status :=
    if unresolved ≠ [] then .invalidInventory
    else if inventoryComplete = false then .partialImpact
    else .snapshotScopedImpact
  let receipt : StructuralImpact α :=
    ⟨status, graph.graphId, changedNodeIds, direction, selectedRelations,
      trajectories.map Route.target, trajectories, unresolved⟩
  guardElse receipt.Shape .invalid
  return receipt

end

theorem indexNodes_eq_ok [ToString α] {ids index index' : List α} (hindex : index.Nodup) :
    indexNodes ids index = .ok index' ↔
      (ids.reverse ++ index).Nodup ∧ index' = ids.reverse ++ index := by
  induction ids generalizing index with
  | nil =>
    rw [indexNodes, Except.ok.injEq]
    simp [hindex, eq_comm]
  | cons id ids ih =>
    simp only [indexNodes, bind_eq_ok, guardElse_eq_ok, exists_const, reverse_cons,
      append_assoc, singleton_append]
    constructor
    · rintro ⟨hnew, hrest⟩
      exact (ih (nodup_cons.2 ⟨hnew, hindex⟩)).1 hrest
    · rintro ⟨hnodup, hindex'⟩
      have hcons : (id :: index).Nodup := hnodup.sublist (sublist_append_right _ _)
      exact ⟨(nodup_cons.1 hcons).1, (ih hcons).2 ⟨hnodup, hindex'⟩⟩

section

variable {graph : RelationGraph α} {selectedRelations : List String} {changedNodeIds : List α}
  {direction : Direction}

theorem structuralImpactAnalyze_ok [ToString α] (graph : RelationGraph α)
    (selectedRelations : List String) (changedNodeIds : List α) (direction : Direction)
    (inventoryComplete : Bool) (hnodes : graph.nodes.Nodup)
    (hrelations : selectedRelations ≠ []) (hchanged : changedNodeIds ≠ [])
    (hdistinct : changedNodeIds.Nodup)
    (hpresent : ∀ changed ∈ changedNodeIds, changed ∈ graph.nodes) :
    ∃ receipt, structuralImpactAnalyze graph selectedRelations changedNodeIds direction
        inventoryComplete = .ok receipt ∧ receipt.Shape ∧
      receipt.affectedNodeIds = receipt.relationTrajectories.map Route.target ∧
      receipt.relationTrajectories =
        ((roads graph selectedRelations direction).exploreFrom changedNodeIds).reverse := by
  have hindex : indexNodes graph.nodes [] = .ok (graph.nodes.reverse ++ []) :=
    (indexNodes_eq_ok nodup_nil).2
      ⟨by rwa [append_nil, nodup_reverse], rfl⟩
  rw [structuralImpactAnalyze, guardElse_of ⟨hchanged, hdistinct, hrelations⟩, ok_bind, hindex,
    ok_bind, forM_eq_ok.2 fun changed hmem => guardElse_eq_ok.2 (by
      rw [append_nil, mem_reverse]
      exact hpresent changed hmem), ok_bind]
  dsimp only
  rw [guardElse_of ⟨hchanged, hrelations⟩]
  exact ⟨_, rfl, ⟨hchanged, hrelations⟩, rfl, rfl⟩

/-- **What is affected** is what can be reached from a changed node. -/
theorem mem_affectedNodes {id : α} :
    id ∈ (((roads graph selectedRelations direction).exploreFrom changedNodeIds).reverse.map
        Route.target) ↔
      ∃ changed ∈ changedNodeIds,
        Relation.ReflTransGen (roads graph selectedRelations direction).Leads changed id := by
  rw [map_reverse, mem_reverse, Roads.mem_exploreFrom]

end

section

/-- A selection that the analysis accepts. -/
structure Selects (graph : RelationGraph α) (selectedRelations : List String)
    (changedNodeIds : List α) : Prop where
  nodes : graph.nodes.Nodup
  relations : selectedRelations ≠ []
  changed : changedNodeIds ≠ []
  distinct : changedNodeIds.Nodup
  present : ∀ changed ∈ changedNodeIds, changed ∈ graph.nodes

variable (graph : RelationGraph α) (selectedRelations : List String) (direction : Direction)
  (changedNodeIds : List α)

def Relates (origin : α) (relation : String) (destination : α) : Prop :=
  ∃ edge ∈ graph.edges, edge.kind ∈ selectedRelations ∧ edge.source ∈ graph.nodes ∧
    edge.target ∈ graph.nodes ∧ edge.oriented direction = (origin, destination, relation)

structure ExactImpact (receipt : StructuralImpact α) : Prop where
  affected : ∀ id, id ∈ receipt.affectedNodeIds ↔ ∃ changed ∈ changedNodeIds, Relation.ReflTransGen
      (fun origin destination => ∃ relation,
        Relates graph selectedRelations direction origin relation destination) changed id
  once : receipt.affectedNodeIds.Nodup
  witnessed : receipt.relationTrajectories.map Route.target = receipt.affectedNodeIds
  real : ∀ witness ∈ receipt.relationTrajectories,
    (∃ changed ∈ changedNodeIds, witness.nodePath.head? = some changed) ∧
      witness.nodePath.getLast? = some witness.target ∧
      Way (Relates graph selectedRelations direction) witness.nodePath witness.relationPath
  shortest : ∀ witness ∈ receipt.relationTrajectories, ∀ nodes relations,
    Way (Relates graph selectedRelations direction) nodes relations →
      (∃ changed ∈ changedNodeIds, nodes.head? = some changed) →
        nodes.getLast? = some witness.target →
          witness.relationPath.length ≤ relations.length

variable {graph selectedRelations direction changedNodeIds}

theorem mem_next_iff {origin destination : α} {relation : String} :
    (destination, relation) ∈ (roads graph selectedRelations direction).next origin ↔
      Relates graph selectedRelations direction origin relation destination := by
  show (destination, relation) ∈ adjacency graph selectedRelations direction origin ↔ _
  rw [mem_adjacency]
  simp only [resolvedEdges, mem_filter, decide_eq_true_eq, Relates, and_assoc]

theorem leads_eq : (roads graph selectedRelations direction).Leads =
    fun origin destination => ∃ relation,
      Relates graph selectedRelations direction origin relation destination := by
  funext origin destination
  exact propext (exists_congr fun _ => mem_next_iff)

theorem selects_of_ok [ToString α] {inventoryComplete : Bool} {receipt : StructuralImpact α}
    (h : structuralImpactAnalyze graph selectedRelations changedNodeIds direction
      inventoryComplete = .ok receipt) :
    Selects graph selectedRelations changedNodeIds := by
  rw [structuralImpactAnalyze] at h
  simp only [bind_eq_ok, guardElse_eq_ok, exists_const] at h
  obtain ⟨⟨hchanged, hdistinct, hrelations⟩, index, hindex, ⟨⟩, hpresent, _⟩ := h
  obtain ⟨hnodes, rfl⟩ := (indexNodes_eq_ok nodup_nil).1 hindex
  rw [append_nil] at hnodes hpresent
  refine ⟨nodup_reverse.1 hnodes, hrelations, hchanged, hdistinct, fun changed hmem => ?_⟩
  have hlisted := forM_eq_ok.1 hpresent changed hmem
  rw [guardElse_eq_ok] at hlisted
  exact mem_reverse.1 hlisted

/-- **Structural impact is exact and its witnesses are shortest.** -/
theorem structural_impact_exact [ToString α] (graph : RelationGraph α)
    (selectedRelations : List String) (changedNodeIds : List α) (direction : Direction)
    (inventoryComplete : Bool) :
    ((∃ receipt, structuralImpactAnalyze graph selectedRelations changedNodeIds direction
        inventoryComplete = .ok receipt) ↔ Selects graph selectedRelations changedNodeIds) ∧
    ∀ receipt, structuralImpactAnalyze graph selectedRelations changedNodeIds direction
        inventoryComplete = .ok receipt →
      ExactImpact graph selectedRelations direction changedNodeIds receipt := by
  have haccepts : Selects graph selectedRelations changedNodeIds → _ := fun h =>
    structuralImpactAnalyze_ok graph selectedRelations changedNodeIds direction inventoryComplete
      h.nodes h.relations h.changed h.distinct h.present
  refine ⟨⟨fun ⟨_, h⟩ => selects_of_ok h, fun h => (haccepts h).imp fun _ => And.left⟩, ?_⟩
  intro receipt h
  have hselects := selects_of_ok h
  obtain ⟨found, hfound, _, haffected, htrajectories⟩ := haccepts hselects
  obtain rfl : found = receipt := Except.ok.inj (hfound.symm.trans h)
  have hmem : ∀ witness ∈ found.relationTrajectories,
      witness ∈ (roads graph selectedRelations direction).exploreFrom changedNodeIds := by
    intro witness hwitness
    rwa [htrajectories, mem_reverse] at hwitness
  have hstep : ∀ origin relation destination,
      (destination, relation) ∈ (roads graph selectedRelations direction).next origin ↔
        Relates graph selectedRelations direction origin relation destination :=
    fun _ _ _ => mem_next_iff
  refine ⟨fun id => ?_, ?_, haffected.symm, fun witness hwitness => ?_, ?_⟩
  · rw [haffected, htrajectories, mem_affectedNodes, leads_eq]
  · rw [haffected, htrajectories, map_reverse, nodup_reverse]
    exact Roads.nodup_exploreFrom hselects.distinct
  · have hfollows := (roads graph selectedRelations direction).exploreFrom_follows witness
      (hmem witness hwitness)
    obtain ⟨hhead, hway⟩ := hfollows.way
    exact ⟨hhead, witness.ends, hway.mono fun a label b => (hstep a label b).1⟩
  · rintro witness hwitness nodes relations hway ⟨changed, hchanged, hhead⟩ hlast
    exact Roads.exploreFrom_shortest hselects.distinct (hmem witness hwitness)
      (hway.mono fun a label b => (hstep a label b).2) hchanged hhead hlast

def serviceGraph : RelationGraph String where
  graphId := .symbol "services"
  nodes := ["store", "billing", "shop"]
  edges := [⟨"shop", "billing", "CALLS"⟩, ⟨"billing", "store", "READS"⟩,
    ⟨"shop", "store", "READS"⟩, ⟨"store", "shop", "NOTIFIES"⟩]

theorem service_impact_exact : ∃ receipt,
    structuralImpactAnalyze serviceGraph ["CALLS", "READS"] ["store"] .dependents true =
        .ok receipt ∧
      ExactImpact serviceGraph ["CALLS", "READS"] .dependents ["store"] receipt := by
  have hexact := structural_impact_exact serviceGraph ["CALLS", "READS"] ["store"] .dependents true
  obtain ⟨receipt, h⟩ := hexact.1.2
    ⟨by decide, by decide, by decide, by decide, by decide⟩
  exact ⟨receipt, h, hexact.2 receipt h⟩

end

end PooFlow.Temporal
