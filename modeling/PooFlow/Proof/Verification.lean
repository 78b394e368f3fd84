import PooFlow.Proof.ReceiptGraph

namespace PooFlow.Proof

open Foundation List Function NamedInterfaceAssumption
open Prod (fst mk.inj)
open Except (ok.inj)

variable {sha256 : List UInt8 → List UInt8}

def Supplies (edges : List Edge) (supplier consumer : String) : Prop :=
  ∃ edge ∈ edges, edge.supplierNodeId = supplier ∧ edge.consumerNodeId = consumer

/-- **A graph that composes.** -/
structure Composable (nodes : List (Node sha256)) (edges : List Edge) (terminal : String) :
    Prop where
  unique : (nodes.map fun node => node.nodeId).Nodup
  present : ∃ node ∈ nodes, node.nodeId = terminal
  owned : (nodes.flatMap fun node => node.rootDeclarations).Nodup
  resolved : ∀ edge ∈ edges, (∃ supplier ∈ nodes, supplier.nodeId = edge.supplierNodeId) ∧
    ∃ consumer ∈ nodes, consumer.nodeId = edge.consumerNodeId ∧
      ∃ assumption ∈ consumer.assumedInterfaces, assumption.assumptionId = edge.consumerAssumptionId
  suppliedOnce : ∀ node ∈ nodes, ∀ assumption ∈ node.assumedInterfaces,
    edges.countP (fun edge => edge.assumptionKey = (node.nodeId, assumption.assumptionId)) = 1
  sameBytes : ∀ node ∈ nodes, ∀ assumption ∈ node.assumedInterfaces, ∀ edge ∈ edges,
    edge.assumptionKey = (node.nodeId, assumption.assumptionId) →
      ∀ supplier ∈ nodes, supplier.nodeId = edge.supplierNodeId →
        supplier.providedInterface.canonicalBytes = assumption.interface.canonicalBytes
  acyclic : ∀ id, ¬Relation.TransGen (Supplies edges) id id
  sink : ∀ edge ∈ edges, edge.supplierNodeId ≠ terminal
  reached : ∀ node ∈ nodes, Relation.ReflTransGen (Supplies edges) node.nodeId terminal

structure Topological (nodes : List (Node sha256)) (edges : List Edge) (order : List String) :
    Prop where
  perm : order.Perm (nodes.map fun node => node.nodeId)
  before : ∀ edge ∈ edges, order.idxOf edge.supplierNodeId < order.idxOf edge.consumerNodeId

section

variable {nodes nodes' : List (Node sha256)} {edges edges' : List Edge} {terminal : String}
  {order : List String}

theorem supplies_perm (hedges : edges.Perm edges') : Supplies edges = Supplies edges' := by
  funext supplier consumer
  exact propext ⟨fun ⟨edge, hedge, h⟩ => ⟨edge, hedges.mem_iff.1 hedge, h⟩,
    fun ⟨edge, hedge, h⟩ => ⟨edge, hedges.mem_iff.2 hedge, h⟩⟩

theorem Composable.perm (h : Composable nodes edges terminal) (hnodes : nodes.Perm nodes')
    (hedges : edges.Perm edges') : Composable nodes' edges' terminal where
  unique := (hnodes.map _).nodup_iff.1 h.unique
  present := by
    obtain ⟨node, hnode, hid⟩ := h.present
    exact ⟨node, hnodes.mem_iff.1 hnode, hid⟩
  owned := (hnodes.flatMap_right _).nodup_iff.1 h.owned
  resolved edge hedge := by
    obtain ⟨⟨supplier, hsupplier, hid⟩, consumer, hconsumer, h⟩ :=
      h.resolved edge (hedges.mem_iff.2 hedge)
    exact ⟨⟨supplier, hnodes.mem_iff.1 hsupplier, hid⟩, consumer, hnodes.mem_iff.1 hconsumer, h⟩
  suppliedOnce node hnode assumption hassumption := by
    rw [← hedges.countP_eq]
    exact h.suppliedOnce node (hnodes.mem_iff.2 hnode) assumption hassumption
  sameBytes node hnode assumption hassumption edge hedge hkey supplier hsupplier :=
    h.sameBytes node (hnodes.mem_iff.2 hnode) assumption hassumption edge (hedges.mem_iff.2 hedge)
      hkey supplier (hnodes.mem_iff.2 hsupplier)
  acyclic := supplies_perm hedges ▸ h.acyclic
  sink edge hedge := h.sink edge (hedges.mem_iff.2 hedge)
  reached node hnode := supplies_perm hedges ▸ h.reached node (hnodes.mem_iff.2 hnode)

theorem Topological.of_perm (h : Topological nodes edges order) (hnodes : nodes.Perm nodes')
    (hedges : edges.Perm edges') : Topological nodes' edges' order :=
  ⟨h.perm.trans (hnodes.map _), fun edge hedge => h.before edge (hedges.mem_iff.2 hedge)⟩

end

theorem ownDeclarations_eq_ok {rows owners result : List (String × String)} :
    ownDeclarations rows owners = .ok result ↔ (rows.map fst).Nodup ∧
      (∀ row ∈ rows, row.1 ∉ owners.map fst) ∧ result = owners ++ rows := by
  induction rows generalizing owners with
  | nil =>
    rw [ownDeclarations, append_nil]
    exact ⟨fun h => ⟨nodup_nil, forall_mem_nil _, (ok.inj h).symm⟩,
      fun h => congrArg Except.ok h.2.2.symm⟩
  | cons row rows ih =>
    obtain ⟨declaration, nodeId⟩ := row
    rw [ownDeclarations, map_cons, nodup_cons, forall_mem_cons]
    cases hfind : owners.find? (·.1 = declaration) with
    | some previous =>
      have hmem := mem_of_find?_eq_some hfind
      have heq : previous.1 = declaration := by simpa using List.find?_some hfind
      refine iff_of_false (fun h => by cases h) fun h => h.2.1.1 ?_
      exact mem_map.2 ⟨previous, hmem, heq⟩
    | none =>
      dsimp only
      have hfresh : declaration ∉ owners.map fst := by
        rw [mem_map]
        rintro ⟨owner, howner, heq⟩
        exact List.find?_eq_none.1 hfind owner howner (decide_eq_true heq)
      rw [ih, append_assoc, singleton_append]
      simp only [map_append, map_cons, map_nil, mem_append, mem_singleton, not_or]
      constructor
      · rintro ⟨hnodup, hrest, rfl⟩
        refine ⟨⟨fun hmem => ?_, hnodup⟩, ⟨hfresh, fun row hrow => (hrest row hrow).1⟩, rfl⟩
        obtain ⟨row, hrow, heq⟩ := mem_map.1 hmem
        exact (hrest row hrow).2 heq
      · rintro ⟨⟨hnot, hnodup⟩, ⟨-, hrest⟩, rfl⟩
        exact ⟨hnodup, fun row hrow => ⟨hrest row hrow,
          fun heq => hnot (heq ▸ mem_map_of_mem hrow)⟩, rfl⟩

theorem CanonicalInterface.digest_eq (interface : CanonicalInterface sha256) :
    interface.digest = sha256Digest sha256 interface.canonicalBytes :=
  (guardElse_eq_ok.1 (then_eq_ok.1 interface.valid).2).symm

section

variable {graph : ProofBaseReceiptGraph sha256} {edge : Edge} {wiring wiring' : Wiring}

open ProofBaseReceiptGraph

def Wired (graph : ProofBaseReceiptGraph sha256) (edge : Edge) : Prop :=
  ∃ supplier assumption, graph.node? edge.supplierNodeId = some supplier ∧
    (graph.node? edge.consumerNodeId).isSome = true ∧
    graph.assumption? edge.assumptionKey = some assumption ∧
    supplier.providedInterface.canonicalBytes = assumption.interface.canonicalBytes

theorem wireEdge_eq_ok : graph.wireEdge wiring edge = .ok wiring' ↔
    Wired graph edge ∧ edge.assumptionKey ∉ wiring.supplied ∧ wiring' = wiring.connect edge := by
  rw [wireEdge, bind_eq_ok]
  simp only [presentElse_eq_ok, bind_eq_ok, guardElse_eq_ok]
  constructor
  · rintro ⟨supplier, hsupplier, -, hconsumer, assumption, hassumption, -, hfresh, -, ⟨hbytes, -⟩,
      hwiring⟩
    exact ⟨⟨supplier, assumption, hsupplier, hconsumer, hassumption, hbytes⟩,
      forall_mem_ne'.1 hfresh, (ok.inj hwiring).symm⟩
  · rintro ⟨⟨supplier, assumption, hsupplier, hconsumer, hassumption, hbytes⟩, hfresh, rfl⟩
    refine ⟨supplier, hsupplier, (), hconsumer, assumption, hassumption, (),
      forall_mem_ne'.2 hfresh, (), ⟨hbytes, ?_⟩, rfl⟩
    rw [supplier.providedInterface.digest_eq, assumption.interface.digest_eq, hbytes]

variable {edges : List Edge} {ids : List String} {id : String} {key : String × String}
  {assumption : NamedInterfaceAssumption sha256}

theorem wireEdges_eq_ok : graph.wireEdges edges wiring = .ok wiring' ↔
    (∀ edge ∈ edges, Wired graph edge) ∧ (edges.map Edge.assumptionKey).Nodup ∧
      (∀ edge ∈ edges, edge.assumptionKey ∉ wiring.supplied) ∧
      wiring' = edges.foldl Wiring.connect wiring := by
  induction edges generalizing wiring with
  | nil =>
    rw [wireEdges]
    exact ⟨fun h => ⟨forall_mem_nil _, nodup_nil, forall_mem_nil _,
      (ok.inj h).symm⟩, fun h => congrArg Except.ok h.2.2.2.symm⟩
  | cons edge edges ih =>
    rw [wireEdges, bind_eq_ok, forall_mem_cons, forall_mem_cons, map_cons, nodup_cons, foldl_cons]
    simp only [wireEdge_eq_ok, ih, Wiring.connect]
    constructor
    · rintro ⟨next, ⟨hwired, hfresh, rfl⟩, hrest, hnodup, hdisjoint, rfl⟩
      refine ⟨⟨hwired, hrest⟩, ⟨fun hmem => ?_, hnodup⟩, ⟨hfresh, fun other hother hmem => ?_⟩, rfl⟩
      · obtain ⟨other, hother, heq⟩ := mem_map.1 hmem
        exact hdisjoint other hother (mem_append_right _ (mem_singleton.2 heq))
      · exact hdisjoint other hother (mem_append_left _ hmem)
    · rintro ⟨⟨hwired, hrest⟩, ⟨hnot, hnodup⟩, ⟨hfresh, hdisjoint⟩, rfl⟩
      refine ⟨_, ⟨hwired, hfresh, rfl⟩, hrest, hnodup, fun other hother hmem => ?_, rfl⟩
      rcases mem_append.1 hmem with hmem | hmem
      · exact hdisjoint other hother hmem
      · exact hnot (mem_singleton.1 hmem ▸ mem_map_of_mem hother)

/-- What the loop over some edges has filled, for suppliers among some ids. -/
structure Wires (ids : List String) (edges : List Edge) (wiring : Wiring) : Prop where
  supplied : wiring.supplied = edges.map Edge.assumptionKey
  adjacency : ∀ supplier consumer,
    consumer ∈ wiring.adjacency supplier ↔ Supplies edges supplier consumer
  distinct : ∀ supplier, (wiring.adjacency supplier).Nodup
  indegree : ∀ consumer, wiring.indegree consumer =
    (ids.filter fun supplier => consumer ∈ wiring.adjacency supplier).length

variable {supplier consumer : String} {receipt : VerifiedCompositionReceipt}

theorem supplies_append :
    Supplies (edges ++ [edge]) supplier consumer ↔ Supplies edges supplier consumer ∨
      edge.supplierNodeId = supplier ∧ edge.consumerNodeId = consumer := by
  simp only [Supplies, mem_append, mem_singleton]
  constructor
  · rintro ⟨other, hother | rfl, h⟩
    · exact .inl ⟨other, hother, h⟩
    · exact .inr h
  · rintro (⟨other, hother, h⟩ | h)
    · exact ⟨other, .inl hother, h⟩
    · exact ⟨edge, .inr rfl, h⟩

theorem length_filter_update (hids : ids.Nodup) {adjacency : String → List String}
    (hsupplier : supplier ∈ ids) (hnot : consumer ∉ adjacency supplier) (other : String) :
    (ids.filter fun id => other ∈ Function.update adjacency supplier
      (adjacency supplier ++ [consumer]) id).length =
      (ids.filter fun id => other ∈ adjacency id).length + if other = consumer then 1 else 0 := by
  by_cases heq : other = consumer
  · subst heq
    have hsplit : (ids.filter fun id => other ∈ adjacency id) =
        (ids.filter fun id => other ∈ Function.update adjacency supplier
          (adjacency supplier ++ [other]) id).filter (· != supplier) := by
      rw [filter_filter]
      refine filter_congr fun id _ => ?_
      rw [Bool.eq_iff_iff]
      by_cases hid : id = supplier
      · subst hid
        simpa using hnot
      · simp [hid]
    have hmem : supplier ∈ ids.filter fun id => other ∈ Function.update adjacency supplier
        (adjacency supplier ++ [other]) id :=
      mem_filter.2 ⟨hsupplier, by simp⟩
    have hpos := length_pos_of_mem hmem
    rw [if_pos rfl, hsplit, ← (hids.filter _).erase_eq_filter, length_erase_of_mem hmem]
    omega
  · rw [if_neg heq, Nat.add_zero]
    congr 1
    refine filter_congr fun id _ => ?_
    by_cases hid : id = supplier
    · subst hid
      simp [heq]
    · simp [hid]

theorem Wires.connect (h : Wires ids edges wiring) (hids : ids.Nodup)
    (hsupplier : edge.supplierNodeId ∈ ids) :
    Wires ids (edges ++ [edge]) (wiring.connect edge) := by
  have hsupplied : (wiring.connect edge).supplied = (edges ++ [edge]).map Edge.assumptionKey := by
    rw [Wiring.connect, h.supplied, map_append]
    rfl
  by_cases hmem : edge.consumerNodeId ∈ wiring.adjacency edge.supplierNodeId
  · have hadjacency : (wiring.connect edge).adjacency = wiring.adjacency := if_pos hmem
    have hindegree : (wiring.connect edge).indegree = wiring.indegree := if_pos hmem
    refine ⟨hsupplied, fun supplier consumer => ?_, ?_, ?_⟩
    · rw [hadjacency, supplies_append, ← h.adjacency]
      refine ⟨.inl, ?_⟩
      rintro (hold | ⟨rfl, rfl⟩)
      · exact hold
      · exact hmem
    · rw [hadjacency]
      exact h.distinct
    · rw [hadjacency, hindegree]
      exact h.indegree
  · have hadjacency : (wiring.connect edge).adjacency =
        Function.update wiring.adjacency edge.supplierNodeId
          (wiring.adjacency edge.supplierNodeId ++ [edge.consumerNodeId]) := if_neg hmem
    have hindegree : (wiring.connect edge).indegree = Function.update wiring.indegree
        edge.consumerNodeId (wiring.indegree edge.consumerNodeId + 1) := if_neg hmem
    refine ⟨hsupplied, fun supplier consumer => ?_, fun supplier => ?_, fun consumer => ?_⟩
    · rw [hadjacency, supplies_append, ← h.adjacency]
      by_cases heq : supplier = edge.supplierNodeId
      · subst heq
        simp [eq_comm]
      · rw [update_of_ne heq]
        exact ⟨.inl, fun hor => hor.resolve_right fun hnew => heq hnew.1.symm⟩
    · rw [hadjacency]
      by_cases heq : supplier = edge.supplierNodeId
      · subst heq
        rw [update_self]
        refine nodup_append.2 ⟨h.distinct _, nodup_singleton _, fun a ha b hb hab => ?_⟩
        exact hmem (mem_singleton.1 hb ▸ hab ▸ ha)
      · rw [update_of_ne heq]
        exact h.distinct supplier
    · rw [hadjacency, hindegree, length_filter_update hids hsupplier hmem]
      by_cases heq : consumer = edge.consumerNodeId
      · subst heq
        rw [update_self, h.indegree, if_pos rfl, Nat.cast_add, Nat.cast_one]
      · rw [update_of_ne heq, h.indegree, if_neg heq, Nat.add_zero]

theorem wires_foldl (hids : ids.Nodup) (hsuppliers : ∀ edge ∈ edges, edge.supplierNodeId ∈ ids) :
    Wires ids edges (edges.foldl Wiring.connect Wiring.empty) := by
  induction edges using List.reverseRecOn with
  | nil =>
    refine ⟨rfl, fun supplier consumer => ?_, fun supplier => nodup_nil, fun consumer => ?_⟩
    · exact iff_of_false not_mem_nil fun ⟨edge, hedge, _⟩ => not_mem_nil hedge
    · have hnone : (ids.filter fun supplier => consumer ∈ Wiring.empty.adjacency supplier) = [] :=
        filter_eq_nil_iff.2 fun supplier _ hmem =>
          not_mem_nil (of_decide_eq_true hmem)
      rw [foldl_nil, hnone]
      rfl
  | append_singleton edges edge ih =>
    rw [foldl_append, foldl_cons, foldl_nil]
    exact (ih fun other hother => hsuppliers other (mem_append_left _ hother)).connect hids
      (hsuppliers edge (mem_append_right _ (mem_singleton_self edge)))

theorem mem_nodeIds : id ∈ graph.nodeIds ↔ ∃ node ∈ graph.nodes, node.nodeId = id :=
  mem_map

theorem node?_eq_some {node : Node sha256} (h : graph.node? id = some node) :
    node ∈ graph.nodes ∧ node.nodeId = id :=
  ⟨mem_of_find?_eq_some h, by simpa using List.find?_some h⟩

theorem isSome_node? : (graph.node? id).isSome = true ↔ id ∈ graph.nodeIds := by
  rw [node?, List.find?_isSome, mem_nodeIds]
  simp

theorem mem_assumptions : (key, assumption) ∈ graph.assumptions ↔ ∃ node ∈ graph.nodes,
      assumption ∈ node.assumedInterfaces ∧ key = (node.nodeId, assumption.assumptionId) := by
  simp only [assumptions, mem_flatMap, mem_map, Prod.mk.injEq]
  constructor
  · rintro ⟨node, hnode, assumption', hassumption, rfl, rfl⟩
    exact ⟨node, hnode, hassumption, rfl⟩
  · rintro ⟨node, hnode, hassumption, rfl⟩
    exact ⟨node, hnode, assumption, hassumption, rfl, rfl⟩

theorem assumption?_eq_some (h : graph.assumption? key = some assumption) :
    (key, assumption) ∈ graph.assumptions := by
  obtain ⟨row, hfind, rfl⟩ := Option.map_eq_some_iff.1 h
  have hkey : row.1 = key := by simpa using List.find?_some hfind
  rw [← hkey]
  exact mem_of_find?_eq_some hfind

theorem assumption?_of_mem (h : (key, assumption) ∈ graph.assumptions) :
    ∃ found, graph.assumption? key = some found := by
  have hsome : (graph.assumptions.find? (·.1 = key)).isSome = true := by
    rw [List.find?_isSome]
    exact ⟨_, h, decide_eq_true rfl⟩
  obtain ⟨row, hrow⟩ := Option.isSome_iff_exists.1 hsome
  exact ⟨row.2, by rw [assumption?, hrow]; rfl⟩

theorem node_eq (hunique : graph.nodeIds.Nodup) {node node' : Node sha256}
    (hnode : node ∈ graph.nodes) (hnode' : node' ∈ graph.nodes) (hid : node.nodeId = node'.nodeId) :
    node = node' :=
  inj_on_of_nodup_map hunique hnode hnode' hid

theorem NodeFields.assumptionIds_nodup {fields : NodeFields sha256} (h : fields.check = .ok ()) :
    (fields.assumedInterfaces.map assumptionId).Nodup := by
  simp only [NodeFields.check, then_eq_ok] at h
  obtain ⟨-, -, -, -, -, hdistinct, -⟩ := h
  exact guardElse_eq_ok.1 hdistinct

theorem assumption?_eq (hunique : graph.nodeIds.Nodup) {node : Node sha256}
    (hnode : node ∈ graph.nodes) {found : NamedInterfaceAssumption sha256}
    (hassumption : assumption ∈ node.assumedInterfaces)
    (hfound : graph.assumption? (node.nodeId, assumption.assumptionId) = some found) :
    found = assumption := by
  obtain ⟨node', hnode', hmem, hkey⟩ := mem_assumptions.1 (assumption?_eq_some hfound)
  obtain ⟨hid, hname⟩ := mk.inj hkey
  obtain rfl := node_eq hunique hnode hnode' hid
  exact inj_on_of_nodup_map (NodeFields.assumptionIds_nodup node.valid) hmem hassumption hname.symm

theorem Composable.wired (h : Composable graph.nodes graph.edges graph.terminalNodeId)
    (hedge : edge ∈ graph.edges) : Wired graph edge := by
  obtain ⟨⟨supplier, hsupplier, hid⟩, consumer, hconsumer, hconsumerId, assumption, hassumption,
    hname⟩ := h.resolved edge hedge
  have hkey : edge.assumptionKey = (consumer.nodeId, assumption.assumptionId) := by
    rw [hconsumerId, hname]
    rfl
  obtain ⟨found, hfound⟩ := assumption?_of_mem (mem_assumptions.2
    ⟨consumer, hconsumer, hassumption, hkey⟩)
  obtain ⟨supplier', hsupplier'⟩ :=
    Option.isSome_iff_exists.1 (isSome_node?.2 (mem_nodeIds.2 ⟨supplier, hsupplier, hid⟩))
  obtain ⟨hmem, hid'⟩ := node?_eq_some hsupplier'
  obtain ⟨owner, howner, hfoundMem, hfoundKey⟩ := mem_assumptions.1 (assumption?_eq_some hfound)
  exact ⟨supplier', found, hsupplier', isSome_node?.2 (mem_nodeIds.2 ⟨consumer, hconsumer,
    hconsumerId⟩), hfound, h.sameBytes owner howner found hfoundMem edge hedge hfoundKey supplier'
      hmem hid'⟩

theorem Composable.nodup_keys (h : Composable graph.nodes graph.edges graph.terminalNodeId) :
    (graph.edges.map Edge.assumptionKey).Nodup := by
  rw [nodup_iff_count_le_one]
  intro key
  by_cases hmem : key ∈ graph.edges.map Edge.assumptionKey
  · obtain ⟨edge, hedge, rfl⟩ := mem_map.1 hmem
    obtain ⟨-, consumer, hconsumer, hid, assumption, hassumption, hname⟩ := h.resolved edge hedge
    have hkey : edge.assumptionKey = (consumer.nodeId, assumption.assumptionId) := by
      rw [hid, hname]
      rfl
    have hone := h.suppliedOnce consumer hconsumer assumption hassumption
    rw [List.count, countP_map, hkey]
    refine le_of_eq_of_le (countP_congr fun other _ => ?_) hone.le
    simp
  · rw [count_eq_zero_of_not_mem hmem]
    exact Nat.zero_le 1

def precedence (hunique : graph.nodeIds.Nodup) (hwires : Wires graph.nodeIds graph.edges wiring)
    (hwired : ∀ edge ∈ graph.edges, Wired graph edge) : Precedence String where
  vertices := graph.nodeIds
  successors := wiring.adjacency
  distinct := hunique
  successors_distinct := hwires.distinct
  closed supplier consumer h := by
    obtain ⟨edge, hedge, rfl, rfl⟩ := (hwires.adjacency supplier consumer).1 h
    obtain ⟨node, assumption, hsupplier, hconsumer, -⟩ := hwired edge hedge
    obtain ⟨hnode, hid⟩ := node?_eq_some hsupplier
    exact ⟨mem_nodeIds.2 ⟨node, hnode, hid⟩, isSome_node?.1 hconsumer⟩

/-- What is left of `verify` after the loop over the edges. -/
structure Closed (graph : ProofBaseReceiptGraph sha256) (wiring : Wiring) : Prop where
  unresolved : graph.unresolvedAssumptions wiring = []
  sink : wiring.adjacency graph.terminalNodeId = []
  ordered : (graph.topologicalOrder wiring).length = graph.nodes.length
  connected : graph.disconnected wiring = []

def receiptOf (graph : ProofBaseReceiptGraph sha256) (wiring : Wiring) :
    VerifiedCompositionReceipt where
  schemaId := compositionReceiptSchema
  graphDigest := graph.graphDigest
  terminalNodeId := graph.terminalNodeId
  topologicalOrder := graph.topologicalOrder wiring
  nodeCount := graph.nodes.length
  edgeCount := graph.edges.length
  rootDeclarationCount := graph.declarations.length

theorem verify_eq_ok :
    graph.verify = .ok receipt ↔ graph.schemaId = receiptGraphSchema ∧ graph.nodeIds.Nodup ∧
      graph.terminalNodeId ∈ graph.nodeIds ∧ (graph.declarations.map fst).Nodup ∧
      (∀ edge ∈ graph.edges, Wired graph edge) ∧ (graph.edges.map Edge.assumptionKey).Nodup ∧
      Closed graph (graph.edges.foldl Wiring.connect Wiring.empty) ∧
      receipt = receiptOf graph (graph.edges.foldl Wiring.connect Wiring.empty) := by
  rw [verify]
  simp only [bind_eq_ok, guardElse_eq_ok, ownDeclarations_eq_ok, wireEdges_eq_ok]
  constructor
  · rintro ⟨-, hschema, -, -, -, hunique, -, hterminal, owners, ⟨howned, -, rfl⟩, wiring,
      ⟨hwired, hkeys, -, rfl⟩, h⟩
    split at h
    · cases h
    · next hunresolved =>
      simp only [bind_eq_ok, guardElse_eq_ok] at h
      obtain ⟨-, hsink, -, hordered, h⟩ := h
      split at h
      · cases h
      · next hconnected => exact ⟨hschema, hunique, hterminal, howned, hwired, hkeys,
          ⟨hunresolved, hsink, hordered, hconnected⟩, (ok.inj h).symm⟩
  · rintro ⟨hschema, hunique, hterminal, howned, hwired, hkeys, hclosed, rfl⟩
    have hnonempty : graph.nodes.isEmpty = false := by
      obtain ⟨node, hnode, -⟩ := mem_nodeIds.1 hterminal
      exact isEmpty_eq_false_iff.2 (ne_nil_of_mem hnode)
    refine ⟨(), hschema, (), hnonempty, (), hunique, (), hterminal, _, ⟨howned,
      fun row _ => not_mem_nil, rfl⟩, _, ⟨hwired, hkeys, fun edge _ => not_mem_nil, rfl⟩, ?_⟩
    rw [hclosed.unresolved]
    simp only [bind_eq_ok, guardElse_eq_ok]
    refine ⟨(), hclosed.sink, (), hclosed.ordered, ?_⟩
    rw [hclosed.connected]
    rfl

theorem sortOn_eq_nil {α β : Type} [LinearOrder β] {key : α → β} {values : List α} :
    sortOn key values = [] ↔ values = [] :=
  ⟨fun h => eq_nil_of_length_eq_zero (by rw [← (perm_sortOn key values).length_eq, h]; rfl),
    fun h => by rw [h]; rfl⟩

theorem leads_precedence (hunique : graph.nodeIds.Nodup)
    (hwires : Wires graph.nodeIds graph.edges wiring)
    (hwired : ∀ edge ∈ graph.edges, Wired graph edge) :
    (precedence hunique hwires hwired).Leads = Supplies graph.edges := by
  funext supplier consumer
  exact propext (hwires.adjacency supplier consumer)

theorem unresolvedAssumptions_eq_nil (hwires : Wires graph.nodeIds graph.edges wiring) :
    graph.unresolvedAssumptions wiring = [] ↔
      ∀ node ∈ graph.nodes, ∀ assumption ∈ node.assumedInterfaces,
        (node.nodeId, assumption.assumptionId) ∈ graph.edges.map Edge.assumptionKey := by
  rw [unresolvedAssumptions, sortOn_eq_nil, filter_eq_nil_iff, hwires.supplied]
  simp only [decide_eq_true_eq, forall_mem_ne', not_not]
  rw [forall_mem_map]
  constructor
  · exact fun h node hnode assumption hassumption =>
      h _ (mem_assumptions.2 ⟨node, hnode, hassumption, rfl⟩)
  · rintro h ⟨key, assumption⟩ hmem
    obtain ⟨node, hnode, hassumption, rfl⟩ := mem_assumptions.1 hmem
    exact h node hnode assumption hassumption

theorem adjacency_terminal_eq_nil (hwires : Wires graph.nodeIds graph.edges wiring) :
    wiring.adjacency graph.terminalNodeId = [] ↔
      ∀ edge ∈ graph.edges, edge.supplierNodeId ≠ graph.terminalNodeId := by
  rw [eq_nil_iff_forall_not_mem]
  constructor
  · exact fun h edge hedge heq => h edge.consumerNodeId
      ((hwires.adjacency _ _).2 ⟨edge, hedge, heq, rfl⟩)
  · intro h consumer hmem
    obtain ⟨edge, hedge, heq, -⟩ := (hwires.adjacency _ _).1 hmem
    exact h edge hedge heq

section

variable (hunique : graph.nodeIds.Nodup) (hwires : Wires graph.nodeIds graph.edges wiring)
  (hwired : ∀ edge ∈ graph.edges, Wired graph edge)

include hunique hwires hwired

theorem topologicalOrder_complete_iff :
    (graph.topologicalOrder wiring).length = graph.nodes.length ↔
      ∀ id, ¬Relation.TransGen (Supplies graph.edges) id id := by
  have hiff := @Precedence.elimination_complete_iff _ (precedence hunique hwires hwired) _
    wiring.indegree hwires.indegree
  rw [Precedence.Acyclic, leads_precedence] at hiff
  rw [← hiff, show (precedence hunique hwires hwired).vertices.length = graph.nodes.length from
    length_map _]
  rfl

theorem disconnected_eq_nil (hterminal : graph.terminalNodeId ∈ graph.nodeIds) :
    graph.disconnected wiring = [] ↔ ∀ node ∈ graph.nodes,
      Relation.ReflTransGen (Supplies graph.edges) node.nodeId graph.terminalNodeId := by
  have hback : (fun consumer supplier => supplier ∈ graph.reverseAdjacency wiring consumer) =
      Function.swap (Supplies graph.edges) := by
    funext consumer supplier
    rw [reverseAdjacency, mem_filter, decide_eq_true_eq, hwires.adjacency]
    refine propext ⟨And.right, fun h => ⟨?_, h⟩⟩
    exact ((precedence hunique hwires hwired).closed _ _ ((hwires.adjacency _ _).2 h)).1
  rw [disconnected, sortOn_eq_nil, filter_eq_nil_iff, nodeIds, forall_mem_map]
  simp only [decide_eq_true_eq, not_not]
  refine forall₂_congr fun node _ => ?_
  have hmem : node.nodeId ∈ graph.reachesTerminal wiring ↔ Relation.ReflTransGen
      (fun consumer supplier => supplier ∈ graph.reverseAdjacency wiring consumer)
      graph.terminalNodeId node.nodeId :=
    mem_spread hterminal (fun _ => hunique.filter _) fun _ => filter_subset_self _
  rw [hmem, hback, Relation.reflTransGen_swap]

theorem closed_iff (hterminal : graph.terminalNodeId ∈ graph.nodeIds) : Closed graph wiring ↔
      (∀ node ∈ graph.nodes, ∀ assumption ∈ node.assumedInterfaces,
        (node.nodeId, assumption.assumptionId) ∈ graph.edges.map Edge.assumptionKey) ∧
      (∀ edge ∈ graph.edges, edge.supplierNodeId ≠ graph.terminalNodeId) ∧
      (∀ id, ¬Relation.TransGen (Supplies graph.edges) id id) ∧
      ∀ node ∈ graph.nodes,
        Relation.ReflTransGen (Supplies graph.edges) node.nodeId graph.terminalNodeId := by
  have hunresolved := unresolvedAssumptions_eq_nil hwires
  have hsink := adjacency_terminal_eq_nil hwires
  have hordered := topologicalOrder_complete_iff hunique hwires hwired
  have hconnected := disconnected_eq_nil hunique hwires hwired hterminal
  exact ⟨fun h => ⟨hunresolved.1 h.unresolved, hsink.1 h.sink, hordered.1 h.ordered,
    hconnected.1 h.connected⟩, fun h => ⟨hunresolved.2 h.1, hsink.2 h.2.1, hordered.2 h.2.2.1,
      hconnected.2 h.2.2.2⟩⟩

end

theorem suppliers_declared (hwired : ∀ edge ∈ graph.edges, Wired graph edge) :
    ∀ edge ∈ graph.edges, edge.supplierNodeId ∈ graph.nodeIds := by
  intro edge hedge
  obtain ⟨supplier, -, hsupplier, -⟩ := hwired edge hedge
  obtain ⟨hnode, hid⟩ := node?_eq_some hsupplier
  exact mem_nodeIds.2 ⟨supplier, hnode, hid⟩

/-- **`verify` accepts the graphs that compose.** -/
theorem verify_eq_ok_iff : (∃ receipt, graph.verify = .ok receipt) ↔
    graph.schemaId = receiptGraphSchema ∧
      Composable graph.nodes graph.edges graph.terminalNodeId := by
  have hdeclarations : graph.declarations.map fst =
      graph.nodes.flatMap fun node => node.rootDeclarations := by
    rw [declarations, map_flatMap]
    congr 1
    funext node
    rw [map_map]
    exact map_id _
  constructor
  · rintro ⟨receipt, h⟩
    obtain ⟨hschema, hunique, hterminal, howned, hwired, hkeys, hclosed, -⟩ := verify_eq_ok.1 h
    have hsuppliers := suppliers_declared hwired
    obtain ⟨hsupplied, hsink, hacyclic, hreached⟩ :=
      (closed_iff hunique (wires_foldl hunique hsuppliers) hwired hterminal).1 hclosed
    refine ⟨hschema, hunique, mem_nodeIds.1 hterminal, hdeclarations ▸ howned, fun edge hedge => ?_,
      fun node hnode assumption hassumption => ?_, ?_, hacyclic, hsink, hreached⟩
    · obtain ⟨supplier, assumption, hsupplier, -, hassumption, -⟩ := hwired edge hedge
      obtain ⟨hnode, hid⟩ := node?_eq_some hsupplier
      obtain ⟨consumer, hconsumer, hmem, hkey⟩ := mem_assumptions.1 (assumption?_eq_some hassumption)
      obtain ⟨hconsumerId, hname⟩ := mk.inj hkey
      exact ⟨⟨supplier, hnode, hid⟩, consumer, hconsumer, hconsumerId.symm, assumption, hmem,
        hname.symm⟩
    · have hcount := count_eq_one_of_mem hkeys (hsupplied node hnode assumption hassumption)
      rw [List.count, countP_map] at hcount
      refine (countP_congr fun edge _ => ?_).trans hcount
      simp
    · intro node hnode assumption hassumption edge hedge hkey supplier hsupplier hid
      obtain ⟨supplier', found, hsupplier', -, hfound, hbytes⟩ := hwired edge hedge
      obtain ⟨hmem, hid'⟩ := node?_eq_some hsupplier'
      obtain rfl := node_eq hunique hsupplier hmem (hid.trans hid'.symm)
      rw [hkey] at hfound
      rw [hbytes, assumption?_eq hunique hnode hassumption hfound]
  · rintro ⟨hschema, h⟩
    have hwired : ∀ edge ∈ graph.edges, Wired graph edge := fun edge hedge => h.wired hedge
    have hsuppliers : ∀ edge ∈ graph.edges, edge.supplierNodeId ∈ graph.nodeIds :=
      fun edge hedge => mem_nodeIds.2 (h.resolved edge hedge).1
    have hterminal : graph.terminalNodeId ∈ graph.nodeIds := mem_nodeIds.2 h.present
    refine ⟨_, verify_eq_ok.2 ⟨hschema, h.unique, hterminal, hdeclarations.symm ▸ h.owned, hwired,
      h.nodup_keys, ?_, rfl⟩⟩
    refine (closed_iff h.unique (wires_foldl h.unique hsuppliers) hwired hterminal).2
      ⟨fun node hnode assumption hassumption => ?_, h.sink, h.acyclic, h.reached⟩
    have hone := h.suppliedOnce node hnode assumption hassumption
    obtain ⟨edge, hedge, hkey⟩ := countP_pos_iff.1 (hone ▸ Nat.one_pos)
    exact mem_map.2 ⟨edge, hedge, of_decide_eq_true hkey⟩

/-- **The order that is returned is the least one.** -/
theorem topologicalOrder_least (h : graph.verify = .ok receipt) :
    Topological graph.nodes graph.edges receipt.topologicalOrder ∧
      ∀ other, Topological graph.nodes graph.edges other → receipt.topologicalOrder ≤ other := by
  obtain ⟨-, hunique, hterminal, -, hwired, -, hclosed, rfl⟩ := verify_eq_ok.1 h
  have hsuppliers := suppliers_declared hwired
  have hwires := wires_foldl hunique hsuppliers
  have hgreedy := @Precedence.greedy_elimination _ (precedence hunique hwires hwired) _ _
    hwires.indegree
  have horders := hgreedy.orders
  have hlength : graph.nodeIds.length ≤
      (graph.topologicalOrder (graph.edges.foldl Wiring.connect Wiring.empty)).length := by
    rw [hclosed.ordered, nodeIds, length_map]
  have hperm := horders.perm hlength
  have hleads : ∀ {supplier consumer : String},
      (precedence hunique hwires hwired).Leads supplier consumer ↔
        Supplies graph.edges supplier consumer := hwires.adjacency _ _
  refine ⟨⟨hperm, fun edge hedge => ?_⟩, fun other hother => ?_⟩
  · have hlead := hleads.2 ⟨edge, hedge, rfl, rfl⟩
    exact horders.idxOf_lt nodup_nil
      (hperm.mem_iff.2 ((precedence hunique hwires hwired).closed _ _ hlead).2) hlead
  · have hmem : ∀ id ∈ graph.nodeIds, id ∈ ([] : List String) ++ other := fun id hid =>
      hother.perm.mem_iff.2 hid
    have hothers : (precedence hunique hwires hwired).Orders [] other :=
      Precedence.orders_of_idxOf (hother.perm.nodup_iff.2 hunique)
        (fun id hid => hother.perm.mem_iff.1 hid) hmem fun supplier consumer _ hlead => by
          obtain ⟨edge, hedge, rfl, rfl⟩ := hleads.1 hlead
          exact hother.before edge hedge
    exact not_lt.1 (hgreedy.le hothers hmem)

end

section

open ProofBaseReceiptGraph

variable {schemaId terminalNodeId : String} {nodes nodes' : List (Node sha256)}
  {edges edges' : List Edge}

theorem Edge.sortKey_inj {edge edge' : Edge} (h : edge.sortKey = edge'.sortKey) : edge = edge' := by
  obtain ⟨hsupplier, hrest⟩ := Prod.mk.inj (toLex.injective h)
  obtain ⟨hconsumer, hassumption⟩ := Prod.mk.inj (toLex.injective hrest)
  cases edge with
  | mk fields valid =>
    cases edge' with
    | mk fields' valid' =>
      cases fields
      cases fields'
      cases hsupplier
      cases hconsumer
      cases hassumption
      rfl

/-- **The order of the nodes and of the edges does not matter.** -/
theorem verify_perm (hnodes : nodes.Perm nodes') (hedges : edges.Perm edges') :
    (new schemaId nodes edges terminalNodeId).verify =
      (new schemaId nodes' edges' terminalNodeId).verify := by
  have hsortedEdges : sortOn Edge.sortKey edges = sortOn Edge.sortKey edges' :=
    sortOn_congr hedges fun edge _ edge' _ => Edge.sortKey_inj
  by_cases hunique : (nodes.map fun node => node.nodeId).Nodup
  · have hsortedNodes : sortOn (fun node : Node sha256 => node.nodeId) nodes =
        sortOn (fun node : Node sha256 => node.nodeId) nodes' :=
      sortOn_congr hnodes fun node hnode node' hnode' hid =>
        inj_on_of_nodup_map hunique hnode hnode' hid
    rw [show new schemaId nodes edges terminalNodeId = new schemaId nodes' edges' terminalNodeId from
      ProofBaseReceiptGraph.ext rfl hsortedNodes hsortedEdges rfl]
  · -- a repeated id is refused before any order matters
    have hrefused : ∀ {nodes : List (Node sha256)} {edges : List Edge},
        ¬(nodes.map fun node => node.nodeId).Nodup →
          (new schemaId nodes edges terminalNodeId).verify =
            if schemaId = receiptGraphSchema then
              .error ⟨"duplicate-node-id", "receipt node identities must be unique"⟩
            else .error ⟨"invalid-schema", "expected " ++ receiptGraphSchema⟩ := by
      intro nodes edges hrepeated
      have hids : ¬(new schemaId nodes edges terminalNodeId).nodeIds.Nodup := fun h =>
        hrepeated (((perm_sortOn _ nodes).map _).nodup_iff.1 h)
      have hnonempty : (new schemaId nodes edges terminalNodeId).nodes.isEmpty = false := by
        rw [isEmpty_eq_false_iff]
        intro hnil
        refine hids ?_
        rw [nodeIds, hnil]
        exact nodup_nil
      rw [verify]
      by_cases hschema : schemaId = receiptGraphSchema
      · rw [if_pos hschema, guardElse_of (show (new schemaId nodes edges terminalNodeId).schemaId =
          receiptGraphSchema from hschema), guardElse_of hnonempty, guardElse, if_neg hids]
        rfl
      · rw [if_neg hschema, guardElse, if_neg (show ¬(new schemaId nodes edges
          terminalNodeId).schemaId = receiptGraphSchema from hschema)]
        rfl
    rw [hrefused hunique, hrefused fun h => hunique ((hnodes.map _).nodup_iff.2 h)]

theorem constructed_congr {α : Type} {check check' : Except Error Unit}
    {make : check = .ok () → α} {make' : check' = .ok () → α} (h : check = check')
    (hrefused : check ≠ .ok ()) : constructed check make = constructed check' make' := by
  subst h
  cases check with
  | ok _ => exact absurd rfl hrefused
  | error error => rfl

theorem Node.new_congr {fields fields' : NodeFields sha256} (h : fields.sorted = fields'.sorted) :
    Node.new fields = Node.new fields' := by
  have hmake : ∀ {sorted sorted' : NodeFields sha256} (hsorted : sorted.sorted = sorted)
      (hsorted' : sorted'.sorted = sorted'), sorted = sorted' →
        (constructed sorted.check fun hcheck => (⟨sorted, hcheck, hsorted⟩ : Node sha256)) =
          constructed sorted'.check fun hcheck => ⟨sorted', hcheck, hsorted'⟩ := by
    rintro sorted _ _ _ rfl
    rfl
  exact hmake fields.sorted_sorted fields'.sorted_sorted h

theorem check_of_repeated {fields : NodeFields sha256}
    (h : ¬(fields.assumedInterfaces.map assumptionId).Nodup) :
    fields.check = (do
      requireNonempty "node_id" fields.nodeId
      requireDigest "independent_bundle_digest" fields.independentBundleDigest
      guardElse (fields.rootDeclarations ≠ []) ⟨"empty-root-declarations",
        "an accepted proof-base receipt must own at least one root declaration"⟩
      guardElse ("" ∉ fields.rootDeclarations)
        ⟨"empty-root-declaration", "root declarations must be non-empty"⟩
      guardElse fields.rootDeclarations.Nodup
        ⟨"duplicate-root-declaration", "node " ++ fields.nodeId ++ " repeats a root declaration"⟩
      .error ⟨"duplicate-assumption-id", "node " ++ fields.nodeId ++ " repeats an assumption id"⟩) := by
  have hguard : ∀ error : Error, guardElse
      (fields.assumedInterfaces.map assumptionId).Nodup error =
        .error error := fun error => if_neg h
  rw [NodeFields.check, hguard]
  rfl

/-- **The order of the roots and of the assumptions of a node does not matter.** -/
theorem Node.new_perm (fields : NodeFields sha256) {roots : List String}
    {assumptions : List (NamedInterfaceAssumption sha256)}
    (hroots : fields.rootDeclarations.Perm roots)
    (hassumptions : fields.assumedInterfaces.Perm assumptions) : Node.new fields =
      Node.new { fields with rootDeclarations := roots, assumedInterfaces := assumptions } := by
  have hsortedRoots : sortOn id fields.rootDeclarations = sortOn id roots :=
    sortOn_congr hroots fun _ _ _ _ heq => heq
  by_cases hunique :
      (fields.assumedInterfaces.map assumptionId).Nodup
  · have hsorted : sortOn assumptionId fields.assumedInterfaces =
        sortOn assumptionId assumptions :=
      sortOn_congr hassumptions fun a ha b hb heq => inj_on_of_nodup_map hunique ha hb heq
    have hfields : fields.sorted = NodeFields.sorted { fields with
        rootDeclarations := roots, assumedInterfaces := assumptions } := by
      rw [NodeFields.sorted, NodeFields.sorted, hsortedRoots, hsorted]
    exact Node.new_congr hfields
  · have hrepeated : ¬(fields.sorted.assumedInterfaces.map
        assumptionId).Nodup := fun h =>
      hunique (((perm_sortOn _ _).map _).nodup_iff.1 h)
    have hrepeated' : ¬((NodeFields.sorted { fields with
        rootDeclarations := roots, assumedInterfaces := assumptions }).assumedInterfaces.map
          assumptionId).Nodup := fun h =>
      hunique ((hassumptions.map _).nodup_iff.2 (((perm_sortOn _ _).map _).nodup_iff.1 h))
    refine constructed_congr ?_ fun h => hrepeated (NodeFields.assumptionIds_nodup h)
    rw [check_of_repeated hrepeated, check_of_repeated hrepeated', NodeFields.sorted,
      NodeFields.sorted, hsortedRoots]

end

/-- **Exactness**: `verify` accepts the graphs that compose, with the least order, and
no order of its inputs matters. -/
structure Exact (sha256 : List UInt8 → List UInt8) : Prop where
  accepts : ∀ schemaId (nodes : List (Node sha256)) edges terminalNodeId,
    (∃ receipt, (ProofBaseReceiptGraph.new schemaId nodes edges terminalNodeId).verify =
        .ok receipt) ↔
      schemaId = receiptGraphSchema ∧ Composable nodes edges terminalNodeId
  least : ∀ schemaId (nodes : List (Node sha256)) edges terminalNodeId receipt,
    (ProofBaseReceiptGraph.new schemaId nodes edges terminalNodeId).verify = .ok receipt →
      Topological nodes edges receipt.topologicalOrder ∧
        ∀ other, Topological nodes edges other → receipt.topologicalOrder ≤ other
  graphOrder : ∀ schemaId (nodes nodes' : List (Node sha256)) (edges edges' : List Edge)
    terminalNodeId, nodes.Perm nodes' → edges.Perm edges' →
      (ProofBaseReceiptGraph.new schemaId nodes edges terminalNodeId).verify =
        (ProofBaseReceiptGraph.new schemaId nodes' edges' terminalNodeId).verify
  nodeOrder : ∀ (fields : NodeFields sha256) roots assumptions,
    fields.rootDeclarations.Perm roots → fields.assumedInterfaces.Perm assumptions →
      Node.new fields =
        Node.new { fields with rootDeclarations := roots, assumedInterfaces := assumptions }

theorem verify_exact (sha256 : List UInt8 → List UInt8) : Exact sha256 where
  accepts schemaId nodes edges terminalNodeId := by
    refine verify_eq_ok_iff.trans (and_congr_right fun _ => ⟨fun h => ?_, fun h => ?_⟩)
    · exact h.perm (perm_sortOn _ nodes) (perm_sortOn _ edges)
    · exact h.perm (perm_sortOn _ nodes).symm (perm_sortOn _ edges).symm
  least schemaId nodes edges terminalNodeId receipt h := by
    obtain ⟨horder, hleast⟩ := topologicalOrder_least h
    refine ⟨horder.of_perm (perm_sortOn _ nodes) (perm_sortOn _ edges), fun other hother => ?_⟩
    exact hleast other (hother.of_perm (perm_sortOn _ nodes).symm (perm_sortOn _ edges).symm)
  graphOrder schemaId nodes nodes' edges edges' terminalNodeId hnodes hedges :=
    verify_perm hnodes hedges
  nodeOrder fields roots assumptions hroots hassumptions :=
    Node.new_perm fields hroots hassumptions

end PooFlow.Proof
