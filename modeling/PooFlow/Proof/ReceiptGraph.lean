import PooFlow.Foundation.Endian
import PooFlow.Foundation.Elimination
import PooFlow.Foundation.Guard
import PooFlow.Foundation.Hex
import PooFlow.Foundation.Sorting
import Mathlib.Data.Prod.Lex
import Mathlib.Data.String.Basic

/-! The records of `proof_base_receipt_graph.py`, which hold what their constructors have checked.
-/

namespace PooFlow.Proof

open Foundation

def receiptGraphSchema : String := "poo-flow.proof-base-receipt-graph.v1"

def compositionReceiptSchema : String := "poo-flow.verified-composition-receipt.v1"

structure Error where
  code : String
  detail : String
deriving DecidableEq

def utf8 (text : String) : List UInt8 := text.toUTF8.data.toList

def sha256Digest (sha256 : List UInt8 → List UInt8) (payload : List UInt8) : String :=
  "sha256:" ++ String.ofList (Hex.encode (sha256 payload))

/-- A full match of `sha256:[0-9a-f]{64}`. -/
def isSha256Digest (value : String) : Bool :=
  value.toList.take 7 == "sha256:".toList && (value.toList.drop 7).length == 64 &&
    (value.toList.drop 7).all fun c => ('0' ≤ c && c ≤ '9') || ('a' ≤ c && c ≤ 'f')

def requireNonempty (label value : String) : Except Error Unit :=
  guardElse (value ≠ "") ⟨"empty-" ++ label.replace "_" "-", label ++ " must be non-empty"⟩

def requireDigest (label value : String) : Except Error Unit :=
  guardElse (isSha256Digest value = true)
    ⟨"invalid-digest", label ++ " must be a canonical sha256 digest"⟩

def requireCanonicalPayload (sha256 : List UInt8 → List UInt8) (label : String)
    (payload : List UInt8) (digest : String) : Except Error Unit := do
  requireDigest (label ++ "_digest") digest
  guardElse (sha256Digest sha256 payload = digest) ⟨"canonical-payload-digest-mismatch",
    label ++ " computed " ++ sha256Digest sha256 payload ++ ", declared " ++ digest⟩

def frame (label : String) (payload : List UInt8) : List UInt8 :=
  bigEndian 4 (utf8 label).length ++ utf8 label ++ bigEndian 8 payload.length ++ payload

def constructed {α : Type} : (check : Except Error Unit) → (check = .ok () → α) → Except Error α
  | .ok (), make => .ok (make rfl)
  | .error error, _ => .error error

theorem constructed_of {α : Type} {check : Except Error Unit} {make : check = .ok () → α}
    (h : check = .ok ()) : constructed check make = .ok (make h) := by
  subst h
  rfl

variable (sha256 : List UInt8 → List UInt8)

/-- `CanonicalInterfaceV1`. -/
structure CanonicalInterface where
  canonicalBytes : List UInt8
  digest : String
  valid : requireCanonicalPayload sha256 "canonical_interface" canonicalBytes digest = .ok ()
deriving DecidableEq

def CanonicalInterface.new (canonicalBytes : List UInt8) (digest : String) :
    Except Error (CanonicalInterface sha256) :=
  constructed (requireCanonicalPayload sha256 "canonical_interface" canonicalBytes digest)
    fun h => ⟨canonicalBytes, digest, h⟩

/-- `CanonicalSourceIdentityV1`. -/
structure CanonicalSourceIdentity where
  canonicalBytes : List UInt8
  digest : String
  valid : requireCanonicalPayload sha256 "canonical_source_identity" canonicalBytes digest = .ok ()
deriving DecidableEq

def CanonicalSourceIdentity.new (canonicalBytes : List UInt8) (digest : String) :
    Except Error (CanonicalSourceIdentity sha256) :=
  constructed (requireCanonicalPayload sha256 "canonical_source_identity" canonicalBytes digest)
    fun h => ⟨canonicalBytes, digest, h⟩

/-- `NamedInterfaceAssumptionV1`. -/
structure NamedInterfaceAssumption where
  assumptionId : String
  interface : CanonicalInterface sha256
  valid : requireNonempty "assumption_id" assumptionId = .ok ()

def NamedInterfaceAssumption.new {sha256} (assumptionId : String)
    (interface : CanonicalInterface sha256) : Except Error (NamedInterfaceAssumption sha256) :=
  constructed (requireNonempty "assumption_id" assumptionId) fun h => ⟨assumptionId, interface, h⟩

/-- The fields of `AcceptedReceiptEvidenceV1`. -/
structure EvidenceFields where
  engineIdentity : String
  canonicalReceiptBytes : List UInt8
  receiptDigest : String
  boundSourceIdentityDigest : String
  boundIndependentBundleDigest : String
  boundProvidedInterfaceDigest : String
  decision : String

def EvidenceFields.check (fields : EvidenceFields) : Except Error Unit := do
  requireNonempty "engine_identity" fields.engineIdentity
  requireCanonicalPayload sha256 "acceptance_receipt" fields.canonicalReceiptBytes
    fields.receiptDigest
  requireDigest "bound_source_identity_digest" fields.boundSourceIdentityDigest
  requireDigest "bound_independent_bundle_digest" fields.boundIndependentBundleDigest
  requireDigest "bound_provided_interface_digest" fields.boundProvidedInterfaceDigest
  guardElse (fields.decision = "accepted")
    ⟨"receipt-not-accepted", "receipt decision must be exactly accepted"⟩

/-- `AcceptedReceiptEvidenceV1`. -/
structure AcceptedReceiptEvidence extends EvidenceFields where
  valid : toEvidenceFields.check sha256 = .ok ()

/-- The fields of `AcceptedProofBaseReceiptNodeV1`. -/
structure NodeFields where
  nodeId : String
  sourceIdentity : CanonicalSourceIdentity sha256
  independentBundleDigest : String
  rootDeclarations : List String
  providedInterface : CanonicalInterface sha256
  assumedInterfaces : List (NamedInterfaceAssumption sha256)
  acceptance : AcceptedReceiptEvidence sha256

namespace NodeFields

variable {sha256} (fields : NodeFields sha256)

def sorted : NodeFields sha256 :=
  { fields with
    rootDeclarations := sortOn id fields.rootDeclarations
    assumedInterfaces := sortOn NamedInterfaceAssumption.assumptionId fields.assumedInterfaces }

theorem sorted_sorted : fields.sorted.sorted = fields.sorted := by
  simp only [sorted, sortOn_sortOn]

def check : Except Error Unit := do
  requireNonempty "node_id" fields.nodeId
  requireDigest "independent_bundle_digest" fields.independentBundleDigest
  guardElse (fields.rootDeclarations ≠ []) ⟨"empty-root-declarations",
    "an accepted proof-base receipt must own at least one root declaration"⟩
  guardElse ("" ∉ fields.rootDeclarations)
    ⟨"empty-root-declaration", "root declarations must be non-empty"⟩
  guardElse fields.rootDeclarations.Nodup
    ⟨"duplicate-root-declaration", "node " ++ fields.nodeId ++ " repeats a root declaration"⟩
  guardElse (fields.assumedInterfaces.map NamedInterfaceAssumption.assumptionId).Nodup
    ⟨"duplicate-assumption-id", "node " ++ fields.nodeId ++ " repeats an assumption id"⟩
  guardElse (fields.acceptance.boundSourceIdentityDigest = fields.sourceIdentity.digest ∧
      fields.acceptance.boundIndependentBundleDigest = fields.independentBundleDigest ∧
      fields.acceptance.boundProvidedInterfaceDigest = fields.providedInterface.digest)
    ⟨"acceptance-binding-mismatch", "accepted receipt for " ++ fields.nodeId ++
      " must bind its source, independent bundle, and provided interface"⟩

end NodeFields

/-- `AcceptedProofBaseReceiptNodeV1`. -/
structure Node extends NodeFields sha256 where
  valid : toNodeFields.check = .ok ()
  ordered : toNodeFields.sorted = toNodeFields

def Node.new {sha256} (fields : NodeFields sha256) : Except Error (Node sha256) :=
  constructed fields.sorted.check fun h => ⟨fields.sorted, h, fields.sorted_sorted⟩

/-- The fields of `ReceiptInterfaceEdgeV1`. -/
structure EdgeFields where
  supplierNodeId : String
  consumerNodeId : String
  consumerAssumptionId : String

def EdgeFields.check (fields : EdgeFields) : Except Error Unit := do
  requireNonempty "supplier_node_id" fields.supplierNodeId
  requireNonempty "consumer_node_id" fields.consumerNodeId
  requireNonempty "consumer_assumption_id" fields.consumerAssumptionId
  guardElse (fields.supplierNodeId ≠ fields.consumerNodeId)
    ⟨"self-edge", "node " ++ fields.supplierNodeId ++ " cannot supply itself"⟩

/-- `ReceiptInterfaceEdgeV1`. -/
structure Edge extends EdgeFields where
  valid : toEdgeFields.check = .ok ()

namespace Edge

def new (fields : EdgeFields) : Except Error Edge := constructed fields.check fun h => ⟨fields, h⟩

def assumptionKey (edge : Edge) : String × String :=
  (edge.consumerNodeId, edge.consumerAssumptionId)

def sortKey (edge : Edge) : String ×ₗ String ×ₗ String :=
  toLex (edge.supplierNodeId, toLex (edge.consumerNodeId, edge.consumerAssumptionId))

end Edge

/-- `VerifiedCompositionReceiptV1`. -/
structure VerifiedCompositionReceipt where
  schemaId : String
  graphDigest : String
  terminalNodeId : String
  topologicalOrder : List String
  nodeCount : ℕ
  edgeCount : ℕ
  rootDeclarationCount : ℕ

/-- `ProofBaseReceiptGraphV1`. -/
@[ext] structure ProofBaseReceiptGraph where
  schemaId : String
  nodes : List (Node sha256)
  edges : List Edge
  terminalNodeId : String
  nodesOrdered : sortOn (fun node => node.nodeId) nodes = nodes
  edgesOrdered : sortOn Edge.sortKey edges = edges

def ownDeclarations : List (String × String) → List (String × String) →
    Except Error (List (String × String))
  | [], owners => .ok owners
  | (declaration, nodeId) :: rest, owners =>
    match owners.find? (·.1 = declaration) with
    | some previous => .error ⟨"root-declaration-owner-overlap",
        declaration ++ " is owned by both " ++ previous.2 ++ " and " ++ nodeId⟩
    | none => ownDeclarations rest (owners ++ [(declaration, nodeId)])

/-- What the loop over the edges fills: the assumptions that are supplied, the
consumers of each node, and how many suppliers each node has. -/
structure Wiring where
  supplied : List (String × String)
  adjacency : String → List String
  indegree : String → ℤ

namespace Wiring

def empty : Wiring := ⟨[], fun _ => [], fun _ => 0⟩

def connect (wiring : Wiring) (edge : Edge) : Wiring where
  supplied := wiring.supplied ++ [edge.assumptionKey]
  adjacency :=
    if edge.consumerNodeId ∈ wiring.adjacency edge.supplierNodeId then wiring.adjacency
    else Function.update wiring.adjacency edge.supplierNodeId
      (wiring.adjacency edge.supplierNodeId ++ [edge.consumerNodeId])
  indegree :=
    if edge.consumerNodeId ∈ wiring.adjacency edge.supplierNodeId then wiring.indegree
    else Function.update wiring.indegree edge.consumerNodeId
      (wiring.indegree edge.consumerNodeId + 1)

end Wiring

namespace ProofBaseReceiptGraph

variable {sha256}

def new (schemaId : String) (nodes : List (Node sha256)) (edges : List Edge)
    (terminalNodeId : String) : ProofBaseReceiptGraph sha256 where
  schemaId := schemaId
  nodes := sortOn (fun node => node.nodeId) nodes
  edges := sortOn Edge.sortKey edges
  terminalNodeId := terminalNodeId
  nodesOrdered := sortOn_sortOn _ nodes
  edgesOrdered := sortOn_sortOn _ edges

variable (graph : ProofBaseReceiptGraph sha256)

def nodeIds : List String := graph.nodes.map fun node => node.nodeId

/-- `nodes_by_id.get`. -/
def node? (id : String) : Option (Node sha256) := graph.nodes.find? fun node => node.nodeId = id

def declarations : List (String × String) :=
  graph.nodes.flatMap fun node => node.rootDeclarations.map fun declaration =>
    (declaration, node.nodeId)

def assumptions : List ((String × String) × NamedInterfaceAssumption sha256) :=
  graph.nodes.flatMap fun node => node.assumedInterfaces.map fun assumption =>
    ((node.nodeId, assumption.assumptionId), assumption)

/-- `assumptions.get`. -/
def assumption? (key : String × String) : Option (NamedInterfaceAssumption sha256) :=
  (graph.assumptions.find? (·.1 = key)).map Prod.snd

def wireEdge (wiring : Wiring) (edge : Edge) : Except Error Wiring := do
  let supplier ← presentElse (graph.node? edge.supplierNodeId) ⟨"unresolved-edge-node",
    "edge " ++ edge.supplierNodeId ++ " -> " ++ edge.consumerNodeId ++ " does not resolve"⟩
  guardElse ((graph.node? edge.consumerNodeId).isSome = true) ⟨"unresolved-edge-node",
    "edge " ++ edge.supplierNodeId ++ " -> " ++ edge.consumerNodeId ++ " does not resolve"⟩
  let assumption ← presentElse (graph.assumption? edge.assumptionKey)
    ⟨"unresolved-interface-assumption",
      edge.consumerNodeId ++ " has no assumption " ++ edge.consumerAssumptionId⟩
  guardElse (∀ key ∈ wiring.supplied, key ≠ edge.assumptionKey) ⟨"multiply-supplied-interface-assumption",
    edge.consumerNodeId ++ "/" ++ edge.consumerAssumptionId ++ " has multiple suppliers"⟩
  guardElse (supplier.providedInterface.canonicalBytes = assumption.interface.canonicalBytes ∧
      supplier.providedInterface.digest = assumption.interface.digest)
    ⟨"canonical-interface-mismatch", edge.supplierNodeId ++
      " does not provide the exact canonical bytes assumed by " ++ edge.consumerNodeId ++ "/" ++
      edge.consumerAssumptionId⟩
  return wiring.connect edge

def wireEdges : List Edge → Wiring → Except Error Wiring
  | [], wiring => .ok wiring
  | edge :: edges, wiring => do
    let wiring ← graph.wireEdge wiring edge
    wireEdges edges wiring

def unresolvedAssumptions (wiring : Wiring) : List (String × String) :=
  sortOn toLex ((graph.assumptions.map Prod.fst).filter fun key =>
    ∀ suppliedKey ∈ wiring.supplied, suppliedKey ≠ key)

def topologicalOrder (wiring : Wiring) : List String :=
  Precedence.eliminate wiring.adjacency graph.nodeIds.length wiring.indegree
    ((graph.nodeIds.filter fun id => wiring.indegree id = 0).insertionSort (· ≤ ·)) []

def reverseAdjacency (wiring : Wiring) (id : String) : List String :=
  graph.nodeIds.filter fun supplierId => id ∈ wiring.adjacency supplierId

def reachesTerminal (wiring : Wiring) : List String :=
  spread (graph.reverseAdjacency wiring) graph.nodeIds.length [graph.terminalNodeId]
    [graph.terminalNodeId]

def disconnected (wiring : Wiring) : List String :=
  sortOn id (graph.nodeIds.filter (· ∉ graph.reachesTerminal wiring))

def nodePayload (node : Node sha256) : List UInt8 :=
  frame "node_id" (utf8 node.nodeId) ++
  frame "source_identity" node.sourceIdentity.canonicalBytes ++
  frame "source_identity_digest" (utf8 node.sourceIdentity.digest) ++
  frame "independent_bundle_digest" (utf8 node.independentBundleDigest) ++
  frame "provided_interface" node.providedInterface.canonicalBytes ++
  frame "provided_interface_digest" (utf8 node.providedInterface.digest) ++
  frame "acceptance_engine" (utf8 node.acceptance.engineIdentity) ++
  frame "acceptance_receipt" node.acceptance.canonicalReceiptBytes ++
  frame "acceptance_receipt_digest" (utf8 node.acceptance.receiptDigest) ++
  frame "acceptance_bound_source_identity_digest"
    (utf8 node.acceptance.boundSourceIdentityDigest) ++
  frame "acceptance_bound_independent_bundle_digest"
    (utf8 node.acceptance.boundIndependentBundleDigest) ++
  frame "acceptance_bound_provided_interface_digest"
    (utf8 node.acceptance.boundProvidedInterfaceDigest) ++
  ((sortOn id node.rootDeclarations).flatMap fun declaration =>
    frame "root_declaration" (utf8 declaration)) ++
  (sortOn NamedInterfaceAssumption.assumptionId node.assumedInterfaces).flatMap fun assumption =>
    frame "assumption" (frame "assumption_id" (utf8 assumption.assumptionId) ++
      frame "interface" assumption.interface.canonicalBytes ++
      frame "interface_digest" (utf8 assumption.interface.digest))

def edgePayload (edge : Edge) : List UInt8 :=
  frame "supplier_node_id" (utf8 edge.supplierNodeId) ++
  frame "consumer_node_id" (utf8 edge.consumerNodeId) ++
  frame "consumer_assumption_id" (utf8 edge.consumerAssumptionId)

def graphDigest : String :=
  sha256Digest sha256
    (frame "schema_id" (utf8 graph.schemaId) ++
      frame "terminal_node_id" (utf8 graph.terminalNodeId) ++
      ((sortOn (fun node : Node sha256 => node.nodeId) graph.nodes).flatMap fun node =>
        frame "node" (nodePayload node)) ++
      (sortOn Edge.sortKey graph.edges).flatMap fun edge => frame "edge" (edgePayload edge))

def verify : Except Error VerifiedCompositionReceipt := do
  guardElse (graph.schemaId = receiptGraphSchema)
    ⟨"invalid-schema", "expected " ++ receiptGraphSchema⟩
  guardElse (graph.nodes.isEmpty = false) ⟨"empty-receipt-graph",
    "the receipt graph must contain at least one accepted node"⟩
  guardElse graph.nodeIds.Nodup
    ⟨"duplicate-node-id", "receipt node identities must be unique"⟩
  guardElse (graph.terminalNodeId ∈ graph.nodeIds) ⟨"unresolved-terminal-node",
    "terminal node " ++ graph.terminalNodeId ++ " does not exist"⟩
  -- a root declaration belongs to one node
  let owners ← ownDeclarations graph.declarations []
  let wiring ← graph.wireEdges graph.edges Wiring.empty
  match graph.unresolvedAssumptions wiring with
  | unresolved :: _ => .error ⟨"unresolved-interface-assumption",
      unresolved.1 ++ "/" ++ unresolved.2 ++ " has no supplier edge"⟩
  | [] => do
    guardElse (wiring.adjacency graph.terminalNodeId = []) ⟨"terminal-node-has-consumer",
      "terminal node " ++ graph.terminalNodeId ++ " must be a sink"⟩
    -- nodes on a cycle are never enqueued
    guardElse ((graph.topologicalOrder wiring).length = graph.nodes.length)
      ⟨"cyclic-receipt-graph", "receipt dependencies must form a DAG"⟩
    match graph.disconnected wiring with
    | first :: _ => .error ⟨"node-outside-terminal-closure",
        "node " ++ first ++ " does not contribute to terminal " ++ graph.terminalNodeId⟩
    | [] => return {
        schemaId := compositionReceiptSchema
        graphDigest := graph.graphDigest
        terminalNodeId := graph.terminalNodeId
        topologicalOrder := graph.topologicalOrder wiring
        nodeCount := graph.nodes.length
        edgeCount := graph.edges.length
        rootDeclarationCount := owners.length }

end ProofBaseReceiptGraph

end PooFlow.Proof
