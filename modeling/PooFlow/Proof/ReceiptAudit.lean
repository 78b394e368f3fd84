import PooFlow.Foundation.JsonText
import PooFlow.Proof.ReceiptGraph

/-! The canonical JSON of `proof_base_receipt_graph_audit.py` and its reader, which asks an
authority for the evidence of every node. -/

namespace PooFlow.Proof

open Foundation List JsonTree NamedInterfaceAssumption

def receiptGraphAuditSchema : String := "poo-flow.proof-base-receipt-graph-audit.v1"

/-- `ProofBaseReceiptGraphAuditError`. A shape mismatch keeps the two lists that its
text shows; the errors of the records pass through. The reader of JSON, which here
reads whole numbers and Unicode strings only, refuses without a text. -/
inductive AuditError where
  | audit (code detail : String)
  | shape (label : String) (missing unknown : List String)
  | invalidJson
  | record (error : Error)

def typeMismatch (label kind : String) : AuditError :=
  .audit "audit-type-mismatch" (label ++ " must be " ++ kind)

/-- `_exact_object`: the values of exactly these keys. -/
def exactObject (label : String) (keys : List String) :
    JsonTree → Except AuditError (String → JsonTree)
  | .object fields =>
    let missing := sortOn id (keys.filter (· ∉ fields.map Prod.fst))
    let unknown := sortOn id ((fields.map Prod.fst).filter (· ∉ keys))
    if missing = [] ∧ unknown = [] then .ok fun key => (fields.lookup key).getD .null
    else .error (.shape label missing unknown)
  | _ => .error (typeMismatch label "an object")

def exactArray (label : String) : JsonTree → Except AuditError (List JsonTree)
  | .array items => .ok items
  | _ => .error (typeMismatch label "an array")

def exactString (label : String) : JsonTree → Except AuditError String
  | .string text => .ok text
  | _ => .error (typeMismatch label "a string")

def exactInteger (label : String) : JsonTree → Except AuditError ℤ
  | .number value => .ok value
  | _ => .error (typeMismatch label "an integer")

/-- A full match of `(?:[0-9a-f]{2})*`. -/
def isLowerHex (text : List Char) : Bool :=
  text.length % 2 == 0 && text.all fun c => ('0' ≤ c && c ≤ '9') || ('a' ≤ c && c ≤ 'f')

def decodeHex (label : String) (value : JsonTree) : Except AuditError (List UInt8) := do
  let encoded ← exactString label value
  -- the pattern admits only texts that decode
  presentElse (if isLowerHex encoded.toList then Hex.decode encoded.toList else none)
    (.audit "noncanonical-audit-hex" (label ++ " must use even-length lowercase hexadecimal"))

def hex (bytes : List UInt8) : JsonTree := .string (String.ofList (Hex.encode bytes))

def decodeUtf8 (bytes : List UInt8) : Option String := String.fromUTF8? ⟨bytes.toArray⟩

variable {sha256 : List UInt8 → List UInt8}

/-- The fields of `DeclaredReceiptEvidenceV1`. -/
structure DeclaredFields where
  engineIdentity : String
  canonicalReceiptBytes : List UInt8
  receiptDigest : String

variable (sha256) in
def DeclaredFields.check (fields : DeclaredFields) : Except Error Unit := do
  guardElse (fields.engineIdentity ≠ "")
    ⟨"invalid-declared-engine-identity", "engine identity must be a non-empty string"⟩
  guardElse (fields.receiptDigest = sha256Digest sha256 fields.canonicalReceiptBytes)
    ⟨"declared-receipt-digest-mismatch", "computed " ++
      sha256Digest sha256 fields.canonicalReceiptBytes ++ ", declared " ++ fields.receiptDigest⟩

variable (sha256) in
/-- `DeclaredReceiptEvidenceV1`. -/
structure DeclaredReceiptEvidence extends DeclaredFields where
  valid : toDeclaredFields.check sha256 = .ok ()

def DeclaredReceiptEvidence.new (fields : DeclaredFields) :
    Except Error (DeclaredReceiptEvidence sha256) :=
  constructed (fields.check sha256) fun h => ⟨fields, h⟩

variable (sha256) in
/-- The fields of `AuthorityVerifiedReceiptEvidenceV1`. -/
structure VerifiedFields where
  acceptance : AcceptedReceiptEvidence sha256
  sourceIdentity : CanonicalSourceIdentity sha256
  independentBundleDigest : String
  providedInterface : CanonicalInterface sha256
  rootDeclarations : List String

def VerifiedFields.check (fields : VerifiedFields sha256) : Except Error Unit := do
  guardElse (fields.acceptance.boundSourceIdentityDigest = fields.sourceIdentity.digest ∧
      fields.acceptance.boundIndependentBundleDigest = fields.independentBundleDigest ∧
      fields.acceptance.boundProvidedInterfaceDigest = fields.providedInterface.digest)
    ⟨"authority-acceptance-binding-mismatch",
      "authority acceptance must bind its derived identities"⟩
  guardElse (fields.rootDeclarations ≠ []) ⟨"empty-authority-root-declarations",
    "authority evidence must bind at least one root declaration"⟩
  guardElse ("" ∉ fields.rootDeclarations) ⟨"invalid-authority-root-declaration",
    "authority root declarations must be non-empty strings"⟩

variable (sha256) in
/-- `AuthorityVerifiedReceiptEvidenceV1`, whose constructor sorts the roots. -/
structure AuthorityVerifiedReceiptEvidence extends VerifiedFields sha256 where
  valid : toVerifiedFields.check = .ok ()
  ordered : sortOn id rootDeclarations = rootDeclarations

variable (sha256) in
/-- `ReceiptAcceptanceAuthorityV1`. -/
abbrev ReceiptAcceptanceAuthority :=
  DeclaredReceiptEvidence sha256 → Except Error (AuthorityVerifiedReceiptEvidence sha256)

def interfaceObject (interface : CanonicalInterface sha256) : JsonTree :=
  .ofFields [("canonical_bytes_hex", hex interface.canonicalBytes),
    ("digest", .string interface.digest)]

def sourceIdentityObject (sourceIdentity : CanonicalSourceIdentity sha256) : JsonTree :=
  .ofFields [("canonical_bytes_hex", hex sourceIdentity.canonicalBytes),
    ("digest", .string sourceIdentity.digest)]

def acceptanceObject (acceptance : AcceptedReceiptEvidence sha256) : JsonTree :=
  .ofFields [("canonical_receipt_bytes_hex", hex acceptance.canonicalReceiptBytes),
    ("engine_identity", .string acceptance.engineIdentity),
    ("receipt_digest", .string acceptance.receiptDigest)]

def assumptionObject (assumption : NamedInterfaceAssumption sha256) : JsonTree :=
  .ofFields [("assumption_id", .string assumption.assumptionId),
    ("interface", interfaceObject assumption.interface)]

def nodeObject (node : Node sha256) : JsonTree :=
  .ofFields [("acceptance", acceptanceObject node.acceptance),
    ("assumed_interfaces", .array
      ((sortOn NamedInterfaceAssumption.assumptionId node.assumedInterfaces).map
        assumptionObject)),
    ("independent_bundle_digest", .string node.independentBundleDigest),
    ("node_id", .string node.nodeId),
    ("provided_interface", interfaceObject node.providedInterface),
    ("root_declarations", .array ((sortOn id node.rootDeclarations).map .string)),
    ("source_identity", sourceIdentityObject node.sourceIdentity)]

def edgeObject (edge : Edge) : JsonTree :=
  .ofFields [("consumer_assumption_id", .string edge.consumerAssumptionId),
    ("consumer_node_id", .string edge.consumerNodeId),
    ("supplier_node_id", .string edge.supplierNodeId)]

structure ReceiptObject where
  edgeCount : ℤ
  graphDigest : String
  nodeCount : ℤ
  rootDeclarationCount : ℤ
  schemaId : String
  terminalNodeId : String
  topologicalOrder : List String
deriving DecidableEq

def verifiedReceiptObject (receipt : VerifiedCompositionReceipt) : ReceiptObject where
  edgeCount := receipt.edgeCount
  graphDigest := receipt.graphDigest
  nodeCount := receipt.nodeCount
  rootDeclarationCount := receipt.rootDeclarationCount
  schemaId := receipt.schemaId
  terminalNodeId := receipt.terminalNodeId
  topologicalOrder := receipt.topologicalOrder

def ReceiptObject.toJson (receipt : ReceiptObject) : JsonTree :=
  .ofFields [("edge_count", .number receipt.edgeCount),
    ("graph_digest", .string receipt.graphDigest),
    ("node_count", .number receipt.nodeCount),
    ("root_declaration_count", .number receipt.rootDeclarationCount),
    ("schema_id", .string receipt.schemaId),
    ("terminal_node_id", .string receipt.terminalNodeId),
    ("topological_order", .array (receipt.topologicalOrder.map .string))]

def graphObject (graph : ProofBaseReceiptGraph sha256) : JsonTree :=
  .ofFields [("edges", .array ((sortOn Edge.sortKey graph.edges).map edgeObject)),
    ("nodes", .array ((sortOn (fun node : Node sha256 => node.nodeId) graph.nodes).map nodeObject)),
    ("schema_id", .string graph.schemaId),
    ("terminal_node_id", .string graph.terminalNodeId)]

def auditObject (graph : ProofBaseReceiptGraph sha256) (receipt : VerifiedCompositionReceipt) :
    JsonTree :=
  .ofFields [("graph", graphObject graph), ("schema_id", .string receiptGraphAuditSchema),
    ("verified_composition_receipt", (verifiedReceiptObject receipt).toJson)]

/-- `encode_proof_base_receipt_graph_audit_v1`. -/
def encode (graph : ProofBaseReceiptGraph sha256) : Except Error (List UInt8) := do
  let receipt ← graph.verify
  return utf8 (String.ofList (JsonText.render (auditObject graph receipt)))

def record {α : Type} (result : Except Error α) : Except AuditError α := result.mapError .record

variable (sha256) in
def parseInterface (label : String) (value : JsonTree) :
    Except AuditError (CanonicalInterface sha256) := do
  let interface ← exactObject label ["canonical_bytes_hex", "digest"] value
  let canonicalBytes ← decodeHex (label ++ ".canonical_bytes_hex") (interface "canonical_bytes_hex")
  let digest ← exactString (label ++ ".digest") (interface "digest")
  record (CanonicalInterface.new sha256 canonicalBytes digest)

variable (sha256) in
def parseSourceIdentity (value : JsonTree) :
    Except AuditError (CanonicalSourceIdentity sha256) := do
  let sourceIdentity ← exactObject "node.source_identity" ["canonical_bytes_hex", "digest"] value
  let canonicalBytes ← decodeHex "node.source_identity.canonical_bytes_hex"
    (sourceIdentity "canonical_bytes_hex")
  let digest ← exactString "node.source_identity.digest" (sourceIdentity "digest")
  record (CanonicalSourceIdentity.new sha256 canonicalBytes digest)

variable (authority : ReceiptAcceptanceAuthority sha256)

def parseAcceptance (value : JsonTree) :
    Except AuditError (AuthorityVerifiedReceiptEvidence sha256) := do
  let acceptance ← exactObject "node.acceptance"
    ["canonical_receipt_bytes_hex", "engine_identity", "receipt_digest"] value
  let engineIdentity ← exactString "node.acceptance.engine_identity" (acceptance "engine_identity")
  let canonicalReceiptBytes ← decodeHex "node.acceptance.canonical_receipt_bytes_hex"
    (acceptance "canonical_receipt_bytes_hex")
  let receiptDigest ← exactString "node.acceptance.receipt_digest" (acceptance "receipt_digest")
  (DeclaredReceiptEvidence.new ⟨engineIdentity, canonicalReceiptBytes, receiptDigest⟩ >>=
    authority).mapError fun error =>
      .audit "authority-receipt-rejected" (error.code ++ ": " ++ error.detail)

variable (sha256) in
def parseAssumption (value : JsonTree) : Except AuditError (NamedInterfaceAssumption sha256) := do
  let assumption ← exactObject "node.assumed_interface" ["assumption_id", "interface"] value
  let assumptionId ← exactString "node.assumed_interface.assumption_id" (assumption "assumption_id")
  let interface ← parseInterface sha256 "node.assumed_interface.interface" (assumption "interface")
  record (NamedInterfaceAssumption.new assumptionId interface)

def parseNode (value : JsonTree) : Except AuditError (Node sha256) := do
  let node ← exactObject "graph.node" ["acceptance", "assumed_interfaces",
    "independent_bundle_digest", "node_id", "provided_interface", "root_declarations",
    "source_identity"] value
  let assumptionValues ← exactArray "node.assumed_interfaces" (node "assumed_interfaces")
  let assumptions ← assumptionValues.mapM (parseAssumption sha256)
  let declarationValues ← exactArray "node.root_declarations" (node "root_declarations")
  let rootDeclarations ← declarationValues.mapM (exactString "node.root_declaration")
  let evidence ← parseAcceptance authority (node "acceptance")
  let sourceIdentity ← parseSourceIdentity sha256 (node "source_identity")
  let independentBundleDigest ← exactString "node.independent_bundle_digest"
    (node "independent_bundle_digest")
  let providedInterface ← parseInterface sha256 "node.provided_interface"
    (node "provided_interface")
  -- what the authority derived is compared with what the node claims
  guardElse (evidence.rootDeclarations = sortOn id rootDeclarations)
    (.audit "authority-root-declaration-mismatch" "authority roots must equal the graph node roots")
  guardElse (evidence.sourceIdentity = sourceIdentity ∧
      evidence.independentBundleDigest = independentBundleDigest ∧
      evidence.providedInterface = providedInterface)
    (.audit "authority-node-binding-mismatch"
      "authority-derived identities must equal the graph node identities")
  let nodeId ← exactString "node.node_id" (node "node_id")
  record (Node.new ⟨nodeId, sourceIdentity, independentBundleDigest, rootDeclarations,
    providedInterface, assumptions, evidence.acceptance⟩)

def parseEdge (value : JsonTree) : Except AuditError Edge := do
  let edge ← exactObject "graph.edge"
    ["consumer_assumption_id", "consumer_node_id", "supplier_node_id"] value
  let supplierNodeId ← exactString "edge.supplier_node_id" (edge "supplier_node_id")
  let consumerNodeId ← exactString "edge.consumer_node_id" (edge "consumer_node_id")
  let consumerAssumptionId ← exactString "edge.consumer_assumption_id"
    (edge "consumer_assumption_id")
  record (Edge.new ⟨supplierNodeId, consumerNodeId, consumerAssumptionId⟩)

def receiptLabel (key : String) : String := "verified_composition_receipt." ++ key

def parseDeclaredReceipt (value : JsonTree) : Except AuditError ReceiptObject := do
  let receipt ← exactObject "verified_composition_receipt" ["edge_count", "graph_digest",
    "node_count", "root_declaration_count", "schema_id", "terminal_node_id",
    "topological_order"] value
  let edgeCount ← exactInteger (receiptLabel "edge_count") (receipt "edge_count")
  let graphDigest ← exactString (receiptLabel "graph_digest") (receipt "graph_digest")
  let nodeCount ← exactInteger (receiptLabel "node_count") (receipt "node_count")
  let rootDeclarationCount ← exactInteger (receiptLabel "root_declaration_count")
    (receipt "root_declaration_count")
  let schemaId ← exactString (receiptLabel "schema_id") (receipt "schema_id")
  let terminalNodeId ← exactString (receiptLabel "terminal_node_id") (receipt "terminal_node_id")
  let orderValues ← exactArray (receiptLabel "topological_order") (receipt "topological_order")
  let topologicalOrder ← orderValues.mapM (exactString (receiptLabel "topological_order"))
  return ⟨edgeCount, graphDigest, nodeCount, rootDeclarationCount, schemaId, terminalNodeId,
    topologicalOrder⟩

def parseGraph (value : JsonTree) : Except AuditError (ProofBaseReceiptGraph sha256) := do
  let graph ← exactObject "graph" ["edges", "nodes", "schema_id", "terminal_node_id"] value
  let schemaId ← exactString "graph.schema_id" (graph "schema_id")
  let nodeValues ← exactArray "graph.nodes" (graph "nodes")
  let nodes ← nodeValues.mapM (parseNode authority)
  let edgeValues ← exactArray "graph.edges" (graph "edges")
  let edges ← edgeValues.mapM parseEdge
  let terminalNodeId ← exactString "graph.terminal_node_id" (graph "terminal_node_id")
  return .new schemaId nodes edges terminalNodeId

variable (sha256) in
/-- `DecodedProofBaseReceiptGraphAuditV1`. -/
structure DecodedProofBaseReceiptGraphAudit where
  graph : ProofBaseReceiptGraph sha256
  verifiedReceipt : VerifiedCompositionReceipt
  canonicalAuditBytes : List UInt8

/-- `decode_proof_base_receipt_graph_audit_v1`. -/
def decode (auditBytes : List UInt8) :
    Except AuditError (DecodedProofBaseReceiptGraphAudit sha256) := do
  let decoded ← presentElse ((decodeUtf8 auditBytes).bind fun text => JsonText.parse text.toList)
    .invalidJson
  let artifact ← exactObject "audit" ["graph", "schema_id", "verified_composition_receipt"] decoded
  let schemaId ← exactString "audit.schema_id" (artifact "schema_id")
  guardElse (schemaId = receiptGraphAuditSchema)
    (.audit "invalid-audit-schema" ("expected " ++ receiptGraphAuditSchema))
  let graph ← parseGraph authority (artifact "graph")
  let receipt ← graph.verify.mapError fun error =>
    .audit "invalid-audit-graph" (error.code ++ ": " ++ error.detail)
  let declaredReceipt ← parseDeclaredReceipt (artifact "verified_composition_receipt")
  guardElse (declaredReceipt = verifiedReceiptObject receipt)
    (.audit "verified-receipt-mismatch"
      "declared verified composition receipt does not match the graph")
  let canonicalAuditBytes ← record (encode graph)
  guardElse (auditBytes = canonicalAuditBytes)
    (.audit "noncanonical-audit-bytes" "accepted audit bytes must equal the unique v1 encoding")
  return ⟨graph, receipt, canonicalAuditBytes⟩

theorem mapM_map_eq_ok {ε α β : Type} {read : β → Except ε α} {write : α → β} {values : List α}
    (h : ∀ value ∈ values, read (write value) = .ok value) :
    (values.map write).mapM read = .ok values := by
  induction values with
  | nil => rfl
  | cons value values ih =>
    rw [map_cons, mapM_cons, h value mem_cons_self,
      ih fun other hother => h other (mem_cons_of_mem _ hother)]
    rfl

theorem exactObject_ofFields {label : String} {keys : List String}
    {fields : List (String × JsonTree)} (hkeys : fields.map Prod.fst = keys)
    (hsorted : keys.Pairwise (· < ·)) : exactObject label keys (.ofFields fields) =
      .ok fun key => (fields.lookup key).getD .null := by
  have hfields : sortFields fields = fields := sortFields_of_sorted (by rwa [FieldsSorted, hkeys])
  have hmissing : keys.filter (· ∉ fields.map Prod.fst) = [] := by simp [hkeys]
  have hunknown : (fields.map Prod.fst).filter (· ∉ keys) = [] := by simp [hkeys]
  have hsorts : sortOn id ([] : List String) = [] := rfl
  rw [ofFields, hfields, exactObject, hmissing, hunknown, hsorts]
  exact if_pos ⟨rfl, rfl⟩

theorem isLowerHex_encode (bytes : List UInt8) : isLowerHex (Hex.encode bytes) = true := by
  have hdigit : ∀ n < 16, (('0' ≤ Nat.digitChar n && Nat.digitChar n ≤ '9') ||
      ('a' ≤ Nat.digitChar n && Nat.digitChar n ≤ 'f')) = true := by decide
  induction bytes with
  | nil => rfl
  | cons byte bytes ih =>
    have hcons : Hex.encode (byte :: bytes) = Nat.digitChar (byte.toNat / 16 % 16) ::
        Nat.digitChar (byte.toNat % 16) :: Hex.encode bytes := by
      simp [Hex.encode, Hex.digits]
    rw [isLowerHex, Bool.and_eq_true, beq_iff_eq] at ih ⊢
    rw [hcons, length_cons, length_cons, all_cons, all_cons,
      hdigit _ (Nat.mod_lt _ (by decide)), hdigit _ (Nat.mod_lt _ (by decide)), ih.2]
    exact ⟨by omega, rfl⟩

variable (label : String)

@[simp] theorem decodeHex_hex (bytes : List UInt8) : decodeHex label (hex bytes) = .ok bytes := by
  have htext : exactString label (hex bytes) = .ok (String.ofList (Hex.encode bytes)) := rfl
  rw [decodeHex, htext, ok_bind, String.toList_ofList, if_pos (isLowerHex_encode bytes),
    Hex.decode_encode]
  rfl

@[simp] theorem exactString_string (text : String) :
    exactString label (.string text) = .ok text := rfl

@[simp] theorem exactArray_array (items : List JsonTree) :
    exactArray label (.array items) = .ok items := rfl

@[simp] theorem exactInteger_number (value : ℤ) :
    exactInteger label (.number value) = .ok value := rfl

theorem mapM_exactString (texts : List String) :
    (texts.map string).mapM (exactString label) = .ok texts :=
  mapM_map_eq_ok fun _ _ => rfl

theorem decodeUtf8_utf8 (text : String) : decodeUtf8 (utf8 text) = some text := by
  have hbytes : (⟨(utf8 text).toArray⟩ : ByteArray) = text.toUTF8 := by simp [utf8]
  rw [decodeUtf8, hbytes]
  simp only [String.fromUTF8?, String.toUTF8_eq_toByteArray, text.isValidUTF8, dite_true]
  rfl

theorem parseInterface_interfaceObject (interface : CanonicalInterface sha256) :
    parseInterface sha256 label (interfaceObject interface) = .ok interface := by
  have hnew : CanonicalInterface.new sha256 interface.canonicalBytes interface.digest =
      .ok interface := constructed_of interface.valid
  rw [parseInterface, interfaceObject, exactObject_ofFields (by rfl) (by decide), ok_bind]
  simp [lookup_cons, ok_bind, hnew, record, mapError_ok]

theorem parseSourceIdentity_sourceIdentityObject (sourceIdentity : CanonicalSourceIdentity sha256) :
    parseSourceIdentity sha256 (sourceIdentityObject sourceIdentity) = .ok sourceIdentity := by
  have hnew : CanonicalSourceIdentity.new sha256 sourceIdentity.canonicalBytes
      sourceIdentity.digest = .ok sourceIdentity := constructed_of sourceIdentity.valid
  rw [parseSourceIdentity, sourceIdentityObject, exactObject_ofFields (by rfl) (by decide), ok_bind]
  simp [lookup_cons, ok_bind, hnew, record, mapError_ok]

theorem parseAssumption_assumptionObject (assumption : NamedInterfaceAssumption sha256) :
    parseAssumption sha256 (assumptionObject assumption) = .ok assumption := by
  have hnew : new assumption.assumptionId assumption.interface =
      .ok assumption := constructed_of assumption.valid
  rw [parseAssumption, assumptionObject, exactObject_ofFields (by rfl) (by decide), ok_bind]
  simp [lookup_cons, ok_bind, parseInterface_interfaceObject, hnew, record, mapError_ok]

theorem parseEdge_edgeObject (edge : Edge) : parseEdge (edgeObject edge) = .ok edge := by
  have hnew : Edge.new ⟨edge.supplierNodeId, edge.consumerNodeId, edge.consumerAssumptionId⟩ =
      .ok edge := constructed_of edge.valid
  rw [parseEdge, edgeObject, exactObject_ofFields (by rfl) (by decide), ok_bind]
  simp [lookup_cons, ok_bind, hnew, record, mapError_ok]

theorem parseDeclaredReceipt_toJson (receipt : ReceiptObject) :
    parseDeclaredReceipt receipt.toJson = .ok receipt := by
  rw [parseDeclaredReceipt, ReceiptObject.toJson, exactObject_ofFields (by rfl) (by decide), ok_bind]
  simp [-mapM_map, lookup_cons, ok_bind, mapM_exactString]

def AcceptedReceiptEvidence.declared (acceptance : AcceptedReceiptEvidence sha256) :
    DeclaredReceiptEvidence sha256 where
  engineIdentity := acceptance.engineIdentity
  canonicalReceiptBytes := acceptance.canonicalReceiptBytes
  receiptDigest := acceptance.receiptDigest
  valid := by
    have h := acceptance.valid
    simp only [EvidenceFields.check, requireNonempty, requireCanonicalPayload, then_eq_ok,
      guardElse_eq_ok] at h
    obtain ⟨hengine, ⟨-, hdigest⟩, -⟩ := h
    rw [DeclaredFields.check, guardElse_of hengine, ok_bind, guardElse_of hdigest.symm]

/-- **The authority returns, for the receipt of a node, what the node holds.** -/
def Vouches (authority : ReceiptAcceptanceAuthority sha256) (node : Node sha256) : Prop :=
  ∃ evidence, authority node.acceptance.declared = .ok evidence ∧
    evidence.acceptance = node.acceptance ∧ evidence.rootDeclarations = node.rootDeclarations ∧
    evidence.sourceIdentity = node.sourceIdentity ∧
    evidence.independentBundleDigest = node.independentBundleDigest ∧
    evidence.providedInterface = node.providedInterface

variable {authority : ReceiptAcceptanceAuthority sha256}

theorem parseAcceptance_acceptanceObject {acceptance : AcceptedReceiptEvidence sha256}
    {evidence : AuthorityVerifiedReceiptEvidence sha256}
    (h : authority acceptance.declared = .ok evidence) :
    parseAcceptance authority (acceptanceObject acceptance) = .ok evidence := by
  have hnew : DeclaredReceiptEvidence.new ⟨acceptance.engineIdentity,
      acceptance.canonicalReceiptBytes, acceptance.receiptDigest⟩ = .ok acceptance.declared :=
    constructed_of acceptance.declared.valid
  rw [parseAcceptance, acceptanceObject, exactObject_ofFields (by rfl) (by decide), ok_bind]
  simp [lookup_cons, ok_bind, hnew, h, mapError_ok]

theorem parseNode_nodeObject {node : Node sha256} (h : Vouches authority node) :
    parseNode authority (nodeObject node) = .ok node := by
  obtain ⟨evidence, hevidence, hacceptance, hroots, hsource, hbundle, hprovided⟩ := h
  have hnew : Node.new node.toNodeFields = .ok node := by
    have hcheck : node.toNodeFields.sorted.check = .ok () := node.ordered.symm ▸ node.valid
    rw [Node.new, constructed_of hcheck]
    congr 1
    cases node with
    | mk fields valid ordered =>
      simp only [ordered]
  have hordered : sortOn assumptionId node.assumedInterfaces =
      node.assumedInterfaces := congrArg NodeFields.assumedInterfaces node.ordered
  have hsorted : sortOn id node.rootDeclarations = node.rootDeclarations :=
    congrArg NodeFields.rootDeclarations node.ordered
  rw [parseNode, nodeObject, exactObject_ofFields (by rfl) (by decide), ok_bind, hordered, hsorted]
  simp [-mapM_map, lookup_cons, ok_bind, mapM_exactString, parseAcceptance_acceptanceObject hevidence,
    mapM_map_eq_ok fun assumption _ => parseAssumption_assumptionObject assumption,
    parseSourceIdentity_sourceIdentityObject, parseInterface_interfaceObject, hroots, hsorted,
    hsource, hbundle, hprovided, hacceptance, guardElse, record, hnew, mapError_ok]

variable {graph : ProofBaseReceiptGraph sha256}

theorem parseGraph_graphObject (h : ∀ node ∈ graph.nodes, Vouches authority node) :
    parseGraph authority (graphObject graph) = .ok graph := by
  have hnew : ProofBaseReceiptGraph.new graph.schemaId graph.nodes graph.edges
      graph.terminalNodeId = graph :=
    ProofBaseReceiptGraph.ext rfl graph.nodesOrdered graph.edgesOrdered rfl
  rw [parseGraph, graphObject, exactObject_ofFields (by rfl) (by decide), ok_bind, graph.nodesOrdered,
    graph.edgesOrdered]
  simp [lookup_cons, ok_bind, mapM_map_eq_ok fun node hnode => parseNode_nodeObject (h node hnode),
    mapM_map_eq_ok fun edge _ => parseEdge_edgeObject edge, hnew]

theorem distinct_auditObject (graph : ProofBaseReceiptGraph sha256)
    (receipt : VerifiedCompositionReceipt) : (auditObject graph receipt).Distinct := by
  have hinterface : ∀ interface : CanonicalInterface sha256,
      (interfaceObject interface).Canonical := fun interface =>
    canonical_ofFields (by simp [hex])
  have hsource : ∀ sourceIdentity : CanonicalSourceIdentity sha256,
      (sourceIdentityObject sourceIdentity).Canonical := fun sourceIdentity =>
    canonical_ofFields (by simp [hex])
  have hacceptance : ∀ acceptance : AcceptedReceiptEvidence sha256,
      (acceptanceObject acceptance).Canonical := fun acceptance =>
    canonical_ofFields (by simp [hex])
  have hassumption : ∀ assumption : NamedInterfaceAssumption sha256,
      (assumptionObject assumption).Canonical := fun assumption =>
    canonical_ofFields (by simp [hinterface])
  have hnode : ∀ node : Node sha256, (nodeObject node).Canonical := fun node =>
    canonical_ofFields (by simp [hinterface, hsource, hacceptance, hassumption])
  have hedge : ∀ edge : Edge, (edgeObject edge).Canonical := fun edge =>
    canonical_ofFields (by simp)
  have hreceipt : ∀ receipt : ReceiptObject, receipt.toJson.Canonical := fun receipt =>
    canonical_ofFields (by simp)
  have hgraph : (graphObject graph).Canonical :=
    canonical_ofFields (by simp [hnode, hedge])
  exact JsonTree.Canonical.distinct (canonical_ofFields (by simp [hgraph, hreceipt]))

/-- **An audit is read back.** -/
theorem decode_encode {receipt : VerifiedCompositionReceipt}
    (hverify : graph.verify = .ok receipt) (h : ∀ node ∈ graph.nodes, Vouches authority node) :
    ∃ auditBytes, encode graph = .ok auditBytes ∧
      decode authority auditBytes = .ok ⟨graph, receipt, auditBytes⟩ := by
  have hencode : encode graph =
      .ok (utf8 (String.ofList (JsonText.render (auditObject graph receipt)))) := by
    rw [encode, hverify]
    rfl
  refine ⟨_, hencode, ?_⟩
  rw [decode, decodeUtf8_utf8, Option.bind_some, String.toList_ofList,
    JsonText.parse_render (distinct_auditObject graph receipt), presentElse, ok_bind, auditObject,
    exactObject_ofFields (by rfl) (by decide), ok_bind]
  have hparsed : exactString "audit.schema_id" (.string receiptGraphAuditSchema) =
    .ok receiptGraphAuditSchema := rfl
  simp [lookup_cons, ok_bind, guardElse, parseGraph_graphObject h, hverify, mapError_ok,
    parseDeclaredReceipt_toJson, record, hencode, auditObject]

/-- **What is read is an audit.** -/
theorem encode_of_decode {auditBytes : List UInt8}
    {decoded : DecodedProofBaseReceiptGraphAudit sha256}
    (h : decode authority auditBytes = .ok decoded) : encode decoded.graph = .ok auditBytes := by
  rw [decode] at h
  simp only [bind_eq_ok, guardElse_eq_ok] at h
  obtain ⟨_, -, _, -, _, -, _, -, graph, -, receipt, -, _, -, _, -, canonicalAuditBytes, hencode, _,
    rfl, h⟩ := h
  obtain rfl := Except.ok.inj h
  cases hresult : encode graph with
  | error error =>
    rw [hresult] at hencode
    cases hencode
  | ok bytes =>
    rw [hresult] at hencode
    exact congrArg Except.ok (Except.ok.inj hencode)

/-- **Round trip**: what the audit and its reader are to each other. -/
structure RoundTrip (authority : ReceiptAcceptanceAuthority sha256) : Prop where
  decodes : ∀ (graph : ProofBaseReceiptGraph sha256) receipt, graph.verify = .ok receipt →
    (∀ node ∈ graph.nodes, Vouches authority node) →
      ∃ auditBytes, encode graph = .ok auditBytes ∧
        decode authority auditBytes = .ok ⟨graph, receipt, auditBytes⟩
  encodes : ∀ auditBytes decoded, decode authority auditBytes = .ok decoded →
    encode decoded.graph = .ok auditBytes
  unique : ∀ auditBytes auditBytes' decoded decoded', decode authority auditBytes = .ok decoded →
    decode authority auditBytes' = .ok decoded' → decoded.graph = decoded'.graph →
      auditBytes = auditBytes'

theorem audit_roundTrip (authority : ReceiptAcceptanceAuthority sha256) : RoundTrip authority where
  decodes _ _ hverify h := decode_encode hverify h
  encodes _ _ h := encode_of_decode h
  unique _ _ _ _ h h' hgraph :=
    Except.ok.inj ((encode_of_decode h).symm.trans (hgraph ▸ encode_of_decode h'))

end PooFlow.Proof
