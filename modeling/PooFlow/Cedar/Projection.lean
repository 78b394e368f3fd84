import PooFlow.Cedar.Runtime
import PooFlow.Foundation.Keyed

/-! `projection.rs`: proposals and the requests the engines evaluate. The `cedar_policy` crate is a
parameter. -/

namespace PooFlow.Cedar

open Foundation JsonTree

/-- The `cedar_policy` crate: entity names and their text, contexts and their JSON,
requests, and the protobuf of an authorization request. -/
structure CedarPolicy where
  EntityUid : Type
  Schema : Type
  Context : Type
  Request : Type
  PolicySet : Type
  Entities : Type
  parseUid : String → Except String EntityUid
  uidText : EntityUid → String
  contextFromJson : CanonicalTree → Schema → EntityUid → Except String Context
  contextToJson : Context → Except String CanonicalTree
  newRequest : EntityUid → EntityUid → EntityUid → Context → Schema → Except String Request
  encodeRequest : Request → PolicySet → Entities → List UInt8

structure HandoffInput where
  sequence : ℕ
  payloadHex : String
  semanticRoot : String
  beforeExecutionRoot : String
  afterExecutionRoot : String
  observationDigest : String

namespace HandoffInput

def fields (handoff : HandoffInput) : List (String × JsonTree) :=
  [("sequence", .number handoff.sequence), ("payload_hex", .string handoff.payloadHex),
    ("semantic_root", .string handoff.semanticRoot),
    ("before_execution_root", .string handoff.beforeExecutionRoot),
    ("after_execution_root", .string handoff.afterExecutionRoot),
    ("observation_digest", .string handoff.observationDigest)]

def toJson (handoff : HandoffInput) : JsonTree := .ofFields handoff.fields

/-- `HandoffInput::validate`, with the payload. -/
def validate (handoff : HandoffInput) : Except Error (List UInt8) := do
  guardElse (handoff.sequence ≠ 0) ⟨"handoff-invalid", "sequence must be positive"⟩
  checkDigest handoff.semanticRoot
  checkDigest handoff.beforeExecutionRoot
  checkDigest handoff.afterExecutionRoot
  checkDigest handoff.observationDigest
  let payload ← presentElse (Hex.decode handoff.payloadHex.toList)
    ⟨"handoff-invalid", "invalid payload hex"⟩
  guardElse (payload.length ≤ 65536 ∧ Hex.encode payload = handoff.payloadHex.toList)
    ⟨"handoff-invalid", "payload must be canonical lowercase hex and at most 64 KiB"⟩
  return payload

end HandoffInput

structure Proposal where
  schemaId : String
  principal : String
  action : String
  resource : String
  context : CanonicalTree
  intentDigest : String
  handoff : HandoffInput

structure Provenance where
  compositionIdentity : String
  profileIdentities : List String
  profileOriginDigest : String
  governanceAssessmentDigest : String
  subjectSnapshotDigest : String
  governanceAdmitted : Bool
  certificationNames : List String

/-- `Bootstrap`, what is read of it after the start. -/
structure Bootstrap where
  provenance : Provenance
  authorityId : String
  runtimeContextId : String
  runtimeGeneration : ℕ
  bundleEpoch : ℕ
  runtimeBundleDigest : String
  profileBundleDigest : String
  independentBundleDigest : String
  capabilityContractDigest : String
  policyRevision : ℕ
  revocationEpoch : ℕ

structure AuthorizationSubject where
  requestDigest : String
  policySetDigest : String
  entityStoreDigest : String
  independentDeclarationBundleDigest : String
  governanceAssessmentDigest : String
  subjectSnapshotDigest : String
  epoch : ℕ
deriving DecidableEq

structure PreparedRequest where
  subject : AuthorizationSubject
  policyInputDigest : String
  protobuf : List UInt8
  eventKind : ℕ
  action : String
deriving DecidableEq

/-- `Snapshot`: `capabilities` gives the event kind of an action, and whether it
needs source admission. -/
structure Snapshot (cedar : CedarPolicy) where
  bootstrap : Bootstrap
  schema : cedar.Schema
  policies : cedar.PolicySet
  entities : cedar.Entities
  capabilities : Keyed String (ℕ × Bool)
  policyDigest : String
  entityDigest : String
  schemaDigest : String

/-- A request as the digest of it is computed: entity names as text, and the
context that the crate read. -/
structure Rendered where
  principal : String
  action : String
  resource : String
  context : CanonicalTree

def Rendered.fields (rendered : Rendered) : List (String × JsonTree) :=
  [("principal", .string rendered.principal), ("action", .string rendered.action),
    ("resource", .string rendered.resource), ("context", rendered.context.1)]

def Rendered.toJson (rendered : Rendered) : JsonTree := .ofFields rendered.fields

/-- What `prepare` reads a proposal as. -/
structure Resolved (cedar : CedarPolicy) where
  principal : cedar.EntityUid
  action : cedar.EntityUid
  resource : cedar.EntityUid
  eventKind : ℕ
  context : cedar.Context
  contextJson : CanonicalTree

def Resolved.rendered {cedar : CedarPolicy} (resolved : Resolved cedar) : Rendered :=
  ⟨cedar.uidText resolved.principal, cedar.uidText resolved.action,
    cedar.uidText resolved.resource, resolved.contextJson⟩

def insertMember (fields : List (String × JsonTree)) (h : JsonTree.Canonical (.object fields))
    (key : String) (value : CanonicalTree) : CanonicalTree :=
  ⟨.object (insertField key value.1 fields), by
    obtain ⟨hsorted, hfields⟩ := JsonTree.canonical_object.1 h
    refine JsonTree.canonical_object.2 ⟨fieldsSorted_insertField hsorted, fun field hfield => ?_⟩
    rcases mem_insertField hfield with rfl | hfield
    · exact value.2
    · exact hfields field hfield⟩

section

variable (sha256 : List UInt8 → List UInt8) {cedar : CedarPolicy}

/-- The members of `context.poo_flow`. -/
def authorityContext (bootstrap : Bootstrap) (intentDigest handoffDigest : String) :
    CanonicalTree :=
  ⟨.ofFields [("intentDigest", .string intentDigest), ("handoffDigest", .string handoffDigest),
    ("runtimeContext", .string bootstrap.runtimeContextId),
    ("runtimeGeneration", .number bootstrap.runtimeGeneration),
    ("bundleEpoch", .number bootstrap.bundleEpoch),
    ("runtimeBundleDigest", .string bootstrap.runtimeBundleDigest),
    ("profileBundleDigest", .string bootstrap.profileBundleDigest),
    ("capabilityContractDigest", .string bootstrap.capabilityContractDigest),
    ("revocationEpoch", .number bootstrap.revocationEpoch),
    ("governanceAssessmentDigest", .string bootstrap.provenance.governanceAssessmentDigest),
    ("subjectSnapshotDigest", .string bootstrap.provenance.subjectSnapshotDigest),
    ("governanceAdmitted", .bool bootstrap.provenance.governanceAdmitted)],
    JsonTree.canonical_ofFields (by simp)⟩

/-- The context of a proposal with `context.poo_flow`. -/
def materializeContext (snapshot : Snapshot cedar) (proposal : Proposal) :
    Except Error CanonicalTree :=
  match proposal.context with
  | ⟨.object fields, hfields⟩ => do
    guardElse ("poo_flow" ∉ fields.map Prod.fst)
      ⟨"reserved-authority-context", "caller cannot supply context.poo_flow"⟩
    guardElse ("poo_flow_preflight_only" ∉ fields.map Prod.fst)
      ⟨"runtime-source-admission-required",
        "preflight-only context has no Runtime source admission"⟩
    let handoffDigest ← digest sha256 "poo-flow/cedar/runtime-handoff" proposal.handoff.toJson
    return insertMember fields hfields "poo_flow"
      (authorityContext snapshot.bootstrap proposal.intentDigest handoffDigest)
  | _ => .error ⟨"cedar-context-invalid", "context must be a record"⟩

/-- `Snapshot::prepare` up to the rendered context. -/
def Snapshot.resolve (snapshot : Snapshot cedar) (proposal : Proposal) :
    Except Error (Resolved cedar) := do
  guardElse (proposal.schemaId = "poo-flow.cedar-authorization-request.v1")
    ⟨"request-schema-invalid", proposal.schemaId⟩
  checkDigest proposal.intentDigest
  let _ ← proposal.handoff.validate
  let principal ← (cedar.parseUid proposal.principal).mapError (⟨"cedar-request-invalid", ·⟩)
  let action ← (cedar.parseUid proposal.action).mapError (⟨"cedar-request-invalid", ·⟩)
  let resource ← (cedar.parseUid proposal.resource).mapError (⟨"cedar-request-invalid", ·⟩)
  let (eventKind, sourceAdmissionRequired) ←
    presentElse (snapshot.capabilities.find? (cedar.uidText action))
      ⟨"capability-not-granted", cedar.uidText action⟩
  guardElse (sourceAdmissionRequired = false)
    ⟨"runtime-source-admission-required", "this action requires Runtime-owned source admission"⟩
  let contextJson ← materializeContext sha256 snapshot proposal
  let context ← (cedar.contextFromJson contextJson snapshot.schema action).mapError
    (⟨"cedar-context-invalid", ·⟩)
  let contextJson ← (cedar.contextToJson context).mapError (⟨"cedar-context-invalid", ·⟩)
  return { principal, action, resource, eventKind, context, contextJson }

def policyInput (snapshot : Snapshot cedar) (requestDigest : String) : JsonTree :=
  .array [.string cedarVersion, .string leanRevision, .string snapshot.policyDigest,
    .string snapshot.schemaDigest, .string requestDigest, .string snapshot.entityDigest, .array [],
    .string snapshot.bootstrap.profileBundleDigest,
    .string snapshot.bootstrap.capabilityContractDigest,
    .string snapshot.bootstrap.provenance.governanceAssessmentDigest,
    .string snapshot.bootstrap.provenance.subjectSnapshotDigest, .string "strict-lockstep",
    .string snapshot.bootstrap.provenance.profileOriginDigest]

def subjectOf (snapshot : Snapshot cedar) (requestDigest : String) : AuthorizationSubject where
  requestDigest := requestDigest
  policySetDigest := snapshot.policyDigest
  entityStoreDigest := snapshot.entityDigest
  independentDeclarationBundleDigest := snapshot.bootstrap.independentBundleDigest
  governanceAssessmentDigest := snapshot.bootstrap.provenance.governanceAssessmentDigest
  subjectSnapshotDigest := snapshot.bootstrap.provenance.subjectSnapshotDigest
  epoch := snapshot.bootstrap.bundleEpoch

def Snapshot.prepare (snapshot : Snapshot cedar) (proposal : Proposal) :
    Except Error PreparedRequest := do
  let resolved ← snapshot.resolve sha256 proposal
  let requestDigest ← digest sha256 "poo-flow/cedar/request" resolved.rendered.toJson
  let policyInputDigest ←
    digest sha256 "poo-flow/cedar/policy-input" (policyInput snapshot requestDigest)
  let request ← (cedar.newRequest resolved.principal resolved.action resolved.resource
    resolved.context snapshot.schema).mapError (⟨"cedar-request-invalid", ·⟩)
  let protobuf := cedar.encodeRequest request snapshot.policies snapshot.entities
  guardElse (protobuf.length ≤ maxProjectionBytes)
    ⟨"cedar-input-too-large", "protobuf exceeds 1 MiB"⟩
  return {
    subject := subjectOf snapshot requestDigest
    policyInputDigest
    protobuf
    eventKind := resolved.eventKind
    action := cedar.uidText resolved.action }

def Snapshot.rendered (snapshot : Snapshot cedar) (proposal : Proposal) : Except Error Rendered := do
  return (← snapshot.resolve sha256 proposal).rendered

end

theorem HandoffInput.canonical_toJson (handoff : HandoffInput) : handoff.toJson.Canonical :=
  canonical_ofFields (by simp [fields])

theorem HandoffInput.toJson_inj {handoff handoff' : HandoffInput}
    (h : handoff.toJson = handoff'.toJson) : handoff = handoff' := by
  have hfields : handoff.fields = handoff'.fields :=
    ofFields_inj (by simp [fields]) (by simp [fields]) h
  cases handoff
  cases handoff'
  simpa [fields] using hfields

theorem Rendered.canonical_toJson (rendered : Rendered) : rendered.toJson.Canonical :=
  canonical_ofFields (by simp [fields, rendered.context.2])

theorem Rendered.toJson_inj {rendered rendered' : Rendered}
    (h : rendered.toJson = rendered'.toJson) : rendered = rendered' := by
  have hfields : rendered.fields = rendered'.fields :=
    ofFields_inj (by simp [fields]) (by simp [fields]) h
  cases rendered
  cases rendered'
  simpa [fields, Subtype.ext_iff] using hfields

section

variable {sha256 : List UInt8 → List UInt8} {cedar : CedarPolicy} {snapshot : Snapshot cedar}
  {proposal proposal' : Proposal} {prepared prepared' : PreparedRequest}

theorem Snapshot.prepare_eq (h : snapshot.prepare sha256 proposal = .ok prepared) :
    ∃ rendered, snapshot.rendered sha256 proposal = .ok rendered ∧
      digest sha256 "poo-flow/cedar/request" rendered.toJson = .ok prepared.subject.requestDigest ∧
      prepared.action = rendered.action ∧ prepared.protobuf.length ≤ maxProjectionBytes := by
  obtain ⟨resolved, hresolved, h⟩ := bind_eq_ok.1 h
  obtain ⟨requestDigest, hdigest, h⟩ := bind_eq_ok.1 h
  obtain ⟨policyInputDigest, -, h⟩ := bind_eq_ok.1 h
  obtain ⟨request, -, h⟩ := bind_eq_ok.1 h
  obtain ⟨hfit, h⟩ := then_eq_ok.1 h
  obtain rfl := Except.ok.inj h
  exact ⟨resolved.rendered, by rw [rendered, hresolved]; rfl, hdigest, rfl, guardElse_eq_ok.1 hfit⟩

/-- **One request digest, one rendered request.** -/
theorem Snapshot.rendered_eq (hsha : Function.Injective sha256)
    (h : snapshot.prepare sha256 proposal = .ok prepared)
    (h' : snapshot.prepare sha256 proposal' = .ok prepared')
    (hsubject : prepared.subject = prepared'.subject) :
    snapshot.rendered sha256 proposal = snapshot.rendered sha256 proposal' := by
  obtain ⟨rendered, hrendered, hdigest, -⟩ := prepare_eq h
  obtain ⟨rendered', hrendered', hdigest', -⟩ := prepare_eq h'
  rw [hsubject] at hdigest
  obtain ⟨-, hjson⟩ := digest_inj hsha rendered.canonical_toJson rendered'.canonical_toJson
    hdigest hdigest'
  rw [hrendered, hrendered', Rendered.toJson_inj hjson]

end

end PooFlow.Cedar
