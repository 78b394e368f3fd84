import PooFlow.Cedar.Projection

/-! `authority.rs`. Signatures and the hash are parameters; what a call reads of the clocks, the
random source and the runtime host is an argument. -/

namespace PooFlow.Cedar

open Foundation JsonTree

/-- `Signed<T>`. -/
structure Signed (α : Type) where
  payload : α
  signature : String

def Signed.fields {α : Type} (toJson : α → JsonTree) (signed : Signed α) :
    List (String × JsonTree) :=
  [("payload", toJson signed.payload), ("signature", .string signed.signature)]

def Signed.toJson {α : Type} (toJson : α → JsonTree) (signed : Signed α) : JsonTree :=
  .ofFields (signed.fields toJson)

def textArray (texts : List String) : JsonTree := .array (texts.map .string)

def Outcome.toJson (outcome : Outcome) : JsonTree :=
  .ofFields [("schema_id", .string outcome.schemaId), ("engine_id", .string outcome.engineId),
    ("semantic_revision", .string outcome.semanticRevision),
    ("decision", .string outcome.decision),
    ("determining_policies", textArray outcome.determiningPolicies),
    ("erroring_policies", textArray outcome.erroringPolicies)]

def AuthorizationSubject.fields (subject : AuthorizationSubject) : List (String × JsonTree) :=
  [("request_digest", .string subject.requestDigest),
    ("policy_set_digest", .string subject.policySetDigest),
    ("entity_store_digest", .string subject.entityStoreDigest),
    ("independent_declaration_bundle_digest",
      .string subject.independentDeclarationBundleDigest),
    ("governance_assessment_digest", .string subject.governanceAssessmentDigest),
    ("subject_snapshot_digest", .string subject.subjectSnapshotDigest),
    ("epoch", .number subject.epoch)]

def AuthorizationSubject.toJson (subject : AuthorizationSubject) : JsonTree :=
  .ofFields subject.fields

def Provenance.toJson (provenance : Provenance) : JsonTree :=
  .ofFields [("composition_identity", .string provenance.compositionIdentity),
    ("profile_identities", textArray provenance.profileIdentities),
    ("profile_origin_digest", .string provenance.profileOriginDigest),
    ("governance_assessment_digest", .string provenance.governanceAssessmentDigest),
    ("subject_snapshot_digest", .string provenance.subjectSnapshotDigest),
    ("governance_admitted", .bool provenance.governanceAdmitted),
    ("certification_names", textArray provenance.certificationNames)]

structure EngineReceipt where
  schemaId : String
  engineId : String
  runtimeArtifactDigest : String
  engineComponentDigest : String
  receiptId : String
  authorizationSubject : AuthorizationSubject
  policyInputDigest : String
  inputArtifactDigest : String
  outcome : Outcome
  elapsedMs : UInt64

def EngineReceipt.toJson (receipt : EngineReceipt) : JsonTree :=
  .ofFields [("schema_id", .string receipt.schemaId), ("engine_id", .string receipt.engineId),
    ("runtime_artifact_digest", .string receipt.runtimeArtifactDigest),
    ("engine_component_digest", .string receipt.engineComponentDigest),
    ("receipt_id", .string receipt.receiptId),
    ("authorization_subject", receipt.authorizationSubject.toJson),
    ("policy_input_digest", .string receipt.policyInputDigest),
    ("input_artifact_digest", .string receipt.inputArtifactDigest),
    ("outcome", receipt.outcome.toJson), ("elapsed_ms", .number receipt.elapsedMs.toNat)]

structure DecisionReceipt where
  schemaId : String
  authorityId : String
  authorityInstance : String
  runtimeContextId : String
  runtimeGeneration : ℕ
  runtimeBundleDigest : String
  profileBundleDigest : String
  capabilityContractDigest : String
  policyRevision : ℕ
  revocationEpoch : ℕ
  provenance : Provenance
  arbitration : String
  perRequestDualWitness : Bool
  rust : Signed EngineReceipt
  lean : Signed EngineReceipt
  decision : String

def DecisionReceipt.toJson (receipt : DecisionReceipt) : JsonTree :=
  .ofFields [("schema_id", .string receipt.schemaId), ("authority_id", .string receipt.authorityId),
    ("authority_instance", .string receipt.authorityInstance),
    ("runtime_context_id", .string receipt.runtimeContextId),
    ("runtime_generation", .number receipt.runtimeGeneration),
    ("runtime_bundle_digest", .string receipt.runtimeBundleDigest),
    ("profile_bundle_digest", .string receipt.profileBundleDigest),
    ("capability_contract_digest", .string receipt.capabilityContractDigest),
    ("policy_revision", .number receipt.policyRevision),
    ("revocation_epoch", .number receipt.revocationEpoch),
    ("provenance", receipt.provenance.toJson), ("arbitration", .string receipt.arbitration),
    ("per_request_dual_witness", .bool receipt.perRequestDualWitness),
    ("rust", receipt.rust.toJson EngineReceipt.toJson),
    ("lean", receipt.lean.toJson EngineReceipt.toJson), ("decision", .string receipt.decision)]

structure Grant where
  schemaId : String
  grantId : String
  authorityId : String
  authorityInstance : String
  issuerPublicKey : String
  decisionReceiptDigest : String
  subject : AuthorizationSubject
  policyInputDigest : String
  runtimeContextId : String
  runtimeGeneration : ℕ
  runtimeBundleDigest : String
  profileBundleDigest : String
  capabilityContractDigest : String
  policyRevision : ℕ
  revocationEpoch : ℕ
  intentDigest : String
  handoffDigest : String
  action : String
  eventKind : ℕ
  nonce : ℕ × ℕ
  issuedAtUnixMs : ℕ
  expiresAtUnixMs : ℕ

def Grant.fields (grant : Grant) : List (String × JsonTree) :=
  [("schema_id", .string grant.schemaId), ("grant_id", .string grant.grantId),
    ("authority_id", .string grant.authorityId),
    ("authority_instance", .string grant.authorityInstance),
    ("issuer_public_key", .string grant.issuerPublicKey),
    ("decision_receipt_digest", .string grant.decisionReceiptDigest),
    ("subject", grant.subject.toJson), ("policy_input_digest", .string grant.policyInputDigest),
    ("runtime_context_id", .string grant.runtimeContextId),
    ("runtime_generation", .number grant.runtimeGeneration),
    ("runtime_bundle_digest", .string grant.runtimeBundleDigest),
    ("profile_bundle_digest", .string grant.profileBundleDigest),
    ("capability_contract_digest", .string grant.capabilityContractDigest),
    ("policy_revision", .number grant.policyRevision),
    ("revocation_epoch", .number grant.revocationEpoch),
    ("intent_digest", .string grant.intentDigest), ("handoff_digest", .string grant.handoffDigest),
    ("action", .string grant.action), ("event_kind", .number grant.eventKind),
    ("nonce", .array [.number grant.nonce.1, .number grant.nonce.2]),
    ("issued_at_unix_ms", .number grant.issuedAtUnixMs),
    ("expires_at_unix_ms", .number grant.expiresAtUnixMs)]

def Grant.toJson (grant : Grant) : JsonTree := .ofFields grant.fields

def Signed.grantJson (grant : Signed Grant) : JsonTree := grant.toJson Grant.toJson

theorem AuthorizationSubject.canonical_toJson (subject : AuthorizationSubject) :
    subject.toJson.Canonical :=
  canonical_ofFields (by simp [fields])

theorem AuthorizationSubject.toJson_inj {subject subject' : AuthorizationSubject}
    (h : subject.toJson = subject'.toJson) : subject = subject' := by
  have hfields : subject.fields = subject'.fields :=
    ofFields_inj (by simp [fields]) (by simp [fields]) h
  cases subject
  cases subject'
  simpa [fields] using hfields

theorem Grant.canonical_toJson (grant : Grant) : grant.toJson.Canonical :=
  canonical_ofFields (by simp [fields, AuthorizationSubject.canonical_toJson])

theorem Grant.toJson_inj {grant grant' : Grant} (h : grant.toJson = grant'.toJson) :
    grant = grant' := by
  have hfields : grant.fields = grant'.fields :=
    ofFields_inj (by simp [fields]) (by simp [fields]) h
  have hsubject : grant.subject = grant'.subject := by
    refine AuthorizationSubject.toJson_inj ?_
    simp only [fields, List.cons.injEq, Prod.mk.injEq] at hfields
    exact hfields.2.2.2.2.2.2.1.2
  cases grant
  cases grant'
  simp_all [fields, Prod.ext_iff]

theorem Signed.canonical_grantJson (grant : Signed Grant) : grant.grantJson.Canonical :=
  canonical_ofFields (by simp [fields, Grant.canonical_toJson])

/-- **The JSON of a signed grant determines it.** -/
theorem Signed.grantJson_inj {grant grant' : Signed Grant} (h : grant.grantJson = grant'.grantJson) :
    grant = grant' := by
  have hfields : grant.fields Grant.toJson = grant'.fields Grant.toJson :=
    ofFields_inj (by simp [fields]) (by simp [fields]) h
  simp only [fields, List.cons.injEq, Prod.mk.injEq, string.injEq] at hfields
  obtain ⟨⟨-, hpayload⟩, ⟨-, hsignature⟩, -⟩ := hfields
  cases grant
  cases grant'
  rw [Signed.mk.injEq]
  exact ⟨Grant.toJson_inj hpayload, hsignature⟩

structure Crypto where
  sha256 : List UInt8 → List UInt8
  verifyingKey : List UInt8
  sign : List UInt8 → List UInt8
  validKey : List UInt8 → Bool
  verifyStrict : List UInt8 → List UInt8 → List UInt8 → Bool

def signingDomain : String := "poo-flow/cedar/authority-signature"

def maxPending : ℕ := 4096

/-- `Deployment`, what is read of it after the start. -/
structure Deployment where
  runtimeArtifactDigest : String
  grantLifetimeMs : ℕ

/-- `Pending`: the deadline is an instant of the monotonic clock, in milliseconds. -/
structure Pending where
  digest : String
  deadline : ℕ

structure Authority (cedar : CedarPolicy) where
  snapshot : Snapshot cedar
  runtime : RuntimeClient
  authorityInstance : String
  deployment : Deployment
  pending : Keyed String Pending
  suspended : Option Error
  closed : Bool

structure AuthorizationResult where
  status : String
  receipt : Signed DecisionReceipt
  grant : Option (Signed Grant)

structure ConsumeRequest where
  grant : Signed Grant
  runtimeContextId : String
  runtimeGeneration : ℕ
  runtimeBundleDigest : String
  bundleEpoch : ℕ
  action : String
  intentDigest : String
  handoff : HandoffInput

structure ConsumedHandoff where
  schemaId : String
  grantId : String
  nonce : ℕ × ℕ
  eventKind : ℕ
  payloadDigest : String
  handoff : HandoffInput

/-- What `issue` reads of its surroundings: the clock when it visits a pending
grant, the stream, the random bytes, the system time in milliseconds, and the
clock at the end. -/
structure Surroundings where
  sweep : String → ℕ
  transport : Transport
  entropy : Except String { bytes : List UInt8 // bytes.length = 16 }
  systemTime : Except String ℕ
  now : ℕ

section

variable (crypto : Crypto) {cedar : CedarPolicy}

def verifySignature (publicKey : String) (payload : JsonTree) (signature : String) :
    Except Error Unit := do
  let key ← presentElse (Hex.decode publicKey.toList)
    ⟨"authority-signature-invalid", "invalid public key"⟩
  guardElse (key.length = 32) ⟨"authority-signature-invalid", "invalid public key length"⟩
  guardElse (crypto.validKey key = true) ⟨"authority-signature-invalid", "invalid public key"⟩
  let signature ← presentElse (Hex.decode signature.toList)
    ⟨"authority-signature-invalid", "invalid signature encoding"⟩
  guardElse (signature.length = 64) ⟨"authority-signature-invalid", "invalid signature length"⟩
  guardElse (crypto.verifyStrict key (← material signingDomain payload) signature = true)
    ⟨"authority-signature-invalid", "signature does not bind the payload"⟩

def sign {α : Type} (toJson : α → JsonTree) (payload : α) : Except Error (Signed α) := do
  let signature := crypto.sign (← material signingDomain (toJson payload))
  return ⟨payload, String.ofList (Hex.encode signature)⟩

def publicKey : String := String.ofList (Hex.encode crypto.verifyingKey)

namespace Authority

def ensureLive (authority : Authority cedar) : Except Error Unit := do
  guardElse (authority.closed = false) ⟨"authority-closed", "runtime generation is closed"⟩
  match authority.suspended with
  | some error => .error ⟨"authority-suspended", error.toText⟩
  | none => return

/-- The sweep of `issue`: pending grants whose deadline has passed are dropped. -/
def sweep (authority : Authority cedar) (clock : String → ℕ) : Authority cedar :=
  { authority with
    pending := authority.pending.delete fun id =>
      (authority.pending.find? id).any (fun pending => pending.deadline ≤ clock id) = true }

def engineReceipt (authority : Authority cedar) (prepared : PreparedRequest) (grantId : String)
    (witness : RuntimeWitness) : EngineReceipt where
  schemaId := "poo-flow.cedar-engine-receipt.v1"
  engineId := witness.engineId
  runtimeArtifactDigest := authority.deployment.runtimeArtifactDigest
  engineComponentDigest := witness.componentDigest
  receiptId := grantId ++ ":" ++ witness.engineId
  authorizationSubject := prepared.subject
  policyInputDigest := prepared.policyInputDigest
  inputArtifactDigest := rawDigest crypto.sha256 prepared.protobuf
  outcome := witness.outcome
  elapsedMs := witness.elapsedMs

def decisionReceipt (authority : Authority cedar) (rust lean : Signed EngineReceipt)
    (decision : String) : DecisionReceipt where
  schemaId := "poo-flow.cedar-decision-receipt.v1"
  authorityId := authority.snapshot.bootstrap.authorityId
  authorityInstance := authority.authorityInstance
  runtimeContextId := authority.snapshot.bootstrap.runtimeContextId
  runtimeGeneration := authority.snapshot.bootstrap.runtimeGeneration
  runtimeBundleDigest := authority.snapshot.bootstrap.runtimeBundleDigest
  profileBundleDigest := authority.snapshot.bootstrap.profileBundleDigest
  capabilityContractDigest := authority.snapshot.bootstrap.capabilityContractDigest
  policyRevision := authority.snapshot.bootstrap.policyRevision
  revocationEpoch := authority.snapshot.bootstrap.revocationEpoch
  provenance := authority.snapshot.bootstrap.provenance
  arbitration := "strict-lockstep"
  perRequestDualWitness := true
  rust := rust
  lean := lean
  decision := decision

def grantFor (authority : Authority cedar) (proposal : Proposal) (prepared : PreparedRequest)
    (idBytes : List UInt8) (decisionDigest handoffDigest : String) (issuedAt : ℕ) : Grant where
  schemaId := "poo-flow.cedar-runtime-grant.v1"
  grantId := authority.authorityInstance ++ ":" ++ String.ofList (Hex.encode idBytes)
  authorityId := authority.snapshot.bootstrap.authorityId
  authorityInstance := authority.authorityInstance
  issuerPublicKey := publicKey crypto
  decisionReceiptDigest := decisionDigest
  subject := prepared.subject
  policyInputDigest := prepared.policyInputDigest
  runtimeContextId := authority.snapshot.bootstrap.runtimeContextId
  runtimeGeneration := authority.snapshot.bootstrap.runtimeGeneration
  runtimeBundleDigest := authority.snapshot.bootstrap.runtimeBundleDigest
  profileBundleDigest := authority.snapshot.bootstrap.profileBundleDigest
  capabilityContractDigest := authority.snapshot.bootstrap.capabilityContractDigest
  policyRevision := authority.snapshot.bootstrap.policyRevision
  revocationEpoch := authority.snapshot.bootstrap.revocationEpoch
  intentDigest := proposal.intentDigest
  handoffDigest := handoffDigest
  action := prepared.action
  eventKind := prepared.eventKind
  nonce := (ofBigEndian (idBytes.take 8), ofBigEndian (idBytes.drop 8))
  issuedAtUnixMs := issuedAt
  expiresAtUnixMs := issuedAt + authority.deployment.grantLifetimeMs

/-- `issue` after the engines: the result, and the entry of the grant. -/
def conclude (authority : Authority cedar) (proposal : Proposal) (prepared : PreparedRequest)
    (rust lean : RuntimeWitness) (surroundings : Surroundings) :
    Except Error (AuthorizationResult × Option (String × Pending)) := do
  let idBytes ← surroundings.entropy.mapError (⟨"authority-entropy-unavailable", ·⟩)
  let grantId := authority.authorityInstance ++ ":" ++ String.ofList (Hex.encode idBytes.1)
  let decision := rust.outcome.decision
  let rust ← sign crypto EngineReceipt.toJson
    (authority.engineReceipt crypto prepared grantId rust)
  let lean ← sign crypto EngineReceipt.toJson
    (authority.engineReceipt crypto prepared grantId lean)
  let receipt ← sign crypto DecisionReceipt.toJson (authority.decisionReceipt rust lean decision)
  -- a denial is signed too, but no grant is issued for it
  if decision = "deny" then return ({ status := "denied", receipt, grant := none }, none)
  let issuedAt ← surroundings.systemTime.mapError (⟨"authority-clock-invalid", ·⟩)
  guardElse (issuedAt < 2 ^ 64) ⟨"authority-clock-invalid", "timestamp overflow"⟩
  guardElse (issuedAt + authority.deployment.grantLifetimeMs < 2 ^ 64)
    ⟨"authority-clock-invalid", "timestamp overflow"⟩
  let decisionDigest ← digest crypto.sha256 "poo-flow/cedar/decision-receipt"
    (receipt.toJson DecisionReceipt.toJson)
  let handoffDigest ← digest crypto.sha256 "poo-flow/cedar/runtime-handoff" proposal.handoff.toJson
  let grant ← sign crypto Grant.toJson (authority.grantFor crypto proposal prepared idBytes.1
    decisionDigest handoffDigest issuedAt)
  let grantDigest ← digest crypto.sha256 "poo-flow/cedar/grant" grant.grantJson
  return ({ status := "authorized", receipt, grant := some grant },
    some (grantId, ⟨grantDigest, surroundings.now + authority.deployment.grantLifetimeMs⟩))

/-- `issue`: the state after the call, and what it returns. -/
def issue (fromSlice : List UInt8 → Except String RuntimeReply) (authority : Authority cedar)
    (proposal : Proposal) (surroundings : Surroundings) :
    Authority cedar × Except Error AuthorizationResult :=
  match authority.ensureLive with
  | .error error => (authority, .error error)
  | .ok () =>
    let authority := authority.sweep surroundings.sweep
    if maxPending ≤ authority.pending.rows.length then
      (authority, .error ⟨"authority-grant-budget-exceeded", "4096 unconsumed grants"⟩)
    else match authority.snapshot.prepare crypto.sha256 proposal with
      | .error error => (authority, .error error)
      | .ok prepared =>
        let (runtime, execution) := authority.runtime.evaluate crypto.sha256 fromSlice
          surroundings.transport prepared.protobuf
        let authority := { authority with runtime := runtime }
        match execution with
        | .error error =>
          -- a runtime that fails suspends the authority, for good
          ({ authority with suspended := some error, pending := .empty }, .error error)
        | .ok (rust, lean) =>
          match authority.conclude crypto proposal prepared rust lean surroundings with
          | .error error => (authority, .error error)
          | .ok (result, none) => (authority, .ok result)
          | .ok (result, some (grantId, entry)) =>
            ({ authority with pending := authority.pending.put grantId entry }, .ok result)

/-- The checks of `consume` up to the pending grant: the payload, and the entry. -/
def admitRequest (authority : Authority cedar) (request : ConsumeRequest) :
    Except Error (List UInt8 × Pending) := do
  authority.ensureLive
  let payload ← request.handoff.validate
  let grant := request.grant.payload
  let current := authority.snapshot.bootstrap
  verifySignature crypto (publicKey crypto) grant.toJson request.grant.signature
  guardElse (grant.schemaId = "poo-flow.cedar-runtime-grant.v1" ∧
      grant.authorityInstance = authority.authorityInstance ∧
      grant.authorityId = current.authorityId ∧ grant.issuerPublicKey = publicKey crypto)
    ⟨"grant-authority-mismatch", "grant belongs to another authority instance"⟩
  guardElse (grant.revocationEpoch = current.revocationEpoch ∧
      grant.policyRevision = current.policyRevision)
    ⟨"grant-revoked", "policy or revocation epoch changed"⟩
  guardElse (grant.runtimeContextId = current.runtimeContextId ∧
      request.runtimeContextId = current.runtimeContextId ∧
      grant.runtimeGeneration = current.runtimeGeneration ∧
      request.runtimeGeneration = current.runtimeGeneration ∧
      grant.runtimeBundleDigest = current.runtimeBundleDigest ∧
      request.runtimeBundleDigest = current.runtimeBundleDigest ∧
      grant.subject.epoch = current.bundleEpoch ∧ request.bundleEpoch = current.bundleEpoch)
    ⟨"grant-runtime-binding-mismatch", "context, generation, bundle, or epoch changed"⟩
  let handoffDigest ← digest crypto.sha256 "poo-flow/cedar/runtime-handoff" request.handoff.toJson
  guardElse (grant.action = request.action ∧ grant.intentDigest = request.intentDigest ∧
      grant.handoffDigest = handoffDigest)
    ⟨"grant-effect-binding-mismatch", "action, intent, or exact handoff changed"⟩
  let pending ← presentElse (authority.pending.find? grant.grantId)
    ⟨"grant-consumed-or-unknown", "grant has no unconsumed issuance"⟩
  return (payload, pending)

/-- The state without the pending grant `grantId`. -/
def forget (authority : Authority cedar) (grantId : String) : Authority cedar :=
  { authority with pending := authority.pending.delete (· = grantId) }

/-- `consume`, with the reading `now` of the clock. -/
def consume (authority : Authority cedar) (request : ConsumeRequest) (now : ℕ) :
    Authority cedar × Except Error ConsumedHandoff :=
  match authority.admitRequest crypto request with
  | .error error => (authority, .error error)
  | .ok (payload, pending) =>
    let grant := request.grant.payload
    if pending.deadline ≤ now then
      -- an expired grant is consumed by the attempt
      (authority.forget grant.grantId,
        .error ⟨"grant-expired", "monotonic validity window expired"⟩)
    else match digest crypto.sha256 "poo-flow/cedar/grant" request.grant.grantJson with
      | .error error => (authority, .error error)
      | .ok grantDigest =>
        if pending.digest = grantDigest then
          (authority.forget grant.grantId, .ok {
            schemaId := "poo-flow.cedar-consumed-handoff.v1"
            grantId := grant.grantId
            nonce := grant.nonce
            eventKind := grant.eventKind
            payloadDigest := rawDigest crypto.sha256 payload
            handoff := request.handoff })
        -- a grant that was not issued as such leaves the entry
        else (authority,
          .error ⟨"grant-issuance-mismatch", "receipt differs from the actual issuance"⟩)

/-- The request that `consume_proposal` hands to `consume`. -/
def requestFor (authority : Authority cedar) (grant : Signed Grant) (proposal : Proposal) :
    ConsumeRequest where
  grant := grant
  runtimeContextId := authority.snapshot.bootstrap.runtimeContextId
  runtimeGeneration := authority.snapshot.bootstrap.runtimeGeneration
  runtimeBundleDigest := authority.snapshot.bootstrap.runtimeBundleDigest
  bundleEpoch := authority.snapshot.bootstrap.bundleEpoch
  action := proposal.action
  intentDigest := proposal.intentDigest
  handoff := proposal.handoff

/-- The checks of `consume_proposal` before it calls `consume`. -/
def admitProposal (authority : Authority cedar) (grant : Signed Grant) (proposal : Proposal) :
    Except Error Unit := do
  authority.ensureLive
  verifySignature crypto (publicKey crypto) grant.payload.toJson grant.signature
  let prepared ← authority.snapshot.prepare crypto.sha256 proposal
  guardElse (grant.payload.subject = prepared.subject ∧
      grant.payload.policyInputDigest = prepared.policyInputDigest)
    ⟨"grant-request-binding-mismatch", "native request differs from the evaluated request"⟩

def consumeProposal (authority : Authority cedar) (grant : Signed Grant) (proposal : Proposal)
    (now : ℕ) : Authority cedar × Except Error ConsumedHandoff :=
  match authority.admitProposal crypto grant proposal with
  | .error error => (authority, .error error)
  | .ok () => authority.consume crypto (authority.requestFor grant proposal) now

def revoke (authority : Authority cedar) (nextEpoch : ℕ) : Authority cedar × Except Error Unit :=
  match authority.ensureLive with
  | .error error => (authority, .error error)
  | .ok () =>
    if nextEpoch ≤ authority.snapshot.bootstrap.revocationEpoch then
      (authority, .error ⟨"revocation-epoch-invalid", "epoch must increase"⟩)
    else ({ authority with
      snapshot := { authority.snapshot with
        bootstrap := { authority.snapshot.bootstrap with revocationEpoch := nextEpoch } }
      pending := .empty }, .ok ())

def close (authority : Authority cedar) : Authority cedar :=
  { authority with closed := true, pending := .empty }

end Authority

end

section

variable {crypto : Crypto} {cedar : CedarPolicy} {authority : Authority cedar}

namespace Authority

theorem ensureLive_eq_ok :
    authority.ensureLive = .ok () ↔ authority.closed = false ∧ authority.suspended = none := by
  rw [ensureLive, then_eq_ok, guardElse_eq_ok]
  cases authority.suspended <;> simp

/-- What `issue` has done when it returns a grant. -/
structure Granted (crypto : Crypto) (authority : Authority cedar) (proposal : Proposal)
    (surroundings : Surroundings) (grant : Signed Grant) (entry : Pending) : Prop where
  prepared : ∃ prepared, authority.snapshot.prepare crypto.sha256 proposal = .ok prepared ∧
    grant.payload.action = prepared.action ∧ grant.payload.subject = prepared.subject ∧
    grant.payload.policyInputDigest = prepared.policyInputDigest
  intent : grant.payload.intentDigest = proposal.intentDigest
  handoff : digest crypto.sha256 "poo-flow/cedar/runtime-handoff" proposal.handoff.toJson =
    .ok grant.payload.handoffDigest
  digest : digest crypto.sha256 "poo-flow/cedar/grant" grant.grantJson = .ok entry.digest
  deadline : entry.deadline = surroundings.now + authority.deployment.grantLifetimeMs

theorem sign_eq {α : Type} {toJson : α → JsonTree} {payload : α} {signed : Signed α}
    (h : sign crypto toJson payload = .ok signed) : signed.payload = payload := by
  obtain ⟨_, -, h⟩ := bind_eq_ok.1 h
  rw [← Except.ok.inj h]

variable {proposal : Proposal} {after : Authority cedar}

variable {surroundings : Surroundings} {entry : Pending} {request : ConsumeRequest} {now : ℕ}
  {reply : Except Error ConsumedHandoff}

/-- `issue` after the engines. -/
theorem conclude_eq {prepared : PreparedRequest} {rust lean : RuntimeWitness}
    {result : AuthorizationResult} {entry : Option (String × Pending)}
    (hprepared : authority.snapshot.prepare crypto.sha256 proposal = .ok prepared)
    (h : authority.conclude crypto proposal prepared rust lean surroundings = .ok (result, entry)) :
    (rust.outcome.decision = "deny" ∧ result.status = "denied" ∧ result.grant = none ∧
        entry = none) ∨
      ∃ grant pending, rust.outcome.decision ≠ "deny" ∧ result.status = "authorized" ∧
        result.grant = some grant ∧ entry = some (grant.payload.grantId, pending) ∧
        authority.Granted crypto proposal surroundings grant pending := by
  obtain ⟨idBytes, -, h⟩ := bind_eq_ok.1 h
  obtain ⟨rust', -, h⟩ := bind_eq_ok.1 h
  obtain ⟨lean', -, h⟩ := bind_eq_ok.1 h
  obtain ⟨receipt, -, h⟩ := bind_eq_ok.1 h
  split_ifs at h with hdeny
  · obtain ⟨rfl, rfl⟩ := Prod.mk.inj (Except.ok.inj h)
    exact .inl ⟨hdeny, rfl, rfl, rfl⟩
  · obtain ⟨issuedAt, -, h⟩ := bind_eq_ok.1 h
    obtain ⟨-, h⟩ := then_eq_ok.1 h
    obtain ⟨-, h⟩ := then_eq_ok.1 h
    obtain ⟨decisionDigest, -, h⟩ := bind_eq_ok.1 h
    obtain ⟨handoffDigest, hhandoff, h⟩ := bind_eq_ok.1 h
    obtain ⟨grant, hgrant, h⟩ := bind_eq_ok.1 h
    obtain ⟨grantDigest, hdigest, h⟩ := bind_eq_ok.1 h
    obtain ⟨rfl, rfl⟩ := Prod.mk.inj (Except.ok.inj h)
    have hpayload := sign_eq hgrant
    refine .inr ⟨grant, ⟨grantDigest, _⟩, hdeny, rfl, rfl, by rw [hpayload]; rfl, ?_⟩
    exact ⟨⟨prepared, hprepared, by rw [hpayload]; rfl, by rw [hpayload]; rfl,
      by rw [hpayload]; rfl⟩, by rw [hpayload]; rfl, by rw [hpayload]; exact hhandoff, hdigest, rfl⟩

theorem find?_sweep {clock : String → ℕ} {id : String}
    (h : (authority.sweep clock).pending.find? id = some entry) :
    authority.pending.find? id = some entry := by
  simp only [sweep, Keyed.find?_delete] at h
  split_ifs at h
  exact h

theorem grant_of_error {error : Error} (result : AuthorizationResult)
    (h : (.error error : Except Error AuthorizationResult) = .ok result) : result.grant = none :=
  nomatch h

/-- **What `issue` does**: it leaves no grant that was not pending, but for the
one it returns; without one, a failure of the engines suspends the authority. -/
theorem issue_cases {fromSlice : List UInt8 → Except String RuntimeReply}
    {reply : Except Error AuthorizationResult}
    (h : authority.issue crypto fromSlice proposal surroundings = (after, reply)) :
    after.snapshot = authority.snapshot ∧
      ((∃ result grant entry, reply = .ok result ∧ result.status = "authorized" ∧
          result.grant = some grant ∧ authority.ensureLive = .ok () ∧ after.suspended = none ∧
          after.pending = (authority.sweep surroundings.sweep).pending.put
            grant.payload.grantId entry ∧
          authority.Granted crypto proposal surroundings grant entry) ∨
        ((∀ result, reply = .ok result → result.grant = none) ∧
          (after.pending = .empty ∨ after.suspended = authority.suspended ∧
            (after.pending = authority.pending ∨
              after.pending = (authority.sweep surroundings.sweep).pending)))) := by
  unfold issue at h
  split at h
  · obtain ⟨rfl, rfl⟩ := Prod.mk.inj h
    exact ⟨rfl, .inr ⟨grant_of_error, .inr ⟨rfl, .inl rfl⟩⟩⟩
  · next hlive =>
    simp only at h
    split_ifs at h
    · obtain ⟨rfl, rfl⟩ := Prod.mk.inj h
      exact ⟨rfl, .inr ⟨grant_of_error, .inr ⟨rfl, .inr rfl⟩⟩⟩
    · split at h
      · obtain ⟨rfl, rfl⟩ := Prod.mk.inj h
        exact ⟨rfl, .inr ⟨grant_of_error, .inr ⟨rfl, .inr rfl⟩⟩⟩
      · next prepared hprepared =>
        split at h
        · obtain ⟨rfl, rfl⟩ := Prod.mk.inj h
          exact ⟨rfl, .inr ⟨grant_of_error, .inl rfl⟩⟩
        · split at h
          · obtain ⟨rfl, rfl⟩ := Prod.mk.inj h
            exact ⟨rfl, .inr ⟨grant_of_error, .inr ⟨rfl, .inr rfl⟩⟩⟩
          · next result hconclude =>
            obtain ⟨rfl, rfl⟩ := Prod.mk.inj h
            obtain ⟨-, -, hnone, -⟩ | ⟨grant, entry, -, -, -, hentry, -⟩ :=
              conclude_eq hprepared hconclude
            · refine ⟨rfl, .inr ⟨fun result' heq => ?_, .inr ⟨rfl, .inr rfl⟩⟩⟩
              rw [← Except.ok.inj heq, hnone]
            · cases hentry
          · next result grantId entry hconclude =>
            obtain ⟨rfl, rfl⟩ := Prod.mk.inj h
            obtain ⟨-, -, -, hentry⟩ | ⟨grant, entry', -, hstatus, hgrant, hentry, hgranted⟩ :=
              conclude_eq hprepared hconclude
            · cases hentry
            · obtain ⟨rfl, rfl⟩ := Prod.mk.inj (Option.some.inj hentry)
              exact ⟨rfl, .inl ⟨result, grant, _, rfl, hstatus, hgrant, hlive,
                (ensureLive_eq_ok.1 hlive).2, rfl, ⟨hgranted.prepared, hgranted.intent,
                hgranted.handoff, hgranted.digest, hgranted.deadline⟩⟩⟩

/-- What `consume` has checked when it hands out the payload. -/
structure Admitted (crypto : Crypto) (authority : Authority cedar) (request : ConsumeRequest)
    (entry : Pending) : Prop where
  live : authority.ensureLive = .ok ()
  action : request.grant.payload.action = request.action
  intent : request.grant.payload.intentDigest = request.intentDigest
  handoff : digest crypto.sha256 "poo-flow/cedar/runtime-handoff" request.handoff.toJson =
    .ok request.grant.payload.handoffDigest
  pending : authority.pending.find? request.grant.payload.grantId = some entry

theorem admitRequest_eq {payload : List UInt8}
    (h : authority.admitRequest crypto request = .ok (payload, entry)) :
    authority.Admitted crypto request entry := by
  simp only [admitRequest, then_eq_ok] at h
  obtain ⟨hlive, h⟩ := h
  obtain ⟨_, -, h⟩ := bind_eq_ok.1 h
  simp only [then_eq_ok] at h
  obtain ⟨-, -, -, -, h⟩ := h
  obtain ⟨handoffDigest, hdigest, h⟩ := bind_eq_ok.1 h
  obtain ⟨heffect, h⟩ := then_eq_ok.1 h
  obtain ⟨found, hfound, h⟩ := bind_eq_ok.1 h
  obtain ⟨rfl, rfl⟩ := Prod.mk.inj (Except.ok.inj h)
  obtain ⟨haction, hintent, hhandoff⟩ := guardElse_eq_ok.1 heffect
  exact ⟨hlive, haction, hintent, hhandoff ▸ hdigest, presentElse_eq_ok.1 hfound⟩

/-- **What `consume` does.** -/
theorem consume_cases (h : authority.consume crypto request now = (after, reply)) :
    (∃ handoff entry, reply = .ok handoff ∧ authority.Admitted crypto request entry ∧
        now < entry.deadline ∧
        digest crypto.sha256 "poo-flow/cedar/grant" request.grant.grantJson = .ok entry.digest ∧
        after = authority.forget request.grant.payload.grantId) ∨
      ∃ error, reply = .error error ∧
        (after = authority ∨ after = authority.forget request.grant.payload.grantId) := by
  unfold consume at h
  split at h
  · obtain ⟨rfl, rfl⟩ := Prod.mk.inj h
    exact .inr ⟨_, rfl, .inl rfl⟩
  · next payload entry hadmit =>
    simp only at h
    split_ifs at h with hexpired
    · obtain ⟨rfl, rfl⟩ := Prod.mk.inj h
      exact .inr ⟨_, rfl, .inr rfl⟩
    · split at h
      · obtain ⟨rfl, rfl⟩ := Prod.mk.inj h
        exact .inr ⟨_, rfl, .inl rfl⟩
      · next grantDigest hdigest =>
        split_ifs at h with hsame
        · obtain ⟨rfl, rfl⟩ := Prod.mk.inj h
          exact .inl ⟨_, entry, rfl, admitRequest_eq hadmit, Nat.lt_of_not_le hexpired,
            hsame ▸ hdigest, rfl⟩
        · obtain ⟨rfl, rfl⟩ := Prod.mk.inj h
          exact .inr ⟨_, rfl, .inl rfl⟩

/-- **What `consume_proposal` does**: it consumes for a proposal of the same
subject, or leaves the state. -/
theorem consumeProposal_cases {grant : Signed Grant}
    (h : authority.consumeProposal crypto grant proposal now = (after, reply)) :
    (∃ prepared, authority.snapshot.prepare crypto.sha256 proposal = .ok prepared ∧
        grant.payload.subject = prepared.subject ∧
        authority.consume crypto (authority.requestFor grant proposal) now = (after, reply)) ∨
      ∃ error, reply = .error error ∧ after = authority := by
  unfold consumeProposal at h
  split at h
  · obtain ⟨rfl, rfl⟩ := Prod.mk.inj h
    exact .inr ⟨_, rfl, rfl⟩
  · next hadmit =>
    obtain ⟨-, hadmit⟩ := then_eq_ok.1 hadmit
    obtain ⟨-, hadmit⟩ := then_eq_ok.1 hadmit
    obtain ⟨prepared, hprepared, hadmit⟩ := bind_eq_ok.1 hadmit
    exact .inl ⟨prepared, hprepared, (guardElse_eq_ok.1 hadmit).1, h⟩

end Authority

end

end PooFlow.Cedar
