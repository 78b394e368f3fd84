import PooFlow.Runtime.Batch
import PooFlow.Runtime.Lifecycle
import PooFlow.Runtime.Nonces

/-! `strict_mediate`, `batched_flush` and `session_reconcile_evidence`. The callbacks act on a world
`σ`; the adapter may call `submit_batch` while it executes. -/

namespace PooFlow

open Foundation LinearProbing

structure AdapterInvocation where
  structSize : ℕ := sizeof .adapterInvocation
  arena : Handle
  lease : Handle
  arenaGeneration : ℕ
  firstSequence : ℕ
  lastSequence : ℕ
  headers : List EventHeader
  itemCount : ℕ
  payload : ℕ
  payloadCapacity : ℕ

structure AdapterResult where
  structSize : ℕ := sizeof .adapterResult
  outcome : MediationOutcome := .unset
  adapterStatus : Status := .ok
  reserved0 : ℕ := 0
  inputDigest : Digest := .zero
  observationDigest : Digest := .zero

/-- What `execute` does: it may submit batches, reading each answer, before it
returns its status and result. -/
inductive AdapterProgram where
  | done (status : Status) (result : AdapterResult)
  | submit (instance_ session : Handle) (request : Option SubmitRequest)
      (result : Option SubmitResult) (next : Status → Option SubmitResult → AdapterProgram)

/-- A call of `submit_batch` with its answer. -/
structure Submission where
  session : Handle
  request : Option SubmitRequest
  status : Status
  written : Option SubmitResult

structure AdapterRun where
  status : Status
  result : AdapterResult
  runtime : Runtime
  submissions : List Submission

def AdapterProgram.run : AdapterProgram → Runtime → AdapterRun
  | .done status result, rt => { status, result, runtime := rt, submissions := [] }
  | .submit instance_ session request result next, rt =>
    let answer := submitBatch rt instance_ session request result
    let rest := (next answer.status answer.written).run answer.runtime
    { rest with
      submissions :=
        { session, request, status := answer.status, written := answer.written } ::
          rest.submissions }

structure EvidenceReservation where
  structSize : ℕ := sizeof .evidenceReservation
  session : Handle
  mediationSequence : ℕ
  firstSequence : ℕ
  lastSequence : ℕ
  nonce : CompactId
  semanticRoot : Digest
  beforeExecutionRoot : Digest

structure EvidenceInvocation where
  structSize : ℕ := sizeof .evidenceInvocation
  outcome : MediationOutcome
  adapterStatus : Status
  session : Handle
  mediationSequence : ℕ
  firstSequence : ℕ
  lastSequence : ℕ
  nonce : CompactId
  semanticRoot : Digest
  beforeExecutionRoot : Digest
  inputDigest : Digest
  observationDigest : Digest

structure EvidenceResult where
  structSize : ℕ := sizeof .evidenceResult
  verificationFlags : UInt32 := 0
  reserved0 : ℕ := 0
  reserved1 : ℕ := 0
  afterExecutionRoot : Digest := .zero
  evidenceDigest : Digest := .zero
  attestationDigest : Digest := .zero

structure FlushInvocation where
  structSize : ℕ := sizeof .flushInvocation
  session : Handle
  firstMediationSequence : ℕ
  lastMediationSequence : ℕ
  leafDigests : List Digest
  leafCount : ℕ
  beforeExecutionRoot : Digest

structure FlushResult where
  structSize : ℕ := sizeof .flushResult
  verificationFlags : UInt32 := 0
  reserved0 : ℕ := 0
  reserved1 : ℕ := 0
  afterExecutionRoot : Digest := .zero
  batchRoot : Digest := .zero
  evidenceDigest : Digest := .zero
  attestationDigest : Digest := .zero

structure AdapterVtable where
  structSize : ℕ := sizeof .adapterVtable
  reserved0 : ℕ := 0
  execute : Option (AdapterInvocation → AdapterProgram)

structure EvidenceVtable (σ : Type) where
  structSize : ℕ := sizeof .evidenceVtable
  reserved0 : ℕ := 0
  reserve : Option (EvidenceReservation → σ → Status × σ)
  finalize : Option (EvidenceInvocation → σ → (Status × EvidenceResult) × σ)
  flush : Option (FlushInvocation → σ → (Status × FlushResult) × σ)

/-- `SIGNATURE_VERIFIED | INCLUSION_VERIFIED`. -/
def evidenceFlags : UInt32 := 3

def classifyAdapter (status : Status) (result : AdapterResult) : MediationOutcome × Status :=
  if status = .ok ∧ result.structSize = sizeof .adapterResult ∧ result.reserved0 = 0 ∧
      result.adapterStatus = .ok ∧ result.outcome = .committed then
    (.committed, result.adapterStatus)
  else if status = .ok ∧ (result.structSize ≠ sizeof .adapterResult ∨ result.reserved0 ≠ 0 ∨
      result.adapterStatus ≠ .ok ∨ result.outcome ≠ .indeterminate) then
    (.indeterminate, .malformedDescriptor)
  else if status = .ok then (.indeterminate, result.adapterStatus)
  else (.indeterminate, status)

def bufferOutcome (durability : Durability) (outcome : MediationOutcome) : MediationOutcome :=
  if outcome = .committed ∧ durability = .batched then .buffered else outcome

structure Judgement where
  valid : Bool
  status : Status
  outcome : MediationOutcome

def EvidenceResult.wellFormed (status : Status) (result : EvidenceResult) : Prop :=
  status = .ok ∧ result.structSize = sizeof .evidenceResult ∧ result.reserved0 = 0 ∧
    result.reserved1 = 0 ∧ result.verificationFlags &&& ~~~evidenceFlags = 0

instance (status : Status) (result : EvidenceResult) : Decidable (result.wellFormed status) :=
  inferInstanceAs (Decidable (_ ∧ _))

/-- The third rewrite: evidence that is malformed, or that moves the root of a
mediation that must not move it, demotes the outcome. -/
def judgeEvidence (outcome : MediationOutcome) (before : Digest) (status : Status)
    (result : EvidenceResult) : Judgement :=
  if ¬result.wellFormed status then
    { valid := false
      status := if status = .ok then .malformedDescriptor else status
      outcome := .indeterminate }
  else if (outcome = .indeterminate ∨ outcome = .buffered) ∧
      result.afterExecutionRoot ≠ before then
    { valid := false, status := .tokenBindingMismatch, outcome := .indeterminate }
  else { valid := true, status := status, outcome := outcome }

def MediationState.settle (m : MediationState) (judgement : Judgement)
    (result : EvidenceResult) (sequence : ℕ) : MediationState :=
  { m with
    executionRoot :=
      if judgement.valid = true ∧ judgement.outcome = .committed then
        result.afterExecutionRoot
      else m.executionRoot
    stagedLeaves :=
      if judgement.valid = true ∧ judgement.outcome = .buffered then
        m.stagedLeaves ++ [⟨sequence, result.evidenceDigest⟩]
      else m.stagedLeaves
    mediationSequence := m.mediationSequence + 1 }

def MediationState.bindSemanticRoot (m : MediationState) (semanticRoot : Digest) : MediationState :=
  if m.semanticRootBound then m
  else { m with semanticRoot := semanticRoot, semanticRootBound := true }

structure StrictMediationRequest (σ : Type) where
  structSize : ℕ := sizeof .mediationRequest
  durability : Durability
  reserved0 : ℕ := 0
  reserved1 : ℕ := 0
  arena : Handle
  lease : Handle
  arenaGeneration : ℕ
  bundleEpoch : ℕ
  firstSequence : ℕ
  lastSequence : ℕ
  nonce : CompactId
  semanticRoot : Digest
  beforeExecutionRoot : Digest
  adapter : Option AdapterVtable
  evidence : Option (EvidenceVtable σ)

structure StrictMediationResult where
  structSize : ℕ := sizeof .mediationResult
  outcome : MediationOutcome := .unset
  adapterStatus : Status := .ok
  evidenceStatus : Status := .ok
  verificationFlags : UInt32 := 0
  reserved0 : ℕ := 0
  mediationSequence : ℕ := 0
  executionRoot : Digest := .zero
  observationDigest : Digest := .zero
  evidenceDigest : Digest := .zero
  attestationDigest : Digest := .zero

/-- What the admission of a mediation has resolved: slots, arguments, callbacks,
the first event of the lease and the vacant cell for the nonce. -/
structure MediationPlan (σ : Type) where
  session : Fin maxResources
  arena : Fin maxResources
  lease : Fin maxResources
  request : StrictMediationRequest σ
  result : StrictMediationResult
  execute : AdapterInvocation → AdapterProgram
  reserve : EvidenceReservation → σ → Status × σ
  finalize : EvidenceInvocation → σ → (Status × EvidenceResult) × σ
  firstEvent : ℕ
  nonceCell : ℕ

structure Callbacks (σ : Type) where
  execute : AdapterInvocation → AdapterProgram
  reserve : EvidenceReservation → σ → Status × σ
  finalize : EvidenceInvocation → σ → (Status × EvidenceResult) × σ
  hasFlush : Bool

def mediationCallbacks {σ : Type} (request : StrictMediationRequest σ)
    (result : StrictMediationResult) : Except Status (Callbacks σ) := do
  guardElse (request.structSize = sizeof .mediationRequest ∧
      result.structSize = sizeof .mediationResult ∧ request.reserved0 = 0 ∧
      request.reserved1 = 0 ∧ result.reserved0 = 0) .malformedDescriptor
  let adapter ← presentElse request.adapter .malformedDescriptor
  guardElse (adapter.structSize = sizeof .adapterVtable ∧ adapter.reserved0 = 0)
    .malformedDescriptor
  let execute ← presentElse adapter.execute .malformedDescriptor
  let evidence ← presentElse request.evidence .malformedDescriptor
  guardElse (evidence.structSize = sizeof .evidenceVtable ∧ evidence.reserved0 = 0)
    .malformedDescriptor
  let reserve ← presentElse evidence.reserve .malformedDescriptor
  let finalize ← presentElse evidence.finalize .malformedDescriptor
  return { execute, reserve, finalize, hasFlush := evidence.flush.isSome }

/-- The durability class, which only a batched request may fail on capability
or room. -/
def checkDurability (entry : Resource) (durability : Durability) (hasFlush : Bool) :
    Except Status Unit := do
  guardElse (durability ≠ .diagnostic) .diagnosticCannotExecute
  guardElse (durability = .strict ∨ durability = .batched) .tokenBindingMismatch
  guardElse (durability = .batched → entry.capabilities &&& capBatchedEvidence ≠ 0)
    .unsupportedCapability
  guardElse (durability = .batched → hasFlush = true) .malformedDescriptor
  guardElse (durability = .batched → entry.mediation.stagedLeaves.length < maxStagedLeaves)
    .outstandingWork

def checkBinding {σ : Type} (session lease arena : Resource) (sessionId : ℕ)
    (request : StrictMediationRequest σ) : Prop :=
  arena.arenaGeneration = request.arenaGeneration ∧
    lease.parentId = request.arena.resourceId ∧ lease.outstanding = sessionId ∧
    lease.epoch = request.arenaGeneration ∧ session.epoch = request.bundleEpoch ∧
    request.firstSequence ≤ request.lastSequence ∧
    lease.leaseFirstSequence = request.firstSequence ∧
    lease.leaseLastSequence = request.lastSequence

instance {σ : Type} (session lease arena : Resource) (sessionId : ℕ)
    (request : StrictMediationRequest σ) :
    Decidable (checkBinding session lease arena sessionId request) :=
  inferInstanceAs (Decidable (_ ∧ _))

def checkRange (q : EventQueue) (first last : ℕ) : Prop :=
  (sequencesOf q.pending)[pendingLowerBound q first]? = some first ∧
    (sequencesOf q.pending)[pendingLowerBound q last]? = some last ∧
    pendingLowerBound q last - pendingLowerBound q first = last - first

instance (q : EventQueue) (first last : ℕ) : Decidable (checkRange q first last) :=
  inferInstanceAs (Decidable (_ ∧ _))

def admitNonce (m : MediationState) (nonce : CompactId) : Except Status ℕ :=
  match nonceSlot m.consumedNonces nonce with
  | .found _ => .error .tokenReplay
  | .full => .error .outstandingWork
  | .vacant cell =>
    if maxConsumedNonces ≤ m.consumedNonceCount then .error .outstandingWork else .ok cell

def mediationAdmission {σ : Type} (rt : Runtime) (instance_ session : Handle)
    (request : Option (StrictMediationRequest σ)) (result : Option StrictMediationResult) :
    Except Status (MediationPlan σ) := do
  let s ← resolve rt instance_ session .session
  let request ← presentElse request .invalidArgument
  let result ← presentElse result .invalidArgument
  let callbacks ← mediationCallbacks request result
  checkDurability (rt.resources s) request.durability callbacks.hasFlush
  let a ← resolve rt instance_ request.arena .arena
  let l ← resolve rt instance_ request.lease .lease
  guardElse (checkBinding (rt.resources s) (rt.resources l) (rt.resources a)
    session.resourceId request) .tokenBindingMismatch
  let q := (rt.resources s).queue
  let m := (rt.resources s).mediation
  -- the binding was checked, so a range that is not pending is the runtime's own fault
  guardElse (checkRange q request.firstSequence request.lastSequence) .internalInvariant
  guardElse (m.executionRoot = request.beforeExecutionRoot) .executionRootFork
  -- the first mediation of a session binds its semantic root
  guardElse (m.semanticRootBound = true → m.semanticRoot = request.semanticRoot)
    .tokenBindingMismatch
  let cell ← admitNonce m request.nonce
  return {
    session := s
    arena := a
    lease := l
    request := request
    result := result
    execute := callbacks.execute
    reserve := callbacks.reserve
    finalize := callbacks.finalize
    firstEvent := pendingLowerBound q request.firstSequence
    nonceCell := cell }

namespace MediationPlan

variable {σ : Type} (plan : MediationPlan σ) (rt : Runtime)

def reservation (session : Handle) : EvidenceReservation where
  session := session
  mediationSequence := (rt.resources plan.session).mediation.mediationSequence + 1
  firstSequence := plan.request.firstSequence
  lastSequence := plan.request.lastSequence
  nonce := plan.request.nonce
  semanticRoot := plan.request.semanticRoot
  beforeExecutionRoot := plan.request.beforeExecutionRoot

def reserved : Runtime :=
  rt.modify plan.session (fun r =>
    { r with
      mediation := (r.mediation.bindSemanticRoot plan.request.semanticRoot).consume
        plan.request.nonce plan.nonceCell })

/-- The view of queue and arena that `execute` is called with. -/
def invocation : AdapterInvocation where
  arena := plan.request.arena
  lease := plan.request.lease
  arenaGeneration := plan.request.arenaGeneration
  firstSequence := plan.request.firstSequence
  lastSequence := plan.request.lastSequence
  headers :=
    (((rt.resources plan.session).queue.pending.drop plan.firstEvent).take
      (plan.request.lastSequence - plan.request.firstSequence + 1)).map PendingEvent.header
  itemCount := plan.request.lastSequence - plan.request.firstSequence + 1
  payload := (rt.resources plan.arena).arenaPtr
  payloadCapacity := (rt.resources plan.arena).arenaCapacity

def adapterRun : AdapterRun := (plan.execute (plan.invocation rt)).run (plan.reserved rt)

def evidenceInvocation (session : Handle) : EvidenceInvocation where
  outcome := bufferOutcome plan.request.durability
    (classifyAdapter (plan.adapterRun rt).status (plan.adapterRun rt).result).1
  adapterStatus := (classifyAdapter (plan.adapterRun rt).status (plan.adapterRun rt).result).2
  session := session
  mediationSequence :=
    ((plan.adapterRun rt).runtime.resources plan.session).mediation.mediationSequence + 1
  firstSequence := plan.request.firstSequence
  lastSequence := plan.request.lastSequence
  nonce := plan.request.nonce
  semanticRoot := plan.request.semanticRoot
  beforeExecutionRoot := plan.request.beforeExecutionRoot
  inputDigest := (plan.adapterRun rt).result.inputDigest
  observationDigest := (plan.adapterRun rt).result.observationDigest

end MediationPlan

/-- What `strict_mediate` leaves behind, with the callback it made: `invocation`
is what the adapter was executed with, if it was. -/
structure Mediated (σ : Type) where
  status : Status
  written : Option StrictMediationResult := none
  runtime : Runtime
  world : σ
  invocation : Option AdapterInvocation := none
  submissions : List Submission := []

def MediationPlan.conclude {σ : Type} (plan : MediationPlan σ) (rt : Runtime)
    (session : Handle) (evidence : (Status × EvidenceResult) × σ) : Mediated σ :=
  let run := plan.adapterRun rt
  let invocation := plan.evidenceInvocation rt session
  let judgement := judgeEvidence invocation.outcome plan.request.beforeExecutionRoot
    evidence.1.1 evidence.1.2
  -- the sequence advances and the nonce stays consumed, whatever the evidence says
  let settled := run.runtime.modify plan.session (fun r =>
    { r with
      mediation := r.mediation.settle judgement evidence.1.2 invocation.mediationSequence })
  let m := (settled.resources plan.session).mediation
  { status := .ok
    written := some
      { plan.result with
        outcome := judgement.outcome
        adapterStatus := invocation.adapterStatus
        evidenceStatus := judgement.status
        verificationFlags := if judgement.valid then evidence.1.2.verificationFlags else 0
        mediationSequence := m.mediationSequence
        executionRoot := m.executionRoot
        observationDigest := run.result.observationDigest
        evidenceDigest :=
          if judgement.valid then evidence.1.2.evidenceDigest else plan.result.evidenceDigest
        attestationDigest :=
          if judgement.valid then evidence.1.2.attestationDigest
          else plan.result.attestationDigest }
    runtime := settled
    world := evidence.2
    invocation := some (plan.invocation rt)
    submissions := run.submissions }

theorem MediationPlan.conclude_runtime {σ : Type} (plan : MediationPlan σ) (rt : Runtime)
    (session : Handle) (evidence : (Status × EvidenceResult) × σ) :
    (plan.conclude rt session evidence).runtime =
      (plan.adapterRun rt).runtime.modify plan.session (fun r =>
        { r with
          mediation := r.mediation.settle
            (judgeEvidence (plan.evidenceInvocation rt session).outcome
              plan.request.beforeExecutionRoot evidence.1.1 evidence.1.2)
            evidence.1.2 (plan.evidenceInvocation rt session).mediationSequence }) := rfl

/-- `strict_mediate`: reserve, execute, finalize, settle. -/
def strictMediate {σ : Type} (rt : Runtime) (world : σ) (instance_ session : Handle)
    (request : Option (StrictMediationRequest σ)) (result : Option StrictMediationResult) :
    Mediated σ :=
  match mediationAdmission rt instance_ session request result with
  | .error status => { status, runtime := rt, world }
  | .ok plan =>
    let reserved := plan.reserve (plan.reservation rt session) world
    if reserved.1 ≠ Status.ok then
      { status := reserved.1, runtime := rt, world := reserved.2 }
    else
      plan.conclude rt session
        (plan.finalize (plan.evidenceInvocation rt session) reserved.2)

def MediationPlan.reservationAnswer {σ : Type} (plan : MediationPlan σ) (rt : Runtime)
    (world : σ) (session : Handle) : Status × σ :=
  plan.reserve (plan.reservation rt session) world

def MediationPlan.evidenceAnswer {σ : Type} (plan : MediationPlan σ) (rt : Runtime)
    (world : σ) (session : Handle) : (Status × EvidenceResult) × σ :=
  plan.finalize (plan.evidenceInvocation rt session)
    (plan.reservationAnswer rt world session).2

theorem strictMediate_cases {σ : Type} (rt : Runtime) (world : σ) (inst session : Handle)
    (request : Option (StrictMediationRequest σ)) (result : Option StrictMediationResult) :
    (∃ status world', strictMediate rt world inst session request result =
        { status, runtime := rt, world := world' }) ∨
      ∃ plan, mediationAdmission rt inst session request result = .ok plan ∧
        (plan.reservationAnswer rt world session).1 = .ok ∧
        strictMediate rt world inst session request result =
          plan.conclude rt session (plan.evidenceAnswer rt world session) := by
  unfold strictMediate
  split
  · next status _ => exact Or.inl ⟨status, world, rfl⟩
  · next plan hadmission =>
    dsimp only
    split
    · exact Or.inl ⟨_, _, rfl⟩
    · next hreserved => exact Or.inr ⟨plan, hadmission, not_not.1 hreserved, rfl⟩

theorem mediationAdmission_ok {σ : Type} {rt : Runtime} {inst session : Handle}
    {request : Option (StrictMediationRequest σ)} {result : Option StrictMediationResult}
    {plan : MediationPlan σ} (h : mediationAdmission rt inst session request result = .ok plan) :
    resolve rt inst session .session = .ok plan.session ∧
      request = some plan.request ∧
      resolve rt inst plan.request.arena .arena = .ok plan.arena ∧
      resolve rt inst plan.request.lease .lease = .ok plan.lease ∧
      checkBinding (rt.resources plan.session) (rt.resources plan.lease)
        (rt.resources plan.arena) session.resourceId plan.request ∧
      checkRange (rt.resources plan.session).queue plan.request.firstSequence
        plan.request.lastSequence ∧
      (rt.resources plan.session).mediation.executionRoot = plan.request.beforeExecutionRoot ∧
      admitNonce (rt.resources plan.session).mediation plan.request.nonce =
        .ok plan.nonceCell ∧
      plan.firstEvent =
        pendingLowerBound (rt.resources plan.session).queue plan.request.firstSequence ∧
      (∃ evidence, plan.request.evidence = some evidence ∧ evidence.reserve = some plan.reserve ∧
        evidence.finalize = some plan.finalize) ∧
      (plan.request.durability = .batched →
        (rt.resources plan.session).mediation.stagedLeaves.length < maxStagedLeaves) ∧
      ((rt.resources plan.session).mediation.semanticRootBound = true →
        (rt.resources plan.session).mediation.semanticRoot = plan.request.semanticRoot) := by
  simp only [mediationAdmission, mediationCallbacks, checkDurability, bind_eq_ok, guardElse_eq_ok,
    presentElse_eq_ok, exists_const, pure_eq_ok] at h
  obtain ⟨s, hsession, request, hrequest, result, _, callbacks, ⟨_, adapter, _, _, execute, _,
    evidence, hevidence, _, reserve, hreserve, finalize, hfinalize, rfl⟩, ⟨_, _, _, _, hroom⟩, a,
    harena, l, hlease, hbinding, hrange, hroot, hsemantic, cell, hnonce, rfl⟩ := h
  exact ⟨hsession, hrequest, harena, hlease, hbinding, hrange, hroot, hnonce, rfl,
    ⟨evidence, hevidence, hreserve, hfinalize⟩, hroom, hsemantic⟩

theorem admitNonce_ok {m : MediationState} {nonce : CompactId} {cell : ℕ}
    (h : admitNonce m nonce = .ok cell) : nonceSlot m.consumedNonces nonce = .vacant cell ∧
      m.consumedNonceCount < maxConsumedNonces := by
  unfold admitNonce at h
  split at h
  · cases h
  · cases h
  · next hslot =>
    split at h
    · cases h
    · next hroom =>
      cases h
      exact ⟨hslot, not_le.1 hroom⟩

structure BatchedFlushRequest (σ : Type) where
  structSize : ℕ := sizeof .batchedFlushRequest
  reserved0 : ℕ := 0
  evidence : Option (EvidenceVtable σ)
  expectedExecutionRoot : Digest

structure BatchedFlushResult where
  structSize : ℕ := sizeof .batchedFlushResult
  verificationFlags : UInt32 := 0
  evidenceStatus : Status := .ok
  reserved0 : ℕ := 0
  leafCount : ℕ := 0
  firstMediationSequence : ℕ := 0
  lastMediationSequence : ℕ := 0
  executionRoot : Digest := .zero
  batchRoot : Digest := .zero
  evidenceDigest : Digest := .zero
  attestationDigest : Digest := .zero

structure FlushPlan (σ : Type) where
  session : Fin maxResources
  request : BatchedFlushRequest σ
  result : BatchedFlushResult
  flush : FlushInvocation → σ → (Status × FlushResult) × σ

def flushAdmission {σ : Type} (rt : Runtime) (instance_ session : Handle)
    (request : Option (BatchedFlushRequest σ)) (result : Option BatchedFlushResult) :
    Except Status (FlushPlan σ) := do
  let s ← resolve rt instance_ session .session
  let request ← presentElse request .invalidArgument
  let result ← presentElse result .invalidArgument
  guardElse (request.structSize = sizeof .batchedFlushRequest ∧ request.reserved0 = 0 ∧
      result.structSize = sizeof .batchedFlushResult ∧ result.reserved0 = 0)
    .malformedDescriptor
  let evidence ← presentElse request.evidence .malformedDescriptor
  guardElse (evidence.structSize = sizeof .evidenceVtable ∧ evidence.reserved0 = 0)
    .malformedDescriptor
  let flush ← presentElse evidence.flush .malformedDescriptor
  guardElse ((rt.resources s).capabilities &&& capBatchedEvidence ≠ 0) .unsupportedCapability
  guardElse ((rt.resources s).state = .opened) .invalidState
  guardElse ((rt.resources s).mediation.stagedLeaves ≠ []) .invalidState
  guardElse ((rt.resources s).mediation.executionRoot = request.expectedExecutionRoot)
    .executionRootFork
  return { session := s, request, result, flush }

def FlushPlan.invocation {σ : Type} (plan : FlushPlan σ) (rt : Runtime) (session : Handle) :
    FlushInvocation :=
  let m := (rt.resources plan.session).mediation
  { session := session
    firstMediationSequence := (m.stagedLeaves.head?.map StagedLeaf.mediationSequence).getD 0
    lastMediationSequence := (m.stagedLeaves.getLast?.map StagedLeaf.mediationSequence).getD 0
    leafDigests := m.stagedLeaves.map StagedLeaf.digest
    leafCount := m.stagedLeaves.length
    beforeExecutionRoot := m.executionRoot }

def FlushResult.wellFormed (flushed : FlushResult) : Prop :=
  flushed.structSize = sizeof .flushResult ∧ flushed.reserved0 = 0 ∧ flushed.reserved1 = 0 ∧
    flushed.verificationFlags &&& ~~~evidenceFlags = 0

instance (flushed : FlushResult) : Decidable flushed.wellFormed :=
  inferInstanceAs (Decidable (_ ∧ _))

def MediationState.flush (m : MediationState) (after : Digest) : MediationState :=
  { m with executionRoot := after, stagedLeaves := [] }

/-- What `batched_flush` leaves behind. -/
structure Flushed (σ : Type) where
  status : Status
  written : Option BatchedFlushResult := none
  runtime : Runtime
  world : σ

def batchedFlush {σ : Type} (rt : Runtime) (world : σ) (instance_ session : Handle)
    (request : Option (BatchedFlushRequest σ)) (result : Option BatchedFlushResult) : Flushed σ :=
  match flushAdmission rt instance_ session request result with
  | .error status => { status, runtime := rt, world }
  | .ok plan =>
    let invocation := plan.invocation rt session
    let answer := plan.flush invocation world
    let flushed := answer.1.2
    -- the leaves stay staged when the sink refuses or answers badly
    if answer.1.1 ≠ .ok then { status := answer.1.1, runtime := rt, world := answer.2 }
    else if ¬flushed.wellFormed then
      { status := .malformedDescriptor, runtime := rt, world := answer.2 }
    else
      { status := .ok
        written := some
          { plan.result with
            leafCount := invocation.leafCount
            firstMediationSequence := invocation.firstMediationSequence
            lastMediationSequence := invocation.lastMediationSequence
            evidenceStatus := .ok
            verificationFlags := flushed.verificationFlags
            executionRoot := flushed.afterExecutionRoot
            batchRoot := flushed.batchRoot
            evidenceDigest := flushed.evidenceDigest
            attestationDigest := flushed.attestationDigest }
        runtime := rt.modify plan.session (fun r =>
          { r with mediation := r.mediation.flush flushed.afterExecutionRoot })
        world := answer.2 }

theorem flushAdmission_ok {σ : Type} {rt : Runtime} {inst session : Handle}
    {request : Option (BatchedFlushRequest σ)} {result : Option BatchedFlushResult}
    {plan : FlushPlan σ} (h : flushAdmission rt inst session request result = .ok plan) :
    resolve rt inst session .session = .ok plan.session ∧ request = some plan.request ∧
      (∃ evidence, plan.request.evidence = some evidence ∧ evidence.flush = some plan.flush) ∧
      -- a flush is the one operation that asks for an open session
      (rt.resources plan.session).state = .opened ∧
      (rt.resources plan.session).mediation.executionRoot =
        plan.request.expectedExecutionRoot := by
  simp only [flushAdmission, bind_eq_ok, guardElse_eq_ok, presentElse_eq_ok, exists_const,
    pure_eq_ok] at h
  obtain ⟨s, hsession, request, hrequest, result, _, _, evidence, hevidence, _, flush, hflush, _,
    hopened, _, hroot, rfl⟩ := h
  exact ⟨hsession, hrequest, ⟨evidence, hevidence, hflush⟩, hopened, hroot⟩

theorem flushAdmission_ne_error_ok {σ : Type} {rt : Runtime} {inst session : Handle}
    {request : Option (BatchedFlushRequest σ)} {result : Option BatchedFlushResult} :
    flushAdmission rt inst session request result ≠ .error .ok := by
  simp [flushAdmission, bind_eq_error, resolve_ne_error_ok]

theorem batchedFlush_cases {σ : Type} (rt : Runtime) (world : σ) (inst session : Handle)
    (request : Option (BatchedFlushRequest σ)) (result : Option BatchedFlushResult) :
    ((batchedFlush rt world inst session request result).status ≠ .ok ∧
        (batchedFlush rt world inst session request result).runtime = rt) ∨
      ∃ plan written, flushAdmission rt inst session request result = .ok plan ∧
        (batchedFlush rt world inst session request result).status = .ok ∧
        (batchedFlush rt world inst session request result).written = some written ∧
        (batchedFlush rt world inst session request result).runtime =
          rt.modify plan.session (fun r =>
            { r with mediation := r.mediation.flush written.executionRoot }) := by
  unfold batchedFlush
  split
  · next status herror =>
    refine Or.inl ⟨fun h : status = .ok => ?_, rfl⟩
    exact flushAdmission_ne_error_ok (h ▸ herror)
  · next plan hadmission =>
    dsimp only
    split
    · next hstatus => exact Or.inl ⟨hstatus, rfl⟩
    · split
      · exact Or.inl ⟨by simp, rfl⟩
      · exact Or.inr ⟨plan, _, hadmission, rfl, rfl, rfl⟩

structure EvidenceReconciliation where
  structSize : ℕ := sizeof .evidenceReconciliation
  reserved0 : ℕ := 0
  mediationSequence : ℕ
  runtimeSequence : ℕ
  consumedNonces : Option (ℕ → CompactId)
  consumedNonceCount : ℕ
  stagedMediationSequences : Option (ℕ → ℕ)
  stagedLeafDigests : Option (ℕ → Digest)
  stagedLeafDigestStride : ℕ
  stagedLeafCount : ℕ
  semanticRoot : Digest
  executionRoot : Digest

namespace EvidenceReconciliation

variable (reconciliation : EvidenceReconciliation)

def nonces : List CompactId :=
  (List.range reconciliation.consumedNonceCount).map
    (reconciliation.consumedNonces.getD (fun _ => {}))

def leaves : List StagedLeaf :=
  (List.range reconciliation.stagedLeafCount).map fun i =>
    ⟨reconciliation.stagedMediationSequences.getD (fun _ => 0) i,
      reconciliation.stagedLeafDigests.getD (fun _ => .zero) i⟩

def WellFormed : Prop :=
  reconciliation.structSize = sizeof .evidenceReconciliation ∧ reconciliation.reserved0 = 0 ∧
    reconciliation.consumedNonceCount ≤ maxConsumedNonces ∧
    reconciliation.stagedLeafCount ≤ maxStagedLeaves ∧
    reconciliation.stagedLeafCount ≤ reconciliation.consumedNonceCount ∧
    reconciliation.consumedNonceCount = reconciliation.mediationSequence ∧
    (reconciliation.consumedNonceCount ≠ 0 → reconciliation.consumedNonces.isSome) ∧
    (reconciliation.stagedLeafCount ≠ 0 → reconciliation.stagedMediationSequences.isSome ∧
      reconciliation.stagedLeafDigests.isSome ∧
      digestBytes ≤ reconciliation.stagedLeafDigestStride)

instance : Decidable reconciliation.WellFormed := inferInstanceAs (Decidable (_ ∧ _))

end EvidenceReconciliation

/-- The loop over the staged sequences: positive, within `limit`, increasing. -/
def checkStagedSequences (limit : ℕ) : Option ℕ → List ℕ → Except Status Unit
  | _, [] => .ok ()
  | previous, sequence :: rest => do
    guardElse (sequence ≠ 0 ∧ sequence ≤ limit ∧ ∀ p, previous = some p → p < sequence)
      .malformedDescriptor
    checkStagedSequences limit (some sequence) rest

/-- A session that reconciliation may still fill. -/
def Resource.Untouched (r : Resource) : Prop :=
  r.state = .opened ∧ r.queue.pending = [] ∧ r.outstanding = 0 ∧
    r.mediation.mediationSequence = 0 ∧ r.mediation.consumedNonceCount = 0 ∧
    r.mediation.semanticRootBound = false ∧ r.mediation.executionRoot = .zero

instance (r : Resource) : Decidable r.Untouched := inferInstanceAs (Decidable (_ ∧ _))

def reconcileAdmission (rt : Runtime) (instance_ session : Handle)
    (reconciliation : Option EvidenceReconciliation) :
    Except Status (Fin maxResources × EvidenceReconciliation) := do
  let s ← resolve rt instance_ session .session
  let reconciliation ← presentElse reconciliation .invalidArgument
  guardElse reconciliation.WellFormed .malformedDescriptor
  checkStagedSequences reconciliation.mediationSequence none
    (reconciliation.leaves.map StagedLeaf.mediationSequence)
  guardElse (rt.resources s).Untouched .invalidState
  return (s, reconciliation)

def MediationState.restore (m : MediationState) (reconciliation : EvidenceReconciliation) :
    MediationState :=
  { m with
    semanticRoot := reconciliation.semanticRoot
    semanticRootBound := true
    executionRoot := reconciliation.executionRoot
    mediationSequence := reconciliation.mediationSequence
    -- an untouched session has no staged leaves before
    stagedLeaves := m.stagedLeaves ++ reconciliation.leaves }

/-- `session_reconcile_evidence`: a nonce met twice wipes the table and fails. -/
def sessionReconcileEvidence (rt : Runtime) (instance_ session : Handle)
    (reconciliation : Option EvidenceReconciliation) : Outcome Unit :=
  .ofAdmission rt (reconcileAdmission rt instance_ session reconciliation)
    fun (s, reconciliation) =>
      match loadNonces (rt.resources s).mediation reconciliation.nonces with
      | none =>
        { status := .tokenReplay
          runtime := rt.modify s (fun r => { r with mediation := r.mediation.wipeNonces }) }
      | some loaded =>
        .accepted
          (rt.modify s (fun r =>
            { r with
              mediation := loaded.restore reconciliation
              sequence := reconciliation.runtimeSequence }))
          ()

theorem checkStagedSequences_ne_error_ok {limit : ℕ} {previous : Option ℕ}
    {sequences : List ℕ} : checkStagedSequences limit previous sequences ≠ .error .ok := by
  induction sequences generalizing previous with
  | nil => simp [checkStagedSequences]
  | cons sequence rest ih => simp [checkStagedSequences, bind_eq_error, ih]

variable {rt : Runtime} {inst session : Handle} {request : Option EvidenceReconciliation}

theorem reconcileAdmission_ok {s : Fin maxResources} {reconciliation : EvidenceReconciliation}
    (h : reconcileAdmission rt inst session request = .ok (s, reconciliation)) :
    resolve rt inst session .session = .ok s ∧ request = some reconciliation ∧
      reconciliation.WellFormed ∧ (rt.resources s).Untouched := by
  simp only [reconcileAdmission, bind_eq_ok, guardElse_eq_ok, presentElse_eq_ok, exists_const,
    pure_eq_ok, Prod.mk.injEq] at h
  obtain ⟨_, hsession, _, hrequest, hformed, _, _, huntouched, rfl, rfl⟩ := h
  exact ⟨hsession, hrequest, hformed, huntouched⟩

theorem reconcileAdmission_ne_error_ok :
    reconcileAdmission rt inst session request ≠ .error .ok := by
  simp [reconcileAdmission, bind_eq_error, resolve_ne_error_ok, checkStagedSequences_ne_error_ok]

def Resource.reconciled (loaded : MediationState) (reconciliation : EvidenceReconciliation)
    (r : Resource) : Resource :=
  { r with
    mediation := loaded.restore reconciliation
    sequence := reconciliation.runtimeSequence }

theorem reconcile_cases (rt : Runtime) (inst session : Handle)
    (request : Option EvidenceReconciliation) :
    ((sessionReconcileEvidence rt inst session request).status ≠ .ok ∧
        (sessionReconcileEvidence rt inst session request).runtime = rt) ∨
      ∃ s reconciliation, reconcileAdmission rt inst session request = .ok (s, reconciliation) ∧
        (((sessionReconcileEvidence rt inst session request).status ≠ .ok ∧
          (sessionReconcileEvidence rt inst session request).runtime =
            rt.modify s (fun r => { r with mediation := r.mediation.wipeNonces })) ∨
        ∃ loaded, loadNonces (rt.resources s).mediation reconciliation.nonces = some loaded ∧
          (sessionReconcileEvidence rt inst session request).status = .ok ∧
          (sessionReconcileEvidence rt inst session request).runtime =
            rt.modify s (Resource.reconciled loaded reconciliation)) := by
  rcases hadmission : reconcileAdmission rt inst session request with status | ⟨s, reconciliation⟩
  · rw [sessionReconcileEvidence, hadmission]
    refine Or.inl ⟨fun h : status = .ok => ?_, rfl⟩
    exact reconcileAdmission_ne_error_ok (h ▸ hadmission)
  · refine Or.inr ⟨s, reconciliation, rfl, ?_⟩
    rw [sessionReconcileEvidence, hadmission]
    dsimp only [Outcome.ofAdmission]
    cases hload : loadNonces (rt.resources s).mediation reconciliation.nonces with
    | none => exact Or.inl ⟨by simp, rfl⟩
    | some loaded => exact Or.inr ⟨loaded, rfl, rfl, rfl⟩

end PooFlow
