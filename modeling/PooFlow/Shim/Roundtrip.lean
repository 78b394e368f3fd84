import PooFlow.Runtime.Mediation

/-! `poo_flow_python_runtime_v0_roundtrip` publishes a batch, polls it back, mediates the lease, and
acknowledges it, also when the mediation fails. -/

namespace PooFlow.Shim

open Foundation

variable {σ : Type}

/-- The fields of `poo_flow_python_runtime_v0_context` that a roundtrip reads. -/
structure Context where
  instance_ : Handle
  session : Handle
  arena : Handle
  arenaCapacity : ℕ
  arenaGeneration : ℕ
  arenaAlive : Bool

structure Mediation where
  durability : Durability
  outcome : MediationOutcome
  bundleEpoch : ℕ
  nonceHigh : UInt64
  nonceLow : UInt64
  semanticRoot : Digest
  beforeExecutionRoot : Digest
  inputDigest : Digest
  observationDigest : Digest

structure Reservation where
  mediationSequence : ℕ
  firstSequence : ℕ
  lastSequence : ℕ
  nonceHigh : UInt64
  nonceLow : UInt64
  semanticRoot : Digest
  beforeExecutionRoot : Digest

structure Invocation where
  outcome : MediationOutcome
  adapterStatus : Status
  mediationSequence : ℕ
  firstSequence : ℕ
  lastSequence : ℕ
  nonceHigh : UInt64
  nonceLow : UInt64
  semanticRoot : Digest
  beforeExecutionRoot : Digest
  inputDigest : Digest
  observationDigest : Digest

structure Finalized where
  verificationFlags : UInt32 := 0
  afterExecutionRoot : Digest := .zero
  evidenceDigest : Digest := .zero
  attestationDigest : Digest := .zero

structure FlushInvocation where
  firstMediationSequence : ℕ
  lastMediationSequence : ℕ
  leafDigests : List Digest
  leafCount : ℕ
  beforeExecutionRoot : Digest

structure Flushed where
  verificationFlags : UInt32 := 0
  afterExecutionRoot : Digest := .zero
  batchRoot : Digest := .zero
  evidenceDigest : Digest := .zero
  attestationDigest : Digest := .zero

/-- `poo_flow_python_runtime_v0_evidence_context`; `memory` is whether the copy
of the leaf digests can be allocated. -/
structure EvidenceContext (σ : Type) where
  reserve : Reservation → σ → Status × σ
  finalize : Invocation → σ → (Status × Finalized) × σ
  flush : Option (FlushInvocation → σ → (Status × Flushed) × σ)
  memory : Bool := true

def evidenceReserve (context : EvidenceContext σ) (reservation : EvidenceReservation)
    (world : σ) : Status × σ :=
  context.reserve
    { mediationSequence := reservation.mediationSequence
      firstSequence := reservation.firstSequence
      lastSequence := reservation.lastSequence
      nonceHigh := reservation.nonce.high
      nonceLow := reservation.nonce.low
      semanticRoot := reservation.semanticRoot
      beforeExecutionRoot := reservation.beforeExecutionRoot }
    world

/-- `python_runtime_evidence_finalize`: the result is written on success only. -/
def evidenceFinalize (context : EvidenceContext σ) (invocation : EvidenceInvocation)
    (world : σ) : (Status × EvidenceResult) × σ :=
  let committed := context.finalize
    { outcome := invocation.outcome
      adapterStatus := invocation.adapterStatus
      mediationSequence := invocation.mediationSequence
      firstSequence := invocation.firstSequence
      lastSequence := invocation.lastSequence
      nonceHigh := invocation.nonce.high
      nonceLow := invocation.nonce.low
      semanticRoot := invocation.semanticRoot
      beforeExecutionRoot := invocation.beforeExecutionRoot
      inputDigest := invocation.inputDigest
      observationDigest := invocation.observationDigest }
    world
  let result : EvidenceResult :=
    if committed.1.1 ≠ .ok then {}
    else
      { verificationFlags := committed.1.2.verificationFlags
        afterExecutionRoot := committed.1.2.afterExecutionRoot
        evidenceDigest := committed.1.2.evidenceDigest
        attestationDigest := committed.1.2.attestationDigest }
  ((committed.1.1, result), committed.2)

def evidenceFlush (context : EvidenceContext σ) (invocation : PooFlow.FlushInvocation)
    (world : σ) : (Status × FlushResult) × σ :=
  match context.flush with
  | none => ((.malformedDescriptor, {}), world)
  | some flush =>
    -- the digests are copied to memory of their own
    if sizeMax / 32 < invocation.leafCount then ((.malformedDescriptor, {}), world)
    else if context.memory = false then ((.allocationFailure, {}), world)
    else
      let committed := flush
        { firstMediationSequence := invocation.firstMediationSequence
          lastMediationSequence := invocation.lastMediationSequence
          leafDigests := invocation.leafDigests
          leafCount := invocation.leafCount
          beforeExecutionRoot := invocation.beforeExecutionRoot }
        world
      let result : FlushResult :=
        if committed.1.1 ≠ .ok then {}
        else
          { verificationFlags := committed.1.2.verificationFlags
            afterExecutionRoot := committed.1.2.afterExecutionRoot
            batchRoot := committed.1.2.batchRoot
            evidenceDigest := committed.1.2.evidenceDigest
            attestationDigest := committed.1.2.attestationDigest }
      ((committed.1.1, result), committed.2)

/-- `python_runtime_adapter_execute`. What it copies from the submission to the
result of the roundtrip is read from the submission there. -/
def adapterExecute (context : Context) (request : SubmitRequest) (mediation : Mediation)
    (invocation : AdapterInvocation) : AdapterProgram :=
  if invocation.structSize ≠ sizeof .adapterInvocation then .done .malformedDescriptor {}
  else
    .submit context.instance_ context.session (some request) (some {}) fun status _ =>
      if status ≠ .ok then .done status {}
      else
        .done .ok
          { outcome := mediation.outcome
            adapterStatus := .ok
            inputDigest := mediation.inputDigest
            observationDigest := mediation.observationDigest }

structure Roundtrip (σ : Type) where
  events : Option (ℕ → EventHeader)
  eventCount : ℕ
  hasItemStatuses : Bool := true
  itemStatusCapacity : ℕ
  hasAcceptedBitmap : Bool := true
  acceptedBitmapBytes : ℕ
  mediation : Option Mediation
  evidenceReserve : Option (Reservation → σ → Status × σ)
  evidenceFinalize : Option (Invocation → σ → (Status × Finalized) × σ)
  evidenceFlush : Option (FlushInvocation → σ → (Status × Flushed) × σ) := none
  memory : Bool := true
  hasResult : Bool := true

structure Arguments (σ : Type) where
  context : Context
  events : ℕ → EventHeader
  eventCount : ℕ
  hasItemStatuses : Bool
  itemStatusCapacity : ℕ
  hasAcceptedBitmap : Bool
  acceptedBitmapBytes : ℕ
  mediation : Mediation
  evidence : EvidenceContext σ

def Roundtrip.arguments (context : Option Context) (r : Roundtrip σ) :
    Except Status (Arguments σ) := do
  let context ← presentElse context .invalidArgument
  guardElse (context.arenaAlive = true) .invalidArgument
  let events ← presentElse r.events .invalidArgument
  let mediation ← presentElse r.mediation .invalidArgument
  let reserve ← presentElse r.evidenceReserve .invalidArgument
  let finalize ← presentElse r.evidenceFinalize .invalidArgument
  guardElse (r.hasResult = true) .invalidArgument
  return {
    context
    events
    eventCount := r.eventCount
    hasItemStatuses := r.hasItemStatuses
    itemStatusCapacity := r.itemStatusCapacity
    hasAcceptedBitmap := r.hasAcceptedBitmap
    acceptedBitmapBytes := r.acceptedBitmapBytes
    mediation
    evidence := { reserve, finalize, flush := r.evidenceFlush, memory := r.memory } }

/-- `poo_flow_python_runtime_v0_batch_result`, zeroed at the start. -/
structure BatchResult where
  publishedCount : ℕ := 0
  producedCount : ℕ := 0
  acceptedCount : ℕ := 0
  rejectedCount : ℕ := 0
  acceptedWatermark : ℕ := 0
  mediationOutcome : MediationOutcome := .unset
  adapterStatus : Status := .ok
  evidenceStatus : Status := .ok
  verificationFlags : UInt32 := 0
  mediationSequence : ℕ := 0
  executionRoot : Digest := .zero
  observationDigest : Digest := .zero
  evidenceDigest : Digest := .zero
  attestationDigest : Digest := .zero

/-- What a roundtrip leaves behind: what it returns and writes through its
pointers, table and world, and whether the adapter was executed. -/
structure Answer (σ : Type) where
  status : Status
  result : Option BatchResult := none
  events : List EventHeader := []
  itemStatuses : List Status := []
  acceptedBitmap : List UInt8 := []
  runtime : Runtime
  world : σ
  executed : Bool := false

namespace Arguments

variable (p : Arguments σ)

def publishRequest : PublishRequest where
  arena := p.context.arena
  arenaGeneration := p.context.arenaGeneration
  headers := some p.events
  itemCount := p.eventCount

def pollRequest : PollRequest where
  arena := p.context.arena
  arenaGeneration := p.context.arenaGeneration
  headerCapacity := p.eventCount
  payloadCapacity := p.context.arenaCapacity

def polledEvents (polled : PollResult) (i : ℕ) : EventHeader :=
  (polled.headers[i]?).getD (p.events i)

def submitRequest (polled : PollResult) : SubmitRequest where
  arena := p.context.arena
  arenaGeneration := p.context.arenaGeneration
  headers := some (p.polledEvents polled)
  itemCount := p.eventCount
  hasItemStatuses := p.hasItemStatuses
  itemStatusCapacity := p.itemStatusCapacity
  hasAcceptedBitmap := p.hasAcceptedBitmap
  acceptedBitmapBytes := p.acceptedBitmapBytes

def mediationRequest (polled : PollResult) : StrictMediationRequest σ where
  durability := p.mediation.durability
  arena := p.context.arena
  lease := polled.lease
  arenaGeneration := p.context.arenaGeneration
  bundleEpoch := p.mediation.bundleEpoch
  firstSequence := polled.firstSequence
  lastSequence := polled.lastSequence
  nonce := { high := p.mediation.nonceHigh, low := p.mediation.nonceLow }
  semanticRoot := p.mediation.semanticRoot
  beforeExecutionRoot := p.mediation.beforeExecutionRoot
  adapter := some
    { execute := some (adapterExecute p.context (p.submitRequest polled) p.mediation) }
  evidence := some
    { reserve := some (evidenceReserve p.evidence)
      finalize := some (evidenceFinalize p.evidence)
      flush := some (evidenceFlush p.evidence) }

def publish (rt : Runtime) : Outcome PublishResult :=
  publishBatch rt p.context.instance_ p.context.session (some p.publishRequest) (some {})

def poll (rt : Runtime) : Outcome PollResult :=
  pollBatch rt p.context.instance_ p.context.session (some p.pollRequest) (some {})

def mediate (polled : PollResult) (rt : Runtime) (world : σ) : Mediated σ :=
  strictMediate rt world p.context.instance_ p.context.session
    (some (p.mediationRequest polled)) (some {})

def acknowledge (polled : PollResult) (rt : Runtime) : Outcome Unit :=
  batchAck rt p.context.instance_ p.context.session polled.lease

def stopped (status : Status) (result : BatchResult) (rt : Runtime) (world : σ) : Answer σ where
  status
  result := some result
  runtime := rt
  world

def conclude (polled : PollResult) (result : BatchResult) (rt : Runtime) (world : σ) : Answer σ :=
  let mediated := p.mediate polled rt world
  let acknowledged := p.acknowledge polled mediated.runtime
  -- the adapter submits once at most, and its copy is zero unless that succeeds
  let submitted := (mediated.submissions.head?.bind fun submission =>
    if submission.status = .ok then submission.written else none).getD {}
  let result :=
    { result with
      acceptedCount := submitted.acceptedCount
      rejectedCount := submitted.rejectedCount
      acceptedWatermark := submitted.acceptedWatermark }
  let written := mediated.written.getD {}
  -- the acknowledgement is made in any case; its status counts after a success only
  { status := if mediated.status ≠ .ok then mediated.status else acknowledged.status
    result := some <|
      if mediated.status ≠ .ok then result
      else
        { result with
          mediationSequence := written.mediationSequence
          mediationOutcome := written.outcome
          adapterStatus := written.adapterStatus
          evidenceStatus := written.evidenceStatus
          verificationFlags := written.verificationFlags
          executionRoot := written.executionRoot
          observationDigest := written.observationDigest
          evidenceDigest := written.evidenceDigest
          attestationDigest := written.attestationDigest }
    events := polled.headers
    itemStatuses := submitted.itemStatuses
    acceptedBitmap := submitted.acceptedBitmap
    runtime := acknowledged.runtime
    world := mediated.world
    executed := mediated.invocation.isSome }

def roundtrip (rt : Runtime) (world : σ) : Answer σ :=
  let published := p.publish rt
  if published.status ≠ .ok then stopped published.status {} published.runtime world
  else
    let result : BatchResult := { publishedCount := (published.written.getD {}).publishedCount }
    let polling := p.poll published.runtime
    let polled := polling.written.getD {}
    if polling.status ≠ .ok then stopped polling.status result polling.runtime world
    else
      let result := { result with producedCount := polled.producedCount }
      if polled.producedCount ≠ p.eventCount then
        { stopped .internalInvariant result polling.runtime world with events := polled.headers }
      else p.conclude polled result polling.runtime world

end Arguments

def roundtrip (context : Option Context) (r : Roundtrip σ) (rt : Runtime) (world : σ) : Answer σ :=
  match r.arguments context with
  | .error status => { status, runtime := rt, world }
  | .ok p => p.roundtrip rt world

end PooFlow.Shim
