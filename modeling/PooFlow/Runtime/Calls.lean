import PooFlow.Foundation.Run
import PooFlow.Runtime.Mediation

/-! Every API function is a constructor of `Call`; a run is a list of calls over the table and the
world of the callbacks. The history beside the table is computed from calls and answers only. -/

namespace PooFlow

open Foundation

variable {σ : Type}

/-- A call of the API with its arguments; `hasOut` is false for a null output
pointer, `memory` is false when the C allocator fails. -/
inductive Call (σ : Type) where
  | instanceCreate (hasOut : Bool)
  | instanceRelease (instance_ : Handle)
  | negotiate (instance_ : Handle) (request : Option NegotiateRequest)
      (result : Option NegotiateResult)
  | profileRelease (instance_ profile : Handle)
  | bundleOpen (instance_ profile : Handle) (descriptor : Option BundleDescriptor)
      (hasOut : Bool)
  | bundleRelease (instance_ bundle : Handle)
  | sessionOpen (instance_ bundle : Handle) (descriptor : Option SessionDescriptor)
      (hasOut memory : Bool)
  | sessionCancel (instance_ session : Handle)
  | sessionReconcileEvidence (instance_ session : Handle)
      (reconciliation : Option EvidenceReconciliation)
  | sessionClose (instance_ session : Handle) (disposition : ℕ)
  | sessionRelease (instance_ session : Handle)
  | sessionCheckpoint (instance_ session : Handle) (hasOut memory : Bool)
  | sessionRestore (instance_ bundle : Handle) (checkpoint : Option (List UInt8))
      (hasOut memory : Bool)
  | arenaRegister (instance_ : Handle) (descriptor : Option ArenaDescriptor) (hasOut : Bool)
  | arenaRelease (instance_ arena : Handle)
  | arenaRecycle (instance_ arena : Handle) (expectedGeneration nextGeneration : ℕ)
  | publishBatch (instance_ session : Handle) (request : Option PublishRequest)
      (result : Option PublishResult)
  | pollBatch (instance_ session : Handle) (request : Option PollRequest)
      (result : Option PollResult)
  | submitBatch (instance_ session : Handle) (request : Option SubmitRequest)
      (result : Option SubmitResult)
  | batchAck (instance_ session lease : Handle)
  | strictMediate (instance_ session : Handle) (request : Option (StrictMediationRequest σ))
      (result : Option StrictMediationResult)
  | batchedFlush (instance_ session : Handle) (request : Option (BatchedFlushRequest σ))
      (result : Option BatchedFlushResult)
  | ownedBytesRelease (instance_ : Handle) (value : Option OwnedBytes)
  | errorMessage (instance_ : Handle) (status : Status) (hasOut memory : Bool)

structure Answer (σ : Type) where
  status : Status
  runtime : Runtime
  world : σ
  /-- the handle of a new allocation, when one was written out -/
  issued : Option Handle := none

def Answer.of {ρ : Type} (world : σ) (issued : ρ → Option Handle) (o : Outcome ρ) : Answer σ :=
  { status := o.status, runtime := o.runtime, world, issued := o.written.bind issued }

def nonNull (h : Handle) : Option Handle := if h = nullHandle then none else some h

def Call.answer (rt : Runtime) (world : σ) : Call σ → Answer σ
  | .instanceCreate hasOut => .of world some (PooFlow.instanceCreate rt hasOut)
  | .instanceRelease inst => .of world (fun _ => none) (PooFlow.instanceRelease rt inst)
  | .negotiate inst request result =>
    .of world (fun r => some r.profile) (PooFlow.negotiate rt inst request result)
  | .profileRelease inst profile =>
    .of world (fun _ => none) (PooFlow.profileRelease rt inst profile)
  | .bundleOpen inst profile descriptor hasOut =>
    .of world some (PooFlow.bundleOpen rt inst profile descriptor hasOut)
  | .bundleRelease inst bundle =>
    .of world (fun _ => none) (PooFlow.bundleRelease rt inst bundle)
  | .sessionOpen inst bundle descriptor hasOut memory =>
    .of world some (PooFlow.sessionOpen rt inst bundle descriptor hasOut memory)
  | .sessionCancel inst session =>
    .of world (fun _ => none) (PooFlow.sessionCancel rt inst session)
  | .sessionReconcileEvidence inst session reconciliation =>
    .of world (fun _ => none)
      (PooFlow.sessionReconcileEvidence rt inst session reconciliation)
  | .sessionClose inst session disposition =>
    .of world (fun _ => none) (PooFlow.sessionClose rt inst session disposition)
  | .sessionRelease inst session =>
    .of world (fun _ => none) (PooFlow.sessionRelease rt inst session)
  | .sessionCheckpoint inst session hasOut memory =>
    .of world (fun r => some r.owner)
      (PooFlow.sessionCheckpoint rt inst session hasOut memory)
  | .sessionRestore inst bundle checkpoint hasOut memory =>
    .of world some (PooFlow.sessionRestore rt inst bundle checkpoint hasOut memory)
  | .arenaRegister inst descriptor hasOut =>
    .of world some (PooFlow.arenaRegister rt inst descriptor hasOut)
  | .arenaRelease inst arena =>
    .of world (fun _ => none) (PooFlow.arenaRelease rt inst arena)
  | .arenaRecycle inst arena expected next =>
    .of world (fun _ => none) (PooFlow.arenaRecycle rt inst arena expected next)
  | .publishBatch inst session request result =>
    .of world (fun _ => none) (PooFlow.publishBatch rt inst session request result)
  | .pollBatch inst session request result =>
    .of world (fun r => nonNull r.lease) (PooFlow.pollBatch rt inst session request result)
  | .submitBatch inst session request result =>
    .of world (fun _ => none) (PooFlow.submitBatch rt inst session request result)
  | .batchAck inst session lease =>
    .of world (fun _ => none) (PooFlow.batchAck rt inst session lease)
  | .strictMediate inst session request result =>
    let m := PooFlow.strictMediate rt world inst session request result
    { status := m.status, runtime := m.runtime, world := m.world }
  | .batchedFlush inst session request result =>
    let f := PooFlow.batchedFlush rt world inst session request result
    { status := f.status, runtime := f.runtime, world := f.world }
  | .ownedBytesRelease inst value =>
    .of world (fun _ => none) (PooFlow.ownedBytesRelease rt inst value)
  | .errorMessage inst status hasOut memory =>
    .of world (fun r => some r.owner) (PooFlow.errorMessage rt inst status hasOut memory)

def Call.handles : Call σ → List Handle
  | .instanceCreate _ => []
  | .instanceRelease inst | .negotiate inst _ _ | .arenaRegister inst _ _
  | .errorMessage inst _ _ _ => [inst]
  | .profileRelease inst h | .bundleOpen inst h _ _ | .bundleRelease inst h
  | .sessionOpen inst h _ _ _ | .sessionCancel inst h | .sessionReconcileEvidence inst h _
  | .sessionClose inst h _ | .sessionRelease inst h | .sessionCheckpoint inst h _ _
  | .sessionRestore inst h _ _ _ | .arenaRelease inst h | .arenaRecycle inst h _ _
  | .batchedFlush inst h _ _ => [inst, h]
  | .publishBatch inst h request _ =>
    [inst, h] ++ (request.map PublishRequest.arena).toList
  | .pollBatch inst h request _ => [inst, h] ++ (request.map PollRequest.arena).toList
  | .submitBatch inst h request _ => [inst, h] ++ (request.map SubmitRequest.arena).toList
  | .batchAck inst h lease => [inst, h, lease]
  | .strictMediate inst h request _ =>
    [inst, h] ++ (request.elim [] fun r => [r.arena, r.lease])
  | .ownedBytesRelease inst value => [inst] ++ (value.map OwnedBytes.owner).toList

def Call.IsReconciliation : Call σ → Prop
  | .sessionReconcileEvidence .. => True
  | _ => False

/-- The allocations between which a poll creates a lease: slot and serial
number of session and arena. -/
structure LeaseOrigin where
  session : Fin maxResources
  sessionSerial : ℕ
  arena : Fin maxResources
  arenaSerial : ℕ
deriving DecidableEq

structure Life where
  /-- how many allocations the slot has seen -/
  serial : ℕ := 0
  /-- sequences published to the session, in order -/
  published : List ℕ := []
  /-- sequences that got item status OK, in order -/
  accepted : List ℕ := []
  /-- nonces loaded by a reconciliation -/
  restored : List CompactId := []
  /-- nonces for which the adapter was executed -/
  executed : List CompactId := []
  /-- root presented and root written, for every write of the execution root -/
  roots : List (Digest × Digest) := []
  /-- leaves staged by mediations since the last flush, with the root presented -/
  staged : List (StagedLeaf × Digest) := []
  /-- for a lease, where it comes from -/
  origin : Option LeaseOrigin := none
deriving DecidableEq

structure Tracked (σ : Type) where
  runtime : Runtime
  world : σ
  life : Fin maxResources → Life := fun _ => {}
  /-- the handles written out so far -/
  issued : List Handle := []

def Tracked.initial (world : σ) : Tracked σ := { runtime := .initial, world }

def Submission.accepted (s : Submission) : List ℕ :=
  acceptedOf (s.request.elim [] SubmitRequest.items) (s.written.elim [] SubmitResult.itemStatuses)

namespace Life

variable (i : Fin maxResources)

/-- A new allocation starts a new life; only an allocation changes the
generation of a slot. -/
def carry (before after : Resource) (life : Life) : Life :=
  if after.generation = before.generation then life else { serial := life.serial + 1 }

def logPublication (session : Handle) (request : Option PublishRequest)
    (o : Outcome PublishResult) (life : Life) : Life :=
  if o.status = .ok ∧ session.resourceId = slotId i then
    { life with
      published := life.published ++
        (request.elim [] PublishRequest.items).map EventHeader.sequence }
  else life

def logSubmission (life : Life) (s : Submission) : Life :=
  if s.status = .ok ∧ s.session.resourceId = slotId i then
    { life with accepted := life.accepted ++ s.accepted }
  else life

def logPoll (lives : Fin maxResources → Life) (session : Handle) (request : Option PollRequest)
    (o : Outcome PollResult) (life : Life) : Life :=
  if o.status = .ok ∧ (o.written.map fun r => r.lease.resourceId) = some (slotId i) then
    { life with
      origin := do
        let s ← slot session.resourceId
        let a ← (request.map fun r => r.arena.resourceId).bind slot
        return {
          session := s
          sessionSerial := (lives s).serial
          arena := a
          arenaSerial := (lives a).serial } }
  else life

def settle (request : StrictMediationRequest σ) (written : StrictMediationResult)
    (life : Life) : Life :=
  { life with
    executed := life.executed ++ [request.nonce]
    roots :=
      if written.outcome = .committed then
        life.roots ++ [(request.beforeExecutionRoot, written.executionRoot)]
      else life.roots
    staged :=
      if written.outcome = .buffered then
        life.staged ++
          [(⟨written.mediationSequence, written.evidenceDigest⟩, request.beforeExecutionRoot)]
      else life.staged }

def logMediation (session : Handle) (request : Option (StrictMediationRequest σ))
    (m : Mediated σ) (life : Life) : Life :=
  let life := m.submissions.foldl (logSubmission i) life
  if m.invocation.isSome ∧ session.resourceId = slotId i then
    match request, m.written with
    | some request, some written => life.settle request written
    | _, _ => life
  else life

def logFlush (session : Handle) (request : Option (BatchedFlushRequest σ)) (f : Flushed σ)
    (life : Life) : Life :=
  if f.status = .ok ∧ session.resourceId = slotId i then
    match request, f.written with
    | some request, some written =>
      { life with
        roots := life.roots ++ [(request.expectedExecutionRoot, written.executionRoot)]
        staged := [] }
    | _, _ => life
  else life

def logReconciliation (session : Handle) (reconciliation : Option EvidenceReconciliation)
    (o : Outcome Unit) (life : Life) : Life :=
  if o.status = .ok ∧ session.resourceId = slotId i then
    match reconciliation with
    | some reconciliation =>
      { life with
        restored := life.restored ++ reconciliation.nonces
        roots := life.roots ++ [(.zero, reconciliation.executionRoot)] }
    | none => life
  else life

end Life

/-- What a call adds to the history of slot `i`. -/
def Call.log (t : Tracked σ) (i : Fin maxResources) (life : Life) : Call σ → Life
  | .publishBatch inst session request result =>
    life.logPublication i session request (PooFlow.publishBatch t.runtime inst session request result)
  | .pollBatch inst session request result =>
    life.logPoll i t.life session request (PooFlow.pollBatch t.runtime inst session request result)
  | .submitBatch inst session request result =>
    let o := PooFlow.submitBatch t.runtime inst session request result
    life.logSubmission i { session, request, status := o.status, written := o.written }
  | .strictMediate inst session request result =>
    life.logMediation i session request
      (PooFlow.strictMediate t.runtime t.world inst session request result)
  | .batchedFlush inst session request result =>
    life.logFlush i session request
      (PooFlow.batchedFlush t.runtime t.world inst session request result)
  | .sessionReconcileEvidence inst session reconciliation =>
    life.logReconciliation i session reconciliation
      (PooFlow.sessionReconcileEvidence t.runtime inst session reconciliation)
  | _ => life

def step (t : Tracked σ) (c : Call σ) : Tracked σ :=
  let answer := c.answer t.runtime t.world
  { runtime := answer.runtime
    world := answer.world
    life := fun i =>
      c.log t i ((t.life i).carry (t.runtime.resources i) (answer.runtime.resources i))
    issued := t.issued ++ answer.issued.toList }

/-- One instance with one session and one arena, as the batch harness sets them
up. The handles are the ones the runtime issues from its initial state. -/
structure Installation where
  instance_ : Handle := ⟨1, 1, 1, .instance_⟩
  profile : Handle := ⟨1, 2, 1, .profile⟩
  bundle : Handle := ⟨1, 3, 1, .bundle⟩
  session : Handle := ⟨1, 4, 1, .session⟩
  arena : Handle := ⟨1, 5, 1, .arena⟩
  arenaGeneration : ℕ := 1

namespace Installation

variable (it : Installation)

def setUp : List (Call σ) :=
  [.instanceCreate true, .negotiate it.instance_
      (some { bundleSchema := some (textBytes bundleSchema), requiredCapabilities := 0x7f })
      (some {}),
    .bundleOpen it.instance_ it.profile
      (some {
        digest := .filled 1
        bundleEpoch := 7
        schema := some (textBytes bundleSchema)
        canonicalPacket := some [1] })
      true,
    .sessionOpen it.instance_ it.bundle (some {}) true true,
    .arenaRegister it.instance_
      (some { ptr := 64, capacity := 128, generation := it.arenaGeneration }) true]

def header (sequence : ℕ) : EventHeader where
  layoutVersion := layoutVersion
  sequence := sequence
  payloadLength := 8

/-- Publish `count` events with consecutive sequences. -/
def publish (first count : ℕ) : Call σ :=
  .publishBatch it.instance_ it.session
    (some {
      arena := it.arena
      arenaGeneration := it.arenaGeneration
      headers := some fun i => header (first + i)
      itemCount := count })
    (some {})

def poll : Call σ :=
  .pollBatch it.instance_ it.session
    (some {
      arena := it.arena
      arenaGeneration := it.arenaGeneration
      headerCapacity := 8
      payloadCapacity := 128 })
    (some {})

def submit (first count : ℕ) : Call σ :=
  .submitBatch it.instance_ it.session
    (some {
      arena := it.arena
      arenaGeneration := it.arenaGeneration
      headers := some fun i => header (first + i)
      itemCount := count
      itemStatusCapacity := 8
      acceptedBitmapBytes := 1 })
    (some {})

/-- The lease that the next poll of a fresh installation issues is in slot six;
`generation` counts its reuses. -/
def lease (generation : ℕ) : Handle := ⟨1, 6, generation, .lease⟩

def ack (lease : Handle) : Call σ := .batchAck it.instance_ it.session lease

/-- An evidence sink that answers every callback with the root `after`. -/
def sink (after : Digest) : EvidenceVtable σ where
  reserve := some fun _ world => (.ok, world)
  finalize := some fun _ world => ((.ok, { afterExecutionRoot := after }), world)
  flush := some fun _ world => ((.ok, { afterExecutionRoot := after }), world)

/-- Mediate the one event `sequence` of a lease; the adapter commits. -/
def mediate (lease : Handle) (durability : Durability) (nonce : UInt64) (sequence : ℕ)
    (before after : Digest) : Call σ :=
  .strictMediate it.instance_ it.session
    (some {
      durability := durability
      arena := it.arena
      lease := lease
      arenaGeneration := it.arenaGeneration
      bundleEpoch := 7
      firstSequence := sequence
      lastSequence := sequence
      nonce := { low := nonce }
      semanticRoot := .filled 9
      beforeExecutionRoot := before
      adapter := some { execute := some fun _ => .done .ok { outcome := .committed } }
      evidence := some (sink after) })
    (some {})

def flush (expected after : Digest) : Call σ :=
  .batchedFlush it.instance_ it.session
    (some { evidence := some (sink after), expectedExecutionRoot := expected }) (some {})

def reconcile (root : Digest) : Call σ :=
  .sessionReconcileEvidence it.instance_ it.session
    (some {
      mediationSequence := 0
      runtimeSequence := 0
      consumedNonces := none
      consumedNonceCount := 0
      stagedMediationSequences := none
      stagedLeafDigests := none
      stagedLeafDigestStride := 0
      stagedLeafCount := 0
      semanticRoot := .filled 9
      executionRoot := root })

end Installation

end PooFlow
