import PooFlow.Runtime.Queue
import PooFlow.Runtime.Resources

namespace PooFlow

open Foundation

/-- What the admission of a batch call has resolved: the two slots and the
arguments behind the two pointers. -/
structure BatchPlan (ρ ω : Type) where
  session : Fin maxResources
  arena : Fin maxResources
  request : ρ
  result : ω

def resolveArena (rt : Runtime) (instance_ arena : Handle) (arenaGeneration : ℕ) :
    Except Status (Fin maxResources) := do
  let a ← resolve rt instance_ arena .arena
  guardElse ((rt.resources a).arenaGeneration = arenaGeneration) .staleGeneration
  return a

variable {rt : Runtime} {inst session : Handle}

variable {arena : Handle} {arenaGeneration : ℕ} {request : Option PublishRequest}
  {result : Option PublishResult}

theorem resolveArena_eq_ok {instance_ : Handle} {a : Fin maxResources} :
    resolveArena rt instance_ arena arenaGeneration = .ok a ↔
      resolve rt instance_ arena .arena = .ok a ∧
        (rt.resources a).arenaGeneration = arenaGeneration := by
  simp only [resolveArena, bind_eq_ok, guardElse_eq_ok, exists_const, pure_eq_ok]
  constructor
  · rintro ⟨b, hres, hgen, rfl⟩
    exact ⟨hres, hgen⟩
  · rintro ⟨hres, hgen⟩
    exact ⟨a, hres, hgen, rfl⟩

structure PublishRequest where
  structSize : ℕ := sizeof .publishRequest
  reserved0 : ℕ := 0
  arena : Handle
  arenaGeneration : ℕ
  headers : Option (ℕ → EventHeader)
  headerStride : ℕ := sizeof .eventHeader
  itemCount : ℕ

structure PublishResult where
  structSize : ℕ := sizeof .publishResult
  reserved0 : ℕ := 0
  publishedCount : ℕ := 0
  lastSequence : ℕ := 0

def PublishRequest.items (request : PublishRequest) : List EventHeader :=
  viewHeaders request.headers request.itemCount

def publishAdmission (rt : Runtime) (instance_ session : Handle)
    (request : Option PublishRequest) (result : Option PublishResult) :
    Except Status (BatchPlan PublishRequest PublishResult) := do
  let s ← resolve rt instance_ session .session
  let request ← presentElse request .invalidArgument
  let result ← presentElse result .invalidArgument
  guardElse (request.structSize = sizeof .publishRequest ∧
      result.structSize = sizeof .publishResult ∧ request.reserved0 = 0 ∧
      result.reserved0 = 0 ∧ request.headerStride = sizeof .eventHeader ∧
      request.itemCount ≤ sizeMax / request.headerStride ∧
      (request.itemCount ≠ 0 → request.headers.isSome)) .malformedDescriptor
  let a ← resolveArena rt instance_ request.arena request.arenaGeneration
  let q := (rt.resources s).queue
  guardElse (request.itemCount ≤ q.capacity - q.pending.length) .outstandingWork
  checkPublish (rt.resources a).arenaCapacity q.lastSequence? request.items
  return { session := s, arena := a, request, result }

theorem publishAdmission_ok {plan : BatchPlan PublishRequest PublishResult}
    (h : publishAdmission rt inst session request result = .ok plan) :
    resolve rt inst session .session = .ok plan.session ∧ request = some plan.request ∧
      resolveArena rt inst plan.request.arena plan.request.arenaGeneration = .ok plan.arena ∧
      plan.request.itemCount ≤ (rt.resources plan.session).queue.capacity -
        (rt.resources plan.session).queue.pending.length ∧
      checkPublish (rt.resources plan.arena).arenaCapacity
        (rt.resources plan.session).queue.lastSequence? plan.request.items = .ok () := by
  simp only [publishAdmission, bind_eq_ok, guardElse_eq_ok, presentElse_eq_ok, exists_const,
    pure_eq_ok] at h
  obtain ⟨s, hsession, request, hrequest, result, hresult, _, a, harena, hroom, _, hcheck, rfl⟩ := h
  exact ⟨hsession, hrequest, harena, hroom, hcheck⟩

variable {headers : List EventHeader}

theorem checkPublish_ne_error_ok {arenaCapacity : ℕ} {previous : Option ℕ}
    : checkPublish arenaCapacity previous headers ≠ .error .ok := by
  induction headers generalizing previous with
  | nil => simp [checkPublish]
  | cons header rest ih => simp [checkPublish, bind_eq_error, ih]

theorem resolveArena_ne_error_ok : resolveArena rt inst arena arenaGeneration ≠ .error .ok := by
  simp [resolveArena, bind_eq_error, resolve_ne_error_ok]

theorem publishAdmission_ne_error_ok :
    publishAdmission rt inst session request result ≠ .error .ok := by
  simp [publishAdmission, bind_eq_error, resolve_ne_error_ok, resolveArena_ne_error_ok,
    checkPublish_ne_error_ok]

/-- The effect of a publication. With no items `last_sequence` is the sequence
already last in the queue. -/
def BatchPlan.publish (plan : BatchPlan PublishRequest PublishResult) (rt : Runtime) :
    Outcome PublishResult :=
  let published := (rt.resources plan.session).queue.publish plan.request.arena.resourceId
    plan.request.arenaGeneration plan.request.items
  .accepted (rt.modify plan.session (fun r => { r with queue := published }))
    { plan.result with
      publishedCount := plan.request.itemCount
      lastSequence := published.lastSequence?.getD 0 }

theorem BatchPlan.publish_runtime (plan : BatchPlan PublishRequest PublishResult) (rt : Runtime) :
    (plan.publish rt).runtime = rt.modify plan.session (fun r =>
      { r with
        queue := (rt.resources plan.session).queue.publish plan.request.arena.resourceId
          plan.request.arenaGeneration plan.request.items }) := rfl

def publishBatch (rt : Runtime) (instance_ session : Handle)
    (request : Option PublishRequest) (result : Option PublishResult) : Outcome PublishResult :=
  .ofAdmission rt (publishAdmission rt instance_ session request result) (·.publish rt)

structure PollRequest where
  structSize : ℕ := sizeof .pollRequest
  reserved0 : ℕ := 0
  arena : Handle
  arenaGeneration : ℕ
  hasHeaders : Bool := true
  headerStride : ℕ := sizeof .eventHeader
  headerCapacity : ℕ
  payloadCapacity : ℕ

/-- The poll result; `headers` is what was written to the request's buffer. -/
structure PollResult where
  structSize : ℕ := sizeof .pollResult
  reserved0 : ℕ := 0
  lease : Handle := nullHandle
  arenaGeneration : ℕ := 0
  producedCount : ℕ := 0
  requiredHeaderCount : ℕ := 0
  requiredPayloadBytes : ℕ := 0
  firstSequence : ℕ := 0
  lastSequence : ℕ := 0
  headers : List EventHeader := []

def pollAdmission (rt : Runtime) (instance_ session : Handle)
    (request : Option PollRequest) (result : Option PollResult) :
    Except Status (BatchPlan PollRequest PollResult) := do
  let s ← resolve rt instance_ session .session
  let request ← presentElse request .invalidArgument
  let result ← presentElse result .invalidArgument
  guardElse (request.structSize = sizeof .pollRequest ∧
      result.structSize = sizeof .pollResult ∧ request.reserved0 = 0 ∧
      result.reserved0 = 0 ∧ request.headerStride = sizeof .eventHeader ∧
      (request.headerCapacity ≠ 0 → request.hasHeaders)) .malformedDescriptor
  let a ← resolveArena rt instance_ request.arena request.arenaGeneration
  return { session := s, arena := a, request, result }

variable {request : Option PollRequest} {result : Option PollResult}

theorem pollAdmission_ok {plan : BatchPlan PollRequest PollResult}
    (h : pollAdmission rt inst session request result = .ok plan) :
    resolve rt inst session .session = .ok plan.session ∧ request = some plan.request ∧
      resolveArena rt inst plan.request.arena plan.request.arenaGeneration =
        .ok plan.arena := by
  simp only [pollAdmission, bind_eq_ok, guardElse_eq_ok, presentElse_eq_ok, exists_const,
    pure_eq_ok] at h
  obtain ⟨s, hsession, request, hrequest, result, hresult, _, a, harena, rfl⟩ := h
  exact ⟨hsession, hrequest, harena⟩

theorem pollAdmission_ne_error_ok : pollAdmission rt inst session request result ≠ .error .ok := by
  simp [pollAdmission, bind_eq_error, resolve_ne_error_ok, resolveArena_ne_error_ok]

namespace BatchPlan

variable (plan : BatchPlan PollRequest PollResult) (rt : Runtime)

def window : List PendingEvent :=
  (rt.resources plan.session).queue.window plan.request.arena.resourceId
    plan.request.arenaGeneration

def sized : PollResult :=
  { plan.result with
    lease := nullHandle
    arenaGeneration := plan.request.arenaGeneration
    producedCount := 0
    requiredHeaderCount := (plan.window rt).length
    requiredPayloadBytes := requiredPayload (plan.window rt)
    firstSequence := 0
    lastSequence := 0 }

/-- The buffers of the request hold the whole window. -/
def Fits : Prop :=
  (plan.window rt).length ≤ plan.request.headerCapacity ∧
    requiredPayload (plan.window rt) ≤ plan.request.payloadCapacity

instance : Decidable (plan.Fits rt) := inferInstanceAs (Decidable (_ ∧ _))

def firstSequence : ℕ := ((plan.window rt).head?.map PendingEvent.sequence).getD 0

def lastSequence : ℕ := ((plan.window rt).getLast?.map PendingEvent.sequence).getD 0

def leaseEntry (sessionId : ℕ) (entry : Resource) : Resource :=
  { entry with
    parentId := plan.request.arena.resourceId
    epoch := plan.request.arenaGeneration
    outstanding := sessionId
    sequence := (plan.window rt).length
    leaseFirstSequence := plan.firstSequence rt
    leaseLastSequence := plan.lastSequence rt }

/-- The table after the delivery of the window under the lease in slot `l`,
which has been allocated in `rt'`. -/
def deliver (sessionId : ℕ) (l : Fin maxResources) (rt' : Runtime) : Runtime :=
  ((rt'.modify l (plan.leaseEntry rt sessionId)).modify plan.session (fun r =>
      { r with queue := r.queue.poll plan.request.arena.resourceId
                 plan.request.arenaGeneration })).modify plan.arena (fun r =>
    { r with inflightCount := r.inflightCount + (plan.window rt).length })

def delivered (lease : Handle) : PollResult :=
  { plan.sized rt with
    lease := lease
    producedCount := (plan.window rt).length
    firstSequence := plan.firstSequence rt
    lastSequence := plan.lastSequence rt
    headers := (plan.window rt).map PendingEvent.header }

/-- The effect of a poll: it only announces the sizes when nothing is ready or
the buffers are too small. -/
def poll (instance_ session : Handle) : Outcome PollResult :=
  if plan.window rt = [] ∨ ¬plan.Fits rt then .accepted rt (plan.sized rt)
  else
    match allocateResource rt instance_.instanceId .lease with
    | .error status => { status, written := some (plan.sized rt), runtime := rt }
    | .ok (l, rt') =>
      .accepted (plan.deliver rt session.resourceId l rt') (plan.delivered rt (handleOf rt' l))

theorem deliver_apply {rt : Runtime} {instanceId sessionId : ℕ} {l : Fin maxResources}
    (hsession : plan.session ≠ l) (harena : plan.arena ≠ l) (i : Fin maxResources) :
    (plan.deliver rt sessionId l (rt.allocate l instanceId .lease)).resources i =
      if i = l then plan.leaseEntry rt sessionId ((rt.resources l).fresh instanceId .lease)
      else
        { rt.resources i with
          queue :=
            if i = plan.session then
              (rt.resources i).queue.poll plan.request.arena.resourceId
                plan.request.arenaGeneration
            else (rt.resources i).queue
          inflightCount :=
            if i = plan.arena then (rt.resources i).inflightCount + (plan.window rt).length
            else (rt.resources i).inflightCount } := by
  unfold BatchPlan.deliver
  simp only [Runtime.modify_apply, Runtime.allocate]
  by_cases hl : i = l
  · subst hl
    simp [hsession.symm, harena.symm]
  · by_cases hs : i = plan.session <;> by_cases ha : i = plan.arena <;> simp_all

end BatchPlan

def pollBatch (rt : Runtime) (instance_ session : Handle)
    (request : Option PollRequest) (result : Option PollResult) : Outcome PollResult :=
  .ofAdmission rt (pollAdmission rt instance_ session request result)
    (·.poll rt instance_ session)

/-- A delivery of `plan` under the lease in slot `l`. -/
structure Delivers (rt : Runtime) (inst session : Handle) (request : Option PollRequest)
    (plan : BatchPlan PollRequest PollResult) (l : Fin maxResources)
    (o : Outcome PollResult) : Prop where
  session_resolved : resolve rt inst session .session = .ok plan.session
  request_eq : request = some plan.request
  arena_resolved :
    resolveArena rt inst plan.request.arena plan.request.arenaGeneration = .ok plan.arena
  ready : plan.window rt ≠ []
  free : (rt.resources l).alive = false
  status_eq : o.status = .ok
  written_eq :
    o.written = some (plan.delivered rt (handleOf (rt.allocate l inst.instanceId .lease) l))
  runtime_eq : o.runtime =
    plan.deliver rt (slotId plan.session) l (rt.allocate l inst.instanceId .lease)

theorem pollBatch_cases (rt : Runtime) (inst session : Handle) (request : Option PollRequest)
    (result : Option PollResult) : ((pollBatch rt inst session request result).runtime = rt ∧
        ∀ r, (pollBatch rt inst session request result).written = some r →
          r.lease = nullHandle) ∨
      ∃ plan l, Delivers rt inst session request plan l
        (pollBatch rt inst session request result) := by
  rcases Outcome.ofAdmission_eq rt (pollAdmission rt inst session request result)
    (·.poll rt inst session) with ⟨status, _, heq⟩ | ⟨plan, hadmission, heq⟩
  · rw [pollBatch, heq]
    exact Or.inl ⟨rfl, fun r hr => by cases hr⟩
  · obtain ⟨hsession, hrequest, harena⟩ := pollAdmission_ok hadmission
    have hid := (resolve_eq_ok.1 hsession).2.2.1
    rw [pollBatch, heq]
    dsimp only [BatchPlan.poll]
    split
    · refine Or.inl ⟨rfl, fun r hr => ?_⟩
      cases hr
      rfl
    · next hready =>
      rw [not_or] at hready
      rcases halloc : allocateResource rt inst.instanceId .lease with status | ⟨l, rt'⟩
      · refine Or.inl ⟨rfl, fun r hr => ?_⟩
        cases hr
        rfl
      · obtain ⟨hfree, rfl⟩ := allocateResource_eq_ok.1 halloc
        exact Or.inr ⟨plan, l, hsession, hrequest, harena, hready.1, freeSlot_dead hfree,
          rfl, rfl, by rw [Outcome.accepted_runtime, hid]⟩

namespace Delivers

variable {rt : Runtime} {inst session : Handle} {request : Option PollRequest}
  {plan : BatchPlan PollRequest PollResult} {l : Fin maxResources} {o : Outcome PollResult}

section

variable (h : Delivers rt inst session request plan l o)

include h

theorem session_ne : plan.session ≠ l := by
  intro heq
  have halive := (resolve_eq_ok.1 h.session_resolved).2.2.2.2.2.1
  rw [heq, h.free] at halive
  cases halive

theorem arena_ne : plan.arena ≠ l := by
  intro heq
  have halive := (resolve_eq_ok.1 (resolveArena_eq_ok.1 h.arena_resolved).1).2.2.2.2.2.1
  rw [heq, h.free] at halive
  cases halive

/-- The table after a delivery. -/
theorem apply (i : Fin maxResources) : o.runtime.resources i =
      if i = l then
        plan.leaseEntry rt (slotId plan.session) ((rt.resources l).fresh inst.instanceId .lease)
      else
        { rt.resources i with
          queue :=
            if i = plan.session then
              (rt.resources i).queue.poll plan.request.arena.resourceId
                plan.request.arenaGeneration
            else (rt.resources i).queue
          inflightCount :=
            if i = plan.arena then (rt.resources i).inflightCount + (plan.window rt).length
            else (rt.resources i).inflightCount } := by
  rw [h.runtime_eq]
  exact plan.deliver_apply h.session_ne h.arena_ne i

end

end Delivers

structure SubmitRequest where
  structSize : ℕ := sizeof .submitRequest
  reserved0 : ℕ := 0
  arena : Handle
  arenaGeneration : ℕ
  headers : Option (ℕ → EventHeader)
  headerStride : ℕ := sizeof .eventHeader
  itemCount : ℕ
  hasItemStatuses : Bool := true
  itemStatusCapacity : ℕ
  hasAcceptedBitmap : Bool := true
  acceptedBitmapBytes : ℕ

structure SubmitResult where
  structSize : ℕ := sizeof .submitResult
  reserved0 : ℕ := 0
  acceptedCount : ℕ := 0
  rejectedCount : ℕ := 0
  acceptedWatermark : ℕ := 0
  itemStatuses : List Status := []
  acceptedBitmap : List UInt8 := []

def SubmitRequest.items (request : SubmitRequest) : List EventHeader :=
  viewHeaders request.headers request.itemCount

/-- The validation loop of `submit_batch`. -/
def checkSubmit (arenaCapacity : ℕ) : Option ℕ → List EventHeader → Except Status Unit
  | _, [] => .ok ()
  | previous, header :: rest => do
    guardElse ((∀ p, previous = some p → p < header.sequence) ∧
        header.layoutVersion = layoutVersion ∧ header.reserved0 = 0 ∧
        sliceInBounds header.payloadOffset header.payloadLength arenaCapacity)
      .malformedDescriptor
    checkSubmit arenaCapacity (some header.sequence) rest

def submitAdmission (rt : Runtime) (instance_ session : Handle)
    (request : Option SubmitRequest) (result : Option SubmitResult) :
    Except Status (BatchPlan SubmitRequest SubmitResult) := do
  let s ← resolve rt instance_ session .session
  let request ← presentElse request .invalidArgument
  let result ← presentElse result .invalidArgument
  guardElse (request.structSize = sizeof .submitRequest ∧
      result.structSize = sizeof .submitResult ∧ request.reserved0 = 0 ∧
      result.reserved0 = 0 ∧ request.headerStride = sizeof .eventHeader ∧
      request.itemCount ≤ sizeMax / request.headerStride ∧
      (request.itemCount ≠ 0 → request.headers.isSome) ∧
      request.itemCount ≤ request.itemStatusCapacity ∧
      (request.itemCount ≠ 0 → request.hasItemStatuses) ∧
      bitmapRequired request.itemCount ≤ request.acceptedBitmapBytes ∧
      (bitmapRequired request.itemCount ≠ 0 → request.hasAcceptedBitmap)) .malformedDescriptor
  let a ← resolveArena rt instance_ request.arena request.arenaGeneration
  checkSubmit (rt.resources a).arenaCapacity none request.items
  return { session := s, arena := a, request, result }

theorem checkSubmit_ne_error_ok {arenaCapacity : ℕ} {previous : Option ℕ}
    : checkSubmit arenaCapacity previous headers ≠ .error .ok := by
  induction headers generalizing previous with
  | nil => simp [checkSubmit]
  | cons header rest ih => simp [checkSubmit, bind_eq_error, ih]

variable {rt : Runtime} {inst session : Handle} {request : Option SubmitRequest}
  {result : Option SubmitResult}

theorem submitAdmission_ok {plan : BatchPlan SubmitRequest SubmitResult}
    (h : submitAdmission rt inst session request result = .ok plan) :
    resolve rt inst session .session = .ok plan.session ∧ request = some plan.request ∧
      resolveArena rt inst plan.request.arena plan.request.arenaGeneration = .ok plan.arena ∧
      checkSubmit (rt.resources plan.arena).arenaCapacity none plan.request.items = .ok () := by
  simp only [submitAdmission, bind_eq_ok, guardElse_eq_ok, presentElse_eq_ok, exists_const,
    pure_eq_ok] at h
  obtain ⟨s, hsession, request, hrequest, result, hresult, _, a, harena, _, hcheck, rfl⟩ := h
  exact ⟨hsession, hrequest, harena, hcheck⟩

theorem submitAdmission_ne_error_ok :
    submitAdmission rt inst session request result ≠ .error .ok := by
  simp [submitAdmission, bind_eq_error, resolve_ne_error_ok, resolveArena_ne_error_ok,
    checkSubmit_ne_error_ok]

namespace BatchPlan

variable (plan : BatchPlan SubmitRequest SubmitResult) (rt : Runtime)

def submission : SubmitProgress :=
  (rt.resources plan.session).queue.submit plan.request.arena.resourceId
    plan.request.arenaGeneration plan.request.items

end BatchPlan

/-- What `submit_batch` does to the session entry. -/
def Resource.submitted (pending : List PendingEvent) (r : Resource) : Resource :=
  { r with
    queue := { r.queue with pending := pending }
    sequence := watermark pending r.sequence }

def BatchPlan.submit (plan : BatchPlan SubmitRequest SubmitResult) (rt : Runtime) :
    Outcome SubmitResult :=
  let progress := plan.submission rt
  .accepted (rt.modify plan.session (Resource.submitted progress.pending))
    { plan.result with
      acceptedCount := progress.acceptedCount
      rejectedCount := progress.rejectedCount
      acceptedWatermark := watermark progress.pending (rt.resources plan.session).sequence
      itemStatuses := progress.statuses
      acceptedBitmap := progress.bitmap }

theorem BatchPlan.submit_runtime (plan : BatchPlan SubmitRequest SubmitResult) (rt : Runtime) :
    (plan.submit rt).runtime =
      rt.modify plan.session (Resource.submitted (plan.submission rt).pending) := rfl

def submitBatch (rt : Runtime) (instance_ session : Handle)
    (request : Option SubmitRequest) (result : Option SubmitResult) : Outcome SubmitResult :=
  .ofAdmission rt (submitAdmission rt instance_ session request result) (·.submit rt)

structure AckPlan where
  session : Fin maxResources
  lease : Fin maxResources
  arena : Fin maxResources
deriving DecidableEq

def ackAdmission (rt : Runtime) (instance_ session lease : Handle) : Except Status AckPlan := do
  let s ← resolve rt instance_ session .session
  let l ← resolve rt instance_ lease .lease
  guardElse ((rt.resources l).outstanding = session.resourceId) .wrongHandleKind
  let a ← presentElse (slot (rt.resources l).parentId) .staleHandle
  guardElse ((rt.resources a).alive = true ∧ (rt.resources a).kind = .arena) .staleHandle
  guardElse ((rt.resources l).sequence ≤ (rt.resources a).inflightCount) .internalInvariant
  return { session := s, lease := l, arena := a }

/-- What an acknowledgement has checked. -/
theorem ackAdmission_ok {rt : Runtime} {inst session lease : Handle} {plan : AckPlan}
    (h : ackAdmission rt inst session lease = .ok plan) :
    resolve rt inst session .session = .ok plan.session ∧
      resolve rt inst lease .lease = .ok plan.lease ∧
      (rt.resources plan.lease).outstanding = slotId plan.session ∧
      (rt.resources plan.lease).parentId = slotId plan.arena ∧
      (rt.resources plan.arena).alive = true ∧ (rt.resources plan.arena).kind = .arena ∧
      (rt.resources plan.lease).sequence ≤ (rt.resources plan.arena).inflightCount := by
  simp only [ackAdmission, bind_eq_ok, guardElse_eq_ok, presentElse_eq_ok, exists_const, pure_eq_ok,
    slot_eq_some] at h
  obtain ⟨s, hsession, l, hlease, hout, a, harena, ⟨halive, hkind⟩, hcount, rfl⟩ := h
  have hid := (resolve_eq_ok.1 hsession).2.2.1
  exact ⟨hsession, hlease, hout.trans hid, harena, halive, hkind, hcount⟩

def Resource.settleLease (lease : Resource) (arena : Resource) : Resource :=
  { arena with inflightCount := arena.inflightCount - lease.sequence }

def Resource.acknowledgeLease (lease : Resource) (session : Resource) : Resource :=
  { session with
    queue := session.queue.acknowledge lease.parentId lease.leaseFirstSequence
      lease.leaseLastSequence }

def AckPlan.acknowledge (plan : AckPlan) (rt : Runtime) : Outcome Unit :=
  let lease := rt.resources plan.lease
  .accepted
    (((rt.modify plan.arena lease.settleLease).modify plan.session
      lease.acknowledgeLease).modify plan.lease Resource.release)
    ()

theorem AckPlan.acknowledge_runtime (plan : AckPlan) (rt : Runtime) :
    (plan.acknowledge rt).runtime =
      ((rt.modify plan.arena (rt.resources plan.lease).settleLease).modify plan.session
        (rt.resources plan.lease).acknowledgeLease).modify plan.lease Resource.release := rfl

def batchAck (rt : Runtime) (instance_ session lease : Handle) : Outcome Unit :=
  .ofAdmission rt (ackAdmission rt instance_ session lease) (·.acknowledge rt)

end PooFlow
