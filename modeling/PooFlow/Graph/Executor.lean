import PooFlow.Foundation.Generator
import PooFlow.Graph.Types

/-! `_runtime_graph_context.py` and the synchronous half of `_runtime_graph_executor.py`; the source
writes the loop as a generator of events. -/

namespace PooFlow

open Foundation Generated

structure GraphRunContext (W V : Type) where
  state : RuntimeState V
  pending : List (PendingItem V)
  trace : List String
  events : List (RuntimeGraphEvent V)
  step : ℕ
  world : W

inductive Halt (W V : Type) where
  | failed (error : GraphError) (world : W)
  | interrupted (interrupted : RuntimeGraphInterrupted V) (world : W)

/-- The halt as it leaves a generator or a coroutine, which let no `StopIteration` out. -/
def Halt.leaving {W V : Type} (frame : String) : Halt W V → Halt W V
  | .failed .stopIteration world =>
    .failed (.runtimeError s!"{frame} raised StopIteration") world
  | halt => halt

theorem mapError_leaving_interrupted {W V α : Type} {frame : String} {x : Except (Halt W V) α}
    {interrupted : RuntimeGraphInterrupted V} {world : W} :
    x.mapError (Halt.leaving frame) = .error (.interrupted interrupted world) ↔
      x = .error (.interrupted interrupted world) := by
  rcases x with (⟨_ | _, _⟩ | _) | _ <;> simp [Except.mapError, Halt.leaving]

namespace GraphRunContext

variable {W V : Type}

def perform {α : Type} (context : GraphRunContext W V) (call : Effect W α) :
    Except (Halt W V) (α × GraphRunContext W V) :=
  match call.run.run context.world with
  | (.ok answer, world) => .ok (answer, { context with world })
  | (.error error, world) => .error (.failed error world)

def advanceStep (context : GraphRunContext W V) (stepLimit : ℤ) :
    Except (Halt W V) (GraphRunContext W V) :=
  if (context.step + 1 : ℤ) > stepLimit then
    .error (.failed (.runtimeGraph "runtime graph step limit exceeded") context.world)
  else .ok { context with step := context.step + 1 }

def publish (context : GraphRunContext W V) (event : RuntimeGraphEvent V) : GraphRunContext W V :=
  { context with events := context.events ++ [event] }

def recordTrace [RuntimeValue V] (context : GraphRunContext W V) :
    Option String → GraphRunContext W V
  | none => context
  | some key =>
    { context with state := context.state.insert key (RuntimeValue.ofTrace context.trace) }

def fromInterrupted (interrupted : RuntimeGraphInterrupted V) (world : W) :
    GraphRunContext W V where
  state := interrupted.state
  pending := interrupted.pending
  trace := interrupted.trace
  events := interrupted.events
  step := interrupted.step
  world := world

section

variable {α : Type} {context context' : GraphRunContext W V}

theorem perform_frame {call : Effect W α} {r : α × GraphRunContext W V}
    (h : context.perform call = .ok r) : r.2 = { context with world := r.2.world } := by
  unfold perform at h
  split at h
  · cases h
    rfl
  · cases h

theorem perform_bind {β : Type} (x : Effect W α) (f : α → Effect W β) :
    context.perform (x >>= f) = context.perform x >>= fun r => r.2.perform (f r.1) := by
  rw [perform, perform, Effect.run_bind]
  rcases x.run.run context.world with ⟨_ | _, _⟩ <;> rfl

@[simp] theorem perform_pure (a : α) : context.perform (pure a) = .ok (a, context) := rfl

theorem advanceStep_eq_ok {stepLimit : ℤ} : context.advanceStep stepLimit = .ok context' ↔
      (context.step + 1 : ℤ) ≤ stepLimit ∧ { context with step := context.step + 1 } = context' := by
  unfold advanceStep
  split
  · simp only [reduceCtorEq, false_iff]
    omega
  · simp only [Except.ok.injEq, iff_and_self]
    omega

variable (key : Option String)

@[simp] theorem recordTrace_step [RuntimeValue V] :
    (context.recordTrace key).step = context.step := by
  cases key <;> rfl

@[simp] theorem recordTrace_pending [RuntimeValue V] :
    (context.recordTrace key).pending = context.pending := by
  cases key <;> rfl

@[simp] theorem recordTrace_events [RuntimeValue V] :
    (context.recordTrace key).events = context.events := by
  cases key <;> rfl

end

def startEvent (context : GraphRunContext W V) : RuntimeGraphEvent V :=
  ⟨.start, none, 0, .started context.pending⟩

def nodeStartEvent (context : GraphRunContext W V) (node : String)
    (branchUpdate : Option (Mapping V)) : RuntimeGraphEvent V :=
  ⟨.nodeStart, some node, context.step,
    .nodeStarted ((branchUpdate.map Mapping.keys).getD []) context.trace⟩

def finishedEvent (context : GraphRunContext W V) (eventKind : EventKind) (node : String)
    (outcome : NormalizedActionResult V) : RuntimeGraphEvent V :=
  ⟨eventKind, some node, context.step,
    .finished outcome.controlsFlow outcome.goto (outcome.sends.map (·.target))
      outcome.update.keys⟩

def interruptEvent (context : GraphRunContext W V) (node : String)
    (interrupt : RuntimeGraphInterrupt V) : RuntimeGraphEvent V :=
  ⟨.interrupt, some node, context.step,
    .interrupted interrupt.value interrupt.resumable context.trace⟩

def completeEvent (context : GraphRunContext W V) : RuntimeGraphEvent V :=
  ⟨.complete, none, context.step, .completed context.state context.trace⟩

def raiseInterrupted (context : GraphRunContext W V) (node : String)
    (interrupt : RuntimeGraphInterrupt V) : Halt W V :=
  let context := context.publish (context.interruptEvent node interrupt)
  .interrupted
    { interrupt, node, step := context.step, state := context.state, trace := context.trace,
      pending := context.pending, events := context.events }
    context.world

def completed [RuntimeValue V] (traceKey : Option String) (context : GraphRunContext W V) :
    GraphRunContext W V :=
  let context := context.recordTrace traceKey
  context.publish context.completeEvent

/-- `while context.pending`. -/
def busy (context : GraphRunContext W V) : Bool := !context.pending.isEmpty

end GraphRunContext

structure RuntimeGraphExecutor (W V : Type) where
  plan : RuntimeGraphPlan
  actions : String → Option (RuntimeAction W V)
  routers : String → Option (RuntimeRouter W V) := fun _ => none
  reducers : String → Option (RuntimeReducer W V) := fun _ => none
  plan_valid : validatePlan plan = .ok ()
  actions_valid : validateActions plan actions = .ok ()

structure GraphOutcome (W V : Type) where
  state : RuntimeState V
  trace : List String
  events : List (RuntimeGraphEvent V)
  world : W

def GraphRunContext.outcome {W V : Type} (context : GraphRunContext W V) : GraphOutcome W V :=
  ⟨context.state, context.trace, context.events, context.world⟩

namespace RuntimeGraphExecutor

variable {W V : Type} (executor : RuntimeGraphExecutor W V)

def fromInitial (initialState : RuntimeState V) (world : W) : GraphRunContext W V where
  state := initialState
  pending := (indexEdges executor.plan.edges graphStart).map .node
  trace := []
  events := []
  step := 0
  world := world

def validateRuntimeTarget (target : String) : Except GraphError Unit :=
  checkEndpoint target executor.plan.nodes

def resolveRouteName (router : String) (routes : Mapping String) (routeName : String) :
    Except GraphError (PendingItem V) := do
  let target ← presentElse (routes.routeTarget routeName)
    (GraphError.runtimeGraph s!"router {router} returned unknown route: {routeName}")
  executor.validateRuntimeTarget target
  pure (.node target)

def resolveConditionalRoute (router : String) (routes : Mapping String) :
    RuntimeRouteResult V → Except GraphError (List (PendingItem V))
  | .send send => do
    executor.validateRuntimeTarget send.target
    pure [.send send]
  | .sends sends => do
    sends.forM fun send => executor.validateRuntimeTarget send.target
    pure (sends.map .send)
  | .names names => names.mapM (executor.resolveRouteName router routes)
  | .name name => do
    let target ← executor.resolveRouteName router routes name
    pure [target]
  | .other repr =>
    throw (.runtimeGraph s!"router {router} returned unsupported route: {repr}")

/-- One edge of `_conditional_targets`. -/
def conditionalTarget (state : RuntimeState V) (targets : List (PendingItem V))
    (edge : RuntimeGraphConditionalEdge) : Effect W (List (PendingItem V)) := do
  let router ← presentElse (executor.routers edge.router)
    (GraphError.runtimeGraph s!"missing runtime graph router: {edge.router}")
  let route ← router state
  let resolved ← executor.resolveConditionalRoute edge.router edge.routes route.asRoute
  pure (targets ++ resolved)

def conditionalTargets (node : String) (state : RuntimeState V) : Effect W (List (PendingItem V)) :=
  (indexConditionalEdges executor.plan.conditionalEdges node).foldlM
    (executor.conditionalTarget state) []

def nextTargets (node : String) (state : RuntimeState V) (outcome : NormalizedActionResult V) :
    Effect W (List (PendingItem V)) :=
  if outcome.controlsFlow then
    pure (outcome.goto.map .node ++ outcome.sends.map .send)
  else do
    let conditional ← executor.conditionalTargets node state
    pure ((indexEdges executor.plan.edges node).map .node ++ conditional)

def finishNode (context : GraphRunContext W V) (node : String)
    (outcome : NormalizedActionResult V) (eventKind : EventKind) :
    Generated (RuntimeGraphEvent V) (Halt W V) (GraphRunContext W V) := do
  let merged ← silently (context.perform
    (mergeUpdate executor.reducers context.state outcome.update))
  let context := { merged.2 with state := merged.1 }
  let targets ← silently (context.perform (executor.nextTargets node context.state outcome))
  let context := { targets.2 with pending := targets.2.pending ++ targets.1 }
  let event := context.finishedEvent eventKind node outcome
  yield event
  pure (context.publish event)

variable {executor} in
theorem finishNode_step {context context' : GraphRunContext W V} {node : String}
    {outcome : NormalizedActionResult V} {eventKind : EventKind}
    (h : (executor.finishNode context node outcome eventKind).ended = .ok context') :
    context'.step = context.step := by
  simp only [finishNode, ended_bind, ended_silently, ended_yield, ended_pure, bind_eq_ok] at h
  obtain ⟨merged, hmerged, targets, htargets, _, -, h⟩ := h
  have hmerged := congrArg GraphRunContext.step (GraphRunContext.perform_frame hmerged)
  have htargets := congrArg GraphRunContext.step (GraphRunContext.perform_frame htargets)
  cases h
  exact htargets.trans hmerged

variable {executor} in
theorem finishNode_events {context context' : GraphRunContext W V} {node : String}
    {outcome : NormalizedActionResult V} {eventKind : EventKind}
    (h : (executor.finishNode context node outcome eventKind).ended = .ok context') :
    ∃ event, event.kind = eventKind ∧ context'.events = context.events ++ [event] := by
  simp only [finishNode, ended_bind, ended_silently, ended_yield, ended_pure, bind_eq_ok] at h
  obtain ⟨merged, hmerged, targets, htargets, _, -, h⟩ := h
  have hmerged := congrArg GraphRunContext.events (GraphRunContext.perform_frame hmerged)
  have htargets := congrArg GraphRunContext.events (GraphRunContext.perform_frame htargets)
  cases h
  exact ⟨GraphRunContext.finishedEvent _ eventKind node outcome, rfl,
    congrArg (· ++ [_]) (htargets.trans hmerged)⟩

theorem finishNode_yielded (context : GraphRunContext W V) (node : String)
    (outcome : NormalizedActionResult V) (eventKind : EventKind) :
    ∀ event ∈ (executor.finishNode context node outcome eventKind).yielded,
      event.kind = eventKind := by
  rw [finishNode]
  cases context.perform (mergeUpdate executor.reducers context.state outcome.update) with
  | error halt =>
    rintro event ⟨⟩
  | ok merged =>
    rw [silently_ok_bind]
    dsimp only
    cases GraphRunContext.perform { merged.2 with state := merged.1 }
        (executor.nextTargets node merged.1 outcome) with
    | error halt =>
      rintro event ⟨⟩
    | ok targets =>
      intro event hevent
      obtain rfl : event = _ := List.mem_singleton.1 hevent
      rfl

def rank (context : GraphRunContext W V) : ℕ × ℕ :=
  ((executor.plan.stepLimit - context.step).toNat, context.pending.length)

def Advances (context context' : GraphRunContext W V) : Prop :=
  context'.step = context.step + 1 ∧ (context.step + 1 : ℤ) ≤ executor.plan.stepLimit ∨
    context'.step = context.step ∧ context'.pending.length + 1 = context.pending.length

theorem Advances.rank_lt {context context' : GraphRunContext W V}
    (h : executor.Advances context context') :
    WellFoundedRelation.rel (executor.rank context') (executor.rank context) := by
  rcases h with ⟨hstep, hlimit⟩ | ⟨hstep, hpending⟩
  · apply Prod.Lex.left
    show (executor.plan.stepLimit - context'.step).toNat
      < (executor.plan.stepLimit - context.step).toNat
    rw [hstep]
    omega
  · show Prod.Lex _ _ (executor.rank context') (executor.rank context)
    rw [rank, rank, hstep]
    apply Prod.Lex.right
    show context'.pending.length < context.pending.length
    omega

section

variable [RuntimeValue V] (traceKey : Option String)

def startAndRunNode (context : GraphRunContext W V) (node : String)
    (branchUpdate : Option (Mapping V)) :
    Except (Halt W V) (NormalizedActionResult V × GraphRunContext W V) := do
  let context ← context.advanceStep executor.plan.stepLimit
  let context := { context with trace := context.trace ++ [node] }.recordTrace traceKey
  let actionState := withBranchUpdate context.state branchUpdate
  let context := context.publish (context.nodeStartEvent node branchUpdate)
  let action ← presentElse (executor.actions node) (.failed (.keyError node) context.world)
  let called ← context.perform (action actionState)
  let outcome := normalizeActionResult called.1.asResult
  match outcome.interrupt with
  | some interrupt => .error (called.2.raiseInterrupted node interrupt)
  | none => pure (outcome, called.2)

/-- `_execute_next_event_step`. The loop only takes it when the queue has an entry. -/
def executeNextEventStep (context : GraphRunContext W V) :
    Generated (RuntimeGraphEvent V) (Halt W V) (GraphRunContext W V) :=
  match context.pending with
  | [] => pure context
  | item :: rest =>
    let context := { context with pending := rest }
    if item.target = graphEnd then pure context
    else do
      let started ← silently
        (executor.startAndRunNode traceKey context item.target item.branchUpdate)
      executor.finishNode started.2 item.target started.1 .nodeEnd

variable {executor traceKey}

variable {context : GraphRunContext W V} {branchUpdate : Option (Mapping V)}
  {r : NormalizedActionResult V × GraphRunContext W V}

section

variable {node : String} (h : executor.startAndRunNode traceKey context node branchUpdate = .ok r)

include node h

theorem startAndRunNode_step :
    r.2.step = context.step + 1 ∧ (context.step + 1 : ℤ) ≤ executor.plan.stepLimit := by
  simp only [startAndRunNode, bind_eq_ok, GraphRunContext.advanceStep_eq_ok] at h
  obtain ⟨_, ⟨hlimit, rfl⟩, action, -, called, hcalled, h⟩ := h
  have hframe := congrArg GraphRunContext.step (GraphRunContext.perform_frame hcalled)
  split at h
  · cases h
  · cases h
    refine ⟨hframe.trans ?_, hlimit⟩
    simp [GraphRunContext.publish]

theorem startAndRunNode_events :
    ∃ event, event.kind = .nodeStart ∧ r.2.events = context.events ++ [event] := by
  simp only [startAndRunNode, bind_eq_ok, GraphRunContext.advanceStep_eq_ok] at h
  obtain ⟨_, ⟨-, rfl⟩, action, -, called, hcalled, h⟩ := h
  have hframe := congrArg GraphRunContext.events (GraphRunContext.perform_frame hcalled)
  split at h
  · cases h
  · cases h
    exact ⟨_, rfl, by simpa [GraphRunContext.publish] using hframe⟩

end

theorem executeNextEventStep_advances {context' : GraphRunContext W V} (hbusy : context.busy = true)
    (h : (executor.executeNextEventStep traceKey context).ended = .ok context') :
    executor.Advances context context' := by
  unfold executeNextEventStep at h
  split at h
  · rename_i hnil
    simp [GraphRunContext.busy, hnil] at hbusy
  · rename_i item rest hitem
    split at h
    · cases h
      exact .inr ⟨rfl, by simp [hitem]⟩
    · simp only [ended_bind, ended_silently, bind_eq_ok] at h
      obtain ⟨started, hstarted, h⟩ := h
      have hstart := startAndRunNode_step hstarted
      exact .inl ⟨(finishNode_step h).trans hstart.1, hstart.2⟩

variable (executor traceKey) in
theorem executeNextEventStep_descends :
    Descends GraphRunContext.busy (executor.executeNextEventStep traceKey) executor.rank :=
  fun _ _ hbusy h => (executeNextEventStep_advances hbusy h).rank_lt

variable (executor traceKey)

/-- `while context.pending: ...` of `_stream_events_context`. -/
def executePending (context : GraphRunContext W V) :
    Generated (RuntimeGraphEvent V) (Halt W V) (GraphRunContext W V) :=
  whileLoop GraphRunContext.busy (executor.executeNextEventStep traceKey) executor.rank
    (executor.executeNextEventStep_descends traceKey) context

def streamEventsContext (context : GraphRunContext W V) :
    Generated (RuntimeGraphEvent V) (Halt W V) (GraphRunContext W V) := do
  yield context.startEvent
  let context ← executor.executePending traceKey (context.publish context.startEvent)
  let context := context.recordTrace traceKey
  yield context.completeEvent
  pure (context.publish context.completeEvent)

theorem streamEventsContext_ended (context : GraphRunContext W V) :
    (executor.streamEventsContext traceKey context).ended =
      (executor.executePending traceKey (context.publish context.startEvent)).ended.map
        (GraphRunContext.completed traceKey) := by
  rw [streamEventsContext, ended_bind]
  show (executor.executePending traceKey _ >>= _).ended = _
  rw [ended_bind]
  cases (executor.executePending traceKey (context.publish context.startEvent)).ended <;> rfl

/-- `_run_context`: the generator is drained. -/
def runContext (context : GraphRunContext W V) : Except (Halt W V) (GraphOutcome W V) :=
  (executor.streamEventsContext traceKey context).ended.map GraphRunContext.outcome

def pendingOutcome (context : GraphRunContext W V) : Except (Halt W V) (GraphOutcome W V) :=
  (executor.executePending traceKey context).ended.map fun context =>
    (context.completed traceKey).outcome

theorem runContext_eq (context : GraphRunContext W V) : executor.runContext traceKey context =
      executor.pendingOutcome traceKey (context.publish context.startEvent) := by
  rw [runContext, streamEventsContext_ended, pendingOutcome]
  cases (executor.executePending traceKey (context.publish context.startEvent)).ended <;> rfl

variable {n : ℕ} {x : Except (Halt W V) (GraphRunContext W V)}

/-- A run that ends within `n` steps is computed by them. -/
theorem pendingOutcome_of_unrolled {context : GraphRunContext W V}
    (h : unrolled GraphRunContext.busy (executor.executeNextEventStep traceKey) n context = some x)
    : executor.pendingOutcome traceKey context =
      x.map fun context => (context.completed traceKey).outcome := by
  rw [pendingOutcome, executePending, whileLoop_of_unrolled _ h]

def invokeWithEvents (initialState : RuntimeState V) (world : W) :
    Except (Halt W V) (GraphOutcome W V) :=
  (executor.runContext traceKey (executor.fromInitial initialState world)).mapError
    (Halt.leaving "generator")

theorem invokeWithEvents_of_unrolled {initialState : RuntimeState V} {world : W}
    (h : unrolled GraphRunContext.busy (executor.executeNextEventStep traceKey) n
      ((executor.fromInitial initialState world).publish
        (executor.fromInitial initialState world).startEvent) = some x) :
    executor.invokeWithEvents traceKey initialState world =
      (x.map fun context => (context.completed traceKey).outcome).mapError
        (Halt.leaving "generator") :=
  congrArg (Except.mapError _)
    ((executor.runContext_eq traceKey _).trans (executor.pendingOutcome_of_unrolled traceKey h))

def resumedContext (interrupted : RuntimeGraphInterrupted V)
    (resumeResult : RuntimeActionResult V) (world : W) : Except (Halt W V) (GraphRunContext W V) :=
  (executor.finishNode ((GraphRunContext.fromInterrupted interrupted world).recordTrace traceKey)
    interrupted.node (normalizeActionResult resumeResult) .resume).ended

def resumeInterrupted (interrupted : RuntimeGraphInterrupted V)
    (resumeResult : Called W (RuntimeActionResult V)) (world : W) :
    Except (Halt W V) (GraphOutcome W V) :=
  (executor.resumedContext traceKey interrupted resumeResult.asResult world >>=
    executor.runContext traceKey).mapError (Halt.leaving "generator")

theorem resumeInterrupted_of_unrolled {interrupted : RuntimeGraphInterrupted V}
    {resumeResult : RuntimeActionResult V} {world : W} {context : GraphRunContext W V}
    (hcontext : executor.resumedContext traceKey interrupted resumeResult world = .ok context)
    (h : unrolled GraphRunContext.busy (executor.executeNextEventStep traceKey) n
      (context.publish context.startEvent) = some x) :
    executor.resumeInterrupted traceKey interrupted (.value resumeResult) world =
      (x.map fun context => (context.completed traceKey).outcome).mapError
        (Halt.leaving "generator") := by
  show (executor.resumedContext traceKey interrupted resumeResult world >>= _).mapError _ = _
  rw [hcontext]
  exact congrArg (Except.mapError _)
    ((executor.runContext_eq traceKey _).trans (executor.pendingOutcome_of_unrolled traceKey h))

end

end RuntimeGraphExecutor

/-- A graph of one node, `review`, which always answers `answer`. -/
def reviewGraph (answer : RuntimeActionResult (List String)) :
    RuntimeGraphExecutor Unit (List String) where
  plan := { nodes := ["review"], edges := [⟨graphStart, "review"⟩, ⟨"review", graphEnd⟩] }
  actions := fun node => if node = "review" then some fun _ => pure (.value answer) else none
  plan_valid := rfl
  actions_valid := validateActions_of_forall (fun _ h => by rw [List.mem_singleton.1 h]; rfl)

end PooFlow
