import PooFlow.Graph.Executor

/-! The asynchronous half of `_runtime_graph_executor.py`. An executor all of whose calls are
awaited is an executor of its own, `settled`. -/

namespace PooFlow

open Foundation Generated GraphRunContext

variable {W V : Type}

def settle {α : Type} (call : RuntimeState V → Effect W (Called W α)) (state : RuntimeState V) :
    Effect W (Called W α) := do
  let called ← call state
  let answer ← called.awaited
  pure (.value answer)

/-- The call never hands back an awaitable. -/
def Immediate {α : Type} (call : RuntimeState V → Effect W (Called W α)) : Prop :=
  ∀ state world called, ((call state).run.run world).1 = .ok called →
    ∃ answer, called = .value answer

theorem settle_eq {α : Type} {call : RuntimeState V → Effect W (Called W α)}
    (h : Immediate call) : settle call = call := by
  funext state
  apply Effect.ext
  intro world
  have himmediate := h state world
  rw [settle, Effect.run_bind]
  rcases hcall : (call state).run.run world with ⟨_ | called, world'⟩
  · rfl
  · obtain ⟨answer, rfl⟩ := himmediate called (by rw [hcall])
    rfl

namespace RuntimeGraphExecutor

variable (executor : RuntimeGraphExecutor W V)

def settled : RuntimeGraphExecutor W V where
  plan := executor.plan
  actions := fun node => (executor.actions node).map settle
  routers := fun router => (executor.routers router).map settle
  reducers := executor.reducers
  plan_valid := executor.plan_valid
  actions_valid := by
    have h := executor.actions_valid
    simpa only [validateActions, Option.isNone_map] using h

/-- No action and no router hands back an awaitable. -/
structure Synchronous : Prop where
  actions : ∀ node action, executor.actions node = some action → Immediate action
  routers : ∀ name router, executor.routers name = some router → Immediate router

variable {executor} in
theorem settled_eq (h : executor.Synchronous) : executor.settled = executor := by
  have hactions : executor.settled.actions = executor.actions := by
    funext node
    show (executor.actions node).map settle = _
    cases haction : executor.actions node with
    | none => rfl
    | some action => rw [Option.map_some, settle_eq (h.actions node action haction)]
  have hrouters : executor.settled.routers = executor.routers := by
    funext name
    show (executor.routers name).map settle = _
    cases hrouter : executor.routers name with
    | none => rfl
    | some router => rw [Option.map_some, settle_eq (h.routers name router hrouter)]
  cases executor
  simp only [settled] at hactions hrouters ⊢
  congr

/-- One edge of `_aconditional_targets`. -/
def aconditionalTarget (state : RuntimeState V) (targets : List (PendingItem V))
    (edge : RuntimeGraphConditionalEdge) : Effect W (List (PendingItem V)) := do
  let router ← presentElse (executor.routers edge.router)
    (GraphError.runtimeGraph s!"missing runtime graph router: {edge.router}")
  let route ← router state
  let route ← route.awaited
  let resolved ← executor.resolveConditionalRoute edge.router edge.routes route
  pure (targets ++ resolved)

def aconditionalTargets (node : String) (state : RuntimeState V) :
    Effect W (List (PendingItem V)) :=
  (indexConditionalEdges executor.plan.conditionalEdges node).foldlM
    (executor.aconditionalTarget state) []

def anextTargets (node : String) (state : RuntimeState V) (outcome : NormalizedActionResult V) :
    Effect W (List (PendingItem V)) :=
  if outcome.controlsFlow then
    pure (outcome.goto.map .node ++ outcome.sends.map .send)
  else do
    let conditional ← executor.aconditionalTargets node state
    pure ((indexEdges executor.plan.edges node).map .node ++ conditional)

variable (state : RuntimeState V)

theorem aconditionalTarget_eq (targets : List (PendingItem V))
    (edge : RuntimeGraphConditionalEdge) : executor.aconditionalTarget state targets edge =
      executor.settled.conditionalTarget state targets edge := by
  rw [aconditionalTarget, conditionalTarget]
  show _ = (liftM (presentElse ((executor.routers edge.router).map settle) _) : Effect W _) >>= _
  cases executor.routers edge.router with
  | none => rfl
  | some router =>
    show router state >>= _ = settle router state >>= _
    simp only [settle, bind_assoc, pure_bind, Called.asRoute]
    rfl

variable (node : String)

theorem aconditionalTargets_eq :
    executor.aconditionalTargets node state = executor.settled.conditionalTargets node state := by
  have hstep : executor.aconditionalTarget state = executor.settled.conditionalTarget state := by
    funext targets edge
    exact executor.aconditionalTarget_eq state targets edge
  rw [aconditionalTargets, conditionalTargets, hstep]
  rfl

variable (outcome : NormalizedActionResult V)

theorem anextTargets_eq :
    executor.anextTargets node state outcome = executor.settled.nextTargets node state outcome := by
  rw [anextTargets, nextTargets, aconditionalTargets_eq]
  rfl

/-- `_afinish_node`, with the event it returns. -/
def afinishNode (context : GraphRunContext W V) (node : String)
    (outcome : NormalizedActionResult V) (eventKind : EventKind) :
    Except (Halt W V) (RuntimeGraphEvent V × GraphRunContext W V) := do
  let merged ← context.perform (mergeUpdate executor.reducers context.state outcome.update)
  let context := { merged.2 with state := merged.1 }
  let targets ← context.perform (executor.anextTargets node context.state outcome)
  let context := { targets.2 with pending := targets.2.pending ++ targets.1 }
  let event := context.finishedEvent eventKind node outcome
  pure (event, context.publish event)

section

variable [RuntimeValue V] (traceKey : Option String)

def astartAndRunNode (context : GraphRunContext W V) (node : String)
    (branchUpdate : Option (Mapping V)) :
    Except (Halt W V) (NormalizedActionResult V × GraphRunContext W V) := do
  let context ← context.advanceStep executor.plan.stepLimit
  let context := { context with trace := context.trace ++ [node] }.recordTrace traceKey
  let actionState := withBranchUpdate context.state branchUpdate
  let context := context.publish (context.nodeStartEvent node branchUpdate)
  let action ← presentElse (executor.actions node) (.failed (.keyError node) context.world)
  let called ← context.perform (action actionState)
  let result ← called.2.perform called.1.awaited
  let outcome := normalizeActionResult result.1
  match outcome.interrupt with
  | some interrupt => .error (result.2.raiseInterrupted node interrupt)
  | none => pure (outcome, result.2)

def aexecuteNextEventStep (context : GraphRunContext W V) :
    Except (Halt W V) (GraphRunContext W V) :=
  match context.pending with
  | [] => pure context
  | item :: rest =>
    let context := { context with pending := rest }
    if item.target = graphEnd then pure context
    else do
      let started ← executor.astartAndRunNode traceKey context item.target item.branchUpdate
      let finished ← executor.afinishNode started.2 item.target started.1 .nodeEnd
      pure finished.2

variable (context : GraphRunContext W V)

theorem astartAndRunNode_eq (branchUpdate : Option (Mapping V)) :
    executor.astartAndRunNode traceKey context node branchUpdate =
      executor.settled.startAndRunNode traceKey context node branchUpdate := by
  rw [astartAndRunNode, startAndRunNode]
  show context.advanceStep executor.plan.stepLimit >>= _ = _
  congr 1
  funext advanced
  show _ = presentElse ((executor.actions node).map settle) _ >>= _
  cases executor.actions node with
  | none => rfl
  | some action =>
    show perform _ (action _) >>= _ = perform _ (settle action _) >>= _
    simp only [settle, perform_bind, bind_assoc, perform_pure]
    rfl

omit [RuntimeValue V] in
theorem afinishNode_generated (eventKind : EventKind) :
    (do
      let finished ← silently (executor.afinishNode context node outcome eventKind)
      yield finished.1
      pure finished.2) =
      executor.settled.finishNode context node outcome eventKind := by
  simp only [afinishNode, finishNode, anextTargets_eq]
  show silently (context.perform (mergeUpdate executor.reducers context.state _) >>= _) >>= _ =
    silently (context.perform (mergeUpdate executor.reducers context.state _)) >>= _
  cases context.perform (mergeUpdate executor.reducers context.state outcome.update) with
  | error halt => rfl
  | ok merged =>
    show silently (perform _ _ >>= _) >>= _ =
      (silently (perform _ _) >>= _ : Generated _ _ _)
    cases perform { merged.2 with state := merged.1 }
      (executor.settled.nextTargets node merged.1 outcome) <;> rfl

omit [RuntimeValue V] in
theorem afinishNode_eq (eventKind : EventKind) :
    (executor.afinishNode context node outcome eventKind).map Prod.snd =
      (executor.settled.finishNode context node outcome eventKind).ended := by
  rw [← afinishNode_generated]
  cases executor.afinishNode context node outcome eventKind <;> rfl

theorem aexecuteNextEventStep_eq : executor.aexecuteNextEventStep traceKey context =
      (executor.settled.executeNextEventStep traceKey context).ended := by
  rw [aexecuteNextEventStep, executeNextEventStep]
  rcases context.pending with _ | ⟨item, rest⟩
  · rfl
  · dsimp only
    split
    · rfl
    · rw [ended_bind, ended_silently, astartAndRunNode_eq]
      cases executor.settled.startAndRunNode traceKey { context with pending := rest }
        item.target item.branchUpdate with
      | error halt => rfl
      | ok started =>
        show executor.afinishNode _ _ _ _ >>= _ = (executor.settled.finishNode _ _ _ _).ended
        rw [← afinishNode_eq]
        rfl

/-- The rounds of `_arun_events_context`, as a coroutine that yields nothing. -/
def aexecuteRound (context : GraphRunContext W V) :
    Generated (RuntimeGraphEvent V) (Halt W V) (GraphRunContext W V) :=
  silently (executor.aexecuteNextEventStep traceKey context)

variable {executor traceKey} in
theorem aexecuteRound_descends :
    Descends busy (executor.aexecuteRound traceKey) executor.rank := by
  intro context context' hbusy h
  rw [aexecuteRound, ended_silently, aexecuteNextEventStep_eq] at h
  exact executor.settled.executeNextEventStep_descends traceKey _ _ hbusy h

/-- `_arun_events_context`: the context after the run. -/
def arunEventsContext (context : GraphRunContext W V) :
    Except (Halt W V) (GraphRunContext W V) := do
  let context ← (whileLoop GraphRunContext.busy (executor.aexecuteRound traceKey) executor.rank
    aexecuteRound_descends (context.publish context.startEvent)).ended
  let context := context.recordTrace traceKey
  pure (context.publish context.completeEvent)

def arunContext (context : GraphRunContext W V) : Except (Halt W V) (GraphOutcome W V) :=
  (executor.arunEventsContext traceKey context).map GraphRunContext.outcome

def ainvokeWithEvents (initialState : RuntimeState V) (world : W) :
    Except (Halt W V) (GraphOutcome W V) :=
  (executor.arunContext traceKey (executor.fromInitial initialState world)).mapError
    (Halt.leaving "coroutine")

def aresumeInterrupted (interrupted : RuntimeGraphInterrupted V)
    (resumeResult : Called W (RuntimeActionResult V)) (world : W) :
    Except (Halt W V) (GraphOutcome W V) :=
  let context := (GraphRunContext.fromInterrupted interrupted world).recordTrace traceKey
  Except.mapError (Halt.leaving "coroutine") do
    let result ← context.perform resumeResult.awaited
    let outcome := normalizeActionResult result.1
    let resumed ← executor.afinishNode result.2 interrupted.node outcome .resume
    executor.arunContext traceKey resumed.2

theorem arunEventsContext_eq : executor.arunEventsContext traceKey context =
      (executor.settled.streamEventsContext traceKey context).ended := by
  have hloop : (whileLoop busy (executor.aexecuteRound traceKey) executor.rank
      aexecuteRound_descends (context.publish context.startEvent)).ended =
      (executor.settled.executePending traceKey (context.publish context.startEvent)).ended := by
    apply ends_eq.1
    apply whileLoop_ends (R := fun s t => s = t) (E := fun e e' => e = e')
    · rintro s t rfl
      rfl
    · rintro s t rfl -
      rw [aexecuteRound, ended_silently, aexecuteNextEventStep_eq]
      exact ends_eq.2 rfl
    · rfl
  rw [arunEventsContext, hloop, streamEventsContext_ended]
  cases (executor.settled.executePending traceKey (context.publish context.startEvent)).ended <;> rfl

theorem arunContext_eq :
    executor.arunContext traceKey context = executor.settled.runContext traceKey context := by
  rw [arunContext, runContext, arunEventsContext_eq]

/-- The runs end alike, but for the name of what let a `StopIteration` go. -/
def RunsAlike (x y : Except (Halt W V) (GraphOutcome W V)) : Prop :=
  y = x ∨ ∃ world,
    x = .error (.failed (.runtimeError "generator raised StopIteration") world) ∧
      y = .error (.failed (.runtimeError "coroutine raised StopIteration") world)

omit [RuntimeValue V] in
theorem runsAlike_leaving (x : Except (Halt W V) (GraphOutcome W V)) :
    RunsAlike (x.mapError (Halt.leaving "generator")) (x.mapError (Halt.leaving "coroutine")) := by
  rcases x with (⟨error, world⟩ | _) | _
  · cases error with
    | stopIteration => exact .inr ⟨world, rfl, rfl⟩
    | _ => exact .inl rfl
  · exact .inl rfl
  · exact .inl rfl

theorem ainvokeWithEvents_alike (initialState : RuntimeState V) (world : W) :
    RunsAlike (executor.settled.invokeWithEvents traceKey initialState world)
      (executor.ainvokeWithEvents traceKey initialState world) := by
  rw [ainvokeWithEvents, arunContext_eq]
  exact runsAlike_leaving _

theorem aresumeInterrupted_alike (interrupted : RuntimeGraphInterrupted V)
    (resumeResult : RuntimeActionResult V) (world : W) :
    RunsAlike (executor.settled.resumeInterrupted traceKey interrupted (.value resumeResult) world)
      (executor.aresumeInterrupted traceKey interrupted (.value resumeResult) world) := by
  have hresumed : ∀ x : Except (Halt W V) (RuntimeGraphEvent V × GraphRunContext W V),
      (x >>= fun resumed => executor.arunContext traceKey resumed.2) =
        x.map Prod.snd >>= executor.settled.runContext traceKey := by
    intro x
    cases x with
    | error halt => rfl
    | ok resumed => exact executor.arunContext_eq traceKey resumed.2
  rw [resumeInterrupted, resumedContext, ← afinishNode_eq, ← hresumed]
  exact runsAlike_leaving _

/-- Both halves of a synchronous executor run alike, from an input and from an
interruption, but for the name of what let a `StopIteration` go. -/
theorem asynchronous_runs_agree (hsync : executor.Synchronous) :
    (∀ initialState world, RunsAlike (executor.invokeWithEvents traceKey initialState world)
      (executor.ainvokeWithEvents traceKey initialState world)) ∧
    ∀ interrupted resumeResult world,
      RunsAlike (executor.resumeInterrupted traceKey interrupted (.value resumeResult) world)
        (executor.aresumeInterrupted traceKey interrupted (.value resumeResult) world) := by
  constructor
  · intro initialState world
    have halike := executor.ainvokeWithEvents_alike traceKey initialState world
    rwa [settled_eq hsync] at halike
  · intro interrupted resumeResult world
    have halike := executor.aresumeInterrupted_alike traceKey interrupted resumeResult world
    rwa [settled_eq hsync] at halike

end

end RuntimeGraphExecutor

theorem reviewGraph_synchronous (answer : RuntimeActionResult (List String)) :
    (reviewGraph answer).Synchronous where
  actions := by
    intro node action haction state world called hcalled
    have haction : (if node = "review" then some fun _ => pure (.value answer) else none) =
      some action := haction
    split at haction
    · cases haction
      cases hcalled
      exact ⟨answer, rfl⟩
    · cases haction
  routers := by
    rintro name router ⟨⟩

theorem review_runs_agree : (∀ initialState world, RuntimeGraphExecutor.RunsAlike
      ((reviewGraph (.update .absent)).invokeWithEvents none initialState world)
      ((reviewGraph (.update .absent)).ainvokeWithEvents none initialState world)) ∧
    ∀ interrupted resumeResult world, RuntimeGraphExecutor.RunsAlike
      ((reviewGraph (.update .absent)).resumeInterrupted none interrupted (.value resumeResult)
        world)
      ((reviewGraph (.update .absent)).aresumeInterrupted none interrupted (.value resumeResult)
        world) :=
  RuntimeGraphExecutor.asynchronous_runs_agree _ none (reviewGraph_synchronous _)

/-- A graph of one node, which asks an iterator that is at its end. -/
def exhaustedGraph : RuntimeGraphExecutor Unit (List String) :=
  { reviewGraph (.update .absent) with
    actions := fun node => if node = "review" then some fun _ => throw .stopIteration else none
    actions_valid := validateActions_of_forall
      (fun _ h => by rw [List.mem_singleton.1 h]; rfl) }

theorem exhaustedGraph_synchronous : exhaustedGraph.Synchronous := by
  refine ⟨fun node action haction state world called hcalled => ?_, fun _ _ h => nomatch h⟩
  have haction : (if node = "review" then some fun _ => throw .stopIteration else none) =
    some action := haction
  split at haction
  · cases haction
    cases hcalled
  · cases haction

/-- What the action lets out is a different error in each half. -/
theorem exhausted_runs_differ : exhaustedGraph.Synchronous ∧
    exhaustedGraph.invokeWithEvents none ∅ () =
      .error (.failed (.runtimeError "generator raised StopIteration") ()) ∧
    exhaustedGraph.ainvokeWithEvents none ∅ () =
      .error (.failed (.runtimeError "coroutine raised StopIteration") ()) := by
  have hrun : exhaustedGraph.runContext none (exhaustedGraph.fromInitial ∅ ()) =
      .error (.failed .stopIteration ()) := by
    rw [RuntimeGraphExecutor.runContext_eq]
    exact RuntimeGraphExecutor.pendingOutcome_of_unrolled _ none (n := 1)
      (x := .error (.failed .stopIteration ())) rfl
  refine ⟨exhaustedGraph_synchronous, ?_, ?_⟩
  · rw [RuntimeGraphExecutor.invokeWithEvents, hrun]
    rfl
  · rw [RuntimeGraphExecutor.ainvokeWithEvents, RuntimeGraphExecutor.arunContext_eq,
      RuntimeGraphExecutor.settled_eq exhaustedGraph_synchronous, hrun]
    rfl

end PooFlow
