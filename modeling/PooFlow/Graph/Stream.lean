import PooFlow.Graph.Asynchrony
import PooFlow.Graph.Checkpoint

/-! `_runtime_graph_stream.py` and the streams of `_runtime_graph_executor.py`. A synchronous stream
yields while a step runs; an asynchronous one once the step, or the run, has completed. -/

namespace PooFlow

open Foundation Generated GraphRunContext

variable {W V : Type}

/-- `stream_mode`: one mode by its name, or a sequence of modes. -/
inductive StreamModes where
  | one (mode : String)
  | many (modes : List String)

namespace StreamModes

def names : StreamModes → List String
  | .one mode => [mode]
  | .many modes => modes

def multiMode : StreamModes → Bool
  | .one _ => false
  | .many _ => true

end StreamModes

def validStreamModes : List String :=
  ["values", "updates", "messages", "custom", "checkpoints", "tasks", "events", "debug"]

def validatedStreamModes (streamMode : StreamModes) : Except GraphError (List String) := do
  let modes := streamMode.names
  guardElse (modes ≠ []) (.runtimeGraph "runtime graph stream mode cannot be empty")
  let unknown := modes.filter (· ∉ validStreamModes)
  guardElse (unknown = [])
    (.runtimeGraph ("unknown runtime graph stream mode: " ++ ", ".intercalate unknown))
  pure modes

inductive ChunkValue (V : Type) where
  | values (state : RuntimeState V)
  | updates (node : String) (update : List (String × V))
  | message (message : V) (node : String) (step : ℕ)
  | custom (value : V)
  | checkpoint (checkpoint : RuntimeGraphCheckpoint V)
  | task (node : String) (step : ℕ) (status : String)
  | event (event : RuntimeGraphEvent V)

abbrev Chunk (V : Type) := Option String × ChunkValue V

/-- `dict(update or {})`. -/
def Update.entries : Update V → List (String × V)
  | .mapping update => update.entries
  | .absent | .other _ => []

/-- `update.get("messages")`, normalized. -/
def Update.messages [RuntimeValue V] : Update V → List V
  | .mapping update =>
    match update.lookup "messages" with
    | some value =>
      if RuntimeValue.isNone value then [] else (RuntimeValue.items value).getD [value]
    | none => []
  | .absent | .other _ => []

/-- What a stream uses of the runtime: the thread and the checkpointer, and the
values that actions have emitted into the installed sink. -/
structure RuntimeGraphRuntime (W V : Type) where
  threadId : Option String
  save : Option (RuntimeGraphCheckpoint V → Effect W (RuntimeGraphCheckpoint V))
  installSink : W → W
  customValues : W → List V

structure StreamPublisher (W V : Type) where
  modes : List String
  multiMode : Bool
  customValues : W → List V
  checkpoints : Option (String × (RuntimeGraphCheckpoint V → Effect W (RuntimeGraphCheckpoint V)))

namespace StreamPublisher

/-- `_checkpoint_thread_id` and `_checkpoint_store`. -/
def checkpointsOf (runtime : RuntimeGraphRuntime W V) (modes : List String) : Except GraphError
      (Option (String × (RuntimeGraphCheckpoint V → Effect W (RuntimeGraphCheckpoint V)))) :=
  if "checkpoints" ∈ modes then do
    let threadId ← presentElse runtime.threadId
      (.raised "runtime graph thread_id is not configured")
    let save ← presentElse runtime.save (.raised "runtime graph checkpointer is not configured")
    pure (some (threadId, save))
  else pure none

variable (publisher : StreamPublisher W V)

/-- The value once for each mode of the stream that is among `modes`. -/
def emit (modes : List String) (value : ChunkValue V) : List (Chunk V) :=
  (publisher.modes.filter (· ∈ modes)).map fun mode =>
    (if publisher.multiMode then some mode else none, value)

def events (event : RuntimeGraphEvent V) : List (Chunk V) :=
  publisher.emit ["events", "debug"] (.event event)

def tasks (node : String) (step : ℕ) (status : String) : List (Chunk V) :=
  publisher.emit ["tasks"] (.task node step status)

/-- `custom`: what the actions have emitted since `start`. -/
def custom (context : GraphRunContext W V) (start : ℕ) : List (Chunk V) :=
  ((publisher.customValues context.world).drop start).flatMap fun value =>
    publisher.emit ["custom"] (.custom value)

def updates (node : String) (update : Update V) : List (Chunk V) :=
  publisher.emit ["updates"] (.updates node update.entries)

def values (context : GraphRunContext W V) : List (Chunk V) :=
  publisher.emit ["values"] (.values context.state)

def messages [RuntimeValue V] (node : String) (step : ℕ) (update : Update V) : List (Chunk V) :=
  update.messages.flatMap fun message => publisher.emit ["messages"] (.message message node step)

/-- `checkpoints`: the context is saved, then handed out as it was saved. -/
def saveCheckpoint (node : String) (context : GraphRunContext W V) :
    Generated (Chunk V) (Halt W V) (GraphRunContext W V) :=
  match publisher.checkpoints with
  | none => pure context
  | some (threadId, save) => do
    let saved ← silently (context.perform (save
      { checkpointId := "", threadId, interrupt := none, node, step := context.step,
        state := context.state, trace := context.trace, pending := context.pending,
        events := context.events }))
    yieldAll (publisher.emit ["checkpoints"] (.checkpoint saved.1))
    pure saved.2

def nodeOutputs [RuntimeValue V] (node : String) (context : GraphRunContext W V)
    (update : Update V) (customStart : ℕ) :
    Generated (Chunk V) (Halt W V) (GraphRunContext W V) := do
  yieldAll (publisher.custom context customStart)
  let context ← publisher.saveCheckpoint node context
  yieldAll (publisher.updates node update)
  yieldAll (publisher.values context)
  yieldAll (publisher.messages node context.step update)
  pure context

variable {publisher}

theorem saveCheckpoint_step {node : String} {context context' : GraphRunContext W V}
    (h : (publisher.saveCheckpoint node context).ended = .ok context') :
    context'.step = context.step := by
  rw [saveCheckpoint] at h
  split at h
  · cases h
    rfl
  · rw [ended_bind, ended_silently, bind_eq_ok] at h
    obtain ⟨saved, hsaved, h⟩ := h
    have hframe := congrArg step (perform_frame hsaved)
    cases h
    exact hframe

theorem nodeOutputs_step [RuntimeValue V] {node : String} {context context' : GraphRunContext W V}
    {update : Update V} {customStart : ℕ}
    (h : (publisher.nodeOutputs node context update customStart).ended = .ok context') :
    context'.step = context.step := by
  simp only [nodeOutputs, ended_bind, ended_yieldAll, ended_pure, bind_eq_ok] at h
  obtain ⟨-, -, saved, hsaved, -, -, -, -, -, -, h⟩ := h
  cases h
  exact saveCheckpoint_step hsaved

end StreamPublisher

namespace RuntimeGraphExecutor

variable (executor : RuntimeGraphExecutor W V) [RuntimeValue V] (traceKey : Option String)
  (publisher : StreamPublisher W V)

def streamEvents (initialState : RuntimeState V) (world : W) :
    Generated (RuntimeGraphEvent V) (Halt W V) (GraphRunContext W V) :=
  executor.streamEventsContext traceKey (executor.fromInitial initialState world)

def executeNextStreamStep (context : GraphRunContext W V) :
    Generated (Chunk V) (Halt W V) (GraphRunContext W V) :=
  match context.pending with
  | [] => pure context
  | item :: rest =>
    let context := { context with pending := rest }
    if item.target = graphEnd then pure context
    else do
      yieldAll (publisher.tasks item.target (context.step + 1) "start")
      let startLen := (publisher.customValues context.world).length
      let started ← silently
        (executor.startAndRunNode traceKey context item.target item.branchUpdate)
      yieldAll (started.2.events.getLast?.toList.flatMap publisher.events)
      let context ← (executor.finishNode started.2 item.target started.1 .nodeEnd).through
        publisher.events
      yieldAll (publisher.tasks item.target context.step "finish")
      publisher.nodeOutputs item.target context started.1.update startLen

/-- `astream_events`: the events of the run are handed over at its end. -/
def astreamEvents (initialState : RuntimeState V) (world : W) :
    Generated (RuntimeGraphEvent V) (Halt W V) (GraphRunContext W V) := do
  let context ← silently
    (executor.arunEventsContext traceKey (executor.fromInitial initialState world))
  yieldAll context.events
  pure context

/-- `_aexecute_next_stream_step`: the chunks of the step, and the context after it. -/
def aexecuteNextStreamStep (context : GraphRunContext W V) :
    Except (Halt W V) (List (Chunk V) × GraphRunContext W V) :=
  match context.pending with
  | [] => pure ([], context)
  | item :: rest =>
    let context := { context with pending := rest }
    if item.target = graphEnd then pure ([], context)
    else do
      let chunks := publisher.tasks item.target (context.step + 1) "start"
      let startLen := (publisher.customValues context.world).length
      let started ← executor.astartAndRunNode traceKey context item.target item.branchUpdate
      let chunks := chunks ++ started.2.events.getLast?.toList.flatMap publisher.events
      let finished ← executor.afinishNode started.2 item.target started.1 .nodeEnd
      let chunks := chunks ++ publisher.events finished.1
      let chunks := chunks ++ publisher.tasks item.target finished.2.step "finish"
      let outputs := publisher.nodeOutputs item.target finished.2 started.1.update startLen
      let context ← outputs.ended
      pure (chunks ++ outputs.yielded, context)

/-- The rounds of `_astream_context`: `for chunk in await ...: yield chunk`. -/
def aexecuteStreamRound (context : GraphRunContext W V) :
    Generated (Chunk V) (Halt W V) (GraphRunContext W V) := do
  let stepped ← silently (executor.aexecuteNextStreamStep traceKey publisher context)
  yieldAll stepped.1
  pure stepped.2

variable {executor traceKey publisher} in
theorem executeNextStreamStep_advances {context context' : GraphRunContext W V}
    (hbusy : context.busy = true)
    (h : (executor.executeNextStreamStep traceKey publisher context).ended = .ok context') :
    executor.Advances context context' := by
  rw [executeNextStreamStep] at h
  split at h
  · rename_i hnil
    simp [busy, hnil] at hbusy
  · rename_i item rest hitem
    dsimp only at h
    split at h
    · cases h
      exact .inr ⟨rfl, by simp [hitem]⟩
    · simp only [ended_bind, ended_silently, ended_yieldAll, ended_through, bind_eq_ok] at h
      obtain ⟨-, -, started, hstarted, -, -, finished, hfinished, -, -, h⟩ := h
      have hstart := startAndRunNode_step hstarted
      have hstep := (StreamPublisher.nodeOutputs_step h).trans (finishNode_step hfinished)
      exact .inl ⟨hstep.trans hstart.1, hstart.2⟩

theorem executeNextStreamStep_descends :
    Descends busy (executor.executeNextStreamStep traceKey publisher)
      executor.rank :=
  fun _ _ hbusy h => (executeNextStreamStep_advances hbusy h).rank_lt

theorem aexecuteStreamRound_eq (context : GraphRunContext W V) :
    executor.aexecuteStreamRound traceKey publisher context =
      (executor.settled.executeNextStreamStep traceKey publisher context).collected := by
  rw [aexecuteStreamRound, collected_eq]
  congr 2
  rw [aexecuteNextStreamStep, executeNextStreamStep]
  rcases context.pending with _ | ⟨item, rest⟩
  · rfl
  · dsimp only
    split
    · rfl
    · rw [astartAndRunNode_eq]
      cases executor.settled.startAndRunNode traceKey { context with pending := rest }
        item.target item.branchUpdate with
      | error halt => rfl
      | ok started =>
        rw [silently_ok_bind, ← afinishNode_generated]
        show executor.afinishNode started.2 item.target started.1 .nodeEnd >>= _ = _
        cases executor.afinishNode started.2 item.target started.1 .nodeEnd with
        | error halt => rfl
        | ok finished =>
          rw [silently_ok_bind, yieldAll_bind]
          show (publisher.nodeOutputs item.target finished.2 started.1.update
              (publisher.customValues context.world).length).ended >>= _ =
            Except.map _ (publisher.nodeOutputs item.target finished.2 started.1.update
              (publisher.customValues context.world).length).ended
          cases (publisher.nodeOutputs item.target finished.2 started.1.update
              (publisher.customValues context.world).length).ended with
          | error halt => rfl
          | ok context' =>
            -- task chunks, then those of the events, then those of the node
            show Except.ok (_, context') =
              Except.ok (_ ++ (_ ++ ((publisher.events finished.1 ++ []) ++ (_ ++ _))), context')
            simp only [List.append_assoc, List.append_nil]
            rfl

theorem aexecuteStreamRound_descends :
    Descends busy (executor.aexecuteStreamRound traceKey publisher)
      executor.rank := by
  intro context context' hbusy h
  rw [aexecuteStreamRound_eq, ended_collected] at h
  exact executor.settled.executeNextStreamStep_descends traceKey publisher _ _ hbusy h

def streamContext (context : GraphRunContext W V) :
    Generated (Chunk V) (Halt W V) (GraphRunContext W V) := do
  yieldAll (publisher.events context.startEvent)
  let context ← whileLoop GraphRunContext.busy (executor.executeNextStreamStep traceKey publisher)
    executor.rank (executor.executeNextStreamStep_descends traceKey publisher) (context.publish context.startEvent)
  let context := context.recordTrace traceKey
  yieldAll (publisher.events context.completeEvent)
  pure (context.publish context.completeEvent)

def astreamContext (context : GraphRunContext W V) :
    Generated (Chunk V) (Halt W V) (GraphRunContext W V) := do
  yieldAll (publisher.events context.startEvent)
  let context ← whileLoop GraphRunContext.busy (executor.aexecuteStreamRound traceKey publisher)
    executor.rank (executor.aexecuteStreamRound_descends traceKey publisher)
    (context.publish context.startEvent)
  let context := context.recordTrace traceKey
  yieldAll (publisher.events context.completeEvent)
  pure (context.publish context.completeEvent)

variable (runtime : RuntimeGraphRuntime W V) (streamMode : StreamModes)

def openStream (initialState : RuntimeState V) (world : W) :
    Except (Halt W V) (StreamPublisher W V × GraphRunContext W V) :=
  let context := executor.fromInitial initialState (runtime.installSink world)
  match validatedStreamModes streamMode with
  | .error error => .error (.failed error world)
  | .ok modes =>
    match StreamPublisher.checkpointsOf runtime modes with
    | .error error => .error (.failed error context.world)
    | .ok checkpoints =>
      .ok (⟨modes, streamMode.multiMode, runtime.customValues, checkpoints⟩, context)

omit [RuntimeValue V] in
variable {executor runtime streamMode} in
theorem openStream_context {initialState : RuntimeState V} {world : W}
    {opened : StreamPublisher W V × GraphRunContext W V}
    (h : executor.openStream runtime streamMode initialState world = .ok opened) :
    opened.2 = executor.fromInitial initialState (runtime.installSink world) := by
  unfold openStream at h
  split at h
  · cases h
  · split at h
    · cases h
    · cases h
      rfl

def stream (initialState : RuntimeState V) (world : W) :
    Generated (Chunk V) (Halt W V) (GraphRunContext W V) := do
  let opened ← silently (executor.openStream runtime streamMode initialState world)
  executor.streamContext traceKey opened.1 opened.2

def astream (initialState : RuntimeState V) (world : W) :
    Generated (Chunk V) (Halt W V) (GraphRunContext W V) := do
  let opened ← silently (executor.openStream runtime streamMode initialState world)
  executor.astreamContext traceKey opened.1 opened.2

theorem astream_of_completed (hsync : executor.Synchronous) {initialState : RuntimeState V}
    {world : W} {context : GraphRunContext W V}
    (h : (executor.stream traceKey runtime streamMode initialState world).ended = .ok context) :
    executor.astream traceKey runtime streamMode initialState world =
      executor.stream traceKey runtime streamMode initialState world := by
  rw [stream, astream] at *
  cases hopened : executor.openStream runtime streamMode initialState world with
  | error halt => rfl
  | ok opened =>
    rw [hopened, silently_ok_bind, streamContext, ended_bind, ended_yieldAll] at h
    obtain ⟨stopped, hstopped, -⟩ : ∃ stopped, (whileLoop busy
        (executor.executeNextStreamStep traceKey opened.1) executor.rank
        (executor.executeNextStreamStep_descends traceKey opened.1) (opened.2.publish opened.2.startEvent)).ended =
        .ok stopped ∧ _ := bind_eq_ok.1 (by rw [← ended_bind]; exact h)
    have hround : ∀ context, executor.aexecuteStreamRound traceKey opened.1 context =
        (executor.executeNextStreamStep traceKey opened.1 context).collected := by
      intro context
      rw [aexecuteStreamRound_eq, settled_eq hsync]
    have hdescends : Descends busy
        (fun context => (executor.executeNextStreamStep traceKey opened.1 context).collected)
        executor.rank := by
      intro s s' hs hs'
      exact executor.executeNextStreamStep_descends traceKey opened.1 s s' hs ((ended_collected _).symm.trans hs')
    have hloop := whileLoop_congr (executor.aexecuteStreamRound_descends traceKey opened.1)
      hdescends hround (opened.2.publish opened.2.startEvent)
    rw [whileLoop_collected (executor.executeNextStreamStep_descends traceKey opened.1) hdescends hstopped] at hloop
    rw [silently_ok_bind, silently_ok_bind, astreamContext, streamContext, hloop]

end RuntimeGraphExecutor

end PooFlow
