import PooFlow.Graph.Checkpoint
import PooFlow.Graph.Resumption

/-! `_program_runtime.py`: a program keeps its plan in the state under a reserved key while it runs.
A thread saves the outcome or the interruption of a run. -/

namespace PooFlow

open Foundation Generated

variable {W V : Type}

def planStateKey : String := "_poo_flow_runtime_graph_plan"

/-- A program: its plan as a value, the receipt that the native library issues
for the plan and the digest read from it, and the executor its registries give. -/
structure RuntimeGraphProgram (W V : Type) where
  planValue : V
  describe : Except GraphError (List UInt8)
  planDigest : List UInt8 → Option String
  executor : Except GraphError (RuntimeGraphExecutor W V)

structure RuntimeGraphExecution (W V : Type) where
  state : RuntimeState V
  trace : List String
  validationReceipt : List UInt8
  events : List (RuntimeGraphEvent V)
  world : W

def publicState (state : RuntimeState V) : RuntimeState V := state.erase planStateKey

/-- What is asked of two states shows no difference: not in public, and not to
the code of the executor. -/
structure RuntimeGraphExecutor.Alike (executor : RuntimeGraphExecutor W V)
    (state state' : RuntimeState V) : Prop where
  shown : publicState state' = publicState state
  reducers : ∀ key reducer, executor.reducers key = some reducer →
    state'.lookup key = state.lookup key
  actions : ∀ node action, executor.actions node = some action → action state' = action state
  routers : ∀ name router, executor.routers name = some router → router state' = router state

/-- The states are alike, and stay so whatever is set in both. -/
def RuntimeGraphExecutor.Indistinct (executor : RuntimeGraphExecutor W V)
    (state state' : RuntimeState V) : Prop :=
  ∀ entries, executor.Alike (state.update entries) (state'.update entries)

theorem RuntimeGraphExecutor.indistinct_self (executor : RuntimeGraphExecutor W V)
    (state : RuntimeState V) : executor.Indistinct state state :=
  fun _ => ⟨rfl, fun _ _ _ => rfl, fun _ _ _ => rfl, fun _ _ _ => rfl⟩

/-- The states are indistinct, and the first holds a plan. -/
structure RuntimeGraphExecutor.Replanned (executor : RuntimeGraphExecutor W V)
    (state state' : RuntimeState V) : Prop where
  indistinct : executor.Indistinct state state'
  plan : (state.lookup planStateKey).isSome

theorem RuntimeGraphExecutor.Replanned.shown {executor : RuntimeGraphExecutor W V}
    {state state' : RuntimeState V} (h : executor.Replanned state state') :
    publicState state' = publicState state :=
  (h.indistinct []).shown

theorem RuntimeGraphExecutor.respects_replanned (executor : RuntimeGraphExecutor W V) :
    executor.Respects executor.Replanned where
  insert key value h :=
    ⟨fun entries => h.indistinct ((key, value) :: entries), Mapping.isSome_lookup_insert _ h.plan⟩
  reducers hreducer h := (h.indistinct []).reducers _ _ hreducer
  actions haction h := (h.indistinct []).actions _ _ haction
  routers hrouter h := (h.indistinct []).routers _ _ hrouter

namespace RuntimeGraphProgram

variable (program : RuntimeGraphProgram W V)

def internalState (state : RuntimeState V) : RuntimeState V :=
  state.insert planStateKey program.planValue

/-- A plan that is the last of the state is put back where it was. -/
theorem internalState_publicState {state : RuntimeState V} {l : List (String × V)}
    (h : state.entries = l ++ [(planStateKey, program.planValue)]) :
    program.internalState (publicState state) = state :=
  state.insert_erase h

def execution (receipt : List UInt8) (outcome : GraphOutcome W V) : RuntimeGraphExecution W V where
  state := publicState outcome.state
  trace := outcome.trace
  validationReceipt := receipt
  events := outcome.events
  world := outcome.world

def publicInterrupted (receipt : List UInt8) (interrupted : RuntimeGraphInterrupted V) :
    RuntimeGraphInterrupted V :=
  { interrupted with
    state := publicState interrupted.state
    validationReceipt := receipt
    planDigest := program.planDigest receipt }

def handBack (receipt : List UInt8) :
    Except (Halt W V) (GraphOutcome W V) → Except (Halt W V) (RuntimeGraphExecution W V)
  | .ok outcome => .ok (execution receipt outcome)
  | .error (.interrupted interrupted world) =>
    .error (.interrupted (program.publicInterrupted receipt interrupted) world)
  | .error (.failed error world) => .error (.failed error world)

structure ExecutionTracks {Q : Type} (q : Q) (execution : RuntimeGraphExecution W V)
    (other : RuntimeGraphExecution (W × Q) V) : Prop where
  state : other.state = execution.state
  trace : other.trace = execution.trace
  validationReceipt : other.validationReceipt = execution.validationReceipt
  world : other.world = (execution.world, q)

/-- The records that are raised are the same, but for the events in them. -/
structure SameRaised (interrupted other : RuntimeGraphInterrupted V) : Prop extends
    SameInterruption Eq interrupted other where
  validationReceipt : other.validationReceipt = interrupted.validationReceipt
  planDigest : other.planDigest = interrupted.planDigest

/-- The runs of programs end with the same public state, trace and receipt, the
same interruption as it is raised, or the same error. -/
def ProgramsAgree {Q : Type} (q : Q) : Except (Halt W V) (RuntimeGraphExecution W V) →
      Except (Halt (W × Q) V) (RuntimeGraphExecution (W × Q) V) → Prop :=
  Ends (HaltTracks SameRaised q) (ExecutionTracks q)

theorem ProgramsAgree.raised {Q : Type} {q : Q} {x : Except (Halt W V) (RuntimeGraphExecution W V)}
    {again : RuntimeGraphInterrupted V} {world : W × Q}
    (h : ProgramsAgree q x (.error (.interrupted again world))) :
    ∃ interrupted world, x = .error (.interrupted interrupted world) ∧
      again.step = interrupted.step := by
  cases h with
  | error hhalt =>
    cases hhalt with
    | interrupted hsame world => exact ⟨_, world, rfl, hsame.step⟩

section

variable {program} {receipt : List UInt8}

/-- A resumed run hands on the record of its executor, with the plan in its
state: it agrees with a run from an input unless that is interrupted. -/
theorem programsAgree_iff {Q : Type} {q : Q} {other : RuntimeGraphProgram (W × Q) V}
    {executor : RuntimeGraphExecutor W V} {x : Except (Halt W V) (GraphOutcome W V)}
    {y : Except (Halt (W × Q) V) (GraphOutcome (W × Q) V)}
    (h : RunsAgree executor.Replanned q x y) :
    ProgramsAgree q (x.map (execution receipt)) (other.handBack receipt y) ↔
      RuntimeGraphExecutor.NeverInterrupts (other.handBack receipt y) := by
  cases h with
  | ok houtcome =>
    exact iff_of_true (.ok ⟨houtcome.state.shown, houtcome.trace, rfl, houtcome.world⟩) nofun
  | error hhalt =>
    cases hhalt with
    | failed error world => exact iff_of_true (.error (.failed error world)) nofun
    | @interrupted interrupted other hsame world =>
      refine iff_of_false ?_ fun hnever => hnever _ _ rfl
      intro hagree
      cases hagree with
      | error hraised =>
        cases hraised with
        | interrupted hraised _ =>
          have hplan := hsame.state.plan
          rw [show interrupted.state = publicState other.state from hraised.state, publicState,
            Mapping.lookup_erase] at hplan
          exact Bool.false_ne_true hplan

end

section

variable [RuntimeValue V] (traceKey : Option String)

def invokeWithTrace (initialState : RuntimeState V) (world : W) :
    Except (Halt W V) (RuntimeGraphExecution W V) :=
  match program.describe, program.executor with
  | .error error, _ => .error (.failed error world)
  | .ok _, .error error => .error (.failed error world)
  | .ok receipt, .ok executor =>
    program.handBack receipt
      (executor.invokeWithEvents traceKey (program.internalState initialState) world)

def digestMismatch (interrupted : RuntimeGraphInterrupted V) (planDigest : Option String) : Bool :=
  match interrupted.planDigest with
  | none => false
  | some digest => digest ≠ "" && some digest ≠ planDigest

def resumeInterrupted (interrupted : RuntimeGraphInterrupted V)
    (resumeResult : Called W (RuntimeActionResult V)) (world : W) :
    Except (Halt W V) (RuntimeGraphExecution W V) :=
  match program.describe with
  | .error error => .error (.failed error world)
  | .ok receipt =>
    if digestMismatch interrupted (program.planDigest receipt) then
      .error (.failed (.runtimeGraph "runtime graph plan digest mismatch before resume") world)
    else
      -- the receipt and the digest are those of the plan as it is now
      let resumed : RuntimeGraphInterrupted V :=
        { interrupted with
          state := program.internalState interrupted.state
          validationReceipt := receipt
          planDigest := program.planDigest receipt }
      match program.executor with
      | .error error => .error (.failed error world)
      | .ok executor =>
        (executor.resumeInterrupted traceKey resumed resumeResult world).map
          (execution receipt)

def checkpointFromExecution (threadId : String) (execution : RuntimeGraphExecution W V) :
    RuntimeGraphCheckpoint V where
  checkpointId := ""
  threadId := threadId
  interrupt := none
  node := execution.trace.getLast?.getD ""
  step := (execution.events.map (·.step)).max?.getD execution.trace.length
  state := execution.state
  trace := execution.trace
  pending := []
  events := execution.events
  validationReceipt := execution.validationReceipt
  planDigest := program.planDigest execution.validationReceipt

variable (threadId freshId : String) (checkpointer : MemoryRuntimeGraphCheckpointer V)

/-- `invoke_thread`: how the run ended, and the checkpointer after it. -/
def invokeThread (initialState : RuntimeState V) (world : W) :
    Except (Halt W V) (RuntimeGraphExecution W V) × MemoryRuntimeGraphCheckpointer V :=
  match program.invokeWithTrace traceKey initialState world with
  | .ok execution =>
    (.ok execution,
      (checkpointer.save freshId (program.checkpointFromExecution threadId execution)).2)
  | .error (.interrupted interrupted world) =>
    (.error (.interrupted interrupted world),
      checkpointer.saveInterrupted freshId threadId interrupted)
  | .error (.failed error world) => (.error (.failed error world), checkpointer)

def resumeThread (resumeResult : Called W (RuntimeActionResult V)) (clear : Bool) (world : W) :
    Except (Halt W V) (RuntimeGraphExecution W V) × MemoryRuntimeGraphCheckpointer V :=
  match checkpointer.loadInterrupted threadId with
  | .error error => (.error (.failed error world), checkpointer)
  | .ok interrupted =>
    match program.resumeInterrupted traceKey interrupted resumeResult world with
    | .error halt => (.error halt, checkpointer)
    | .ok execution =>
      (.ok execution, if clear then checkpointer.clear threadId else checkpointer)

def answering : RuntimeGraphProgram (W × List (RuntimeActionResult V)) V where
  planValue := program.planValue
  describe := program.describe
  planDigest := program.planDigest
  executor := program.executor.map RuntimeGraphExecutor.answering

variable {program traceKey}

variable {receipt : List UInt8}

theorem invokeWithTrace_of_ok (program : RuntimeGraphProgram W V) (traceKey : Option String)
    (initialState : RuntimeState V) (world : W) {executor : RuntimeGraphExecutor W V}
    (hreceipt : program.describe = .ok receipt) (hexecutor : program.executor = .ok executor) :
    program.invokeWithTrace traceKey initialState world = program.handBack receipt
      (executor.invokeWithEvents traceKey (program.internalState initialState) world) := by
  rw [invokeWithTrace, hreceipt, hexecutor]

variable {interrupted : RuntimeGraphInterrupted V} {world : W}

variable {executor : RuntimeGraphExecutor W V} {answer : RuntimeActionResult V}
  {initialState : RuntimeState V} {world' : W}

theorem resumeInterrupted_tracks
    (hi : executor.invokeWithEvents traceKey (program.internalState initialState) world =
      .error (.interrupted interrupted world'))
    (hplace : executor.Indistinct (program.internalState (publicState interrupted.state))
      interrupted.state) (hanswer : ¬answer.Interrupts) :
    RunsAgree executor.Replanned [] (executor.resumeInterrupted traceKey
        { interrupted with state := program.internalState (publicState interrupted.state) }
        (.value answer) world')
      (executor.answering.invokeWithEvents traceKey (program.internalState initialState)
        (world, [answer])) := by
  have hstopped : executor.Stopped traceKey answer _ _ _ := RuntimeGraphExecutor.stopped_invoke hi
  have hplan : ((program.internalState (publicState interrupted.state)).lookup
      planStateKey).isSome := by
    rw [internalState, Mapping.lookup_insert]
    rfl
  have hrestored : executor.Replanned (program.internalState (publicState interrupted.state))
      interrupted.state := ⟨hplace, hplan⟩
  exact hstopped.agrees hanswer executor.respects_replanned hrestored

section

variable (hreceipt : program.describe = .ok receipt) (hexecutor : program.executor = .ok executor)

include hreceipt hexecutor

theorem resumeInterrupted_publicInterrupted {answer : Called W (RuntimeActionResult V)} :
    program.resumeInterrupted traceKey (program.publicInterrupted receipt interrupted) answer
        world =
      (executor.resumeInterrupted traceKey
        { interrupted with state := program.internalState (publicState interrupted.state) }
        answer world).map (execution receipt) := by
  have hdigest : digestMismatch (program.publicInterrupted receipt interrupted)
      (program.planDigest receipt) = false := by
    rw [digestMismatch, publicInterrupted]
    cases program.planDigest receipt <;> simp
  rw [resumeInterrupted, hreceipt]
  dsimp only
  rw [if_neg (by rw [hdigest]; exact Bool.false_ne_true), hexecutor]
  rfl

theorem answering_invokeWithTrace (answers : List (RuntimeActionResult V)) :
    program.answering.invokeWithTrace traceKey initialState (world, answers) =
      program.answering.handBack receipt (executor.answering.invokeWithEvents traceKey
        (program.internalState initialState) (world, answers)) :=
  program.answering.invokeWithTrace_of_ok traceKey initialState (world, answers) hreceipt
    (congrArg (Except.map RuntimeGraphExecutor.answering) hexecutor)

variable (hi : executor.invokeWithEvents traceKey (program.internalState initialState) world =
  .error (.interrupted interrupted world'))

include hi

theorem answering_interrupts (hanswer : answer.Interrupts) : ∃ again world'',
      program.answering.invokeWithTrace traceKey initialState (world, [answer]) =
        .error (.interrupted again world'') ∧ again.step = interrupted.step := by
  have hstopped : executor.Stopped traceKey answer _ _ _ := RuntimeGraphExecutor.stopped_invoke hi
  obtain ⟨again, world'', hagain, hstep⟩ := hstopped.interrupts hanswer
  rw [answering_invokeWithTrace hreceipt hexecutor, hagain]
  exact ⟨_, _, rfl, hstep⟩

/-- **A program's interruption and answer.** Where nothing tells the state put
back from the interrupted one, the resumption goes on as the run that was
answered at once, exactly when that run is not interrupted. -/
theorem resumeInterrupted_agrees (hplace : executor.Indistinct
      (program.internalState (publicState interrupted.state)) interrupted.state) :
    ProgramsAgree [] (program.resumeInterrupted traceKey
        (program.publicInterrupted receipt interrupted) (.value answer) world')
      (program.answering.invokeWithTrace traceKey initialState (world, [answer])) ↔
      RuntimeGraphExecutor.NeverInterrupts
        (program.answering.invokeWithTrace traceKey initialState (world, [answer])) := by
  by_cases hanswer : answer.Interrupts
  · obtain ⟨again, world'', hagain, hstep⟩ := answering_interrupts hreceipt hexecutor hi hanswer
    rw [hagain, resumeInterrupted_publicInterrupted hreceipt hexecutor]
    refine iff_of_false ?_ fun hnever => hnever _ _ rfl
    intro hagree
    obtain ⟨resumed, world, hresumed, hsame⟩ := hagree.raised
    -- the resumed run could only stop at a later step
    have hlater := RuntimeGraphExecutor.resumeInterrupted_later (map_eq_error.1 hresumed)
    exact absurd hlater (by rw [← hsame, hstep]; exact Nat.lt_irrefl _)
  · rw [answering_invokeWithTrace hreceipt hexecutor,
      resumeInterrupted_publicInterrupted hreceipt hexecutor]
    exact programsAgree_iff (resumeInterrupted_tracks hi hplace hanswer)

end

end

end RuntimeGraphProgram

/-- **Interruption and answer.** An interrupted run, started from an input or
itself resumed, that is resumed with `answer` ends as the run in which the
interrupted node had answered so at once, exactly when the answer is not an
interrupt; a program's does, where nothing tells the state put back from the
interrupted one, exactly when the answered run is not interrupted at all. -/
theorem resumption_iff [RuntimeValue V] (traceKey : Option String)
    (answer : RuntimeActionResult V) :
    (∀ (executor : RuntimeGraphExecutor W V) initialState world interrupted world',
      executor.invokeWithEvents traceKey initialState world =
        .error (.interrupted interrupted world') →
      (RunsAgree Eq [] (executor.resumeInterrupted traceKey interrupted (.value answer) world')
        (executor.answering.invokeWithEvents traceKey initialState (world, [answer])) ↔
          ¬answer.Interrupts)) ∧
    (∀ (executor : RuntimeGraphExecutor W V) resumed resumeResult world interrupted world',
      executor.resumeInterrupted traceKey resumed (.value resumeResult) world =
        .error (.interrupted interrupted world') →
      (RunsAgree Eq [] (executor.resumeInterrupted traceKey interrupted (.value answer) world')
        (executor.answering.resumeInterrupted traceKey resumed (.value resumeResult)
          (world, [answer])) ↔ ¬answer.Interrupts)) ∧
    ∀ (program : RuntimeGraphProgram W V) executor receipt initialState world interrupted world',
      program.describe = .ok receipt → program.executor = .ok executor →
      executor.invokeWithEvents traceKey (program.internalState initialState) world =
        .error (.interrupted interrupted world') →
      executor.Indistinct (program.internalState (publicState interrupted.state))
        interrupted.state →
      (RuntimeGraphProgram.ProgramsAgree [] (program.resumeInterrupted traceKey
          (program.publicInterrupted receipt interrupted) (.value answer) world')
        (program.answering.invokeWithTrace traceKey initialState (world, [answer])) ↔
          RuntimeGraphExecutor.NeverInterrupts
            (program.answering.invokeWithTrace traceKey initialState (world, [answer]))) := by
  refine ⟨?_, ?_, ?_⟩
  · intro executor initialState world interrupted world' hi
    exact (RuntimeGraphExecutor.stopped_invoke hi).agrees_iff
  · intro executor resumed resumeResult world interrupted world' hi
    exact (RuntimeGraphExecutor.stopped_resume hi).agrees_iff
  · intro program executor receipt initialState world interrupted world' hreceipt hexecutor hi hplace
    exact RuntimeGraphProgram.resumeInterrupted_agrees hreceipt hexecutor hi hplace

def reviewPending : RuntimeGraphInterrupted (List String) :=
  { reviewInterrupted with pending := [.node "review"], events := [] }

def reviewAgain : RuntimeGraphInterrupted (List String) where
  interrupt := reviewQuestion
  node := "review"
  step := 2
  state := ∅
  trace := ["review", "review"]
  pending := [.node graphEnd]
  events := [⟨.resume, some "review", 1, .finished false [] [] []⟩,
    ⟨.start, none, 0, .started [.node "review", .node graphEnd]⟩,
    ⟨.nodeStart, some "review", 2, .nodeStarted [] ["review", "review"]⟩,
    ⟨.interrupt, some "review", 2, .interrupted ["approve?"] true ["review", "review"]⟩]

theorem review_interrupted_again :
    askingReview.resumeInterrupted none reviewPending
      (.value (.update .absent)) () = .error (.interrupted reviewAgain ()) :=
  RuntimeGraphExecutor.resumeInterrupted_of_unrolled (n := 1)
    (x := .error (.interrupted reviewAgain ())) _ none rfl rfl

def programOf (executor : RuntimeGraphExecutor Unit (List String)) :
    RuntimeGraphProgram Unit (List String) where
  planValue := ["plan"]
  describe := .ok []
  planDigest := fun _ => some "digest"
  executor := .ok executor

def reviewProgram : RuntimeGraphProgram Unit (List String) := programOf askingReview

def reviewInside : RuntimeGraphInterrupted (List String) :=
  { reviewInterrupted with state := reviewProgram.internalState ∅ }

theorem review_interrupted_inside : askingReview.invokeWithEvents none
      (reviewProgram.internalState ∅) () =
      .error (.interrupted reviewInside ()) :=
  RuntimeGraphExecutor.invokeWithEvents_of_unrolled (n := 1)
    (x := .error (.interrupted reviewInside ())) _ none rfl

def reviewAnswered : GraphRunContext (Unit × List (RuntimeActionResult (List String)))
    (List String) :=
  askingReview.answering.fromInitial (reviewProgram.internalState ∅) ((), [.update .absent])

theorem reviewAnswered_ends :
    (unrolled GraphRunContext.busy (askingReview.answering.executeNextEventStep none) 4
      (reviewAnswered.publish reviewAnswered.startEvent)).isSome = true := by
  decide +kernel

theorem review_answered :
    (reviewProgram.answering.invokeWithTrace none ∅ ((), [.update .absent])).toOption.isSome := by
  have hanswered := RuntimeGraphExecutor.invokeWithEvents_of_unrolled askingReview.answering none
    (Option.some_get reviewAnswered_ends).symm
  rw [RuntimeGraphProgram.invokeWithTrace_of_ok reviewProgram.answering none ∅
    ((), [RuntimeActionResult.update .absent]) rfl rfl]
  refine (congrArg (fun run => (reviewProgram.answering.handBack [] run).toOption.isSome = true)
    hanswered).mpr ?_
  decide +kernel

/-- A review that was interrupted, that asked again, or that runs in a program,
goes on as if it had answered at once. -/
theorem review_resumption :
    RunsAgree Eq [] (askingReview.resumeInterrupted none reviewInterrupted
        (.value (.update .absent)) ())
      (askingReview.answering.invokeWithEvents none ∅ ((), [.update .absent])) ∧
    RunsAgree Eq [] (askingReview.resumeInterrupted none reviewAgain (.value (.update .absent)) ())
      (askingReview.answering.resumeInterrupted none reviewPending (.value (.update .absent))
        ((), [.update .absent])) ∧
    RuntimeGraphProgram.ProgramsAgree []
      (reviewProgram.resumeInterrupted none (reviewProgram.publicInterrupted [] reviewInside)
        (.value (.update .absent)) ())
      (reviewProgram.answering.invokeWithTrace none ∅ ((), [.update .absent])) := by
  obtain ⟨hinvoked, hresumed, hprogram⟩ :=
    resumption_iff (W := Unit) none (RuntimeActionResult.update (V := List String) .absent)
  refine ⟨?_, ?_, ?_⟩
  · exact (hinvoked _ ∅ () _ () review_interrupted).2 (by decide)
  · exact (hresumed _ _ _ () _ () review_interrupted_again).2 (by decide)
  · have hplace : reviewProgram.internalState (publicState reviewInside.state) =
        reviewInside.state := reviewProgram.internalState_publicState (l := []) rfl
    refine (hprogram reviewProgram _ [] ∅ () _ () rfl rfl review_interrupted_inside ?_).2 ?_
    · rw [hplace]
      exact askingReview.indistinct_self _
    · exact RuntimeGraphExecutor.neverInterrupts_of_isSome review_answered

/-- A review answered with a question of its own goes on as if nothing had been asked. -/
theorem review_question_dropped :
    ¬RunsAgree Eq [] (askingReview.resumeInterrupted none reviewInterrupted
        (.value (.interrupt reviewQuestion)) ())
      (askingReview.answering.invokeWithEvents none ∅ ((), [.interrupt reviewQuestion])) := by
  rw [(RuntimeGraphExecutor.stopped_invoke review_interrupted).agrees_iff]
  decide

end PooFlow
