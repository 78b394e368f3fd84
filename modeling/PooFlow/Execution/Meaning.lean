import PooFlow.Execution.Runner
import PooFlow.Foundation.Guard

namespace PooFlow.Execution

open Foundation Logged List Function

variable {α : Type}

abbrev Outcome (α : Type) := Except (Raised α) (Value α × Option (Option (Failure α)))

def failedError (receipt : Receipt α) : Option (Option (Failure α)) :=
  (firstFailedReceipt receipt).map Receipt.error

def failedErrorIn (receipts : List (Receipt α)) : Option (Option (Failure α)) :=
  (firstFailedReceiptIn receipts).map Receipt.error

def outcome (result : Except (Raised α) (Value α × Receipt α)) : Outcome α :=
  result.map fun returned => (returned.1, failedError returned.2)

structure Runner.Standard (runner : Runner α) : Prop where
  strategy : runner.strategy = localEager ∨ runner.strategy = cachedLocalEager
  flows : ∀ kind ∈ ["empty", "branch", "task", "sequential"], ∃ declaration,
    runner.flowRegistry.find? (·.kind = kind) = some declaration ∧
      declaration.planner = "linear-dag"

def noPolicy : Policy := ⟨"", "", "", [], [], "", ""⟩

def taskNormalizedRequest (task : Task α) (input : Value α) : Request α :=
  taskAdapterRequest task input "" ⟨"", 0, "", ""⟩ [] "" noPolicy

structure Adapter.PerRequest (adapter : Adapter α) : Prop where
  submitter : ∀ log task input planId nodeId frontier strategy policy,
    adapter.submitter log (taskAdapterRequest task input planId nodeId frontier strategy policy) =
      adapter.submitter [] (taskNormalizedRequest task input)
  storePutter : ∀ log task input planId nodeId frontier strategy policy, adapter.storePutter log
        (taskAdapterRequest task input planId nodeId frontier strategy policy) =
      adapter.storePutter [] (taskNormalizedRequest task input)
  storeGetter : ∀ log payload, adapter.storeGetter log payload = adapter.storeGetter [] payload

section

variable (runner : Runner α)

def taskMeaning (task : Task α) (input : Value α) :
    Except (Raised α) (Value α × Option (Option (Failure α))) := do
  let family ← taskFamilyForKind runner task.kind
  if family.capability ∈ runner.strategy.capabilities ∧ family.route = "local" then do
    let value ← execute task input
    return (value, none)
  else if family.route = "adapter" then do
    let result ←
      ((adapterResultForTask runner family task (taskNormalizedRequest task input)).run []).1
    return (.answer result, (adapterResultFailure runner.adapter result).map some)
  else .error (.failure (.unsupportedTaskKind task.kind))

def thenMeaning (first second : Value α → Outcome α) (input : Value α) : Outcome α :=
  (first input).bind fun result =>
    (second result.1).map fun last => (last.1, result.2.or last.2)

def branchMeaning (left right : Value α → Outcome α) (input : Value α) : Outcome α :=
  (left input).bind fun first =>
    (right input).map fun second => (.list [first.1, second.1], first.2.or second.2)

def leftOrRight (result : Value α × Option (Option (Failure α))) : Value α :=
  match result.2 with
  | some error => .tryLeft error
  | none => .tryRight result.1

def tryMeaning (source : Value α → Outcome α) (input : Value α) : Outcome α :=
  match source input with
  | .ok result => .ok (leftOrRight result, result.2)
  | .error (.failure failure) => .ok (.tryLeft (some failure), none)
  | .error (.exception message) => .error (.exception message)

def kleisliMeaning (source : Value α → Outcome α) (binder : Value α → Value α → Outcome α)
    (input : Value α) : Outcome α :=
  (source input).bind fun result =>
    match result.2 with
    | some error => .ok (result.1, some error)
    | none => binder result.1 result.1

def validateActions : List (Action α) → Except (Raised α) Unit
  | [] => .ok ()
  | action :: actions => do
    validateStep runner action
    validateActions actions

mutual

/-- **What a flow computes.** -/
def Flow.meaning : Flow α → Value α → Outcome α
  | .mk _ steps _ _ => fun input =>
    (validateActions runner (stepActions runner steps)).bind fun _ => stepsMeaning steps input

def stepsMeaning : List (Step α) → Value α → Outcome α
  | [] => fun input => .ok (input, none)
  | step :: steps => thenMeaning step.meaning (stepsMeaning steps)

def Step.meaning : Step α → Value α → Outcome α
  | .task task => taskMeaning runner task
  | .flow flow => flow.meaning
  | .branch _ left right _ _ => branchMeaning left.meaning right.meaning
  | .try _ source _ _ => tryMeaning source.meaning
  | .kleisli _ source binder _ _ =>
    kleisliMeaning source.meaning fun value => (binder value).meaning

end

end

theorem firstFailedReceiptIn_append (receipts later : List (Receipt α)) :
    firstFailedReceiptIn (receipts ++ later) =
      (firstFailedReceiptIn receipts).or (firstFailedReceiptIn later) := by
  induction receipts with
  | nil => rfl
  | cons receipt receipts ih =>
    rw [cons_append, firstFailedReceiptIn, ih, firstFailedReceiptIn, Option.or_assoc]

theorem failedErrorIn_append (receipts later : List (Receipt α)) :
    failedErrorIn (receipts ++ later) = (failedErrorIn receipts).or (failedErrorIn later) := by
  rw [failedErrorIn, firstFailedReceiptIn_append, failedErrorIn, failedErrorIn]
  cases firstFailedReceiptIn receipts <;> rfl

theorem failedErrorIn_singleton (receipt : Receipt α) :
    failedErrorIn [receipt] = failedError receipt := by
  rw [failedErrorIn, firstFailedReceiptIn, firstFailedReceiptIn, Option.or_none, failedError]

section

variable (P : Task α → Prop)

mutual

/-- Every task of a flow, also of the flows that its binders choose. -/
def Flow.Each : Flow α → Prop
  | .mk _ steps _ _ => StepsEach steps

def StepsEach : List (Step α) → Prop
  | [] => True
  | step :: steps => step.Each ∧ StepsEach steps

def Step.Each : Step α → Prop
  | .task task => P task
  | .flow flow => flow.Each
  | .branch _ left right _ _ => left.Each ∧ right.Each
  | .try _ source _ _ => source.Each
  | .kleisli _ source binder _ _ => source.Each ∧ ∀ value, (binder value).Each

end

variable {P}

mutual

theorem Flow.each_of_forall (h : ∀ task, P task) : ∀ flow : Flow α, flow.Each P
  | .mk _ steps _ _ => stepsEach_of_forall h steps

theorem stepsEach_of_forall (h : ∀ task, P task) : ∀ steps : List (Step α), StepsEach P steps
  | [] => trivial
  | step :: steps => ⟨step.each_of_forall h, stepsEach_of_forall h steps⟩

theorem Step.each_of_forall (h : ∀ task, P task) : ∀ step : Step α, step.Each P
  | .task task => h task
  | .flow flow => flow.each_of_forall h
  | .branch _ left right _ _ => ⟨left.each_of_forall h, right.each_of_forall h⟩
  | .try _ source _ _ => source.each_of_forall h
  | .kleisli _ source binder _ _ =>
    ⟨source.each_of_forall h, fun value => (binder value).each_of_forall h⟩

end

end

section

variable {runner : Runner α} {flowName : String} {task : Option String} {kind : String}
  {nodeId : Option NodeId} {input output : Value α} {cache : CacheDecision α}
  {frontier : List NodeId} {error : Option (Failure α)} {children : List (Receipt α)}

theorem failedError_localReceipt :
    failedError (localReceipt runner flowName task kind nodeId input output cache frontier "ok" error
      children) = failedErrorIn children := by
  rw [failedError, localReceipt, firstFailedReceipt,
    if_neg (show "ok" ≠ "failed" by decide), failedErrorIn]

variable {plan : ExecutionPlan α} {node : PlanNode α}

theorem failedError_kleisliReceipt
    {failed : Option (Receipt α)} (h : failed = none → failedErrorIn children = none) :
    failedError (kleisliReceipt runner plan node input output frontier failed children) =
      failed.map Receipt.error := by
  rw [failedError, kleisliReceipt, localReceipt, firstFailedReceipt]
  cases failed with
  | none =>
    have hnone := h rfl
    rw [failedErrorIn] at hnone
    rw [if_neg (by simp)]
    exact hnone
  | some failed => rfl

theorem failedError_adapterReceipt
    {family : TaskFamily α} {task : Task α} {result : AdapterResult α} :
    failedError (adapterReceipt runner plan node family task input frontier result) =
      (adapterResultFailure runner.adapter result).map some := by
  rw [failedError, adapterReceipt, firstFailedReceipt, adapterReceiptStatus,
    isSome_adapterResultFailure]
  dsimp only
  cases hfailure : adapterResultFailure runner.adapter result with
  | some failure =>
    have hfailed : result.failed = true := by
      rw [← isSome_adapterResultFailure runner.adapter, hfailure]
      rfl
    rw [hfailed]
    rfl
  | none =>
    have hfailed : result.failed = false := by
      rw [← isSome_adapterResultFailure runner.adapter, hfailure]
      rfl
    have hstatus : result.status ≠ "failed" := by
      intro heq
      simp [AdapterResult.failed, heq] at hfailed
    rw [hfailed, if_neg (by simpa using hstatus)]
    rfl

end

def Means (run : Value α → Exec α (Value α × Receipt α)) (meaning : Value α → Outcome α) : Prop :=
  ∀ input log, outcome ((run input).run log).1 = meaning input

def ActionMeans (runner : Runner α) (action : Action α) (meaning : Value α → Outcome α) : Prop :=
  ∀ plan node frontier, node.action = action →
    Means (fun input => runPlanNode runner plan node input frontier) meaning

section

variable {runner : Runner α} {meaning : Value α → Outcome α}

theorem means_observed {run : Value α → Exec α (Value α × Receipt α)} (h : Means run meaning)
    (label : Label) (dependencies : List Label) (last : Bool) :
    Means (fun input => observed label dependencies last (run input)) meaning :=
  fun input log => h input log

theorem adapterResultForTask_eq (hadapter : runner.adapter.PerRequest) (family : TaskFamily α)
    (task : Task α) (input : Value α) (plan : ExecutionPlan α) (node : PlanNode α)
    (frontier : List NodeId) (log : List (Event α)) : ((adapterResultForTask runner family task
        (nodeRequest runner plan node task input frontier)).run log).1 =
      ((adapterResultForTask runner family task (taskNormalizedRequest task input)).run []).1 := by
  rw [adapterResultForTask, adapterResultForTask]
  split
  · exact hadapter.storePutter log task input _ _ _ _ _
  · exact hadapter.storeGetter log _
  · exact hadapter.submitter log task input _ _ _ _ _
  · rfl

theorem means_task (hadapter : runner.adapter.PerRequest) (task : Task α) :
    ActionMeans runner (.task task) (taskMeaning runner task) := by
  intro plan node frontier haction input log
  simp only [runPlanNode, haction, runTask, run_bind_fst, run_lift, taskMeaning]
  cases taskFamilyForKind runner task.kind with
  | error condition => rfl
  | ok family =>
    simp only [Except.bind, ok_bind]
    split
    · simp only [run_bind_fst, run_lift]
      cases execute task input with
      | error condition => rfl
      | ok value =>
        exact congrArg (fun error => Except.ok (value, error)) failedError_localReceipt
    · split
      · simp only [run_bind_fst, adapterResultForTask_eq hadapter]
        cases ((adapterResultForTask runner family task
            (taskNormalizedRequest task input)).run []).1 with
        | error condition => rfl
        | ok result =>
          exact congrArg (fun error => Except.ok (Value.answer result, error))
            failedError_adapterReceipt
      · rfl

theorem means_flowNode {nested : Nested α} (h : Means nested.run meaning) :
    ActionMeans runner (.flow nested) meaning := by
  intro plan node frontier haction input log
  simp only [runPlanNode, haction, run_bind_fst, run_pure]
  rw [← h input log]
  cases ((nested.run input).run log).1 with
  | error condition => rfl
  | ok result =>
    refine congrArg (fun error => Except.ok (result.1, error)) ?_
    rw [failedError_localReceipt, failedErrorIn_singleton]

theorem tryValue_eq (result : Value α × Receipt α) :
    tryValue result = leftOrRight (result.1, failedError result.2) := by
  rw [tryValue, leftOrRight, failedError]
  cases firstFailedReceipt result.2 <;> rfl

theorem means_try {name : String} {source : Nested α} (h : Means source.run meaning) :
    ActionMeans runner (.try name source) (tryMeaning meaning) := by
  intro plan node frontier haction input log
  simp only [runPlanNode, haction, runTryStep, tryStepProjection, run_bind_fst, run_pure,
    run_catching_fst, tryMeaning, ← h input log]
  have hobserved : ((observed ⟨node.id, .tried⟩ [] true (source.run input)).run log).1 =
      ((source.run input).run log).1 := rfl
  rw [hobserved]
  rcases ((source.run input).run log).1 with (failure | message) | result
  · exact congrArg (fun error => Except.ok (Value.tryLeft (some failure), error))
      failedError_localReceipt
  · rfl
  · simp only [Except.bind, outcome, Except.map, tryValue_eq, Except.tryCatch]
    rw [failedError_localReceipt, failedErrorIn_singleton]

theorem means_bound {bound : Nested α}
    {boundMeaning : Value α → Outcome α} (hbound : Means bound.run boundMeaning)
    {sourceReceipt : Receipt α} (hsource : firstFailedReceipt sourceReceipt = none)
    (input value : Value α) (frontier : List NodeId) (log : List (Event α)) :
    outcome ((runKleisliBound runner plan node bound input value frontier sourceReceipt).run log).1 =
      boundMeaning value := by
  simp only [runKleisliBound, run_bind_fst, ← hbound value log]
  have hobserved : ((observed ⟨node.id, .bound⟩ [⟨node.id, .source⟩] true (bound.run value)).run
      log).1 = ((bound.run value).run log).1 := rfl
  rw [hobserved]
  rcases ((bound.run value).run log).1 with condition | result
  · rfl
  · refine congrArg (fun error => Except.ok (result.1, error)) (failedError_kleisliReceipt ?_)
    intro hnone
    rw [failedErrorIn, firstFailedReceiptIn, firstFailedReceiptIn, firstFailedReceiptIn, hsource,
      hnone]
    rfl

theorem means_kleisli {name : String} {source : Nested α} {binder : Value α → Nested α}
    {binderMeaning : Value α → Value α → Outcome α} (h : Means source.run meaning)
    (hbinder : ∀ value, Means (binder value).run (binderMeaning value)) :
    ActionMeans runner (.kleisli name source binder) (kleisliMeaning meaning binderMeaning) := by
  intro plan node frontier haction input log
  simp only [runPlanNode, haction, runKleisliStep, run_bind_fst, kleisliMeaning, ← h input log]
  have hobserved : ((observed ⟨node.id, .source⟩ [] true (source.run input)).run log).1 =
      ((source.run input).run log).1 := rfl
  rw [hobserved]
  rcases ((source.run input).run log).1 with condition | result
  · rfl
  · simp only [Except.bind, outcome, Except.map, failedError]
    cases hfailed : firstFailedReceipt result.2 with
    | some failed =>
      exact congrArg (fun error => Except.ok (result.1, error))
        (failedError_kleisliReceipt (fun hnone => by cases hnone))
    | none =>
      exact means_bound (hbinder result.1) hfailed input result.1 frontier _

end

section

variable {runner : Runner α} {plan : ExecutionPlan α} {node : PlanNode α}
  {nodes : List (PlanNode α)} {index : ValueIndex α} {input value : Value α}
  {previous : List NodeId} {meaning : Value α → Outcome α}

def Feeds (previous : List NodeId) (index : ValueIndex α) (input value : Value α) : Prop :=
  previous = [] ∧ value = input ∨ ∃ id, previous = [id] ∧ index id = some value

theorem feeds_put (id : NodeId) : Feeds [id] (index.put id value) input value :=
  .inr ⟨id, rfl, update_self ..⟩

theorem Feeds.put (h : Feeds previous index input value) {id : NodeId} {other : Value α}
    (hid : id ∉ previous) : Feeds previous (index.put id other) input value := by
  rcases h with h | ⟨known, rfl, hknown⟩
  · exact .inl h
  · refine .inr ⟨known, rfl, ?_⟩
    rw [ValueIndex.put, update_of_ne (fun heq => hid (mem_singleton.2 heq.symm)), hknown]

theorem Feeds.nodeInputValue (h : Feeds node.dependencies index input value) :
    nodeInputValue node index input = .ok value := by
  rw [PooFlow.Execution.nodeInputValue]
  rcases h with ⟨hnil, rfl⟩ | ⟨id, hid, hvalue⟩
  · rw [hnil]
  · rw [hid]
    dsimp only
    rw [valueForNodeId, hvalue]

theorem Runner.Standard.admitReadyFrontier (h : runner.Standard) (ids : List NodeId) :
    admitReadyFrontier runner ids = .ok ids := by
  rw [PooFlow.Execution.admitReadyFrontier]
  rcases h.strategy with heq | heq <;> rw [heq] <;> exact if_pos (by decide)

theorem runPlanNodes_cons_of_means (hrunner : runner.Standard)
    (hinput : nodeInputValue node index input = .ok value)
    (hnode : ∀ frontier, Means (fun input => runPlanNode runner plan node input frontier) meaning)
    {result : Outcome α} : meaning value = result → ∀ (rest : List (PlanNode α))
    (receipts : List (Receipt α)) (state : FrontierState) (log : List (Event α)), match result with
    | .ok output => ∃ receipt log', failedError receipt = output.2 ∧
      ((runPlanNodes runner plan (node :: rest) input receipts index state).run log).1 =
        ((runPlanNodes runner plan rest input (receipt :: receipts) (index.put node.id output.1)
          (state.complete node.id)).run log').1
    | .error condition =>
      ((runPlanNodes runner plan (node :: rest) input receipts index state).run log).1 =
        .error condition := by
  rintro rfl rest receipts state log
  have hmeans := means_observed (hnode state.ready) (wholeLabel node.id)
    (node.dependencies.map wholeLabel) rest.isEmpty value
  simp only [runPlanNodes, run_bind_fst, run_lift, hrunner.admitReadyFrontier, hinput, Except.bind]
  generalize hlog : (log ++ ((lift (Except.ok state.ready) : Exec α (List NodeId)).run log).2) ++ _ =
    log'
  rw [← hmeans log']
  rcases (observed (wholeLabel node.id) (node.dependencies.map wholeLabel) rest.isEmpty
    (runPlanNode runner plan node value state.ready)).run log' with
    ⟨condition | returned, events⟩
  · rfl
  · exact ⟨returned.2, _, rfl, rfl⟩

/-- From `index`, the nodes hand the result on to the nodes after them, or raise. -/
def Passes (runner : Runner α) (plan : ExecutionPlan α) (input : Value α) (index : ValueIndex α)
    (nodes : List (PlanNode α)) (terminalIds : List NodeId) : Outcome α → Prop
  | .ok (value, error) => ∀ rest receipts state log, ∃ receipts' index' state' log',
    failedErrorIn receipts'.reverse = (failedErrorIn receipts.reverse).or error ∧
      Feeds terminalIds index' input value ∧
      ((runPlanNodes runner plan (nodes ++ rest) input receipts index state).run log).1 =
        ((runPlanNodes runner plan rest input receipts' index' state').run log').1
  | .error condition => ∀ rest receipts state log,
    ((runPlanNodes runner plan (nodes ++ rest) input receipts index state).run log).1 =
      .error condition

theorem failedErrorIn_reverse_cons (receipt : Receipt α) (receipts : List (Receipt α)) :
    failedErrorIn (receipt :: receipts).reverse =
      (failedErrorIn receipts.reverse).or (failedError receipt) := by
  rw [reverse_cons, failedErrorIn_append, failedErrorIn_singleton]

theorem passes_node (hrunner : runner.Standard)
    (hinput : nodeInputValue node index input = .ok value)
    (hnode : ∀ frontier, Means (fun input => runPlanNode runner plan node input frontier) meaning) :
    Passes runner plan input index [node] [node.id] (meaning value) := by
  cases hvalue : meaning value with
  | ok output =>
    intro rest receipts state log
    obtain ⟨receipt, log', herror, hrun⟩ :=
      runPlanNodes_cons_of_means hrunner hinput hnode hvalue rest receipts state log
    exact ⟨_, _, _, log', by rw [failedErrorIn_reverse_cons, herror], feeds_put _, hrun⟩
  | error condition => exact runPlanNodes_cons_of_means hrunner hinput hnode hvalue

theorem Passes.append {first second : List (PlanNode α)} {middle terminalIds : List NodeId}
    {result : Outcome α} (hfirst : Passes runner plan input index first middle result)
    (hsecond : ∀ value index', Feeds middle index' input value →
      Passes runner plan input index' second terminalIds (meaning value)) :
    Passes runner plan input index (first ++ second) terminalIds (result.bind fun middleValue =>
      (meaning middleValue.1).map fun last => (last.1, middleValue.2.or last.2)) := by
  cases result with
  | error condition =>
    intro rest receipts state log
    rw [append_assoc]
    exact hfirst (second ++ rest) receipts state log
  | ok middleValue =>
    have hmiddle : ∀ rest receipts state log, ∃ receipts' index' state' log',
        failedErrorIn receipts'.reverse = (failedErrorIn receipts.reverse).or middleValue.2 ∧
          Feeds middle index' input middleValue.1 ∧
          ((runPlanNodes runner plan (first ++ rest) input receipts index state).run log).1 =
            ((runPlanNodes runner plan rest input receipts' index' state').run log').1 := hfirst
    rw [show (Except.ok middleValue : Outcome α).bind (fun result => (meaning result.1).map
      fun last => (last.1, result.2.or last.2)) = (meaning middleValue.1).map
        fun last => (last.1, middleValue.2.or last.2) from rfl]
    cases hmeaning : meaning middleValue.1 with
    | error condition =>
      intro rest receipts state log
      obtain ⟨receipts', index', state', log', -, hfeeds, hrun⟩ :=
        hmiddle (second ++ rest) receipts state log
      have hrest := hsecond middleValue.1 index' hfeeds
      rw [hmeaning] at hrest
      rw [append_assoc, hrun]
      exact hrest rest receipts' state' log'
    | ok output =>
      intro rest receipts state log
      obtain ⟨receipts', index', state', log', herror, hfeeds, hrun⟩ :=
        hmiddle (second ++ rest) receipts state log
      have hrest := hsecond middleValue.1 index' hfeeds
      rw [hmeaning] at hrest
      obtain ⟨receipts'', index'', state'', log'', herror', hfeeds', hrun'⟩ :=
        hrest rest receipts' state' log'
      refine ⟨receipts'', index'', state'', log'', ?_, hfeeds', ?_⟩
      · rw [herror', herror, Option.or_assoc]
      · rw [append_assoc, hrun, hrun']

variable {name : String} {left right : Nested α} {ordinal : ℕ}

theorem means_join (haction : node.action = .branch name left right) (frontier : List NodeId) :
    Means (fun input => runPlanNode runner plan node input frontier)
      fun input => .ok (input, none) := by
  intro input log
  dsimp only
  rw [runPlanNode, haction]
  exact congrArg (fun error => Except.ok (input, error)) failedError_localReceipt

theorem passes_branch (hrunner : runner.Standard) {flowName : String}
    {leftMeaning rightMeaning : Value α → Outcome α}
    (hprevious : ∀ id ∈ previous, id.ordinal < ordinal) (hfeeds : Feeds previous index input value)
    (hleft : Means left.run leftMeaning) (hright : Means right.run rightMeaning) :
    Passes runner plan input index
      (lowerStep flowName (.branch name left right) previous ordinal).nodes
      (lowerStep flowName (.branch name left right) previous ordinal).terminalIds
      (branchMeaning leftMeaning rightMeaning value) := by
  rw [lowerStep]
  dsimp only
  generalize hleftNode : branchArmNode flowName ordinal "branch-left" left previous = leftNode
  generalize hrightNode :
    branchArmNode flowName (ordinal + 1) "branch-right" right previous = rightNode
  generalize hjoin : stepPlanNode flowName (ordinal + 2) (.branch name left right)
    [leftNode.id, rightNode.id] = joinNode
  -- the right arm is fed by the previous nodes, not by the left arm
  have hfresh : leftNode.id ∉ previous := by
    intro hmem
    rw [← hleftNode] at hmem
    exact lt_irrefl _ (hprevious _ hmem)
  have hdiffer : leftNode.id ≠ rightNode.id := by
    rw [← hleftNode, ← hrightNode]
    intro heq
    exact absurd (congrArg NodeId.ordinal heq) (Nat.succ_ne_self ordinal).symm
  have hleftInput : nodeInputValue leftNode index input = .ok value :=
    Feeds.nodeInputValue (by rw [← hleftNode]; exact hfeeds)
  have hrightInput : ∀ first, nodeInputValue rightNode (index.put leftNode.id first) input =
      .ok value := by
    intro first
    refine Feeds.nodeInputValue ?_
    rw [← hrightNode]
    exact hfeeds.put hfresh
  have hleftMeans : ∀ frontier,
      Means (fun input => runPlanNode runner plan leftNode input frontier) leftMeaning :=
    fun frontier => means_flowNode hleft plan leftNode frontier (by rw [← hleftNode]; rfl)
  have hrightMeans : ∀ frontier,
      Means (fun input => runPlanNode runner plan rightNode input frontier) rightMeaning :=
    fun frontier => means_flowNode hright plan rightNode frontier (by rw [← hrightNode]; rfl)
  have hjoinMeans : ∀ frontier, Means (fun input => runPlanNode runner plan joinNode input frontier)
      fun input => .ok (input, none) :=
    fun frontier => means_join (by rw [← hjoin]; rfl) frontier
  rw [branchMeaning]
  cases hfirst : leftMeaning value with
  | error condition =>
    intro rest receipts state log
    exact runPlanNodes_cons_of_means hrunner hleftInput hleftMeans hfirst _ receipts state log
  | ok first =>
    cases hsecond : rightMeaning value with
    | error condition =>
      intro rest receipts state log
      -- the left arm has run, and its effects stay in the log
      obtain ⟨receipt, log', -, hrun⟩ := runPlanNodes_cons_of_means hrunner hleftInput
        hleftMeans hfirst (rightNode :: joinNode :: rest) receipts state log
      exact hrun.trans
        (runPlanNodes_cons_of_means hrunner (hrightInput _) hrightMeans hsecond _ _ _ _)
    | ok second =>
      intro rest receipts state log
      obtain ⟨leftReceipt, leftLog, hleftError, hleftRun⟩ := runPlanNodes_cons_of_means hrunner
        hleftInput hleftMeans hfirst (rightNode :: joinNode :: rest) receipts state log
      obtain ⟨rightReceipt, rightLog, hrightError, hrightRun⟩ := runPlanNodes_cons_of_means hrunner
        (hrightInput first.1) hrightMeans hsecond (joinNode :: rest) (leftReceipt :: receipts)
        (state.complete leftNode.id) leftLog
      -- the join receives what the arms left in the index
      have hjoinInput : nodeInputValue joinNode
          ((index.put leftNode.id first.1).put rightNode.id second.1) input =
            .ok (.list [first.1, second.1]) := by
        have hleftValue : (index.put leftNode.id first.1).put rightNode.id second.1 leftNode.id =
            some first.1 := by
          rw [ValueIndex.put, update_of_ne hdiffer, ValueIndex.put, update_self]
        have hrightValue : (index.put leftNode.id first.1).put rightNode.id second.1 rightNode.id =
            some second.1 := update_self ..
        rw [← hjoin, nodeInputValue, stepPlanNode]
        dsimp only
        rw [nodeValues, mapM_cons, mapM_cons, mapM_nil, valueForNodeId,
          valueForNodeId, hleftValue, hrightValue]
        rfl
      obtain ⟨joinReceipt, joinLog, hjoinError, hjoinRun⟩ := runPlanNodes_cons_of_means hrunner
        hjoinInput hjoinMeans rfl rest (rightReceipt :: leftReceipt :: receipts)
        ((state.complete leftNode.id).complete rightNode.id) rightLog
      refine ⟨_, _, _, joinLog, ?_, feeds_put _, hleftRun.trans (hrightRun.trans hjoinRun)⟩
      rw [failedErrorIn_reverse_cons, failedErrorIn_reverse_cons, failedErrorIn_reverse_cons,
        hjoinError, hrightError, hleftError]
      simp [Option.or_assoc]

theorem passes_linear (hrunner : runner.Standard) {action : Action α}
    (haction : ActionMeans runner action meaning) (flowName : String) (ordinal : ℕ)
    (hfeeds : Feeds previous index input value) :
    Passes runner plan input index [stepPlanNode flowName ordinal action previous]
      [(stepPlanNode flowName ordinal action previous).id] (meaning value) := by
  have hinput : nodeInputValue (stepPlanNode flowName ordinal action previous) index input =
      .ok value := Feeds.nodeInputValue hfeeds
  exact passes_node hrunner hinput fun frontier => haction plan _ frontier rfl

/-- A step's nodes hand on its value. -/
def StepMeans (runner : Runner α) : Step α → Prop
  | .branch _ left right _ _ =>
    Means (left.run runner) (left.meaning runner) ∧ Means (right.run runner) (right.meaning runner)
  | step => ActionMeans runner (step.action runner) (step.meaning runner)

theorem passes_lowerStep (hrunner : runner.Standard) {step : Step α} (hstep : StepMeans runner step)
    (flowName : String) (hprevious : ∀ id ∈ previous, id.ordinal < ordinal)
    (hfeeds : Feeds previous index input value) : Passes runner plan input index
      (lowerStep flowName (step.action runner) previous ordinal).nodes
      (lowerStep flowName (step.action runner) previous ordinal).terminalIds
      (step.meaning runner value) := by
  cases step with
  | branch name left right inputContract outputContract =>
    exact passes_branch hrunner hprevious hfeeds hstep.1 hstep.2
  | task t | flow f | «try» name source inputContract outputContract
  | kleisli name source binder inputContract outputContract =>
    exact passes_linear hrunner hstep flowName ordinal hfeeds

/-- **The nodes of lowered steps hand on the value of the steps.** -/
theorem passes_lowerSteps (hrunner : runner.Standard) {steps : List (Step α)}
    (hsteps : ∀ step ∈ steps, StepMeans runner step) (flowName : String) (hnodup : previous.Nodup)
    (hprevious : ∀ id ∈ previous, id.ordinal < ordinal) (hfeeds : Feeds previous index input value)
    : Passes runner plan input index
      (lowerSteps flowName (stepActions runner steps) previous ordinal).nodes
      (lowerSteps flowName (stepActions runner steps) previous ordinal).terminalIds
      (stepsMeaning runner steps value) := by
  induction steps generalizing previous ordinal value index with
  | nil => exact fun rest receipts state log =>
      ⟨receipts, index, state, log, (Option.or_none ..).symm, hfeeds, rfl⟩
  | cons step steps ih =>
    rw [forall_mem_cons] at hsteps
    obtain ⟨hlowered, hnodes⟩ :=
      lowered_lowerStep flowName (step.action runner) hnodup hprevious
    obtain ⟨hterminal, hlt⟩ := hlowered.chain.terminal_lt hnodes
    exact (passes_lowerStep hrunner hsteps.1 flowName hprevious hfeeds).append
      fun middle index' hfeeds' => ih hsteps.2 hterminal hlt hfeeds'

end

section

variable {runner : Runner α}

theorem declarationKind_mem (actions : List (Action α)) :
    declarationKind actions ∈ ["empty", "branch", "task", "sequential"] := by
  rw [declarationKind.eq_def]
  split
  · simp
  · simp
  · split_ifs <;> simp

theorem Runner.Standard.runnerPlan (hrunner : runner.Standard) (flowName : String)
    (actions : List (Action α)) : runnerPlan runner flowName actions =
      .ok (linearPlan flowName actions) := by
  obtain ⟨declaration, hfound, hplanner⟩ := hrunner.flows _ (declarationKind_mem actions)
  rw [PooFlow.Execution.runnerPlan, hfound]
  exact if_pos hplanner

theorem runnerValidatePlan_append (nodes later : List (PlanNode α)) :
    runnerValidatePlan runner (nodes ++ later) =
      (runnerValidatePlan runner nodes).bind fun _ => runnerValidatePlan runner later := by
  induction nodes with
  | nil => rfl
  | cons node nodes ih =>
    rw [cons_append, runnerValidatePlan, runnerValidatePlan, ih]
    cases validateStep runner node.action <;> rfl

theorem runnerValidatePlan_lowerStep (flowName : String) (action : Action α)
    (previous : List NodeId) (ordinal : ℕ) :
    runnerValidatePlan runner (lowerStep flowName action previous ordinal).nodes =
      validateStep runner action := by
  cases action with
  | task t =>
    change (validateStep runner (.task t)).bind (fun _ => .ok ()) = validateStep runner (.task t)
    cases validateStep runner (.task t) <;> rfl
  | _ => rfl

theorem runnerValidatePlan_lowerSteps (flowName : String) (actions : List (Action α))
    (previous : List NodeId) (ordinal : ℕ) :
    runnerValidatePlan runner (lowerSteps flowName actions previous ordinal).nodes =
      validateActions runner actions := by
  induction actions generalizing previous ordinal with
  | nil => rfl
  | cons action actions ih =>
    rw [lowerSteps]
    dsimp only
    rw [runnerValidatePlan_append, ih, runnerValidatePlan_lowerStep]
    rfl

variable {flowName : String} {actions : List (Action α)} {input : Value α}

theorem planOutputValue_feeds {index : ValueIndex α} {value : Value α}
    (hfeeds : Feeds (lowerSteps flowName actions [] 0).terminalIds index input value) :
    planOutputValue (linearPlan flowName actions) index input = .ok value := by
  rw [planOutputValue, terminalNodes_linearPlan]
  rcases hfeeds with ⟨hnil, rfl⟩ | ⟨id, hid, hvalue⟩
  · rw [hnil]
    rfl
  · rw [hid, nodeValues, mapM_cons, mapM_nil, valueForNodeId, hvalue]
    rfl

section

variable {result : Outcome α}
  (h : Passes runner (linearPlan flowName actions) input (fun _ => none) (linearPlan flowName actions).nodes (lowerSteps flowName actions [] 0).terminalIds result)
  (state : FrontierState)

include result h state

theorem Passes.runPlanNodes (log : List (Event α)) :
    ((PooFlow.Execution.runPlanNodes runner (linearPlan flowName actions)
        (linearPlan flowName actions).nodes input [] (fun _ => none) state).run log).1.map
      (fun returned => (returned.1, failedErrorIn returned.2.reverse)) = result := by
  cases result with
  | error condition =>
    have hrun := h [] [] state log
    rw [append_nil] at hrun
    rw [hrun]
    rfl
  | ok output =>
    obtain ⟨receipts, index, state', log', herror, hfeeds, hrun⟩ := h [] [] state log
    rw [append_nil] at hrun
    rw [hrun, PooFlow.Execution.runPlanNodes]
    simp only [run_bind_fst, run_lift, planOutputValue_feeds hfeeds]
    exact congrArg (fun error => Except.ok (output.1, error)) herror

theorem Passes.outcome (frontier : List NodeId) (log : List (Event α)) :
    PooFlow.Execution.outcome (((PooFlow.Execution.runPlanNodes runner (linearPlan flowName actions)
        (linearPlan flowName actions).nodes input [] (fun _ => none) state).run log).1.bind
      fun returned => .ok (returned.1, localReceipt runner flowName none "flow" none input returned.1
        .noCache frontier "ok" none returned.2.reverse)) = result := by
  rw [← h.runPlanNodes state log]
  rcases ((PooFlow.Execution.runPlanNodes runner (linearPlan flowName actions)
    (linearPlan flowName actions).nodes input [] (fun _ => none) state).run log).1 with
    condition | returned
  · rfl
  · exact congrArg (fun error => Except.ok (returned.1, error)) failedError_localReceipt

end

theorem means_steps (hrunner : runner.Standard) (name : String) {steps : List (Step α)}
    (inputContract outputContract : Contract) (hsteps : ∀ step ∈ steps, StepMeans runner step) :
    Means ((Flow.mk name steps inputContract outputContract).run runner)
      ((Flow.mk name steps inputContract outputContract).meaning runner) := by
  intro input log
  have hvalid : runnerValidatePlan runner (linearPlan name (stepActions runner steps)).nodes =
      validateActions runner (stepActions runner steps) :=
    runnerValidatePlan_lowerSteps name _ [] 0
  have hpasses : Passes runner (linearPlan name (stepActions runner steps)) input (fun _ => none)
      (linearPlan name (stepActions runner steps)).nodes _ _ :=
    passes_lowerSteps hrunner hsteps name nodup_nil
      ((fun id hid => absurd hid not_mem_nil) : ∀ id ∈ ([] : List NodeId), id.ordinal < 0)
      (.inl ⟨rfl, rfl⟩)
  rw [Flow.run, Flow.meaning, runActions]
  simp only [run_bind_fst, run_lift, hrunner.runnerPlan, hrunner.admitReadyFrontier, Except.bind]
  rw [hvalid]
  cases validateActions runner (stepActions runner steps) with
  | error condition => rfl
  | ok _ => exact hpasses.outcome _ _ _

theorem stepsMeaning_singleton (step : Step α) (input : Value α) :
    stepsMeaning runner [step] input = step.meaning runner input := by
  change (step.meaning runner input).bind _ = _
  rcases step.meaning runner input with condition | ⟨value, error⟩
  · rfl
  · exact congrArg (fun error => Except.ok (value, error)) (Option.or_none ..)

section

variable {source : Flow α}

theorem meaning_tryFlow (name : String) :
    (tryFlow name source).meaning runner input = tryMeaning (source.meaning runner) input :=
  stepsMeaning_singleton (.try name source source.inputContract (.tried source.outputContract)) input

theorem meaning_flowBind (name : String) (binder : Value α → Flow α) (outputContract : Contract) :
    (flowBind name source binder outputContract).meaning runner input =
      kleisliMeaning (source.meaning runner) (fun value => (binder value).meaning runner) input :=
  stepsMeaning_singleton (.kleisli name source binder source.inputContract outputContract) input

theorem meaning_flowBranch (name : String) (left right : Flow α) :
    (flowBranch name left right).meaning runner input =
      branchMeaning (left.meaning runner) (right.meaning runner) input :=
  stepsMeaning_singleton (.branch name left right left.inputContract
    (.pair left.outputContract right.outputContract)) input

end

variable {P : Task α → Prop}

mutual

/-- **Every run has the meaning of its flow**, if those of its tasks have. -/
theorem means_flow (hrunner : runner.Standard)
    (htask : ∀ task, P task → ActionMeans runner (.task task) (taskMeaning runner task)) :
    ∀ flow : Flow α, flow.Each P → Means (flow.run runner) (flow.meaning runner)
  | .mk name steps inputContract outputContract, h =>
    means_steps hrunner name inputContract outputContract (stepsMean hrunner htask steps h)

theorem stepsMean (hrunner : runner.Standard)
    (htask : ∀ task, P task → ActionMeans runner (.task task) (taskMeaning runner task)) :
    ∀ steps : List (Step α), StepsEach P steps → ∀ step ∈ steps, StepMeans runner step
  | [], _ => forall_mem_nil _
  | step :: steps, h => forall_mem_cons.2
    ⟨stepMeans hrunner htask step h.1, stepsMean hrunner htask steps h.2⟩

theorem stepMeans (hrunner : runner.Standard)
    (htask : ∀ task, P task → ActionMeans runner (.task task) (taskMeaning runner task)) :
    ∀ step : Step α, step.Each P → StepMeans runner step
  | .task task, h => htask task h
  | .flow flow, h => means_flowNode (means_flow hrunner htask flow h)
  | .branch _ left right _ _, h =>
    ⟨means_flow hrunner htask left h.1, means_flow hrunner htask right h.2⟩
  | .try _ source _ _, h => means_try (means_flow hrunner htask source h)
  | .kleisli name source binder _ _, h =>
    show ActionMeans runner (.kleisli name ⟨source.name, source.run runner⟩ fun value =>
        ⟨(binder value).name, (binder value).run runner⟩)
      (kleisliMeaning (source.meaning runner) fun value => (binder value).meaning runner) from
    means_kleisli (means_flow hrunner htask source h.1)
      fun value => means_flow hrunner htask (binder value) (h.2 value)

end

/-- With an adapter that answers by the request, every flow has its meaning. -/
theorem means_flow_of_perRequest (hrunner : runner.Standard) (hadapter : runner.adapter.PerRequest)
    (flow : Flow α) : Means (flow.run runner) (flow.meaning runner) :=
  means_flow (P := fun _ => True) hrunner (fun task _ => means_task hadapter task) flow
    (Flow.each_of_forall (fun _ => trivial) flow)

end

end PooFlow.Execution
