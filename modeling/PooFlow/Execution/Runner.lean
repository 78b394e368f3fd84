import PooFlow.Execution.Plan

/-! `core/runner.ss` for tasks of every family. A flow is read as its run; a run is observed by the
nodes it runs and what the adapter answers. -/

namespace PooFlow.Execution

open Foundation Logged

variable {α : Type}

structure Strategy where
  name : String
  capabilities : List String
  cachePolicy : String
  failurePolicy : String

/-- `make-local-eager-strategy`. -/
def localEager : Strategy :=
  ⟨"local-eager", ["pure", "scheme", "external", "branch", "graph-frontier"], "no-cache", "fail-fast"⟩

/-- `make-cached-local-eager-strategy`. -/
def cachedLocalEager : Strategy :=
  ⟨"cached-local-eager", ["pure", "scheme", "external", "branch", "graph-frontier"], "cache-output",
    "fail-fast"⟩

structure TaskFamily (α : Type) where
  name : String
  capability : String
  route : String
  adapterDispatch : Option (Task α → String)

structure FlowDeclaration where
  kind : String
  planner : String

structure Runner (α : Type) where
  strategy : Strategy
  adapter : Adapter α
  taskRegistryName : String
  taskRegistry : List (TaskFamily α)
  flowRegistryName : String
  flowRegistry : List FlowDeclaration

/-- `default-task-family-registry`. -/
def defaultTaskFamilies : List (TaskFamily α) :=
  [⟨"pure", "pure", "local", none⟩, ⟨"scheme", "scheme", "local", none⟩,
    ⟨"external", "external", "adapter", some fun _ => "submit"⟩]

/-- `default-flow-declaration-registry`. -/
def defaultFlowDeclarations : List FlowDeclaration :=
  [⟨"task", "linear-dag"⟩, ⟨"sequential", "linear-dag"⟩, ⟨"branch", "linear-dag"⟩,
    ⟨"empty", "linear-dag"⟩]

section

variable (runner : Runner α)

/-- `task-family-for-kind-in`. -/
def taskFamilyForKind (kind : String) : Except (Raised α) (TaskFamily α) :=
  match runner.taskRegistry.find? (·.name = kind) with
  | some family => .ok family
  | none => .error (.failure (.unknownTaskFamily kind))

/-- The kind by which `flow-declaration-descriptor-in` looks a flow up. -/
def declarationKind : List (Action α) → String
  | [] => "empty"
  | [.task _] => "task"
  | actions => if actions.any Action.isBranch then "branch" else "sequential"

def runnerPlan (flowName : String) (actions : List (Action α)) :
    Except (Raised α) (ExecutionPlan α) :=
  match runner.flowRegistry.find? (·.kind = declarationKind actions) with
  | none => .error (.failure (.unknownFlowDeclaration (declarationKind actions)))
  | some declaration =>
    if declaration.planner = "linear-dag" then .ok (linearPlan flowName actions)
    else .error (.failure (.unsupportedFlowPlanner runner.strategy.name declaration.planner))

def validateTask (task : Task α) : Except (Raised α) Unit := do
  let family ← taskFamilyForKind runner task.kind
  if family.capability ∉ runner.strategy.capabilities then
    .error (.failure (.unsupportedTaskCapability runner.strategy.name family.capability task.kind))
  else if family.route = "adapter" ∧ runner.adapter.supports family.capability = false then
    .error (.failure
      (.unsupportedAdapterCapability runner.adapter.name family.capability task.kind))
  else .ok ()

def validateStep : Action α → Except (Raised α) Unit
  | .task task => validateTask runner task
  | _ => .ok ()

def runnerValidatePlan : List (PlanNode α) → Except (Raised α) Unit
  | [] => .ok ()
  | node :: nodes => do
    validateStep runner node.action
    runnerValidatePlan nodes

/-- `strategy-admit-ready-frontier-ids`. -/
def admitReadyFrontier (ids : List NodeId) : Except (Raised α) (List NodeId) :=
  if "graph-frontier" ∈ runner.strategy.capabilities then .ok ids
  else .error (.failure (.unsupportedFrontier runner.strategy.name))

/-- `runner-execution-policy-alist`. -/
def executionPolicy (frontier : List NodeId) : Policy where
  strategy := runner.strategy.name
  cachePolicy := runner.strategy.cachePolicy
  failurePolicy := runner.strategy.failurePolicy
  capabilities := runner.strategy.capabilities
  frontier := frontier
  taskRegistry := runner.taskRegistryName
  flowRegistry := runner.flowRegistryName

def cacheDecision (task : Task α) (input output : Value α) : CacheDecision α :=
  if runner.strategy.cachePolicy = "no-cache" then .bypass task.name task.kind
  else if runner.strategy.cachePolicy = "cache-output" then .miss task.name task.kind input output
  else .policy runner.strategy.cachePolicy task.name task.kind input output

def localReceipt (flowName : String) (task : Option String) (kind : String)
    (nodeId : Option NodeId) (input output : Value α) (cache : CacheDecision α)
    (frontier : List NodeId) (status : String) (error : Option (Failure α))
    (children : List (Receipt α)) : Receipt α :=
  .mk
    { flow := flowName
      task := task
      kind := kind
      nodeId := nodeId
      strategy := runner.strategy.name
      policy := executionPolicy runner frontier
      adapterDecision := "local"
      requestId := none
      input := input
      output := output
      cache := cache
      frontier := frontier
      status := status
      error := error } children

mutual

def unrecovered : Receipt α → Bool
  | .mk evidence children =>
    (children.isEmpty && evidence.status == "failed") ||
      (evidence.kind != "try" && anyUnrecovered children)

def anyUnrecovered : List (Receipt α) → Bool
  | [] => false
  | receipt :: receipts => unrecovered receipt || anyUnrecovered receipts

end

def ended : Except (Raised α) (Value α × Receipt α) → Option Bool
  | .ok result => some (unrecovered result.2)
  | .error _ => none

def observed (label : Label) (dependencies : List Label) (last : Bool)
    (run : Exec α (Value α × Receipt α)) : Exec α (Value α × Receipt α) :=
  within (fun events result => .ran label dependencies last events (ended result)) run

def execute (task : Task α) (input : Value α) : Except (Raised α) (Value α) :=
  match task.executor with
  | some proc => (proc input).mapError thrownRaised
  | none => .error (.exception "Operator is not a PROCEDURE")

def adapterResultForTask (family : TaskFamily α) (task : Task α) (request : Request α) :
    Exec α (AdapterResult α) :=
  match family.adapterDispatch.map (· task) with
  | some "store-put" => answer fun log => runner.adapter.storePutter log request
  | some "store-get" => answer fun log => runner.adapter.storeGetter log task.requestPayload
  | some "submit" => answer fun log => runner.adapter.submitter log request
  | operation => throw (.failure (.unsupportedAdapterOperation operation task.name))

def nodeRequest (plan : ExecutionPlan α) (node : PlanNode α) (task : Task α) (input : Value α)
    (frontier : List NodeId) : Request α :=
  taskAdapterRequest task input plan.flowName node.id frontier runner.strategy.name
    (executionPolicy runner frontier)

def adapterReceipt (plan : ExecutionPlan α) (node : PlanNode α) (family : TaskFamily α)
    (task : Task α) (input : Value α) (frontier : List NodeId) (result : AdapterResult α) :
    Receipt α :=
  .mk
    { flow := plan.flowName
      task := some task.name
      kind := task.kind
      nodeId := some node.id
      strategy := runner.strategy.name
      policy := (nodeRequest runner plan node task input frontier).policy
      adapterDecision := runner.adapter.name
      requestId := result.requestId
      input := input
      output := .answer result
      cache := .adapterResult task.name task.kind (family.adapterDispatch.map (· task)) result.status
        result.requestId result.artifactHandle
      frontier := frontier
      status := adapterReceiptStatus (adapterResultFailure runner.adapter result) result
      error := adapterResultFailure runner.adapter result } []

def runTask (plan : ExecutionPlan α) (node : PlanNode α)
    (task : Task α) (input : Value α) (frontier : List NodeId) : Exec α (Value α × Receipt α) := do
  let family ← lift (taskFamilyForKind runner task.kind)
  if family.capability ∈ runner.strategy.capabilities ∧ family.route = "local" then do
    let value ← lift (execute task input)
    return (value, localReceipt runner plan.flowName (some task.name) task.kind (some node.id) input
      value (cacheDecision runner task input value) frontier "ok" none [])
  else if family.route = "adapter" then do
    let result ← adapterResultForTask runner family task
      (nodeRequest runner plan node task input frontier)
    emit (.answered (nodeRequest runner plan node task input frontier) result)
    return (.answer result, adapterReceipt runner plan node family task input frontier result)
  else throw (.failure (.unsupportedTaskKind task.kind))

def tryValue (result : Value α × Receipt α) : Value α :=
  match firstFailedReceipt result.2 with
  | some failed => .tryLeft failed.error
  | none => .tryRight result.1

/-- `make-try-left` for a failure that was raised. -/
def caughtFailure : Raised α → Option (Value α × List (Receipt α))
  | .failure failure => some (.tryLeft (some failure), [])
  | .exception _ => none

def tryStepProjection (nested : Exec α (Value α × Receipt α)) :
    Exec α (Value α × List (Receipt α)) :=
  catching (do
    let result ← nested
    return (tryValue result, [result.2])) caughtFailure

def runTryStep (plan : ExecutionPlan α) (node : PlanNode α)
    (source : Nested α) (input : Value α) (frontier : List NodeId) :
    Exec α (Value α × Receipt α) := do
  let projection ← tryStepProjection (observed ⟨node.id, .tried⟩ [] true (source.run input))
  return (projection.1, localReceipt runner plan.flowName (some node.action.name) "try"
    (some node.id) input projection.1 .noCache frontier "ok" none projection.2)

/-- `make-kleisli-receipt`, failed like the first failed receipt of the last child. -/
def kleisliReceipt (plan : ExecutionPlan α) (node : PlanNode α) (input output : Value α)
    (frontier : List NodeId) (failed : Option (Receipt α)) (children : List (Receipt α)) :
    Receipt α :=
  localReceipt runner plan.flowName (some node.action.name) "kleisli" (some node.id) input output
    .noCache frontier (if failed.isSome then "failed" else "ok") (failed.bind Receipt.error) children

/-- `run-kleisli-bound-flow-result`. -/
def runKleisliBound (plan : ExecutionPlan α) (node : PlanNode α)
    (bound : Nested α) (input sourceValue : Value α) (frontier : List NodeId)
    (sourceReceipt : Receipt α) : Exec α (Value α × Receipt α) := do
  let result ← observed ⟨node.id, .bound⟩ [⟨node.id, .source⟩] true (bound.run sourceValue)
  return (result.1, kleisliReceipt runner plan node input result.1 frontier
    (firstFailedReceipt result.2) [sourceReceipt, result.2])

def runKleisliStep (plan : ExecutionPlan α) (node : PlanNode α)
    (source : Nested α) (binder : Value α → Nested α) (input : Value α) (frontier : List NodeId) :
    Exec α (Value α × Receipt α) := do
  let result ← observed ⟨node.id, .source⟩ [] true (source.run input)
  match firstFailedReceipt result.2 with
  | some failed =>
    return (result.1, kleisliReceipt runner plan node input result.1 frontier (some failed)
      [result.2])
  | none =>
    runKleisliBound runner plan node (binder result.1) input result.1 frontier result.2

/-- `run-plan-node`, with `make-flow-step-receipt` and `make-branch-receipt`. -/
def runPlanNode (plan : ExecutionPlan α) (node : PlanNode α)
    (input : Value α) (frontier : List NodeId) : Exec α (Value α × Receipt α) :=
  match node.action with
  | .task task => runTask runner plan node task input frontier
  | .flow nested => do
    let result ← nested.run input
    return (result.1, localReceipt runner plan.flowName (some nested.name) node.kind (some node.id)
      input result.1 .noCache frontier "ok" none [result.2])
  | .try _ source => runTryStep runner plan node source input frontier
  | .kleisli _ source binder =>
    runKleisliStep runner plan node source binder input frontier
  | .branch name _ _ => return (input, localReceipt runner plan.flowName (some name) "branch"
      (some node.id) input input .noCache frontier "ok" none [])

abbrev ValueIndex (α : Type) := NodeId → Option (Value α)

def ValueIndex.put (index : ValueIndex α) (id : NodeId) (value : Value α) : ValueIndex α :=
  Function.update index id (some value)

def valueForNodeId (id : NodeId) (index : ValueIndex α) : Except (Raised α) (Value α) :=
  match index id with
  | some value => .ok value
  | none => .error (.failure (.missingDependencyValue id))

def nodeValues (ids : List NodeId) (index : ValueIndex α) : Except (Raised α) (List (Value α)) :=
  ids.mapM (valueForNodeId · index)

def planOutputValue (plan : ExecutionPlan α) (index : ValueIndex α) (defaultInput : Value α) :
    Except (Raised α) (Value α) := do
  match ← nodeValues ((terminalNodes plan).map PlanNode.id) index with
  | [] => return defaultInput
  | [value] => return value
  | values => return .list values

def nodeInputValue (node : PlanNode α) (index : ValueIndex α) (defaultInput : Value α) :
    Except (Raised α) (Value α) :=
  match node.dependencies with
  | [] => .ok defaultInput
  | [id] => valueForNodeId id index
  | ids => do return .list (← nodeValues ids index)

def wholeLabel (id : NodeId) : Label := ⟨id, .whole⟩

def runPlanNodes (plan : ExecutionPlan α) : List (PlanNode α) → Value α →
    List (Receipt α) → ValueIndex α → FrontierState → Exec α (Value α × List (Receipt α))
  | [], input, receipts, index, _ => do
    let value ← lift (planOutputValue plan index input)
    return (value, receipts)
  | node :: nodes, input, receipts, index, state => do
    let frontier ← lift (admitReadyFrontier runner state.ready)
    let nodeInput ← lift (nodeInputValue node index input)
    let result ← observed (wholeLabel node.id) (node.dependencies.map wholeLabel) nodes.isEmpty
      (runPlanNode runner plan node nodeInput frontier)
    runPlanNodes plan nodes input (result.2 :: receipts) (index.put node.id result.1)
      (state.complete node.id)

/-- `runner-run` of a flow with these steps. -/
def runActions (flowName : String) (actions : List (Action α)) (input : Value α) :
    Exec α (Value α × Receipt α) := do
  let plan ← lift (runnerPlan runner flowName actions)
  lift (runnerValidatePlan runner plan.nodes)
  let state := makeFrontierState plan.nodes
  let rootFrontier ← lift (admitReadyFrontier runner state.ready)
  let result ← runPlanNodes runner plan plan.nodes input [] (fun _ => none) state
  return (result.1, localReceipt runner plan.flowName none "flow" none input result.1 .noCache
    rootFrontier "ok" none result.2.reverse)

mutual

def Flow.run : Flow α → Value α → Exec α (Value α × Receipt α)
  | .mk name steps _ _ => runActions runner name (stepActions steps)

def stepActions : List (Step α) → List (Action α)
  | [] => []
  | step :: steps => step.action :: stepActions steps

def Step.action : Step α → Action α
  | .task task => .task task
  | .flow flow => .flow ⟨flow.name, flow.run⟩
  | .branch name left right _ _ => .branch name ⟨left.name, left.run⟩ ⟨right.name, right.run⟩
  | .try name source _ _ => .try name ⟨source.name, source.run⟩
  | .kleisli name source binder _ _ =>
    .kleisli name ⟨source.name, source.run⟩ fun value => ⟨(binder value).name, (binder value).run⟩

end

/-- `make-try-left`, for what `runner-run-either` catches. -/
def eitherFailure : Raised α → Option (Value α)
  | .failure failure => some (.tryLeft (some failure))
  | .exception _ => none

def runnerRunEither (flow : Flow α) (input : Value α) : Exec α (Value α) :=
  catching (do
    let result ← flow.run runner input
    return tryValue result) eitherFailure

end

end PooFlow.Execution
