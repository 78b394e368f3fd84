import Mathlib.Data.List.Basic

/-! `core/flow.ss`, `core/task.ss`, `core/receipt.ss` and `core/runtime-adapter.ss`. A procedure is a
function that may throw. What an adapter answers may depend on everything logged before. -/

namespace PooFlow.Execution

variable {α : Type}

structure NodeId where
  flowName : String
  ordinal : ℕ
  kind : String
  name : String
deriving DecidableEq

/-- What the procedure of a task throws. -/
inductive Thrown where
  | failure (code message : String)
  | exception (message : String)

inductive Contract where
  | named (name : String)
  | pair (left right : Contract)
  | tried (output : Contract)

/-- An `adapter-result`. -/
structure AdapterResult (α : Type) where
  requestId : Option α
  status : String
  value : Option α
  artifactHandle : Option α
  error : Option α

/-- An `execution-failure`, by its code and its detail. -/
inductive Failure (α : Type) where
  | thrown (code message : String)
  | missingDependencyValue (id : NodeId)
  | unknownTaskFamily (kind : String)
  | unknownFlowDeclaration (kind : String)
  | unsupportedFlowPlanner (strategy planner : String)
  | unsupportedFrontier (strategy : String)
  | unsupportedTaskCapability (strategy capability kind : String)
  | unsupportedAdapterCapability (adapter capability kind : String)
  | unsupportedAdapterOperation (operation : Option String) (task : String)
  | unsupportedTaskKind (kind : String)
  | adapterError (adapter : String) (requestId : Option α) (error : α)
  | adapterFailed (adapter : String) (requestId : Option α) (status : String)

inductive Raised (α : Type) where
  | failure (failure : Failure α)
  | exception (message : String)

def thrownRaised : Thrown → Raised α
  | .failure code message => .failure (.thrown code message)
  | .exception message => .exception message

/-- What flows pass on: an input, the list of a join, what a try step makes of a run, or
the answer of an adapter. -/
inductive Value (α : Type) where
  | atom (value : α)
  | list (items : List (Value α))
  | tryLeft (error : Option (Failure α))
  | tryRight (value : Value α)
  | answer (result : AdapterResult α)

abbrev Procedure (α : Type) := Value α → Except Thrown (Value α)

structure Task (α : Type) where
  name : String
  kind : String
  request : List α
  inputContract : Contract
  outputContract : Contract
  executor : Option (Procedure α)

def Task.requestPayload (task : Task α) : Option α := task.request[2]?

mutual

/-- A flow: its steps between two contracts. Nothing is run before a runner lowers
them to a plan. -/
inductive Flow (α : Type) where
  | mk (name : String) (steps : List (Step α)) (inputContract outputContract : Contract)

inductive Step (α : Type) where
  | task (task : Task α)
  | flow (flow : Flow α)
  | branch (name : String) (left right : Flow α) (inputContract outputContract : Contract)
  | try (name : String) (source : Flow α) (inputContract outputContract : Contract)
  | kleisli (name : String) (source : Flow α) (binder : Value α → Flow α)
      (inputContract outputContract : Contract)

end

namespace Flow

def name : Flow α → String
  | .mk name _ _ _ => name

def steps : Flow α → List (Step α)
  | .mk _ steps _ _ => steps

def inputContract : Flow α → Contract
  | .mk _ _ inputContract _ => inputContract

def outputContract : Flow α → Contract
  | .mk _ _ _ outputContract => outputContract

end Flow

def taskFlow (name : String) (task : Task α) : Flow α :=
  .mk name [.task task] task.inputContract task.outputContract

/-- `pure-flow`. The request `(pure name)` of its task, which nothing that runs the task
here reads, is left out. -/
def pureFlow (name : String) (proc : Procedure α) (inputContract outputContract : Contract) :
    Flow α :=
  taskFlow name ⟨name, "pure", [], inputContract, outputContract, some proc⟩

def flowArr (name : String) (proc : Procedure α) (inputContract outputContract : Contract) :
    Flow α :=
  pureFlow name proc inputContract outputContract

def returnFlow (name : String) (contract : Contract) : Flow α :=
  pureFlow name (fun value => .ok value) contract contract

def flowIdentity (name : String) (contract : Contract) : Flow α := returnFlow name contract

def schemeFlow (name : String) (request : List α) (proc : Procedure α)
    (inputContract outputContract : Contract) : Flow α :=
  taskFlow name ⟨name, "scheme", request, inputContract, outputContract, some proc⟩

def externalFlow (name : String) (request : List α) (inputContract outputContract : Contract) :
    Flow α :=
  taskFlow name ⟨name, "external", request, inputContract, outputContract, none⟩

def flowThen (name : String) (left right : Flow α) : Flow α :=
  .mk name (left.steps ++ right.steps) left.inputContract right.outputContract

/-- `flow-branch`: both flows on one input, and a join of their values. -/
def flowBranch (name : String) (left right : Flow α) : Flow α :=
  .mk name
    [.branch name left right left.inputContract (.pair left.outputContract right.outputContract)]
    left.inputContract (.pair left.outputContract right.outputContract)

def flowFanout (name : String) (left right : Flow α) : Flow α := flowBranch name left right

def tryFlow (name : String) (source : Flow α) : Flow α :=
  .mk name [.try name source source.inputContract (.tried source.outputContract)]
    source.inputContract (.tried source.outputContract)

/-- `flow-bind`: the binder chooses the flow that goes on, by the value of the source. -/
def flowBind (name : String) (source : Flow α) (binder : Value α → Flow α)
    (outputContract : Contract) : Flow α :=
  .mk name [.kleisli name source binder source.inputContract outputContract] source.inputContract
    outputContract

def car : Procedure α
  | .list (value :: _) => .ok value
  | _ => .error (.exception "(Argument 1) PAIR expected")

def cadr : Procedure α
  | .list (_ :: value :: _) => .ok value
  | _ => .error (.exception "(Argument 1) PAIR expected")

def flowDerivedName (base suffix : String) : String := base ++ "-" ++ suffix

/-- `flow-first`: the source on the first element of a pair, the second one carried
through. -/
def flowFirst (name : String) (source : Flow α) (secondContract : Contract) : Flow α :=
  let inputContract := .pair source.inputContract secondContract
  let leftInput := flowArr (flowDerivedName name "first-input") car inputContract
    source.inputContract
  let left := flowThen (flowDerivedName name "first-left") leftInput source
  let right := flowArr (flowDerivedName name "first-right") cadr inputContract secondContract
  flowFanout name left right

/-- `flow-second`: the source on the second element of a pair. -/
def flowSecond (name : String) (source : Flow α) (firstContract : Contract) : Flow α :=
  let inputContract := .pair firstContract source.inputContract
  let left := flowArr (flowDerivedName name "second-left") car inputContract firstContract
  let rightInput := flowArr (flowDerivedName name "second-input") cadr inputContract
    source.inputContract
  let right := flowThen (flowDerivedName name "second-right") rightInput source
  flowFanout name left right

structure Policy where
  strategy : String
  cachePolicy : String
  failurePolicy : String
  capabilities : List String
  frontier : List NodeId
  taskRegistry : String
  flowRegistry : String

/-- An `execution-request`. -/
structure Request (α : Type) where
  name : String
  kind : String
  request : List α
  input : Value α
  inputContract : Contract
  outputContract : Contract
  planId : String
  nodeId : NodeId
  frontier : List NodeId
  strategy : String
  policy : Policy

def taskAdapterRequest (task : Task α) (input : Value α) (planId : String) (nodeId : NodeId)
    (frontier : List NodeId) (strategy : String) (policy : Policy) : Request α :=
  ⟨task.name, task.kind, task.request, input, task.inputContract, task.outputContract, planId,
    nodeId, frontier, strategy, policy⟩

inductive CacheDecision (α : Type) where
  | noCache
  | bypass (task kind : String)
  | miss (task kind : String) (input output : Value α)
  | policy (policy task kind : String) (input output : Value α)
  | adapterResult (task kind : String) (operation : Option String) (status : String)
      (requestId artifactHandle : Option α)

structure Evidence (α : Type) where
  flow : String
  task : Option String
  kind : String
  nodeId : Option NodeId
  strategy : String
  policy : Policy
  adapterDecision : String
  requestId : Option α
  input : Value α
  output : Value α
  cache : CacheDecision α
  frontier : List NodeId
  status : String
  error : Option (Failure α)

inductive Receipt (α : Type) where
  | mk (evidence : Evidence α) (children : List (Receipt α))

namespace Receipt

def evidence : Receipt α → Evidence α
  | .mk evidence _ => evidence

def children : Receipt α → List (Receipt α)
  | .mk _ children => children

def error (receipt : Receipt α) : Option (Failure α) := receipt.evidence.error

end Receipt

mutual

def firstFailedReceipt : Receipt α → Option (Receipt α)
  | .mk evidence children =>
    if evidence.status = "failed" then some (.mk evidence children)
    else firstFailedReceiptIn children

def firstFailedReceiptIn : List (Receipt α) → Option (Receipt α)
  | [] => none
  | receipt :: receipts => (firstFailedReceipt receipt).or (firstFailedReceiptIn receipts)

end

/-- What is run at a node: the node itself, the flow of its try step, or one of the
two flows of its bind. -/
inductive Part where
  | whole | tried | source | bound
deriving DecidableEq

structure Label where
  node : NodeId
  part : Part

/-- What happens in a run. A part of a run is observed with what it needs, whether it
is the last one of its plan, what happens in it, and how it ends: by raising, or
with a receipt that holds a failure that no try step recovers or not. -/
inductive Event (α : Type) where
  | answered (request : Request α) (result : AdapterResult α)
  | ran (label : Label) (dependencies : List Label) (last : Bool) (events : List (Event α))
      (ended : Option Bool)

structure Adapter (α : Type) where
  name : String
  capabilities : List String
  submitter : List (Event α) → Request α → Except (Raised α) (AdapterResult α)
  storePutter : List (Event α) → Request α → Except (Raised α) (AdapterResult α)
  storeGetter : List (Event α) → Option α → Except (Raised α) (AdapterResult α)

def Adapter.supports (adapter : Adapter α) (capability : String) : Bool :=
  capability ∈ adapter.capabilities

def adapterResultFailure (adapter : Adapter α) (result : AdapterResult α) : Option (Failure α) :=
  match result.error with
  | some error => some (.adapterError adapter.name result.requestId error)
  | none =>
    if result.status = "failed" then some (.adapterFailed adapter.name result.requestId result.status)
    else none

def AdapterResult.failed (result : AdapterResult α) : Bool :=
  result.error.isSome || result.status == "failed"

@[simp] theorem isSome_adapterResultFailure (adapter : Adapter α) (result : AdapterResult α) :
    (adapterResultFailure adapter result).isSome = result.failed := by
  rw [adapterResultFailure, AdapterResult.failed]
  cases result.error with
  | some error => rfl
  | none =>
    dsimp only
    split
    · next h => simp [h]
    · next h => simp [h]

def adapterReceiptStatus (failure : Option (Failure α)) (result : AdapterResult α) : String :=
  if failure.isSome then "failed" else result.status

end PooFlow.Execution
