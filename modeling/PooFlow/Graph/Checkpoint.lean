import PooFlow.Graph.Types

/-! The checkpointer of `checkpoints.py` in memory: for each thread the latest checkpoint, and all
that were saved. -/

namespace PooFlow

open Foundation

variable {V : Type}

structure RuntimeGraphCheckpoint (V : Type) where
  checkpointId : String
  threadId : String
  interrupt : Option (RuntimeGraphInterrupt V)
  node : String
  step : ℕ
  state : RuntimeState V
  trace : List String
  pending : List (PendingItem V) := []
  events : List (RuntimeGraphEvent V) := []
  validationReceipt : List UInt8 := []
  planDigest : Option String := none
  deriving DecidableEq

namespace RuntimeGraphCheckpoint

def fromInterrupted (threadId : String) (interrupted : RuntimeGraphInterrupted V) :
    RuntimeGraphCheckpoint V where
  checkpointId := ""
  threadId := threadId
  interrupt := some interrupted.interrupt
  node := interrupted.node
  step := interrupted.step
  state := interrupted.state
  trace := interrupted.trace
  pending := interrupted.pending
  events := interrupted.events
  validationReceipt := interrupted.validationReceipt
  planDigest := interrupted.planDigest

def toInterrupted (checkpoint : RuntimeGraphCheckpoint V) :
    Except GraphError (RuntimeGraphInterrupted V) := do
  let interrupt ← presentElse checkpoint.interrupt
    (.checkpoint "checkpoint does not contain an interrupt")
  pure
    { interrupt, node := checkpoint.node, step := checkpoint.step, state := checkpoint.state,
      trace := checkpoint.trace, pending := checkpoint.pending, events := checkpoint.events,
      validationReceipt := checkpoint.validationReceipt, planDigest := checkpoint.planDigest }

/-- `{**state, **update}`. -/
def updatedState (state : RuntimeState V) (update : Mapping V) : RuntimeState V :=
  state.update update.entries

def withStateUpdate (checkpoint : RuntimeGraphCheckpoint V) (update : Mapping V)
    (replace : Bool) : RuntimeGraphCheckpoint V :=
  { checkpoint with
    checkpointId := ""
    state := updatedState (if replace then ∅ else checkpoint.state) update }

/-- `if not checkpoint.checkpoint_id`: a checkpoint without an id takes a fresh one. -/
def identified (checkpoint : RuntimeGraphCheckpoint V) (freshId : String) :
    RuntimeGraphCheckpoint V :=
  if checkpoint.checkpointId = "" then { checkpoint with checkpointId := freshId } else checkpoint

@[simp] theorem identified_threadId (checkpoint : RuntimeGraphCheckpoint V) (freshId : String) :
    (checkpoint.identified freshId).threadId = checkpoint.threadId := by
  unfold identified
  split <;> rfl

theorem toInterrupted_fromInterrupted (threadId freshId : String)
    (interrupted : RuntimeGraphInterrupted V) :
    ((fromInterrupted threadId interrupted).identified freshId).toInterrupted =
      .ok interrupted := by
  have hid : (fromInterrupted threadId interrupted).checkpointId = "" := rfl
  rw [identified, if_pos hid]
  rfl

end RuntimeGraphCheckpoint

/-- `_checkpoints` and `_history`. -/
structure MemoryRuntimeGraphCheckpointer (V : Type) where
  checkpoints : String → Option (RuntimeGraphCheckpoint V) := fun _ => none
  histories : String → List (RuntimeGraphCheckpoint V) := fun _ => []

namespace MemoryRuntimeGraphCheckpointer

variable (checkpointer : MemoryRuntimeGraphCheckpointer V)

/-- `save`: the checkpoint as it is saved, and the checkpointer after it. -/
def save (freshId : String) (checkpoint : RuntimeGraphCheckpoint V) :
    RuntimeGraphCheckpoint V × MemoryRuntimeGraphCheckpointer V :=
  let checkpoint := checkpoint.identified freshId
  (checkpoint,
    { checkpoints := Function.update checkpointer.checkpoints checkpoint.threadId (some checkpoint)
      histories := Function.update checkpointer.histories checkpoint.threadId
        (checkpointer.histories checkpoint.threadId ++ [checkpoint]) })

def saveInterrupted (freshId threadId : String) (interrupted : RuntimeGraphInterrupted V) :
    MemoryRuntimeGraphCheckpointer V :=
  (checkpointer.save freshId (.fromInterrupted threadId interrupted)).2

/-- `load` and `inspect`. -/
def load (threadId : String) : Except GraphError (RuntimeGraphCheckpoint V) :=
  presentElse (checkpointer.checkpoints threadId)
    (.checkpoint s!"missing runtime graph checkpoint: {threadId}")

def loadInterrupted (threadId : String) : Except GraphError (RuntimeGraphInterrupted V) :=
  checkpointer.load threadId >>= RuntimeGraphCheckpoint.toInterrupted

/-- `load_at`: the first of the history with the id. -/
def loadAt (threadId checkpointId : String) : Except GraphError (RuntimeGraphCheckpoint V) :=
  presentElse ((checkpointer.histories threadId).find? (·.checkpointId = checkpointId))
    (.checkpoint s!"missing runtime graph checkpoint: {threadId}/{checkpointId}")

def history (threadId : String) : List (RuntimeGraphCheckpoint V) :=
  checkpointer.histories threadId

def clear (threadId : String) : MemoryRuntimeGraphCheckpointer V where
  checkpoints := Function.update checkpointer.checkpoints threadId none
  histories := Function.update checkpointer.histories threadId []

def updateState (freshId threadId : String) (update : Mapping V) (replace : Bool) :
    Except GraphError (RuntimeGraphCheckpoint V × MemoryRuntimeGraphCheckpointer V) := do
  let checkpoint ← checkpointer.load threadId
  pure (checkpointer.save freshId (checkpoint.withStateUpdate update replace))

variable (freshId : String) (checkpoint : RuntimeGraphCheckpoint V)

theorem load_save : (checkpointer.save freshId checkpoint).2.load checkpoint.threadId =
      .ok (checkpoint.identified freshId) := by
  rw [load, presentElse_eq_ok]
  show Function.update _ _ _ _ = _
  rw [RuntimeGraphCheckpoint.identified_threadId]
  exact Function.update_self _ _ _

theorem loadInterrupted_saveInterrupted (threadId : String)
    (interrupted : RuntimeGraphInterrupted V) :
    (checkpointer.saveInterrupted freshId threadId interrupted).loadInterrupted threadId =
      .ok interrupted := by
  have hload := checkpointer.load_save freshId (.fromInterrupted threadId interrupted)
  show MemoryRuntimeGraphCheckpointer.load _ threadId >>= _ = _
  rw [saveInterrupted]
  refine (congrArg (· >>= RuntimeGraphCheckpoint.toInterrupted) hload).trans ?_
  exact RuntimeGraphCheckpoint.toInterrupted_fromInterrupted _ _ _

end MemoryRuntimeGraphCheckpointer

end PooFlow
