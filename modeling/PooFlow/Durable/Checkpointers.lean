import Mathlib.Data.String.Basic
import PooFlow.Foundation.Keyed
import PooFlow.Foundation.Run
import PooFlow.Graph.Checkpoint

/-! The checkpointers of `checkpoints.py` and `durable.py` that outlive a process. On files, the
digest of a thread names a file with its latest checkpoint and a directory of all; in Turso there is
a row for each thread and id. What is pickled is read back as it was. -/

namespace PooFlow

open Foundation

variable {V : Type}

/-- The files in the root directory, and the files in its subdirectories by the
path from there, which has a separator where a checkpoint id has one. -/
structure FileRuntimeGraphCheckpointer (V : Type) where
  heads : Keyed String (RuntimeGraphCheckpoint V) := .empty
  files : Keyed (String × String) (RuntimeGraphCheckpoint V) := .empty

/-- What `glob("*.checkpoint.pickle")` finds: the files of the directory itself. -/
def Direct (name : String) : Prop := '/' ∉ name.toList

instance : DecidablePred Direct := fun name => inferInstanceAs (Decidable ('/' ∉ name.toList))

namespace FileRuntimeGraphCheckpointer

-- the hex digest of `hashlib.sha256`
variable (sha256 : String → String)

def path (threadId : String) : String := sha256 threadId ++ ".checkpoint.pickle"

def historyDir (threadId : String) : String := sha256 threadId ++ ".history"

def historyPath (threadId checkpointId : String) : String × String :=
  (historyDir sha256 threadId, checkpointId ++ ".checkpoint.pickle")

variable (checkpointer : FileRuntimeGraphCheckpointer V)

def save (freshId : String) (checkpoint : RuntimeGraphCheckpoint V) :
    RuntimeGraphCheckpoint V × FileRuntimeGraphCheckpointer V :=
  let checkpoint := checkpoint.identified freshId
  (checkpoint,
    { heads := checkpointer.heads.put (path sha256 checkpoint.threadId) checkpoint
      files := checkpointer.files.put
        (historyPath sha256 checkpoint.threadId checkpoint.checkpointId) checkpoint })

/-- `load` and `inspect`. -/
def load (threadId : String) : Except GraphError (RuntimeGraphCheckpoint V) :=
  presentElse (checkpointer.heads.find? (path sha256 threadId))
    (.checkpoint s!"missing runtime graph checkpoint: {threadId}")

def loadAt (threadId checkpointId : String) : Except GraphError (RuntimeGraphCheckpoint V) :=
  presentElse (checkpointer.files.find? (historyPath sha256 threadId checkpointId))
    (.checkpoint s!"missing runtime graph checkpoint: {threadId}/{checkpointId}")

/-- The files that `history` reads and `clear` unlinks. -/
def Listed (threadId : String) (file : String × String) : Prop :=
  file.1 = historyDir sha256 threadId ∧ Direct file.2

instance (threadId : String) : DecidablePred (Listed sha256 threadId) := fun file =>
  inferInstanceAs (Decidable (file.1 = historyDir sha256 threadId ∧ Direct file.2))

/-- `history`: the files of the directory, by name. -/
def history (threadId : String) : List (RuntimeGraphCheckpoint V) :=
  (checkpointer.files.select (Listed sha256 threadId) Prod.snd).map Prod.snd

/-- `clear`: `rmdir` fails when there is something left in the directory. -/
def clear (threadId : String) : Except GraphError Unit × FileRuntimeGraphCheckpointer V :=
  let files := checkpointer.files.delete (Listed sha256 threadId)
  (guardElse (∀ row ∈ files.rows, row.1.1 ≠ historyDir sha256 threadId)
      (.raised "OSError: Directory not empty"),
    { heads := checkpointer.heads.delete (· = path sha256 threadId), files })

def updateState (freshId threadId : String) (update : Mapping V) (replace : Bool) :
    Except GraphError (RuntimeGraphCheckpoint V × FileRuntimeGraphCheckpointer V) := do
  let checkpoint ← checkpointer.load sha256 threadId
  pure (checkpointer.save sha256 freshId (checkpoint.withStateUpdate update replace))

end FileRuntimeGraphCheckpointer

structure RuntimeDurablePolicyManifest where
  checkpointIdStrategy : String := "runtime-generated"
  historyRetentionLimit : Option ℕ := none

/-- `runtime_checkpoint_heads`, and `runtime_checkpoints` with `payload` and `created_at`. -/
structure TursoRuntimeGraphCheckpointer (V : Type) where
  policy : RuntimeDurablePolicyManifest := {}
  heads : Keyed String String := .empty
  checkpoints : Keyed (String × String) (RuntimeGraphCheckpoint V × ℕ) := .empty

namespace TursoRuntimeGraphCheckpointer

variable (checkpointer : TursoRuntimeGraphCheckpointer V)

def rowsOf (threadId : String) : List ((String × String) × (RuntimeGraphCheckpoint V × ℕ)) :=
  checkpointer.checkpoints.select (·.1 = threadId) Prod.snd

def enforceRetention (threadId : String) : TursoRuntimeGraphCheckpointer V :=
  match checkpointer.policy.historyRetentionLimit with
  | none => checkpointer
  | some limit =>
    -- `order by created_at desc, checkpoint_id desc`
    let rows := (checkpointer.rowsOf threadId).insertionSort fun row row' =>
      toLex (row'.2.2, row'.1.2) ≤ toLex (row.2.2, row.1.2)
    let expired := (rows.drop limit).map Prod.fst
    { checkpointer with checkpoints := checkpointer.checkpoints.delete (· ∈ expired) }

/-- The three statements of `save`. -/
def store (now : ℕ) (checkpoint : RuntimeGraphCheckpoint V) : TursoRuntimeGraphCheckpointer V :=
  { checkpointer with
    heads := checkpointer.heads.put checkpoint.threadId checkpoint.checkpointId
    checkpoints := checkpointer.checkpoints.put (checkpoint.threadId, checkpoint.checkpointId)
      (checkpoint, now) }

def save (freshId : String) (now : ℕ) (checkpoint : RuntimeGraphCheckpoint V) :
    Except GraphError (RuntimeGraphCheckpoint V × TursoRuntimeGraphCheckpointer V) := do
  guardElse (¬(checkpoint.checkpointId = "" ∧
      checkpointer.policy.checkpointIdStrategy = "provided"))
    (.raised "RuntimeDurablePolicyError: checkpoint_id is required by durable policy")
  let current := checkpoint.identified freshId
  pure (current, (checkpointer.store now current).enforceRetention current.threadId)

def loadAt (threadId checkpointId : String) : Except GraphError (RuntimeGraphCheckpoint V) :=
  presentElse ((checkpointer.checkpoints.find? (threadId, checkpointId)).map Prod.fst)
    (.checkpoint s!"missing checkpoint {checkpointId} for thread {threadId}")

/-- `inspect` and `load`. -/
def load (threadId : String) : Except GraphError (RuntimeGraphCheckpoint V) := do
  let checkpointId ← presentElse (checkpointer.heads.find? threadId)
    (.checkpoint s!"missing checkpoint for thread {threadId}")
  checkpointer.loadAt threadId checkpointId

/-- `history`: `order by checkpoint_id`. -/
def history (threadId : String) : List (RuntimeGraphCheckpoint V) :=
  (checkpointer.rowsOf threadId).map fun row => row.2.1

def clear (threadId : String) : TursoRuntimeGraphCheckpointer V :=
  { checkpointer with
    heads := checkpointer.heads.delete (· = threadId)
    checkpoints := checkpointer.checkpoints.delete (·.1 = threadId) }

def updateState (freshId : String) (now : ℕ) (threadId : String) (update : Mapping V)
    (replace : Bool) :
    Except GraphError (RuntimeGraphCheckpoint V × TursoRuntimeGraphCheckpointer V) := do
  let checkpoint ← checkpointer.load threadId
  checkpointer.save freshId now (checkpoint.withStateUpdate update replace)

end TursoRuntimeGraphCheckpointer

inductive CheckpointerCall (V : Type) where
  | save (checkpoint : RuntimeGraphCheckpoint V) (freshId : String) (now : ℕ)
  | load (threadId : String)
  | loadAt (threadId checkpointId : String)
  | history (threadId : String)
  | updateState (threadId : String) (update : Mapping V) (replace : Bool) (freshId : String)
      (now : ℕ)
  | clear (threadId : String)

inductive CheckpointerReply (V : Type) where
  | checkpoint (checkpoint : RuntimeGraphCheckpoint V)
  | checkpoints (checkpoints : List (RuntimeGraphCheckpoint V))
  | cleared
  deriving DecidableEq

def answerSaved {S : Type} (checkpointer : S) :
    Except GraphError (RuntimeGraphCheckpoint V × S) → Except GraphError (CheckpointerReply V) × S
  | .ok (checkpoint, checkpointer') => (.ok (.checkpoint checkpoint), checkpointer')
  | .error error => (.error error, checkpointer)

def MemoryRuntimeGraphCheckpointer.answer (checkpointer : MemoryRuntimeGraphCheckpointer V) :
    CheckpointerCall V → Except GraphError (CheckpointerReply V) × MemoryRuntimeGraphCheckpointer V
  | .save checkpoint freshId _ =>
    answerSaved checkpointer (.ok (checkpointer.save freshId checkpoint))
  | .load threadId => ((checkpointer.load threadId).map .checkpoint, checkpointer)
  | .loadAt threadId checkpointId =>
    ((checkpointer.loadAt threadId checkpointId).map .checkpoint, checkpointer)
  | .history threadId => (.ok (.checkpoints (checkpointer.history threadId)), checkpointer)
  | .updateState threadId update replace freshId _ =>
    answerSaved checkpointer (checkpointer.updateState freshId threadId update replace)
  | .clear threadId => (.ok .cleared, checkpointer.clear threadId)

def FileRuntimeGraphCheckpointer.answer (sha256 : String → String)
    (checkpointer : FileRuntimeGraphCheckpointer V) :
    CheckpointerCall V → Except GraphError (CheckpointerReply V) × FileRuntimeGraphCheckpointer V
  | .save checkpoint freshId _ =>
    answerSaved checkpointer (.ok (checkpointer.save sha256 freshId checkpoint))
  | .load threadId => ((checkpointer.load sha256 threadId).map .checkpoint, checkpointer)
  | .loadAt threadId checkpointId =>
    ((checkpointer.loadAt sha256 threadId checkpointId).map .checkpoint, checkpointer)
  | .history threadId => (.ok (.checkpoints (checkpointer.history sha256 threadId)), checkpointer)
  | .updateState threadId update replace freshId _ =>
    answerSaved checkpointer (checkpointer.updateState sha256 freshId threadId update replace)
  | .clear threadId =>
    ((checkpointer.clear sha256 threadId).1.map fun _ => .cleared,
      (checkpointer.clear sha256 threadId).2)

def TursoRuntimeGraphCheckpointer.answer (checkpointer : TursoRuntimeGraphCheckpointer V) :
    CheckpointerCall V → Except GraphError (CheckpointerReply V) × TursoRuntimeGraphCheckpointer V
  | .save checkpoint freshId now =>
    answerSaved checkpointer (checkpointer.save freshId now checkpoint)
  | .load threadId => ((checkpointer.load threadId).map .checkpoint, checkpointer)
  | .loadAt threadId checkpointId =>
    ((checkpointer.loadAt threadId checkpointId).map .checkpoint, checkpointer)
  | .history threadId => (.ok (.checkpoints (checkpointer.history threadId)), checkpointer)
  | .updateState threadId update replace freshId now =>
    answerSaved checkpointer (checkpointer.updateState freshId now threadId update replace)
  | .clear threadId => (.ok .cleared, checkpointer.clear threadId)

def MemoryRuntimeGraphCheckpointer.after (calls : List (CheckpointerCall V)) :
    MemoryRuntimeGraphCheckpointer V :=
  run (fun checkpointer call => (checkpointer.answer call).2) {} calls

def FileRuntimeGraphCheckpointer.after (sha256 : String → String)
    (calls : List (CheckpointerCall V)) : FileRuntimeGraphCheckpointer V :=
  run (fun checkpointer call => (checkpointer.answer sha256 call).2) {} calls

def TursoRuntimeGraphCheckpointer.after (policy : RuntimeDurablePolicyManifest)
    (calls : List (CheckpointerCall V)) : TursoRuntimeGraphCheckpointer V :=
  run (fun checkpointer call => (checkpointer.answer call).2) { policy } calls

end PooFlow
