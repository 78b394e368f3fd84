import Mathlib.Algebra.Order.Ring.Nat
import Mathlib.Data.Fin.Basic

/-! The records of `runtime_v0.h` and `runtime_v0.c`. Unsigned counters are natural numbers, reduced
where the code relies on the machine width. A null pointer is `none`. -/

namespace PooFlow

def maxResources : ℕ := 256
def maxPendingEvents : ℕ := 1024
def maxConsumedNonces : ℕ := 1024
def nonceTableCapacity : ℕ := 2048
def maxStagedLeaves : ℕ := 1024
def digestBytes : ℕ := 32
def layoutVersion : ℕ := 1
def sizeMax : ℕ := 2 ^ 64 - 1

instance : NeZero maxResources := ⟨by decide⟩

/-- `sizeof` of the ABI structures on an LP64 target. -/
inductive Layout where
  | eventHeader | negotiateRequest | negotiateResult | bundleDescriptor | sessionDescriptor
  | evidenceReconciliation | arenaDescriptor | publishRequest | publishResult | pollRequest
  | pollResult | submitRequest | submitResult | adapterResult | adapterVtable
  | evidenceResult | flushResult | evidenceVtable | mediationRequest | mediationResult
  | batchedFlushRequest | batchedFlushResult | checkpointPacket
  | adapterInvocation | evidenceReservation | evidenceInvocation | flushInvocation

def sizeof : Layout → ℕ
  | .eventHeader => 96
  | .negotiateRequest => 72
  | .negotiateResult => 56
  | .bundleDescriptor => 88
  | .sessionDescriptor => 32
  | .evidenceReconciliation => 136
  | .arenaDescriptor => 40
  | .publishRequest => 64
  | .publishResult => 24
  | .pollRequest => 72
  | .pollResult => 80
  | .submitRequest => 96
  | .submitResult => 32
  | .adapterResult => 80
  | .adapterVtable => 24
  | .evidenceResult => 112
  | .flushResult => 144
  | .evidenceVtable => 40
  | .mediationRequest => 192
  | .mediationResult => 160
  | .batchedFlushRequest => 48
  | .batchedFlushResult => 168
  | .checkpointPacket => 72
  | .adapterInvocation => 120
  | .evidenceReservation => 136
  | .evidenceInvocation => 208
  | .flushInvocation => 104

structure Digest where
  bytes : List UInt8
  length_eq : bytes.length = digestBytes
deriving DecidableEq

/-- The digest filled with one byte, as `memset` writes it. -/
def Digest.filled (byte : UInt8) : Digest := ⟨List.replicate digestBytes byte, by simp⟩

def Digest.zero : Digest := .filled 0

instance : Inhabited Digest := ⟨.zero⟩

structure CompactId where
  high : UInt64 := 0
  low : UInt64 := 0
deriving DecidableEq

inductive Status where
  | ok | invalidArgument | incompatibleAbi | incompatibleSchema | unsupportedCapability
  | malformedDescriptor | wrongHandleKind | staleHandle | crossInstanceHandle
  | alreadyReleased | invalidState | bundleIdentityMismatch | checkpointIncompatible
  | cancelled | outstandingWork | allocationFailure | internalInvariant
  | duplicateAccepted | payloadBounds | staleGeneration | arenaBusy | tokenReplay
  | executionRootFork | tokenBindingMismatch | diagnosticCannotExecute
  | foreign (code : UInt32) (outside : 24 < code)
deriving DecidableEq

/-- The resource kinds; zeroed slots have none, forged handles may carry any
other code. -/
inductive Kind where
  | unset | instance_ | profile | bundle | session | bytes | arena | lease
  | foreign (code : UInt32) (outside : 7 < code)
deriving DecidableEq

inductive SessionState where
  | unset | opened | cancelled | closed
  | foreign (code : UInt32) (outside : 3 < code)
deriving DecidableEq

inductive Durability where
  | strict | batched | diagnostic
  | foreign (code : UInt32) (outside : code = 0 ∨ 3 < code)
deriving DecidableEq

inductive MediationOutcome where
  | committed | buffered | indeterminate
  | foreign (code : UInt32) (outside : code ≠ 1 ∧ code ≠ 2 ∧ code ≠ 4)
deriving DecidableEq

def MediationOutcome.unset : MediationOutcome := .foreign 0 (by decide)

/-- `poo_flow_runtime_v0_handle`: plain data, which a caller can forge. -/
structure Handle where
  instanceId : ℕ := 0
  resourceId : ℕ := 0
  generation : ℕ := 0
  kind : Kind := .unset
deriving DecidableEq

def nullHandle : Handle := {}

/-- `poo_flow_runtime_v0_event_header`. -/
structure EventHeader where
  layoutVersion : ℕ := 0
  eventKind : ℕ := 0
  flags : UInt32 := 0
  sequence : ℕ := 0
  eventIdentity : CompactId := {}
  correlationIdentity : CompactId := {}
  authorizationIdentity : CompactId := {}
  payloadOffset : ℕ := 0
  payloadLength : ℕ := 0
  deadlineMonoNs : ℕ := 0
  requiredEvidenceBits : UInt32 := 0
  reserved0 : ℕ := 0
deriving DecidableEq, Inhabited

structure PendingEvent where
  header : EventHeader
  arenaId : ℕ
  arenaGeneration : ℕ
  polled : Bool := false
  accepted : Bool := false
  acknowledged : Bool := false
deriving DecidableEq

abbrev PendingEvent.sequence (e : PendingEvent) : ℕ := e.header.sequence

structure StagedLeaf where
  mediationSequence : ℕ
  digest : Digest
deriving DecidableEq

/-- The queue fields of a resource: `pending`, of which `pending_count` is the
length, `pending_capacity` and `poll_cursor`. -/
structure EventQueue where
  pending : List PendingEvent := []
  capacity : ℕ := 0
  pollCursor : ℕ := 0

/-- `consumed_nonces` and `consumed_nonce_used`: a cell is `some` when its use
flag is set. -/
abbrev NonceTable := ℕ → Option CompactId

/-- The mediation fields of a resource. `stagedLeaves` holds the first
`staged_leaf_count` entries of the array. -/
structure MediationState where
  consumedNonces : NonceTable := fun _ => none
  consumedNonceCount : ℕ := 0
  semanticRoot : Digest := .zero
  semanticRootBound : Bool := false
  executionRoot : Digest := .zero
  mediationSequence : ℕ := 0
  stagedLeaves : List StagedLeaf := []

/-- `resource`: one entry of the shared table. Which fields mean something
depends on `kind`: a lease keeps its arena in `parentId`, its session in
`outstanding`, its arena generation in `epoch` and its event count in
`sequence`. -/
structure Resource where
  alive : Bool := false
  released : Bool := false
  kind : Kind := .unset
  generation : ℕ := 0
  state : SessionState := .unset
  instanceId : ℕ := 0
  parentId : ℕ := 0
  epoch : ℕ := 0
  sequence : ℕ := 0
  capabilities : UInt64 := 0
  outstanding : ℕ := 0
  digest : Digest := .zero
  bytes : Option (List UInt8) := none
  arenaPtr : ℕ := 0
  arenaCapacity : ℕ := 0
  arenaGeneration : ℕ := 0
  inflightCount : ℕ := 0
  leaseFirstSequence : ℕ := 0
  leaseLastSequence : ℕ := 0
  queue : EventQueue := {}
  mediation : MediationState := {}

/-- The static `resources` table and `next_instance_id`. -/
structure Runtime where
  resources : Fin maxResources → Resource := fun _ => {}
  nextInstanceId : ℕ := 1

def Runtime.initial : Runtime := {}

end PooFlow
