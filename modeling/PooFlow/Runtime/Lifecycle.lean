import PooFlow.Foundation.Endian
import PooFlow.Runtime.Resources

namespace PooFlow

open Foundation

def textBytes (text : String) : List UInt8 :=
  text.toList.map (fun c => UInt8.ofNat c.toNat)

def bundleSchema : String := "poo-flow.organization-bundle.draft.3"

/-- `bytes_equal`, on a view whose pointer may be null. -/
def bytesEqual (view : Option (List UInt8)) (text : String) : Prop :=
  view = some (textBytes text)

instance (view : Option (List UInt8)) (text : String) : Decidable (bytesEqual view text) :=
  inferInstanceAs (Decidable (_ = _))

def capBatchedEvidence : UInt64 := 0x40

def supportedCapabilities : UInt64 := 0x7f

def instanceCreate (rt : Runtime) (hasOut : Bool) : Outcome Handle :=
  if hasOut = false then .rejected rt .invalidArgument
  else
    let counted := { rt with nextInstanceId := (rt.nextInstanceId + 1) % 2 ^ 64 }
    match allocateResource counted rt.nextInstanceId .instance_ with
    | .error status => .rejected counted status
    | .ok (i, rt') => .accepted rt' (handleOf rt' i)

def instanceRelease (rt : Runtime) (instance_ : Handle) : Outcome Unit :=
  .ofAdmission rt
    (do
      let i ← instanceEntry rt instance_
      guardElse (∀ j, ¬((rt.resources j).alive = true ∧
        (rt.resources j).instanceId = instance_.instanceId ∧
        (rt.resources j).kind ≠ .instance_)) .outstandingWork
      return i)
    fun i => .accepted (rt.modify i Resource.release) ()

structure NegotiateRequest where
  structSize : ℕ := sizeof .negotiateRequest
  abiMajor : ℕ := 0
  abiMinor : ℕ := 1
  requiredCapabilities : UInt64 := 0
  optionalCapabilities : UInt64 := 0
  reserved0 : ℕ := 0
  maxPayloadBytes : ℕ := 0
  bundleSchema : Option (List UInt8)

structure NegotiateResult where
  structSize : ℕ := sizeof .negotiateResult
  abiMajor : ℕ := 0
  abiMinor : ℕ := 0
  capabilities : UInt64 := 0
  concurrencyProfile : ℕ := 0
  reserved0 : ℕ := 0
  maxPayloadBytes : ℕ := 0
  profile : Handle := nullHandle

def negotiateAdmission (rt : Runtime) (instance_ : Handle)
    (request : Option NegotiateRequest) (result : Option NegotiateResult) :
    Except Status (NegotiateRequest × NegotiateResult) := do
  let _ ← instanceEntry rt instance_
  let request ← presentElse request .invalidArgument
  let result ← presentElse result .invalidArgument
  guardElse (request.structSize = sizeof .negotiateRequest ∧
      result.structSize = sizeof .negotiateResult ∧ request.reserved0 = 0) .malformedDescriptor
  guardElse (request.abiMajor = 0 ∧ request.abiMinor ≤ 1) .incompatibleAbi
  guardElse (bytesEqual request.bundleSchema PooFlow.bundleSchema) .incompatibleSchema
  guardElse (request.requiredCapabilities &&& ~~~supportedCapabilities = 0)
    .unsupportedCapability
  return (request, result)

def negotiate (rt : Runtime) (instance_ : Handle) (request : Option NegotiateRequest)
    (result : Option NegotiateResult) : Outcome NegotiateResult :=
  .ofAdmission rt (negotiateAdmission rt instance_ request result) fun (request, result) =>
    let capabilities := supportedCapabilities &&&
      (request.requiredCapabilities ||| request.optionalCapabilities)
    match allocateResource rt instance_.instanceId .profile with
    | .error status => .rejected rt status
    | .ok (i, rt') =>
      .accepted (rt'.modify i (fun r => { r with capabilities := capabilities }))
        { result with
          abiMajor := 0
          abiMinor := 1
          capabilities := capabilities
          concurrencyProfile := 0
          reserved0 := 0
          maxPayloadBytes := request.maxPayloadBytes
          profile := handleOf rt' i }

def releaseOfKind (kind : Kind) (rt : Runtime) (instance_ handle : Handle) : Outcome Unit :=
  .ofAdmission rt (resolve rt instance_ handle kind) fun i =>
    .accepted (rt.modify i Resource.release) ()

def profileRelease : Runtime → Handle → Handle → Outcome Unit := releaseOfKind .profile

structure BundleDescriptor where
  structSize : ℕ := sizeof .bundleDescriptor
  digest : Digest
  bundleEpoch : ℕ
  schema : Option (List UInt8)
  canonicalPacket : Option (List UInt8)
  reserved0 : ℕ := 0

def bundleOpenAdmission (rt : Runtime) (instance_ profile : Handle)
    (descriptor : Option BundleDescriptor) (hasOut : Bool) :
    Except Status (Fin maxResources × BundleDescriptor) := do
  let p ← resolve rt instance_ profile .profile
  let descriptor ← presentElse descriptor .invalidArgument
  guardElse (hasOut = true) .invalidArgument
  guardElse (descriptor.structSize = sizeof .bundleDescriptor ∧ descriptor.reserved0 = 0 ∧
      descriptor.canonicalPacket.isSome ∧ descriptor.canonicalPacket ≠ some [])
    .malformedDescriptor
  guardElse (bytesEqual descriptor.schema bundleSchema) .incompatibleSchema
  return (p, descriptor)

def bundleOpen (rt : Runtime) (instance_ profile : Handle)
    (descriptor : Option BundleDescriptor) (hasOut : Bool) : Outcome Handle :=
  .ofAdmission rt (bundleOpenAdmission rt instance_ profile descriptor hasOut)
    fun (p, descriptor) =>
      match allocateResource rt instance_.instanceId .bundle with
      | .error status => .rejected rt status
      | .ok (i, rt') =>
        .accepted
          (rt'.modify i (fun r =>
            { r with
              parentId := profile.resourceId
              capabilities := (rt.resources p).capabilities
              epoch := descriptor.bundleEpoch
              digest := descriptor.digest }))
          (handleOf rt' i)

def bundleRelease (rt : Runtime) (instance_ bundle : Handle) : Outcome Unit :=
  .ofAdmission rt
    (do
      let i ← resolve rt instance_ bundle .bundle
      guardElse (∀ j, ¬((rt.resources j).alive = true ∧ (rt.resources j).kind = .session ∧
        (rt.resources j).parentId = bundle.resourceId)) .outstandingWork
      return i)
    fun i => .accepted (rt.modify i Resource.release) ()

structure SessionDescriptor where
  structSize : ℕ := sizeof .sessionDescriptor
  initialSequence : ℕ := 0
  outstandingWork : ℕ := 0
  reserved0 : ℕ := 0

/-- Allocate a session entry and its queue. When the queue cannot be allocated
the entry is released again, after its handle has been written out. -/
def allocateSession (rt : Runtime) (instanceId : ℕ) (memory : Bool)
    (fill : Resource → Resource) : Outcome Handle :=
  match allocateResource rt instanceId .session with
  | .error status => .rejected rt status
  | .ok (i, rt') =>
    if memory = false then
      { status := .allocationFailure
        written := some (handleOf rt' i)
        runtime := rt'.modify i Resource.release }
    else
      .accepted
        (rt'.modify i (fun r => fill { r with queue := { capacity := maxPendingEvents } }))
        (handleOf rt' i)

def sessionOpenAdmission (rt : Runtime) (instance_ bundle : Handle)
    (descriptor : Option SessionDescriptor) (hasOut : Bool) :
    Except Status (Fin maxResources × SessionDescriptor) := do
  let b ← resolve rt instance_ bundle .bundle
  let descriptor ← presentElse descriptor .invalidArgument
  guardElse (hasOut = true) .invalidArgument
  guardElse (descriptor.structSize = sizeof .sessionDescriptor ∧ descriptor.reserved0 = 0)
    .malformedDescriptor
  return (b, descriptor)

def sessionOpen (rt : Runtime) (instance_ bundle : Handle)
    (descriptor : Option SessionDescriptor) (hasOut memory : Bool) : Outcome Handle :=
  .ofAdmission rt (sessionOpenAdmission rt instance_ bundle descriptor hasOut)
    fun (b, descriptor) =>
      allocateSession rt instance_.instanceId memory (fun r =>
        { r with
          state := .opened
          parentId := bundle.resourceId
          capabilities := (rt.resources b).capabilities
          epoch := (rt.resources b).epoch
          sequence := descriptor.initialSequence
          outstanding := descriptor.outstandingWork
          digest := (rt.resources b).digest })

def sessionCancel (rt : Runtime) (instance_ session : Handle) : Outcome Unit :=
  .ofAdmission rt
    (do
      let i ← resolve rt instance_ session .session
      guardElse ((rt.resources i).state ≠ .closed) .invalidState
      return i)
    fun i => .accepted (rt.modify i (fun r => { r with state := .cancelled })) ()

def sessionClose (rt : Runtime) (instance_ session : Handle) (disposition : ℕ) : Outcome Unit :=
  .ofAdmission rt
    (do
      let i ← resolve rt instance_ session .session
      guardElse ((rt.resources i).state ≠ .closed) .invalidState
      guardElse (¬((rt.resources i).outstanding ≠ 0 ∧ disposition = 0)) .outstandingWork
      return i)
    fun i =>
      .accepted (rt.modify i (fun r => { r with outstanding := 0, state := .closed })) ()

def sessionReleaseAdmission (rt : Runtime) (instance_ session : Handle) :
    Except Status (Fin maxResources) := do
  let i ← resolve rt instance_ session .session
  guardElse ((rt.resources i).state = .closed) .invalidState
  return i

def sessionRelease (rt : Runtime) (instance_ session : Handle) : Outcome Unit :=
  .ofAdmission rt (sessionReleaseAdmission rt instance_ session) fun i =>
    .accepted (rt.modify i Resource.release) ()

variable (rt : Runtime) (inst arena : Handle)

theorem sessionRelease_cases (session : Handle) : (sessionRelease rt inst session).runtime = rt ∨
      ∃ i, sessionReleaseAdmission rt inst session = .ok i ∧
        resolve rt inst session .session = .ok i ∧
        (sessionRelease rt inst session).runtime = rt.modify i Resource.release := by
  rcases Outcome.ofAdmission_eq rt (sessionReleaseAdmission rt inst session)
    (fun i => .accepted (rt.modify i Resource.release) ()) with
    ⟨_, _, heq⟩ | ⟨i, hadmission, heq⟩
  · exact Or.inl (by rw [sessionRelease, heq, Outcome.rejected_runtime])
  · refine Or.inr ⟨i, hadmission, ?_, by rw [sessionRelease, heq, Outcome.accepted_runtime]⟩
    simp only [sessionReleaseAdmission, bind_eq_ok, guardElse_eq_ok, exists_const,
      pure_eq_ok] at hadmission
    obtain ⟨_, hresolve, _, rfl⟩ := hadmission
    exact hresolve

def checksumBytes (bytes : List UInt8) : UInt64 :=
  bytes.foldl (fun value byte => (value ^^^ byte.toUInt64) * 1099511628211)
    1469598103934665603

def SessionState.code : SessionState → UInt32
  | .unset => 0
  | .opened => 1
  | .cancelled => 2
  | .closed => 3
  | .foreign code _ => code

def SessionState.ofCode (code : UInt32) : SessionState :=
  if code = 0 then .unset
  else if code = 1 then .opened
  else if code = 2 then .cancelled
  else if code = 3 then .closed
  else if h : 3 < code then .foreign code h
  else .unset

def checkpointMagic : ℕ := 0x504f4f4350303031

/-- `checkpoint_packet` without its checksum. -/
structure CheckpointPacket where
  magic : ℕ := checkpointMagic
  epoch : ℕ
  sequence : ℕ
  state : SessionState
  reserved : ℕ := 0
  digest : Digest

def CheckpointPacket.body (packet : CheckpointPacket) : List UInt8 :=
  littleEndian 8 packet.magic ++ littleEndian 8 packet.epoch ++
    littleEndian 8 packet.sequence ++ littleEndian 4 packet.state.code.toNat ++
    littleEndian 4 packet.reserved ++ packet.digest.bytes

def CheckpointPacket.encode (packet : CheckpointPacket) : List UInt8 :=
  packet.body ++ littleEndian 8 (checksumBytes packet.body).toNat

def CheckpointPacket.decode (bytes : List UInt8)
    (h : bytes.length = sizeof .checkpointPacket) : CheckpointPacket × ℕ :=
  ({ magic := ofLittleEndian (bytes.take 8)
     epoch := ofLittleEndian ((bytes.drop 8).take 8)
     sequence := ofLittleEndian ((bytes.drop 16).take 8)
     state := .ofCode (UInt32.ofNat (ofLittleEndian ((bytes.drop 24).take 4)))
     reserved := ofLittleEndian ((bytes.drop 28).take 4)
     digest := ⟨(bytes.drop 32).take 32, by simp [h, sizeof, digestBytes]⟩ },
    ofLittleEndian (bytes.drop 64))

/-- `poo_flow_runtime_v0_owned_bytes`; `bytes` is what `ptr` points to. -/
structure OwnedBytes where
  bytes : Option (List UInt8) := none
  len : ℕ := 0
  capacity : ℕ := 0
  owner : Handle := nullHandle

/-- Hand out an owned copy of `bytes`. -/
def allocateBytes (rt : Runtime) (instanceId : ℕ) (bytes : List UInt8) : Outcome OwnedBytes :=
  match allocateResource rt instanceId .bytes with
  | .error status => .rejected rt status
  | .ok (i, rt') =>
    .accepted (rt'.modify i (fun r => { r with bytes := some bytes }))
      { bytes := some bytes
        len := bytes.length
        capacity := bytes.length
        owner := handleOf rt' i }

def checkpointOf (r : Resource) : CheckpointPacket where
  epoch := r.epoch
  sequence := r.sequence
  state := r.state
  digest := r.digest

def sessionCheckpoint (rt : Runtime) (instance_ session : Handle) (hasOut memory : Bool) :
    Outcome OwnedBytes :=
  .ofAdmission rt
    (do
      let i ← resolve rt instance_ session .session
      guardElse (hasOut = true) .invalidArgument
      guardElse (memory = true) .allocationFailure
      return i)
    fun i => allocateBytes rt instance_.instanceId (checkpointOf (rt.resources i)).encode

def restoreAdmission (rt : Runtime) (instance_ bundle : Handle)
    (checkpoint : Option (List UInt8)) (hasOut : Bool) :
    Except Status (Fin maxResources × CheckpointPacket) := do
  let b ← resolve rt instance_ bundle .bundle
  let bytes ← presentElse checkpoint .checkpointIncompatible
  if h : bytes.length = sizeof .checkpointPacket then
    guardElse (hasOut = true) .checkpointIncompatible
    let (packet, checksum) := CheckpointPacket.decode bytes h
    guardElse (packet.magic = checkpointMagic ∧ packet.reserved = 0 ∧
        checksum = (checksumBytes (bytes.take 64)).toNat) .checkpointIncompatible
    guardElse (packet.epoch = (rt.resources b).epoch ∧
        packet.digest = (rt.resources b).digest) .bundleIdentityMismatch
    return (b, packet)
  else .error .checkpointIncompatible

def sessionRestore (rt : Runtime) (instance_ bundle : Handle)
    (checkpoint : Option (List UInt8)) (hasOut memory : Bool) : Outcome Handle :=
  .ofAdmission rt (restoreAdmission rt instance_ bundle checkpoint hasOut)
    fun (b, packet) =>
      allocateSession rt instance_.instanceId memory (fun r =>
        { r with
          -- a closed session is restored open
          state := if packet.state = .closed then .opened else packet.state
          parentId := bundle.resourceId
          capabilities := (rt.resources b).capabilities
          epoch := packet.epoch
          sequence := packet.sequence
          digest := packet.digest })

def powerOfTwo (value : ℕ) : Prop := value ≠ 0 ∧ value &&& (value - 1) = 0

instance (value : ℕ) : Decidable (powerOfTwo value) := inferInstanceAs (Decidable (_ ∧ _))

/-- The arena descriptor; `ptr` is an address, zero when null. -/
structure ArenaDescriptor where
  structSize : ℕ := sizeof .arenaDescriptor
  alignment : ℕ := 16
  ptr : ℕ
  capacity : ℕ
  generation : ℕ
  reserved0 : ℕ := 0

def arenaRegisterAdmission (rt : Runtime) (instance_ : Handle)
    (descriptor : Option ArenaDescriptor) (hasOut : Bool) : Except Status ArenaDescriptor := do
  let _ ← instanceEntry rt instance_
  let descriptor ← presentElse descriptor .invalidArgument
  guardElse (hasOut = true) .invalidArgument
  guardElse (descriptor.structSize = sizeof .arenaDescriptor ∧ descriptor.reserved0 = 0 ∧
      descriptor.ptr ≠ 0 ∧ descriptor.capacity ≠ 0 ∧ powerOfTwo descriptor.alignment ∧
      16 ≤ descriptor.alignment ∧ descriptor.ptr % descriptor.alignment = 0)
    .malformedDescriptor
  return descriptor

def arenaRegister (rt : Runtime) (instance_ : Handle) (descriptor : Option ArenaDescriptor)
    (hasOut : Bool) : Outcome Handle :=
  .ofAdmission rt (arenaRegisterAdmission rt instance_ descriptor hasOut) fun descriptor =>
    match allocateResource rt instance_.instanceId .arena with
    | .error status => .rejected rt status
    | .ok (i, rt') =>
      .accepted
        (rt'.modify i (fun r =>
          { r with
            arenaPtr := descriptor.ptr
            arenaCapacity := descriptor.capacity
            arenaGeneration := descriptor.generation }))
        (handleOf rt' i)

def arenaReleaseAdmission (rt : Runtime) (instance_ arena : Handle) :
    Except Status (Fin maxResources) := do
  let i ← resolve rt instance_ arena .arena
  guardElse ((rt.resources i).inflightCount = 0) .arenaBusy
  return i

def Resource.releaseArena (r : Resource) : Resource :=
  Resource.release { r with arenaPtr := 0, arenaCapacity := 0 }

def arenaRelease (rt : Runtime) (instance_ arena : Handle) : Outcome Unit :=
  .ofAdmission rt (arenaReleaseAdmission rt instance_ arena) fun i =>
    .accepted (rt.modify i Resource.releaseArena) ()

theorem arenaRelease_cases : (arenaRelease rt inst arena).runtime = rt ∨
      ∃ i, arenaReleaseAdmission rt inst arena = .ok i ∧
        resolve rt inst arena .arena = .ok i ∧ (rt.resources i).inflightCount = 0 ∧
        (arenaRelease rt inst arena).runtime = rt.modify i Resource.releaseArena := by
  rcases Outcome.ofAdmission_eq rt (arenaReleaseAdmission rt inst arena)
    (fun i => .accepted (rt.modify i Resource.releaseArena) ()) with
    ⟨_, _, heq⟩ | ⟨i, hadmission, heq⟩
  · exact Or.inl (by rw [arenaRelease, heq, Outcome.rejected_runtime])
  · have hchecks := hadmission
    simp only [arenaReleaseAdmission, bind_eq_ok, guardElse_eq_ok, exists_const,
      pure_eq_ok] at hchecks
    obtain ⟨_, hresolve, hidle, rfl⟩ := hchecks
    exact Or.inr ⟨_, hadmission, hresolve, hidle,
      by rw [arenaRelease, heq, Outcome.accepted_runtime]⟩

def arenaRecycleAdmission (rt : Runtime) (instance_ arena : Handle)
    (expectedGeneration nextGeneration : ℕ) : Except Status (Fin maxResources) := do
  let i ← resolve rt instance_ arena .arena
  guardElse ((rt.resources i).arenaGeneration = expectedGeneration) .staleGeneration
  guardElse (expectedGeneration < nextGeneration) .invalidArgument
  guardElse ((rt.resources i).inflightCount = 0) .arenaBusy
  return i

def Resource.recycle (nextGeneration : ℕ) (r : Resource) : Resource :=
  { r with arenaGeneration := nextGeneration }

def arenaRecycle (rt : Runtime) (instance_ arena : Handle)
    (expectedGeneration nextGeneration : ℕ) : Outcome Unit :=
  .ofAdmission rt
    (arenaRecycleAdmission rt instance_ arena expectedGeneration nextGeneration) fun i =>
      .accepted (rt.modify i (Resource.recycle nextGeneration)) ()

theorem arenaRecycle_cases (expected next : ℕ) :
    (arenaRecycle rt inst arena expected next).runtime = rt ∨
      ∃ i, arenaRecycleAdmission rt inst arena expected next = .ok i ∧
        resolve rt inst arena .arena = .ok i ∧ (rt.resources i).inflightCount = 0 ∧
        (arenaRecycle rt inst arena expected next).runtime =
          rt.modify i (Resource.recycle next) := by
  rcases Outcome.ofAdmission_eq rt (arenaRecycleAdmission rt inst arena expected next)
    (fun i => .accepted (rt.modify i (Resource.recycle next)) ()) with
    ⟨_, _, heq⟩ | ⟨i, hadmission, heq⟩
  · exact Or.inl (by rw [arenaRecycle, heq, Outcome.rejected_runtime])
  · have hchecks := hadmission
    simp only [arenaRecycleAdmission, bind_eq_ok, guardElse_eq_ok, exists_const,
      pure_eq_ok] at hchecks
    obtain ⟨_, hresolve, _, _, hidle, rfl⟩ := hchecks
    exact Or.inr ⟨_, hadmission, hresolve, hidle,
      by rw [arenaRecycle, heq, Outcome.accepted_runtime]⟩

def ownedBytesRelease (rt : Runtime) (instance_ : Handle) (value : Option OwnedBytes) :
    Outcome OwnedBytes :=
  .ofAdmission rt
    (do
      let value ← presentElse value .invalidArgument
      let i ← resolve rt instance_ value.owner .bytes
      return (i, value))
    fun (i, value) =>
      .accepted (rt.modify i Resource.release)
        { value with bytes := none, len := 0, capacity := 0 }

def Status.name : Status → String
  | .ok => "ok"
  | .invalidArgument => "invalid-argument"
  | .incompatibleAbi => "incompatible-abi"
  | .incompatibleSchema => "incompatible-schema"
  | .unsupportedCapability => "unsupported-capability"
  | .malformedDescriptor => "malformed-descriptor"
  | .wrongHandleKind => "wrong-handle-kind"
  | .staleHandle => "stale-handle"
  | .crossInstanceHandle => "cross-instance-handle"
  | .alreadyReleased => "already-released"
  | .invalidState => "invalid-state"
  | .bundleIdentityMismatch => "bundle-identity-mismatch"
  | .checkpointIncompatible => "checkpoint-incompatible"
  | .cancelled => "cancelled"
  | .outstandingWork => "outstanding-work"
  | .allocationFailure => "allocation-failure"
  | .internalInvariant => "internal-invariant"
  | .duplicateAccepted => "duplicate-accepted"
  | .payloadBounds => "payload-bounds"
  | .staleGeneration => "stale-generation"
  | .arenaBusy => "arena-busy"
  | .tokenReplay => "token-replay"
  | .executionRootFork => "execution-root-fork"
  | .tokenBindingMismatch => "token-binding-mismatch"
  | .diagnosticCannotExecute => "diagnostic-cannot-execute"
  | .foreign _ _ => "unknown"

def errorMessage (rt : Runtime) (instance_ : Handle) (status : Status)
    (hasOut memory : Bool) : Outcome OwnedBytes :=
  .ofAdmission rt
    (do
      let _ ← instanceEntry rt instance_
      guardElse (hasOut = true) .invalidArgument
      guardElse (memory = true) .allocationFailure)
    fun _ => allocateBytes rt instance_.instanceId (textBytes status.name)

end PooFlow
