import PooFlow.Runtime.Frames

namespace PooFlow.Wasm

open Foundation

def pfwHandleCapacity : ℕ := 1024

/-- What a call returns: a status of the runtime or of the bundle library, or one of
`PFW_WASM_STATUS_*`. -/
inductive WasmStatus where
  | runtime (status : Status)
  | bundle (code : ℕ) (failed : code ≠ 0)
  | invalidArgument
  | invalidSlot
  | slotExhausted
deriving DecidableEq

def WasmStatus.zero : WasmStatus := .runtime .ok

/-- `pfw_handles` and `pfw_topologies` beside the runtime; the topologies are named by
the allocation that made them, and `arenas` are those that have not been released. -/
structure Shim where
  runtime : Runtime := .initial
  handles : ℕ → Option Handle := fun _ => none
  topologies : ℕ → Option ℕ := fun _ => none
  arenas : List ℕ := []
  nextArena : ℕ := 0

def slotGet {α : Type} (table : ℕ → Option α) (slot : ℕ) : Option α :=
  if slot = 0 ∨ pfwHandleCapacity ≤ slot then none else table slot

def slotFree {α : Type} (table : ℕ → Option α) : Option ℕ :=
  (List.range' 1 (pfwHandleCapacity - 1)).find? fun slot => (table slot).isNone

variable (s : Shim)

def pfwHandleGet (slot : ℕ) : Option Handle := slotGet s.handles slot

def pfwHandleStore (value : Handle) (slotOut : Bool) : WasmStatus × Shim :=
  if slotOut = false then (.invalidArgument, s)
  else
    match slotFree s.handles with
    | some slot => (.zero, { s with handles := Function.update s.handles slot (some value) })
    | none => (.slotExhausted, s)

def pfwHandleClear (slot : ℕ) : Shim :=
  if 0 < slot ∧ slot < pfwHandleCapacity then
    { s with handles := Function.update s.handles slot none }
  else s

def pfwTopologyGet (slot : ℕ) : Option ℕ := slotGet s.topologies slot

/-- `pfw_topology_store`, of an arena that is not null. -/
def pfwTopologyStore (arena : ℕ) (slotOut : Bool) : WasmStatus × Shim :=
  if slotOut = false then (.invalidArgument, s)
  else
    match slotFree s.topologies with
    | some slot => (.zero, { s with topologies := Function.update s.topologies slot (some arena) })
    | none => (.slotExhausted, s)

def arenaRelease (arena : ℕ) : Shim := { s with arenas := s.arenas.erase arena }

section

variable {ρ : Type}

def pfwCreate (outcome : Outcome ρ) (value : ρ → Handle) (slotOut : Bool) : WasmStatus × Shim :=
  let after := { s with runtime := outcome.runtime }
  if outcome.status = .ok then
    pfwHandleStore after ((outcome.written.map value).getD nullHandle) slotOut
  else (.runtime outcome.status, after)

def pfwRelease (outcome : Outcome ρ) (slot : ℕ) : WasmStatus × Shim :=
  let after := { s with runtime := outcome.runtime }
  if outcome.status = .ok then (.runtime outcome.status, pfwHandleClear after slot)
  else (.runtime outcome.status, after)

def pfwForward (outcome : Outcome ρ) : WasmStatus × Shim :=
  (.runtime outcome.status, { s with runtime := outcome.runtime })

def withHandle (slot : ℕ) (next : Handle → WasmStatus × Shim) : WasmStatus × Shim :=
  match pfwHandleGet s slot with
  | some handle => next handle
  | none => (.invalidSlot, s)

def withPointers (present : Bool) (next : WasmStatus × Shim) : WasmStatus × Shim :=
  if present then next else (.invalidArgument, s)

end

def pfwInstanceCreate (slotOut : Bool) : WasmStatus × Shim :=
  pfwCreate s (instanceCreate s.runtime true) id slotOut

def pfwInstanceRelease (instanceSlot : ℕ) : WasmStatus × Shim :=
  withHandle s instanceSlot fun inst => pfwRelease s (instanceRelease s.runtime inst) instanceSlot

def pfwNegotiate (instanceSlot : ℕ) (request : Option NegotiateRequest)
    (result : Option NegotiateResult) (slotOut : Bool) : WasmStatus × Shim :=
  withHandle s instanceSlot fun inst =>
    withPointers s (request.isSome && result.isSome && slotOut)
      (pfwCreate s (negotiate s.runtime inst request result) NegotiateResult.profile slotOut)

def pfwProfileRelease (instanceSlot profileSlot : ℕ) : WasmStatus × Shim :=
  withHandle s instanceSlot fun inst => withHandle s profileSlot fun profile =>
    pfwRelease s (profileRelease s.runtime inst profile) profileSlot

def pfwBundleOpen (instanceSlot profileSlot : ℕ) (descriptor : Option BundleDescriptor)
    (slotOut : Bool) : WasmStatus × Shim :=
  withHandle s instanceSlot fun inst => withHandle s profileSlot fun profile =>
    withPointers s (descriptor.isSome && slotOut)
      (pfwCreate s (bundleOpen s.runtime inst profile descriptor true) id slotOut)

def pfwBundleRelease (instanceSlot bundleSlot : ℕ) : WasmStatus × Shim :=
  withHandle s instanceSlot fun inst => withHandle s bundleSlot fun bundle =>
    pfwRelease s (bundleRelease s.runtime inst bundle) bundleSlot

def pfwSessionOpen (instanceSlot bundleSlot : ℕ) (descriptor : Option SessionDescriptor)
    (slotOut memory : Bool) : WasmStatus × Shim :=
  withHandle s instanceSlot fun inst => withHandle s bundleSlot fun bundle =>
    withPointers s (descriptor.isSome && slotOut)
      (pfwCreate s (sessionOpen s.runtime inst bundle descriptor true memory) id slotOut)

def pfwSessionCancel (instanceSlot sessionSlot : ℕ) : WasmStatus × Shim :=
  withHandle s instanceSlot fun inst => withHandle s sessionSlot fun session =>
    pfwForward s (sessionCancel s.runtime inst session)

def pfwSessionClose (instanceSlot sessionSlot disposition : ℕ) : WasmStatus × Shim :=
  withHandle s instanceSlot fun inst => withHandle s sessionSlot fun session =>
    pfwForward s (sessionClose s.runtime inst session disposition)

def pfwSessionRelease (instanceSlot sessionSlot : ℕ) : WasmStatus × Shim :=
  withHandle s instanceSlot fun inst => withHandle s sessionSlot fun session =>
    pfwRelease s (sessionRelease s.runtime inst session) sessionSlot

def pfwArenaRegister (instanceSlot : ℕ) (descriptor : Option ArenaDescriptor)
    (slotOut : Bool) : WasmStatus × Shim :=
  withHandle s instanceSlot fun inst =>
    withPointers s (descriptor.isSome && slotOut)
      (pfwCreate s (arenaRegister s.runtime inst descriptor true) id slotOut)

def pfwArenaRecycle (instanceSlot arenaSlot expectedGeneration nextGeneration : ℕ) :
    WasmStatus × Shim :=
  withHandle s instanceSlot fun inst => withHandle s arenaSlot fun arena =>
    pfwForward s (arenaRecycle s.runtime inst arena expectedGeneration nextGeneration)

def pfwArenaRelease (instanceSlot arenaSlot : ℕ) : WasmStatus × Shim :=
  withHandle s instanceSlot fun inst => withHandle s arenaSlot fun arena =>
    pfwRelease s (PooFlow.arenaRelease s.runtime inst arena) arenaSlot

def pfwPublishBatch (instanceSlot sessionSlot arenaSlot : ℕ) (request : Option PublishRequest)
    (result : Option PublishResult) : WasmStatus × Shim :=
  withHandle s instanceSlot fun inst => withHandle s sessionSlot fun session =>
    withHandle s arenaSlot fun arena =>
      withPointers s (request.isSome && result.isSome)
        (pfwForward s (publishBatch s.runtime inst session
          (request.map fun request => { request with arena }) result))

def bridgedPoll (inst session arena : Handle) (request : Option PollRequest)
    (result : Option PollResult) : Outcome PollResult :=
  pollBatch s.runtime inst session (request.map fun request => { request with arena }) result

def pfwPollBatch (instanceSlot sessionSlot arenaSlot : ℕ) (request : Option PollRequest)
    (result : Option PollResult) (slotOut : Bool) : WasmStatus × Shim :=
  withHandle s instanceSlot fun inst => withHandle s sessionSlot fun session =>
    withHandle s arenaSlot fun arena =>
      withPointers s (request.isSome && result.isSome && slotOut)
        (pfwCreate s (bridgedPoll s inst session arena request result) PollResult.lease slotOut)

def pfwSubmitBatch (instanceSlot sessionSlot arenaSlot : ℕ) (request : Option SubmitRequest)
    (result : Option SubmitResult) : WasmStatus × Shim :=
  withHandle s instanceSlot fun inst => withHandle s sessionSlot fun session =>
    withHandle s arenaSlot fun arena =>
      withPointers s (request.isSome && result.isSome)
        (pfwForward s (submitBatch s.runtime inst session
          (request.map fun request => { request with arena }) result))

def pfwBatchAck (instanceSlot sessionSlot leaseSlot : ℕ) : WasmStatus × Shim :=
  withHandle s instanceSlot fun inst => withHandle s sessionSlot fun session =>
    withHandle s leaseSlot fun lease =>
      pfwRelease s (batchAck s.runtime inst session lease) leaseSlot

/-- `created` is what `poo_flow_bundle_v1_arena_create_packed` answers: `none`, and an
arena, or the status it fails with. -/
def pfwTopologyOpenPacked (hasDescriptor hasArena slotOut : Bool)
    (created : Option {code : ℕ // code ≠ 0}) : WasmStatus × Shim :=
  withPointers s (hasDescriptor && hasArena && slotOut)
    (match created with
    | some code => (.bundle code.1 code.2, s)
    | none =>
      let arena := s.nextArena
      let made := { s with arenas := arena :: s.arenas, nextArena := arena + 1 }
      let stored := pfwTopologyStore made arena slotOut
      if stored.1 = .zero then stored else (stored.1, arenaRelease stored.2 arena))

def pfwTopologyRelease (topologySlot : ℕ) : WasmStatus × Shim :=
  match pfwTopologyGet s topologySlot with
  | none => (.invalidSlot, s)
  | some arena =>
    let released := arenaRelease s arena
    (.zero, { released with topologies := Function.update released.topologies topologySlot none })

/-- A call of the shim. The functions that only read a topology leave everything as it
is and are left out. -/
inductive PfwCall where
  | instanceCreate (slotOut : Bool)
  | instanceRelease (instanceSlot : ℕ)
  | negotiate (instanceSlot : ℕ) (request : Option NegotiateRequest)
      (result : Option NegotiateResult) (slotOut : Bool)
  | profileRelease (instanceSlot profileSlot : ℕ)
  | bundleOpen (instanceSlot profileSlot : ℕ) (descriptor : Option BundleDescriptor)
      (slotOut : Bool)
  | bundleRelease (instanceSlot bundleSlot : ℕ)
  | sessionOpen (instanceSlot bundleSlot : ℕ) (descriptor : Option SessionDescriptor)
      (slotOut memory : Bool)
  | sessionCancel (instanceSlot sessionSlot : ℕ)
  | sessionClose (instanceSlot sessionSlot disposition : ℕ)
  | sessionRelease (instanceSlot sessionSlot : ℕ)
  | arenaRegister (instanceSlot : ℕ) (descriptor : Option ArenaDescriptor) (slotOut : Bool)
  | arenaRecycle (instanceSlot arenaSlot expectedGeneration nextGeneration : ℕ)
  | arenaRelease (instanceSlot arenaSlot : ℕ)
  | publishBatch (instanceSlot sessionSlot arenaSlot : ℕ) (request : Option PublishRequest)
      (result : Option PublishResult)
  | pollBatch (instanceSlot sessionSlot arenaSlot : ℕ) (request : Option PollRequest)
      (result : Option PollResult) (slotOut : Bool)
  | submitBatch (instanceSlot sessionSlot arenaSlot : ℕ) (request : Option SubmitRequest)
      (result : Option SubmitResult)
  | batchAck (instanceSlot sessionSlot leaseSlot : ℕ)
  | topologyOpenPacked (hasDescriptor hasArena slotOut : Bool)
      (created : Option {code : ℕ // code ≠ 0})
  | topologyRelease (topologySlot : ℕ)

def PfwCall.answer : PfwCall → WasmStatus × Shim
  | .instanceCreate slotOut => pfwInstanceCreate s slotOut
  | .instanceRelease instanceSlot => pfwInstanceRelease s instanceSlot
  | .negotiate instanceSlot request result slotOut =>
    pfwNegotiate s instanceSlot request result slotOut
  | .profileRelease instanceSlot profileSlot => pfwProfileRelease s instanceSlot profileSlot
  | .bundleOpen instanceSlot profileSlot descriptor slotOut =>
    pfwBundleOpen s instanceSlot profileSlot descriptor slotOut
  | .bundleRelease instanceSlot bundleSlot => pfwBundleRelease s instanceSlot bundleSlot
  | .sessionOpen instanceSlot bundleSlot descriptor slotOut memory =>
    pfwSessionOpen s instanceSlot bundleSlot descriptor slotOut memory
  | .sessionCancel instanceSlot sessionSlot => pfwSessionCancel s instanceSlot sessionSlot
  | .sessionClose instanceSlot sessionSlot disposition =>
    pfwSessionClose s instanceSlot sessionSlot disposition
  | .sessionRelease instanceSlot sessionSlot => pfwSessionRelease s instanceSlot sessionSlot
  | .arenaRegister instanceSlot descriptor slotOut =>
    pfwArenaRegister s instanceSlot descriptor slotOut
  | .arenaRecycle instanceSlot arenaSlot expectedGeneration nextGeneration =>
    pfwArenaRecycle s instanceSlot arenaSlot expectedGeneration nextGeneration
  | .arenaRelease instanceSlot arenaSlot => pfwArenaRelease s instanceSlot arenaSlot
  | .publishBatch instanceSlot sessionSlot arenaSlot request result =>
    pfwPublishBatch s instanceSlot sessionSlot arenaSlot request result
  | .pollBatch instanceSlot sessionSlot arenaSlot request result slotOut =>
    pfwPollBatch s instanceSlot sessionSlot arenaSlot request result slotOut
  | .submitBatch instanceSlot sessionSlot arenaSlot request result =>
    pfwSubmitBatch s instanceSlot sessionSlot arenaSlot request result
  | .batchAck instanceSlot sessionSlot leaseSlot =>
    pfwBatchAck s instanceSlot sessionSlot leaseSlot
  | .topologyOpenPacked hasDescriptor hasArena slotOut created =>
    pfwTopologyOpenPacked s hasDescriptor hasArena slotOut created
  | .topologyRelease topologySlot => pfwTopologyRelease s topologySlot

def pfwStep (c : PfwCall) : Shim := (c.answer s).2

end PooFlow.Wasm
