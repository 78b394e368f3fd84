import PooFlow.Bundle.Validate

/-! Lookup in a validated arena, and the arena that `poo_flow_bundle_v1_arena_create` owns. A
pointer is its address. -/

namespace PooFlow.Bundle

open Foundation

/-- The first index from `low` on, below `high`, that is not smaller. -/
def search (order : ℕ → Except Stop Ordering) : ℕ → ℕ → ℕ → Except Stop ℕ
  | 0, low, _ => .ok low
  | rounds + 1, low, high =>
    if low < high then do
      let width ← subWords high low
      let middle ← addWords low (width / 2)
      match ← order middle with
      | .lt => do
        let next ← addWords middle 1
        search order rounds next high
      | _ => search order rounds low middle
    else .ok low

def componentKeyCompare (entry : ComponentEntry) (caseId componentId : CompactId) : Ordering :=
  (compactIdCompare entry.caseId caseId).then (compactIdCompare entry.componentId componentId)

/-- `poo_flow_bundle_v1_find_component`, with the address of the row it finds. -/
def findComponent (descriptor : Option Descriptor) (arena : Option Block)
    (caseId componentId : CompactId) : Except Stop ℕ := do
  let descriptor ← presentElse descriptor (.status .invalidArgument)
  let arena ← presentElse arena (.status .invalidArgument)
  let region := descriptor.components
  guardElse (region.stride.toNat = componentLayout.size ∧
    region.length.toNat % componentLayout.size = 0) (.status .malformedDescriptor)
  guardElse (region.offset.toNat ≤ descriptor.arenaBytes.toNat) (.status .malformedDescriptor)
  let room ← subWords descriptor.arenaBytes.toNat region.offset.toNat
  guardElse (region.length.toNat ≤ room) (.status .malformedDescriptor)
  let entries ← regionBase arena region
  let count := rowCount componentLayout region
  let low ← search (fun index => do
    let entry ← arena.entry componentLayout entries index
    return componentKeyCompare entry caseId componentId) count 0 count
  guardElse (low < count) (.status .notFound)
  let entry ← arena.entry componentLayout entries low
  guardElse (componentKeyCompare entry caseId componentId = .eq) (.status .notFound)
  componentLayout.address entries low

def recommendedArenaAlignment : ℕ := 64

/-- `poo_flow_bundle_v1_arena`, without its reference count. -/
structure OwnedArena where
  descriptor : Descriptor
  arenaBytes : UInt64
  data : Block

/-- What `aligned_alloc` returns for `size` bytes. -/
structure Allocation (size : ℕ) where
  base : ℕ
  pos : 0 < base
  aligned : base % recommendedArenaAlignment = 0
  fits : base + size < wordLimit

/-- `memcpy` into fresh memory. Only the copied bytes may be read. -/
def copyInto {size : ℕ} (allocation : Allocation size) (bytes : List UInt8) : Except Stop Block :=
  if h : bytes.length ≤ size then
    .ok ⟨allocation.base, bytes, allocation.pos,
      Nat.lt_of_le_of_lt (Nat.add_le_add_left h _) allocation.fits⟩
  else .error (fault .outOfBounds)

def allocationBytes (arenaBytes : UInt64) : Except Stop ℕ := do
  let padded ← addWords arenaBytes.toNat (recommendedArenaAlignment - 1)
  let rounded := (UInt64.ofNat padded &&& ~~~(UInt64.ofNat (recommendedArenaAlignment - 1))).toNat
  return if rounded = 0 then recommendedArenaAlignment else rounded

/-- `poo_flow_bundle_v1_arena_create`; the handle is allocated when `handle` is. -/
def arenaCreate (handle : Bool) (alignedAlloc : (size : ℕ) → Option (Allocation size))
    (descriptor : Option Descriptor) (arena : Option Block) (arenaBytes : UInt64) :
    Except Stop OwnedArena := do
  let source ← presentElse descriptor (.status .invalidArgument)
  let block ← presentElse arena (.status .invalidArgument)
  guardElse (arenaBytes.toNat ≤ wordLimit - 1 - (recommendedArenaAlignment - 1))
    (.status .invalidArgument)
  validate descriptor arena arenaBytes
  let size ← allocationBytes arenaBytes
  guardElse (handle = true) (.status .outOfMemory)
  let allocation ← presentElse (alignedAlloc size) (.status .outOfMemory)
  let bytes ← block.read block.base arenaBytes.toNat 1
  let data ← copyInto allocation bytes
  validate (some source) (some data) arenaBytes
  return ⟨source, arenaBytes, data⟩

def descriptorRegion (descriptor : Descriptor) (kind : UInt32) : Option Region :=
  if kind = 1 then some descriptor.symbols
  else if kind = 2 then some descriptor.components
  else if kind = 3 then some descriptor.edges
  else if kind = 4 then some descriptor.evidenceObligations
  else if kind = 5 then some descriptor.metadataBytes
  else none

/-- `poo_flow_bundle_v1_slice`. -/
structure Slice where
  data : ℕ
  length : UInt64
  stride : UInt32
  alignment : UInt32

def arenaSlice (arena : Option OwnedArena) (kind : UInt32) : Except Stop Slice := do
  let arena ← presentElse arena (.status .invalidArgument)
  let region ← presentElse (descriptorRegion arena.descriptor kind) (.status .invalidArgument)
  let data ← regionBase arena.data region
  return ⟨data, region.length, region.stride, region.alignment⟩

def arenaFindComponent (arena : Option OwnedArena) (caseId componentId : CompactId) :
    Except Stop ℕ := do
  let arena ← presentElse arena (.status .invalidArgument)
  findComponent (some arena.descriptor) (some arena.data) caseId componentId

def arenaCreatePacked (littleEndianHost handle : Bool)
    (alignedAlloc : (size : ℕ) → Option (Allocation size)) (descriptorBytes : Option (List UInt8))
    (arena : Option Block) (arenaBytes : UInt64) : Except Stop OwnedArena := do
  guardElse (littleEndianHost = true) (.status .unsupportedEndian)
  let image ← presentElse descriptorBytes (.status .invalidArgument)
  guardElse (image.length = Bundle.descriptorBytes) (.status .invalidArgument)
  arenaCreate handle alignedAlloc (some (descriptorOf image)) arena arenaBytes

end PooFlow.Bundle
