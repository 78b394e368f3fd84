import PooFlow.Foundation.Endian
import PooFlow.Foundation.Memory

/-! The records of `bundle_v1.h` and `poo_flow_bundle_v1_validate`. The host is little-endian with
64-bit addresses, so records have no padding. `.ok ()` is `POO_FLOW_BUNDLE_V1_OK`. -/

namespace PooFlow.Bundle

open Foundation

/-- `poo_flow_bundle_v1_status`. -/
inductive Status where
  | ok
  | invalidArgument
  | incompatibleSchema
  | malformedDescriptor
  | regionBounds
  | regionLayout
  | unsortedTable
  | duplicateKey
  | notFound
  | outOfMemory
  | referenceLimit
  | unsupportedEndian
  deriving DecidableEq

/-- How a call ends early: it returns a status other than `ok`, or it has faulted. -/
inductive Stop where
  | status (status : Status)
  | fault (fault : Fault)
  deriving DecidableEq

instance : Faulting Stop := ⟨.fault⟩

def u16At (bytes : List UInt8) (offset : ℕ) : UInt16 :=
  UInt16.ofNat (ofLittleEndian ((bytes.drop offset).take 2))

def u32At (bytes : List UInt8) (offset : ℕ) : UInt32 :=
  UInt32.ofNat (ofLittleEndian ((bytes.drop offset).take 4))

def u64At (bytes : List UInt8) (offset : ℕ) : UInt64 :=
  UInt64.ofNat (ofLittleEndian ((bytes.drop offset).take 8))

structure CompactId where
  high : UInt64
  low : UInt64
deriving DecidableEq

def compactIdAt (bytes : List UInt8) (offset : ℕ) : CompactId :=
  ⟨u64At bytes offset, u64At bytes (offset + 8)⟩

def compactIdCompare (left right : CompactId) : Ordering :=
  if left.high < right.high then .lt
  else if left.high > right.high then .gt
  else if left.low < right.low then .lt
  else if left.low > right.low then .gt
  else .eq

structure Region where
  offset : UInt64
  length : UInt64
  stride : UInt32
  alignment : UInt32

def regionAt (bytes : List UInt8) (offset : ℕ) : Region :=
  ⟨u64At bytes offset, u64At bytes (offset + 8), u32At bytes (offset + 16),
    u32At bytes (offset + 20)⟩

structure SymbolEntry where
  symbolId : CompactId
  byteOffset : UInt64
  byteLength : UInt32
  symbolKind : UInt16
  flags : UInt16

structure ComponentEntry where
  caseId : CompactId
  componentId : CompactId
  objectId : CompactId
  typeId : CompactId
  contractId : CompactId
  roleId : CompactId
  capabilityId : CompactId
  policyId : CompactId
  strategyId : CompactId
  adapterId : CompactId
  projectionId : CompactId
  compositionOrder : UInt64
  flags : UInt32
  reserved0 : UInt32
  reserved1 : UInt64

structure EdgeEntry where
  caseId : CompactId
  sourceComponentId : CompactId
  targetComponentId : CompactId
  relationId : CompactId
  compositionOrder : UInt64
  flags : UInt32
  reserved0 : UInt32

structure EvidenceEntry where
  caseId : CompactId
  obligationId : CompactId
  contractId : CompactId
  evidenceTypeId : CompactId
  proofSystemId : CompactId
  compositionOrder : UInt64
  flags : UInt32
  reserved0 : UInt32

def symbolLayout : RowLayout SymbolEntry where
  size := 32
  alignment := 8
  decode bytes :=
    { symbolId := compactIdAt bytes 0
      byteOffset := u64At bytes 16
      byteLength := u32At bytes 24
      symbolKind := u16At bytes 28
      flags := u16At bytes 30 }
  aligned := rfl
  size_pos := by decide

def componentLayout : RowLayout ComponentEntry where
  size := 200
  alignment := 8
  decode bytes :=
    { caseId := compactIdAt bytes 0
      componentId := compactIdAt bytes 16
      objectId := compactIdAt bytes 32
      typeId := compactIdAt bytes 48
      contractId := compactIdAt bytes 64
      roleId := compactIdAt bytes 80
      capabilityId := compactIdAt bytes 96
      policyId := compactIdAt bytes 112
      strategyId := compactIdAt bytes 128
      adapterId := compactIdAt bytes 144
      projectionId := compactIdAt bytes 160
      compositionOrder := u64At bytes 176
      flags := u32At bytes 184
      reserved0 := u32At bytes 188
      reserved1 := u64At bytes 192 }
  aligned := rfl
  size_pos := by decide

def edgeLayout : RowLayout EdgeEntry where
  size := 80
  alignment := 8
  decode bytes :=
    { caseId := compactIdAt bytes 0
      sourceComponentId := compactIdAt bytes 16
      targetComponentId := compactIdAt bytes 32
      relationId := compactIdAt bytes 48
      compositionOrder := u64At bytes 64
      flags := u32At bytes 72
      reserved0 := u32At bytes 76 }
  aligned := rfl
  size_pos := by decide

def evidenceLayout : RowLayout EvidenceEntry where
  size := 96
  alignment := 8
  decode bytes :=
    { caseId := compactIdAt bytes 0
      obligationId := compactIdAt bytes 16
      contractId := compactIdAt bytes 32
      evidenceTypeId := compactIdAt bytes 48
      proofSystemId := compactIdAt bytes 64
      compositionOrder := u64At bytes 80
      flags := u32At bytes 88
      reserved0 := u32At bytes 92 }
  aligned := rfl
  size_pos := by decide

structure Descriptor where
  structSize : UInt32
  flags : UInt32
  schemaMajor : UInt16
  schemaMinor : UInt16
  reserved0 : UInt32
  bundleId : CompactId
  digest : Vector UInt8 32
  bundleEpoch : UInt64
  arenaBytes : UInt64
  symbols : Region
  components : Region
  edges : Region
  evidenceObligations : Region
  metadataBytes : Region
  reserved : Vector UInt64 7

def descriptorBytes : ℕ := 256

/-- `memcpy(&descriptor, descriptor_bytes, sizeof(descriptor))`. -/
def descriptorOf (bytes : List UInt8) : Descriptor where
  structSize := u32At bytes 0
  flags := u32At bytes 4
  schemaMajor := u16At bytes 8
  schemaMinor := u16At bytes 10
  reserved0 := u32At bytes 12
  bundleId := compactIdAt bytes 16
  digest := .ofFn fun i => bytes.getD (32 + i) 0
  bundleEpoch := u64At bytes 64
  arenaBytes := u64At bytes 72
  symbols := regionAt bytes 80
  components := regionAt bytes 104
  edges := regionAt bytes 128
  evidenceObligations := regionAt bytes 152
  metadataBytes := regionAt bytes 176
  reserved := .ofFn fun i => u64At bytes (200 + 8 * i)

variable {ρ : Type}

def isPowerOfTwo (value : UInt32) : Bool :=
  value ≠ 0 ∧ value &&& (value - 1) = 0

/-- `validate_region`, over an arena of `arenaBytes` bytes at the address `arena`. -/
def validateRegion (region : Region) (arena arenaBytes expectedStride minimumAlignment : ℕ) :
    Except Stop Unit := do
  guardElse (region.offset.toNat ≤ arenaBytes) (.status .regionBounds)
  let room ← subWords arenaBytes region.offset.toNat
  guardElse (region.length.toNat ≤ room) (.status .regionBounds)
  guardElse (isPowerOfTwo region.alignment) (.status .regionLayout)
  guardElse (minimumAlignment ≤ region.alignment.toNat) (.status .regionLayout)
  guardElse (region.offset.toNat % region.alignment.toNat = 0) (.status .regionLayout)
  let address ← addWords arena region.offset.toNat
  guardElse (address % region.alignment.toNat = 0) (.status .regionLayout)
  -- a region of bytes has no stride to expect
  if expectedStride = 0 then
    guardElse (region.stride = 1) (.status .regionLayout)
  else
    guardElse (region.stride.toNat = expectedStride ∧ region.length.toNat % expectedStride = 0)
      (.status .regionLayout)

def regionBase (arena : Block) (region : Region) : Except Stop ℕ :=
  addWords arena.base region.offset.toNat

/-- `validate_digest`: some byte is not zero. -/
def validateDigest (descriptor : Descriptor) : Except Stop Unit :=
  guardElse (descriptor.digest.toList.foldl (· ||| ·) 0 ≠ 0) (.status .malformedDescriptor)

def rowCount (layout : RowLayout ρ) (region : Region) : ℕ :=
  region.length.toNat / layout.size

def validateOrder (order : Ordering) : Except Stop Unit := do
  guardElse (order ≠ .gt) (.status .unsortedTable)
  guardElse (order ≠ .eq) (.status .duplicateKey)

def validateRow (layout : RowLayout ρ) (check : ρ → Except Stop Unit) (order : ρ → ρ → Ordering)
    (arena : Block) (entries index : ℕ) : Except Stop Unit := do
  let entry ← arena.entry layout entries index
  check entry
  if index = 0 then
    return ()
  else do
    let before ← subWords index 1
    let previous ← arena.entry layout entries before
    validateOrder (order previous entry)

def validateRows (layout : RowLayout ρ) (check : ρ → Except Stop Unit) (order : ρ → ρ → Ordering)
    (region : Region) (arena : Block) : Except Stop Unit := do
  let entries ← regionBase arena region
  forBelow (validateRow layout check order arena entries) (rowCount layout region) 0

def compareWords (left right : UInt64) : Ordering :=
  if left < right then .lt else if left > right then .gt else .eq

def symbolOrder (previous entry : SymbolEntry) : Ordering :=
  compactIdCompare previous.symbolId entry.symbolId

def componentOrder (previous entry : ComponentEntry) : Ordering :=
  (compactIdCompare previous.caseId entry.caseId).then
    (compactIdCompare previous.componentId entry.componentId)

def edgeOrder (previous entry : EdgeEntry) : Ordering :=
  (compactIdCompare previous.caseId entry.caseId).then <|
    (compactIdCompare previous.sourceComponentId entry.sourceComponentId).then <|
      (compareWords previous.compositionOrder entry.compositionOrder).then <|
        (compactIdCompare previous.targetComponentId entry.targetComponentId).then <|
          compactIdCompare previous.relationId entry.relationId

def evidenceOrder (previous entry : EvidenceEntry) : Ordering :=
  (compactIdCompare previous.caseId entry.caseId).then
    (compactIdCompare previous.obligationId entry.obligationId)

/-- The text of a symbol lies in the metadata, which has `metadataLength` bytes. -/
def checkSymbol (metadataLength : ℕ) (entry : SymbolEntry) : Except Stop Unit := do
  guardElse (entry.flags = 0) (.status .regionBounds)
  guardElse (entry.byteOffset.toNat ≤ metadataLength) (.status .regionBounds)
  let room ← subWords metadataLength entry.byteOffset.toNat
  guardElse (entry.byteLength.toNat ≤ room) (.status .regionBounds)

def componentKnownFlags : UInt32 := 1

def checkComponent (entry : ComponentEntry) : Except Stop Unit :=
  guardElse (entry.flags &&& ~~~componentKnownFlags = 0 ∧ entry.reserved0 = 0 ∧
    entry.reserved1 = 0) (.status .malformedDescriptor)

def checkEdge (entry : EdgeEntry) : Except Stop Unit :=
  guardElse (entry.flags = 0 ∧ entry.reserved0 = 0) (.status .malformedDescriptor)

def checkEvidence (entry : EvidenceEntry) : Except Stop Unit :=
  guardElse (entry.flags = 0 ∧ entry.reserved0 = 0) (.status .malformedDescriptor)

def validateSymbols (descriptor : Descriptor) (arena : Block) : Except Stop Unit :=
  validateRows symbolLayout (checkSymbol descriptor.metadataBytes.length.toNat) symbolOrder
    descriptor.symbols arena

def validateComponents (descriptor : Descriptor) (arena : Block) : Except Stop Unit :=
  validateRows componentLayout checkComponent componentOrder descriptor.components arena

def validateEdges (descriptor : Descriptor) (arena : Block) : Except Stop Unit :=
  validateRows edgeLayout checkEdge edgeOrder descriptor.edges arena

def validateEvidence (descriptor : Descriptor) (arena : Block) : Except Stop Unit :=
  validateRows evidenceLayout checkEvidence evidenceOrder descriptor.evidenceObligations arena

def schemaMajor : UInt16 := 1

def schemaMinor : UInt16 := 0

def descriptorKnownFlags : UInt32 := 3

def validateHeader (descriptor : Descriptor) (arenaBytes : UInt64) : Except Stop Unit := do
  guardElse (descriptorBytes ≤ descriptor.structSize.toNat ∧
    descriptor.schemaMajor = schemaMajor ∧ descriptor.schemaMinor ≤ schemaMinor)
    (.status .incompatibleSchema)
  guardElse (descriptor.flags &&& descriptorKnownFlags = descriptorKnownFlags ∧
    descriptor.reserved0 = 0 ∧ descriptor.arenaBytes = arenaBytes) (.status .malformedDescriptor)
  guardElse (descriptor.reserved.toList.all (· == 0)) (.status .malformedDescriptor)
  validateDigest descriptor

def validateRowRegion (layout : RowLayout ρ) (region : Region) (arena : Block)
    (arenaBytes : UInt64) : Except Stop Unit :=
  validateRegion region arena.base arenaBytes.toNat layout.size layout.alignment

/-- `poo_flow_bundle_v1_validate`; `none` is `NULL`. -/
def validate (descriptor : Option Descriptor) (arena : Option Block) (arenaBytes : UInt64) :
    Except Stop Unit := do
  let descriptor ← presentElse descriptor (.status .invalidArgument)
  let arena ← presentElse arena (.status .invalidArgument)
  validateHeader descriptor arenaBytes
  validateRowRegion symbolLayout descriptor.symbols arena arenaBytes
  validateRowRegion componentLayout descriptor.components arena arenaBytes
  validateRowRegion edgeLayout descriptor.edges arena arenaBytes
  validateRowRegion evidenceLayout descriptor.evidenceObligations arena arenaBytes
  validateRegion descriptor.metadataBytes arena.base arenaBytes.toNat 0 1
  validateSymbols descriptor arena
  validateComponents descriptor arena
  validateEdges descriptor arena
  validateEvidence descriptor arena

end PooFlow.Bundle
