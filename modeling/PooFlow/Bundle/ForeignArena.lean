import PooFlow.Bundle.Lowering
import PooFlow.Foundation.Overwrite

namespace PooFlow.Bundle

open Foundation

abbrev Write := Except String

/-- `write-unsigned-le!`: `count` bytes of the value, the low one first. -/
def writeUnsigned (target : Bytes) (offset value count : ℕ) : Write Bytes := do
  guardElse (offset < wordLimit ∧ value < 256 ^ count ∧ offset + count ≤ target.length)
    "Bundle v1 unsigned write is out of bounds"
  let written := setBytes offset (List.range' 0 count) target value
  guardElse (written.2 = 0) "Bundle v1 unsigned write overflow"
  return written.1

def writeU16 (target : Bytes) (offset value : ℕ) : Write Bytes := writeUnsigned target offset value 2

def writeU32 (target : Bytes) (offset value : ℕ) : Write Bytes := writeUnsigned target offset value 4

def writeU64 (target : Bytes) (offset value : ℕ) : Write Bytes := writeUnsigned target offset value 8

def writeCompactId (target : Bytes) (offset : ℕ) (compactId : NativeId) : Write Bytes := do
  let target ← writeU64 target offset compactId.high
  writeU64 target (offset + 8) compactId.low

/-- `write-compact-ids!`, with the cursor after the last one. -/
def writeCompactIds (target : Bytes) (offset : ℕ) (compactIds : List NativeId) :
    Write (Bytes × ℕ) :=
  compactIds.foldlM (fun state compactId => do
    let target ← writeCompactId state.1 state.2 compactId
    return (target, state.2 + 16)) (target, offset)

/-- `write-bytevector!`, of a source of 32 bytes. -/
def writeDigest (target : Bytes) (offset : ℕ) (source : Digest) : Write Bytes :=
  return (List.range' 0 32).foldl (fun target byteOffset =>
    target.set (offset + byteOffset) (source.bytes.getD byteOffset 0)) target

def writeRegion (target : Bytes) (offset : ℕ) (region : NativeRegion) : Write Bytes := do
  let target ← writeU64 target offset region.offset
  let target ← writeU64 target (offset + 8) region.length
  let target ← writeU32 target (offset + 16) region.stride
  writeU32 target (offset + 20) region.alignment

/-- `checked-region!`, for a table of `rows` rows. -/
def checkedRegion (region : NativeRegion) (arenaLength expectedStride expectedAlignment rows : ℕ) :
    Write Unit :=
  guardElse (region.stride = expectedStride ∧ region.alignment = expectedAlignment ∧
    region.count = rows ∧ region.length = expectedStride * rows ∧
    region.offset % expectedAlignment = 0 ∧ region.offset ≤ arenaLength ∧
    region.length ≤ arenaLength - region.offset)
    "Bundle v1 region does not match its row table"

def writeComponentRow (target : Bytes) (offset : ℕ) (row : NativeComponent) : Write Bytes := do
  let (target, cursor) ← writeCompactIds target offset
    [row.caseId, row.componentId, row.objectId, row.typeId, row.contractId, row.roleId,
      row.capabilityId, row.policyId, row.strategyId, row.adapterId, row.projectionId]
  let target ← writeU64 target cursor row.compositionOrder
  let target ← writeU32 target (cursor + 8) row.flags
  let target ← writeU32 target (cursor + 12) row.reserved0
  writeU64 target (cursor + 16) row.reserved1

def writeSymbolRow (target : Bytes) (offset : ℕ) (row : NativeSymbol) : Write Bytes := do
  let target ← writeCompactId target offset row.id
  let target ← writeU64 target (offset + 16) row.byteOffset
  let target ← writeU32 target (offset + 24) row.byteLength
  let target ← writeU16 target (offset + 28) row.symbolKind
  writeU16 target (offset + 30) row.flags

def writeEdgeRow (target : Bytes) (offset : ℕ) (row : NativeEdge) : Write Bytes := do
  let (target, cursor) ← writeCompactIds target offset
    [row.caseId, row.sourceComponentId, row.targetComponentId, row.relationId]
  let target ← writeU64 target cursor row.compositionOrder
  let target ← writeU32 target (cursor + 8) row.flags
  writeU32 target (cursor + 12) row.reserved0

def writeEvidenceRow (target : Bytes) (offset : ℕ) (row : NativeEvidence) : Write Bytes := do
  let (target, cursor) ← writeCompactIds target offset
    [row.caseId, row.obligationId, row.contractId, row.evidenceTypeId, row.proofSystemId]
  let target ← writeU64 target cursor row.compositionOrder
  let target ← writeU32 target (cursor + 8) row.flags
  writeU32 target (cursor + 12) row.reserved0

def writeRowTable {ρ : Type} (target : Bytes) (region : NativeRegion) (rows : List ρ)
    (rowSize rowAlignment : ℕ) (writeRow : Bytes → ℕ → ρ → Write Bytes) : Write Bytes := do
  checkedRegion region target.length rowSize rowAlignment rows.length
  let state ← rows.foldlM (fun state row => do
    let written ← writeRow state.1 (region.offset + state.2 * rowSize) row
    return (written, state.2 + 1)) (target, 0)
  return state.1

def writeMetadata (target : Bytes) (region : NativeRegion) (metadataImage : Bytes) :
    Write Bytes := do
  guardElse (region.stride = 1 ∧ region.alignment = 1 ∧ region.count = metadataImage.length ∧
    region.length = metadataImage.length ∧ region.offset ≤ target.length ∧
    region.length ≤ target.length - region.offset)
    "Bundle v1 metadata region does not match its byte image"
  return (List.range' 0 metadataImage.length).foldl (fun target index =>
    target.set (region.offset + index) (metadataImage.getD index 0)) target

def writeReserved (target : Bytes) (offset : ℕ) (values : List ℕ) : Write Bytes := do
  guardElse (values.length = 7) "Bundle v1 descriptor requires seven reserved uint64 values"
  let state ← values.foldlM (fun state value => do
    let target ← writeU64 state.1 state.2 value
    return (target, state.2 + 8)) (target, offset)
  return state.1

def writeDescriptor (target : Bytes) (descriptor : NativeDescriptor) : Write Bytes := do
  guardElse (target.length = 256 ∧ descriptor.structSize = 256)
    "Bundle v1 descriptor image shape is invalid"
  let target ← writeU32 target 0 descriptor.structSize
  let target ← writeU32 target 4 descriptor.flags
  let target ← writeU16 target 8 descriptor.schemaMajor
  let target ← writeU16 target 10 descriptor.schemaMinor
  let target ← writeU32 target 12 descriptor.reserved0
  let target ← writeCompactId target 16 descriptor.bundleId
  let target ← writeDigest target 32 descriptor.digest
  let target ← writeU64 target 64 descriptor.bundleEpoch
  let target ← writeU64 target 72 descriptor.arenaBytes
  let target ← writeRegion target 80 descriptor.symbols
  let target ← writeRegion target 104 descriptor.components
  let target ← writeRegion target 128 descriptor.edges
  let target ← writeRegion target 152 descriptor.evidenceObligations
  let target ← writeRegion target 176 descriptor.metadataBytes
  writeReserved target 200 descriptor.reserved

def writeArena (target : Bytes) (descriptor : NativeDescriptor) : Write Bytes := do
  guardElse (target.length = descriptor.arenaBytes ∧ target.length % arenaAlignment = 0)
    "Bundle v1 arena image shape is invalid"
  let target ← writeRowTable target descriptor.symbols descriptor.symbolRows 32 8 writeSymbolRow
  let target ← writeMetadata target descriptor.metadataBytes descriptor.metadataImage
  let target ← writeRowTable target descriptor.components descriptor.componentRows 200 8
    writeComponentRow
  let target ← writeRowTable target descriptor.edges descriptor.edgeRows 80 8 writeEdgeRow
  writeRowTable target descriptor.evidenceObligations descriptor.evidenceRows 96 8
    writeEvidenceRow

/-- `poo-flow.feature-bundle-v1-foreign-arena-image.v1`. -/
structure ForeignArenaImage where
  descriptor : NativeDescriptor
  descriptorImage : Bytes
  arenaImage : Bytes
  arenaLength : ℕ

/-- `feature-bundle-v1-write-foreign-arena`, of an accepted plan. -/
def writeForeignArena (descriptor : NativeDescriptor) : Write ForeignArenaImage := do
  let descriptorImage ← writeDescriptor (List.replicate 256 0) descriptor
  let arenaImage ← writeArena (List.replicate descriptor.arenaBytes 0) descriptor
  return ⟨descriptor, descriptorImage, arenaImage, descriptor.arenaBytes⟩

end PooFlow.Bundle
