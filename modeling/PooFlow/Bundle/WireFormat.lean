import PooFlow.Bundle.ForeignArena
import PooFlow.Bundle.Safety

namespace PooFlow.Bundle

open Foundation Temporal List NativeDescriptor

section

variable {head rest : Bytes} {offset : ℕ}

section

variable (h : head.length ≤ offset)

include h

@[simp] theorem drop_skip : (head ++ rest).drop offset = rest.drop (offset - head.length) := by
  rw [drop_append, drop_eq_nil_of_le h, nil_append]

@[simp] theorem u16At_skip : u16At (head ++ rest) offset = u16At rest (offset - head.length) := by
  rw [u16At, drop_skip h, u16At]

@[simp] theorem u32At_skip : u32At (head ++ rest) offset = u32At rest (offset - head.length) := by
  rw [u32At, drop_skip h, u32At]

@[simp] theorem u64At_skip : u64At (head ++ rest) offset = u64At rest (offset - head.length) := by
  rw [u64At, drop_skip h, u64At]

@[simp] theorem compactIdAt_skip :
    compactIdAt (head ++ rest) offset = compactIdAt rest (offset - head.length) := by
  rw [compactIdAt, u64At_skip h, u64At_skip (Nat.le_add_right_of_le h), compactIdAt,
    Nat.sub_add_comm h]

@[simp] theorem regionAt_skip : regionAt (head ++ rest) offset = regionAt rest (offset - head.length) := by
  rw [regionAt, u64At_skip h, u64At_skip (Nat.le_add_right_of_le h),
    u32At_skip (Nat.le_add_right_of_le h), u32At_skip (Nat.le_add_right_of_le h), regionAt,
    Nat.sub_add_comm h, Nat.sub_add_comm h, Nat.sub_add_comm h]

end

theorem take_littleEndian (count value : ℕ) (rest : Bytes) :
    ofLittleEndian (((littleEndian count value ++ rest).drop 0).take count) =
      value % 256 ^ count := by
  rw [drop_zero, take_append_of_le_length (littleEndian_length _ _).ge,
    take_of_length_le (littleEndian_length _ _).le, ofLittleEndian_littleEndian]

variable (value : ℕ) (rest : Bytes)

@[simp] theorem u16At_littleEndian : u16At (littleEndian 2 value ++ rest) 0 = UInt16.ofNat value := by
  rw [u16At, take_littleEndian, ← UInt16.toNat_inj]
  simp

@[simp] theorem u32At_littleEndian : u32At (littleEndian 4 value ++ rest) 0 = UInt32.ofNat value := by
  rw [u32At, take_littleEndian, ← UInt32.toNat_inj]
  simp

@[simp] theorem u64At_littleEndian : u64At (littleEndian 8 value ++ rest) 0 = UInt64.ofNat value := by
  rw [u64At, take_littleEndian, ← UInt64.toNat_inj]
  simp

@[simp] theorem u16At_last : u16At (littleEndian 2 value) 0 = UInt16.ofNat value := by
  simpa using u16At_littleEndian value []

@[simp] theorem u32At_last : u32At (littleEndian 4 value) 0 = UInt32.ofNat value := by
  simpa using u32At_littleEndian value []

@[simp] theorem u64At_last : u64At (littleEndian 8 value) 0 = UInt64.ofNat value := by
  simpa using u64At_littleEndian value []

end

def NativeId.encode (id : NativeId) : Bytes := littleEndian 8 id.high ++ littleEndian 8 id.low

def NativeId.compact (id : NativeId) : CompactId := ⟨UInt64.ofNat id.high, UInt64.ofNat id.low⟩

/-- Both halves are words. -/
structure NativeId.Fits (id : NativeId) : Prop where
  high : id.high < 256 ^ 8
  low : id.low < 256 ^ 8

@[simp] theorem NativeId.length_encode (id : NativeId) : id.encode.length = 16 := by
  simp [NativeId.encode]

@[simp] theorem compactIdAt_encode (id : NativeId) (rest : Bytes) :
    compactIdAt (id.encode ++ rest) 0 = id.compact := by
  rw [compactIdAt, NativeId.encode, append_assoc, u64At_littleEndian,
    u64At_skip (by simp), littleEndian_length]
  simp only [Nat.zero_add, Nat.sub_self, u64At_littleEndian, NativeId.compact]

def NativeRegion.encode (region : NativeRegion) : Bytes :=
  littleEndian 8 region.offset ++ (littleEndian 8 region.length ++
    (littleEndian 4 region.stride ++ littleEndian 4 region.alignment))

def NativeRegion.region (region : NativeRegion) : Region :=
  ⟨UInt64.ofNat region.offset, UInt64.ofNat region.length, UInt32.ofNat region.stride,
    UInt32.ofNat region.alignment⟩

structure NativeRegion.Fits (region : NativeRegion) : Prop where
  offset : region.offset < 256 ^ 8
  length : region.length < 256 ^ 8
  stride : region.stride < 256 ^ 4
  alignment : region.alignment < 256 ^ 4

@[simp] theorem NativeRegion.length_encode (region : NativeRegion) : region.encode.length = 24 := by
  simp [NativeRegion.encode]

@[simp] theorem regionAt_encode (region : NativeRegion) (rest : Bytes) :
    regionAt (region.encode ++ rest) 0 = region.region := by
  simp (disch := simp) only [regionAt, NativeRegion.encode, append_assoc,
    u64At_littleEndian, u64At_skip, u32At_skip, u32At_littleEndian, littleEndian_length,
    Nat.zero_add, Nat.reduceSub, NativeRegion.region]

section

variable {length : ℕ} (hlength : length < wordLimit)
include hlength

variable {offset : ℕ} {ids : List NativeId}

theorem writes_unsigned {value count : ℕ} (hvalue : value < 256 ^ count)
    (hfits : offset + count ≤ length) :
    Writes length (fun target => writeUnsigned target offset value count) offset
      (littleEndian count value) := by
  refine ⟨by rwa [littleEndian_length], fun target htarget => ?_⟩
  have hset := setBytes_eq offset 0 count target value (by omega)
  have hguard : offset < wordLimit ∧ value < 256 ^ count ∧ offset + count ≤ target.length :=
    ⟨by omega, hvalue, by omega⟩
  dsimp only
  rw [writeUnsigned, guardElse_of hguard, ok_bind, hset, Nat.div_eq_of_lt hvalue, Nat.add_zero]
  rfl

theorem writes_compactId {id : NativeId} (hid : id.Fits) (hfits : offset + 16 ≤ length) :
    Writes length (fun target => writeCompactId target offset id) offset id.encode :=
  (writes_unsigned hlength hid.high (by omega)).seq (by rw [littleEndian_length])
    (writes_unsigned hlength hid.low (by omega))

theorem writeCompactIds_eq (hids : ∀ id ∈ ids, id.Fits) (hfits : offset + 16 * ids.length ≤ length)
    {target : Bytes} (htarget : target.length = length) : writeCompactIds target offset ids =
      .ok (overwrite target offset (ids.flatMap NativeId.encode), offset + 16 * ids.length) := by
  refine foldlM_cursor_eq (fun id hid => ⟨id.length_encode, fun offset hroom => ?_⟩) hfits htarget
  exact writes_compactId hlength (hids id hid) hroom

theorem writes_after_ids (hids : ∀ id ∈ ids, id.Fits) {cursor : ℕ}
    (hcursor : cursor = offset + 16 * ids.length) {bytes : Bytes} {next : Bytes × ℕ → Write Bytes}
    (hnext : Writes length (fun target => next (target, cursor)) cursor bytes) :
    Writes length (fun target => writeCompactIds target offset ids >>= next) offset
      (ids.flatMap NativeId.encode ++ bytes) := by
  have hbytes : (ids.flatMap NativeId.encode).length = 16 * ids.length := by
    rw [length_flatMap, map_congr_left fun id _ => NativeId.length_encode id,
      map_const', sum_replicate_nat, Nat.mul_comm]
  have hfits := hnext.1
  refine ⟨by rw [length_append, hbytes]; omega, fun target htarget => ?_⟩
  have hroom : offset + (ids.flatMap NativeId.encode).length ≤ target.length := by omega
  have hwritten := (length_overwrite hroom).trans htarget
  have hlast := hnext.2 _ hwritten
  dsimp only at hlast ⊢
  rw [writeCompactIds_eq hlength hids (by omega) htarget, ok_bind, ← hcursor, hlast, hcursor,
    ← hbytes, overwrite_overwrite _ _ _ _ hroom]

theorem writes_region {region : NativeRegion} (hregion : region.Fits) (hfits : offset + 24 ≤ length)
    : Writes length (fun target => writeRegion target offset region) offset region.encode :=
  (writes_unsigned hlength hregion.offset (by omega)).seq (by rw [littleEndian_length]) <|
    (writes_unsigned hlength hregion.length (by omega)).seq (by rw [littleEndian_length]) <|
    (writes_unsigned hlength hregion.stride (by omega)).seq (by rw [littleEndian_length]) <|
    writes_unsigned hlength hregion.alignment (by omega)

end

def NativeSymbol.encode (row : NativeSymbol) : Bytes :=
  row.id.encode ++ (littleEndian 8 row.byteOffset ++ (littleEndian 4 row.byteLength ++
    (littleEndian 2 row.symbolKind ++ littleEndian 2 row.flags)))

def NativeSymbol.entry (row : NativeSymbol) : SymbolEntry where
  symbolId := row.id.compact
  byteOffset := UInt64.ofNat row.byteOffset
  byteLength := UInt32.ofNat row.byteLength
  symbolKind := UInt16.ofNat row.symbolKind
  flags := UInt16.ofNat row.flags

structure NativeSymbol.Fits (row : NativeSymbol) : Prop where
  id : row.id.Fits
  byteOffset : row.byteOffset < 256 ^ 8
  byteLength : row.byteLength < 256 ^ 4
  symbolKind : row.symbolKind < 256 ^ 2
  flags : row.flags < 256 ^ 2

def NativeComponent.ids (row : NativeComponent) : List NativeId :=
  [row.caseId, row.componentId, row.objectId, row.typeId, row.contractId, row.roleId,
    row.capabilityId, row.policyId, row.strategyId, row.adapterId, row.projectionId]

def NativeComponent.encode (row : NativeComponent) : Bytes :=
  row.ids.flatMap NativeId.encode ++ (littleEndian 8 row.compositionOrder ++
    (littleEndian 4 row.flags ++ (littleEndian 4 row.reserved0 ++ littleEndian 8 row.reserved1)))

def NativeComponent.entry (row : NativeComponent) : ComponentEntry where
  caseId := row.caseId.compact
  componentId := row.componentId.compact
  objectId := row.objectId.compact
  typeId := row.typeId.compact
  contractId := row.contractId.compact
  roleId := row.roleId.compact
  capabilityId := row.capabilityId.compact
  policyId := row.policyId.compact
  strategyId := row.strategyId.compact
  adapterId := row.adapterId.compact
  projectionId := row.projectionId.compact
  compositionOrder := UInt64.ofNat row.compositionOrder
  flags := UInt32.ofNat row.flags
  reserved0 := UInt32.ofNat row.reserved0
  reserved1 := UInt64.ofNat row.reserved1

structure NativeComponent.Fits (row : NativeComponent) : Prop where
  ids : ∀ id ∈ row.ids, id.Fits
  compositionOrder : row.compositionOrder < 256 ^ 8
  flags : row.flags < 256 ^ 4
  reserved0 : row.reserved0 < 256 ^ 4
  reserved1 : row.reserved1 < 256 ^ 8

def NativeEdge.ids (row : NativeEdge) : List NativeId :=
  [row.caseId, row.sourceComponentId, row.targetComponentId, row.relationId]

def NativeEdge.encode (row : NativeEdge) : Bytes :=
  row.ids.flatMap NativeId.encode ++ (littleEndian 8 row.compositionOrder ++
    (littleEndian 4 row.flags ++ littleEndian 4 row.reserved0))

def NativeEdge.entry (row : NativeEdge) : EdgeEntry where
  caseId := row.caseId.compact
  sourceComponentId := row.sourceComponentId.compact
  targetComponentId := row.targetComponentId.compact
  relationId := row.relationId.compact
  compositionOrder := UInt64.ofNat row.compositionOrder
  flags := UInt32.ofNat row.flags
  reserved0 := UInt32.ofNat row.reserved0

structure NativeEdge.Fits (row : NativeEdge) : Prop where
  ids : ∀ id ∈ row.ids, id.Fits
  compositionOrder : row.compositionOrder < 256 ^ 8
  flags : row.flags < 256 ^ 4
  reserved0 : row.reserved0 < 256 ^ 4

def NativeEvidence.ids (row : NativeEvidence) : List NativeId :=
  [row.caseId, row.obligationId, row.contractId, row.evidenceTypeId, row.proofSystemId]

def NativeEvidence.encode (row : NativeEvidence) : Bytes :=
  row.ids.flatMap NativeId.encode ++ (littleEndian 8 row.compositionOrder ++
    (littleEndian 4 row.flags ++ littleEndian 4 row.reserved0))

def NativeEvidence.entry (row : NativeEvidence) : EvidenceEntry where
  caseId := row.caseId.compact
  obligationId := row.obligationId.compact
  contractId := row.contractId.compact
  evidenceTypeId := row.evidenceTypeId.compact
  proofSystemId := row.proofSystemId.compact
  compositionOrder := UInt64.ofNat row.compositionOrder
  flags := UInt32.ofNat row.flags
  reserved0 := UInt32.ofNat row.reserved0

structure NativeEvidence.Fits (row : NativeEvidence) : Prop where
  ids : ∀ id ∈ row.ids, id.Fits
  compositionOrder : row.compositionOrder < 256 ^ 8
  flags : row.flags < 256 ^ 4
  reserved0 : row.reserved0 < 256 ^ 4

structure RowCodec (ν ρ : Type) where
  layout : RowLayout ρ
  write : Bytes → ℕ → ν → Write Bytes
  Fits : ν → Prop
  encode : ν → Bytes
  entry : ν → ρ
  height : layout.alignment = 2 ^ 3
  length_encode : ∀ row, (encode row).length = layout.size
  writes : ∀ row, Fits row → ∀ length < wordLimit, ∀ offset, offset + layout.size ≤ length →
    Writes length (fun target => write target offset row) offset (encode row)
  decode_encode : ∀ row, layout.decode (encode row) = entry row

def symbolCodec : RowCodec NativeSymbol SymbolEntry where
  layout := symbolLayout
  write := writeSymbolRow
  Fits := NativeSymbol.Fits
  encode := NativeSymbol.encode
  entry := NativeSymbol.entry
  height := rfl
  length_encode row := by simp [NativeSymbol.encode, symbolLayout]
  writes row hrow length hlength offset hfits := by
    have hsize : symbolLayout.size = 32 := rfl
    refine (writes_compactId hlength hrow.id (by omega)).seq (by simp) <|
      (writes_unsigned hlength hrow.byteOffset (by omega)).seq (by simp) <|
      (writes_unsigned hlength hrow.byteLength (by omega)).seq (by simp) <|
      (writes_unsigned hlength hrow.symbolKind (by omega)).seq (by simp) <|
      writes_unsigned hlength hrow.flags (by omega)
  decode_encode row := by
    simp [symbolLayout, NativeSymbol.encode, NativeSymbol.entry]

def componentCodec : RowCodec NativeComponent ComponentEntry where
  layout := componentLayout
  write := writeComponentRow
  Fits := NativeComponent.Fits
  encode := NativeComponent.encode
  entry := NativeComponent.entry
  height := rfl
  length_encode row := by
    simp [NativeComponent.encode, NativeComponent.ids, componentLayout]
  writes row hrow length hlength offset hfits := by
    have hsize : componentLayout.size = 200 := rfl
    refine writes_after_ids hlength hrow.ids (by rfl : offset + 176 = _) ?_
    exact (writes_unsigned hlength hrow.compositionOrder (by omega)).seq (by simp) <|
      (writes_unsigned hlength hrow.flags (by omega)).seq (by simp) <|
      (writes_unsigned hlength hrow.reserved0 (by omega)).seq (by simp) <|
      writes_unsigned hlength hrow.reserved1 (by omega)
  decode_encode row := by
    simp [componentLayout, NativeComponent.encode, NativeComponent.ids, NativeComponent.entry]

def edgeCodec : RowCodec NativeEdge EdgeEntry where
  layout := edgeLayout
  write := writeEdgeRow
  Fits := NativeEdge.Fits
  encode := NativeEdge.encode
  entry := NativeEdge.entry
  height := rfl
  length_encode row := by
    simp [NativeEdge.encode, NativeEdge.ids, edgeLayout]
  writes row hrow length hlength offset hfits := by
    have hsize : edgeLayout.size = 80 := rfl
    refine writes_after_ids hlength hrow.ids (by rfl : offset + 64 = _) ?_
    exact (writes_unsigned hlength hrow.compositionOrder (by omega)).seq (by simp) <|
      (writes_unsigned hlength hrow.flags (by omega)).seq (by simp) <|
      writes_unsigned hlength hrow.reserved0 (by omega)
  decode_encode row := by
    simp [edgeLayout, NativeEdge.encode, NativeEdge.ids, NativeEdge.entry]

def evidenceCodec : RowCodec NativeEvidence EvidenceEntry where
  layout := evidenceLayout
  write := writeEvidenceRow
  Fits := NativeEvidence.Fits
  encode := NativeEvidence.encode
  entry := NativeEvidence.entry
  height := rfl
  length_encode row := by
    simp [NativeEvidence.encode, NativeEvidence.ids, evidenceLayout]
  writes row hrow length hlength offset hfits := by
    have hsize : evidenceLayout.size = 96 := rfl
    refine writes_after_ids hlength hrow.ids (by rfl : offset + 80 = _) ?_
    exact (writes_unsigned hlength hrow.compositionOrder (by omega)).seq (by simp) <|
      (writes_unsigned hlength hrow.flags (by omega)).seq (by simp) <|
      writes_unsigned hlength hrow.reserved0 (by omega)
  decode_encode row := by
    simp [evidenceLayout, NativeEvidence.encode, NativeEvidence.ids, NativeEvidence.entry]

section

variable {ν ρ : Type} {codec : RowCodec ν ρ} {rows : List ν} {length : ℕ} {region : NativeRegion}

/-- The region of `rows` rows of `size` bytes, in an arena of `arenaLength` bytes. -/
structure NativeRegion.Describes (region : NativeRegion) (arenaLength size height rows : ℕ) :
    Prop where
  stride : region.stride = size
  alignment : region.alignment = height
  count : region.count = rows
  length : region.length = size * rows
  aligned : region.offset % height = 0
  fits : region.offset + region.length ≤ arenaLength

/-- **A table is written row after row.** -/
theorem RowCodec.writes_table (hlength : length < wordLimit)
    (hregion : region.Describes length codec.layout.size 8 rows.length)
    (hrows : ∀ row ∈ rows, codec.Fits row) :
    Writes length (fun target => writeRowTable target region rows codec.layout.size 8 codec.write)
      region.offset (rows.flatMap codec.encode) := by
  have hfits := hregion.fits
  rw [hregion.length, Nat.mul_comm] at hfits
  have hwrites := writes_foldlM (ε := String) (fun row hrow => ⟨codec.length_encode row,
    codec.writes row (hrows row hrow) length hlength⟩) region.offset 0 (by rwa [Nat.zero_add])
  rw [Nat.zero_mul, Nat.add_zero] at hwrites
  refine ⟨hwrites.1, fun target htarget => ?_⟩
  have hguard : region.stride = codec.layout.size ∧ region.alignment = 8 ∧
      region.count = rows.length ∧ region.length = codec.layout.size * rows.length ∧
      region.offset % 8 = 0 ∧ region.offset ≤ target.length ∧
      region.length ≤ target.length - region.offset :=
    ⟨hregion.stride, hregion.alignment, hregion.count, hregion.length, hregion.aligned,
      by have := hregion.fits; omega, by have := hregion.fits; omega⟩
  dsimp only
  rw [writeRowTable, checkedRegion, guardElse_of hguard, ok_bind]
  exact hwrites.2 target htarget

theorem writes_metadata {image : Bytes} (hregion : region.Describes length 1 1 image.length) :
    Writes length (fun target => writeMetadata target region image) region.offset image := by
  have hfits := hregion.fits
  have hcount := hregion.length
  rw [Nat.one_mul] at hcount
  refine ⟨by omega, fun target htarget => ?_⟩
  have hguard : region.stride = 1 ∧ region.alignment = 1 ∧ region.count = image.length ∧
      region.length = image.length ∧ region.offset ≤ target.length ∧
      region.length ≤ target.length - region.offset :=
    ⟨hregion.stride, hregion.alignment, hregion.count, hcount, by omega, by omega⟩
  dsimp only
  rw [writeMetadata, guardElse_of hguard, ok_bind]
  rw [foldl_set_eq region.offset image 0 image.length target (Nat.zero_add _) (by omega)]
  rfl

end

def NativeDescriptor.encode (descriptor : NativeDescriptor) : Bytes :=
  littleEndian 4 descriptor.structSize ++ (littleEndian 4 descriptor.flags ++
    (littleEndian 2 descriptor.schemaMajor ++ (littleEndian 2 descriptor.schemaMinor ++
    (littleEndian 4 descriptor.reserved0 ++ (descriptor.bundleId.encode ++
    (descriptor.digest.bytes ++ (littleEndian 8 descriptor.bundleEpoch ++
    (littleEndian 8 descriptor.arenaBytes ++ (descriptor.symbols.encode ++
    (descriptor.components.encode ++ (descriptor.edges.encode ++
    (descriptor.evidenceObligations.encode ++ (descriptor.metadataBytes.encode ++
    descriptor.reserved.flatMap (littleEndian 8))))))))))))))

/-- The fields of a descriptor fit their widths. -/
structure NativeDescriptor.Fits (descriptor : NativeDescriptor) : Prop where
  structSize : descriptor.structSize = 256
  flags : descriptor.flags < 256 ^ 4
  schemaMajor : descriptor.schemaMajor < 256 ^ 2
  schemaMinor : descriptor.schemaMinor < 256 ^ 2
  reserved0 : descriptor.reserved0 < 256 ^ 4
  bundleId : descriptor.bundleId.Fits
  bundleEpoch : descriptor.bundleEpoch < 256 ^ 8
  arenaBytes : descriptor.arenaBytes < 256 ^ 8
  symbols : descriptor.symbols.Fits
  components : descriptor.components.Fits
  edges : descriptor.edges.Fits
  evidenceObligations : descriptor.evidenceObligations.Fits
  metadataBytes : descriptor.metadataBytes.Fits
  reserved : descriptor.reserved.length = 7 ∧ ∀ value ∈ descriptor.reserved, value < 256 ^ 8

theorem writes_digest {length offset : ℕ} (digest : Digest) (hfits : offset + 32 ≤ length) :
    Writes length (fun target => writeDigest target offset digest) offset digest.bytes := by
  have hdigest : digest.bytes.length = 32 := digest.length_eq
  refine ⟨by omega, fun target htarget => ?_⟩
  dsimp only
  rw [writeDigest, foldl_set_eq offset digest.bytes 0 32 target (by omega) (by omega)]
  rfl

theorem writes_reserved {length offset : ℕ} (hlength : length < wordLimit) {values : List ℕ}
    (hcount : values.length = 7) (hvalues : ∀ value ∈ values, value < 256 ^ 8)
    (hfits : offset + 56 ≤ length) :
    Writes length (fun target => writeReserved target offset values) offset
      (values.flatMap (littleEndian 8)) := by
  have hbytes : (values.flatMap (littleEndian 8)).length = 8 * values.length := by
    rw [length_flatMap, map_congr_left fun value _ => littleEndian_length 8 value,
      map_const', sum_replicate_nat, Nat.mul_comm]
  refine ⟨by omega, fun target htarget => ?_⟩
  have hfold : values.foldlM (fun state value => do
      let target ← writeU64 state.1 state.2 value
      return (target, state.2 + 8)) (target, offset) =
        .ok (overwrite target offset (values.flatMap (littleEndian 8)),
          offset + 8 * values.length) :=
    foldlM_cursor_eq (fun value hvalue => ⟨littleEndian_length 8 value, fun offset hroom =>
      writes_unsigned hlength (hvalues value hvalue) hroom⟩) (by omega) htarget
  dsimp only
  rw [writeReserved, guardElse_of hcount, ok_bind, hfold]
  rfl

variable {descriptor : NativeDescriptor}

theorem NativeDescriptor.length_encode (h : descriptor.reserved.length = 7) :
    descriptor.encode.length = descriptorBytes := by
  have hdigest : descriptor.digest.bytes.length = 32 := descriptor.digest.length_eq
  have hreserved : (descriptor.reserved.flatMap (littleEndian 8)).length =
      8 * descriptor.reserved.length := by
    rw [length_flatMap, map_congr_left fun value _ => littleEndian_length 8 value,
      map_const', sum_replicate_nat, Nat.mul_comm]
  simp [NativeDescriptor.encode, hdigest, hreserved, h, descriptorBytes]

/-- **The image of a descriptor.** -/
theorem writeDescriptor_eq (h : descriptor.Fits) :
    writeDescriptor (List.replicate 256 0) descriptor = .ok descriptor.encode := by
  have hlength : 256 < wordLimit := by decide
  have hdigest : descriptor.digest.bytes.length = 32 := descriptor.digest.length_eq
  have hsize : Writes 256 (fun target => writeU32 target 0 descriptor.structSize) 0
      (littleEndian 4 descriptor.structSize) :=
    writes_unsigned hlength (by rw [h.structSize]; decide) (by decide)
  have hwrites := hsize.seq (by simp : 4 = _) <|
    (writes_unsigned hlength h.flags (by decide)).seq (by simp : 8 = _) <|
    (writes_unsigned hlength h.schemaMajor (by decide)).seq (by simp : 10 = _) <|
    (writes_unsigned hlength h.schemaMinor (by decide)).seq (by simp : 12 = _) <|
    (writes_unsigned hlength h.reserved0 (by decide)).seq (by simp : 16 = _) <|
    (writes_compactId hlength h.bundleId (by decide)).seq (by simp : 32 = _) <|
    (writes_digest descriptor.digest (by decide)).seq (by simp [hdigest] : 64 = _) <|
    (writes_unsigned hlength h.bundleEpoch (by decide)).seq (by simp : 72 = _) <|
    (writes_unsigned hlength h.arenaBytes (by decide)).seq (by simp : 80 = _) <|
    (writes_region hlength h.symbols (by decide)).seq (by simp : 104 = _) <|
    (writes_region hlength h.components (by decide)).seq (by simp : 128 = _) <|
    (writes_region hlength h.edges (by decide)).seq (by simp : 152 = _) <|
    (writes_region hlength h.evidenceObligations (by decide)).seq (by simp : 176 = _) <|
    (writes_region hlength h.metadataBytes (by decide)).seq (by simp : 200 = _) <|
    writes_reserved hlength h.reserved.1 h.reserved.2 (by decide)
  have hzeros : (List.replicate 256 (0 : UInt8)).length = 256 := length_replicate
  rw [writeDescriptor, guardElse_of ⟨hzeros, h.structSize⟩, ok_bind]
  refine (hwrites.2 _ hzeros).trans (congrArg Except.ok (overwrite_all ?_))
  rw [hzeros]
  exact length_encode h.reserved.1

def NativeDescriptor.record (descriptor : NativeDescriptor) : Descriptor where
  structSize := UInt32.ofNat descriptor.structSize
  flags := UInt32.ofNat descriptor.flags
  schemaMajor := UInt16.ofNat descriptor.schemaMajor
  schemaMinor := UInt16.ofNat descriptor.schemaMinor
  reserved0 := UInt32.ofNat descriptor.reserved0
  bundleId := descriptor.bundleId.compact
  digest := ⟨descriptor.digest.bytes.toArray, descriptor.digest.length_eq⟩
  bundleEpoch := UInt64.ofNat descriptor.bundleEpoch
  arenaBytes := UInt64.ofNat descriptor.arenaBytes
  symbols := descriptor.symbols.region
  components := descriptor.components.region
  edges := descriptor.edges.region
  evidenceObligations := descriptor.evidenceObligations.region
  metadataBytes := descriptor.metadataBytes.region
  reserved := .replicate 7 0

theorem descriptorOf_digest (descriptor : NativeDescriptor) :
    (descriptorOf descriptor.encode).digest = descriptor.record.digest := by
  have hdigest : descriptor.digest.bytes.length = 32 := descriptor.digest.length_eq
  have hbytes : descriptor.encode.drop 32 = descriptor.digest.bytes ++
      descriptor.encode.drop 64 := by
    simp [NativeDescriptor.encode, hdigest]
  refine Vector.ext fun i hi => ?_
  have hlt : i < descriptor.digest.bytes.length := by omega
  have hget : descriptor.encode.getD (32 + i) 0 =
      (descriptor.encode.drop 32).getD i 0 := by
    rw [getD_eq_getElem?_getD, getD_eq_getElem?_getD, List.getElem?_drop]
  simp only [descriptorOf, record, Vector.getElem_ofFn, hget, hbytes]
  rw [getD_eq_getElem?_getD, List.getElem?_append_left hlt, List.getElem?_eq_getElem hlt]
  rfl

theorem descriptorOf_reserved (hreserved : descriptor.reserved = List.replicate 7 0) :
    (descriptorOf descriptor.encode).reserved = descriptor.record.reserved := by
  have hdigest : descriptor.digest.bytes.length = 32 := descriptor.digest.length_eq
  have hlast : descriptor.encode.drop 200 = List.replicate 56 0 := by
    simp [NativeDescriptor.encode, hdigest, hreserved]
    decide
  refine Vector.ext fun i hi => ?_
  have hword : ∀ i < 7, u64At (List.replicate 56 0) (8 * i) = 0 := by decide
  have hread : u64At descriptor.encode (200 + 8 * i) =
      u64At (descriptor.encode.drop 200) (8 * i) := by
    rw [u64At, u64At, drop_drop]
  simp only [descriptorOf, record, Vector.getElem_ofFn, hread, hlast,
    hword i hi, Vector.getElem_replicate]

/-- **The reader's descriptor is the writer's.** -/
theorem descriptorOf_encode (hreserved : descriptor.reserved = List.replicate 7 0) :
    descriptorOf descriptor.encode = descriptor.record := by
  have hdigest : descriptor.digest.bytes.length = 32 := descriptor.digest.length_eq
  calc descriptorOf descriptor.encode
      = { descriptorOf descriptor.encode with
          digest := descriptor.record.digest, reserved := descriptor.record.reserved } := by
        rw [← descriptorOf_digest, ← descriptorOf_reserved hreserved]
    _ = descriptor.record := by
        simp [descriptorOf, NativeDescriptor.encode, hdigest, record]

theorem slice_flatMap {α : Type} {encode : α → Bytes} {size : ℕ}
    (hsize : ∀ a, (encode a).length = size) (rows : List α) (rest : Bytes) {index : ℕ}
    (hindex : index < rows.length) :
    ((rows.flatMap encode ++ rest).drop (index * size)).take size = encode rows[index] := by
  induction rows generalizing index with
  | nil => exact absurd hindex (Nat.not_lt_zero _)
  | cons row rows ih =>
    rw [flatMap_cons, append_assoc]
    cases index with
    | zero =>
      rw [Nat.zero_mul, drop_zero, take_append_of_le_length (hsize row).ge,
        take_of_length_le (hsize row).le]
      rfl
    | succ index =>
      have hle : (encode row).length ≤ (index + 1) * size := by
        rw [hsize, Nat.add_mul, Nat.one_mul]
        omega
      rw [drop_skip hle, hsize, Nat.add_mul, Nat.one_mul, Nat.add_sub_cancel]
      exact ih (Nat.lt_of_succ_lt_succ hindex)

theorem RowCodec.tableRow_eq {ν ρ : Type} (codec : RowCodec ν ρ) {arena : Block} {region : Region}
    {rows : List ν} {head rest : Bytes}
    (harena : arena.bytes = head ++ (rows.flatMap codec.encode ++ rest))
    (hregion : region.offset.toNat = head.length) {index : ℕ} (hindex : index < rows.length) :
    tableRow codec.layout arena region index = codec.entry rows[index] := by
  have haddress : arena.base + region.offset.toNat + index * codec.layout.size - arena.base =
      head.length + index * codec.layout.size := by omega
  rw [tableRow, Block.slice, haddress, harena, drop_skip (Nat.le_add_right _ _),
    Nat.add_sub_cancel_left, slice_flatMap codec.length_encode rows rest hindex,
    codec.decode_encode]

end PooFlow.Bundle
