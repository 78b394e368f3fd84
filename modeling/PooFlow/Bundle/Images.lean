import PooFlow.Bundle.WireFormat

namespace PooFlow.Bundle

open Foundation Temporal List NativeDescriptor Bool

variable {sha256 : Bytes → Digest} {write : Datum → String}

variable {start : ℕ} {values : List NativeSymbol}

theorem foldl_word_lt (bytes : Bytes) (h : start < wordLimit) :
    bytes.foldl (fun accumulator byte => (accumulator * 256 + byte.toNat) % wordLimit) start <
      wordLimit := by
  induction bytes generalizing start with
  | nil => exact h
  | cons byte bytes ih => exact ih (Nat.mod_lt _ (by decide))

theorem fits_lowerCompactId (domain : String) (source : SemanticId) :
    (lowerCompactId sha256 domain source).Fits :=
  ⟨foldl_word_lt _ (by decide), foldl_word_lt _ (by decide)⟩

theorem strictlyOrdered_iff {ρ : Type} {compare : ρ → ρ → Ordering} {rows : List ρ} :
    strictlyOrdered compare rows = true ↔ rows.IsChain fun a b => compare a b = .lt := by
  induction rows with
  | nil => simp [strictlyOrdered]
  | cons first rows ih =>
    cases rows with
    | nil => simp [strictlyOrdered]
    | cons second rest =>
      rw [strictlyOrdered, and_eq_true, ih, isChain_cons_cons, decide_eq_true_eq]

theorem perm_sortRows {ρ : Type} (compare : ρ → ρ → Ordering) (rows : List ρ) :
    (sortRows compare rows).Perm rows :=
  perm_insertionSort _ _

/-- The rows with their texts laid out from `start` on. -/
def placeFrom (start : ℕ) : List NativeSymbol → List NativeSymbol
  | [] => []
  | value :: values =>
    { value with byteOffset := start } :: placeFrom (start + value.byteLength) values

theorem assignSymbolOffsets_eq (values : List NativeSymbol) :
    assignSymbolOffsets values = placeFrom 0 values := by
  have hfold : ∀ (start : ℕ) (out : List NativeSymbol), (values.foldl (fun state value =>
        (state.1 + value.byteLength, { value with byteOffset := state.1 } :: state.2))
        (start, out)).2.reverse = out.reverse ++ placeFrom start values := by
    induction values with
    | nil => exact fun start out => (append_nil _).symm
    | cons value values ih =>
      intro start out
      rw [foldl_cons, ih, reverse_cons, append_assoc]
      rfl
  exact hfold 0 []

variable {row : NativeSymbol}

theorem mem_placeFrom (h : row ∈ placeFrom start values) :
    ∃ value ∈ values, ∃ offset, row = { value with byteOffset := offset } := by
  induction values generalizing start with
  | nil => exact absurd h not_mem_nil
  | cons value values ih =>
    rw [placeFrom, mem_cons] at h
    rcases h with rfl | h
    · exact ⟨value, mem_cons_self, start, rfl⟩
    · obtain ⟨other, hmem, heq⟩ := ih h
      exact ⟨other, mem_cons_of_mem _ hmem, heq⟩

theorem exists_mem_placeFrom (start : ℕ) {value : NativeSymbol} (h : value ∈ values) :
    ∃ offset, { value with byteOffset := offset } ∈ placeFrom start values := by
  induction values generalizing start with
  | nil => exact absurd h not_mem_nil
  | cons first values ih =>
    rw [placeFrom]
    rcases mem_cons.1 h with rfl | h
    · exact ⟨start, mem_cons_self⟩
    · obtain ⟨offset, hmem⟩ := ih (start + first.byteLength) h
      exact ⟨offset, mem_cons_of_mem _ hmem⟩

theorem symbolMetadataImage_placeFrom (start : ℕ) (values : List NativeSymbol) :
    symbolMetadataImage (placeFrom start values) = symbolMetadataImage values := by
  induction values generalizing start with
  | nil => rfl
  | cons value values ih => exact congrArg (value.valueBytes ++ ·) (ih _)

theorem text_placeFrom (hlengths : ∀ value ∈ values, value.byteLength = value.valueBytes.length) :
    ∀ row ∈ placeFrom start values, start ≤ row.byteOffset ∧
      row.byteOffset - start + row.byteLength ≤ (symbolMetadataImage values).length ∧
      ((symbolMetadataImage values).drop (row.byteOffset - start)).take row.byteLength =
        row.valueBytes := by
  induction values generalizing start with
  | nil => exact fun row hrow => absurd hrow not_mem_nil
  | cons value values ih =>
    rw [forall_mem_cons] at hlengths
    have himage : symbolMetadataImage (value :: values) =
        value.valueBytes ++ symbolMetadataImage values := rfl
    intro row hrow
    rw [placeFrom, mem_cons] at hrow
    rw [himage, length_append]
    rcases hrow with rfl | hrow
    · dsimp only
      rw [Nat.sub_self, hlengths.1]
      refine ⟨le_rfl, by omega, ?_⟩
      rw [drop_zero, take_append_of_le_length le_rfl, take_length]
    · obtain ⟨hstart, hfits, htext⟩ := ih hlengths.2 row hrow
      have hlength := hlengths.1
      have hskip : value.valueBytes.length ≤ row.byteOffset - start := by omega
      refine ⟨by omega, by omega, ?_⟩
      rw [drop_skip hskip, Nat.sub_sub, ← hlength]
      exact htext

structure Lowered (sha256 : Bytes → Digest) (write : Datum → String) (bundleId : SemanticId)
    (bundleEpoch : ℕ) (symbols : List SymbolValue) (components : List ComponentValue)
    (edges : List EdgeValue) (evidence : List EvidenceValue) (descriptor : NativeDescriptor) :
    Prop where
  epoch : bundleEpoch < wordLimit
  validSymbols : ∀ symbol ∈ symbols, symbol.symbolKind < 65536
  validComponents : ∀ component ∈ components, component.compositionOrder < wordLimit
  validEdges : ∀ edge ∈ edges, edge.compositionOrder < wordLimit
  validEvidence : ∀ item ∈ evidence, item.compositionOrder < wordLimit
  symbolRows : descriptor.symbolRows =
    placeFrom 0 (sortRows compareSymbolRows (symbols.map (lowerSymbol sha256)))
  componentRows : descriptor.componentRows =
    sortRows compareComponentRows (components.map (lowerComponent sha256))
  edgeRows : descriptor.edgeRows = sortRows compareEdgeRows (edges.map (lowerEdge sha256))
  evidenceRows : descriptor.evidenceRows =
    sortRows compareEvidenceRows (evidence.map (lowerEvidence sha256))
  symbolOrder : strictlyOrdered compareSymbolRows descriptor.symbolRows = true
  componentOrder : strictlyOrdered compareComponentRows descriptor.componentRows = true
  edgeOrder : strictlyOrdered compareEdgeRows descriptor.edgeRows = true
  evidenceOrder : strictlyOrdered compareEvidenceRows descriptor.evidenceRows = true
  built : descriptor = buildDescriptor sha256 write (lowerCompactId sha256 "bundle" bundleId)
    bundleEpoch descriptor.symbolRows descriptor.componentRows descriptor.edgeRows
    descriptor.evidenceRows

variable {bundleId : SemanticId} {bundleEpoch : ℕ} {symbols : List SymbolValue}
  {components : List ComponentValue} {edges : List EdgeValue} {evidence : List EvidenceValue}
  {descriptor : NativeDescriptor}

theorem lowered_of_ok
    (h : loweringWithSymbols sha256 write bundleId bundleEpoch symbols components edges evidence =
      .ok descriptor) :
    Lowered sha256 write bundleId bundleEpoch symbols components edges evidence descriptor := by
  simp only [loweringWithSymbols, then_eq_ok, guardElse_eq_ok] at h
  obtain ⟨-, hepoch, hsymbols, hcomponents, hedges, hevidence, hsorted, hsorted', hsorted'',
    hsorted''', hbuilt⟩ := h
  obtain rfl := Except.ok.inj hbuilt
  rw [all_eq_true] at hsymbols hcomponents hedges hevidence
  refine ⟨by simpa [validUint64] using hepoch, fun symbol hmem => ?_, fun component hmem => ?_,
    fun edge hmem => ?_, fun item hmem => ?_, ?_, rfl, rfl, rfl, hsorted, hsorted', hsorted'',
    hsorted''', rfl⟩
  · have hvalid := hsymbols symbol hmem
    simp only [validSymbol, and_eq_true, decide_eq_true_eq] at hvalid
    exact hvalid.2
  · have hvalid := hcomponents component hmem
    rw [validComponent, and_eq_true] at hvalid
    simpa [validUint64] using hvalid.2
  · have hvalid := hedges edge hmem
    rw [validEdge, and_eq_true] at hvalid
    simpa [validUint64] using hvalid.2
  · have hvalid := hevidence item hmem
    rw [Bundle.validEvidence, and_eq_true] at hvalid
    simpa [validUint64] using hvalid.2
  · exact assignSymbolOffsets_eq _

theorem alignUp_of_dvd {value alignment : ℕ} (hpos : 0 < alignment) (h : alignment ∣ value) :
    alignUp value alignment = value := by
  obtain ⟨k, rfl⟩ := h
  rw [alignUp, Nat.mul_add_div hpos, Nat.div_eq_of_lt (Nat.sub_lt hpos Nat.one_pos), Nat.add_zero,
    Nat.mul_comm]

def NativeDescriptor.metadataOffset (descriptor : NativeDescriptor) : ℕ :=
  descriptor.symbolRows.length * 32 + descriptor.componentRows.length * 200 +
    descriptor.edgeRows.length * 80 + descriptor.evidenceRows.length * 96

/-- The constants of a lowering, and where it has put the tables. -/
structure LaidOut (descriptor : NativeDescriptor) : Prop where
  structSize : descriptor.structSize = 256
  flags : descriptor.flags = 3
  schemaMajor : descriptor.schemaMajor = 1
  schemaMinor : descriptor.schemaMinor = 0
  reserved0 : descriptor.reserved0 = 0
  reserved : descriptor.reserved = List.replicate 7 0
  symbols : descriptor.symbols = makeRegion "symbols" 0 descriptor.symbolRows.length 32 8
  components : descriptor.components = makeRegion "components"
    (descriptor.symbolRows.length * 32) descriptor.componentRows.length 200 8
  edges : descriptor.edges = makeRegion "edges"
    (descriptor.symbolRows.length * 32 + descriptor.componentRows.length * 200)
    descriptor.edgeRows.length 80 8
  evidenceObligations : descriptor.evidenceObligations = makeRegion "evidence-obligations"
    (descriptor.symbolRows.length * 32 + descriptor.componentRows.length * 200 +
      descriptor.edgeRows.length * 80) descriptor.evidenceRows.length 96 8
  metadataBytes : descriptor.metadataBytes = makeRegion "metadata-bytes"
    descriptor.metadataOffset descriptor.metadataImage.length 1 1
  metadataImage : descriptor.metadataImage = symbolMetadataImage descriptor.symbolRows
  arenaBytes : descriptor.arenaBytes =
    max 64 (alignUp (descriptor.metadataOffset + descriptor.metadataImage.length) 64)

theorem Lowered.laidOut
    (h : Lowered sha256 write bundleId bundleEpoch symbols components edges evidence descriptor) :
    LaidOut descriptor := by
  have hbuilt := h.built
  generalize descriptor.symbolRows = s, descriptor.componentRows = c, descriptor.edgeRows = e,
    descriptor.evidenceRows = v at hbuilt
  subst hbuilt
  have hcomponents : alignUp (s.length * 32) 8 = s.length * 32 :=
    alignUp_of_dvd (by decide) (by omega)
  have hedges : alignUp (s.length * 32 + c.length * 200) 8 = s.length * 32 + c.length * 200 :=
    alignUp_of_dvd (by decide) (by omega)
  have hevidence : alignUp (s.length * 32 + c.length * 200 + e.length * 80) 8 =
      s.length * 32 + c.length * 200 + e.length * 80 :=
    alignUp_of_dvd (by decide) (by omega)
  constructor <;> simp [buildDescriptor, makeRegion, rowAlignment, arenaAlignment, hcomponents,
    hedges, hevidence, metadataOffset]

theorem RowCodec.length_flatMap {ν ρ : Type} (codec : RowCodec ν ρ) (rows : List ν) :
    (rows.flatMap codec.encode).length = rows.length * codec.layout.size := by
  rw [List.length_flatMap, List.map_congr_left fun row _ => codec.length_encode row,
    List.map_const', List.sum_replicate_nat]

def NativeDescriptor.padding (descriptor : NativeDescriptor) : Bytes :=
  List.replicate (descriptor.arenaBytes -
    (descriptor.metadataOffset + descriptor.metadataImage.length)) 0

def NativeDescriptor.arenaImage (descriptor : NativeDescriptor) : Bytes :=
  descriptor.symbolRows.flatMap symbolCodec.encode ++
    (descriptor.componentRows.flatMap componentCodec.encode ++
      (descriptor.edgeRows.flatMap edgeCodec.encode ++
        (descriptor.evidenceRows.flatMap evidenceCodec.encode ++
          (descriptor.metadataImage ++ descriptor.padding))))

structure NativeDescriptor.RowsFit (descriptor : NativeDescriptor) : Prop where
  symbols : ∀ row ∈ descriptor.symbolRows, row.Fits
  components : ∀ row ∈ descriptor.componentRows, row.Fits
  edges : ∀ row ∈ descriptor.edgeRows, row.Fits
  evidence : ∀ row ∈ descriptor.evidenceRows, row.Fits

section

variable (h : LaidOut descriptor)
include h

theorem LaidOut.le_arenaBytes :
    descriptor.metadataOffset + descriptor.metadataImage.length ≤ descriptor.arenaBytes := by
  rw [h.arenaBytes, alignUp]
  omega

theorem LaidOut.arenaBytes_mod : descriptor.arenaBytes % 64 = 0 := by
  rw [h.arenaBytes, alignUp]
  omega

theorem LaidOut.length_arenaImage : descriptor.arenaImage.length = descriptor.arenaBytes := by
  have hle := h.le_arenaBytes
  simp only [arenaImage, length_append, RowCodec.length_flatMap, padding, length_replicate]
  simp only [metadataOffset] at hle ⊢
  change descriptor.symbolRows.length * 32 + (descriptor.componentRows.length * 200 +
    (descriptor.edgeRows.length * 80 + (descriptor.evidenceRows.length * 96 + _))) = _
  omega

theorem LaidOut.describes :
    descriptor.symbols.Describes descriptor.arenaBytes 32 8 descriptor.symbolRows.length ∧
    descriptor.components.Describes descriptor.arenaBytes 200 8
      descriptor.componentRows.length ∧
    descriptor.edges.Describes descriptor.arenaBytes 80 8 descriptor.edgeRows.length ∧
    descriptor.evidenceObligations.Describes descriptor.arenaBytes 96 8
      descriptor.evidenceRows.length ∧
    descriptor.metadataBytes.Describes descriptor.arenaBytes 1 1
      descriptor.metadataImage.length := by
  have hle := h.le_arenaBytes
  simp only [metadataOffset] at hle
  rw [h.symbols, h.components, h.edges, h.evidenceObligations, h.metadataBytes]
  refine ⟨⟨rfl, rfl, rfl, ?_, ?_, ?_⟩, ⟨rfl, rfl, rfl, ?_, ?_, ?_⟩, ⟨rfl, rfl, rfl, ?_, ?_, ?_⟩,
    ⟨rfl, rfl, rfl, ?_, ?_, ?_⟩, ⟨rfl, rfl, rfl, ?_, ?_, ?_⟩⟩ <;>
  simp only [makeRegion, metadataOffset] <;> omega

/-- **The image of the arena.** -/
theorem LaidOut.writeArena_eq (hrows : descriptor.RowsFit)
    (hbytes : descriptor.arenaBytes < wordLimit) :
    writeArena (List.replicate descriptor.arenaBytes 0) descriptor =
      .ok descriptor.arenaImage := by
  obtain ⟨hsymbols, hcomponents, hedges, hevidence, hmetadata⟩ := h.describes
  have hs := symbolCodec.writes_table hbytes hsymbols hrows.symbols
  have hc := componentCodec.writes_table hbytes hcomponents hrows.components
  have he := edgeCodec.writes_table hbytes hedges hrows.edges
  have hv := evidenceCodec.writes_table hbytes hevidence hrows.evidence
  have hm := writes_metadata hmetadata
  have hlength := h.length_arenaImage
  have hguard : (List.replicate descriptor.arenaBytes (0 : UInt8)).length =
      descriptor.arenaBytes ∧
      (List.replicate descriptor.arenaBytes (0 : UInt8)).length % arenaAlignment = 0 := by
    rw [length_replicate]
    exact ⟨rfl, h.arenaBytes_mod⟩
  have hsoffset : descriptor.symbols.offset = 0 := congrArg _ h.symbols
  have hcoffset : descriptor.components.offset = descriptor.symbolRows.length * 32 :=
    congrArg _ h.components
  have heoffset : descriptor.edges.offset = descriptor.symbolRows.length * 32 +
      descriptor.componentRows.length * 200 := congrArg _ h.edges
  have hvoffset : descriptor.evidenceObligations.offset = descriptor.symbolRows.length * 32 +
      descriptor.componentRows.length * 200 + descriptor.edgeRows.length * 80 :=
    congrArg _ h.evidenceObligations
  have hmoffset : descriptor.metadataBytes.offset = descriptor.symbolRows.length * 32 +
      descriptor.componentRows.length * 200 + descriptor.edgeRows.length * 80 +
      descriptor.evidenceRows.length * 96 := congrArg _ h.metadataBytes
  have hslength : (descriptor.symbolRows.flatMap symbolCodec.encode).length =
      descriptor.symbolRows.length * 32 := symbolCodec.length_flatMap _
  have hclength : (descriptor.componentRows.flatMap componentCodec.encode).length =
      descriptor.componentRows.length * 200 := componentCodec.length_flatMap _
  have helength : (descriptor.edgeRows.flatMap edgeCodec.encode).length =
      descriptor.edgeRows.length * 80 := edgeCodec.length_flatMap _
  have hvlength : (descriptor.evidenceRows.flatMap evidenceCodec.encode).length =
      descriptor.evidenceRows.length * 96 := evidenceCodec.length_flatMap _
  rw [arenaImage] at hlength ⊢
  generalize descriptor.symbolRows.flatMap symbolCodec.encode = s at *
  generalize descriptor.componentRows.flatMap componentCodec.encode = c at *
  generalize descriptor.edgeRows.flatMap edgeCodec.encode = e at *
  generalize descriptor.evidenceRows.flatMap evidenceCodec.encode = v at *
  -- the arena begins as zeros, in the pieces that the tables will take
  obtain ⟨zs, zc, ze, zv, zm, hzs, hzc, hze, hzv, hzm, hzeros⟩ : ∃ zs zc ze zv zm : List UInt8,
      zs.length = s.length ∧ zc.length = c.length ∧ ze.length = e.length ∧ zv.length = v.length ∧
      zm.length = descriptor.metadataImage.length ∧ List.replicate descriptor.arenaBytes 0 =
        zs ++ (zc ++ (ze ++ (zv ++ (zm ++ descriptor.padding)))) := by
    have hzeros : ∀ k, (List.replicate k (0 : UInt8)).length = k := fun _ => length_replicate
    refine ⟨_, _, _, _, _, hzeros _, hzeros _, hzeros _, hzeros _, hzeros _, ?_⟩
    rw [← hlength, padding]
    simp only [replicate_append_replicate, length_append, length_replicate]
  rw [writeArena, guardElse_of hguard, ok_bind, hzeros]
  generalize descriptor.padding = padding at *
  generalize descriptor.metadataImage = m at *
  simp only [length_append] at hlength
  have hsymbolsWritten : writeRowTable (zs ++ (zc ++ (ze ++ (zv ++ (zm ++ padding)))))
      descriptor.symbols descriptor.symbolRows 32 8 writeSymbolRow =
        .ok (s ++ (zc ++ (ze ++ (zv ++ (zm ++ padding))))) :=
    hs.middle [] zs (zc ++ (ze ++ (zv ++ (zm ++ padding)))) hsoffset hzs.symm
      (by simp; omega)
  have hmetadataWritten := hm.middle (s ++ (zc ++ (ze ++ zv))) zm padding
    (by simp; omega) hzm.symm
    (by simp; omega)
  have hcomponentsWritten := hc.middle s zc (ze ++ (zv ++ (m ++ padding))) (by omega) hzc.symm
    (by simp; omega)
  have hedgesWritten := he.middle (s ++ c) ze (zv ++ (m ++ padding))
    (by simp; omega) hze.symm
    (by simp; omega)
  have hevidenceWritten := hv.middle (s ++ (c ++ e)) zv (m ++ padding)
    (by simp; omega) hzv.symm
    (by simp; omega)
  simp only [append_assoc] at hmetadataWritten hedgesWritten hevidenceWritten
  rw [hsymbolsWritten, ok_bind, hmetadataWritten, ok_bind,
    show writeRowTable _ descriptor.components _ 200 8 writeComponentRow = _ from
      hcomponentsWritten, ok_bind,
    show writeRowTable _ descriptor.edges _ 80 8 writeEdgeRow = _ from hedgesWritten, ok_bind]
  exact hevidenceWritten

end

section

variable
  (h : Lowered sha256 write bundleId bundleEpoch symbols components edges evidence descriptor)
include h

theorem Lowered.of_mem_symbolRows (hrow : row ∈ descriptor.symbolRows) :
    ∃ symbol ∈ symbols, ∃ offset,
      row = { lowerSymbol sha256 symbol with byteOffset := offset } := by
  rw [h.symbolRows] at hrow
  obtain ⟨value, hvalue, offset, rfl⟩ := mem_placeFrom hrow
  obtain ⟨symbol, hmem, rfl⟩ := mem_map.1 ((perm_sortRows _ _).mem_iff.1 hvalue)
  exact ⟨symbol, hmem, offset, rfl⟩

theorem Lowered.mem_symbolRows {symbol : SymbolValue} (hmem : symbol ∈ symbols) :
    ∃ offset, { lowerSymbol sha256 symbol with byteOffset := offset } ∈ descriptor.symbolRows := by
  rw [h.symbolRows]
  exact exists_mem_placeFrom 0 ((perm_sortRows _ _).mem_iff.2 (mem_map_of_mem hmem))

theorem Lowered.text (hrow : row ∈ descriptor.symbolRows) :
    row.byteOffset + row.byteLength ≤ descriptor.metadataImage.length ∧
      (descriptor.metadataImage.drop row.byteOffset).take row.byteLength = row.valueBytes := by
  have hvalues : ∀ value ∈ sortRows compareSymbolRows (symbols.map (lowerSymbol sha256)),
      value.byteLength = value.valueBytes.length := by
    intro value hvalue
    obtain ⟨symbol, -, rfl⟩ := mem_map.1 ((perm_sortRows _ _).mem_iff.1 hvalue)
    rfl
  rw [h.laidOut.metadataImage]
  rw [h.symbolRows] at hrow ⊢
  rw [symbolMetadataImage_placeFrom]
  exact (text_placeFrom hvalues row hrow).2

end

theorem Lowered.rowsFit
    (h : Lowered sha256 write bundleId bundleEpoch symbols components edges evidence descriptor)
    (hlengths : ∀ symbol ∈ symbols, (encodeText symbol.value).length < 2 ^ 32)
    (hbytes : descriptor.arenaBytes < wordLimit) : descriptor.RowsFit := by
  have hle := h.laidOut.le_arenaBytes
  refine ⟨fun row hrow => ?_, fun row hrow => ?_, fun row hrow => ?_, fun row hrow => ?_⟩
  · obtain ⟨symbol, hmem, offset, rfl⟩ := h.of_mem_symbolRows hrow
    have hfits := (h.text hrow).1
    dsimp only at hfits
    refine ⟨fits_lowerCompactId _ _, ?_, hlengths symbol hmem, h.validSymbols symbol hmem,
      (by decide : 0 < 256 ^ 2)⟩
    exact lt_of_le_of_lt (by dsimp only; omega) hbytes
  · rw [h.componentRows] at hrow
    obtain ⟨component, hmem, rfl⟩ := mem_map.1 ((perm_sortRows _ _).mem_iff.1 hrow)
    refine ⟨?_, h.validComponents component hmem, (by decide : 1 < 256 ^ 4),
      (by decide : 0 < 256 ^ 4), (by decide : 0 < 256 ^ 8)⟩
    simp [NativeComponent.ids, lowerComponent, fits_lowerCompactId]
  · rw [h.edgeRows] at hrow
    obtain ⟨edge, hmem, rfl⟩ := mem_map.1 ((perm_sortRows _ _).mem_iff.1 hrow)
    refine ⟨?_, h.validEdges edge hmem, (by decide : 0 < 256 ^ 4), (by decide : 0 < 256 ^ 4)⟩
    simp [NativeEdge.ids, lowerEdge, fits_lowerCompactId]
  · rw [h.evidenceRows] at hrow
    obtain ⟨item, hmem, rfl⟩ := mem_map.1 ((perm_sortRows _ _).mem_iff.1 hrow)
    refine ⟨?_, h.validEvidence item hmem, (by decide : 0 < 256 ^ 4), (by decide : 0 < 256 ^ 4)⟩
    simp [NativeEvidence.ids, lowerEvidence, fits_lowerCompactId]

theorem NativeRegion.Describes.fits_fields {region : NativeRegion} {arenaLength size height rows : ℕ}
    (h : region.Describes arenaLength size height rows) (harena : arenaLength < wordLimit)
    (hsize : size < 256 ^ 4) (hheight : height < 256 ^ 4) : region.Fits := by
  have hfits := h.fits
  have hlimit : wordLimit = 256 ^ 8 := by decide
  exact ⟨by omega, by omega, h.stride ▸ hsize, h.alignment ▸ hheight⟩

section

variable
  (h : Lowered sha256 write bundleId bundleEpoch symbols components edges evidence descriptor)

include h

theorem Lowered.fits (hbytes : descriptor.arenaBytes < wordLimit) : descriptor.Fits := by
  have hlaid := h.laidOut
  obtain ⟨hsymbols, hcomponents, hedges, hevidence, hmetadata⟩ := hlaid.describes
  have hid : descriptor.bundleId.Fits := by
    rw [h.built]
    exact fits_lowerCompactId _ _
  have hepoch : descriptor.bundleEpoch < 256 ^ 8 := by
    rw [h.built]
    exact h.epoch
  refine ⟨hlaid.structSize, by rw [hlaid.flags]; decide, by rw [hlaid.schemaMajor]; decide,
    by rw [hlaid.schemaMinor]; decide, by rw [hlaid.reserved0]; decide, hid, hepoch, hbytes,
    hsymbols.fits_fields hbytes (by decide) (by decide),
    hcomponents.fits_fields hbytes (by decide) (by decide),
    hedges.fits_fields hbytes (by decide) (by decide),
    hevidence.fits_fields hbytes (by decide) (by decide),
    hmetadata.fits_fields hbytes (by decide) (by decide), ?_⟩
  rw [hlaid.reserved]
  decide

/-- **The writer accepts a lowering**, and writes these two images. -/
theorem Lowered.writeForeignArena_eq
    (hlengths : ∀ symbol ∈ symbols, (encodeText symbol.value).length < 2 ^ 32)
    (hbytes : descriptor.arenaBytes < wordLimit) : writeForeignArena descriptor =
      .ok ⟨descriptor, descriptor.encode, descriptor.arenaImage, descriptor.arenaBytes⟩ := by
  rw [writeForeignArena, writeDescriptor_eq (h.fits hbytes), ok_bind,
    h.laidOut.writeArena_eq (h.rowsFit hlengths hbytes) hbytes]
  rfl

end

end PooFlow.Bundle
