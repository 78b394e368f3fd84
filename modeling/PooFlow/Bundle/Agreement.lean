import PooFlow.Bundle.Copy
import PooFlow.Bundle.Images
import Mathlib.Data.Prod.Lex

namespace PooFlow.Bundle

open Foundation Temporal List NativeDescriptor

theorem toNat_ofNat_word {value : ℕ} (h : value < 256 ^ 8) : (UInt64.ofNat value).toNat = value := by
  rw [UInt64.toNat_ofNat']
  exact Nat.mod_eq_of_lt h

theorem compareWords_ofNat {left right : ℕ} (hleft : left < 256 ^ 8) (hright : right < 256 ^ 8) :
    compareWords (UInt64.ofNat left) (UInt64.ofNat right) = compareIntegers left right := by
  simp only [compareWords, compareIntegers, gt_iff_lt, UInt64.lt_iff_toNat_lt,
    toNat_ofNat_word hleft, toNat_ofNat_word hright]

/-- The writer and the reader order identities in one way. -/
theorem compactIdCompare_compact {left right : NativeId} (hleft : left.Fits) (hright : right.Fits) :
    compactIdCompare left.compact right.compact = compareCompactIds left right := by
  simp only [compactIdCompare, compareCompactIds, NativeId.compact, gt_iff_lt,
    UInt64.lt_iff_toNat_lt, toNat_ofNat_word hleft.high, toNat_ofNat_word hleft.low,
    toNat_ofNat_word hright.high, toNat_ofNat_word hright.low]
  split_ifs <;> first | rfl | omega

theorem then_eq_ite (first second : Ordering) :
    first.then second = if first = .eq then second else first := by
  cases first <;> rfl

theorem symbolOrder_entry {a b : NativeSymbol} (ha : a.Fits) (hb : b.Fits) :
    symbolOrder a.entry b.entry = compareSymbolRows a b :=
  compactIdCompare_compact ha.id hb.id

theorem componentOrder_entry {a b : NativeComponent} (ha : a.Fits) (hb : b.Fits) :
    componentOrder a.entry b.entry = compareComponentRows a b := by
  have hcase := compactIdCompare_compact (ha.ids a.caseId (by simp [NativeComponent.ids]))
    (hb.ids b.caseId (by simp [NativeComponent.ids]))
  have hcomponent := compactIdCompare_compact
    (ha.ids a.componentId (by simp [NativeComponent.ids]))
    (hb.ids b.componentId (by simp [NativeComponent.ids]))
  simp only [componentOrder, NativeComponent.entry, hcase, hcomponent, compareComponentRows,
    then_eq_ite]

theorem edgeOrder_entry {a b : NativeEdge} (ha : a.Fits) (hb : b.Fits) :
    edgeOrder a.entry b.entry = compareEdgeRows a b := by
  have hids := fun (f : NativeEdge → NativeId) (hf : ∀ row : NativeEdge, f row ∈ row.ids) =>
    compactIdCompare_compact (ha.ids _ (hf a)) (hb.ids _ (hf b))
  have hcase := hids NativeEdge.caseId fun row => by simp [NativeEdge.ids]
  have hsource := hids NativeEdge.sourceComponentId fun row => by simp [NativeEdge.ids]
  have htarget := hids NativeEdge.targetComponentId fun row => by simp [NativeEdge.ids]
  have hrelation := hids NativeEdge.relationId fun row => by simp [NativeEdge.ids]
  have hwords := compareWords_ofNat ha.compositionOrder hb.compositionOrder
  simp only [edgeOrder, NativeEdge.entry, hcase, hsource, htarget, hrelation, hwords,
    compareEdgeRows]
  generalize compareCompactIds a.caseId b.caseId = o₁
  generalize compareCompactIds a.sourceComponentId b.sourceComponentId = o₂
  generalize compareIntegers a.compositionOrder b.compositionOrder = o₃
  generalize compareCompactIds a.targetComponentId b.targetComponentId = o₄
  generalize compareCompactIds a.relationId b.relationId = o₅
  revert o₁ o₂ o₃ o₄ o₅
  decide

theorem evidenceOrder_entry {a b : NativeEvidence} (ha : a.Fits) (hb : b.Fits) :
    evidenceOrder a.entry b.entry = compareEvidenceRows a b := by
  have hcase := compactIdCompare_compact (ha.ids a.caseId (by simp [NativeEvidence.ids]))
    (hb.ids b.caseId (by simp [NativeEvidence.ids]))
  have hobligation := compactIdCompare_compact
    (ha.ids a.obligationId (by simp [NativeEvidence.ids]))
    (hb.ids b.obligationId (by simp [NativeEvidence.ids]))
  simp only [evidenceOrder, NativeEvidence.entry, hcase, hobligation, compareEvidenceRows,
    then_eq_ite]

section

variable {arena : Block} {native : NativeRegion} {size height rows : ℕ}

theorem NativeRegion.Describes.toNat_region
    (h : native.Describes arena.bytes.length size height rows) :
    native.region.offset.toNat = native.offset ∧ native.region.length.toNat = size * rows := by
  have hfits := h.fits
  have harena := arena.fits
  have hlimit : wordLimit = 256 ^ 8 := by decide
  rw [← h.length]
  exact ⟨toNat_ofNat_word (by omega), toNat_ofNat_word (by omega)⟩

theorem NativeRegion.Describes.valid (h : native.Describes arena.bytes.length size height rows)
    (hbase : arena.base % 64 = 0) (hheight : height = 8 ∨ height = 1) {expectedStride : ℕ}
    (hstride : if expectedStride = 0 then size = 1 else size = expectedStride)
    (hsize : size < 256 ^ 4) :
    RegionValid native.region arena.base arena.bytes.length expectedStride height := by
  obtain ⟨hoffset, hlength⟩ := h.toNat_region
  have hfits := h.fits
  have harena := arena.fits
  have haligned := h.aligned
  have hcount := h.length
  have halignment : native.region.alignment = UInt32.ofNat height := by
    rw [← h.alignment]
    rfl
  have hregionStride : native.region.stride = UInt32.ofNat size := by
    rw [← h.stride]
    rfl
  have hsizes : (UInt32.ofNat size).toNat = size := by
    rw [UInt32.toNat_ofNat']
    exact Nat.mod_eq_of_lt hsize
  have hstrides : if expectedStride = 0 then native.region.stride = 1
      else native.region.stride.toNat = expectedStride ∧
        native.region.length.toNat % expectedStride = 0 := by
    split
    · next hzero =>
      rw [if_pos hzero] at hstride
      rw [hregionStride, hstride]
      rfl
    · next hzero =>
      rw [if_neg hzero] at hstride
      rw [hregionStride, hsizes, hlength, hstride]
      exact ⟨rfl, Nat.mul_mod_right _ _⟩
  rcases hheight with rfl | rfl
  · have height : native.region.alignment.toNat = 8 := by rw [halignment]; rfl
    refine ⟨by omega, by rw [halignment]; decide, height.ge, ?_, by omega, ?_, hstrides⟩
    · rw [height, hoffset]
      exact haligned
    · rw [height, hoffset]
      omega
  · have height : native.region.alignment.toNat = 1 := by rw [halignment]; rfl
    refine ⟨by omega, by rw [halignment]; decide, height.ge, ?_, by omega, ?_, hstrides⟩
    · rw [height]
      exact Nat.mod_one _
    · rw [height]
      exact Nat.mod_one _

end

structure TableAt {ν ρ : Type} (codec : RowCodec ν ρ) (arena : Block) (region : Region)
    (rows : List ν) : Prop where
  placed : ∃ head rest, arena.bytes = head ++ (rows.flatMap codec.encode ++ rest) ∧
    region.offset.toNat = head.length
  valid : RegionValid region arena.base arena.bytes.length codec.layout.size
    codec.layout.alignment
  count : rowCount codec.layout region = rows.length

section

variable {ν ρ : Type} {codec : RowCodec ν ρ} {arena : Block} {region : Region} {rows : List ν}
  (h : TableAt codec arena region rows)
include h

theorem TableAt.tableRow {index : ℕ} (hindex : index < rows.length) :
    tableRow codec.layout arena region index = codec.entry rows[index] := by
  obtain ⟨head, rest, harena, hoffset⟩ := h.placed
  exact codec.tableRow_eq harena hoffset hindex

/-- **A sorted table passes validation.** -/
theorem validateRows_written {check : ρ → Except Stop Unit} {order : ρ → ρ → Ordering}
    {compare : ν → ν → Ordering} (hcheck : ∀ row ∈ rows, check (codec.entry row) = .ok ())
    (horder : ∀ a ∈ rows, ∀ b ∈ rows, order (codec.entry a) (codec.entry b) = compare a b)
    (hsorted : strictlyOrdered compare rows = true) :
    validateRows codec.layout check order region arena = .ok () := by
  rw [validateRows_eq_ok codec.height h.valid]
  intro index hindex
  rw [h.count] at hindex
  rw [h.tableRow hindex]
  refine ⟨hcheck _ (getElem_mem _), fun hne => ?_⟩
  obtain ⟨index, rfl⟩ := Nat.exists_eq_succ_of_ne_zero hne
  rw [Nat.succ_sub_one, h.tableRow (Nat.lt_of_succ_lt hindex),
    horder _ (getElem_mem _) _ (getElem_mem _)]
  exact isChain_iff_getElem.1 (strictlyOrdered_iff.1 hsorted) index hindex

end

def NativeId.key (id : NativeId) : ℕ ×ₗ ℕ := toLex (id.high, id.low)

variable {left right : NativeId} {rows : List NativeComponent}

theorem compareCompactIds_eq_lt : compareCompactIds left right = .lt ↔ left.key < right.key := by
  rw [NativeId.key, NativeId.key, Prod.Lex.toLex_lt_toLex]
  unfold compareCompactIds
  split_ifs <;> simp_all

theorem compareCompactIds_eq_eq : compareCompactIds left right = .eq ↔ left.key = right.key := by
  rw [NativeId.key, NativeId.key, toLex_inj, Prod.mk.injEq]
  unfold compareCompactIds
  split_ifs with hless hsame
  · exact iff_of_false (by decide) (by omega)
  · exact iff_of_true rfl hsame
  · exact iff_of_false (by decide) hsame

def NativeComponent.key (row : NativeComponent) : (ℕ ×ₗ ℕ) ×ₗ (ℕ ×ₗ ℕ) :=
  toLex (row.caseId.key, row.componentId.key)

theorem compareComponentRows_eq_lt {left right : NativeComponent} :
    compareComponentRows left right = .lt ↔ left.key < right.key := by
  rw [NativeComponent.key, NativeComponent.key, Prod.Lex.toLex_lt_toLex,
    ← compareCompactIds_eq_lt, ← compareCompactIds_eq_lt, ← compareCompactIds_eq_eq]
  unfold compareComponentRows
  cases compareCompactIds left.caseId right.caseId <;> simp

theorem pairwise_key (h : strictlyOrdered compareComponentRows rows = true) :
    rows.Pairwise fun a b => a.key < b.key := by
  have hchain := strictlyOrdered_iff.1 h
  have htrans : Trans (fun a b : NativeComponent => a.key < b.key)
      (fun a b : NativeComponent => a.key < b.key) fun a b => a.key < b.key := ⟨lt_trans⟩
  exact isChain_iff_pairwise.1 (hchain.imp fun _ _ => compareComponentRows_eq_lt.1)

/-- **The lookup finds what was written.** -/
theorem findComponent_written {descriptor : Descriptor} {arena : Block}
    (hbytes : descriptor.arenaBytes = arena.size)
    (htable : TableAt componentCodec arena descriptor.components rows)
    (hfits : ∀ row ∈ rows, row.Fits) (hsorted : strictlyOrdered compareComponentRows rows = true)
    {row : NativeComponent} (hrow : row ∈ rows) :
    ∃ address, findComponent (some descriptor) (some arena) row.caseId.compact
        row.componentId.compact = .ok address ∧
      componentLayout.decode (arena.slice address componentLayout.size) = row.entry := by
  obtain ⟨index, hindex, rfl⟩ := getElem_of_mem hrow
  obtain ⟨found, hto, hlast, hstop, hfound⟩ := findComponent_valid hbytes htable.valid
    rows[index].caseId.compact rows[index].componentId.compact
  rw [show rowCount componentLayout _ = _ from htable.count] at hto hstop hfound
  have hcompare : ∀ (i : ℕ) (hi : i < rows.length), componentKeyCompare
      (tableRow componentLayout arena descriptor.components i) rows[index].caseId.compact
        rows[index].componentId.compact = compareComponentRows rows[i] rows[index] := by
    intro i hi
    rw [show tableRow componentLayout arena descriptor.components i = rows[i].entry from
      htable.tableRow hi]
    exact componentOrder_entry (hfits _ (getElem_mem _)) (hfits _ (getElem_mem _))
  have hkeys := pairwise_iff_getElem.1 (pairwise_key hsorted)
  have heq : found = index := by
    refine le_antisymm (not_lt.1 fun hlt => ?_) (not_lt.1 fun hlt => ?_)
    · -- the row before `found` would be smaller than the one looked for
      have hbefore := hlast.resolve_left (by omega)
      rw [hcompare (found - 1) (by omega), compareComponentRows_eq_lt] at hbefore
      rcases Nat.lt_or_eq_of_le (Nat.le_sub_one_of_lt hlt) with hless | hsame
      · exact lt_asymm hbefore (hkeys index (found - 1) hindex (by omega) hless)
      · subst hsame
        exact lt_irrefl _ hbefore
    · have hat := hstop.resolve_left (by omega)
      rw [hcompare found (by omega)] at hat
      exact hat (compareComponentRows_eq_lt.2 (hkeys found index (by omega) hindex hlt))
  subst heq
  have hsame : compareComponentRows rows[found] rows[found] = .eq := by
    simp [compareComponentRows, compareCompactIds]
  rw [hcompare found hindex, if_pos ⟨hindex, hsame⟩] at hfound
  exact ⟨_, hfound, htable.tableRow hindex⟩

theorem foldl_or_ne_zero {bytes : Bytes} (h : ∃ byte ∈ bytes, byte ≠ 0) (start : UInt8) :
    bytes.foldl (· ||| ·) start ≠ 0 := by
  have hgrows : ∀ (bytes : Bytes) (start : UInt8), start ≠ 0 →
      bytes.foldl (· ||| ·) start ≠ 0 := by
    intro bytes
    induction bytes with
    | nil => exact fun start hstart => hstart
    | cons byte bytes ih =>
      intro start hstart
      exact ih _ fun hzero => hstart (UInt8.or_eq_zero_iff.1 hzero).1
  induction bytes generalizing start with
  | nil => exact absurd h (by simp)
  | cons byte bytes ih =>
    obtain ⟨other, hmem, hne⟩ := h
    rcases mem_cons.1 hmem with rfl | hmem
    · exact hgrows bytes _ fun hzero => hne (UInt8.or_eq_zero_iff.1 hzero).2
    · exact ih ⟨other, hmem, hne⟩ _

variable {sha256 : Bytes → Digest} {write : Datum → String} {bundleId : SemanticId}
  {bundleEpoch : ℕ} {symbols : List SymbolValue} {components : List ComponentValue}
  {edges : List EdgeValue} {evidence : List EvidenceValue} {descriptor : NativeDescriptor}
  {arena : Block}

theorem LaidOut.validateHeader (h : LaidOut descriptor)
    (harena : arena.bytes.length = descriptor.arenaBytes)
    (hdigest : ∃ byte ∈ descriptor.digest.bytes, byte ≠ 0) :
    validateHeader descriptor.record arena.size = .ok () := by
  have hsize : descriptor.record.arenaBytes = arena.size := by
    rw [Block.size, harena]
    rfl
  simp only [Bundle.validateHeader, validateDigest, then_eq_ok, guardElse_eq_ok]
  refine ⟨?_, ⟨?_, ?_, hsize⟩, ?_, ?_⟩
  · simp only [record, h.structSize, h.schemaMajor, h.schemaMinor]
    decide
  · simp only [record, h.flags]
    decide
  · simp only [record, h.reserved0]
    decide
  · simp only [record]
    decide
  · exact foldl_or_ne_zero hdigest 0

structure Holding (descriptor : NativeDescriptor) (arena : Block) : Prop where
  bytes : arena.bytes = descriptor.arenaImage
  aligned : arena.base % recommendedArenaAlignment = 0

theorem Holding.length (h : Holding descriptor arena) (hlaid : LaidOut descriptor) :
    arena.bytes.length = descriptor.arenaBytes := by
  rw [h.bytes, hlaid.length_arenaImage]

theorem Holding.regionsValid (h : Holding descriptor arena) (hlaid : LaidOut descriptor) :
    RegionsValid descriptor.record arena := by
  obtain ⟨hsymbols, hcomponents, hedges, hevidence, hmetadata⟩ := hlaid.describes
  rw [← h.length hlaid] at hsymbols hcomponents hedges hevidence hmetadata
  exact ⟨hsymbols.valid h.aligned (.inl rfl) rfl (by decide),
    hcomponents.valid h.aligned (.inl rfl) rfl (by decide),
    hedges.valid h.aligned (.inl rfl) rfl (by decide),
    hevidence.valid h.aligned (.inl rfl) rfl (by decide),
    hmetadata.valid h.aligned (.inr rfl) rfl (by decide)⟩

/-- A table that the writer has put behind `head` is where its region says. -/
theorem tableAt_of_describes {ν ρ : Type} {codec : RowCodec ν ρ} {native : NativeRegion}
    {rows : List ν} (head rest : Bytes)
    (hbytes : arena.bytes = head ++ (rows.flatMap codec.encode ++ rest))
    (hnative : native.Describes arena.bytes.length codec.layout.size 8 rows.length)
    (hoffset : native.offset = head.length)
    (hvalid : RegionValid native.region arena.base arena.bytes.length codec.layout.size
      codec.layout.alignment) : TableAt codec arena native.region rows := by
  refine ⟨⟨head, rest, hbytes, hnative.toNat_region.1.trans hoffset⟩, hvalid, ?_⟩
  rw [rowCount, hnative.toNat_region.2, Nat.mul_div_cancel_left _ codec.layout.size_pos]

/-- Where the tables lie in the image. -/
structure Tables (descriptor : NativeDescriptor) (arena : Block) : Prop where
  symbols : TableAt symbolCodec arena descriptor.record.symbols descriptor.symbolRows
  components : TableAt componentCodec arena descriptor.record.components descriptor.componentRows
  edges : TableAt edgeCodec arena descriptor.record.edges descriptor.edgeRows
  evidenceObligations :
    TableAt evidenceCodec arena descriptor.record.evidenceObligations descriptor.evidenceRows

theorem Holding.tables (h : Holding descriptor arena) (hlaid : LaidOut descriptor) :
    Tables descriptor arena := by
  obtain ⟨hsymbols, hcomponents, hedges, hevidence, hmetadata⟩ := hlaid.describes
  rw [← h.length hlaid] at hsymbols hcomponents hedges hevidence
  have hvalid := h.regionsValid hlaid
  have hbytes := h.bytes
  rw [arenaImage] at hbytes
  have hs : (descriptor.symbolRows.flatMap symbolCodec.encode).length =
      descriptor.symbolRows.length * 32 := symbolCodec.length_flatMap _
  have hc : (descriptor.componentRows.flatMap componentCodec.encode).length =
      descriptor.componentRows.length * 200 := componentCodec.length_flatMap _
  have he : (descriptor.edgeRows.flatMap edgeCodec.encode).length =
      descriptor.edgeRows.length * 80 := edgeCodec.length_flatMap _
  generalize hsymbolBytes : descriptor.symbolRows.flatMap symbolCodec.encode = s at hbytes hs
  generalize hcomponentBytes : descriptor.componentRows.flatMap componentCodec.encode = c
    at hbytes hc
  generalize hedgeBytes : descriptor.edgeRows.flatMap edgeCodec.encode = e at hbytes he
  generalize hevidenceBytes : descriptor.evidenceRows.flatMap evidenceCodec.encode = v at hbytes
  refine ⟨tableAt_of_describes [] _ (hsymbolBytes ▸ hbytes) hsymbols ?_ hvalid.symbols,
    tableAt_of_describes s _ (hcomponentBytes ▸ hbytes) hcomponents ?_ hvalid.components,
    tableAt_of_describes (s ++ c) (v ++ (descriptor.metadataImage ++ descriptor.padding)) ?_
      hedges ?_ hvalid.edges,
    tableAt_of_describes (s ++ (c ++ e)) (descriptor.metadataImage ++ descriptor.padding) ?_
      hevidence ?_ hvalid.evidenceObligations⟩
  · rw [hlaid.symbols]
    rfl
  · rw [hlaid.components, hs]
    rfl
  · rw [hbytes, hedgeBytes]
    simp only [append_assoc]
  · rw [hlaid.edges, length_append, hs, hc]
    rfl
  · rw [hbytes, hevidenceBytes]
    simp only [append_assoc]
  · rw [hlaid.evidenceObligations, length_append, length_append, hs, hc, he,
      ← Nat.add_assoc]
    rfl

/-- **The reader accepts what the writer has written.** -/
theorem Holding.validate (h : Holding descriptor arena)
    (hlowered : Lowered sha256 write bundleId bundleEpoch symbols components edges evidence
      descriptor) (hrows : descriptor.RowsFit)
    (hdigest : ∃ byte ∈ descriptor.digest.bytes, byte ≠ 0) :
    validate (some descriptor.record) (some arena) arena.size = .ok () := by
  have hlaid := hlowered.laidOut
  have htables := h.tables hlaid
  have hdescribes := hlaid.describes.2.2.2.2
  rw [← h.length hlaid] at hdescribes
  have hmetadata : descriptor.record.metadataBytes.length.toNat = descriptor.metadataImage.length :=
    hdescribes.toNat_region.2.trans (Nat.one_mul _)
  refine validate_eq_ok.2 ⟨hlaid.validateHeader (h.length hlaid) hdigest,
    h.regionsValid hlaid, ?_, ?_, ?_, ?_⟩
  · refine validateRows_written htables.symbols (fun row hrow => ?_)
      (fun a ha b hb => symbolOrder_entry (hrows.symbols a ha) (hrows.symbols b hb))
      hlowered.symbolOrder
    have htext := (hlowered.text hrow).1
    have hfits := hrows.symbols row hrow
    obtain ⟨symbol, -, offset, rfl⟩ := hlowered.of_mem_symbolRows hrow
    rw [hmetadata, checkSymbol_eq_ok]
    refine ⟨rfl, ?_⟩
    have hlength : (UInt32.ofNat (lowerSymbol sha256 symbol).byteLength).toNat =
        (lowerSymbol sha256 symbol).byteLength := by
      rw [UInt32.toNat_ofNat']
      exact Nat.mod_eq_of_lt hfits.byteLength
    exact le_of_eq_of_le (congrArg₂ _ (toNat_ofNat_word hfits.byteOffset) hlength) htext
  · refine validateRows_written htables.components (fun row hrow => ?_)
      (fun a ha b hb => componentOrder_entry (hrows.components a ha) (hrows.components b hb))
      hlowered.componentOrder
    rw [hlowered.componentRows] at hrow
    obtain ⟨component, -, rfl⟩ := mem_map.1 ((perm_sortRows _ _).mem_iff.1 hrow)
    exact guardElse_of (by decide : (1 : UInt32) &&& ~~~componentKnownFlags = 0 ∧
      (0 : UInt32) = 0 ∧ (0 : UInt64) = 0)
  · refine validateRows_written htables.edges (fun row hrow => ?_)
      (fun a ha b hb => edgeOrder_entry (hrows.edges a ha) (hrows.edges b hb)) hlowered.edgeOrder
    rw [hlowered.edgeRows] at hrow
    obtain ⟨edge, -, rfl⟩ := mem_map.1 ((perm_sortRows _ _).mem_iff.1 hrow)
    exact guardElse_of ⟨rfl, rfl⟩
  · refine validateRows_written htables.evidenceObligations (fun row hrow => ?_)
      (fun a ha b hb => evidenceOrder_entry (hrows.evidence a ha) (hrows.evidence b hb))
      hlowered.evidenceOrder
    rw [hlowered.evidenceRows] at hrow
    obtain ⟨item, -, rfl⟩ := mem_map.1 ((perm_sortRows _ _).mem_iff.1 hrow)
    exact guardElse_of ⟨rfl, rfl⟩

/-- Rounding up a multiple of the alignment changes nothing. -/
theorem allocationBytes_eq {arenaBytes : UInt64} (hpos : 0 < arenaBytes.toNat)
    (hmod : arenaBytes.toNat % 64 = 0) (hfits : arenaBytes.toNat + 63 < wordLimit) :
    allocationBytes arenaBytes = .ok arenaBytes.toNat := by
  have hpadded : (addWords arenaBytes.toNat 63 : Except Stop ℕ) = .ok (arenaBytes.toNat + 63) :=
    addWords_eq_ok.2 ⟨hfits, rfl⟩
  have hrounded := and_not_low (arenaBytes.toNat + 63) hfits
  have hsame : (arenaBytes.toNat + 63) / 64 * 64 = arenaBytes.toNat := by omega
  rw [hsame] at hrounded
  rw [allocationBytes, show recommendedArenaAlignment - 1 = 63 from rfl, hpadded, ok_bind]
  dsimp only
  rw [hrounded, if_neg hpos.ne']
  rfl

/-- **The reader takes the images over.** -/
theorem Holding.arenaCreate (h : Holding descriptor arena)
    (hlowered : Lowered sha256 write bundleId bundleEpoch symbols components edges evidence
      descriptor) (hrows : descriptor.RowsFit)
    (hdigest : ∃ byte ∈ descriptor.digest.bytes, byte ≠ 0)
    (hroom : descriptor.arenaBytes + 63 < wordLimit)
    {alignedAlloc : (size : ℕ) → Option (Allocation size)}
    (halloc : (alignedAlloc descriptor.arenaBytes).isSome) :
    ∃ data, Holding descriptor data ∧
      arenaCreate true alignedAlloc (some descriptor.record) (some arena) arena.size =
        .ok ⟨descriptor.record, arena.size, data⟩ := by
  have hlaid := hlowered.laidOut
  have hlength := h.length hlaid
  have hsize : arena.size.toNat = descriptor.arenaBytes := arena.toNat_size.trans hlength
  have hpos : 0 < descriptor.arenaBytes := by
    rw [hlaid.arenaBytes]
    omega
  obtain ⟨allocation, hallocation⟩ := Option.isSome_iff_exists.1 halloc
  have hbytes : allocationBytes arena.size = .ok descriptor.arenaBytes := by
    rw [← hsize]
    exact allocationBytes_eq (hsize ▸ hpos) (hsize ▸ hlaid.arenaBytes_mod) (hsize ▸ hroom)
  have hcopy : copyInto allocation arena.bytes = .ok ⟨allocation.base, arena.bytes,
      allocation.pos, Nat.lt_of_le_of_lt (Nat.add_le_add_left hlength.le _) allocation.fits⟩ :=
    dif_pos hlength.le
  generalize hdata : (⟨allocation.base, arena.bytes, allocation.pos,
    Nat.lt_of_le_of_lt (Nat.add_le_add_left hlength.le _) allocation.fits⟩ : Block) = data at hcopy
  have hholding : Holding descriptor data := by
    subst hdata
    exact ⟨h.bytes, allocation.aligned⟩
  have hsame : data.size = arena.size := by
    rw [Block.size, Block.size, hholding.length hlaid, hlength]
  have hvalid := hholding.validate hlowered hrows hdigest
  rw [hsame] at hvalid
  have hlimit : arena.size.toNat ≤ wordLimit - 1 - (recommendedArenaAlignment - 1) := by
    rw [hsize, show recommendedArenaAlignment - 1 = 63 from rfl]
    omega
  refine ⟨data, hholding, ?_⟩
  simp only [Bundle.arenaCreate, presentElse, ok_bind, guardElse_of hlimit,
    h.validate hlowered hrows hdigest, hbytes, guardElse_of, hallocation, read_all arena, hcopy,
    hvalid]
  rfl

/-- The lookup ends at the row that was written for the component. -/
def FindsRow (find : CompactId → CompactId → Except Stop ℕ) (arena : Block)
    (row : NativeComponent) : Prop :=
  ∃ address, find row.caseId.compact row.componentId.compact = .ok address ∧
    componentLayout.decode (arena.slice address componentLayout.size) = row.entry

/-- Some row has the identity, and its range of the metadata is the text. -/
def HoldsText (descriptor : Descriptor) (arena : Block) (id : CompactId) (text : Bytes) : Prop :=
  ∃ index < rowCount symbolLayout descriptor.symbols, ∃ address,
    (tableRow symbolLayout arena descriptor.symbols index).symbolId = id ∧
    symbolText descriptor arena (tableRow symbolLayout arena descriptor.symbols index) =
      .ok address ∧
    arena.slice address
      (tableRow symbolLayout arena descriptor.symbols index).byteLength.toNat = text

theorem Holding.metadata (h : Holding descriptor arena) :
    ∃ head, head.length = descriptor.metadataOffset ∧
      arena.bytes = head ++ (descriptor.metadataImage ++ descriptor.padding) := by
  refine ⟨descriptor.symbolRows.flatMap symbolCodec.encode ++
    (descriptor.componentRows.flatMap componentCodec.encode ++
      (descriptor.edgeRows.flatMap edgeCodec.encode ++
        descriptor.evidenceRows.flatMap evidenceCodec.encode)), ?_, ?_⟩
  · simp only [length_append, RowCodec.length_flatMap, metadataOffset,
      ← Nat.add_assoc]
    rfl
  · rw [h.bytes, arenaImage]
    simp only [append_assoc]

section

variable (h : Holding descriptor arena)
  (hlowered : Lowered sha256 write bundleId bundleEpoch symbols components edges evidence descriptor)
  (hrows : descriptor.RowsFit)

include h hlowered hrows

theorem Holding.findsRow {component : ComponentValue} (hmem : component ∈ components) :
    FindsRow (findComponent (some descriptor.record) (some arena)) arena
      (lowerComponent sha256 component) := by
  have hlaid := hlowered.laidOut
  have hrow : lowerComponent sha256 component ∈ descriptor.componentRows := by
    rw [hlowered.componentRows]
    exact (perm_sortRows _ _).mem_iff.2 (mem_map_of_mem hmem)
  have hsize : descriptor.record.arenaBytes = arena.size := by
    rw [Block.size, h.length hlaid]
    rfl
  exact findComponent_written hsize (h.tables hlaid).components hrows.components
    hlowered.componentOrder hrow

theorem Holding.holdsText {symbol : SymbolValue} (hmem : symbol ∈ symbols) :
    HoldsText descriptor.record arena (lowerSymbol sha256 symbol).id.compact
      (encodeText symbol.value) := by
  have hlaid := hlowered.laidOut
  have htable := (h.tables hlaid).symbols
  obtain ⟨offset, hrow⟩ := hlowered.mem_symbolRows hmem
  have htext := hlowered.text hrow
  have hfits := hrows.symbols _ hrow
  obtain ⟨index, hindex, hget⟩ := getElem_of_mem hrow
  have hentry : tableRow symbolLayout arena descriptor.record.symbols index =
      NativeSymbol.entry { lowerSymbol sha256 symbol with byteOffset := offset } := by
    rw [← hget]
    exact htable.tableRow hindex
  have hoffset : (UInt64.ofNat offset).toNat = offset := toNat_ofNat_word hfits.byteOffset
  have hlength : (UInt32.ofNat (lowerSymbol sha256 symbol).byteLength).toNat =
      (lowerSymbol sha256 symbol).byteLength := by
    rw [UInt32.toNat_ofNat']
    exact Nat.mod_eq_of_lt hfits.byteLength
  have hdescribes := hlaid.describes.2.2.2.2
  rw [← h.length hlaid] at hdescribes
  have hmetadata : descriptor.record.metadataBytes.offset.toNat = descriptor.metadataOffset := by
    refine hdescribes.toNat_region.1.trans ?_
    rw [hlaid.metadataBytes]
    rfl
  obtain ⟨head, hhead, hbytes⟩ := h.metadata
  have hregion := (h.regionsValid hlaid).metadataBytes
  have harena := arena.fits
  have hend := congrArg List.length hbytes
  simp only [length_append] at hend
  dsimp only at htext
  have haddress : symbolText descriptor.record arena
      (tableRow symbolLayout arena descriptor.record.symbols index) =
        .ok (arena.base + descriptor.metadataOffset + offset) := by
    rw [symbolText, hregion.regionBase, ok_bind, hmetadata, hentry]
    refine addWords_eq_ok.2 ?_
    rw [show (NativeSymbol.entry { lowerSymbol sha256 symbol with
      byteOffset := offset }).byteOffset.toNat = offset from hoffset]
    exact ⟨by omega, rfl⟩
  refine ⟨index, htable.count ▸ hindex, _, ?_, haddress, ?_⟩
  · rw [hentry]
    rfl
  · rw [hentry, show (NativeSymbol.entry { lowerSymbol sha256 symbol with
      byteOffset := offset }).byteLength.toNat = (lowerSymbol sha256 symbol).byteLength from
        hlength, Block.slice, Nat.add_assoc, Nat.add_sub_cancel_left, hbytes,
      drop_skip (by omega), hhead, Nat.add_sub_cancel_left,
      drop_append_of_le_length (by omega),
      take_append_of_le_length (by rw [length_drop]; omega)]
    exact htext.2

end

/-- **The writer and the reader agree.** Whatever a lowering accepts is written;
the reader validates the images, takes them over, finds the row of every
component and holds the text of every symbol. -/
theorem writer_reader_agree (sha256 : Bytes → Digest) (write : Datum → String)
    (bundleId : SemanticId) (bundleEpoch : ℕ) (symbols : List SymbolValue)
    (components : List ComponentValue) (edges : List EdgeValue) (evidence : List EvidenceValue)
    (descriptor : NativeDescriptor)
    (hlowering : loweringWithSymbols sha256 write bundleId bundleEpoch symbols components edges
      evidence = .ok descriptor)
    (hlengths : ∀ symbol ∈ symbols, (encodeText symbol.value).length < 2 ^ 32)
    (hroom : descriptor.arenaBytes + 63 < wordLimit)
    (hdigest : ∃ byte ∈ descriptor.digest.bytes, byte ≠ 0) :
    ∃ image, writeForeignArena descriptor = .ok image ∧
      ∀ arena : Block, arena.bytes = image.arenaImage →
        arena.base % recommendedArenaAlignment = 0 →
        validate (some (descriptorOf image.descriptorImage)) (some arena) arena.size = .ok () ∧
        (∀ component ∈ components,
          FindsRow (findComponent (some (descriptorOf image.descriptorImage)) (some arena)) arena
            (lowerComponent sha256 component)) ∧
        (∀ symbol ∈ symbols, HoldsText (descriptorOf image.descriptorImage) arena
          (lowerSymbol sha256 symbol).id.compact (encodeText symbol.value)) ∧
        ∀ alignedAlloc : (size : ℕ) → Option (Allocation size),
          (alignedAlloc descriptor.arenaBytes).isSome →
          ∃ owned, arenaCreatePacked true true alignedAlloc (some image.descriptorImage)
              (some arena) arena.size = .ok owned ∧
            (∀ component ∈ components, FindsRow (arenaFindComponent (some owned)) owned.data
              (lowerComponent sha256 component)) ∧
            ∀ symbol ∈ symbols, HoldsText owned.descriptor owned.data
              (lowerSymbol sha256 symbol).id.compact (encodeText symbol.value) := by
  have hlowered := lowered_of_ok hlowering
  have hbytes : descriptor.arenaBytes < wordLimit := by omega
  have hrows := hlowered.rowsFit hlengths hbytes
  have hrecord := descriptorOf_encode hlowered.laidOut.reserved
  refine ⟨_, hlowered.writeForeignArena_eq hlengths hbytes, fun arena harena hbase => ?_⟩
  dsimp only at harena ⊢
  have hholding : Holding descriptor arena := ⟨harena, hbase⟩
  rw [hrecord]
  refine ⟨hholding.validate hlowered hrows hdigest,
    fun component hmem => hholding.findsRow hlowered hrows hmem,
    fun symbol hmem => hholding.holdsText hlowered hrows hmem, fun alignedAlloc halloc => ?_⟩
  obtain ⟨data, hdata, hcreate⟩ := hholding.arenaCreate hlowered hrows hdigest hroom halloc
  have himage : descriptor.encode.length = descriptorBytes :=
    NativeDescriptor.length_encode (hlowered.fits hbytes).reserved.1
  refine ⟨⟨descriptor.record, arena.size, data⟩, ?_,
    fun component hmem => hdata.findsRow hlowered hrows hmem,
    fun symbol hmem => hdata.holdsText hlowered hrows hmem⟩
  rw [arenaCreatePacked, guardElse_of rfl, ok_bind, presentElse, ok_bind, guardElse_of himage,
    ok_bind, hrecord, hcreate]

def intakeDigests : List (String × ℕ) :=
  [ ("poo-flow.bundle-v1.id/case/symbol:intake",
      0x77e4873c2a08fa9beff62f0e1b1598248ec80190cc601c1505c27fb7fe2fe3db),
    ("poo-flow.bundle-v1.id/component/symbol:intake",
      0x0207f7898783feb9a647702406f220cbe576d38538e846f07af1300aa1e6d9f1),
    ("poo-flow.bundle-v1.id/object/symbol:intake",
      0x507fdc843df92ec17d5f51f8a2e021619ec81a83da056ae89dc31f26a18674a9),
    ("poo-flow.bundle-v1.id/type/symbol:intake",
      0x5d613fea7eaf2df65e109da65fecee093b4270c7c48275ea73a6fa47a9ce447a),
    ("poo-flow.bundle-v1.id/contract/symbol:intake",
      0x6c3981ef7aab75543bbe07cb19578255c27711d6a090a5f08085bee69f6492e4),
    ("poo-flow.bundle-v1.id/role/symbol:intake",
      0x9b7867705f4cf31dbc645bff42dfba1e2312bfe00d7c47d5d7e863e9184dff8c),
    ("poo-flow.bundle-v1.id/capability/symbol:intake",
      0x316303177b214f57cb08afe01f85dfa4b6a7f9ff805c411b12c05f20065cae05),
    ("poo-flow.bundle-v1.id/policy/symbol:intake",
      0xa2fddb1c15cebde1ab907e03031fdbedfda49f10da70f2cc60b463b88c87d99a),
    ("poo-flow.bundle-v1.id/strategy/symbol:intake",
      0x9b03078e6e1059fa2ddede003220b9533b6494cda8cea42da9a2d12fe19f6bdb),
    ("poo-flow.bundle-v1.id/adapter/symbol:intake",
      0x5a9382bef92fa41198f0b9856910cb0e6de878169b3ab9ee277ac21ca8497407),
    ("poo-flow.bundle-v1.id/projection/symbol:intake",
      0x387a81dd3c727418305ca60145617c33f0d6712fdba1e01dad52bdb174def650),
    ("poo-flow.bundle-v1.id/bundle/symbol:clinic",
      0xd9bb6fd1700f7da59e21aedcc5a1370ad2bad145a16e110e8adcccb5b14bc56a),
    ("(poo-flow.bundle.1 (15689256672194166181 11394580795455780618) " ++
      "(((11202817805416985373 13575076328698264094) 0 6 1 0 (73 110 116 97 107 " ++
      "101))) (((8639178677676472987 17291059556966045732) (146357682968985273 " ++
      "11981668633680158923) (5800597305610022593 9034029505854841185) " ++
      "(6728729594648538614 6778090777092091401) (7798407095323948372 " ++
      "4304886862697693781) (11202817805416985373 13575076328698264094) " ++
      "(3558691529937735511 14630136766649458596) (11744784316923559393 " ++
      "12362519528534432749) (11169779809122277882 3305323268958894419) " ++
      "(6526704041726026769 11020512270820100878) (4069708000484553752 " ++
      "3484842736067116083) 0 1 0 0)) () ())",
      0x3519740c4204d274742d78734da8d02ab347f9cc15dc4b5f2fce3f8918b100de) ]

def intakeSha256 (bytes : Bytes) : Digest :=
  let digest := (intakeDigests.find? fun row => encodeText row.1 = bytes).elim 0 Prod.snd
  ⟨(List.range 32).map fun i => UInt8.ofNat (digest / 256 ^ (31 - i)), by simp [digestBytes]⟩

def intakeComponent : ComponentValue :=
  ⟨.symbol "intake", .symbol "intake", .symbol "intake", .symbol "intake", .symbol "intake",
    .symbol "intake", .symbol "intake", .symbol "intake", .symbol "intake", .symbol "intake",
    .symbol "intake", 0⟩

def intakeLowering : Except Diagnostic NativeDescriptor :=
  loweringWithSymbols intakeSha256 writeDatum (.symbol "clinic") 1
    [⟨"role", .symbol "intake", "Intake", 1⟩] [intakeComponent] [] []

theorem intake_lowered : ∃ descriptor, intakeLowering = .ok descriptor ∧
    descriptor.arenaBytes + 63 < wordLimit ∧ ∃ byte ∈ descriptor.digest.bytes, byte ≠ 0 := by
  decide +kernel

theorem intake_agrees : ∃ descriptor image, intakeLowering = .ok descriptor ∧
    writeForeignArena descriptor = .ok image ∧
    ∀ arena : Block, arena.bytes = image.arenaImage → arena.base % 64 = 0 →
      FindsRow (findComponent (some (descriptorOf image.descriptorImage)) (some arena)) arena
        (lowerComponent intakeSha256 intakeComponent) := by
  obtain ⟨descriptor, hlowering, hroom, hdigest⟩ := intake_lowered
  have hlengths : ∀ symbol ∈ [(⟨"role", .symbol "intake", "Intake", 1⟩ : SymbolValue)],
      (encodeText symbol.value).length < 2 ^ 32 := by decide +kernel
  obtain ⟨image, hwritten, hreads⟩ := writer_reader_agree intakeSha256 writeDatum
    (.symbol "clinic") 1 [⟨"role", .symbol "intake", "Intake", 1⟩] [intakeComponent] [] []
    descriptor hlowering hlengths hroom hdigest
  refine ⟨descriptor, image, hlowering, hwritten, fun arena harena hbase => ?_⟩
  exact (hreads arena harena hbase).2.1 intakeComponent mem_cons_self

end PooFlow.Bundle
