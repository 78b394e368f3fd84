import PooFlow.Bundle.Access

namespace PooFlow.Bundle

open Foundation Option

variable {ρ : Type} {arena : Block} {region : Region} {layout : RowLayout ρ}

@[simp] theorem status_ne_fault (status : Status) (f : Fault) :
    (Stop.status status : Stop) ≠ fault f := by
  intro h
  cases h

theorem noFault_require {p : Prop} [Decidable p] {status : Status} :
    NoFault (guardElse p (Stop.status status)) :=
  noFault_guardElse fun f => status_ne_fault status f

/-- What `validate_region` has checked. -/
structure RegionValid (region : Region) (arena arenaBytes expectedStride minimumAlignment : ℕ) :
    Prop where
  fits : region.offset.toNat + region.length.toNat ≤ arenaBytes
  powerOfTwo : isPowerOfTwo region.alignment = true
  minimum : minimumAlignment ≤ region.alignment.toNat
  offset_aligned : region.offset.toNat % region.alignment.toNat = 0
  address_fits : arena + region.offset.toNat < wordLimit
  aligned : (arena + region.offset.toNat) % region.alignment.toNat = 0
  stride : if expectedStride = 0 then region.stride = 1
    else region.stride.toNat = expectedStride ∧ region.length.toNat % expectedStride = 0

variable {base arenaBytes expectedStride minimumAlignment : ℕ}

theorem validateRegion_eq_ok :
    validateRegion region base arenaBytes expectedStride minimumAlignment = .ok () ↔
      RegionValid region base arenaBytes expectedStride minimumAlignment := by
  have hstride : (if expectedStride = 0 then guardElse (region.stride = 1)
      (Stop.status .regionLayout) else
        guardElse (region.stride.toNat = expectedStride ∧
          region.length.toNat % expectedStride = 0) (Stop.status .regionLayout)) = .ok () ↔
      if expectedStride = 0 then region.stride = 1
        else region.stride.toNat = expectedStride ∧ region.length.toNat % expectedStride = 0 := by
    split <;> exact guardElse_eq_ok
  simp only [validateRegion, bind_eq_ok, guardElse_eq_ok, subWords_eq_ok, addWords_eq_ok,
    exists_const, hstride]
  constructor
  · rintro ⟨hoffset, room, ⟨-, rfl⟩, hlength, hpower, hminimum, haligned, address,
      ⟨hfits, rfl⟩, haddress, hstride⟩
    exact ⟨by omega, hpower, hminimum, haligned, hfits, haddress, hstride⟩
  · intro h
    have hfits := h.fits
    exact ⟨by omega, _, ⟨by omega, rfl⟩, by omega, h.powerOfTwo, h.minimum, h.offset_aligned, _,
      ⟨h.address_fits, rfl⟩, h.aligned, h.stride⟩

theorem noFault_validateRegion (hfits : base + arenaBytes < wordLimit) :
    NoFault (validateRegion region base arenaBytes expectedStride minimumAlignment) := by
  refine noFault_require.bind fun _ hoffset => ?_
  rw [guardElse_eq_ok] at hoffset
  have hroom : (subWords arenaBytes region.offset.toNat : Except Stop ℕ) =
      .ok (arenaBytes - region.offset.toNat) := subWords_eq_ok.2 ⟨hoffset, rfl⟩
  have haddress : (addWords base region.offset.toNat : Except Stop ℕ) =
      .ok (base + region.offset.toNat) := addWords_eq_ok.2 ⟨by omega, rfl⟩
  refine (noFault_of_ok hroom).bind fun _ _ => noFault_require.bind fun _ _ =>
    noFault_require.bind fun _ _ => noFault_require.bind fun _ _ =>
    noFault_require.bind fun _ _ => (noFault_of_ok haddress).bind fun _ _ =>
    noFault_require.bind fun _ _ => ?_
  split <;> exact noFault_require

theorem RegionValid.alignment_eq_two_pow
    (h : RegionValid region base arenaBytes expectedStride minimumAlignment) :
    ∃ exponent, region.alignment.toNat = 2 ^ exponent := by
  have hpower := h.powerOfTwo
  simp only [isPowerOfTwo, decide_eq_true_eq] at hpower
  have hne : region.alignment.toNat ≠ 0 := fun hzero => hpower.1 (UInt32.toNat_inj.1 hzero)
  have hone : (1 : UInt32) ≤ region.alignment := by
    rw [UInt32.le_iff_toNat_le]
    exact Nat.one_le_iff_ne_zero.2 hne
  have hand : region.alignment.toNat &&& (region.alignment.toNat - 1) = 0 := by
    have hzero := congrArg UInt32.toNat hpower.2
    rwa [UInt32.toNat_and, UInt32.toNat_sub_of_le _ _ hone] at hzero
  exact (Nat.and_sub_one_eq_zero_iff_isPowerOfTwo hne).1 hand

theorem RegionValid.dvd_alignment {k : ℕ}
    (h : RegionValid region base arenaBytes expectedStride (2 ^ k)) :
    2 ^ k ∣ region.alignment.toNat := by
  obtain ⟨m, hm⟩ := h.alignment_eq_two_pow
  rw [hm]
  refine Nat.pow_dvd_pow 2 ((Nat.pow_le_pow_iff_right Nat.one_lt_two).1 ?_)
  exact hm ▸ h.minimum

theorem RegionValid.regionBase
    (h : RegionValid region arena.base arenaBytes expectedStride minimumAlignment) :
    regionBase arena region = .ok (arena.base + region.offset.toNat) :=
  addWords_eq_ok.2 ⟨h.address_fits, rfl⟩

theorem RegionValid.holds
    (h : RegionValid region arena.base arena.bytes.length expectedStride minimumAlignment) :
    arena.Holds (arena.base + region.offset.toNat) region.length.toNat :=
  ⟨Nat.le_add_right _ _, by have := h.fits; omega⟩

def tableRow (layout : RowLayout ρ) (arena : Block) (region : Region) (index : ℕ) : ρ :=
  layout.decode (arena.slice (arena.base + region.offset.toNat + index * layout.size) layout.size)

section

variable (height : layout.alignment = 2 ^ 3)
  (h : RegionValid region arena.base arena.bytes.length layout.size layout.alignment)
include h

theorem RegionValid.length_eq : region.length.toNat = rowCount layout region * layout.size := by
  have hstride := h.stride
  rw [if_neg layout.size_pos.ne'] at hstride
  exact (Nat.div_mul_cancel (Nat.dvd_of_mod_eq_zero hstride.2)).symm

theorem RegionValid.rowCount_le : rowCount layout region ≤ region.length.toNat := by
  rw [h.length_eq]
  exact Nat.le_mul_of_pos_right _ layout.size_pos

theorem RegionValid.rowCount_lt : rowCount layout region < wordLimit := by
  have hle := h.rowCount_le
  have hlength : region.length.toNat < 2 ^ 64 := region.length.toNat_lt
  rw [wordLimit]
  omega

include height

theorem RegionValid.table :
    arena.Table layout (arena.base + region.offset.toNat) (rowCount layout region) := by
  refine ⟨h.length_eq ▸ h.holds, ?_⟩
  rw [height] at h ⊢
  exact Nat.mod_eq_zero_of_dvd (h.dvd_alignment.trans (Nat.dvd_of_mod_eq_zero h.aligned))

theorem RegionValid.entry {index : ℕ} (hindex : index < rowCount layout region) :
    (arena.entry layout (arena.base + region.offset.toNat) index : Except Stop ρ) =
      .ok (tableRow layout arena region index) :=
  (h.table height).entry hindex

end

section

variable {check : ρ → Except Stop Unit} {order : ρ → ρ → Ordering}
  (height : layout.alignment = 2 ^ 3)
  (h : RegionValid region arena.base arena.bytes.length layout.size layout.alignment)
include height h

theorem validateRow_of_lt {index : ℕ} (hindex : index < rowCount layout region) :
    validateRow layout check order arena (arena.base + region.offset.toNat) index = (do
      check (tableRow layout arena region index)
      if index = 0 then return () else
        validateOrder (order (tableRow layout arena region (index - 1))
          (tableRow layout arena region index))) := by
  rw [validateRow, h.entry height hindex, ok_bind]
  by_cases hzero : index = 0
  · rw [if_pos hzero, if_pos hzero]
  · have hbefore : (subWords index 1 : Except Stop ℕ) = .ok (index - 1) :=
      subWords_eq_ok.2 ⟨Nat.one_le_iff_ne_zero.2 hzero, rfl⟩
    rw [if_neg hzero, if_neg hzero, hbefore, ok_bind, h.entry height (by omega), ok_bind]

theorem validateRows_eq_ok : validateRows layout check order region arena = .ok () ↔
      ∀ index < rowCount layout region, check (tableRow layout arena region index) = .ok () ∧
        (index ≠ 0 → order (tableRow layout arena region (index - 1))
          (tableRow layout arena region index) = .lt) := by
  have hfits : 0 + rowCount layout region < wordLimit := by
    rw [Nat.zero_add]
    exact h.rowCount_lt
  have horder : ∀ o : Ordering, validateOrder o = .ok () ↔ o = .lt := by
    intro o
    cases o <;> decide
  rw [validateRows, h.regionBase, ok_bind, forBelow_eq_ok hfits]
  constructor
  · intro hrows index hindex
    have hrow := hrows index (Nat.zero_le _) (by omega)
    rw [validateRow_of_lt height h hindex, then_eq_ok] at hrow
    refine ⟨hrow.1, fun hne => (horder _).1 ?_⟩
    have hlast := hrow.2
    rwa [if_neg hne] at hlast
  · intro hrows index _ hindex
    have hlt : index < rowCount layout region := by omega
    rw [validateRow_of_lt height h hlt, then_eq_ok]
    refine ⟨(hrows index hlt).1, ?_⟩
    split
    · rfl
    · exact (horder _).2 ((hrows index hlt).2 ‹_›)

theorem noFault_validateRows (hcheck : ∀ row, NoFault (check row)) :
    NoFault (validateRows layout check order region arena) := by
  rw [validateRows, h.regionBase, ok_bind]
  refine noFault_forBelow (by rw [Nat.zero_add]; exact h.rowCount_lt) ?_
  intro index _ hindex
  rw [validateRow_of_lt height h (by omega)]
  refine (hcheck _).bind fun _ _ => ?_
  split
  · exact noFault_ok _
  · exact noFault_require.bind fun _ _ => noFault_require

end

theorem noFault_checkSymbol {metadataLength : ℕ} (entry : SymbolEntry) :
    NoFault (checkSymbol metadataLength entry) := by
  refine noFault_require.bind fun _ _ => noFault_require.bind fun _ hoffset => ?_
  rw [guardElse_eq_ok] at hoffset
  have hroom : (subWords metadataLength entry.byteOffset.toNat : Except Stop ℕ) =
      .ok (metadataLength - entry.byteOffset.toNat) := subWords_eq_ok.2 ⟨hoffset, rfl⟩
  exact (noFault_of_ok hroom).bind fun _ _ => noFault_require

theorem checkSymbol_eq_ok {metadataLength : ℕ} {entry : SymbolEntry} :
    checkSymbol metadataLength entry = .ok () ↔
      entry.flags = 0 ∧ entry.byteOffset.toNat + entry.byteLength.toNat ≤ metadataLength := by
  simp only [checkSymbol, bind_eq_ok, guardElse_eq_ok, subWords_eq_ok, exists_const]
  constructor
  · rintro ⟨hflags, hoffset, room, ⟨-, rfl⟩, hlength⟩
    exact ⟨hflags, by omega⟩
  · rintro ⟨hflags, hfits⟩
    exact ⟨hflags, by omega, _, ⟨by omega, rfl⟩, by omega⟩

/-- What `poo_flow_bundle_v1_validate` has checked of the regions. -/
structure RegionsValid (descriptor : Descriptor) (arena : Block) : Prop where
  symbols : RegionValid descriptor.symbols arena.base arena.bytes.length 32 8
  components : RegionValid descriptor.components arena.base arena.bytes.length 200 8
  edges : RegionValid descriptor.edges arena.base arena.bytes.length 80 8
  evidenceObligations :
    RegionValid descriptor.evidenceObligations arena.base arena.bytes.length 96 8
  metadataBytes : RegionValid descriptor.metadataBytes arena.base arena.bytes.length 0 1

variable {descriptor : Descriptor}

theorem validate_eq_ok : validate (some descriptor) (some arena) arena.size = .ok () ↔
      validateHeader descriptor arena.size = .ok () ∧ RegionsValid descriptor arena ∧
      validateSymbols descriptor arena = .ok () ∧ validateComponents descriptor arena = .ok () ∧
      validateEdges descriptor arena = .ok () ∧ validateEvidence descriptor arena = .ok () := by
  simp only [validate, presentElse, ok_bind, then_eq_ok, validateRowRegion, validateRegion_eq_ok,
    Block.toNat_size]
  constructor
  · rintro ⟨hheader, hsymbols, hcomponents, hedges, hevidence, hmetadata, hrows⟩
    exact ⟨hheader, ⟨hsymbols, hcomponents, hedges, hevidence, hmetadata⟩, hrows⟩
  · rintro ⟨hheader, h, hrows⟩
    exact ⟨hheader, h.symbols, h.components, h.edges, h.evidenceObligations, h.metadataBytes, hrows⟩

theorem noFault_validateDigest : NoFault (validateDigest descriptor) := by
  rw [validateDigest]
  exact noFault_require

theorem noFault_validateHeader {arenaBytes : UInt64} :
    NoFault (validateHeader descriptor arenaBytes) := by
  rw [validateHeader]
  refine noFault_require.bind fun _ _ => ?_
  refine noFault_require.bind fun _ _ => ?_
  exact noFault_require.bind fun _ _ => noFault_validateDigest

theorem search_eq_ok {order : ℕ → Except Stop Ordering} {f : ℕ → Ordering} {count : ℕ}
    (horder : ∀ index < count, order index = .ok (f index)) (hcount : count < wordLimit)
    (rounds low high : ℕ) (hle : low ≤ high) (hhigh : high ≤ count)
    (hrounds : high - low ≤ rounds) :
    ∃ found, search order rounds low high = .ok found ∧ low ≤ found ∧ found ≤ high ∧
      (found = low ∨ f (found - 1) = .lt) ∧ (found = high ∨ f found ≠ .lt) := by
  induction rounds generalizing low high with
  | zero =>
    have heq : low = high := by omega
    exact ⟨low, rfl, le_rfl, hle, .inl rfl, .inl heq⟩
  | succ rounds ih =>
    rw [search]
    by_cases hlt : low < high
    · have hwidth : (subWords high low : Except Stop ℕ) = .ok (high - low) :=
        subWords_eq_ok.2 ⟨hle, rfl⟩
      have hmiddle : (addWords low ((high - low) / 2) : Except Stop ℕ) =
          .ok (low + (high - low) / 2) := addWords_eq_ok.2 ⟨by omega, rfl⟩
      rw [if_pos hlt, hwidth, ok_bind, hmiddle, ok_bind, horder _ (by omega), ok_bind]
      generalize hm : low + (high - low) / 2 = middle at *
      have hbelow : low ≤ middle ∧ middle < high := by omega
      by_cases hless : f middle = .lt
      · have hnext : (addWords middle 1 : Except Stop ℕ) = .ok (middle + 1) :=
          addWords_eq_ok.2 ⟨by omega, rfl⟩
        obtain ⟨found, hfound, hfrom, hto, hlast, hstop⟩ :=
          ih (middle + 1) high (by omega) hhigh (by omega)
        rw [hless]
        dsimp only
        rw [hnext, ok_bind]
        refine ⟨found, hfound, by omega, hto, ?_, hstop⟩
        rcases hlast with rfl | hlast
        · exact .inr hless
        · exact .inr hlast
      · obtain ⟨found, hfound, hfrom, hto, hlast, hstop⟩ :=
          ih low middle hbelow.1 (by omega) (by omega)
        have hturn : found = high ∨ f found ≠ .lt := by
          rcases hstop with rfl | hstop
          · exact .inr hless
          · exact .inr hstop
        cases hf : f middle with
        | lt => exact absurd hf hless
        | eq => exact ⟨found, hfound, hfrom, by omega, hlast, hturn⟩
        | gt => exact ⟨found, hfound, hfrom, by omega, hlast, hturn⟩
    · rw [if_neg hlt]
      exact ⟨low, rfl, le_rfl, hle, .inl rfl, .inl (by omega)⟩

section

variable {descriptor : Descriptor} (hbytes : descriptor.arenaBytes = arena.size)
  (h : RegionValid descriptor.components arena.base arena.bytes.length 200 8)
include hbytes h

theorem findComponent_valid (caseId componentId : CompactId) :
    ∃ found, found ≤ rowCount componentLayout descriptor.components ∧
      (found = 0 ∨ componentKeyCompare
        (tableRow componentLayout arena descriptor.components (found - 1)) caseId componentId =
          .lt) ∧
      (found = rowCount componentLayout descriptor.components ∨ componentKeyCompare
        (tableRow componentLayout arena descriptor.components found) caseId componentId ≠ .lt) ∧
      findComponent (some descriptor) (some arena) caseId componentId =
        if found < rowCount componentLayout descriptor.components ∧ componentKeyCompare
            (tableRow componentLayout arena descriptor.components found) caseId componentId = .eq
        then .ok (arena.base + descriptor.components.offset.toNat + found * 200)
        else .error (.status .notFound) := by
  have hfits := h.fits
  have hstride : descriptor.components.stride.toNat = componentLayout.size ∧
      descriptor.components.length.toNat % componentLayout.size = 0 := h.stride
  have hroom : (subWords descriptor.arenaBytes.toNat descriptor.components.offset.toNat :
      Except Stop ℕ) = .ok (arena.bytes.length - descriptor.components.offset.toNat) := by
    rw [hbytes, Block.toNat_size]
    exact subWords_eq_ok.2 ⟨by omega, rfl⟩
  have hentry : ∀ index < rowCount componentLayout descriptor.components,
      (do let entry ← arena.entry componentLayout
              (arena.base + descriptor.components.offset.toNat) index
          return componentKeyCompare entry caseId componentId : Except Stop Ordering) =
        .ok (componentKeyCompare (tableRow componentLayout arena descriptor.components index)
          caseId componentId) := by
    intro index hindex
    rw [h.entry rfl hindex, ok_bind]
    rfl
  obtain ⟨found, hfound, -, hto, hlast, hstop⟩ := search_eq_ok hentry h.rowCount_lt
    (rowCount componentLayout descriptor.components) 0 _ (Nat.zero_le _) le_rfl (Nat.sub_le _ _)
  refine ⟨found, hto, hlast, hstop, ?_⟩
  simp only [findComponent, presentElse, ok_bind]
  rw [guardElse_of hstride, ok_bind,
    guardElse_of (by rw [hbytes, Block.toNat_size]; omega), ok_bind, hroom, ok_bind,
    guardElse_of (by omega), ok_bind, h.regionBase, ok_bind, hfound, ok_bind]
  by_cases hlt : found < rowCount componentLayout descriptor.components
  · rw [guardElse_of hlt, ok_bind, h.entry rfl hlt, ok_bind]
    by_cases heq : componentKeyCompare
        (tableRow componentLayout arena descriptor.components found) caseId componentId = .eq
    · rw [guardElse_of heq, ok_bind, if_pos ⟨hlt, heq⟩]
      exact (h.table rfl).address hlt.le
    · rw [guardElse, if_neg heq, if_neg fun h => heq h.2]
      rfl
  · rw [guardElse, if_neg hlt, if_neg fun h => hlt h.1]
    rfl

end

/-- Where the text of a symbol begins: `metadata_bytes.data + byte_offset`. -/
def symbolText (descriptor : Descriptor) (arena : Block) (entry : SymbolEntry) : Except Stop ℕ := do
  let metadata ← regionBase arena descriptor.metadataBytes
  addWords metadata entry.byteOffset.toNat

def RowsReadable (layout : RowLayout ρ) (arena : Block) (region : Region) : Prop :=
  ∃ entries, regionBase arena region = .ok entries ∧
    region.length.toNat = rowCount layout region * layout.size ∧
    ∀ index < rowCount layout region, ∃ address,
      (layout.address entries index : Except Stop ℕ) = .ok address ∧
      arena.Holds address layout.size ∧ address % layout.alignment = 0 ∧
      (arena.entry layout entries index : Except Stop ρ) =
        .ok (layout.decode (arena.slice address layout.size))

theorem RegionValid.rowsReadable (height : layout.alignment = 2 ^ 3)
    (h : RegionValid region arena.base arena.bytes.length layout.size layout.alignment) :
    RowsReadable layout arena region := by
  have htable := h.table height
  refine ⟨_, h.regionBase, h.length_eq, fun index hindex => ?_⟩
  exact ⟨_, htable.address hindex.le, htable.holds_row hindex, htable.aligned_row,
    htable.entry hindex⟩

theorem RegionsValid.of_kind {descriptor : Descriptor} (h : RegionsValid descriptor arena)
    {kind : UInt32} (hkind : descriptorRegion descriptor kind = some region) :
    ∃ expectedStride minimumAlignment,
      RegionValid region arena.base arena.bytes.length expectedStride minimumAlignment := by
  unfold descriptorRegion at hkind
  split at hkind
  · exact ⟨_, _, some.inj hkind ▸ h.symbols⟩
  split at hkind
  · exact ⟨_, _, some.inj hkind ▸ h.components⟩
  split at hkind
  · exact ⟨_, _, some.inj hkind ▸ h.edges⟩
  split at hkind
  · exact ⟨_, _, some.inj hkind ▸ h.evidenceObligations⟩
  split at hkind
  · exact ⟨_, _, some.inj hkind ▸ h.metadataBytes⟩
  · cases hkind

theorem RegionValid.alignment_pos {base arenaBytes expectedStride minimumAlignment : ℕ}
    (h : RegionValid region base arenaBytes expectedStride minimumAlignment) :
    0 < region.alignment.toNat := by
  have hpower := h.powerOfTwo
  simp only [isPowerOfTwo, decide_eq_true_eq] at hpower
  exact Nat.pos_of_ne_zero fun hzero => hpower.1 (UInt32.toNat_inj.1 hzero)

theorem arenaBytes_of_validateHeader {descriptor : Descriptor} {arenaBytes : UInt64}
    (h : validateHeader descriptor arenaBytes = .ok ()) : descriptor.arenaBytes = arenaBytes := by
  simp only [validateHeader, then_eq_ok, guardElse_eq_ok] at h
  exact h.2.1.2.2

/-- **What validation accepts is read safely**: the five slices, the rows of the
four tables, the texts of the symbols and the rows that a lookup reads lie
inside the arena and are aligned, and no computation of an address wraps. -/
theorem validated_reads_safe (descriptor : Descriptor) (arena : Block)
    (h : validate (some descriptor) (some arena) arena.size = .ok ()) :
    (∀ kind region, descriptorRegion descriptor kind = some region →
      ∃ address, arenaSlice (some ⟨descriptor, arena.size, arena⟩) kind =
          .ok ⟨address, region.length, region.stride, region.alignment⟩ ∧
        arena.Holds address region.length.toNat ∧
        0 < region.alignment.toNat ∧ address % region.alignment.toNat = 0) ∧
    (RowsReadable symbolLayout arena descriptor.symbols ∧
      RowsReadable componentLayout arena descriptor.components ∧
      RowsReadable edgeLayout arena descriptor.edges ∧
      RowsReadable evidenceLayout arena descriptor.evidenceObligations) ∧
    (∀ entries index entry, regionBase arena descriptor.symbols = .ok entries →
      index < rowCount symbolLayout descriptor.symbols →
      (arena.entry symbolLayout entries index : Except Stop _) = .ok entry →
      ∃ metadata address, regionBase arena descriptor.metadataBytes = .ok metadata ∧
        symbolText descriptor arena entry = .ok address ∧ metadata ≤ address ∧
        address + entry.byteLength.toNat ≤ metadata + descriptor.metadataBytes.length.toNat ∧
        arena.Holds address entry.byteLength.toNat) ∧
    ∀ caseId componentId,
      NoFault (findComponent (some descriptor) (some arena) caseId componentId) ∧
      NoFault (arenaFindComponent (some ⟨descriptor, arena.size, arena⟩) caseId componentId) ∧
      ∀ address, findComponent (some descriptor) (some arena) caseId componentId = .ok address →
        arena.Holds address componentLayout.size ∧ address % componentLayout.alignment = 0 := by
  obtain ⟨hheader, hregions, hsymbols, -, -, -⟩ := validate_eq_ok.1 h
  have hbytes := arenaBytes_of_validateHeader hheader
  have hlookup : ∀ caseId componentId,
      NoFault (findComponent (some descriptor) (some arena) caseId componentId) := by
    intro caseId componentId
    obtain ⟨found, -, -, -, hfound⟩ :=
      findComponent_valid hbytes hregions.components caseId componentId
    rw [hfound]
    split
    · exact noFault_ok _
    · exact noFault_error (status_ne_fault _)
  refine ⟨?_, ⟨hregions.symbols.rowsReadable rfl, hregions.components.rowsReadable rfl,
    hregions.edges.rowsReadable rfl, hregions.evidenceObligations.rowsReadable rfl⟩, ?_, ?_⟩
  · intro kind region hkind
    obtain ⟨stride, minimum, hregion⟩ := hregions.of_kind hkind
    refine ⟨_, ?_, hregion.holds, hregion.alignment_pos, hregion.aligned⟩
    simp only [arenaSlice, presentElse, ok_bind, hkind, hregion.regionBase]
    rfl
  · intro entries index entry hentries hindex hentry
    rw [hregions.symbols.regionBase] at hentries
    obtain rfl := Except.ok.inj hentries
    rw [hregions.symbols.entry rfl hindex] at hentry
    obtain rfl := Except.ok.inj hentry
    have hchecked :=
      ((validateRows_eq_ok rfl hregions.symbols).1 hsymbols index hindex).1
    -- validation checked the text of every symbol against the metadata region
    have htext := (checkSymbol_eq_ok.1 hchecked).2
    have hmetadata := hregions.metadataBytes.fits
    have hfits := arena.fits
    have haddress : symbolText descriptor arena
        (tableRow symbolLayout arena descriptor.symbols index) =
          .ok (arena.base + descriptor.metadataBytes.offset.toNat +
            (tableRow symbolLayout arena descriptor.symbols index).byteOffset.toNat) := by
      rw [symbolText, hregions.metadataBytes.regionBase, ok_bind]
      exact addWords_eq_ok.2 ⟨by omega, rfl⟩
    refine ⟨_, _, hregions.metadataBytes.regionBase, haddress, Nat.le_add_right _ _, ?_, ?_⟩
    · omega
    · exact ⟨by omega, by omega⟩
  · intro caseId componentId
    refine ⟨hlookup caseId componentId, hlookup caseId componentId, fun address haddress => ?_⟩
    obtain ⟨found, -, -, -, hfound⟩ :=
      findComponent_valid hbytes hregions.components caseId componentId
    rw [hfound] at haddress
    split at haddress
    · next hrow =>
      obtain rfl := Except.ok.inj haddress
      have htable : arena.Table componentLayout _ _ := hregions.components.table rfl
      exact ⟨htable.holds_row hrow.1, htable.aligned_row⟩
    · cases haddress

def greetingArena : Block where
  base := 4096
  bytes := littleEndian 8 0 ++ littleEndian 8 1 ++ littleEndian 8 0 ++ littleEndian 4 2 ++
    littleEndian 2 1 ++ littleEndian 2 0 ++ List.replicate 184 0 ++ littleEndian 4 1 ++
    List.replicate 12 0 ++ [104, 105] ++ List.replicate 22 0
  pos := by decide
  fits := by decide +kernel

def greetingDescriptor : Descriptor where
  structSize := 256
  flags := 3
  schemaMajor := 1
  schemaMinor := 0
  reserved0 := 0
  bundleId := ⟨0, 7⟩
  digest := .replicate 32 1
  bundleEpoch := 1
  arenaBytes := 256
  symbols := ⟨0, 32, 32, 8⟩
  components := ⟨32, 200, 200, 8⟩
  edges := ⟨232, 0, 80, 8⟩
  evidenceObligations := ⟨232, 0, 96, 8⟩
  metadataBytes := ⟨232, 2, 1, 1⟩
  reserved := .replicate 7 0

theorem validate_greeting :
    validate (some greetingDescriptor) (some greetingArena) greetingArena.size = .ok () := by
  decide +kernel

theorem greeting_reads_safe :
    validate (some greetingDescriptor) (some greetingArena) greetingArena.size = .ok () ∧
    RowsReadable componentLayout greetingArena greetingDescriptor.components ∧
    NoFault (findComponent (some greetingDescriptor) (some greetingArena) ⟨0, 0⟩ ⟨0, 1⟩) :=
  have h := validated_reads_safe greetingDescriptor greetingArena validate_greeting
  ⟨validate_greeting, h.2.1.2.1, (h.2.2.2 _ _).1⟩

/-- **Validation reads safely**, whatever descriptor and bytes it is given. -/
theorem noFault_validate (descriptor : Option Descriptor) (arena : Option Block)
    (arenaBytes : UInt64) (harena : ∀ block ∈ arena, block.size = arenaBytes) :
    NoFault (validate descriptor arena arenaBytes) := by
  cases descriptor with
  | none => exact noFault_error (status_ne_fault _)
  | some descriptor =>
  cases arena with
  | none => exact noFault_error (status_ne_fault _)
  | some block =>
    obtain rfl := harena block rfl
    have hfits := block.fits
    simp only [validate, presentElse, ok_bind, validateRowRegion, Block.toNat_size]
    refine noFault_validateHeader.bind fun _ _ =>
      (noFault_validateRegion hfits).bind fun _ hsymbols =>
      (noFault_validateRegion hfits).bind fun _ hcomponents =>
      (noFault_validateRegion hfits).bind fun _ hedges =>
      (noFault_validateRegion hfits).bind fun _ hevidence =>
      (noFault_validateRegion hfits).bind fun _ _ => ?_
    rw [validateRegion_eq_ok] at hsymbols hcomponents hedges hevidence
    exact (noFault_validateRows rfl hsymbols noFault_checkSymbol).bind fun _ _ =>
      (noFault_validateRows rfl hcomponents fun _ => noFault_require).bind fun _ _ =>
      (noFault_validateRows rfl hedges fun _ => noFault_require).bind fun _ _ =>
      noFault_validateRows rfl hevidence fun _ => noFault_require

/-- The rows of another table, read as symbols: two of them have one key. -/
def hostileDescriptor : Descriptor := { greetingDescriptor with symbols := ⟨32, 192, 32, 8⟩ }

theorem noFault_validate_greeting :
    validate (some hostileDescriptor) (some greetingArena) greetingArena.size =
        .error (.status .duplicateKey) ∧
      NoFault (validate (some hostileDescriptor) (some greetingArena) greetingArena.size) :=
  ⟨by decide +kernel, noFault_validate _ _ _ (by rintro _ ⟨⟩; rfl)⟩

end PooFlow.Bundle
