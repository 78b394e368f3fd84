import PooFlow.Bundle.Safety

/-! `poo_flow_bundle_v1_arena_create` validates the copy where it was placed: the regions have their
alignments, the place has its own. -/

namespace PooFlow.Bundle

open Foundation

theorem and_not_low (value : ℕ) (hvalue : value < 2 ^ 64) :
    (UInt64.ofNat value &&& ~~~(UInt64.ofNat 63)).toNat = value / 64 * 64 := by
  have hmask : (~~~(UInt64.ofNat 63)).toNat = (2 ^ 58 - 1) * 2 ^ 6 := by decide
  have hword : (UInt64.ofNat value).toNat = value := by
    rw [UInt64.toNat_ofNat']
    exact Nat.mod_eq_of_lt hvalue
  rw [UInt64.toNat_and, hmask, hword, show (64 : ℕ) = 2 ^ 6 from rfl]
  refine Nat.eq_of_testBit_eq fun i => ?_
  rw [Nat.testBit_and, Nat.testBit_mul_two_pow, Nat.testBit_mul_two_pow, Nat.testBit_div_two_pow,
    Nat.testBit_two_pow_sub_one]
  by_cases hi : 6 ≤ i
  · rw [Nat.sub_add_cancel hi]
    by_cases hlt : i < 64
    · simp [hi, show i - 6 < 58 by omega]
    · have hzero : value.testBit i = false :=
        Nat.testBit_lt_two_pow (hvalue.trans_le (Nat.pow_le_pow_right (by decide) (not_lt.1 hlt)))
      simp [hzero]
  · simp [hi]

theorem allocationBytes_eq_ok {arenaBytes : UInt64} {size : ℕ}
    (h : allocationBytes arenaBytes = .ok size) :
    arenaBytes.toNat + 63 < wordLimit ∧ arenaBytes.toNat ≤ size := by
  rw [allocationBytes, show recommendedArenaAlignment - 1 = 63 from rfl] at h
  obtain ⟨padded, hpadded, h⟩ := bind_eq_ok.1 h
  obtain ⟨hfits, rfl⟩ := addWords_eq_ok.1 hpadded
  have hsize := Except.ok.inj h
  rw [and_not_low _ hfits] at hsize
  refine ⟨hfits, ?_⟩
  split_ifs at hsize <;> omega

theorem read_all (arena : Block) :
    (arena.read arena.base arena.size.toNat 1 : Except Stop _) = .ok arena.bytes := by
  refine Block.read_eq_ok.2 ⟨⟨le_rfl, by rw [arena.toNat_size]⟩, Nat.mod_one _, ?_⟩
  rw [Block.slice, Nat.sub_self, List.drop_zero, arena.toNat_size, List.take_length]

section

variable {descriptor : Descriptor} {arena copy : Block}

def PlacedFor (descriptor : Descriptor) (address : ℕ) : Prop :=
  ∀ kind region, descriptorRegion descriptor kind = some region →
    address % region.alignment.toNat = 0

variable {address : ℕ} {region : Region} {ρ : Type}

theorem placedFor_iff : PlacedFor descriptor address ↔
    address % descriptor.symbols.alignment.toNat = 0 ∧
    address % descriptor.components.alignment.toNat = 0 ∧
    address % descriptor.edges.alignment.toNat = 0 ∧
    address % descriptor.evidenceObligations.alignment.toNat = 0 ∧
    address % descriptor.metadataBytes.alignment.toNat = 0 := by
  constructor
  · exact fun h => ⟨h 1 _ rfl, h 2 _ rfl, h 3 _ rfl, h 4 _ rfl, h 5 _ rfl⟩
  · rintro ⟨hsymbols, hcomponents, hedges, hevidence, hmetadata⟩ kind region hregion
    unfold descriptorRegion at hregion
    split_ifs at hregion <;> obtain rfl := Option.some.inj hregion <;> assumption

theorem RegionValid.validateRegion_at {base base' arenaBytes expectedStride minimumAlignment : ℕ}
    (h : RegionValid region base arenaBytes expectedStride minimumAlignment)
    (hfits : base' + arenaBytes < wordLimit) :
    validateRegion region base' arenaBytes expectedStride minimumAlignment =
      guardElse (base' % region.alignment.toNat = 0) (.status .regionLayout) := by
  have hbounds := h.fits
  have haligned : (base' + region.offset.toNat) % region.alignment.toNat =
      base' % region.alignment.toNat := by
    rw [Nat.add_mod, h.offset_aligned, Nat.add_zero, Nat.mod_mod]
  by_cases hbase : base' % region.alignment.toNat = 0
  · rw [guardElse_of hbase]
    exact validateRegion_eq_ok.2 ⟨h.fits, h.powerOfTwo, h.minimum, h.offset_aligned, by omega,
      haligned.trans hbase, h.stride⟩
  · have hroom : (subWords arenaBytes region.offset.toNat : Except Stop ℕ) =
        .ok (arenaBytes - region.offset.toNat) := subWords_eq_ok.2 ⟨by omega, rfl⟩
    have haddress : (addWords base' region.offset.toNat : Except Stop ℕ) =
        .ok (base' + region.offset.toNat) := addWords_eq_ok.2 ⟨by omega, rfl⟩
    rw [validateRegion, guardElse_of (by omega), ok_bind, hroom, ok_bind, guardElse_of (by omega),
      ok_bind, guardElse_of h.powerOfTwo, ok_bind, guardElse_of h.minimum, ok_bind,
      guardElse_of h.offset_aligned, ok_bind, haddress, ok_bind, haligned, guardElse, if_neg hbase]
    rfl

theorem tableRow_copy (layout : RowLayout ρ) (region : Region) (hbytes : copy.bytes = arena.bytes)
    (index : ℕ) : tableRow layout copy region index = tableRow layout arena region index := by
  have hoffset : ∀ block : Block, block.base + region.offset.toNat + index * layout.size -
      block.base = region.offset.toNat + index * layout.size := fun block => by omega
  rw [tableRow, tableRow, Block.slice, Block.slice, hoffset, hoffset, hbytes]

theorem validateRows_copy {layout : RowLayout ρ} {check : ρ → Except Stop Unit}
    {order : ρ → ρ → Ordering} (height : layout.alignment = 2 ^ 3)
    (hbytes : copy.bytes = arena.bytes)
    (h : RegionValid region arena.base arena.bytes.length layout.size layout.alignment)
    (h' : RegionValid region copy.base copy.bytes.length layout.size layout.alignment)
    (hrows : validateRows layout check order region arena = .ok ()) :
    validateRows layout check order region copy = .ok () := by
  rw [validateRows_eq_ok height h'] at ⊢
  rw [validateRows_eq_ok height h] at hrows
  simpa only [tableRow_copy layout region hbytes] using hrows

section

variable (hbytes : copy.bytes = arena.bytes)
  (h : validate (some descriptor) (some arena) arena.size = .ok ())

include hbytes h

theorem validate_placed (hplaced : PlacedFor descriptor copy.base) :
    validate (some descriptor) (some copy) arena.size = .ok () := by
  obtain ⟨hheader, hregions, hsymbols, hcomponents, hedges, hevidence⟩ := validate_eq_ok.1 h
  have hsize : copy.size = arena.size := by rw [Block.size, Block.size, hbytes]
  have hfits : copy.base + arena.bytes.length < wordLimit := hbytes ▸ copy.fits
  obtain ⟨hs, hc, he, ho, hm⟩ := placedFor_iff.1 hplaced
  have hvalid : ∀ {region : Region} {stride minimum : ℕ},
      RegionValid region arena.base arena.bytes.length stride minimum →
        copy.base % region.alignment.toNat = 0 →
          RegionValid region copy.base copy.bytes.length stride minimum := by
    intro region stride minimum hregion haligned
    rw [hbytes, ← validateRegion_eq_ok, hregion.validateRegion_at hfits]
    exact guardElse_of haligned
  have hregions' : RegionsValid descriptor copy :=
    ⟨hvalid hregions.symbols hs, hvalid hregions.components hc, hvalid hregions.edges he,
      hvalid hregions.evidenceObligations ho, hvalid hregions.metadataBytes hm⟩
  rw [← hsize]
  exact validate_eq_ok.2 ⟨hsize ▸ hheader, hregions',
    validateRows_copy rfl hbytes hregions.symbols hregions'.symbols hsymbols,
    validateRows_copy rfl hbytes hregions.components hregions'.components hcomponents,
    validateRows_copy rfl hbytes hregions.edges hregions'.edges hedges,
    validateRows_copy rfl hbytes hregions.evidenceObligations hregions'.evidenceObligations
      hevidence⟩

theorem validate_misplaced (hplaced : ¬PlacedFor descriptor copy.base) :
    validate (some descriptor) (some copy) arena.size = .error (.status .regionLayout) := by
  obtain ⟨hheader, hregions, -⟩ := validate_eq_ok.1 h
  have hfits : copy.base + arena.bytes.length < wordLimit := hbytes ▸ copy.fits
  have hguard : ∀ {p : Prop} [Decidable p] {rest : Except Stop Unit}, ¬p →
      ((guardElse p (Stop.status .regionLayout) : Except Stop Unit) >>= fun _ => rest) =
        .error (.status .regionLayout) := by
    intro p _ rest hp
    rw [guardElse, if_neg hp]
    rfl
  have hat : ∀ {ρ : Type} (layout : RowLayout ρ) {region : Region},
      RegionValid region arena.base arena.bytes.length layout.size layout.alignment →
        validateRegion region copy.base arena.bytes.length layout.size layout.alignment =
          guardElse (copy.base % region.alignment.toNat = 0) (.status .regionLayout) :=
    fun layout _ hregion => hregion.validateRegion_at hfits
  simp only [validate, presentElse, ok_bind, validateRowRegion, Block.toNat_size, hheader,
    hat symbolLayout hregions.symbols, hat componentLayout hregions.components,
    hat edgeLayout hregions.edges, hat evidenceLayout hregions.evidenceObligations,
    hregions.metadataBytes.validateRegion_at hfits]
  rw [placedFor_iff] at hplaced
  by_cases hs : copy.base % descriptor.symbols.alignment.toNat = 0
  · rw [guardElse_of hs, ok_bind]
    by_cases hc : copy.base % descriptor.components.alignment.toNat = 0
    · rw [guardElse_of hc, ok_bind]
      by_cases he : copy.base % descriptor.edges.alignment.toNat = 0
      · rw [guardElse_of he, ok_bind]
        by_cases ho : copy.base % descriptor.evidenceObligations.alignment.toNat = 0
        · rw [guardElse_of ho, ok_bind]
          exact hguard fun hm => hplaced ⟨hs, hc, he, ho, hm⟩
        · exact hguard ho
      · exact hguard he
    · exact hguard hc
  · exact hguard hs

/-- **What validation says of a copy**: it accepts the copy where the address suits the
regions, and finds a region badly laid out elsewhere. -/
theorem validate_copy : (PlacedFor descriptor copy.base →
      validate (some descriptor) (some copy) arena.size = .ok ()) ∧
    (¬PlacedFor descriptor copy.base →
      validate (some descriptor) (some copy) arena.size = .error (.status .regionLayout)) :=
  ⟨validate_placed hbytes h, validate_misplaced hbytes h⟩

end

theorem placedFor_of_le (haddress : address % recommendedArenaAlignment = 0)
    (hregions : RegionsValid descriptor arena)
    (h : ∀ kind region, descriptorRegion descriptor kind = some region →
      region.alignment.toNat ≤ recommendedArenaAlignment) : PlacedFor descriptor address := by
  intro kind region hkind
  obtain ⟨stride, minimum, hregion⟩ := hregions.of_kind hkind
  obtain ⟨exponent, hexponent⟩ := hregion.alignment_eq_two_pow
  have hle := h kind region hkind
  rw [hexponent, show recommendedArenaAlignment = 2 ^ 6 from rfl,
    Nat.pow_le_pow_iff_right Nat.one_lt_two] at hle
  rw [hexponent]
  exact Nat.mod_eq_zero_of_dvd ((Nat.pow_dvd_pow 2 hle).trans (Nat.dvd_of_mod_eq_zero haddress))

theorem arenaCreate_eq (h : validate (some descriptor) (some arena) arena.size = .ok ())
    {size : ℕ} (hsize : allocationBytes arena.size = .ok size)
    {alignedAlloc : (size : ℕ) → Option (Allocation size)} {allocation : Allocation size}
    (halloc : alignedAlloc size = some allocation) :
    ∃ data : Block, data.base = allocation.base ∧ data.bytes = arena.bytes ∧
      arenaCreate true alignedAlloc (some descriptor) (some arena) arena.size =
        (validate (some descriptor) (some data) arena.size).map fun _ =>
          ⟨descriptor, arena.size, data⟩ := by
  obtain ⟨hroom, hle⟩ := allocationBytes_eq_ok hsize
  rw [arena.toNat_size] at hle
  have hlimit : arena.size.toNat ≤ wordLimit - 1 - (recommendedArenaAlignment - 1) := by
    rw [show recommendedArenaAlignment - 1 = 63 from rfl]
    omega
  have hfits : allocation.base + arena.bytes.length < wordLimit :=
    Nat.lt_of_le_of_lt (Nat.add_le_add_left hle _) allocation.fits
  have hcopy : copyInto allocation arena.bytes =
      .ok ⟨allocation.base, arena.bytes, allocation.pos, hfits⟩ := dif_pos hle
  refine ⟨⟨allocation.base, arena.bytes, allocation.pos, hfits⟩, rfl, rfl, ?_⟩
  simp only [arenaCreate, presentElse, ok_bind, guardElse_of hlimit, h, hsize, guardElse_of,
    halloc, read_all arena, hcopy]
  generalize validate (some descriptor) (some _) arena.size = result
  cases result <;> rfl

/-- **Creation is as exact as the copy**: with memory of the requested size, wherever it
lies, creation succeeds when the address suits every region, which is so when none asks
for more than the recommended alignment. Then validation accepts the copy, which has the
same contents; otherwise creation finds a region badly laid out. -/
theorem arenaCreate_exact (descriptor : Descriptor) (arena : Block)
    (h : validate (some descriptor) (some arena) arena.size = .ok ()) {size : ℕ}
    (hsize : allocationBytes arena.size = .ok size)
    (alignedAlloc : (size : ℕ) → Option (Allocation size)) {allocation : Allocation size}
    (halloc : alignedAlloc size = some allocation) : (PlacedFor descriptor allocation.base →
      ∃ data : Block, data.base = allocation.base ∧ data.bytes = arena.bytes ∧
        arenaCreate true alignedAlloc (some descriptor) (some arena) arena.size =
          .ok ⟨descriptor, arena.size, data⟩ ∧
        validate (some descriptor) (some data) arena.size = .ok ()) ∧
    (¬PlacedFor descriptor allocation.base →
      arenaCreate true alignedAlloc (some descriptor) (some arena) arena.size =
        .error (.status .regionLayout)) ∧
    ((∀ kind region, descriptorRegion descriptor kind = some region →
      region.alignment.toNat ≤ recommendedArenaAlignment) →
        PlacedFor descriptor allocation.base) := by
  obtain ⟨data, hbase, hbytes, hcreate⟩ := arenaCreate_eq h hsize halloc
  obtain ⟨haccepted, hrefused⟩ := validate_copy hbytes h
  rw [hbase] at haccepted hrefused
  refine ⟨fun hplaced => ⟨data, hbase, hbytes, ?_, haccepted hplaced⟩, fun hplaced => ?_,
    placedFor_of_le allocation.aligned (validate_eq_ok.1 h).2.1⟩
  · rw [hcreate, haccepted hplaced]
    rfl
  · rw [hcreate, hrefused hplaced]
    rfl

end

def unevenAlloc (size : ℕ) : Option (Allocation size) :=
  if h : 4160 + size < wordLimit then some ⟨4160, by decide, by decide, h⟩ else none

theorem unevenAlloc_greeting : ∃ allocation : Allocation 256, allocation.base = 4160 ∧
    unevenAlloc 256 = some allocation :=
  ⟨_, rfl, dif_pos (by decide)⟩

theorem allocationBytes_greeting : allocationBytes greetingArena.size = .ok 256 := by
  decide +kernel

theorem arenaCreate_exact_greeting : ∃ data : Block, data.base = 4160 ∧
    arenaCreate true unevenAlloc (some greetingDescriptor) (some greetingArena)
      greetingArena.size = .ok ⟨greetingDescriptor, greetingArena.size, data⟩ := by
  obtain ⟨allocation, hbase, halloc⟩ := unevenAlloc_greeting
  have h := arenaCreate_exact greetingDescriptor greetingArena validate_greeting
    allocationBytes_greeting unevenAlloc halloc
  have hplaced : PlacedFor greetingDescriptor allocation.base := by
    rw [hbase, placedFor_iff]
    decide
  obtain ⟨data, hdata, -, hcreate, -⟩ := h.1 hplaced
  exact ⟨data, hdata.trans hbase, hcreate⟩

def wideDescriptor : Descriptor := { greetingDescriptor with metadataBytes := ⟨0, 2, 1, 128⟩ }

theorem validate_wide :
    validate (some wideDescriptor) (some greetingArena) greetingArena.size = .ok () := by
  decide +kernel

/-- What validation accepts at one address need not be accepted at another. -/
theorem arenaCreate_not_total : ¬∀ (descriptor : Descriptor) (arena : Block) (size : ℕ)
    (alignedAlloc : (size : ℕ) → Option (Allocation size)),
      validate (some descriptor) (some arena) arena.size = .ok () →
      allocationBytes arena.size = .ok size → (alignedAlloc size).isSome = true →
        ∃ owned, arenaCreate true alignedAlloc (some descriptor) (some arena) arena.size =
          .ok owned := by
  intro h
  obtain ⟨allocation, hbase, halloc⟩ := unevenAlloc_greeting
  obtain ⟨owned, howned⟩ := h wideDescriptor greetingArena 256 unevenAlloc validate_wide
    allocationBytes_greeting (by rw [halloc]; rfl)
  obtain ⟨data, hdata, hbytes, hcreate⟩ :=
    arenaCreate_eq validate_wide allocationBytes_greeting halloc
  have hplaced : ¬PlacedFor wideDescriptor data.base := by
    rw [hdata, hbase, placedFor_iff]
    decide
  rw [hcreate, (validate_copy hbytes validate_wide).2 hplaced] at howned
  cases howned

end PooFlow.Bundle
