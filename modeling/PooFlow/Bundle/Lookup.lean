import PooFlow.Bundle.Safety

namespace PooFlow.Bundle

open Foundation

theorem digits_lt {base a b c d : ℕ} (hc : c < base) (hab : a < b) :
    a * base + c < b * base + d := by
  have hmul : (a + 1) * base ≤ b * base := Nat.mul_le_mul_right base hab
  rw [Nat.add_mul, Nat.one_mul] at hmul
  omega

theorem compare_digits {base high high' low low' : ℕ} (hlow : low < base) (hlow' : low' < base) :
    (compare high high').then (compare low low') =
      compare (high * base + low) (high' * base + low') := by
  rcases Nat.lt_trichotomy high high' with h | rfl | h
  · rw [Nat.compare_eq_lt.2 h, Nat.compare_eq_lt.2 (digits_lt hlow h)]
    rfl
  · rw [Nat.compare_eq_eq.2 rfl]
    change compare low low' = _
    rcases Nat.lt_trichotomy low low' with h | rfl | h
    · rw [Nat.compare_eq_lt.2 h, Nat.compare_eq_lt.2 (Nat.add_lt_add_left h _)]
    · rw [Nat.compare_eq_eq.2 rfl, Nat.compare_eq_eq.2 rfl]
    · rw [Nat.compare_eq_gt.2 h, Nat.compare_eq_gt.2 (Nat.add_lt_add_left h _)]
  · rw [Nat.compare_eq_gt.2 h, Nat.compare_eq_gt.2 (digits_lt hlow' h)]
    rfl

theorem digits_inj {base high high' low low' : ℕ} (hlow : low < base) (hlow' : low' < base)
    (h : high * base + low = high' * base + low') : high = high' ∧ low = low' := by
  rcases Nat.lt_trichotomy high high' with hlt | rfl | hlt
  · exact absurd h (digits_lt hlow hlt).ne
  · exact ⟨rfl, Nat.add_left_cancel h⟩
  · exact absurd h.symm (digits_lt hlow' hlt).ne

def CompactId.value (id : CompactId) : ℕ := id.high.toNat * wordLimit + id.low.toNat

theorem CompactId.value_lt (id : CompactId) : id.value < wordLimit * wordLimit := by
  have hhigh : (id.high.toNat + 1) * wordLimit ≤ wordLimit * wordLimit :=
    Nat.mul_le_mul_right _ id.high.toNat_lt
  have hlow : id.low.toNat < wordLimit := id.low.toNat_lt
  rw [Nat.add_mul, Nat.one_mul] at hhigh
  rw [CompactId.value]
  omega

theorem CompactId.value_inj {id id' : CompactId} (h : id.value = id'.value) : id = id' := by
  obtain ⟨hhigh, hlow⟩ := digits_inj id.low.toNat_lt id'.low.toNat_lt h
  cases id
  cases id'
  rw [UInt64.toNat_inj] at hhigh hlow
  exact congrArg₂ CompactId.mk hhigh hlow

theorem compactIdCompare_eq (left right : CompactId) :
    compactIdCompare left right = compare left.value right.value := by
  have hwords : ∀ a b : UInt64, compare a.toNat b.toNat =
      if a < b then .lt else if a > b then .gt else .eq := by
    intro a b
    split_ifs with hlt hgt
    · exact Nat.compare_eq_lt.2 (UInt64.lt_iff_toNat_lt.1 hlt)
    · exact Nat.compare_eq_gt.2 (UInt64.lt_iff_toNat_lt.1 hgt)
    · rw [gt_iff_lt, UInt64.lt_iff_toNat_lt] at hgt
      rw [UInt64.lt_iff_toNat_lt] at hlt
      exact Nat.compare_eq_eq.2 (Nat.le_antisymm (not_lt.1 hgt) (not_lt.1 hlt))
  have hdigits : (compare left.high.toNat right.high.toNat).then
      (compare left.low.toNat right.low.toNat) = compare left.value right.value :=
    compare_digits left.low.toNat_lt right.low.toNat_lt
  rw [← hdigits, hwords, hwords, compactIdCompare]
  split_ifs <;> rfl

def componentValue (caseId componentId : CompactId) : ℕ :=
  caseId.value * (wordLimit * wordLimit) + componentId.value

theorem compactIdCompare_then (caseId caseId' componentId componentId' : CompactId) :
    (compactIdCompare caseId caseId').then (compactIdCompare componentId componentId') =
      compare (componentValue caseId componentId) (componentValue caseId' componentId') := by
  rw [compactIdCompare_eq, compactIdCompare_eq]
  exact compare_digits componentId.value_lt componentId'.value_lt

theorem componentValue_inj {caseId caseId' componentId componentId' : CompactId}
    (h : componentValue caseId componentId = componentValue caseId' componentId') :
    caseId = caseId' ∧ componentId = componentId' := by
  obtain ⟨hcase, hcomponent⟩ := digits_inj componentId.value_lt componentId'.value_lt h
  exact ⟨CompactId.value_inj hcase, CompactId.value_inj hcomponent⟩

section

variable {descriptor : Descriptor} {arena : Block}

abbrev componentRow (descriptor : Descriptor) (arena : Block) (index : ℕ) : ComponentEntry :=
  tableRow componentLayout arena descriptor.components index

def rowValue (descriptor : Descriptor) (arena : Block) (index : ℕ) : ℕ :=
  componentValue (componentRow descriptor arena index).caseId
    (componentRow descriptor arena index).componentId

/-- **Validated rows are strictly increasing.** -/
theorem rowValue_lt (h : RegionValid descriptor.components arena.base arena.bytes.length 200 8)
    (hrows : validateComponents descriptor arena = .ok ()) {index later : ℕ}
    (hlt : index < later) (hlater : later < rowCount componentLayout descriptor.components) :
    rowValue descriptor arena index < rowValue descriptor arena later := by
  have hstep : ∀ next < rowCount componentLayout descriptor.components, next ≠ 0 →
      rowValue descriptor arena (next - 1) < rowValue descriptor arena next := by
    intro next hnext hne
    have horder := ((validateRows_eq_ok rfl h).1 hrows next hnext).2 hne
    rw [componentOrder, compactIdCompare_then] at horder
    exact Nat.compare_eq_lt.1 horder
  induction later with
  | zero => exact absurd hlt (Nat.not_lt_zero _)
  | succ later ih =>
    have hlast := hstep (later + 1) hlater (Nat.succ_ne_zero _)
    rcases Nat.lt_succ_iff_lt_or_eq.1 hlt with hbefore | rfl
    · exact (ih hbefore (Nat.lt_of_succ_lt hlater)).trans hlast
    · exact hlast

/-- The rows that a key asks for. -/
structure HasKey (descriptor : Descriptor) (arena : Block) (caseId componentId : CompactId)
    (index : ℕ) : Prop where
  lt : index < rowCount componentLayout descriptor.components
  caseId : (componentRow descriptor arena index).caseId = caseId
  componentId : (componentRow descriptor arena index).componentId = componentId

def componentAddress (descriptor : Descriptor) (arena : Block) (index : ℕ) : ℕ :=
  arena.base + descriptor.components.offset.toNat + index * componentLayout.size

/-- **Lookup is exact**: of a validated bundle, the one row that has the key, or
`NOT_FOUND` when there is none. -/
theorem lookup_exact (descriptor : Descriptor) (arena : Block)
    (h : validate (some descriptor) (some arena) arena.size = .ok ())
    (caseId componentId : CompactId) : (∀ index, HasKey descriptor arena caseId componentId index →
      (∀ other, HasKey descriptor arena caseId componentId other → other = index) ∧
      findComponent (some descriptor) (some arena) caseId componentId =
        .ok (componentAddress descriptor arena index)) ∧
    ((¬∃ index, HasKey descriptor arena caseId componentId index) →
      findComponent (some descriptor) (some arena) caseId componentId =
        .error (.status .notFound)) := by
  obtain ⟨hheader, hregions, -, hrows, -, -⟩ := validate_eq_ok.1 h
  obtain ⟨found, hto, hlast, hstop, hfound⟩ := findComponent_valid
    (arenaBytes_of_validateHeader hheader) hregions.components caseId componentId
  have hcompare : ∀ index, componentKeyCompare (componentRow descriptor arena index) caseId
      componentId = compare (rowValue descriptor arena index) (componentValue caseId componentId) :=
    fun index => compactIdCompare_then _ _ _ _
  have hlt : ∀ {index later : ℕ}, index < later →
      later < rowCount componentLayout descriptor.components →
        rowValue descriptor arena index < rowValue descriptor arena later :=
    rowValue_lt hregions.components hrows
  have hvalue : ∀ {index : ℕ}, HasKey descriptor arena caseId componentId index →
      rowValue descriptor arena index = componentValue caseId componentId := by
    intro index hkey
    rw [rowValue, hkey.caseId, hkey.componentId]
  rw [hfound]
  refine ⟨fun index hkey => ⟨fun other hother => ?_, ?_⟩, fun hnone => ?_⟩
  · -- rows with one value are one row
    rcases Nat.lt_trichotomy other index with hbefore | heq | hafter
    · exact absurd (hvalue hother) (hvalue hkey ▸ (hlt hbefore hkey.lt).ne)
    · exact heq
    · exact absurd (hvalue hkey) (hvalue hother ▸ (hlt hafter hother.lt).ne)
  · have hnotAfter : ¬found < index := by
      intro hafter
      rcases hstop with heq | hturn
      · exact absurd hkey.lt (heq ▸ hafter.asymm)
      · rw [hcompare, Ne, Nat.compare_eq_lt, ← hvalue hkey] at hturn
        exact hturn (hlt hafter hkey.lt)
    have hnotBefore : ¬index < found := by
      intro hbefore
      rcases hlast with rfl | hless
      · exact Nat.not_lt_zero _ hbefore
      · rw [hcompare, Nat.compare_eq_lt, ← hvalue hkey] at hless
        rcases Nat.lt_or_eq_of_le (Nat.le_sub_one_of_lt hbefore) with hearlier | heq
        · exact (hlt hearlier (by omega)).asymm hless
        · exact (heq ▸ hless).false
    obtain rfl : found = index := by omega
    have hequal : componentKeyCompare (componentRow descriptor arena found) caseId componentId =
        .eq := by
      rw [hcompare, hvalue hkey]
      exact Nat.compare_eq_eq.2 rfl
    exact if_pos ⟨hkey.lt, hequal⟩
  · refine if_neg fun hrow => hnone ⟨found, ?_⟩
    have hequal := hrow.2
    rw [hcompare, Nat.compare_eq_eq] at hequal
    obtain ⟨hcase, hcomponent⟩ := componentValue_inj hequal
    exact ⟨hrow.1, hcase, hcomponent⟩

/-- The greeting with a second component, `⟨0, 2⟩`. -/
def pairArena : Block where
  base := 4096
  bytes := greetingArena.bytes.take 232 ++ List.replicate 24 0 ++ littleEndian 8 2 ++
    List.replicate 168 0 ++ [104, 105] ++ List.replicate 22 0
  pos := greetingArena.pos
  fits := by decide +kernel

def pairDescriptor : Descriptor :=
  { greetingDescriptor with
    arenaBytes := 456
    components := ⟨32, 400, 200, 8⟩
    edges := ⟨432, 0, 80, 8⟩
    evidenceObligations := ⟨432, 0, 96, 8⟩
    metadataBytes := ⟨432, 2, 1, 1⟩ }

/-- The second of two rows is found, and a key between them is not. -/
theorem lookup_exact_greeting :
    findComponent (some pairDescriptor) (some pairArena) ⟨0, 0⟩ ⟨0, 2⟩ = .ok 4328 ∧
      findComponent (some pairDescriptor) (some pairArena) ⟨0, 0⟩ ⟨0, 1⟩ =
        .error (.status .notFound) := by
  have hvalid : validate (some pairDescriptor) (some pairArena) pairArena.size = .ok () := by
    decide +kernel
  have hexact := lookup_exact pairDescriptor pairArena hvalid ⟨0, 0⟩
  refine ⟨((hexact ⟨0, 2⟩).1 1 ⟨by decide, by decide +kernel, by decide +kernel⟩).2,
    (hexact ⟨0, 1⟩).2 ?_⟩
  rintro ⟨index, hindex, -, hkey⟩
  have hrows : ∀ index < 2, (componentRow pairDescriptor pairArena index).componentId ≠ ⟨0, 1⟩ := by
    decide +kernel
  exact hrows index hindex hkey

end

end PooFlow.Bundle
