import PooFlow.Bundle.Agreement
import PooFlow.Foundation.Sorting

namespace PooFlow.Bundle

open Foundation Temporal List

section

variable {ρ κ : Type} [LinearOrder κ] {compare : ρ → ρ → Ordering} {key : ρ → κ} {rows rows' : List ρ}

section

variable (hkey : ∀ left right, compare left right = .lt ↔ key left < key right)

include hkey

theorem sortRows_eq_sortOn : sortRows compare rows = sortOn key rows := by
  have hsame : (fun left right => compare right left ≠ .lt) = fun left right =>
      key left ≤ key right := by
    funext left right
    rw [ne_eq, hkey, not_lt]
  rw [sortRows, sortOn]
  congr 1

/-- **A sorted table is strictly ordered** if its keys are distinct. -/
theorem strictlyOrdered_sortRows :
    strictlyOrdered compare (sortRows compare rows) = true ↔ (rows.map key).Nodup := by
  have htrans : Trans (fun a b : ρ => compare a b = .lt) (fun a b => compare a b = .lt)
      fun a b => compare a b = .lt :=
    ⟨fun hab hbc => (hkey _ _).2 (((hkey _ _).1 hab).trans ((hkey _ _).1 hbc))⟩
  rw [strictlyOrdered_iff, isChain_iff_pairwise, sortRows_eq_sortOn hkey,
    ← ((perm_sortOn key rows).map key).nodup_iff, List.Nodup, pairwise_map]
  constructor
  · exact List.Pairwise.imp fun hlt => ((hkey _ _).1 hlt).ne
  · intro hdistinct
    exact (hdistinct.and (pairwise_sortOn key rows)).imp fun h =>
      (hkey _ _).2 (lt_of_le_of_ne h.2 h.1)

theorem sortRows_perm (hperm : rows.Perm rows')
    (h : strictlyOrdered compare (sortRows compare rows) = true) :
    sortRows compare rows = sortRows compare rows' := by
  have hdistinct := (strictlyOrdered_sortRows hkey).1 h
  rw [sortRows_eq_sortOn hkey, sortRows_eq_sortOn hkey]
  exact (sortOn_congr hperm fun a ha b hb => inj_on_of_nodup_map hdistinct ha hb)

theorem strictlyOrdered_perm (hperm : rows.Perm rows') :
    strictlyOrdered compare (sortRows compare rows) = true ↔
      strictlyOrdered compare (sortRows compare rows') = true := by
  rw [strictlyOrdered_sortRows hkey, strictlyOrdered_sortRows hkey, (hperm.map key).nodup_iff]

end

end

def NativeSymbol.key (row : NativeSymbol) : ℕ ×ₗ ℕ := row.id.key

def NativeEdge.key (row : NativeEdge) : (ℕ ×ₗ ℕ) ×ₗ (ℕ ×ₗ ℕ) ×ₗ ℕ ×ₗ (ℕ ×ₗ ℕ) ×ₗ (ℕ ×ₗ ℕ) :=
  toLex (row.caseId.key, toLex (row.sourceComponentId.key,
    toLex (row.compositionOrder, toLex (row.targetComponentId.key, row.relationId.key))))

def NativeEvidence.key (row : NativeEvidence) : (ℕ ×ₗ ℕ) ×ₗ (ℕ ×ₗ ℕ) :=
  toLex (row.caseId.key, row.obligationId.key)

theorem compareSymbolRows_eq_lt (left right : NativeSymbol) :
    compareSymbolRows left right = .lt ↔ left.key < right.key :=
  compareCompactIds_eq_lt

theorem firstNonzeroComparison_eq_lt (comparison : Ordering) (comparisons : List Ordering) :
    firstNonzeroComparison (comparison :: comparisons) = .lt ↔
      comparison = .lt ∨ comparison = .eq ∧ firstNonzeroComparison comparisons = .lt := by
  cases comparison <;> simp [firstNonzeroComparison]

theorem compareEdgeRows_eq_lt (left right : NativeEdge) :
    compareEdgeRows left right = .lt ↔ left.key < right.key := by
  have horder : ∀ a b : ℕ, (compareIntegers a b = .lt ↔ a < b) ∧
      (compareIntegers a b = .eq ↔ a = b) := by
    intro a b
    unfold compareIntegers
    split_ifs <;> simp <;> omega
  simp only [NativeEdge.key, Prod.Lex.toLex_lt_toLex, compareEdgeRows,
    firstNonzeroComparison_eq_lt, compareCompactIds_eq_lt, compareCompactIds_eq_eq, horder]
  simp [firstNonzeroComparison]

theorem compareEvidenceRows_eq_lt (left right : NativeEvidence) :
    compareEvidenceRows left right = .lt ↔ left.key < right.key := by
  rw [NativeEvidence.key, NativeEvidence.key, Prod.Lex.toLex_lt_toLex,
    ← compareCompactIds_eq_lt, ← compareCompactIds_eq_lt, ← compareCompactIds_eq_eq]
  unfold compareEvidenceRows
  cases compareCompactIds left.caseId right.caseId <;> simp

theorem strictlyOrdered_placeFrom (start : ℕ) (rows : List NativeSymbol) :
    strictlyOrdered compareSymbolRows (placeFrom start rows) =
      strictlyOrdered compareSymbolRows rows := by
  induction rows generalizing start with
  | nil => rfl
  | cons first rows ih =>
    cases rows with
    | nil => rfl
    | cons second rows =>
      have hrest := ih (start + first.byteLength)
      rw [placeFrom] at hrest ⊢
      rw [placeFrom, strictlyOrdered, strictlyOrdered, hrest]
      rfl

theorem guardElse_congr {ε β : Type} {e : ε} {p q : Prop} [Decidable p] [Decidable q] (hiff : p ↔ q)
    {k k' : Unit → Except ε β} (hnext : p → k () = k' ()) :
    (guardElse p e >>= k) = (guardElse q e >>= k') := by
  by_cases hp : p
  · rw [guardElse_of hp, guardElse_of (hiff.1 hp)]
    exact hnext hp
  · rw [guardElse, guardElse, if_neg hp, if_neg (hp ∘ hiff.2)]
    rfl

variable (sha256 : Bytes → Digest) (write : Datum → String) (bundleId : SemanticId)
  (bundleEpoch : ℕ) (symbols : List SymbolValue) (components : List ComponentValue)
  (edges : List EdgeValue) (evidence : List EvidenceValue)

structure ValidParts : Prop where
  bundleId : validSemanticId bundleId
  bundleEpoch : validUint64 bundleEpoch
  symbols : ∀ symbol ∈ symbols, validSymbol symbol
  components : ∀ component ∈ components, validComponent component
  edges : ∀ edge ∈ edges, validEdge edge
  evidence : ∀ item ∈ evidence, validEvidence item

structure DistinctKeys : Prop where
  symbols : (symbols.map fun symbol => (lowerSymbol sha256 symbol).key).Nodup
  components : (components.map fun component => (lowerComponent sha256 component).key).Nodup
  edges : (edges.map fun edge => (lowerEdge sha256 edge).key).Nodup
  evidence : (evidence.map fun item => (lowerEvidence sha256 item).key).Nodup

/-- **A lowering is canonical**: what it accepts, and that it has one result for any
order of the tables. -/
theorem lowering_canonical :
    ((∃ descriptor, loweringWithSymbols sha256 write bundleId bundleEpoch symbols components edges
        evidence = .ok descriptor) ↔
      ValidParts bundleId bundleEpoch symbols components edges evidence ∧
        DistinctKeys sha256 symbols components edges evidence) ∧
    ∀ symbols' components' edges' evidence', symbols.Perm symbols' → components.Perm components' →
      edges.Perm edges' → evidence.Perm evidence' →
      loweringWithSymbols sha256 write bundleId bundleEpoch symbols components edges evidence =
        loweringWithSymbols sha256 write bundleId bundleEpoch symbols' components' edges'
          evidence' := by
  have hcomponent := fun a b => @compareComponentRows_eq_lt a b
  refine ⟨?_, fun symbols' components' edges' evidence' hs hc he hv => ?_⟩
  · simp only [loweringWithSymbols, then_eq_ok, guardElse_eq_ok, exists_and_left, all_eq_true,
      assignSymbolOffsets_eq, strictlyOrdered_placeFrom,
      strictlyOrdered_sortRows compareSymbolRows_eq_lt, strictlyOrdered_sortRows hcomponent,
      strictlyOrdered_sortRows compareEdgeRows_eq_lt,
      strictlyOrdered_sortRows compareEvidenceRows_eq_lt, map_map]
    constructor
    · rintro ⟨hid, hepoch, hs, hc, he, hv, hs', hc', he', hv', -⟩
      exact ⟨⟨hid, hepoch, hs, hc, he, hv⟩, hs', hc', he', hv'⟩
    · rintro ⟨⟨hid, hepoch, hs, hc, he, hv⟩, hs', hc', he', hv'⟩
      exact ⟨hid, hepoch, hs, hc, he, hv, hs', hc', he', hv', _, rfl⟩
  · simp only [loweringWithSymbols, assignSymbolOffsets_eq, strictlyOrdered_placeFrom]
    refine guardElse_congr .rfl fun _ => guardElse_congr .rfl fun _ =>
      guardElse_congr (by rw [hs.all_eq]) fun _ => guardElse_congr (by rw [hc.all_eq]) fun _ =>
      guardElse_congr (by rw [he.all_eq]) fun _ => guardElse_congr (by rw [hv.all_eq]) fun _ => ?_
    refine guardElse_congr (strictlyOrdered_perm compareSymbolRows_eq_lt (hs.map _)) fun hs' =>
      guardElse_congr (strictlyOrdered_perm hcomponent (hc.map _)) fun hc' =>
      guardElse_congr (strictlyOrdered_perm compareEdgeRows_eq_lt (he.map _)) fun he' =>
      guardElse_congr (strictlyOrdered_perm compareEvidenceRows_eq_lt (hv.map _)) fun hv' => ?_
    rw [sortRows_perm compareSymbolRows_eq_lt (hs.map _) hs', sortRows_perm hcomponent (hc.map _) hc',
      sortRows_perm compareEdgeRows_eq_lt (he.map _) he',
      sortRows_perm compareEvidenceRows_eq_lt (hv.map _) hv']

/-- No bundle has an epoch of more than 64 bits, whatever its tables are. -/
theorem lowering_epoch_rejected : DistinctKeys checksum [] [] [] [] ∧
      loweringWithSymbols checksum writeDatum (.symbol "bundle") (2 ^ 64) [] [] [] [] =
        .error ⟨"invalid-bundle-epoch", .symbol "bundle", "expected-uint64"⟩ :=
  ⟨⟨nodup_nil, nodup_nil, nodup_nil, nodup_nil⟩, rfl⟩

end PooFlow.Bundle
