import PooFlow.Axle.Emission

namespace PooFlow.Axle

open Foundation Proof List JsonTree
open Prod (fst)

section

variable {fields : List (String × JsonTree)} {key label : String} {value : JsonTree}

theorem lookup_of_mem {α : Type} {fields : List (String × α)} {value : α}
    (hnodup : (fields.map fst).Nodup) (hmem : (key, value) ∈ fields) :
    fields.lookup key = some value := by
  induction fields with
  | nil => exact absurd hmem not_mem_nil
  | cons first fields ih =>
    obtain ⟨hfirst, hfields⟩ := nodup_cons.1 hnodup
    rw [lookup_cons]
    obtain rfl | hrest := mem_cons.1 hmem
    · rw [beq_self_eq_true]
    · have hne : key ≠ first.1 := fun heq => hfirst (heq ▸ mem_map_of_mem hrest)
      rw [beq_false_of_ne hne]
      exact ih hfields hrest

theorem field_ofFields (hnodup : (fields.map fst).Nodup) (hmem : (key, value) ∈ fields) :
    field (.ofFields fields) key = value := by
  have hperm := perm_sortFields hnodup
  have hsorted : ((sortFields fields).map fst).Nodup :=
    ((hperm.map fst).nodup_iff).2 hnodup
  rw [ofFields, field, lookup_of_mem hsorted (hperm.mem_iff.2 hmem)]
  rfl

theorem exactObject_ofFields_iff {keys : List String} (hnodup : (fields.map fst).Nodup) :
    exactObject (.ofFields fields) label keys = .ok () ↔
      ∀ name, name ∈ keys ↔ name ∈ fields.map fst := by
  have hperm : ∀ name, name ∈ (sortFields fields).map fst ↔ name ∈ fields.map fst :=
    fun name => ((perm_sortFields hnodup).map fst).mem_iff
  have hempty : ∀ {names : List String}, sortOn id names = [] ↔ names = [] := fun {names} =>
    ⟨fun h => nil_perm.1 (h ▸ perm_sortOn id names), fun h => (by rw [h]; rfl)⟩
  rw [ofFields, exactObject]
  simp only [guardElse_eq_ok, hempty, filter_eq_nil_iff, decide_not, Bool.not_eq_true',
    decide_eq_false_iff_not, not_not, hperm]
  exact ⟨fun h name => ⟨h.1 name, h.2 name⟩, fun h => ⟨fun name => (h name).1,
    fun name => (h name).2⟩⟩

theorem exactObject_of_perm {keys : List String} (hnodup : keys.Nodup)
    (hperm : (fields.map fst).Perm keys) :
    exactObject (.ofFields fields) label keys = .ok () :=
  (exactObject_ofFields_iff (hperm.nodup_iff.2 hnodup)).2 fun _ => hperm.mem_iff.symm

end

section

variable {name owner : String} {names roots canonical : List String}

theorem length_of_belongsTo (h : belongsTo name owner = true) :
    owner = name ∨ owner.length < name.length := by
  rw [belongsTo, Bool.or_eq_true, decide_eq_true_eq] at h
  obtain heq | hfront := h
  · exact .inl heq.symm
  · have hle := ( isPrefixOf_iff_prefix.1 hfront).length_le
    rw [String.length_toList, String.length_toList, String.length_append] at hle
    exact .inr (Nat.lt_of_succ_le hle)

theorem coveringDocument_some (h : coveringDocument name names = some owner) :
    owner ∈ names ∧ (owner = name ∨ owner.length < name.length) := by
  obtain ⟨hmem, hbelongs⟩ := mem_filter.1 (argmax_mem h)
  exact ⟨hmem, length_of_belongsTo hbelongs⟩

/-- **A name covers itself** exactly when it is a declaration. -/
theorem coveringDocument_self_iff : coveringDocument name names = some name ↔ name ∈ names := by
  refine ⟨fun h => (coveringDocument_some h).1, fun h => ?_⟩
  have hmem : name ∈ names.filter (belongsTo name) :=
    mem_filter.2 ⟨h, by rw [belongsTo, decide_eq_true rfl, Bool.true_or]⟩
  cases hfound : coveringDocument name names with
  | none =>
    rw [argmax_eq_none.1 hfound] at hmem
    exact absurd hmem not_mem_nil
  | some owner =>
    obtain rfl | hshorter := (coveringDocument_some hfound).2
    · rfl
    · exact absurd (le_of_mem_argmax hmem hfound) (Nat.not_le.2 hshorter)

/-- No value is longer than its origin, and together they are as long: all are equal. -/
theorem eq_of_length_sum
    (h : List.Forall₂ (fun root owner : String => owner = root ∨ owner.length < root.length)
      roots canonical) (hsum : (canonical.map String.length).sum = (roots.map String.length).sum) :
    canonical = roots := by
  have hle : ∀ {roots canonical : List String}, List.Forall₂ (fun root owner : String =>
      owner = root ∨ owner.length < root.length) roots canonical →
      (canonical.map String.length).sum ≤ (roots.map String.length).sum := by
    intro roots canonical h
    induction h with
    | nil => exact le_rfl
    | cons hfirst _ ih =>
      rw [map_cons, map_cons, sum_cons, sum_cons]
      refine Nat.add_le_add ?_ ih
      obtain rfl | hshorter := hfirst
      · exact le_rfl
      · exact hshorter.le
  induction h with
  | nil => rfl
  | cons hfirst hrest ih =>
    rw [map_cons, map_cons, sum_cons, sum_cons] at hsum
    have hrestle := hle hrest
    obtain rfl | hshorter := hfirst
    · rw [ih (Nat.add_left_cancel hsum)]
    · omega

section

variable
  (h : List.Forall₂ (fun root owner => coveringDocument root names = some owner) roots canonical)

include h

theorem covering_eq (hall : ∀ root ∈ roots, root ∈ names) : canonical = roots := by
  induction h with
  | nil => rfl
  | cons hfirst _ ih =>
    obtain ⟨hroot, hroots⟩ := forall_mem_cons.1 hall
    rw [coveringDocument_self_iff.2 hroot] at hfirst
    rw [Option.some.inj hfirst, ih hroots]

/-- **Roots and their covering declarations** are the same up to order exactly when every
root is a declaration. -/
theorem sorted_covering_iff :
    sortOn id canonical = sortOn id roots ↔ ∀ root ∈ roots, root ∈ names := by
  constructor
  · intro hsorted
    have hperm : canonical.Perm roots :=
      (perm_sortOn id canonical).symm.trans (hsorted ▸ perm_sortOn id roots)
    obtain rfl := eq_of_length_sum (h.imp fun _ _ hroot => (coveringDocument_some hroot).2)
      (hperm.map String.length).sum_nat
    exact forall₂_same.1 (h.imp fun _ _ hroot => (coveringDocument_some hroot).1)
  · intro hall
    rw [covering_eq h hall]

end

end

section

variable {codec : Codec} {sha256 : List UInt8 → List UInt8} {asciiDumps : JsonTree → List UInt8}
  {compose : LeanDeclarationClosure → List LeanOwnerSource → Except EmitError String}
  {args : Args} {closure : LeanDeclarationClosure} {sources : List LeanOwnerSource}
  {manifest : LakeManifest} {replies : Replies}

structure Built (closure : LeanDeclarationClosure) (environment : String) (replies : Replies)
    (exact : ExactAxleClosure) (aliases : List (String × String)) (names : List String)
    (kinds : List (String × String)) : Prop where
  environment_eq : exact.environment = environment
  aliased : sourceDeclarationAliases closure = .ok aliases
  roots : List.Forall₂ (fun root owner => coveringDocument root names = some owner ∧ owner ≠ "")
    closure.rootDeclarations exact.rootDeclarations
  roundtrip : ∀ name, name ∈ roundtripNames closure aliases replies.roundtrip.documents ↔
    name ∈ names
  kinds_eq : rootDeclarationKinds replies.roundtrip.documents exact.rootDeclarations = .ok kinds
  receipts_eq : receipts replies exact.rootDeclarations kinds =
    .ok (exact.theorem2sorryReceipt, exact.verification)

theorem presentElse_filter {α ε : Type} {value : Option α} {p : α → Bool} {a : α} {error : ε}
    (h : presentElse (value.filter p) error = .ok a) : value = some a ∧ p a = true :=
  Option.filter_eq_some_iff.1 (presentElse_eq_ok.1 h)

theorem buildExactAxleClosure_ok {environment : String} {operationTimeout baseTimeout : ℤ}
    {exact : ExactAxleClosure} (h : buildExactAxleClosure codec sha256 compose closure sources
      environment replies operationTimeout baseTimeout = .ok exact) :
    ∃ aliases names kinds, Built closure environment replies exact aliases names kinds := by
  obtain ⟨-, h⟩ := then_eq_ok.1 h
  obtain ⟨-, h⟩ := then_eq_ok.1 h
  obtain ⟨_, -, h⟩ := bind_eq_ok.1 h
  obtain ⟨-, h⟩ := then_eq_ok.1 h
  obtain ⟨aliases, haliases, h⟩ := bind_eq_ok.1 h
  obtain ⟨names, -, h⟩ := bind_eq_ok.1 h
  obtain ⟨roots, hroots, h⟩ := bind_eq_ok.1 h
  obtain ⟨-, h⟩ := then_eq_ok.1 h
  obtain ⟨hroundtrip, h⟩ := then_eq_ok.1 h
  obtain ⟨kinds, hkinds, h⟩ := bind_eq_ok.1 h
  obtain ⟨-, h⟩ := then_eq_ok.1 h
  obtain ⟨receipt, hreceipts, h⟩ := bind_eq_ok.1 h
  obtain ⟨_, -, h⟩ := bind_eq_ok.1 h
  cases h
  obtain ⟨hactual, hexpected⟩ := guardElse_eq_ok.1 hroundtrip
  refine ⟨aliases, names, kinds, ?_⟩
  exact
    { environment_eq := rfl
      aliased := haliases
      roots := (forall₂_of_mapM hroots).imp fun root owner hroot => by
        obtain ⟨hcovering, hne⟩ := presentElse_filter hroot
        exact ⟨hcovering, of_decide_eq_true hne⟩
      roundtrip := fun name => ⟨hactual name, hexpected name⟩
      kinds_eq := hkinds
      receipts_eq := hreceipts }

structure Bundled (closure : LeanDeclarationClosure) (exact : ExactAxleClosure)
    (bundle : IndependentDeclarationBundle) : Prop where
  rootModule : bundle.rootModule = closure.rootModule
  roots : bundle.rootDeclarations = exact.rootDeclarations
  proofBaseImports : bundle.proofBaseImports = closure.proofBaseImports
  source : bundle.canonicalSource = exact.canonicalSource
  distinct : exact.rootDeclarations.Nodup
  environment : exact.environment ≠ ""

theorem buildIndependentDeclarationBundle_ok {exact : ExactAxleClosure}
    {bundle : IndependentDeclarationBundle}
    (h : buildIndependentDeclarationBundle sha256 asciiDumps closure exact sources manifest =
      .ok bundle) : Bundled closure exact bundle := by
  obtain ⟨_, -, h⟩ := bind_eq_ok.1 h
  obtain ⟨-, h⟩ := then_eq_ok.1 h
  obtain ⟨_, -, h⟩ := bind_eq_ok.1 h
  obtain ⟨-, h⟩ := then_eq_ok.1 h
  obtain ⟨-, h⟩ := then_eq_ok.1 h
  obtain ⟨_, -, h⟩ := bind_eq_ok.1 h
  obtain ⟨_, -, h⟩ := bind_eq_ok.1 h
  obtain ⟨henvironment, h⟩ := then_eq_ok.1 h
  obtain ⟨hcheck, h⟩ := then_eq_ok.1 h
  cases h
  obtain ⟨hname, -⟩ := then_eq_ok.1 henvironment
  simp only [IndependentDeclarationBundle.check, then_eq_ok] at hcheck
  obtain ⟨-, -, -, -, hdistinct, -⟩ := hcheck
  exact ⟨rfl, rfl, rfl, rfl, guardElse_eq_ok.1 hdistinct, (guardElse_eq_ok.1 hname).1⟩

/-- **Inversion**: the parts of an artifact that is written. -/
theorem run_ok {artifact : JsonTree} (h : run codec sha256 asciiDumps compose args closure sources
      manifest replies = .ok artifact) :
    ∃ exact bundle aliases names kinds,
      Built closure args.environment replies exact aliases names kinds ∧
        Bundled closure exact bundle ∧ artifact = artifactOf codec sha256 closure
          (preflightReceipt codec sha256 closure sources args) exact bundle := by
  obtain ⟨-, h⟩ := then_eq_ok.1 h
  obtain ⟨-, h⟩ := then_eq_ok.1 h
  obtain ⟨exact, hexact, h⟩ := bind_eq_ok.1 h
  obtain ⟨bundle, hbundle, h⟩ := bind_eq_ok.1 h
  cases h
  obtain ⟨aliases, names, kinds, hbuilt⟩ := buildExactAxleClosure_ok hexact
  exact ⟨exact, bundle, aliases, names, kinds, hbuilt,
    buildIndependentDeclarationBundle_ok hbundle, rfl⟩

theorem closure_texts (closure : LeanDeclarationClosure) : closure.rootModule ≠ "" ∧
    "" ∉ closure.rootDeclarations ∧ "" ∉ closure.baseImports ∧ "" ∉ closure.proofBaseImports ∧
      closure.rootDeclarations.Nodup ∧ closure.proofBaseImports.Nodup := by
  have hvalid := closure.valid
  simp only [LeanClosureFields.check, LeanClosureFields.checkStrings,
    LeanClosureFields.checkClosure, then_eq_ok, requireString, requireStringTuple,
    guardElse_eq_ok] at hvalid
  obtain ⟨⟨-, hmodule, hroots, hbase, hproofBase, -⟩, -, hdistinct, -, himports, -⟩ := hvalid
  exact ⟨hmodule, hroots, hbase, hproofBase, hdistinct, himports⟩

end

theorem canonical_texts (values : List String) : (texts values).Canonical :=
  canonical_array.2 fun item hitem => by
    obtain ⟨text, -, rfl⟩ := mem_map.1 hitem
    exact canonical_string text

theorem canonical_optional (value : Option String) : (optional value).Canonical := by
  cases value <;> exact trivial

theorem canonical_map {α : Type} {record : α → JsonTree} (h : ∀ value, (record value).Canonical)
    (values : List α) : (array (values.map record)).Canonical :=
  canonical_array.2 fun item hitem => by
    obtain ⟨value, -, rfl⟩ := mem_map.1 hitem
    exact h value

theorem canonical_range (range : LeanSourceRange) : range.canonicalRecord.Canonical :=
  canonical_ofFields (by simp)

theorem canonical_declaration (declaration : LeanDeclaration) :
    declaration.canonicalRecord.Canonical := by
  refine canonical_ofFields ?_
  cases declaration.sourceRange with
  | none => simp [canonical_texts]
  | some range => simp [canonical_texts, canonical_range]

theorem canonical_proofBase (declaration : LeanProofBaseInterfaceDeclaration) :
    declaration.canonicalRecord.Canonical :=
  canonical_ofFields (by simp [canonical_texts, canonical_optional])

theorem canonical_closure (closure : LeanDeclarationClosure) :
    closure.canonicalManifest.Canonical :=
  canonical_ofFields (by
    simp [-canonical_array, canonical_texts, canonical_map canonical_declaration,
      canonical_map canonical_proofBase])

theorem canonical_bundle {bundle : IndependentDeclarationBundle} :
    (bundle.canonicalManifest sha256).Canonical := by
  have henvironment : bundle.axleEnvironment.canonicalRecord.Canonical :=
    canonical_ofFields (by simp [canonical_texts, canonical_optional])
  have hsource : ∀ source : ResolvedSourceIdentity, source.canonicalRecord.Canonical :=
    fun source => canonical_ofFields (by simp)
  have hdeclaration : ∀ declaration : DeclarationIdentity,
      declaration.canonicalRecord.Canonical := fun declaration =>
    canonical_ofFields (by simp [canonical_texts])
  have hproofBase : ∀ declaration : ProofBaseInterfaceDeclarationIdentity,
      declaration.canonicalRecord.Canonical := fun declaration =>
    canonical_ofFields (by simp [canonical_texts, canonical_optional])
  exact canonical_ofFields (by
    simp [-canonical_array, canonical_texts, henvironment, canonical_map hsource,
      canonical_map hdeclaration, canonical_map hproofBase])

end PooFlow.Axle
