import PooFlow.Axle.Authority
import PooFlow.Axle.Written

namespace PooFlow.Axle

open Foundation Proof List

section

variable {codec : Codec} {sha256 : List UInt8 → List UInt8} {manifest : JsonTree}

structure Readable (s : Sections) : Prop where
  shapes : s.checkShapes = .ok ()
  schemas : s.checkSchemas = .ok ()
  accepted : s.checkAccepted = .ok ()
  roots : ∃ roots, s.readRoots = .ok roots
  rootModule : ∃ rootModule, s.readRootModule = .ok rootModule
  proofBaseImports : ∃ imports, s.readProofBaseImports = .ok imports
  sourceDigest : ∃ text, s.readSourceDigest = .ok text
  exactDigest : ∃ text, s.readExactDigest = .ok text
  independentDigest : ∃ text, digest "independent_declaration_bundle_digest"
    (field s.artifact "independent_declaration_bundle_digest") = .ok text
  environment : ∃ text, string "exact_bundle.environment" (field s.exact "environment") = .ok text
  baseImports : ∃ imports,
    stringTuple "closure.base_imports" (field s.closure "base_imports") = .ok imports

theorem parseManifest_iff (hlength : ∀ payload, (sha256 payload).length = 32) {bytes : List UInt8} :
    (∃ parsed, parseManifest codec sha256 bytes false manifest = .ok parsed) ↔
      Readable (sectionsOf manifest) := by
  constructor
  · rintro ⟨parsed, h⟩
    obtain ⟨hshapes, h⟩ := then_eq_ok.1 h
    obtain ⟨hschemas, h⟩ := then_eq_ok.1 h
    obtain ⟨haccepted, h⟩ := then_eq_ok.1 h
    obtain ⟨_, hroots, h⟩ := bind_eq_ok.1 h
    obtain ⟨_, hmodule, h⟩ := bind_eq_ok.1 h
    obtain ⟨_, himports, h⟩ := bind_eq_ok.1 h
    obtain ⟨_, hsource, h⟩ := bind_eq_ok.1 h
    obtain ⟨_, hexact, h⟩ := bind_eq_ok.1 h
    obtain ⟨_, hindependent, h⟩ := bind_eq_ok.1 h
    obtain ⟨-, h⟩ := then_eq_ok.1 h
    obtain ⟨_, henvironment, h⟩ := bind_eq_ok.1 h
    obtain ⟨_, hbase, -⟩ := bind_eq_ok.1 h
    exact ⟨hshapes, hschemas, haccepted, ⟨_, hroots⟩, ⟨_, hmodule⟩, ⟨_, himports⟩, ⟨_, hsource⟩,
      ⟨_, hexact⟩, ⟨_, hindependent⟩, ⟨_, henvironment⟩, ⟨_, hbase⟩⟩
  · intro h
    obtain ⟨_, hroots⟩ := h.roots
    obtain ⟨_, hmodule⟩ := h.rootModule
    obtain ⟨_, himports⟩ := h.proofBaseImports
    obtain ⟨_, hsource⟩ := h.sourceDigest
    obtain ⟨_, hexact⟩ := h.exactDigest
    obtain ⟨_, hindependent⟩ := h.independentDigest
    obtain ⟨_, henvironment⟩ := h.environment
    obtain ⟨_, hbase⟩ := h.baseImports
    refine exists_bind_ok h.shapes (exists_bind_ok h.schemas (exists_bind_ok h.accepted ?_))
    refine exists_bind_ok hroots (exists_bind_ok hmodule (exists_bind_ok himports ?_))
    refine exists_bind_ok hsource (exists_bind_ok hexact (exists_bind_ok hindependent ?_))
    refine exists_bind_ok (guardElse_of fun hflag => (by cases hflag)) ?_
    refine exists_bind_ok henvironment (exists_bind_ok hbase ?_)
    refine exists_bind_ok (congrArg (Except.mapError AxleError.record)
      (constructed_of (requireCanonicalPayload_digest (hlength _)))) ?_
    exact exists_bind_ok (congrArg (Except.mapError AxleError.record)
      (constructed_of (requireCanonicalPayload_digest (hlength _)))) ⟨_, rfl⟩

/-- The texts of an array are read unless one is empty or repeated. -/
theorem stringTuple_texts {label : String} {values result : List String} (hempty : "" ∉ values) :
    stringTuple label (texts values) = .ok result ↔ values.Nodup ∧ result = values := by
  have hread : (values.map JsonTree.string).mapM (string label) = .ok values := by
    refine mapM_map_eq_ok fun text htext => then_eq_ok.2 ⟨guardElse_of ?_, rfl⟩
    exact fun heq => hempty (heq ▸ htext)
  rw [texts, stringTuple, hread, ok_bind, then_eq_ok, guardElse_eq_ok]
  exact and_congr_right' ⟨fun h => (Except.ok.inj h).symm, fun h => congrArg Except.ok h.symm⟩

end

section

variable {codec : Codec} {sha256 : List UInt8 → List UInt8} {asciiDumps : JsonTree → List UInt8}
  {compose : LeanDeclarationClosure → List LeanOwnerSource → Except EmitError String}
  {args : Args} {closure : LeanDeclarationClosure} {sources : List LeanOwnerSource}
  {manifest : LakeManifest} {replies : Replies}

section

variable {roots : List String} {kinds : List (String × String)} {obligation validation : JsonTree}

/-- What the reader asks of the receipt of the verification. -/
structure Validated (validation : JsonTree) : Prop where
  shape : exactObject validation "exact_bundle.verification" verificationKeys = .ok ()
  schema : field validation "schema_id" = .string "poo-flow.axle-root-declaration-validation.v1"
  status : field validation "status" = .string "accepted"
  okay : field validation "okay" = .bool true
  failed : field validation "failed_declarations" = .array []

theorem receipts_theorem (hreceipts : theoremReceipts replies roots kinds =
      .ok (obligation, validation)) :
    exactObject obligation "exact_bundle.theorem2sorry" theorem2sorryKeys = .ok () ∧
      Validated validation := by
  obtain ⟨-, hreceipts⟩ := then_eq_ok.1 hreceipts
  obtain ⟨-, hreceipts⟩ := then_eq_ok.1 hreceipts
  obtain ⟨hverified, hreceipts⟩ := then_eq_ok.1 hreceipts
  cases hreceipts
  obtain ⟨hokay, hfailed⟩ := guardElse_eq_ok.1 hverified
  refine ⟨exactObject_of_perm (by decide) ?_, ?_⟩
  · simp only [map_cons, map_nil]
    decide
  · refine ⟨exactObject_of_perm (by decide) ?_, field_ofFields (by simp) (by simp),
      field_ofFields (by simp) (by simp), field_ofFields (by simp) (by simp [hokay]),
      field_ofFields (by simp) (by simp [hfailed, texts])⟩
    simp only [map_cons, map_nil]
    decide

theorem receipts_plain (roots : List String) (kinds : List (String × String)) :
    exactObject (plainReceipts roots kinds).1 "exact_bundle.theorem2sorry"
        theorem2sorryKeys ≠ .ok () ∧ Validated (plainReceipts roots kinds).2 := by
  refine ⟨fun h => ?_, ?_⟩
  · have hkeys := (exactObject_ofFields_iff (by simp)).1 h "messages"
    simp [theorem2sorryKeys] at hkeys
  · refine ⟨exactObject_of_perm (by decide) ?_, field_ofFields (by simp) (by simp),
      field_ofFields (by simp) (by simp), field_ofFields (by simp) (by simp),
      field_ofFields (by simp) (by simp [texts])⟩
    simp only [map_cons, map_nil]
    decide

/-- **Both branches** validate; only that of a theorem has the keys of an obligation. -/
theorem receipts_ok (h : receipts replies roots kinds = .ok (obligation, validation)) :
    (exactObject obligation "exact_bundle.theorem2sorry" theorem2sorryKeys = .ok () ↔
      ∃ kind ∈ kinds, kind.2 = "theorem") ∧ Validated validation := by
  have hroots : (kinds.filter (·.2 = "theorem")).map Prod.fst ≠ [] ↔
      ∃ kind ∈ kinds, kind.2 = "theorem" := by
    simp [filter_eq_nil_iff]
  rw [receipts] at h
  by_cases hsome : (kinds.filter (·.2 = "theorem")).map Prod.fst ≠ []
  · rw [if_pos hsome] at h
    obtain ⟨hshape, hvalidated⟩ := receipts_theorem h
    exact ⟨iff_of_true hshape (hroots.1 hsome), hvalidated⟩
  · rw [if_neg hsome] at h
    cases h
    obtain ⟨hshape, hvalidated⟩ := receipts_plain roots kinds
    exact ⟨iff_of_false hshape (mt hroots.2 hsome), hvalidated⟩

end

section

variable {exact : ExactAxleClosure} {bundle : IndependentDeclarationBundle} {preflight : JsonTree}

theorem sectionsOf_artifactOf :
    sectionsOf (artifactOf codec sha256 closure preflight exact bundle) =
      { artifact := artifactOf codec sha256 closure preflight exact bundle
        closure := closure.canonicalManifest
        preflight := preflight
        exact := exact.canonicalManifest codec sha256
        independent := bundle.canonicalManifest sha256
        verification := exact.verification } := by
  have hfield : ∀ {key value}, (key, value) ∈ [("closure", closure.canonicalManifest),
      ("preflight", preflight), ("exact_bundle", exact.canonicalManifest codec sha256),
      ("exact_bundle_digest", .string (exact.bundleDigest codec sha256)),
      ("independent_declaration_bundle", bundle.canonicalManifest sha256),
      ("independent_declaration_bundle_digest", .string (bundle.bundleDigest codec sha256))] →
      field (artifactOf codec sha256 closure preflight exact bundle) key = value :=
    field_ofFields (by simp)
  have hclosure : field (artifactOf codec sha256 closure preflight exact bundle) "closure" =
      closure.canonicalManifest := hfield (by simp)
  have hpreflight : field (artifactOf codec sha256 closure preflight exact bundle) "preflight" =
      preflight := hfield (by simp)
  have hexact : field (artifactOf codec sha256 closure preflight exact bundle) "exact_bundle" =
      exact.canonicalManifest codec sha256 := hfield (by simp)
  have hindependent : field (artifactOf codec sha256 closure preflight exact bundle)
      "independent_declaration_bundle" = bundle.canonicalManifest sha256 := hfield (by simp)
  have hverification : field (exact.canonicalManifest codec sha256) "verification" =
      exact.verification := field_ofFields (by simp [ExactAxleClosure.identityFields]) (by simp)
  rw [sectionsOf, hclosure, hpreflight, hexact, hindependent, hverification]

theorem checkShapes_iff (hvalidated : Validated exact.verification) :
    (sectionsOf (artifactOf codec sha256 closure
        (preflightReceipt codec sha256 closure sources args) exact bundle)).checkShapes = .ok () ↔
      exactObject exact.theorem2sorryReceipt "exact_bundle.theorem2sorry" theorem2sorryKeys =
        .ok () := by
  have hobligation : field (exact.canonicalManifest codec sha256) "theorem2sorry" =
      exact.theorem2sorryReceipt :=
    field_ofFields (by simp [ExactAxleClosure.identityFields]) (by simp)
  have hartifact : exactObject (artifactOf codec sha256 closure
      (preflightReceipt codec sha256 closure sources args) exact bundle) "artifact"
      topLevelKeys = .ok () := by
    refine exactObject_of_perm (by decide) ?_
    simp only [map_cons, map_nil]
    decide
  have hclosure : exactObject closure.canonicalManifest "closure" closureKeys = .ok () := by
    refine exactObject_of_perm (by decide) ?_
    simp only [map_cons, map_nil]
    decide
  have hpreflight : exactObject (preflightReceipt codec sha256 closure sources args) "preflight"
      preflightKeys = .ok () := by
    refine exactObject_of_perm (by decide) ?_
    simp only [map_cons, map_nil]
    decide
  have hexact : exactObject (exact.canonicalManifest codec sha256) "exact_bundle"
      exactBundleKeys = .ok () := by
    refine exactObject_of_perm (by decide) ?_
    simp only [ExactAxleClosure.identityFields, cons_append, nil_append, map_cons, map_nil]
    decide
  have hindependent : exactObject (bundle.canonicalManifest sha256)
      "independent_declaration_bundle" independentBundleKeys = .ok () := by
    refine exactObject_of_perm (by decide) ?_
    simp only [map_cons, map_nil]
    decide
  rw [sectionsOf_artifactOf, Sections.checkShapes, hartifact, hclosure, hpreflight, hexact,
    hindependent, hvalidated.shape, hobligation]
  exact Iff.rfl

structure Written (codec : Codec) (sha256 : List UInt8 → List UInt8)
    (closure : LeanDeclarationClosure) (exact : ExactAxleClosure)
    (bundle : IndependentDeclarationBundle) (s : Sections) : Prop where
  closureSchema : field s.closure "schema_id" = .string "poo-flow.lean-declaration-closure.v1"
  preflightSchema : field s.preflight "schema_id" = .string "poo-flow.axle-closure-preflight.v1"
  exactSchema :
    field s.exact "schema_id" = .string "poo-flow.axle-exact-declaration-closure.v1"
  independentSchema :
    field s.independent "schema_id" = .string "poo-flow.independent-declaration-bundle.v1"
  closureRoots : field s.closure "root_declarations" = texts closure.rootDeclarations
  preflightRoots : field s.preflight "root_declarations" = texts closure.rootDeclarations
  exactRoots : field s.exact "root_declarations" = texts exact.rootDeclarations
  independentRoots :
    field s.independent "root_declarations" = texts (sortOn id exact.rootDeclarations)
  closureModule : field s.closure "root_module" = .string closure.rootModule
  preflightModule : field s.preflight "root_module" = .string closure.rootModule
  independentModule : field s.independent "root_module" = .string closure.rootModule
  closureImports : field s.closure "proof_base_imports" = texts closure.proofBaseImports
  preflightImports : field s.preflight "proof_base_imports" = texts closure.proofBaseImports
  independentImports :
    field s.independent "proof_base_imports" = texts (sortOn id closure.proofBaseImports)
  exactSource :
    field s.exact "canonical_source_digest" = .string (exact.canonicalSourceDigest sha256)
  independentSource :
    field s.independent "canonical_source_digest" = .string (exact.canonicalSourceDigest sha256)
  artifactDigest : field s.artifact "exact_bundle_digest" =
    .string (exact.bundleDigest codec sha256)
  exactDigest : field s.exact "bundle_digest" = .string (exact.bundleDigest codec sha256)
  independentDigest : field s.artifact "independent_declaration_bundle_digest" =
    .string (bundle.bundleDigest codec sha256)
  environment : field s.exact "environment" = .string exact.environment
  baseImports : field s.closure "base_imports" = texts closure.baseImports
  verification : s.verification = exact.verification

theorem written_artifactOf (hbundled : Bundled closure exact bundle) :
    Written codec sha256 closure exact bundle (sectionsOf (artifactOf codec sha256 closure
      (preflightReceipt codec sha256 closure sources args) exact bundle)) := by
  rw [sectionsOf_artifactOf]
  constructor
  case verification => rfl
  all_goals
    refine field_ofFields (by simp [ExactAxleClosure.identityFields]) ?_
    simp [ExactAxleClosure.identityFields, closureSchema, hbundled.roots, hbundled.rootModule,
      hbundled.proofBaseImports, hbundled.source, ExactAxleClosure.canonicalSourceDigest,
      IndependentDeclarationBundle.canonicalSourceDigest]

namespace Written

variable {s : Sections} (h : Written codec sha256 closure exact bundle s)

include h

theorem checkSchemas_ok (hvalidated : Validated exact.verification) : s.checkSchemas = .ok () := by
  have hschema : ∀ {value expected label}, field value "schema_id" = .string expected →
      Sections.checkSchema value expected label = .ok () := fun h => guardElse_of (isText_iff.2 h)
  exact then_eq_ok.2 ⟨hschema h.closureSchema, then_eq_ok.2 ⟨hschema h.preflightSchema,
    then_eq_ok.2 ⟨hschema h.exactSchema, then_eq_ok.2 ⟨hschema h.independentSchema,
      hschema (h.verification ▸ hvalidated.schema)⟩⟩⟩⟩

theorem checkAccepted_ok (hvalidated : Validated exact.verification) :
    s.checkAccepted = .ok () := by
  rw [Sections.checkAccepted, h.verification]
  exact then_eq_ok.2 ⟨guardElse_of (isText_iff.2 hvalidated.status), then_eq_ok.2
    ⟨guardElse_of (isTrue_iff.2 hvalidated.okay),
      guardElse_of (isEmptyArray_iff.2 hvalidated.failed)⟩⟩

theorem readRoots_iff (hbundled : Bundled closure exact bundle)
    (hexact : "" ∉ exact.rootDeclarations) : (∃ roots, s.readRoots = .ok roots) ↔
      sortOn id exact.rootDeclarations = sortOn id closure.rootDeclarations := by
  obtain ⟨-, hempty, -, -, hnodup, -⟩ := closure_texts closure
  have hsorted : (sortOn id exact.rootDeclarations).Nodup :=
    (perm_sortOn id _).nodup_iff.2 hbundled.distinct
  rw [Sections.readRoots, h.closureRoots, h.preflightRoots, h.exactRoots, h.independentRoots,
    (stringTuple_texts hempty).2 ⟨hnodup, rfl⟩, ok_bind, (stringTuple_texts hempty).2 ⟨hnodup, rfl⟩,
    ok_bind, (stringTuple_texts hexact).2 ⟨hbundled.distinct, rfl⟩, ok_bind,
    (stringTuple_texts (by rwa [mem_sortOn])).2 ⟨hsorted, rfl⟩, ok_bind]
  constructor
  · rintro ⟨_, h⟩
    exact (guardElse_eq_ok.1 (then_eq_ok.1 h).1).2.1
  · intro h
    exact ⟨_, then_eq_ok.2 ⟨guardElse_of ⟨rfl, h, by rw [sortOn_sortOn, h]⟩, rfl⟩⟩

theorem readRootModule_ok : s.readRootModule = .ok closure.rootModule := by
  rw [Sections.readRootModule, h.closureModule, h.preflightModule, h.independentModule]
  exact bind_eq_ok.2 ⟨_, then_eq_ok.2 ⟨guardElse_of (closure_texts closure).1, rfl⟩,
    then_eq_ok.2 ⟨guardElse_of ⟨isText_iff.2 rfl, isText_iff.2 rfl⟩, rfl⟩⟩

theorem readProofBaseImports_iff : (∃ imports, s.readProofBaseImports = .ok imports) ↔
    sortOn id closure.proofBaseImports = closure.proofBaseImports := by
  obtain ⟨-, -, -, hempty, -, hnodup⟩ := closure_texts closure
  have hsorted : (sortOn id closure.proofBaseImports).Nodup :=
    (perm_sortOn id _).nodup_iff.2 hnodup
  rw [Sections.readProofBaseImports, h.closureImports, h.preflightImports, h.independentImports,
    (stringTuple_texts hempty).2 ⟨hnodup, rfl⟩, ok_bind,
    (stringTuple_texts hempty).2 ⟨hnodup, rfl⟩, ok_bind, guardElse_of rfl, ok_bind,
    (stringTuple_texts (by rwa [mem_sortOn])).2 ⟨hsorted, rfl⟩, ok_bind]
  constructor
  · rintro ⟨_, h⟩
    exact guardElse_eq_ok.1 (then_eq_ok.1 h).1
  · intro h
    exact ⟨_, then_eq_ok.2 ⟨guardElse_of h, rfl⟩⟩

theorem readBaseImports_iff : (∃ imports, stringTuple "closure.base_imports"
    (field s.closure "base_imports") = .ok imports) ↔ closure.baseImports.Nodup := by
  obtain ⟨-, -, hempty, -⟩ := closure_texts closure
  rw [h.baseImports]
  exact ⟨fun ⟨_, h⟩ => ((stringTuple_texts hempty).1 h).1,
    fun h => ⟨_, (stringTuple_texts hempty).2 ⟨h, rfl⟩⟩⟩

end Written

theorem digest_sha256Digest (hlength : ∀ payload, (sha256 payload).length = 32) (label : String)
    (payload : List UInt8) :
    digest label (.string (sha256Digest sha256 payload)) = .ok (sha256Digest sha256 payload) := by
  have hdigest := isSha256Digest_sha256Digest (hlength payload)
  have hne : sha256Digest sha256 payload ≠ "" := fun heq => by
    rw [heq] at hdigest
    exact absurd hdigest (by decide)
  exact bind_eq_ok.2 ⟨_, then_eq_ok.2 ⟨guardElse_of hne, rfl⟩,
    then_eq_ok.2 ⟨guardElse_of hdigest, rfl⟩⟩

/-- **The reader** and the parts of an artifact. -/
theorem readable_iff (hlength : ∀ payload, (sha256 payload).length = 32)
    (hbundled : Bundled closure exact bundle) (hvalidated : Validated exact.verification)
    (hempty : "" ∉ exact.rootDeclarations) : Readable (sectionsOf (artifactOf codec sha256 closure
        (preflightReceipt codec sha256 closure sources args) exact bundle)) ↔
      exactObject exact.theorem2sorryReceipt "exact_bundle.theorem2sorry" theorem2sorryKeys =
          .ok () ∧
        sortOn id exact.rootDeclarations = sortOn id closure.rootDeclarations ∧
          closure.baseImports.Nodup ∧
            sortOn id closure.proofBaseImports = closure.proofBaseImports := by
  have hwritten := @written_artifactOf codec sha256 args closure sources exact bundle hbundled
  rw [← checkShapes_iff hvalidated, ← hwritten.readRoots_iff hbundled hempty,
    ← hwritten.readBaseImports_iff, ← hwritten.readProofBaseImports_iff]
  constructor
  · intro h
    exact ⟨h.shapes, h.roots, h.baseImports, h.proofBaseImports⟩
  · rintro ⟨hshape, hroots, hbase, himports⟩
    refine ⟨hshape, hwritten.checkSchemas_ok hvalidated, hwritten.checkAccepted_ok hvalidated,
      hroots, ⟨_, hwritten.readRootModule_ok⟩, himports, ?_, ?_, ?_, ?_, hbase⟩
    · rw [Sections.readSourceDigest, hwritten.exactSource, hwritten.independentSource]
      exact ⟨_, bind_eq_ok.2 ⟨_, digest_sha256Digest hlength _ _,
        then_eq_ok.2 ⟨guardElse_of (isText_iff.2 rfl), rfl⟩⟩⟩
    · rw [Sections.readExactDigest, hwritten.artifactDigest, hwritten.exactDigest]
      exact ⟨_, bind_eq_ok.2 ⟨_, digest_sha256Digest hlength _ _,
        then_eq_ok.2 ⟨guardElse_of (isText_iff.2 rfl), rfl⟩⟩⟩
    · rw [hwritten.independentDigest]
      exact ⟨_, digest_sha256Digest hlength _ _⟩
    · rw [hwritten.environment]
      exact ⟨_, then_eq_ok.2 ⟨guardElse_of hbundled.environment, rfl⟩⟩

end

/-- The closure and the replies are such that the reader accepts what is written: every root
is the source declaration of a document of the round trip, one of the roots is a theorem
there, no base import is repeated, and the proof-base imports stand in order. -/
structure Agreeable (closure : LeanDeclarationClosure) (replies : Replies) : Prop where
  own : ∀ aliases, sourceDeclarationAliases closure = .ok aliases →
    ∀ root ∈ closure.rootDeclarations,
      root ∈ roundtripNames closure aliases replies.roundtrip.documents
  proven : ∃ root ∈ closure.rootDeclarations, ∃ document,
    byName replies.roundtrip.documents root = some document ∧ document.kind = "theorem"
  baseImports : closure.baseImports.Nodup
  proofBaseImports : sortOn id closure.proofBaseImports = closure.proofBaseImports

variable {kinds : List (String × String)}

theorem kinds_theorem_iff {documents : List Document} {roots : List String}
    (h : rootDeclarationKinds documents roots = .ok kinds) :
    (∃ kind ∈ kinds, kind.2 = "theorem") ↔ ∃ root ∈ roots, ∃ document,
      byName documents root = some document ∧ document.kind = "theorem" := by
  have hread := forall₂_of_mapM h
  constructor
  · rintro ⟨kind, hkind, htheorem⟩
    obtain ⟨root, hroot, hfound⟩ := forall₂_mem_right hread hkind
    obtain ⟨document, hdocument, hreturn⟩ := bind_eq_ok.1 hfound
    cases hreturn
    exact ⟨root, mem_eraseDups.1 hroot, document, presentElse_eq_ok.1 hdocument, htheorem⟩
  · rintro ⟨root, hroot, document, hdocument, htheorem⟩
    obtain ⟨kind, hkind, hfound⟩ := forall₂_mem_right hread.flip (mem_eraseDups.2 hroot)
    obtain ⟨other, hother, hreturn⟩ := bind_eq_ok.1 hfound
    cases hreturn
    obtain rfl := Option.some.inj ((presentElse_eq_ok.1 hother).symm.trans hdocument)
    exact ⟨_, hkind, htheorem⟩

theorem accepted_iff_parts (hlength : ∀ payload, (sha256 payload).length = 32)
    {exact : ExactAxleClosure} {bundle : IndependentDeclarationBundle}
    {aliases : List (String × String)} {names : List String}
    (hbuilt : Built closure args.environment replies exact aliases names kinds)
    (hbundled : Bundled closure exact bundle) {bytes : List UInt8}
    (hbytes : codec.loads bytes = .ok (artifactOf codec sha256 closure
      (preflightReceipt codec sha256 closure sources args) exact bundle)) :
    (∃ parsed, parseAxleClosureArtifact codec sha256 bytes false = .ok parsed) ↔
      (∃ kind ∈ kinds, kind.2 = "theorem") ∧ (∀ root ∈ closure.rootDeclarations, root ∈ names) ∧
        closure.baseImports.Nodup ∧
          sortOn id closure.proofBaseImports = closure.proofBaseImports := by
  obtain ⟨hobligation, hvalidated⟩ := receipts_ok hbuilt.receipts_eq
  have hempty : "" ∉ exact.rootDeclarations := fun hmem => by
    obtain ⟨root, -, hroot⟩ := forall₂_mem_right hbuilt.roots hmem
    exact hroot.2 rfl
  rw [parseAxleClosureArtifact, hbytes, ok_bind, parseManifest_iff hlength,
    readable_iff hlength hbundled hvalidated hempty, hobligation,
    sorted_covering_iff (hbuilt.roots.imp fun _ _ h => h.1)]

end

def safeSource : LeanOwnerSource :=
  ⟨"Example", "Example.lean",
    "sha256:0000000000000000000000000000000000000000000000000000000000000000"⟩

def safeKind (proven : Bool) : String := if proven then "theorem" else "def"

def safeFields (proven : Bool) : LeanClosureFields where
  leanVersion := "4.31.0"
  rootModule := "Example"
  rootDeclarations := ["Example.safe"]
  baseImports := ["Init"]
  proofBaseImports := []
  proofBaseInterface := []
  ownerModules := ["Example"]
  declarations := [⟨"Example.safe", safeKind proven, "Example", [], some ⟨1, 0, 0, 1, 40, 40⟩⟩]

theorem check_safeFields : ∀ proven, (safeFields proven).check = .ok () := by
  decide +kernel

def safeClosure (proven : Bool) : LeanDeclarationClosure :=
  ⟨safeFields proven, check_safeFields proven⟩

def noMessages : Messages := ⟨[], [], []⟩

def safeExtraction (proven : Bool) : Extraction where
  documents := [⟨"Example.safe", safeKind proven, "Example.safe", [], [], []⟩]
  leanMessages := noMessages
  toolMessages := noMessages

def safeReplies (proven : Bool) : Replies where
  extracted := safeExtraction proven
  roundtrip := safeExtraction proven
  statement := ⟨"Example.safe", ⟨.null, JsonTree.canonical_null⟩, noMessages, noMessages⟩
  verified := ⟨true, [], ⟨.null, JsonTree.canonical_null⟩, ⟨.null, JsonTree.canonical_null⟩,
    noMessages, noMessages⟩

def safeArgs : Args where
  environment := "lean-4.31.0"
  rootModule := "Example"
  rootDeclarations := ["Example.safe"]
  baseImports := []
  proofBaseImports := []
  leanExportTimeoutSeconds := 60
  axleOperationTimeoutSeconds := 30
  axleBaseTimeoutSeconds := 10

def safeCompose (_ : LeanDeclarationClosure) (_ : List LeanOwnerSource) : Except EmitError String :=
  .ok "Example.safe"

def safeManifest : LakeManifest := ⟨[], .ofFields [("name", .string "poo-flow-proof")]⟩

theorem names_safe : ∀ proven, sourceDeclarationAliases (safeClosure proven) =
      .ok [("Example.safe", "Example.safe")] ∧
    sourceNames (safeClosure proven) [("Example.safe", "Example.safe")]
      (safeExtraction proven).documents = .ok ["Example.safe"] ∧
    roundtripNames (safeClosure proven) [("Example.safe", "Example.safe")]
      (safeExtraction proven).documents = ["Example.safe"] := by
  decide +kernel

theorem run_safe : ∀ proven, ∃ artifact, run textCodec lengthHash textCodec.dumps safeCompose
    safeArgs (safeClosure proven) [safeSource] safeManifest (safeReplies proven) = .ok artifact := by
  decide +kernel

theorem canonical_safe : ∀ proven artifact, run textCodec lengthHash textCodec.dumps safeCompose
      safeArgs (safeClosure proven) [safeSource] safeManifest (safeReplies proven) = .ok artifact →
    artifact.Canonical := by
  decide +kernel

theorem agreeable_safe : Agreeable (safeClosure true) (safeReplies true) := by
  obtain ⟨hnames, -, hroundtrip⟩ := names_safe true
  refine ⟨fun aliases haliases root hroot => ?_, ?_, nodup_singleton _, rfl⟩
  · obtain rfl := Except.ok.inj (hnames.symm.trans haliases)
    exact hroundtrip ▸ hroot
  · exact ⟨"Example.safe", mem_singleton_self _, _, rfl, rfl⟩

/-- **Agreement**: the reader accepts an artifact that a run has written exactly when the
closure and the replies are agreeable. -/
theorem artifact_accepted_iff (codec : Codec) {sha256 : List UInt8 → List UInt8}
    (hlength : ∀ payload, (sha256 payload).length = 32) (asciiDumps : JsonTree → List UInt8)
    (compose : LeanDeclarationClosure → List LeanOwnerSource → Except EmitError String)
    {args : Args} {closure : LeanDeclarationClosure} {sources : List LeanOwnerSource}
    {manifest : LakeManifest} {replies : Replies} {artifact : JsonTree} {bytes : List UInt8}
    (hrun : run codec sha256 asciiDumps compose args closure sources manifest replies =
      .ok artifact) (hbytes : codec.loads bytes = .ok artifact) :
    (∃ parsed, parseAxleClosureArtifact codec sha256 bytes false = .ok parsed) ↔
      Agreeable closure replies := by
  obtain ⟨exact, bundle, aliases, names, kinds, hbuilt, hbundled, rfl⟩ := run_ok hrun
  have hcovering := hbuilt.roots.imp fun _ _ h => h.1
  rw [accepted_iff_parts hlength hbuilt hbundled hbytes, kinds_theorem_iff hbuilt.kinds_eq]
  constructor
  · rintro ⟨hproven, hall, hbase, himports⟩
    rw [covering_eq hcovering hall] at hproven
    refine ⟨fun aliases' haliases root hroot => ?_, hproven, hbase, himports⟩
    obtain rfl := Except.ok.inj (hbuilt.aliased.symm.trans haliases)
    exact (hbuilt.roundtrip root).2 (hall root hroot)
  · intro h
    have hall : ∀ root ∈ closure.rootDeclarations, root ∈ names := fun root hroot =>
      (hbuilt.roundtrip root).1 (h.own aliases hbuilt.aliased root hroot)
    refine ⟨?_, hall, h.baseImports, h.proofBaseImports⟩
    rw [covering_eq hcovering hall]
    exact h.proven

theorem safe_accepted :
    ∃ artifact, run textCodec lengthHash textCodec.dumps safeCompose safeArgs (safeClosure true)
        [safeSource] safeManifest (safeReplies true) = .ok artifact ∧
      ∃ parsed, parseAxleClosureArtifact textCodec lengthHash (textCodec.dumps artifact) false =
        .ok parsed := by
  obtain ⟨artifact, hrun⟩ := run_safe true
  exact ⟨artifact, hrun, (artifact_accepted_iff textCodec length_lengthHash textCodec.dumps
    safeCompose hrun (textCodec.loads_dumps (canonical_safe true artifact hrun))).2 agreeable_safe⟩

/-- That of a root that is a definition is written, and refused. -/
theorem definition_refused :
    ∃ artifact, run textCodec lengthHash textCodec.dumps safeCompose safeArgs (safeClosure false)
        [safeSource] safeManifest (safeReplies false) = .ok artifact ∧
      ¬∃ parsed, parseAxleClosureArtifact textCodec lengthHash (textCodec.dumps artifact) false =
        .ok parsed := by
  obtain ⟨artifact, hrun⟩ := run_safe false
  refine ⟨artifact, hrun, fun haccepted => ?_⟩
  have hbytes := textCodec.loads_dumps (canonical_safe false artifact hrun)
  obtain ⟨exact, bundle, aliases, names, kinds, hbuilt, hbundled, rfl⟩ := run_ok hrun
  obtain ⟨hproven, -⟩ := (accepted_iff_parts length_lengthHash hbuilt hbundled hbytes).1 haccepted
  obtain ⟨_, -, document, hdocument, hkind⟩ := (kinds_theorem_iff hbuilt.kinds_eq).1 hproven
  have hmem := mem_of_find?_eq_some hdocument
  obtain rfl := mem_singleton.1 hmem
  exact absurd hkind (by decide)

end PooFlow.Axle