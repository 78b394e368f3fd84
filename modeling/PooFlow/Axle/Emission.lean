import PooFlow.Axle.Closure

/-! The artifact of `axle_closure_verify.py`, after `axle_exact_closure.py` and
`independent_bundle.py`. The replies of the tools, the exporter's answer and the owner sources are
given. -/

namespace PooFlow.Axle

open Foundation Proof

structure Messages where
  errors : List String
  warnings : List String
  infos : List String

def Messages.payload (messages : Messages) : JsonTree :=
  .ofFields [("errors", texts messages.errors), ("warnings", texts messages.warnings),
    ("infos", texts messages.infos)]

structure Extraction where
  documents : List Document
  leanMessages : Messages
  toolMessages : Messages

structure Statement where
  content : String
  info : CanonicalTree
  leanMessages : Messages
  toolMessages : Messages

structure Verification where
  okay : Bool
  failedDeclarations : List String
  info : CanonicalTree
  timings : CanonicalTree
  leanMessages : Messages
  toolMessages : Messages

structure Replies where
  extracted : Extraction
  roundtrip : Extraction
  statement : Statement
  verified : Verification

def requireClean (leanMessages toolMessages : Messages) (operation : String) :
    Except EmitError Unit :=
  guardElse (leanMessages.errors ++ toolMessages.errors = [])
    ⟨"axle-projection-failed", operation :: (leanMessages.errors ++ toolMessages.errors)⟩

structure LeanOwnerSource where
  moduleName : String
  ownerPath : String
  sourceDigest : String

structure SourceDeclaration where
  name : String
  kind : String
  localDependencies : List String

structure ExactAxleClosure where
  leanClosureDigest : String
  environment : String
  rootDeclarations : List String
  sourceDeclarations : List String
  declarations : List SourceDeclaration
  canonicalSource : String
  theorem2sorryReceipt : JsonTree
  verification : JsonTree

def SourceDeclaration.record (declaration : SourceDeclaration) : JsonTree :=
  .ofFields [("name", .string declaration.name), ("kind", .string declaration.kind),
    ("local_dependencies", texts declaration.localDependencies)]

section

variable (codec : Codec) (sha256 : List UInt8 → List UInt8)

namespace ExactAxleClosure

variable (exact : ExactAxleClosure)

def canonicalSourceDigest : String := sha256Digest sha256 (utf8 exact.canonicalSource)

def identityFields : List (String × JsonTree) :=
  [("schema_id", .string "poo-flow.axle-exact-declaration-closure.v1"),
    ("lean_closure_digest", .string exact.leanClosureDigest),
    ("environment", .string exact.environment),
    ("root_declarations", texts exact.rootDeclarations),
    ("source_declarations", texts exact.sourceDeclarations),
    ("declarations", .array (exact.declarations.map SourceDeclaration.record)),
    ("canonical_source_digest", .string (exact.canonicalSourceDigest sha256))]

def bundleDigest : String :=
  sha256Digest sha256 (codec.dumps (.ofFields (exact.identityFields sha256)))

def canonicalManifest : JsonTree :=
  .ofFields (exact.identityFields sha256 ++
    [("bundle_digest", .string (exact.bundleDigest codec sha256)),
      ("canonical_source", .string exact.canonicalSource),
      ("theorem2sorry", exact.theorem2sorryReceipt), ("verification", exact.verification)])

end ExactAxleClosure

def rootDeclarationKinds (documents : List Document) (roots : List String) :
    Except EmitError (List (String × String)) :=
  roots.eraseDups.mapM fun root => do
    let document ← presentElse (byName documents root) ⟨"KeyError", [root]⟩
    return (root, document.kind)

def kindsRecord (kinds : List (String × String)) : JsonTree :=
  .ofFields (kinds.map fun kind => (kind.1, .string kind.2))

def theoremReceipts (replies : Replies) (theoremRoots : List String)
    (kinds : List (String × String)) : Except EmitError (JsonTree × JsonTree) := do
  requireClean replies.statement.leanMessages replies.statement.toolMessages
    "theorem2sorry exact closure roots"
  let verified := replies.verified
  requireClean verified.leanMessages verified.toolMessages "verify exact declaration closure"
  guardElse (verified.okay = true ∧ verified.failedDeclarations = [])
    ⟨"exact-proof-verification-failed", verified.failedDeclarations⟩
  return (.ofFields [("schema_id", .string "poo-flow.axle-root-theorem-obligation.v1"),
      ("status", .string "generated"), ("root_declarations", texts theoremRoots),
      ("root_declaration_kinds", kindsRecord kinds), ("request", replies.statement.info.1),
      ("messages", .ofFields [("lean", replies.statement.leanMessages.payload),
        ("tool", replies.statement.toolMessages.payload)])],
    .ofFields [("schema_id", .string "poo-flow.axle-root-declaration-validation.v1"),
      ("status", .string "accepted"), ("roundtrip", .string "accepted"),
      ("theorem_proof", .string "accepted"), ("okay", .bool verified.okay),
      ("failed_declarations", texts verified.failedDeclarations),
      ("lean_messages", verified.leanMessages.payload),
      ("tool_messages", verified.toolMessages.payload), ("timings", verified.timings.1),
      ("request", verified.info.1)])

def plainReceipts (roots : List String) (kinds : List (String × String)) : JsonTree × JsonTree :=
  (.ofFields [("schema_id", .string "poo-flow.axle-root-theorem-obligation.v1"),
      ("status", .string "not-applicable"), ("root_declarations", texts []),
      ("root_declaration_kinds", kindsRecord kinds)],
    .ofFields [("schema_id", .string "poo-flow.axle-root-declaration-validation.v1"),
      ("status", .string "accepted"), ("roundtrip", .string "accepted"),
      ("theorem_proof", .string "not-applicable"), ("okay", .bool true),
      ("failed_declarations", texts []), ("lean_messages", texts []),
      ("tool_messages", texts []), ("timings", .ofFields []),
      ("request", .ofFields [("root_declarations", texts roots),
        ("root_declaration_kinds", kindsRecord kinds)])])

def receipts (replies : Replies) (roots : List String) (kinds : List (String × String)) :
    Except EmitError (JsonTree × JsonTree) :=
  let theoremRoots := (kinds.filter (·.2 = "theorem")).map Prod.fst
  if theoremRoots ≠ [] then theoremReceipts replies theoremRoots kinds
  else .ok (plainReceipts roots kinds)

def sourceNames (closure : LeanDeclarationClosure) (aliases : List (String × String))
    (documents : List Document) : Except EmitError (List String) := do
  let names ← sourceDeclarationClosure closure.names closure.rootDeclarations documents aliases
  return names.filter (· ∉ closure.proofBaseNames)

def roundtripNames (closure : LeanDeclarationClosure) (aliases : List (String × String))
    (documents : List Document) : List String :=
  (documents.map fun document => normalizedSourceDeclarationName aliases document.name).filter
    (· ∉ closure.proofBaseNames)

def sourceDeclaration (documents : List Document) (name : String) :
    Except EmitError SourceDeclaration := do
  let document ← presentElse (byName documents name) ⟨"KeyError", [name]⟩
  return {
    name
    kind := document.kind
    localDependencies := document.dependencies.filter fun dependency =>
      (byName documents dependency).isSome }

/-- `str.isspace` of one character. -/
def isBlank (c : Char) : Bool :=
  let code := c.toNat
  (9 ≤ code && code ≤ 13) || (28 ≤ code && code ≤ 32) || code = 0x85 || code = 0xa0 ||
    code = 0x1680 || (0x2000 ≤ code && code ≤ 0x200a) || code = 0x2028 || code = 0x2029 ||
    code = 0x202f || code = 0x205f || code = 0x3000

/-- Nothing is left of a text by `strip`. -/
def blank (text : String) : Bool := text.toList.all isBlank

def rootPackage (moduleName : String) : String := firstPart moduleName '.'

def buildExactAxleClosure
    (compose : LeanDeclarationClosure → List LeanOwnerSource → Except EmitError String)
    (closure : LeanDeclarationClosure) (sources : List LeanOwnerSource) (environment : String)
    (replies : Replies) (operationTimeout baseTimeout : ℤ) : Except EmitError ExactAxleClosure := do
  guardElse (0 < operationTimeout ∧ 0 < baseTimeout) ⟨"invalid-axle-timeout", []⟩
  -- a module of another package belongs to a proof base, and is refused
  let external := (sources.map LeanOwnerSource.moduleName).filter fun moduleName =>
    rootPackage moduleName ≠ rootPackage closure.rootModule
  guardElse (external = []) ⟨"external-proof-base-required", sortOn id external.dedup⟩
  let canonicalSource ← compose closure sources
  requireClean replies.extracted.leanMessages replies.extracted.toolMessages
    "extract composed owner sources"
  let aliases ← sourceDeclarationAliases closure
  let names ← sourceNames closure aliases replies.extracted.documents
  let roots ← closure.rootDeclarations.mapM fun root =>
    presentElse ((coveringDocument root names).filter (· ≠ ""))
      ⟨"root-without-source-declaration", [root]⟩
  requireClean replies.roundtrip.leanMessages replies.roundtrip.toolMessages
    "extract exact merged closure"
  -- the merged source must declare what the parts declared, and nothing else
  let documents := replies.roundtrip.documents
  let actual := roundtripNames closure aliases documents
  guardElse ((∀ name ∈ actual, name ∈ names) ∧ ∀ name ∈ names, name ∈ actual)
    ⟨"exact-roundtrip-mismatch",
      sortOn id (names.filter (· ∉ actual)).dedup ++ sortOn id (actual.filter (· ∉ names)).dedup⟩
  let kinds ← rootDeclarationKinds documents roots
  guardElse (kinds.all fun kind => !blank kind.2) ⟨"invalid-root-declaration-kind", []⟩
  let (theorem2sorryReceipt, verification) ← receipts replies roots kinds
  -- names of the proof base follow, where the merged source shows them
  let exactNames := (names ++ (sortOn id closure.proofBaseNames.dedup).filter fun name =>
    (byName documents name).isSome).eraseDups
  let declarations ← exactNames.mapM (sourceDeclaration documents)
  return {
    leanClosureDigest := sha256Digest sha256 (codec.dumps closure.canonicalManifest)
    environment
    rootDeclarations := roots
    sourceDeclarations := names
    declarations
    canonicalSource
    theorem2sorryReceipt
    verification }

structure AxleEnvironmentIdentity where
  name : String
  leanToolchain : String
  imports : List String
  repoUrl : Option String
  revision : Option String
  subdir : Option String

def AxleEnvironmentIdentity.canonicalRecord (environment : AxleEnvironmentIdentity) : JsonTree :=
  .ofFields [("imports", texts environment.imports),
    ("lean_toolchain", .string environment.leanToolchain), ("name", .string environment.name),
    ("repo_url", optional environment.repoUrl), ("revision", optional environment.revision),
    ("subdir", optional environment.subdir)]

structure ResolvedSourceIdentity where
  packageId : String
  revision : String
  sourceTreeDigest : String
  lakeManifestDigest : String

def ResolvedSourceIdentity.canonicalRecord (source : ResolvedSourceIdentity) : JsonTree :=
  .ofFields [("lake_manifest_digest", .string source.lakeManifestDigest),
    ("package_id", .string source.packageId), ("revision", .string source.revision),
    ("source_tree_digest", .string source.sourceTreeDigest)]

structure DeclarationIdentity where
  name : String
  kind : String
  ownerPath : String
  ownerSourceDigest : String
  localDependencies : List String
deriving DecidableEq

def DeclarationIdentity.canonicalRecord (declaration : DeclarationIdentity) : JsonTree :=
  .ofFields [("kind", .string declaration.kind),
    ("local_dependencies", texts (sortOn id declaration.localDependencies)),
    ("name", .string declaration.name), ("owner_path", .string declaration.ownerPath),
    ("owner_source_digest", .string declaration.ownerSourceDigest)]

structure ProofBaseInterfaceDeclarationIdentity where
  name : String
  kind : String
  levelParams : List String
  typeSource : String
  valueSource : Option String
  localDependencies : List String

def ProofBaseInterfaceDeclarationIdentity.canonicalRecord
    (declaration : ProofBaseInterfaceDeclarationIdentity) : JsonTree :=
  .ofFields [("kind", .string declaration.kind), ("level_params", texts declaration.levelParams),
    ("local_dependencies", texts (sortOn id declaration.localDependencies)),
    ("name", .string declaration.name), ("type_source", .string declaration.typeSource),
    ("value_source", optional declaration.valueSource)]

def ProofBaseInterfaceDeclarationIdentity.interfaceRecord
    (declaration : ProofBaseInterfaceDeclarationIdentity) : JsonTree :=
  .ofFields [("level_params", texts declaration.levelParams), ("name", .string declaration.name),
    ("type_source", .string declaration.typeSource),
    ("value_source", optional declaration.valueSource)]

def requireText (value label : String) : Except EmitError Unit :=
  guardElse (value ≠ "" ∧ blank value = false) ⟨"missing-field", [label]⟩

def requireSha256 (value label : String) : Except EmitError Unit :=
  guardElse (isSha256Digest value = true) ⟨"invalid-digest", [label]⟩

def requireOwnerPath (value label : String) : Except EmitError Unit := do
  requireText value label
  guardElse (startsWith value "/" = false ∧ "..".toList ∉ value.toList.splitOn '/')
    ⟨"invalid-owner-path", [label]⟩

def AxleEnvironmentIdentity.check (environment : AxleEnvironmentIdentity) :
    Except EmitError Unit := do
  requireText environment.name "environment.name"
  requireText environment.leanToolchain "environment.lean_toolchain"
  guardElse (environment.imports ≠ []) ⟨"missing-environment-imports", ["environment.imports"]⟩
  environment.imports.zipIdx.forM fun importLine =>
    requireText importLine.1 ("environment.imports[" ++ toString importLine.2 ++ "]")
  match environment.repoUrl with
  | none =>
    guardElse (environment.revision = none ∧ environment.subdir = none)
      ⟨"incomplete-environment-source",
        ["repo_url is required when revision or subdir is present"]⟩
  | some repoUrl => do
    requireText repoUrl "environment.repo_url"
    let revision ← presentElse environment.revision ⟨"incomplete-environment-source",
      ["revision is required for a project-aware environment"]⟩
    requireText revision "environment.revision"

def ResolvedSourceIdentity.check (source : ResolvedSourceIdentity) : Except EmitError Unit := do
  requireText source.packageId "resolved_source.package_id"
  requireText source.revision "resolved_source.revision"
  requireSha256 source.sourceTreeDigest "resolved_source.source_tree_digest"
  requireSha256 source.lakeManifestDigest "resolved_source.lake_manifest_digest"

def DeclarationIdentity.check (declaration : DeclarationIdentity) : Except EmitError Unit := do
  requireText declaration.name "declaration.name"
  requireText declaration.kind ("declaration[" ++ declaration.name ++ "].kind")
  requireOwnerPath declaration.ownerPath ("declaration[" ++ declaration.name ++ "].owner_path")
  requireSha256 declaration.ownerSourceDigest
    ("declaration[" ++ declaration.name ++ "].owner_source_digest")
  guardElse (declaration.name ∉ declaration.localDependencies)
    ⟨"self-dependency", [declaration.name]⟩
  guardElse declaration.localDependencies.Nodup ⟨"duplicate-dependency", [declaration.name]⟩
  declaration.localDependencies.forM fun dependency =>
    requireText dependency ("declaration[" ++ declaration.name ++ "].local_dependencies")

def ProofBaseInterfaceDeclarationIdentity.check
    (declaration : ProofBaseInterfaceDeclarationIdentity) : Except EmitError Unit := do
  requireText declaration.name "proof_base_declaration.name"
  let label := "proof_base_declaration[" ++ declaration.name ++ "]"
  requireText declaration.kind (label ++ ".kind")
  requireText declaration.typeSource (label ++ ".type_source")
  (declaration.valueSource.toList).forM fun value => requireText value (label ++ ".value_source")
  guardElse declaration.levelParams.Nodup
    ⟨"proof-base-duplicate-level-parameter", [declaration.name]⟩
  declaration.levelParams.forM fun levelParam =>
    requireText levelParam (label ++ ".level_params")
  guardElse (declaration.name ∉ declaration.localDependencies)
    ⟨"proof-base-self-dependency", [declaration.name]⟩
  guardElse declaration.localDependencies.Nodup
    ⟨"proof-base-duplicate-dependency", [declaration.name]⟩
  declaration.localDependencies.forM fun dependency =>
    requireText dependency (label ++ ".local_dependencies")

structure IndependentDeclarationBundle where
  rootModule : String
  rootDeclarations : List String
  leanToolchain : String
  axleEnvironment : AxleEnvironmentIdentity
  resolvedSources : List ResolvedSourceIdentity
  proofBaseImports : List String
  proofBaseInterfaceDigest : String
  proofBaseDeclarations : List ProofBaseInterfaceDeclarationIdentity
  declarations : List DeclarationIdentity
  canonicalSource : String

variable (asciiDumps : JsonTree → List UInt8)

/-- `canonical_proof_base_interface_digest`, over the encoding that escapes all but ASCII. -/
def canonicalProofBaseInterfaceDigest (proofBaseImports : List String)
    (declarations : List ProofBaseInterfaceDeclarationIdentity) : String :=
  sha256Digest sha256 (asciiDumps (.ofFields
    [("declarations", .array (declarations.map (·.interfaceRecord))),
      ("imports", texts proofBaseImports)]))

def checkOrder (complete : List String) :
    List String → List (String × List String) → Except EmitError Unit
  | _, [] => .ok ()
  | emitted, (name, dependencies) :: declarations => do
    dependencies.forM fun dependency => do
      guardElse (dependency ∈ complete) ⟨"missing-local-dependency", [name, dependency]⟩
      guardElse (dependency ∈ emitted) ⟨"non-topological-order", [name, dependency]⟩
    checkOrder complete (name :: emitted) declarations

namespace IndependentDeclarationBundle

variable (bundle : IndependentDeclarationBundle)

/-- `IndependentDeclarationBundle.__post_init__` -/
def check : Except EmitError Unit := do
  requireText bundle.rootModule "root_module"
  requireText bundle.leanToolchain "lean_toolchain"
  guardElse (bundle.leanToolchain = bundle.axleEnvironment.leanToolchain)
    ⟨"toolchain-mismatch", []⟩
  guardElse (bundle.rootDeclarations ≠ []) ⟨"missing-root-declaration", [bundle.rootModule]⟩
  guardElse bundle.rootDeclarations.Nodup ⟨"duplicate-root-declaration", [bundle.rootModule]⟩
  guardElse (bundle.resolvedSources ≠ []) ⟨"missing-resolved-source", [bundle.rootModule]⟩
  guardElse (bundle.resolvedSources.map (·.packageId)).Nodup
    ⟨"ambiguous-resolved-source", [bundle.rootModule]⟩
  guardElse bundle.proofBaseImports.Nodup ⟨"duplicate-proof-base-import", [bundle.rootModule]⟩
  bundle.proofBaseImports.forM fun proofBaseImport =>
    requireText proofBaseImport "proof_base_imports"
  requireSha256 bundle.proofBaseInterfaceDigest "proof_base_interface_digest"
  guardElse (bundle.proofBaseImports = [] ↔ bundle.proofBaseDeclarations = [])
    ⟨"proof-base-interface-mismatch", [bundle.rootModule]⟩
  guardElse (bundle.proofBaseInterfaceDigest = canonicalProofBaseInterfaceDigest sha256 asciiDumps
      bundle.proofBaseImports bundle.proofBaseDeclarations)
    ⟨"proof-base-interface-digest-mismatch", [bundle.rootModule]⟩
  guardElse (bundle.declarations ≠ []) ⟨"missing-declaration-closure", [bundle.rootModule]⟩
  -- the names of both kinds are distinct, and apart from each other
  let proofBase := bundle.proofBaseDeclarations.map (·.name)
  let names := bundle.declarations.map (·.name)
  guardElse proofBase.Nodup ⟨"duplicate-proof-base-declaration", [bundle.rootModule]⟩
  guardElse names.Nodup ⟨"duplicate-declaration", [bundle.rootModule]⟩
  guardElse (∀ name ∈ proofBase, name ∉ names)
    ⟨"proof-base-source-declaration-overlap", [bundle.rootModule]⟩
  bundle.rootDeclarations.forM fun root =>
    guardElse (root ∈ names) ⟨"root-outside-closure", [root]⟩
  -- a declaration may use those before it only
  checkOrder (proofBase ++ names) []
    (bundle.proofBaseDeclarations.map (fun d => (d.name, d.localDependencies)) ++
      bundle.declarations.map fun d => (d.name, d.localDependencies))
  requireText bundle.canonicalSource "canonical_source"

def canonicalSourceDigest : String := sha256Digest sha256 (utf8 bundle.canonicalSource)

def canonicalManifest : JsonTree :=
  .ofFields [("axle_environment", bundle.axleEnvironment.canonicalRecord),
    ("canonical_source_digest", .string (bundle.canonicalSourceDigest sha256)),
    ("declarations", .array (bundle.declarations.map DeclarationIdentity.canonicalRecord)),
    ("lean_toolchain", .string bundle.leanToolchain),
    ("proof_base_declarations", .array
      (bundle.proofBaseDeclarations.map ProofBaseInterfaceDeclarationIdentity.canonicalRecord)),
    ("proof_base_imports", texts (sortOn id bundle.proofBaseImports)),
    ("proof_base_interface_digest", .string bundle.proofBaseInterfaceDigest),
    ("resolved_sources", .array ((sortOn ResolvedSourceIdentity.packageId
      bundle.resolvedSources).map ResolvedSourceIdentity.canonicalRecord)),
    ("root_declarations", texts (sortOn id bundle.rootDeclarations)),
    ("root_module", .string bundle.rootModule),
    ("schema_id", .string "poo-flow.independent-declaration-bundle.v1")]

def bundleDigest : String :=
  sha256Digest sha256
    (codec.dumps (bundle.canonicalManifest sha256) ++ [0] ++ utf8 bundle.canonicalSource)

end IndependentDeclarationBundle

/-- `lake-manifest.json` -/
structure LakeManifest where
  bytes : List UInt8
  value : JsonTree

def removeSuffix (name back : String) : String :=
  if endsWith name back then String.ofList (name.toList.take (name.length - back.length)) else name

def rootPackageId (manifest : JsonTree) : Except EmitError String :=
  match field manifest "name" with
  | .string name => do
    guardElse (name ≠ "") ⟨"lake-manifest-package-name-missing", ["lake-manifest.json"]⟩
    return removeSuffix (removePrefix name "«") "»"
  | _ => .error ⟨"lake-manifest-package-name-missing", ["lake-manifest.json"]⟩

def ownerSourceTreeDigest (sources : List LeanOwnerSource) : String :=
  sha256Digest sha256 (utf8 ("\n".intercalate
    ((sortOn LeanOwnerSource.ownerPath sources).map fun source =>
      source.ownerPath ++ String.ofList [Char.ofNat 0] ++ source.sourceDigest)))

def ownerSource (closure : LeanDeclarationClosure) (sources : List LeanOwnerSource)
    (name : String) : Except EmitError LeanOwnerSource :=
  let modules := ((closure.declarations.filter fun declaration =>
    belongsTo declaration.name name).map LeanDeclaration.ownerModule).eraseDups
  match modules with
  | [] => .error ⟨"source-declaration-owner-missing", [name]⟩
  | [moduleName] =>
    presentElse (sources.reverse.find? (·.moduleName = moduleName))
      ⟨"owner-module-source-missing", [moduleName]⟩
  | _ => .error ⟨"source-declaration-owner-ambiguous", name :: sortOn id modules⟩

def proofBaseIdentity (closure : LeanDeclarationClosure) (exact : ExactAxleClosure)
    (declaration : LeanProofBaseInterfaceDeclaration) : ProofBaseInterfaceDeclarationIdentity :=
  let found := exact.declarations.reverse.find? (·.name = declaration.name)
  { name := declaration.name
    kind := match found with
      | some exactDeclaration => exactDeclaration.kind
      | none =>
        if declaration.declarationRole ∈ ["abbrev", "definition"] then "def" else "axiom"
    levelParams := declaration.levelParams
    typeSource := declaration.typeSource
    valueSource := declaration.valueSource
    localDependencies := match found with
      | some exactDeclaration => sortOn id (exactDeclaration.localDependencies.filter
        fun dependency => dependency ∈ closure.proofBaseNames ∧ dependency ≠ declaration.name)
      | none => [] }

def ownedIdentity (closure : LeanDeclarationClosure) (sources : List LeanOwnerSource)
    (declaration : SourceDeclaration) : Except EmitError DeclarationIdentity := do
  let owner ← ownerSource closure sources declaration.name
  let identity : DeclarationIdentity := {
    name := declaration.name
    kind := declaration.kind
    ownerPath := owner.ownerPath
    ownerSourceDigest := owner.sourceDigest
    localDependencies := declaration.localDependencies }
  identity.check
  return identity

def normalizedIdentity (aliases : List (String × String)) (identity : DeclarationIdentity) :
    Except EmitError DeclarationIdentity := do
  let normalized := (identity.localDependencies.map
    (normalizedSourceDeclarationName aliases)).dedup.filter (· ≠ identity.name)
  let identity := { identity with localDependencies := sortOn id normalized }
  identity.check
  return identity

def declarationAliases (closure : LeanDeclarationClosure) :
    Except EmitError (List (String × String)) :=
  if closure.declarations.all fun declaration => declaration.sourceRange.isSome then
    sourceDeclarationAliases closure
  else .ok (closure.names.map fun name => (name, name))

def buildIndependentDeclarationBundle (closure : LeanDeclarationClosure)
    (exact : ExactAxleClosure) (sources : List LeanOwnerSource) (manifest : LakeManifest) :
    Except EmitError IndependentDeclarationBundle := do
  let sourceTreeDigest := ownerSourceTreeDigest sha256 sources
  let packageId ← rootPackageId manifest.value
  let resolved : ResolvedSourceIdentity := {
    packageId
    revision := "workspace:" ++ removePrefix sourceTreeDigest "sha256:"
    sourceTreeDigest
    lakeManifestDigest := sha256Digest sha256 manifest.bytes }
  resolved.check
  -- each exact declaration is of the sources or of the proof base
  let aliases ← declarationAliases closure
  let owned := exact.declarations.filter fun declaration =>
    normalizedSourceDeclarationName aliases declaration.name ∈ aliases.map Prod.snd
  let proofBase := exact.declarations.filter (·.name ∈ closure.proofBaseNames)
  let unclassified := (exact.declarations.map (·.name)).filter fun name =>
    name ∉ owned.map (·.name) ∧ name ∉ proofBase.map (·.name)
  guardElse (unclassified = []) ⟨"unclassified-exact-declaration", sortOn id unclassified⟩
  let proofBaseDeclarations := closure.proofBaseInterface.map (proofBaseIdentity closure exact)
  proofBaseDeclarations.forM ProofBaseInterfaceDeclarationIdentity.check
  let identities ← owned.mapM (ownedIdentity closure sources)
  let declarations ← identities.mapM (normalizedIdentity aliases)
  let axleEnvironment : AxleEnvironmentIdentity :=
    ⟨exact.environment, closure.leanVersion, closure.baseImports, none, none, none⟩
  axleEnvironment.check
  let bundle : IndependentDeclarationBundle := {
    rootModule := closure.rootModule
    rootDeclarations := exact.rootDeclarations
    leanToolchain := closure.leanVersion
    axleEnvironment
    resolvedSources := [resolved]
    proofBaseImports := closure.proofBaseImports
    proofBaseInterfaceDigest := canonicalProofBaseInterfaceDigest sha256 asciiDumps
      closure.proofBaseImports proofBaseDeclarations
    proofBaseDeclarations
    declarations
    canonicalSource := exact.canonicalSource }
  -- the constructor of the record checks it
  bundle.check sha256 asciiDumps
  return bundle

structure Args where
  environment : String
  rootModule : String
  rootDeclarations : List String
  baseImports : List String
  proofBaseImports : List String
  leanExportTimeoutSeconds : ℤ
  axleOperationTimeoutSeconds : ℤ
  axleBaseTimeoutSeconds : ℤ

/-- The checks of `export_declaration_closure` on the exporter's answer. -/
def checkExport (args : Args) (closure : LeanDeclarationClosure) : Except EmitError Unit := do
  guardElse (args.rootDeclarations ≠ []) ⟨"missing-root-declaration", [args.rootModule]⟩
  guardElse (0 < args.leanExportTimeoutSeconds) ⟨"invalid-lean-export-timeout", []⟩
  guardElse (closure.rootModule = args.rootModule)
    ⟨"root-module-mismatch", [args.rootModule, closure.rootModule]⟩
  guardElse (closure.rootDeclarations = args.rootDeclarations)
    ⟨"root-declaration-mismatch", [args.rootModule]⟩
  guardElse (closure.baseImports = "Init" :: args.baseImports.filter (· ≠ "Init"))
    ⟨"base-import-mismatch", [args.rootModule]⟩
  guardElse (closure.proofBaseImports = args.proofBaseImports)
    ⟨"proof-base-import-mismatch", [args.rootModule]⟩

def verifyEnvironment (closure : LeanDeclarationClosure) (environment : String) :
    Except EmitError Unit :=
  guardElse (startsWith environment "lean-" = true →
      removePrefix environment "lean-" = closure.leanVersion)
    ⟨"axle-environment-toolchain-mismatch", [environment, closure.leanVersion]⟩

def preflightReceipt (closure : LeanDeclarationClosure) (sources : List LeanOwnerSource)
    (args : Args) : JsonTree :=
  .ofFields [("axle_environment", .string args.environment),
    ("axle_base_timeout_seconds", .number args.axleBaseTimeoutSeconds),
    ("axle_operation_timeout_seconds", .number args.axleOperationTimeoutSeconds),
    ("lean_export_timeout_seconds", .number args.leanExportTimeoutSeconds),
    ("proof_base_imports", texts closure.proofBaseImports),
    ("proof_base_interface_count", .number closure.proofBaseInterface.length),
    ("closure_digest", .string (sha256Digest sha256 (codec.dumps closure.canonicalManifest))),
    ("declaration_count", .number closure.declarations.length),
    ("owner_sources", .array (sources.map fun source =>
      .ofFields [("module", .string source.moduleName), ("owner_path", .string source.ownerPath),
        ("source_digest", .string source.sourceDigest)])),
    ("root_declarations", texts closure.rootDeclarations),
    ("root_module", .string closure.rootModule),
    ("schema_id", .string "poo-flow.axle-closure-preflight.v1")]

def artifactOf (closure : LeanDeclarationClosure) (preflight : JsonTree)
    (exact : ExactAxleClosure) (bundle : IndependentDeclarationBundle) : JsonTree :=
  .ofFields [("closure", closure.canonicalManifest), ("preflight", preflight),
    ("exact_bundle", exact.canonicalManifest codec sha256),
    ("exact_bundle_digest", .string (exact.bundleDigest codec sha256)),
    ("independent_declaration_bundle", bundle.canonicalManifest sha256),
    ("independent_declaration_bundle_digest", .string (bundle.bundleDigest codec sha256))]

/-- `run`, as far as the artifact that is written: the exporter's answer, the owner sources,
their composition, the lake manifest and the replies of the tools are given. -/
def run (compose : LeanDeclarationClosure → List LeanOwnerSource → Except EmitError String)
    (args : Args) (closure : LeanDeclarationClosure) (sources : List LeanOwnerSource)
    (manifest : LakeManifest) (replies : Replies) : Except EmitError JsonTree := do
  checkExport args closure
  verifyEnvironment closure args.environment
  let exact ← buildExactAxleClosure codec sha256 compose closure sources args.environment replies
    args.axleOperationTimeoutSeconds args.axleBaseTimeoutSeconds
  let bundle ← buildIndependentDeclarationBundle sha256 asciiDumps closure exact sources manifest
  return artifactOf codec sha256 closure (preflightReceipt codec sha256 closure sources args)
    exact bundle

end

end PooFlow.Axle
