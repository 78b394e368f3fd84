import PooFlow.Axle.Receipt

namespace PooFlow.Axle

open Foundation Proof List JsonTree
open Except (ok.inj)

/-- The value that a path of keys leads to. -/
def valueAt (tree : JsonTree) (path : List String) : JsonTree := path.foldl field tree

/-- The fields that an accepted receipt shares with the fresh one. -/
def boundPaths : List (List String) :=
  [["closure", "root_module"], ["closure", "root_declarations"], ["closure", "base_imports"],
    ["closure", "proof_base_imports"], ["closure", "schema_id"],
    ["preflight", "root_module"], ["preflight", "proof_base_imports"],
    ["preflight", "schema_id"],
    ["exact_bundle", "environment"], ["exact_bundle", "canonical_source"],
    ["exact_bundle", "canonical_source_digest"], ["exact_bundle", "declarations"],
    ["exact_bundle", "source_declarations"], ["exact_bundle", "bundle_digest"],
    ["exact_bundle", "schema_id"], ["exact_bundle", "verification", "schema_id"],
    ["exact_bundle", "verification", "status"], ["exact_bundle", "verification", "okay"],
    ["exact_bundle", "verification", "failed_declarations"], ["exact_bundle_digest"],
    ["independent_declaration_bundle", "root_module"],
    ["independent_declaration_bundle", "proof_base_imports"],
    ["independent_declaration_bundle", "resolved_sources"],
    ["independent_declaration_bundle", "canonical_source_digest"],
    ["independent_declaration_bundle", "schema_id"],
    ["independent_declaration_bundle_digest"]]

/-- The root declarations of the other sections, which are compared up to their order. -/
def rootPaths : List (List String) :=
  [["preflight", "root_declarations"], ["exact_bundle", "root_declarations"],
    ["independent_declaration_bundle", "root_declarations"]]

/-- The fields of an artifact that ask for its own verification. -/
def Requests (artifact : JsonTree) (request : AxleClosureVerificationRequest) : Prop :=
  valueAt artifact ["exact_bundle", "environment"] = .string request.environment ∧
    valueAt artifact ["closure", "root_module"] = .string request.rootModule ∧
      valueAt artifact ["closure", "root_declarations"] =
          .array (request.rootDeclarations.map .string) ∧
        valueAt artifact ["closure", "base_imports"] =
            .array (request.baseImports.map .string) ∧
          valueAt artifact ["closure", "proof_base_imports"] =
            .array (request.proofBaseImports.map .string)

def fieldPaths : List (List String) :=
  closureKeys.map (["closure", ·]) ++ preflightKeys.map (["preflight", ·]) ++
    (exactBundleKeys.filter (· ∉ ["theorem2sorry", "verification"])).map (["exact_bundle", ·]) ++
    theorem2sorryKeys.map (["exact_bundle", "theorem2sorry", ·]) ++
    verificationKeys.map (["exact_bundle", "verification", ·]) ++
    independentBundleKeys.map (["independent_declaration_bundle", ·]) ++
    [["exact_bundle_digest"], ["independent_declaration_bundle_digest"]]

/-- The fields that no component of the identity covers. -/
def freePaths : List (List String) :=
  fieldPaths.filter fun path => path ∉ boundPaths ∧ path ∉ rootPaths

section

variable {label text : String} {value : JsonTree}

theorem string_ok (h : string label value = .ok text) : value = .string text := by
  cases value with
  | string other =>
    obtain ⟨-, hreturn⟩ := then_eq_ok.1 h
    rw [ok.inj hreturn]
  | _ => cases h

theorem strings_ok {items : List JsonTree} {texts : List String}
    (h : items.mapM (string label) = .ok texts) : items = texts.map .string := by
  induction items generalizing texts with
  | nil =>
    cases h
    rfl
  | cons item items ih =>
    rw [mapM_cons] at h
    obtain ⟨text, htext, h⟩ := bind_eq_ok.1 h
    obtain ⟨rest, hrest, h⟩ := bind_eq_ok.1 h
    cases h
    rw [map_cons, string_ok htext, ih hrest]

theorem stringTuple_ok {texts : List String} (h : stringTuple label value = .ok texts) :
    value = .array (texts.map .string) := by
  cases value with
  | array items =>
    obtain ⟨result, hresult, h⟩ := bind_eq_ok.1 h
    obtain ⟨-, h⟩ := then_eq_ok.1 h
    cases h
    rw [strings_ok hresult]
  | _ => cases h

theorem digest_ok (h : digest label value = .ok text) : value = .string text := by
  obtain ⟨found, hfound, h⟩ := bind_eq_ok.1 h
  obtain ⟨-, h⟩ := then_eq_ok.1 h
  cases h
  exact string_ok hfound

theorem isText_iff : isText value text = true ↔ value = .string text := by
  cases value with
  | string other =>
    rw [isText, decide_eq_true_eq]
    exact ⟨fun h => (by rw [h]), string.inj⟩
  | _ => exact ⟨fun h => (by cases h), fun h => (by cases h)⟩

theorem isTrue_iff : isTrue value = true ↔ value = .bool true := by
  cases value with
  | bool other =>
    rw [isTrue]
    exact ⟨fun h => (by rw [h]), bool.inj⟩
  | _ => exact ⟨fun h => (by cases h), fun h => (by cases h)⟩

theorem isEmptyArray_iff : isEmptyArray value = true ↔ value = .array [] := by
  cases value with
  | array items =>
    rw [isEmptyArray, List.isEmpty_iff]
    exact ⟨fun h => (by rw [h]), array.inj⟩
  | _ => exact ⟨fun h => (by cases h), fun h => (by cases h)⟩

def RootsAt (value : JsonTree) (roots : List String) : Prop :=
  ∃ texts : List String, value = .array (texts.map .string) ∧ texts.Perm roots

namespace Sections

variable {s : Sections}

theorem schema_of_check {value : JsonTree} {expected label : String}
    (h : checkSchema value expected label = .ok ()) : field value "schema_id" = .string expected :=
  isText_iff.1 (guardElse_eq_ok.1 h)

theorem readRoots_ok {roots : List String} (h : s.readRoots = .ok roots) :
    field s.closure "root_declarations" = .array (roots.map .string) ∧
      RootsAt (field s.preflight "root_declarations") roots ∧
        RootsAt (field s.exact "root_declarations") roots ∧
          RootsAt (field s.independent "root_declarations") roots := by
  obtain ⟨closure, hclosure, h⟩ := bind_eq_ok.1 h
  obtain ⟨preflight, hpreflight, h⟩ := bind_eq_ok.1 h
  obtain ⟨exact, hexact, h⟩ := bind_eq_ok.1 h
  obtain ⟨independent, hindependent, h⟩ := bind_eq_ok.1 h
  obtain ⟨hsame, h⟩ := then_eq_ok.1 h
  cases h
  obtain ⟨hpre, hex, hind⟩ := guardElse_eq_ok.1 hsame
  have hperm : ∀ {texts : List String}, sortOn id texts = sortOn id roots → texts.Perm roots :=
    fun heq => (perm_sortOn id _).symm.trans (heq ▸ perm_sortOn id _)
  exact ⟨stringTuple_ok hclosure, ⟨_, stringTuple_ok hpreflight, hperm hpre⟩,
    ⟨_, stringTuple_ok hexact, hperm hex⟩, ⟨_, stringTuple_ok hindependent, hperm hind⟩⟩

theorem readRootModule_ok {rootModule : String} (h : s.readRootModule = .ok rootModule) :
    field s.closure "root_module" = .string rootModule ∧
      field s.preflight "root_module" = .string rootModule ∧
        field s.independent "root_module" = .string rootModule := by
  obtain ⟨found, hfound, h⟩ := bind_eq_ok.1 h
  obtain ⟨hsame, h⟩ := then_eq_ok.1 h
  cases h
  obtain ⟨hpre, hind⟩ := guardElse_eq_ok.1 hsame
  exact ⟨string_ok hfound, isText_iff.1 hpre, isText_iff.1 hind⟩

theorem readProofBaseImports_ok {imports : List String} (h : s.readProofBaseImports = .ok imports) :
    field s.closure "proof_base_imports" = .array (imports.map .string) ∧
      field s.preflight "proof_base_imports" = .array (imports.map .string) ∧
        field s.independent "proof_base_imports" = .array (imports.map .string) := by
  obtain ⟨closure, hclosure, h⟩ := bind_eq_ok.1 h
  obtain ⟨preflight, hpreflight, h⟩ := bind_eq_ok.1 h
  obtain ⟨hpre, h⟩ := then_eq_ok.1 h
  obtain ⟨independent, hindependent, h⟩ := bind_eq_ok.1 h
  obtain ⟨hind, h⟩ := then_eq_ok.1 h
  cases h
  obtain rfl := guardElse_eq_ok.1 hpre
  obtain rfl := guardElse_eq_ok.1 hind
  exact ⟨stringTuple_ok hclosure, stringTuple_ok hpreflight, stringTuple_ok hindependent⟩

theorem readSourceDigest_ok {text : String} (h : s.readSourceDigest = .ok text) :
    field s.exact "canonical_source_digest" = .string text ∧
      field s.independent "canonical_source_digest" = .string text := by
  obtain ⟨found, hfound, h⟩ := bind_eq_ok.1 h
  obtain ⟨hsame, h⟩ := then_eq_ok.1 h
  cases h
  exact ⟨digest_ok hfound, isText_iff.1 (guardElse_eq_ok.1 hsame)⟩

theorem readExactDigest_ok {text : String} (h : s.readExactDigest = .ok text) :
    field s.artifact "exact_bundle_digest" = .string text ∧
      field s.exact "bundle_digest" = .string text := by
  obtain ⟨found, hfound, h⟩ := bind_eq_ok.1 h
  obtain ⟨hsame, h⟩ := then_eq_ok.1 h
  cases h
  exact ⟨digest_ok hfound, isText_iff.1 (guardElse_eq_ok.1 hsame)⟩

end Sections

variable {codec : Codec} {sha256 : List UInt8 → List UInt8}

/-- **What a parsed artifact was read from**: the sections that its request, its digests and its
canonical bytes come from. -/
structure Reading (codec : Codec) (s : Sections) (p : ParsedAxleClosureArtifact sha256) :
    Prop where
  closureSchema : field s.closure "schema_id" = .string "poo-flow.lean-declaration-closure.v1"
  preflightSchema : field s.preflight "schema_id" = .string "poo-flow.axle-closure-preflight.v1"
  exactSchema :
    field s.exact "schema_id" = .string "poo-flow.axle-exact-declaration-closure.v1"
  independentSchema :
    field s.independent "schema_id" = .string "poo-flow.independent-declaration-bundle.v1"
  verificationSchema :
    field s.verification "schema_id" = .string "poo-flow.axle-root-declaration-validation.v1"
  status : field s.verification "status" = .string "accepted"
  okay : field s.verification "okay" = .bool true
  failed : field s.verification "failed_declarations" = .array []
  roots : field s.closure "root_declarations" =
      .array (p.request.rootDeclarations.map .string) ∧
    RootsAt (field s.preflight "root_declarations") p.request.rootDeclarations ∧
      RootsAt (field s.exact "root_declarations") p.request.rootDeclarations ∧
        RootsAt (field s.independent "root_declarations") p.request.rootDeclarations
  rootModule : field s.closure "root_module" = .string p.request.rootModule ∧
    field s.preflight "root_module" = .string p.request.rootModule ∧
      field s.independent "root_module" = .string p.request.rootModule
  proofBaseImports :
    field s.closure "proof_base_imports" = .array (p.request.proofBaseImports.map .string) ∧
      field s.preflight "proof_base_imports" =
          .array (p.request.proofBaseImports.map .string) ∧
        field s.independent "proof_base_imports" =
          .array (p.request.proofBaseImports.map .string)
  sourceDigest : field s.exact "canonical_source_digest" = .string p.canonicalSourceDigest ∧
    field s.independent "canonical_source_digest" = .string p.canonicalSourceDigest
  exactDigest : field s.artifact "exact_bundle_digest" = .string p.exactBundleDigest ∧
    field s.exact "bundle_digest" = .string p.exactBundleDigest
  independentDigest : field s.artifact "independent_declaration_bundle_digest" =
    .string p.independentBundleDigest
  environment : field s.exact "environment" = .string p.request.environment
  baseImports : field s.closure "base_imports" = .array (p.request.baseImports.map .string)
  sourceBytes : p.sourceIdentity.canonicalBytes =
    codec.dumps (s.sourceIdentity p.request.rootModule p.canonicalSourceDigest)
  interfaceBytes : p.providedInterface.canonicalBytes = codec.dumps
    (s.providedInterface p.request.rootDeclarations p.canonicalSourceDigest p.exactBundleDigest)

theorem constructed_ok {α : Type} {check : Except Error Unit} {make : check = .ok () → α} {a : α}
    (h : constructed check make = .ok a) : ∃ hcheck, make hcheck = a := by
  cases check with
  | ok => exact ⟨rfl, ok.inj h⟩
  | error error => cases h

variable {bytes : List UInt8} {flag : Bool} {p : ParsedAxleClosureArtifact sha256}

theorem parseManifest_ok {manifest : JsonTree}
    (h : parseManifest codec sha256 bytes flag manifest = .ok p) :
    p.manifest = manifest ∧ Reading codec (sectionsOf manifest) p := by
  obtain ⟨hshapes, h⟩ := then_eq_ok.1 h
  obtain ⟨hschemas, h⟩ := then_eq_ok.1 h
  obtain ⟨haccepted, h⟩ := then_eq_ok.1 h
  obtain ⟨roots, hroots, h⟩ := bind_eq_ok.1 h
  obtain ⟨rootModule, hmodule, h⟩ := bind_eq_ok.1 h
  obtain ⟨imports, himports, h⟩ := bind_eq_ok.1 h
  obtain ⟨sourceDigest, hsource, h⟩ := bind_eq_ok.1 h
  obtain ⟨exactDigest, hexact, h⟩ := bind_eq_ok.1 h
  obtain ⟨independentDigest, hindependent, h⟩ := bind_eq_ok.1 h
  obtain ⟨-, h⟩ := then_eq_ok.1 h
  obtain ⟨environment, henvironment, h⟩ := bind_eq_ok.1 h
  obtain ⟨baseImports, hbase, h⟩ := bind_eq_ok.1 h
  obtain ⟨identity, hidentity, h⟩ := bind_eq_ok.1 h
  obtain ⟨interface, hinterface, h⟩ := bind_eq_ok.1 h
  cases h
  obtain ⟨_, rfl⟩ := constructed_ok (mapError_eq_ok.1 hidentity)
  obtain ⟨_, rfl⟩ := constructed_ok (mapError_eq_ok.1 hinterface)
  obtain ⟨hclosure, hschemas⟩ := then_eq_ok.1 hschemas
  obtain ⟨hpreflight, hschemas⟩ := then_eq_ok.1 hschemas
  obtain ⟨hexactSchema, hschemas⟩ := then_eq_ok.1 hschemas
  obtain ⟨hind, hverification⟩ := then_eq_ok.1 hschemas
  obtain ⟨hstatus, haccepted⟩ := then_eq_ok.1 haccepted
  obtain ⟨hokay, hfailed⟩ := then_eq_ok.1 haccepted
  refine ⟨rfl, ?_⟩
  exact
    { closureSchema := Sections.schema_of_check hclosure
      preflightSchema := Sections.schema_of_check hpreflight
      exactSchema := Sections.schema_of_check hexactSchema
      independentSchema := Sections.schema_of_check hind
      verificationSchema := Sections.schema_of_check hverification
      status := isText_iff.1 (guardElse_eq_ok.1 hstatus)
      okay := isTrue_iff.1 (guardElse_eq_ok.1 hokay)
      failed := isEmptyArray_iff.1 (guardElse_eq_ok.1 hfailed)
      roots := Sections.readRoots_ok hroots
      rootModule := Sections.readRootModule_ok hmodule
      proofBaseImports := Sections.readProofBaseImports_ok himports
      sourceDigest := Sections.readSourceDigest_ok hsource
      exactDigest := Sections.readExactDigest_ok hexact
      independentDigest := digest_ok hindependent
      environment := string_ok henvironment
      baseImports := stringTuple_ok hbase
      sourceBytes := rfl
      interfaceBytes := rfl }

/-- An artifact that is parsed was canonical, and was read from its sections. -/
theorem parse_ok (h : parseAxleClosureArtifact codec sha256 bytes flag = .ok p) :
    codec.loads bytes = .ok p.manifest ∧ Reading codec (sectionsOf p.manifest) p := by
  obtain ⟨manifest, hloads, h⟩ := bind_eq_ok.1 h
  obtain ⟨rfl, hreading⟩ := parseManifest_ok h
  exact ⟨hloads, hreading⟩

end

section

variable {codec : Codec} {value value' : JsonTree}

theorem Codec.dumps_inj (h : value.Canonical) (h' : value'.Canonical)
    (heq : codec.dumps value = codec.dumps value') : value = value' := by
  have hloads := codec.loads_dumps h
  rw [heq, codec.loads_dumps h'] at hloads
  exact (ok.inj hloads).symm

theorem canonical_field (h : value.Canonical) (key : String) : (field value key).Canonical := by
  cases value with
  | object fields =>
    rw [field]
    cases hfound : fields.lookup key with
    | none => exact canonical_null
    | some found =>
      have hmem : ∃ name, (name, found) ∈ fields := by
        obtain ⟨before, after, rfl, -⟩ := lookup_eq_some_iff.1 hfound
        exact ⟨key, by simp⟩
      obtain ⟨name, hmem⟩ := hmem
      exact (canonical_object.1 h).2 _ hmem
  | _ => exact canonical_null

theorem canonical_sourceIdentity (h : value.Canonical) (rootModule sourceDigest : String) :
    ((sectionsOf value).sourceIdentity rootModule sourceDigest).Canonical := by
  refine canonical_ofFields ?_
  simp only [forall_mem_cons]
  exact ⟨canonical_field (canonical_field h _) _, trivial, canonical_field (canonical_field h _) _,
    trivial, trivial, forall_mem_nil _⟩

theorem canonical_providedInterface (h : value.Canonical) (roots : List String)
    (sourceDigest exactDigest : String) :
    ((sectionsOf value).providedInterface roots sourceDigest exactDigest).Canonical := by
  refine canonical_ofFields ?_
  simp only [forall_mem_cons]
  refine ⟨canonical_field (canonical_field h _) _, trivial, canonical_field (canonical_field h _) _,
    trivial, ?_, trivial, canonical_field (canonical_field h _) _, forall_mem_nil _⟩
  refine canonical_array.2 fun item hitem => ?_
  obtain ⟨text, -, rfl⟩ := mem_map.1 hitem
  exact canonical_string text

end

def lengthHash (bytes : List UInt8) : List UInt8 := List.replicate 32 (UInt8.ofNat bytes.length)

theorem length_lengthHash (bytes : List UInt8) : (lengthHash bytes).length = 32 :=
  length_replicate

section

variable (codec : Codec) {sha256 : List UInt8 → List UInt8}

theorem isSha256Digest_sha256Digest {payload : List UInt8} (h : (sha256 payload).length = 32) :
    isSha256Digest (sha256Digest sha256 payload) = true := by
  have hdigits : ∀ bytes : List UInt8, (Hex.encode bytes).length = 2 * bytes.length := by
    intro bytes
    rw [Hex.encode, length_flatMap]
    simp [Nat.mul_comm]
  have htext : (sha256Digest sha256 payload).toList =
      "sha256:".toList ++ Hex.encode (sha256 payload) := by
    rw [sha256Digest, String.toList_append]
    exact congrArg _ String.toList_ofList
  have hlower := isLowerHex_encode (sha256 payload)
  rw [isLowerHex, Bool.and_eq_true] at hlower
  rw [isSha256Digest, htext, take_left' (by rfl), drop_left' (by rfl), hdigits, h, hlower.2]
  rfl

theorem requireCanonicalPayload_digest {label : String} {payload : List UInt8}
    (h : (sha256 payload).length = 32) :
    requireCanonicalPayload sha256 label payload (sha256Digest sha256 payload) = .ok () :=
  then_eq_ok.2 ⟨guardElse_of (isSha256Digest_sha256Digest h), guardElse_of rfl⟩

def sampleDigest : String :=
  "sha256:0000000000000000000000000000000000000000000000000000000000000000"

def freeValue (forged : Bool) : JsonTree := if forged then .bool true else .null

def sampleRoots (forged : Bool) : List String :=
  if forged then ["Proof.root", "Proof.other"] else ["Proof.other", "Proof.root"]

def rootsValue (forged : Bool) : JsonTree := .array ((sampleRoots forged).map .string)

def sampleClosure (forged : Bool) : List (String × JsonTree) :=
  [("base_imports", .array [.string "Init"]), ("declarations", freeValue forged),
    ("lean_version", freeValue forged), ("owner_modules", freeValue forged),
    ("proof_base_imports", .array []), ("proof_base_interface", freeValue forged),
    ("root_declarations", rootsValue false), ("root_module", .string "Proof"),
    ("schema_id", .string "poo-flow.lean-declaration-closure.v1")]

def samplePreflight (forged : Bool) : List (String × JsonTree) :=
  [("axle_base_timeout_seconds", freeValue forged), ("axle_environment", freeValue forged),
    ("axle_operation_timeout_seconds", freeValue forged), ("closure_digest", freeValue forged),
    ("declaration_count", freeValue forged), ("lean_export_timeout_seconds", freeValue forged),
    ("owner_sources", freeValue forged), ("proof_base_imports", .array []),
    ("proof_base_interface_count", freeValue forged),
    ("root_declarations", rootsValue forged), ("root_module", .string "Proof"),
    ("schema_id", .string "poo-flow.axle-closure-preflight.v1")]

def sampleObligation (forged : Bool) : List (String × JsonTree) :=
  [("messages", freeValue forged), ("request", freeValue forged),
    ("root_declaration_kinds", freeValue forged), ("root_declarations", freeValue forged),
    ("schema_id", freeValue forged), ("status", freeValue forged)]

def sampleVerification (forged : Bool) : List (String × JsonTree) :=
  [("failed_declarations", .array []), ("lean_messages", freeValue forged),
    ("okay", .bool true), ("request", freeValue forged), ("roundtrip", freeValue forged),
    ("schema_id", .string "poo-flow.axle-root-declaration-validation.v1"),
    ("status", .string "accepted"), ("theorem_proof", freeValue forged),
    ("timings", freeValue forged), ("tool_messages", freeValue forged)]

def sampleExact (forged : Bool) : List (String × JsonTree) :=
  [("bundle_digest", .string sampleDigest),
    ("canonical_source", .string "theorem Proof.root : True := trivial"),
    ("canonical_source_digest", .string sampleDigest),
    ("declarations", .array [.string "Proof.root"]), ("environment", .string "lean-4.31.0"),
    ("lean_closure_digest", freeValue forged),
    ("root_declarations", rootsValue forged),
    ("schema_id", .string "poo-flow.axle-exact-declaration-closure.v1"),
    ("source_declarations", .array [.string "Proof.root"]),
    ("theorem2sorry", .object (sampleObligation forged)),
    ("verification", .object (sampleVerification forged))]

def sampleIndependent (forged : Bool) : List (String × JsonTree) :=
  [("axle_environment", freeValue forged), ("canonical_source_digest", .string sampleDigest),
    ("declarations", freeValue forged), ("lean_toolchain", freeValue forged),
    ("proof_base_declarations", freeValue forged), ("proof_base_imports", .array []),
    ("proof_base_interface_digest", freeValue forged), ("resolved_sources", .array []),
    ("root_declarations", rootsValue forged), ("root_module", .string "Proof"),
    ("schema_id", .string "poo-flow.independent-declaration-bundle.v1")]

/-- An artifact whose free fields are forged and whose roots are turned round, or not. -/
def sampleArtifact (forged : Bool) : JsonTree :=
  .object [("closure", .object (sampleClosure forged)),
    ("exact_bundle", .object (sampleExact forged)),
    ("exact_bundle_digest", .string sampleDigest),
    ("independent_declaration_bundle", .object (sampleIndependent forged)),
    ("independent_declaration_bundle_digest", .string sampleDigest),
    ("preflight", .object (samplePreflight forged))]

variable (forged : Bool)

theorem canonical_sampleArtifact : (sampleArtifact forged).Canonical := by
  cases forged <;> decide +kernel

def sampleRequest : AxleClosureVerificationRequest where
  environment := "lean-4.31.0"
  rootModule := "Proof"
  rootDeclarations := sampleRoots false
  baseImports := ["Init"]
  proofBaseImports := []

theorem checks_sampleArtifact : ∀ forged : Bool, let s := sectionsOf (sampleArtifact forged)
    s.checkShapes = .ok () ∧ s.checkSchemas = .ok () ∧ s.checkAccepted = .ok () ∧
      s.readRoots = .ok (sampleRoots false) ∧ s.readRootModule = .ok "Proof" ∧
        s.readProofBaseImports = .ok [] ∧ s.readSourceDigest = .ok sampleDigest ∧
          s.readExactDigest = .ok sampleDigest := by
  decide +kernel

theorem fields_sampleArtifact : ∀ forged : Bool, let s := sectionsOf (sampleArtifact forged)
    digest "independent_declaration_bundle_digest"
        (field s.artifact "independent_declaration_bundle_digest") = .ok sampleDigest ∧
      string "exact_bundle.environment" (field s.exact "environment") = .ok "lean-4.31.0" ∧
        stringTuple "closure.base_imports" (field s.closure "base_imports") = .ok ["Init"] := by
  decide +kernel

theorem roots_sampleArtifact : ∀ forged : Bool, ∀ path ∈ rootPaths,
    stringTuple "" (valueAt (sampleArtifact forged) path) = .ok (sampleRoots forged) := by
  decide +kernel

theorem free_sampleArtifact : ∀ path ∈ freePaths,
    isTrue (valueAt (sampleArtifact true) path) = true ∧
      isTrue (valueAt (sampleArtifact false) path) = false := by
  decide +kernel

section

variable (hlength : ∀ payload, (sha256 payload).length = 32)

def canonicalSource (bytes : List UInt8) : CanonicalSourceIdentity sha256 :=
  ⟨bytes, sha256Digest sha256 bytes, requireCanonicalPayload_digest (hlength bytes)⟩

def canonicalInterface (bytes : List UInt8) : CanonicalInterface sha256 :=
  ⟨bytes, sha256Digest sha256 bytes, requireCanonicalPayload_digest (hlength bytes)⟩

def sampleParsed (forged : Bool) : ParsedAxleClosureArtifact sha256 where
  manifest := sampleArtifact forged
  canonicalBytes := codec.dumps (sampleArtifact forged)
  request := sampleRequest
  exactBundleDigest := sampleDigest
  independentBundleDigest := sampleDigest
  canonicalSourceDigest := sampleDigest
  sourceIdentity := canonicalSource hlength
    (codec.dumps ((sectionsOf (sampleArtifact forged)).sourceIdentity "Proof" sampleDigest))
  providedInterface := canonicalInterface hlength
    (codec.dumps ((sectionsOf (sampleArtifact forged)).providedInterface (sampleRoots false)
      sampleDigest sampleDigest))

theorem parse_sampleArtifact (forged flag : Bool) :
    parseAxleClosureArtifact codec sha256 (codec.dumps (sampleArtifact forged)) flag =
      .ok (sampleParsed codec hlength forged) := by
  obtain ⟨hshapes, hschemas, haccepted, hroots, hmodule, himports, hsource, hexact⟩ :=
    checks_sampleArtifact forged
  obtain ⟨hindependent, henvironment, hbase⟩ := fields_sampleArtifact forged
  rw [parseAxleClosureArtifact, codec.loads_dumps (canonical_sampleArtifact forged), ok_bind]
  refine then_eq_ok.2 ⟨hshapes, then_eq_ok.2 ⟨hschemas, then_eq_ok.2 ⟨haccepted, ?_⟩⟩⟩
  refine bind_eq_ok.2 ⟨_, hroots, bind_eq_ok.2 ⟨_, hmodule, bind_eq_ok.2 ⟨_, himports, ?_⟩⟩⟩
  refine bind_eq_ok.2 ⟨_, hsource, bind_eq_ok.2 ⟨_, hexact, bind_eq_ok.2 ⟨_, hindependent, ?_⟩⟩⟩
  refine then_eq_ok.2 ⟨guardElse_of fun _ => rfl, ?_⟩
  refine bind_eq_ok.2 ⟨_, henvironment, bind_eq_ok.2 ⟨_, hbase, ?_⟩⟩
  refine bind_eq_ok.2 ⟨canonicalSource hlength _, ?_, bind_eq_ok.2
    ⟨canonicalInterface hlength _, ?_, rfl⟩⟩
  · rw [CanonicalSourceIdentity.new, constructed_of (requireCanonicalPayload_digest (hlength _))]
    rfl
  · rw [CanonicalInterface.new, constructed_of (requireCanonicalPayload_digest (hlength _))]
    rfl

theorem mismatched_sampleParsed : mismatchedComponents (sampleParsed codec hlength true)
    (sampleParsed codec hlength false) = [] := by
  have hsource : (sampleParsed codec hlength true).sourceIdentity =
      (sampleParsed codec hlength false).sourceIdentity := rfl
  have hinterface : (sampleParsed codec hlength true).providedInterface =
      (sampleParsed codec hlength false).providedInterface := rfl
  have hrest : (sampleParsed codec hlength true).canonicalSourceDigest =
      (sampleParsed codec hlength false).canonicalSourceDigest := rfl
  rw [mismatchedComponents, hsource, hinterface]
  simp [sampleParsed]

variable (sha256) in
def sampleDeclared : DeclaredReceiptEvidence sha256 where
  engineIdentity := engineIdentity
  canonicalReceiptBytes := codec.dumps (sampleArtifact true)
  receiptDigest := sha256Digest sha256 (codec.dumps (sampleArtifact true))
  valid := then_eq_ok.2 ⟨guardElse_of (by decide : engineIdentity ≠ ""), guardElse_of rfl⟩

def sampleReverify (_ : AxleClosureVerificationRequest) : Except AxleError (List UInt8) :=
  .ok (codec.dumps (sampleArtifact false))

def sampleEvidence : EvidenceFields where
  engineIdentity := engineIdentity
  canonicalReceiptBytes := codec.dumps (sampleArtifact true)
  receiptDigest := sha256Digest sha256 (codec.dumps (sampleArtifact true))
  boundSourceIdentityDigest := (sampleParsed codec hlength false).sourceIdentity.digest
  boundIndependentBundleDigest := sampleDigest
  boundProvidedInterfaceDigest := (sampleParsed codec hlength false).providedInterface.digest
  decision := "accepted"

theorem check_sampleEvidence : (sampleEvidence codec hlength).check sha256 = .ok () := by
  refine then_eq_ok.2 ⟨guardElse_of (by decide : engineIdentity ≠ ""), ?_⟩
  refine then_eq_ok.2 ⟨requireCanonicalPayload_digest (hlength _), ?_⟩
  refine then_eq_ok.2 ⟨guardElse_of (isSha256Digest_sha256Digest (hlength _)), ?_⟩
  refine then_eq_ok.2 ⟨guardElse_of (by decide : isSha256Digest sampleDigest = true), ?_⟩
  exact then_eq_ok.2 ⟨guardElse_of (isSha256Digest_sha256Digest (hlength _)), guardElse_of rfl⟩

def sampleVerified : VerifiedFields sha256 where
  acceptance := ⟨sampleEvidence codec hlength, check_sampleEvidence codec hlength⟩
  sourceIdentity := (sampleParsed codec hlength false).sourceIdentity
  independentBundleDigest := sampleDigest
  providedInterface := (sampleParsed codec hlength false).providedInterface
  rootDeclarations := sampleRoots false

theorem check_sampleVerified : (sampleVerified codec hlength).check = .ok () := by
  refine then_eq_ok.2 ⟨guardElse_of ⟨rfl, rfl, rfl⟩, then_eq_ok.2 ⟨guardElse_of ?_, ?_⟩⟩
  · exact cons_ne_nil _ _
  · exact guardElse_of (by decide : "" ∉ sampleRoots false)

end

theorem validate_sampleDeclared (hlength : ∀ payload, (sha256 payload).length = 32) :
    ∃ evidence, validate codec (sampleReverify codec) (sampleDeclared codec sha256) =
      .ok evidence := by
  refine ⟨⟨sortedRoots (sampleVerified codec hlength),
    check_sortedRoots (check_sampleVerified codec hlength), sortOn_sortOn id _⟩, ?_⟩
  refine then_eq_ok.2 ⟨guardElse_of rfl, ?_⟩
  refine bind_eq_ok.2 ⟨_, parse_sampleArtifact codec hlength true true, ?_⟩
  refine bind_eq_ok.2 ⟨_, rfl, ?_⟩
  refine bind_eq_ok.2 ⟨_, parse_sampleArtifact codec hlength false false, ?_⟩
  refine then_eq_ok.2 ⟨guardElse_of (mismatched_sampleParsed codec hlength), ?_⟩
  refine bind_eq_ok.2 ⟨_, congrArg (Except.mapError AxleError.record)
    (constructed_of (check_sampleEvidence codec hlength)), ?_⟩
  exact congrArg (Except.mapError AxleError.record)
    (constructed_of (check_sampleVerified codec hlength))

end

section

variable {codec : Codec} {sha256 : List UInt8 → List UInt8}
  {p q : ParsedAxleClosureArtifact sha256}

theorem mismatchedComponents_nil (h : mismatchedComponents p q = []) :
    p.request = q.request ∧ p.exactBundleDigest = q.exactBundleDigest ∧
      p.independentBundleDigest = q.independentBundleDigest ∧
        p.canonicalSourceDigest = q.canonicalSourceDigest ∧
          p.sourceIdentity = q.sourceIdentity ∧ p.providedInterface = q.providedInterface := by
  rw [mismatchedComponents, filterMap_eq_nil_iff] at h
  simp only [forall_mem_cons, ite_eq_left_iff, Bool.not_eq_true, decide_eq_false_iff_not,
    reduceCtorEq, imp_false, not_not] at h
  obtain ⟨hsource, hexact, hindependent, hinterface, hrequest, hidentity, -⟩ := h
  exact ⟨hrequest, hexact, hindependent, hsource, hidentity, hinterface⟩

section

variable (hp : p.manifest.Canonical) (hq : q.manifest.Canonical)
  (hreadp : Reading codec (sectionsOf p.manifest) p)
  (hreadq : Reading codec (sectionsOf q.manifest) q) (h : mismatchedComponents p q = [])

include hp hq hreadp hreadq h

/-- **Equal canonical bytes** come from equal fields. -/
theorem bytes_agree : field (field p.manifest "exact_bundle") "canonical_source" =
        field (field q.manifest "exact_bundle") "canonical_source" ∧
      field (field p.manifest "independent_declaration_bundle") "resolved_sources" =
          field (field q.manifest "independent_declaration_bundle") "resolved_sources" ∧
        field (field p.manifest "exact_bundle") "declarations" =
            field (field q.manifest "exact_bundle") "declarations" ∧
          field (field p.manifest "exact_bundle") "source_declarations" =
            field (field q.manifest "exact_bundle") "source_declarations" := by
  obtain ⟨-, -, -, -, hidentity, hinterface⟩ := mismatchedComponents_nil h
  have hsource := congrArg CanonicalSourceIdentity.canonicalBytes hidentity
  rw [hreadp.sourceBytes, hreadq.sourceBytes] at hsource
  have hsource := Codec.dumps_inj (canonical_sourceIdentity hp _ _)
    (canonical_sourceIdentity hq _ _) hsource
  have hprovided := congrArg CanonicalInterface.canonicalBytes hinterface
  rw [hreadp.interfaceBytes, hreadq.interfaceBytes] at hprovided
  have hprovided := Codec.dumps_inj (canonical_providedInterface hp _ _ _)
    (canonical_providedInterface hq _ _ _) hprovided
  rw [Sections.sourceIdentity, Sections.sourceIdentity] at hsource
  rw [Sections.providedInterface, Sections.providedInterface] at hprovided
  have hsource := ofFields_inj (by rfl) (by simp) hsource
  have hprovided := ofFields_inj (by rfl) (by simp) hprovided
  simp only [List.cons.injEq, Prod.mk.injEq, true_and, and_true] at hsource hprovided
  exact ⟨hsource.1, hsource.2.2.1, hprovided.2.2.1, hprovided.2.2.2.2.2⟩

/-- **Agreement** in the bound fields. -/
theorem bound_agree : ∀ path ∈ boundPaths, valueAt p.manifest path = valueAt q.manifest path := by
  obtain ⟨hsource, hresolved, hdeclarations, hdeclared⟩ := bytes_agree hp hq hreadp hreadq h
  obtain ⟨hrequest, hexact, hindependent, hdigest, -, -⟩ := mismatchedComponents_nil h
  obtain ⟨hmodule, hmodule', hmodule''⟩ := hreadq.rootModule
  obtain ⟨himports, himports', himports''⟩ := hreadq.proofBaseImports
  obtain ⟨hdigestp, hdigestp'⟩ := hreadp.sourceDigest
  obtain ⟨hexactp, hexactp'⟩ := hreadp.exactDigest
  have hindependentp := hreadp.independentDigest
  rw [hdigest] at hdigestp hdigestp'
  rw [hexact] at hexactp hexactp'
  rw [hindependent] at hindependentp
  have hrequested := hreadp.roots.1
  have hmodulep := hreadp.rootModule
  have himportsp := hreadp.proofBaseImports
  have henvironment := hreadp.environment
  have hbase := hreadp.baseImports
  rw [hrequest] at hrequested hmodulep himportsp henvironment hbase
  simp only [boundPaths, forall_mem_cons]
  exact ⟨hmodulep.1.trans hmodule.symm, hrequested.trans hreadq.roots.1.symm,
    hbase.trans hreadq.baseImports.symm, himportsp.1.trans himports.symm,
    hreadp.closureSchema.trans hreadq.closureSchema.symm, hmodulep.2.1.trans hmodule'.symm,
    himportsp.2.1.trans himports'.symm, hreadp.preflightSchema.trans hreadq.preflightSchema.symm,
    henvironment.trans hreadq.environment.symm, hsource,
    hdigestp.trans hreadq.sourceDigest.1.symm, hdeclarations, hdeclared,
    hexactp'.trans hreadq.exactDigest.2.symm, hreadp.exactSchema.trans hreadq.exactSchema.symm,
    hreadp.verificationSchema.trans hreadq.verificationSchema.symm,
    hreadp.status.trans hreadq.status.symm, hreadp.okay.trans hreadq.okay.symm,
    hreadp.failed.trans hreadq.failed.symm, hexactp.trans hreadq.exactDigest.1.symm,
    hmodulep.2.2.trans hmodule''.symm, himportsp.2.2.trans himports''.symm, hresolved,
    hdigestp'.trans hreadq.sourceDigest.2.symm,
    hreadp.independentSchema.trans hreadq.independentSchema.symm,
    hindependentp.trans hreadq.independentDigest.symm, forall_mem_nil _⟩

end

theorem roots_agree (hreadp : Reading codec (sectionsOf p.manifest) p)
    (hreadq : Reading codec (sectionsOf q.manifest) q) (h : mismatchedComponents p q = []) :
    ∀ path ∈ rootPaths, ∃ roots : List String,
      RootsAt (valueAt p.manifest path) roots ∧ RootsAt (valueAt q.manifest path) roots := by
  obtain ⟨hrequest, -⟩ := mismatchedComponents_nil h
  obtain ⟨-, hpreflight, hexact, hindependent⟩ := hreadp.roots
  obtain ⟨-, hpreflight', hexact', hindependent'⟩ := hreadq.roots
  rw [hrequest] at hpreflight hexact hindependent
  simp only [rootPaths, forall_mem_cons]
  exact ⟨⟨_, hpreflight, hpreflight'⟩, ⟨_, hexact, hexact'⟩, ⟨_, hindependent, hindependent'⟩,
    forall_mem_nil _⟩

end

/-- **Authenticity**: a declared receipt that is accepted agrees with the receipt of the
fresh verification of its own request in every bound field, and in the roots up to their
order. -/
theorem accepted_agrees (codec : Codec) {sha256 : List UInt8 → List UInt8}
    {reverify : AxleClosureVerificationRequest → Except AxleError (List UInt8)}
    {declared : DeclaredReceiptEvidence sha256} {evidence : AuthorityVerifiedReceiptEvidence sha256}
    (h : validate codec reverify declared = .ok evidence) :
    ∃ (claimed : JsonTree) (request : AxleClosureVerificationRequest) (freshBytes : List UInt8)
      (fresh : JsonTree),
      codec.loads declared.canonicalReceiptBytes = .ok claimed ∧
        reverify request = .ok freshBytes ∧ codec.loads freshBytes = .ok fresh ∧
          Requests claimed request ∧
            (∀ path ∈ boundPaths, valueAt claimed path = valueAt fresh path) ∧
            ∀ path ∈ rootPaths, ∃ roots : List String,
              RootsAt (valueAt claimed path) roots ∧ RootsAt (valueAt fresh path) roots := by
  obtain ⟨-, h⟩ := then_eq_ok.1 h
  obtain ⟨p, hp, h⟩ := bind_eq_ok.1 h
  obtain ⟨freshBytes, hfresh, h⟩ := bind_eq_ok.1 h
  obtain ⟨q, hq, h⟩ := bind_eq_ok.1 h
  obtain ⟨hsame, -⟩ := then_eq_ok.1 h
  have hsame := guardElse_eq_ok.1 hsame
  obtain ⟨hloadsp, hreadp⟩ := parse_ok hp
  obtain ⟨hloadsq, hreadq⟩ := parse_ok hq
  exact ⟨p.manifest, p.request, freshBytes, q.manifest, hloadsp, hfresh, hloadsq,
    ⟨hreadp.environment, hreadp.rootModule.1, hreadp.roots.1, hreadp.baseImports,
      hreadp.proofBaseImports.1⟩,
    bound_agree (codec.canonical hloadsp) (codec.canonical hloadsq) hreadp hreadq hsame,
    roots_agree hreadp hreadq hsame⟩

theorem forged_agrees :
    ∃ (claimed : JsonTree) (request : AxleClosureVerificationRequest) (freshBytes : List UInt8)
      (fresh : JsonTree),
      textCodec.loads (sampleDeclared textCodec lengthHash).canonicalReceiptBytes = .ok claimed ∧
        sampleReverify textCodec request = .ok freshBytes ∧
          textCodec.loads freshBytes = .ok fresh ∧
          Requests claimed request ∧
            (∀ path ∈ boundPaths, valueAt claimed path = valueAt fresh path) ∧
            ∀ path ∈ rootPaths, ∃ roots : List String,
              RootsAt (valueAt claimed path) roots ∧ RootsAt (valueAt fresh path) roots := by
  obtain ⟨_, hvalidate⟩ := validate_sampleDeclared textCodec length_lengthHash
  exact accepted_agrees textCodec hvalidate

/-- **A forged receipt is accepted** for every codec and hash. -/
theorem forged_accepted (codec : Codec) {sha256 : List UInt8 → List UInt8}
    (hlength : ∀ payload, (sha256 payload).length = 32) :
    (∃ evidence, validate codec (sampleReverify codec) (sampleDeclared codec sha256) =
        .ok evidence) ∧
      codec.loads (sampleDeclared codec sha256).canonicalReceiptBytes =
          .ok (sampleArtifact true) ∧
        (∀ request, sampleReverify codec request >>= codec.loads = .ok (sampleArtifact false)) ∧
          ∀ path ∈ freePaths ++ rootPaths,
            valueAt (sampleArtifact true) path ≠ valueAt (sampleArtifact false) path := by
  refine ⟨validate_sampleDeclared codec hlength, codec.loads_dumps (canonical_sampleArtifact true),
    fun _ => codec.loads_dumps (canonical_sampleArtifact false), fun path hpath hsame => ?_⟩
  rcases mem_append.1 hpath with hfree | hroots
  · obtain ⟨hforged, hfresh⟩ := free_sampleArtifact path hfree
    rw [hsame, hfresh] at hforged
    cases hforged
  · have hforged := roots_sampleArtifact true path hroots
    rw [hsame, roots_sampleArtifact false path hroots] at hforged
    exact absurd (ok.inj hforged) (by decide)

theorem free_fields_accepted : (∃ evidence, validate textCodec (sampleReverify textCodec)
        (sampleDeclared textCodec lengthHash) = .ok evidence) ∧
      textCodec.loads (sampleDeclared textCodec lengthHash).canonicalReceiptBytes =
          .ok (sampleArtifact true) ∧
        (∀ request, sampleReverify textCodec request >>= textCodec.loads =
            .ok (sampleArtifact false)) ∧
          ∀ path ∈ freePaths ++ rootPaths,
            valueAt (sampleArtifact true) path ≠ valueAt (sampleArtifact false) path :=
  forged_accepted textCodec length_lengthHash

end PooFlow.Axle
