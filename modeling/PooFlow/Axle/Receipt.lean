import PooFlow.Foundation.JsonOrder
import PooFlow.Proof.ReceiptAudit

/-! The reader of AXLE artifacts and the authority of `axle_receipt_authority.py`. The `json`
module, with its round trips, and the hash are parameters. -/

namespace PooFlow.Axle

open Foundation Proof

/-- `ReceiptAcceptanceAuthorityError`, where a shape mismatch and a reverification
mismatch keep the lists that their texts show. The errors of the records pass through. -/
inductive AxleError where
  | refused (code detail : String)
  | shape (label : String) (missing unknown : List String)
  | reverification (components : List String)
  | record (error : Error)
deriving DecidableEq

/-- The `json` module. The members of an object that is read are a map, which stands here
in the order of its keys, and a number stands for any number that is read. `dumps` writes
the canonical encoding. -/
structure Codec where
  loads : List UInt8 → Except AxleError JsonTree
  dumps : JsonTree → List UInt8
  canonical : ∀ {bytes tree}, loads bytes = .ok tree → tree.Canonical
  loads_dumps : ∀ {tree : JsonTree}, tree.Canonical → loads (dumps tree) = .ok tree

def textCodec : Codec where
  loads bytes :=
    match decodeUtf8 bytes with
    | some text =>
      match JsonText.parse text.toList with
      | some tree => .ok tree.sorted
      | none => .error (.refused "invalid-axle-receipt-json" text)
    | none => .error (.refused "invalid-axle-receipt-json" "utf-8")
  dumps tree := utf8 (String.ofList (JsonText.render tree))
  canonical := by
    intro bytes tree h
    split at h
    · split at h
      · cases h
        exact JsonTree.canonical_sorted _
      · cases h
    · cases h
  loads_dumps := by
    intro tree h
    simp only [decodeUtf8_utf8, String.toList_ofList, JsonText.parse_render h.distinct,
      JsonTree.sorted_of_canonical h]

def engineIdentity : String := "poo-flow-axle-verify"

def providedInterfaceSchema : String := "poo-flow.axle-provided-interface.v1"

def sourceIdentitySchema : String := "poo-flow.axle-source-identity.v1"

def topLevelKeys : List String :=
  ["closure", "exact_bundle", "exact_bundle_digest", "independent_declaration_bundle",
    "independent_declaration_bundle_digest", "preflight"]

def closureKeys : List String :=
  ["base_imports", "declarations", "lean_version", "owner_modules", "proof_base_imports",
    "proof_base_interface", "root_declarations", "root_module", "schema_id"]

def preflightKeys : List String :=
  ["axle_base_timeout_seconds", "axle_environment", "axle_operation_timeout_seconds",
    "closure_digest", "declaration_count", "lean_export_timeout_seconds", "owner_sources",
    "proof_base_imports", "proof_base_interface_count", "root_declarations", "root_module",
    "schema_id"]

def exactBundleKeys : List String :=
  ["bundle_digest", "canonical_source", "canonical_source_digest", "declarations",
    "environment", "lean_closure_digest", "root_declarations", "schema_id",
    "source_declarations", "theorem2sorry", "verification"]

def independentBundleKeys : List String :=
  ["axle_environment", "canonical_source_digest", "declarations", "lean_toolchain",
    "proof_base_declarations", "proof_base_imports", "proof_base_interface_digest",
    "resolved_sources", "root_declarations", "root_module", "schema_id"]

def verificationKeys : List String :=
  ["failed_declarations", "lean_messages", "okay", "request", "roundtrip", "schema_id",
    "status", "theorem_proof", "timings", "tool_messages"]

def theorem2sorryKeys : List String :=
  ["messages", "request", "root_declaration_kinds", "root_declarations", "schema_id", "status"]

def field (tree : JsonTree) (key : String) : JsonTree :=
  match tree with
  | .object fields => (fields.lookup key).getD .null
  | _ => .null

def typeMismatch (label kind : String) : AxleError :=
  .refused "axle-receipt-type-mismatch" (label ++ " must be " ++ kind)

def exactObject (value : JsonTree) (label : String) (keys : List String) : Except AxleError Unit :=
  match value with
  | .object fields =>
    let actual := fields.map Prod.fst
    let missing := sortOn id (keys.filter (· ∉ actual))
    let unknown := sortOn id (actual.filter (· ∉ keys))
    guardElse (missing = [] ∧ unknown = []) (.shape label missing unknown)
  | _ => .error (typeMismatch label "an object")

def string (label : String) : JsonTree → Except AxleError String
  | .string text => do
    guardElse (text ≠ "") (typeMismatch label "a non-empty string")
    return text
  | _ => .error (typeMismatch label "a non-empty string")

def stringTuple (label : String) : JsonTree → Except AxleError (List String)
  | .array items => do
    let result ← items.mapM (string label)
    guardElse result.Nodup
      (.refused "duplicate-axle-receipt-value" (label ++ " must not repeat values"))
    return result
  | _ => .error (typeMismatch label "an array")

def digest (label : String) (value : JsonTree) : Except AxleError String := do
  let digest ← string label value
  guardElse (isSha256Digest digest = true)
    (.refused "invalid-axle-receipt-digest" (label ++ " must be a canonical sha256 digest"))
  return digest

def isText (value : JsonTree) (text : String) : Bool :=
  match value with
  | .string other => other = text
  | _ => false

def isTrue (value : JsonTree) : Bool :=
  match value with
  | .bool value => value
  | _ => false

def isEmptyArray (value : JsonTree) : Bool :=
  match value with
  | .array items => items.isEmpty
  | _ => false

structure AxleClosureVerificationRequest where
  environment : String
  rootModule : String
  rootDeclarations : List String
  baseImports : List String
  proofBaseImports : List String
deriving DecidableEq

structure Sections where
  artifact : JsonTree
  closure : JsonTree
  preflight : JsonTree
  exact : JsonTree
  independent : JsonTree
  verification : JsonTree

def sectionsOf (artifact : JsonTree) : Sections where
  artifact := artifact
  closure := field artifact "closure"
  preflight := field artifact "preflight"
  exact := field artifact "exact_bundle"
  independent := field artifact "independent_declaration_bundle"
  verification := field (field artifact "exact_bundle") "verification"

namespace Sections

variable (s : Sections)

def checkShapes : Except AxleError Unit := do
  exactObject s.artifact "artifact" topLevelKeys
  exactObject s.closure "closure" closureKeys
  exactObject s.preflight "preflight" preflightKeys
  exactObject s.exact "exact_bundle" exactBundleKeys
  exactObject s.independent "independent_declaration_bundle" independentBundleKeys
  exactObject s.verification "exact_bundle.verification" verificationKeys
  exactObject (field s.exact "theorem2sorry") "exact_bundle.theorem2sorry" theorem2sorryKeys

def checkSchema (value : JsonTree) (expected label : String) : Except AxleError Unit :=
  guardElse (isText (field value "schema_id") expected = true)
    (.refused "invalid-axle-receipt-schema" (label ++ " expected " ++ expected))

def checkSchemas : Except AxleError Unit := do
  checkSchema s.closure "poo-flow.lean-declaration-closure.v1" "closure"
  checkSchema s.preflight "poo-flow.axle-closure-preflight.v1" "preflight"
  checkSchema s.exact "poo-flow.axle-exact-declaration-closure.v1" "exact_bundle"
  checkSchema s.independent "poo-flow.independent-declaration-bundle.v1"
    "independent_declaration_bundle"
  checkSchema s.verification "poo-flow.axle-root-declaration-validation.v1"
    "exact_bundle.verification"

def checkAccepted : Except AxleError Unit := do
  guardElse (isText (field s.verification "status") "accepted" = true)
    (.refused "axle-receipt-not-accepted" "AXLE verification status must be accepted")
  guardElse (isTrue (field s.verification "okay") = true)
    (.refused "axle-receipt-not-okay" "AXLE verification okay must be true")
  guardElse (isEmptyArray (field s.verification "failed_declarations") = true)
    (.refused "axle-receipt-has-failures"
      "AXLE verification must have zero failed declarations")

def readRoots : Except AxleError (List String) := do
  let closure ← stringTuple "closure.root_declarations" (field s.closure "root_declarations")
  let preflight ←
    stringTuple "preflight.root_declarations" (field s.preflight "root_declarations")
  let exact ← stringTuple "exact_bundle.root_declarations" (field s.exact "root_declarations")
  let independent ←
    stringTuple "independent.root_declarations" (field s.independent "root_declarations")
  guardElse (sortOn id preflight = sortOn id closure ∧ sortOn id exact = sortOn id closure ∧
      sortOn id independent = sortOn id closure)
    (.refused "axle-root-declaration-mismatch"
      "all AXLE owner artifacts must bind the same roots")
  return closure

def readRootModule : Except AxleError String := do
  let rootModule ← string "closure.root_module" (field s.closure "root_module")
  guardElse (isText (field s.preflight "root_module") rootModule = true ∧
      isText (field s.independent "root_module") rootModule = true)
    (.refused "axle-root-module-mismatch"
      "closure, preflight, and independent bundle roots must agree")
  return rootModule

def readProofBaseImports : Except AxleError (List String) := do
  let mismatch : AxleError := .refused "axle-proof-base-import-mismatch"
    "all AXLE owner artifacts must bind the same proof-base imports"
  let closure ← stringTuple "closure.proof_base_imports" (field s.closure "proof_base_imports")
  let preflight ←
    stringTuple "preflight.proof_base_imports" (field s.preflight "proof_base_imports")
  guardElse (preflight = closure) mismatch
  let independent ←
    stringTuple "independent.proof_base_imports" (field s.independent "proof_base_imports")
  guardElse (independent = closure) mismatch
  return closure

def readSourceDigest : Except AxleError String := do
  let sourceDigest ← digest "exact_bundle.canonical_source_digest"
    (field s.exact "canonical_source_digest")
  guardElse (isText (field s.independent "canonical_source_digest") sourceDigest = true)
    (.refused "axle-canonical-source-digest-mismatch"
      "exact and independent bundles must bind the same source")
  return sourceDigest

def readExactDigest : Except AxleError String := do
  let exactDigest ← digest "exact_bundle_digest" (field s.artifact "exact_bundle_digest")
  guardElse (isText (field s.exact "bundle_digest") exactDigest = true)
    (.refused "axle-exact-bundle-digest-mismatch"
      "top-level and exact bundle digests must agree")
  return exactDigest

def sourceIdentity (rootModule sourceDigest : String) : JsonTree :=
  .ofFields [("canonical_source", field s.exact "canonical_source"),
    ("canonical_source_digest", .string sourceDigest),
    ("resolved_sources", field s.independent "resolved_sources"),
    ("root_module", .string rootModule),
    ("schema_id", .string sourceIdentitySchema)]

def providedInterface (roots : List String) (sourceDigest exactDigest : String) : JsonTree :=
  .ofFields [("canonical_source", field s.exact "canonical_source"),
    ("canonical_source_digest", .string sourceDigest),
    ("declarations", field s.exact "declarations"),
    ("exact_bundle_digest", .string exactDigest),
    ("root_declarations", .array ((sortOn id roots).map .string)),
    ("schema_id", .string providedInterfaceSchema),
    ("source_declarations", field s.exact "source_declarations")]

end Sections

variable (codec : Codec) (sha256 : List UInt8 → List UInt8)

structure ParsedAxleClosureArtifact where
  manifest : JsonTree
  canonicalBytes : List UInt8
  request : AxleClosureVerificationRequest
  exactBundleDigest : String
  independentBundleDigest : String
  canonicalSourceDigest : String
  sourceIdentity : CanonicalSourceIdentity sha256
  providedInterface : CanonicalInterface sha256

/-- `parse_axle_closure_artifact_v1`, from the manifest on. -/
def parseManifest (artifactBytes : List UInt8) (requireCanonicalBytes : Bool)
    (manifest : JsonTree) : Except AxleError (ParsedAxleClosureArtifact sha256) := do
  let s := sectionsOf manifest
  s.checkShapes
  s.checkSchemas
  s.checkAccepted
  let roots ← s.readRoots
  let rootModule ← s.readRootModule
  let proofBaseImports ← s.readProofBaseImports
  let sourceDigest ← s.readSourceDigest
  let exactDigest ← s.readExactDigest
  let independentDigest ← digest "independent_declaration_bundle_digest"
    (field manifest "independent_declaration_bundle_digest")
  guardElse (requireCanonicalBytes = true → artifactBytes = codec.dumps manifest)
    (.refused "noncanonical-axle-receipt-bytes"
      "AXLE authority receipt must use the unique v1 JSON encoding")
  let sourceBytes := codec.dumps (s.sourceIdentity rootModule sourceDigest)
  let interfaceBytes := codec.dumps (s.providedInterface roots sourceDigest exactDigest)
  let environment ← string "exact_bundle.environment" (field s.exact "environment")
  let baseImports ← stringTuple "closure.base_imports" (field s.closure "base_imports")
  let sourceIdentity ← (CanonicalSourceIdentity.new sha256 sourceBytes
    (sha256Digest sha256 sourceBytes)).mapError .record
  let providedInterface ← (CanonicalInterface.new sha256 interfaceBytes
    (sha256Digest sha256 interfaceBytes)).mapError .record
  return {
    manifest
    canonicalBytes := codec.dumps manifest
    request := { environment, rootModule, rootDeclarations := roots, baseImports, proofBaseImports }
    exactBundleDigest := exactDigest
    independentBundleDigest := independentDigest
    canonicalSourceDigest := sourceDigest
    sourceIdentity
    providedInterface }

/-- `parse_axle_closure_artifact_v1` -/
def parseAxleClosureArtifact (artifactBytes : List UInt8) (requireCanonicalBytes : Bool) :
    Except AxleError (ParsedAxleClosureArtifact sha256) :=
  codec.loads artifactBytes >>= parseManifest codec sha256 artifactBytes requireCanonicalBytes

variable {sha256}

def mismatchedComponents (claimed fresh : ParsedAxleClosureArtifact sha256) : List String :=
  [("canonical_source_digest",
      decide (claimed.canonicalSourceDigest = fresh.canonicalSourceDigest)),
    ("exact_bundle_digest", decide (claimed.exactBundleDigest = fresh.exactBundleDigest)),
    ("independent_bundle_digest",
      decide (claimed.independentBundleDigest = fresh.independentBundleDigest)),
    ("provided_interface", decide (claimed.providedInterface = fresh.providedInterface)),
    ("request", decide (claimed.request = fresh.request)),
    ("source_identity", decide (claimed.sourceIdentity = fresh.sourceIdentity))].filterMap
    fun component => if component.2 then none else some component.1

def sortedRoots (fields : VerifiedFields sha256) : VerifiedFields sha256 :=
  { fields with rootDeclarations := sortOn id fields.rootDeclarations }

theorem check_sortedRoots {fields : VerifiedFields sha256} (h : fields.check = .ok ()) :
    (sortedRoots fields).check = .ok () := by
  obtain ⟨hbound, h⟩ := then_eq_ok.1 h
  obtain ⟨hroots, h⟩ := then_eq_ok.1 h
  have hbound := guardElse_eq_ok.1 hbound
  have hroots := guardElse_eq_ok.1 hroots
  have htexts := guardElse_eq_ok.1 h
  refine then_eq_ok.2 ⟨guardElse_of hbound, then_eq_ok.2 ⟨guardElse_of ?_, guardElse_of ?_⟩⟩
  · exact fun hempty => hroots (List.nil_perm.1 (hempty ▸ perm_sortOn id fields.rootDeclarations))
  · rwa [sortedRoots, mem_sortOn]

/-- The constructor of `AuthorityVerifiedReceiptEvidenceV1`. -/
def verifiedEvidence (fields : VerifiedFields sha256) :
    Except Error (AuthorityVerifiedReceiptEvidence sha256) :=
  constructed fields.check fun h => ⟨sortedRoots fields, check_sortedRoots h, sortOn_sortOn id _⟩

def validate (reverify : AxleClosureVerificationRequest → Except AxleError (List UInt8))
    (declared : DeclaredReceiptEvidence sha256) :
    Except AxleError (AuthorityVerifiedReceiptEvidence sha256) := do
  guardElse (declared.engineIdentity = engineIdentity)
    (.refused "wrong-receipt-authority" ("expected " ++ engineIdentity))
  let claimed ← parseAxleClosureArtifact codec sha256 declared.canonicalReceiptBytes true
  let freshBytes ← reverify claimed.request
  -- the fresh receipt may be written in another encoding, the claimed one may not
  let fresh ← parseAxleClosureArtifact codec sha256 freshBytes false
  guardElse (mismatchedComponents claimed fresh = [])
    (.reverification (mismatchedComponents claimed fresh))
  let fields : EvidenceFields := {
    engineIdentity
    canonicalReceiptBytes := declared.canonicalReceiptBytes
    receiptDigest := declared.receiptDigest
    boundSourceIdentityDigest := fresh.sourceIdentity.digest
    boundIndependentBundleDigest := fresh.independentBundleDigest
    boundProvidedInterfaceDigest := fresh.providedInterface.digest
    decision := "accepted" }
  let acceptance : AcceptedReceiptEvidence sha256 ←
    (constructed (fields.check sha256) fun h => ⟨fields, h⟩).mapError .record
  (verifiedEvidence {
    acceptance
    sourceIdentity := fresh.sourceIdentity
    independentBundleDigest := fresh.independentBundleDigest
    providedInterface := fresh.providedInterface
    rootDeclarations := fresh.request.rootDeclarations }).mapError .record

end PooFlow.Axle
