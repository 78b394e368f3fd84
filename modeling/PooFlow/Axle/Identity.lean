import PooFlow.Axle.Written
import PooFlow.Axle.Authority

namespace PooFlow.Axle

open Foundation Proof List JsonTree

def DeclarationIdentity.UpToOrder (declaration other : DeclarationIdentity) : Prop :=
  declaration.localDependencies.Perm other.localDependencies ∧
    other = { declaration with localDependencies := other.localDependencies }

def ProofBaseInterfaceDeclarationIdentity.UpToOrder
    (declaration other : ProofBaseInterfaceDeclarationIdentity) : Prop :=
  declaration.localDependencies.Perm other.localDependencies ∧
    other = { declaration with localDependencies := other.localDependencies }

/-- The bundles differ in the orders of their roots, proof base imports, resolved sources and
local dependencies, and in the digest of the interface, at most. -/
structure IndependentDeclarationBundle.UpToOrder (bundle other : IndependentDeclarationBundle) :
    Prop where
  roots : bundle.rootDeclarations.Perm other.rootDeclarations
  sources : bundle.resolvedSources.Perm other.resolvedSources
  imports : bundle.proofBaseImports.Perm other.proofBaseImports
  proofBase : List.Forall₂ ProofBaseInterfaceDeclarationIdentity.UpToOrder
    bundle.proofBaseDeclarations other.proofBaseDeclarations
  declarations : List.Forall₂ DeclarationIdentity.UpToOrder bundle.declarations other.declarations
  rest : other = { bundle with
    rootDeclarations := other.rootDeclarations
    resolvedSources := other.resolvedSources
    proofBaseImports := other.proofBaseImports
    proofBaseInterfaceDigest := other.proofBaseInterfaceDigest
    proofBaseDeclarations := other.proofBaseDeclarations
    declarations := other.declarations }

section

variable {α β : Type} {record : α → JsonTree}

theorem sortOn_id_inj {values others : List String} :
    sortOn id values = sortOn id others ↔ values.Perm others := by
  constructor
  · intro h
    exact (perm_sortOn id values).symm.trans (h ▸ perm_sortOn id others)
  · intro h
    exact sortOn_congr h fun _ _ _ _ heq => heq

theorem texts_inj {values others : List String} (h : texts values = texts others) :
    values = others :=
  map_injective_iff.2 (fun _ _ => string.inj) (array.inj h)

theorem optional_inj {value other : Option String} (h : optional value = optional other) :
    value = other := by
  cases value <;> cases other <;> simp_all [optional]

theorem map_eq_map_iff_forall₂ {f : α → β} {values others : List α} :
    values.map f = others.map f ↔ List.Forall₂ (fun a b => f a = f b) values others := by
  rw [← forall₂_eq_eq_eq, forall₂_map_left_iff, forall₂_map_right_iff]

theorem DeclarationIdentity.canonicalRecord_eq_iff {declaration other : DeclarationIdentity} :
    declaration.canonicalRecord = other.canonicalRecord ↔ declaration.UpToOrder other := by
  constructor
  · intro h
    have hfields := ofFields_inj (by rfl) (by simp) h
    simp only [List.cons.injEq, Prod.mk.injEq, true_and, string.injEq, and_true] at hfields
    obtain ⟨hkind, hdependencies, hname, hpath, hdigest⟩ := hfields
    refine ⟨sortOn_id_inj.1 (texts_inj hdependencies), ?_⟩
    cases declaration
    cases other
    simp_all
  · rintro ⟨hdependencies, hother⟩
    rw [hother]
    simp only [canonicalRecord, sortOn_id_inj.2 hdependencies]

theorem ProofBaseInterfaceDeclarationIdentity.canonicalRecord_eq_iff
    {declaration other : ProofBaseInterfaceDeclarationIdentity} :
    declaration.canonicalRecord = other.canonicalRecord ↔ declaration.UpToOrder other := by
  constructor
  · intro h
    have hfields := ofFields_inj (by rfl) (by simp) h
    simp only [List.cons.injEq, Prod.mk.injEq, true_and, string.injEq, and_true] at hfields
    obtain ⟨hkind, hparams, hdependencies, hname, htype, hvalue⟩ := hfields
    have hparams := texts_inj hparams
    have hvalue := optional_inj hvalue
    refine ⟨sortOn_id_inj.1 (texts_inj hdependencies), ?_⟩
    cases declaration
    cases other
    simp_all
  · rintro ⟨hdependencies, hother⟩
    rw [hother]
    simp only [canonicalRecord, sortOn_id_inj.2 hdependencies]

theorem ResolvedSourceIdentity.canonicalRecord_injective :
    Function.Injective ResolvedSourceIdentity.canonicalRecord := by
  intro source other h
  have hfields := ofFields_inj (by rfl) (by simp) h
  cases source
  cases other
  simp_all

theorem AxleEnvironmentIdentity.canonicalRecord_injective :
    Function.Injective AxleEnvironmentIdentity.canonicalRecord := by
  intro environment other h
  have hfields := ofFields_inj (by rfl) (by simp) h
  simp only [List.cons.injEq, Prod.mk.injEq, true_and, string.injEq, and_true] at hfields
  obtain ⟨himports, htoolchain, hname, hurl, hrevision, hsubdir⟩ := hfields
  have himports := texts_inj himports
  have hurl := optional_inj hurl
  have hrevision := optional_inj hrevision
  have hsubdir := optional_inj hsubdir
  cases environment
  cases other
  simp_all

end

section

variable {codec : Codec} {sha256 : List UInt8 → List UInt8} {asciiDumps : JsonTree → List UInt8}
  {bundle other : IndependentDeclarationBundle}

theorem sha256Digest_inj {payload payload' : List UInt8} :
    sha256Digest sha256 payload = sha256Digest sha256 payload' ↔
      sha256 payload = sha256 payload' := by
  constructor
  · intro h
    have htext : Hex.encode (sha256 payload) = Hex.encode (sha256 payload') := by
      simpa [sha256Digest, ← String.toList_inj] using h
    have hdecoded := Hex.decode_encode (sha256 payload)
    rw [htext, Hex.decode_encode] at hdecoded
    exact (Option.some.inj hdecoded).symm
  · intro h
    rw [sha256Digest, sha256Digest, h]

theorem utf8_injective : Function.Injective utf8 := by
  intro text text' h
  have hdecoded := decodeUtf8_utf8 text
  rw [h, decodeUtf8_utf8] at hdecoded
  exact (Option.some.inj hdecoded).symm

theorem zero_notMem_dumps (tree : JsonTree) : 0 ∉ textCodec.dumps tree := by
  have hofNat : ∀ n, 0 = UInt8.ofNat n → n % 256 = 0 := fun n h => by
    simpa using (congrArg UInt8.toNat h).symm
  have hchar : ∀ c : Char, 0 ∈ String.utf8EncodeChar c → c = '\x00' := by
    intro c hc
    have hval : c.val.toNat = 0 := by
      rw [String.utf8EncodeChar] at hc
      split_ifs at hc <;> simp only [mem_cons, not_mem_nil, or_false] at hc <;> grind
    exact Char.ext (UInt32.toNat_inj.1 hval)
  change 0 ∉ ((JsonText.render tree).flatMap String.utf8EncodeChar).toByteArray.data.toList
  rw [data_toByteArray]
  intro hmem
  obtain ⟨c, hc, hzero⟩ := mem_flatMap.1 hmem
  exact JsonText.nul_notMem_render tree (hchar c hzero ▸ hc)

/-- A text without a zero ends where the first zero stands. -/
theorem append_zero_inj {text text' rest rest' : List UInt8} (h : 0 ∉ text) (h' : 0 ∉ text')
    (heq : text ++ 0 :: rest = text' ++ 0 :: rest') : text = text' ∧ rest = rest' := by
  have htake := congrArg (List.takeWhile (· ≠ 0)) heq
  rw [takeWhile_append_of_pos (by simpa using fun a ha => ne_of_mem_of_not_mem ha h),
    takeWhile_append_of_pos (by simpa using fun a ha => ne_of_mem_of_not_mem ha h')] at htake
  have htext : text = text' := by simpa using htake
  subst htext
  exact ⟨rfl, (List.cons.inj (append_cancel_left heq)).2⟩

variable (codec sha256 asciiDumps)

namespace IndependentDeclarationBundle

variable (bundle)

/-- What `bundle_digest` hashes. -/
def payload : List UInt8 :=
  codec.dumps (bundle.canonicalManifest sha256) ++ [0] ++ utf8 bundle.canonicalSource

def interfaceRecords : JsonTree :=
  .ofFields [("declarations", .array (bundle.proofBaseDeclarations.map (·.interfaceRecord))),
    ("imports", texts bundle.proofBaseImports)]

end IndependentDeclarationBundle

variable {codec sha256 asciiDumps}

theorem sortOn_packageId_map {sources others : List ResolvedSourceIdentity}
    (hnodup : (sources.map (·.packageId)).Nodup) :
    (sortOn ResolvedSourceIdentity.packageId sources).map ResolvedSourceIdentity.canonicalRecord =
        (sortOn ResolvedSourceIdentity.packageId others).map
          ResolvedSourceIdentity.canonicalRecord ↔
      sources.Perm others := by
  rw [ResolvedSourceIdentity.canonicalRecord_injective.list_map.eq_iff]
  constructor
  · intro h
    exact (perm_sortOn _ sources).symm.trans (h ▸ perm_sortOn _ others)
  · intro h
    exact sortOn_congr h fun a ha b hb heq => inj_on_of_nodup_map hnodup ha hb heq

theorem canonicalManifest_eq_iff (hnodup : (bundle.resolvedSources.map (·.packageId)).Nodup)
    (hsource : bundle.canonicalSource = other.canonicalSource) :
    bundle.canonicalManifest sha256 = other.canonicalManifest sha256 ↔
      bundle.UpToOrder other ∧
        bundle.proofBaseInterfaceDigest = other.proofBaseInterfaceDigest := by
  constructor
  · intro h
    have hfields := ofFields_inj (by rfl) (by simp) h
    simp only [List.cons.injEq, Prod.mk.injEq, true_and, string.injEq, and_true, array.injEq,
      map_eq_map_iff_forall₂, DeclarationIdentity.canonicalRecord_eq_iff,
      ProofBaseInterfaceDeclarationIdentity.canonicalRecord_eq_iff] at hfields
    obtain ⟨henvironment, -, hdeclarations, htoolchain, hproofBase, himports, hdigest, hsources,
      hroots, hmodule⟩ := hfields
    have henvironment := AxleEnvironmentIdentity.canonicalRecord_injective henvironment
    refine ⟨⟨sortOn_id_inj.1 (texts_inj hroots), ?_, sortOn_id_inj.1 (texts_inj himports),
      hproofBase, hdeclarations, ?_⟩, hdigest⟩
    · exact (sortOn_packageId_map hnodup).1 (map_eq_map_iff_forall₂.2 hsources)
    · cases bundle
      cases other
      simp_all
  · rintro ⟨h, hdigest⟩
    have hdeclarations := map_eq_map_iff_forall₂.2
      (h.declarations.imp fun _ _ => DeclarationIdentity.canonicalRecord_eq_iff.2)
    have hproofBase := map_eq_map_iff_forall₂.2
      (h.proofBase.imp fun _ _ => ProofBaseInterfaceDeclarationIdentity.canonicalRecord_eq_iff.2)
    have hrest := h.rest
    simp only [IndependentDeclarationBundle.canonicalManifest,
      IndependentDeclarationBundle.canonicalSourceDigest, hdeclarations, hproofBase, hdigest,
      sortOn_id_inj.2 h.roots, sortOn_id_inj.2 h.imports, (sortOn_packageId_map hnodup).2 h.sources]
    rw [hrest]

theorem check_bundle_ok (h : bundle.check sha256 asciiDumps = .ok ()) :
    (bundle.resolvedSources.map (·.packageId)).Nodup ∧
      bundle.proofBaseInterfaceDigest =
        sha256Digest sha256 (asciiDumps bundle.interfaceRecords) := by
  simp only [IndependentDeclarationBundle.check, then_eq_ok, guardElse_eq_ok] at h
  obtain ⟨-, -, -, -, -, -, hsources, -, -, -, -, hdigest, -⟩ := h
  exact ⟨hsources, hdigest⟩

theorem canonical_interfaceRecords : bundle.interfaceRecords.Canonical := by
  have hrecord : ∀ declaration : ProofBaseInterfaceDeclarationIdentity,
      declaration.interfaceRecord.Canonical := fun declaration =>
    canonical_ofFields (by simp [canonical_texts, canonical_optional])
  exact canonical_ofFields (by
    simp [-canonical_array, canonical_texts, canonical_map hrecord])

/-- Bundles that differ in orders only have the same records of an interface, up to the order
of the imports. -/
theorem interfaceRecords_eq_iff (h : bundle.UpToOrder other) :
    bundle.interfaceRecords = other.interfaceRecords ↔
      bundle.proofBaseImports = other.proofBaseImports := by
  constructor
  · intro heq
    have hfields := ofFields_inj (by rfl) (by simp) heq
    simp only [List.cons.injEq, Prod.mk.injEq, true_and, and_true] at hfields
    exact texts_inj hfields.2
  · intro himports
    have hrecords : bundle.proofBaseDeclarations.map (·.interfaceRecord) =
        other.proofBaseDeclarations.map (·.interfaceRecord) := by
      refine map_eq_map_iff_forall₂.2 (h.proofBase.imp fun declaration other hsame => ?_)
      rw [hsame.2]
      rfl
    rw [IndependentDeclarationBundle.interfaceRecords, hrecords, himports]
    rfl

section

variable (hclean : ∀ tree : JsonTree, tree.Canonical → 0 ∉ codec.dumps tree)
  (hascii : ∀ {tree tree' : JsonTree}, tree.Canonical → tree'.Canonical →
    asciiDumps tree = asciiDumps tree' → tree = tree')
  (hsha : sha256 (bundle.payload codec sha256) = sha256 (other.payload codec sha256) →
    bundle.payload codec sha256 = other.payload codec sha256)
  (hsha' : sha256 (asciiDumps bundle.interfaceRecords) = sha256 (asciiDumps other.interfaceRecords) →
    asciiDumps bundle.interfaceRecords = asciiDumps other.interfaceRecords)
  (hbundle : bundle.check sha256 asciiDumps = .ok ())
  (hother : other.check sha256 asciiDumps = .ok ())

include hclean hascii hsha hsha' hbundle hother

theorem bundleDigest_eq_iff : bundle.bundleDigest codec sha256 = other.bundleDigest codec sha256 ↔
      bundle.UpToOrder other ∧ bundle.proofBaseImports = other.proofBaseImports := by
  obtain ⟨hnodup, hdigest⟩ := check_bundle_ok hbundle
  obtain ⟨-, hdigest'⟩ := check_bundle_ok hother
  have hinterface : bundle.UpToOrder other →
      (bundle.proofBaseInterfaceDigest = other.proofBaseInterfaceDigest ↔
        bundle.proofBaseImports = other.proofBaseImports) := by
    intro h
    rw [hdigest, hdigest', sha256Digest_inj, ← interfaceRecords_eq_iff h]
    exact ⟨fun heq => hascii canonical_interfaceRecords canonical_interfaceRecords (hsha' heq),
      fun heq => by rw [heq]⟩
  rw [← and_congr_right hinterface]
  change sha256Digest sha256 (bundle.payload codec sha256) =
    sha256Digest sha256 (other.payload codec sha256) ↔ _
  rw [sha256Digest_inj]
  constructor
  · intro h
    have h := hsha h
    simp only [IndependentDeclarationBundle.payload, append_assoc, singleton_append] at h
    obtain ⟨hdumps, hsource⟩ := append_zero_inj (hclean _ canonical_bundle)
      (hclean _ canonical_bundle) h
    exact (canonicalManifest_eq_iff hnodup (utf8_injective hsource)).1
      (codec.dumps_inj canonical_bundle canonical_bundle hdumps)
  · intro h
    have hsource : bundle.canonicalSource = other.canonicalSource := by
      rw [h.1.rest]
    simp only [IndependentDeclarationBundle.payload,
      (canonicalManifest_eq_iff hnodup hsource).2 h, hsource]

/-- **The identity of a bundle**: equal digests make bundles equal up to the orders of what the
manifest treats as sets, and a bundle keeps its digest under all these orders but that of the
imports of its proof base. -/
theorem bundle_identity_iff :
    (bundle.UpToOrder other ↔ bundle.bundleDigest codec sha256 = other.bundleDigest codec sha256) ↔
      (bundle.UpToOrder other → bundle.proofBaseImports = other.proofBaseImports) := by
  rw [bundleDigest_eq_iff hclean hascii hsha hsha' hbundle hother]
  exact ⟨fun h hup => (h.1 hup).2, fun h => ⟨fun hup => ⟨hup, h hup⟩, And.left⟩⟩

end

end

/-- A hash without collisions on what is hashed of the sample. -/
def sampleHash (payload : List UInt8) : List UInt8 :=
  if 0 ∈ payload then payload
  else List.replicate 32 (payload.foldl (fun sum byte => 31 * sum + byte) 0)

theorem sampleHash_payload {bundle other : IndependentDeclarationBundle}
    (h : sampleHash (bundle.payload textCodec sampleHash) =
      sampleHash (other.payload textCodec sampleHash)) :
    bundle.payload textCodec sampleHash = other.payload textCodec sampleHash := by
  have hzero : ∀ bundle : IndependentDeclarationBundle,
      0 ∈ bundle.payload textCodec sampleHash := fun _ => by
    simp [IndependentDeclarationBundle.payload]
  rwa [sampleHash, sampleHash, if_pos (hzero bundle), if_pos (hzero other)] at h

/-- Two proofs over two imports, in either order. -/
def sampleBundle (roots imports : List String) (digest : String) :
    IndependentDeclarationBundle where
  rootModule := "Example"
  rootDeclarations := roots
  leanToolchain := "4.31.0"
  axleEnvironment := ⟨"lean-4.31.0", "4.31.0", ["Init"], none, none, none⟩
  resolvedSources := [⟨"example", "main", sampleDigest, sampleDigest⟩]
  proofBaseImports := imports
  proofBaseInterfaceDigest := digest
  proofBaseDeclarations := [⟨"Base.given", "axiom", [], "Prop", none, []⟩]
  declarations := [⟨"Example.safe", "theorem", "Example.lean", sampleDigest, []⟩,
    ⟨"Example.sound", "theorem", "Example.lean", sampleDigest, []⟩]
  canonicalSource := "theorem Example.safe : True := trivial"

def sampleIdentity (roots imports : List String) : IndependentDeclarationBundle :=
  sampleBundle roots imports
    (sha256Digest sampleHash (textCodec.dumps (sampleBundle roots imports "").interfaceRecords))

def safeFirst : IndependentDeclarationBundle :=
  sampleIdentity ["Example.safe", "Example.sound"] ["A", "B"]

def soundFirst : IndependentDeclarationBundle :=
  sampleIdentity ["Example.sound", "Example.safe"] ["A", "B"]

def importsReordered : IndependentDeclarationBundle :=
  sampleIdentity ["Example.safe", "Example.sound"] ["B", "A"]

theorem safeFirst_checks : safeFirst.check sampleHash textCodec.dumps = .ok () := by decide +kernel

theorem reordered_roots_agree :
    (safeFirst.UpToOrder soundFirst ↔ safeFirst.bundleDigest textCodec sampleHash =
        soundFirst.bundleDigest textCodec sampleHash) ↔
      (safeFirst.UpToOrder soundFirst →
        safeFirst.proofBaseImports = soundFirst.proofBaseImports) :=
  bundle_identity_iff (fun tree _ => zero_notMem_dumps tree) textCodec.dumps_inj
    sampleHash_payload (by decide +kernel) safeFirst_checks (by decide +kernel)

/-- The digest of the proofs changes when their two imports trade places. -/
theorem reordered_imports_differ : safeFirst.UpToOrder importsReordered ∧
    safeFirst.check sampleHash textCodec.dumps = .ok () ∧
    importsReordered.check sampleHash textCodec.dumps = .ok () ∧
    safeFirst.bundleDigest textCodec sampleHash ≠
      importsReordered.bundleDigest textCodec sampleHash := by
  have hbackward : importsReordered.check sampleHash textCodec.dumps = .ok () := by decide +kernel
  refine ⟨⟨.refl _, .refl _, .swap _ _ _, .cons ⟨.refl _, rfl⟩ .nil, .cons ⟨.refl _, rfl⟩
    (.cons ⟨.refl _, rfl⟩ .nil), rfl⟩, safeFirst_checks, hbackward, fun hdigest => ?_⟩
  have himports := ((bundleDigest_eq_iff (fun tree _ => zero_notMem_dumps tree)
    textCodec.dumps_inj sampleHash_payload (by decide +kernel) safeFirst_checks hbackward).1
      hdigest).2
  exact absurd himports (by decide)

end PooFlow.Axle
