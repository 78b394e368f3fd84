import PooFlow.Axle.Written

/-! `lean_declaration_closure.py`: the cache is keyed by the request, the compiled root module and
the exporter. -/

namespace PooFlow.Axle

open Foundation Proof List Function

section

def readText : JsonTree → Option String
  | .string text => some text
  | _ => none

def readTexts : JsonTree → Option (List String)
  | .array items => items.mapM readText
  | _ => none

def readNat : JsonTree → Option ℕ
  | .number value => if 0 ≤ value then some value.toNat else none
  | .bool value => some value.toNat
  | _ => none

/-- The object `from_mapping` reads. -/
def mappingOf : JsonTree → Option JsonTree
  | .object fields => some (.object fields)
  | _ => none

def readRange (value : JsonTree) : Option LeanSourceRange := do
  let range ← mappingOf value
  let startLine ← readNat (field range "start_line")
  let startColumn ← readNat (field range "start_column")
  let startCharUtf16 ← readNat (field range "start_char_utf16")
  let endLine ← readNat (field range "end_line")
  let endColumn ← readNat (field range "end_column")
  let endCharUtf16 ← readNat (field range "end_char_utf16")
  return ⟨startLine, startColumn, startCharUtf16, endLine, endColumn, endCharUtf16⟩

/-- A value that may be left out or null. -/
def readOptional {α : Type} (read : JsonTree → Option α) : JsonTree → Option (Option α)
  | .null => some none
  | value => (read value).map some

def readDeclaration (value : JsonTree) : Option LeanDeclaration := do
  let declaration ← mappingOf value
  let name ← readText (field declaration "name")
  let kind ← readText (field declaration "kind")
  let ownerModule ← readText (field declaration "owner_module")
  let localDependencies ← readTexts (field declaration "local_dependencies")
  let sourceRange ← readOptional readRange (field declaration "source_range")
  return { name, kind, ownerModule, localDependencies, sourceRange }

def readProofBase (value : JsonTree) : Option LeanProofBaseInterfaceDeclaration := do
  let declaration ← mappingOf value
  let valueSource ← readOptional readText (field declaration "value_source")
  let declarationRole ← readText (field declaration "declaration_role")
  let name ← readText (field declaration "name")
  let levelParams ← readTexts (field declaration "level_params")
  let typeSource ← readText (field declaration "type_source")
  return { name, declarationRole, levelParams, typeSource, valueSource }

def readItems {α : Type} (read : JsonTree → Option α) : JsonTree → Option (List α)
  | .array items => items.mapM read
  | _ => none

def readFields (value : JsonTree) : Option (String × LeanClosureFields) := do
  let closure ← mappingOf value
  let schemaId ← readText (field closure "schema_id")
  let leanVersion ← readText (field closure "lean_version")
  let rootModule ← readText (field closure "root_module")
  let rootDeclarations ← readTexts (field closure "root_declarations")
  let baseImports ← readTexts (field closure "base_imports")
  let proofBaseImports ← readTexts (field closure "proof_base_imports")
  let proofBaseInterface ← readItems readProofBase (field closure "proof_base_interface")
  let ownerModules ← readTexts (field closure "owner_modules")
  let declarations ← readItems readDeclaration (field closure "declarations")
  return (schemaId, ⟨leanVersion, rootModule, rootDeclarations, baseImports, proofBaseImports,
    proofBaseInterface, ownerModules, declarations⟩)

variable (codec : Codec)

/-- `LeanDeclarationClosure.from_json`. Values of another shape are refused before those whose
texts or relations are. -/
def fromJson (source : List UInt8) : Except EmitError LeanDeclarationClosure :=
  match codec.loads source with
  | .error _ => .error ⟨"invalid-json", []⟩
  | .ok value =>
    match readFields value with
    | none => .error ⟨"invalid-field", []⟩
    | some (schemaId, fields) =>
      if schemaId ≠ closureSchema then .error ⟨"unsupported-schema", [schemaId]⟩
      else match h : fields.check with
        | .error error => .error error
        | .ok () => .ok ⟨fields, h⟩

end

structure LeanDeclarationClosureRequest where
  rootModule : String
  rootDeclarations : List String
  baseImports : List String
  proofBaseImports : List String

/-- What is compiled: the modules by their names, and the exporter. -/
structure Build where
  oleans : String → Option (List UInt8)
  exporter : Option (List UInt8)

section

variable (codec : Codec) (sha256 : List UInt8 → List UInt8)
  (lean : LeanDeclarationClosureRequest → Build → Except EmitError (List UInt8))

namespace LeanDeclarationClosureRequest

variable (request : LeanDeclarationClosureRequest) (build : Build)

/-- The name of the cache entry of a compiled root module and an exporter. -/
def cacheKeyOf (rootOlean exporter : List UInt8) : List UInt8 :=
  sha256 (codec.dumps (.ofFields [("base_imports", texts request.baseImports),
    ("proof_base_imports", texts request.proofBaseImports),
    ("root_declarations", texts request.rootDeclarations),
    ("root_module", .string request.rootModule),
    ("schema_id", .string "poo-flow.lean-declaration-closure-cache.v2")]) ++
      sha256 rootOlean ++ sha256 exporter)

def cacheKey : Option (List UInt8) := do
  let rootOlean ← build.oleans request.rootModule
  let exporter ← build.exporter
  return request.cacheKeyOf codec sha256 rootOlean exporter

/-- The closure of an exported text, if it answers the request. -/
def answered (source : List UInt8) : Except EmitError LeanDeclarationClosure := do
  let closure ← fromJson codec source
  guardElse (closure.rootModule = request.rootModule)
    ⟨"root-module-mismatch", [request.rootModule, closure.rootModule]⟩
  guardElse (closure.rootDeclarations = request.rootDeclarations)
    ⟨"root-declaration-mismatch", [request.rootModule]⟩
  guardElse (closure.baseImports = "Init" :: request.baseImports.filter (· ≠ "Init"))
    ⟨"base-import-mismatch", [request.rootModule]⟩
  guardElse (closure.proofBaseImports = request.proofBaseImports)
    ⟨"proof-base-import-mismatch", [request.rootModule]⟩
  return closure

/-- An export without a cache. -/
def fresh : Except EmitError LeanDeclarationClosure := do
  guardElse (request.rootDeclarations ≠ []) ⟨"missing-root-declaration", [request.rootModule]⟩
  let source ← lean request build
  request.answered codec source

end LeanDeclarationClosureRequest

structure World where
  build : Build
  cache : List UInt8 → Option (List UInt8)

/-- The cached text for a request, which is used without another export. -/
def World.cached (world : World) (request : LeanDeclarationClosureRequest) : Option (List UInt8) :=
  (request.cacheKey codec sha256 world.build).bind world.cache

/-- `export_declaration_closure`, after the modules are built. -/
def exportDeclarationClosure (world : World) (request : LeanDeclarationClosureRequest) :
    Except EmitError LeanDeclarationClosure × World :=
  if request.rootDeclarations = [] then
    (.error ⟨"missing-root-declaration", [request.rootModule]⟩, world)
  else match world.cached codec sha256 request with
    | some source => (request.answered codec source, world)
    | none =>
      match lean request world.build with
      | .error error => (.error error, world)
      | .ok source =>
        match request.answered codec source, request.cacheKey codec sha256 world.build with
        | .ok closure, some key =>
          (.ok closure, { world with cache := Function.update world.cache key (some source) })
        | result, _ => (result, world)

inductive Step where
  | «export» (request : LeanDeclarationClosureRequest)
  | rebuild (build : Build)
  | corrupt (key : List UInt8) (source : Option (List UInt8))

def World.step (world : World) : Step → World
  | .«export» request => (exportDeclarationClosure codec sha256 lean world request).2
  | .rebuild build => { world with build }
  | .corrupt key source => { world with cache := Function.update world.cache key source }

section

variable {codec sha256 lean} {request : LeanDeclarationClosureRequest} {world world' : World}
  {closure : LeanDeclarationClosure} {source key : List UInt8}

theorem export_cached (hroots : request.rootDeclarations ≠ [])
    (hcached : world.cached codec sha256 request = some source) :
    exportDeclarationClosure codec sha256 lean world request =
      (request.answered codec source, world) := by
  rw [exportDeclarationClosure, if_neg hroots, hcached]

theorem export_stored (hroots : request.rootDeclarations ≠ [])
    (hcached : world.cached codec sha256 request = none)
    (hexported : lean request world.build = .ok source)
    (hanswered : request.answered codec source = .ok closure)
    (hkey : request.cacheKey codec sha256 world.build = some key) :
    exportDeclarationClosure codec sha256 lean world request =
      (.ok closure, { world with cache := update world.cache key (some source) }) := by
  rw [exportDeclarationClosure, if_neg hroots, hcached]
  simp only [hexported, hanswered, hkey]

theorem foldl_exported {result : Except EmitError LeanDeclarationClosure} {steps : List Step}
    (h : exportDeclarationClosure codec sha256 lean world request = (result, world')) :
    (.«export» request :: steps).foldl (World.step codec sha256 lean) world =
      steps.foldl (World.step codec sha256 lean) world' :=
  congrArg (steps.foldl (World.step codec sha256 lean)) (congrArg Prod.snd h)

end

variable (importsOf : List UInt8 → List String) (builds : Set Build)
  (requests : Set LeanDeclarationClosureRequest)

/-- The import closure of a module: `importsOf` reads the imports of a compiled one. -/
inductive Imported (build : Build) (root : String) : String → Prop
  | root : Imported build root root
  | next {name imported : String} {olean : List UInt8} (h : Imported build root name)
      (hcompiled : build.oleans name = some olean) (hmem : imported ∈ importsOf olean) :
      Imported build root imported

/-- What the cache relies on: keys do not collide over the builds and the requests of a run, and
an export depends on its arguments, the exporter and the compiled import closure. -/
structure Reliable : Prop where
  keys : ∀ build ∈ builds, ∀ build' ∈ builds, ∀ request ∈ requests, ∀ request' ∈ requests,
    ∀ key, request.cacheKey codec sha256 build = some key →
      request'.cacheKey codec sha256 build' = some key →
      request = request' ∧ build.oleans request.rootModule = build'.oleans request.rootModule ∧
        build.exporter = build'.exporter
  exports : ∀ build ∈ builds, ∀ build' ∈ builds, ∀ request ∈ requests,
    build.exporter = build'.exporter →
    (∀ name, Imported importsOf build request.rootModule name →
      build.oleans name = build'.oleans name) →
    lean request build = lean request build'

def Step.Within : Step → Prop
  | .«export» request => request ∈ requests
  | .rebuild build => build ∈ builds
  | .corrupt _ _ => True

/-- A world with the exports whose texts stand in the cache; a text without one is the work of a
corruption. -/
structure Traced extends World where
  author : List UInt8 → Option (LeanDeclarationClosureRequest × Build)

def Traced.start (build : Build) : Traced := ⟨⟨build, fun _ => none⟩, fun _ => none⟩

def Traced.step (traced : Traced) (step : Step) : Traced where
  toWorld := traced.toWorld.step codec sha256 lean step
  author key :=
    if (traced.toWorld.step codec sha256 lean step).cache key = traced.cache key then
      traced.author key
    else match step with
      | .«export» request => some (request, traced.build)
      | .rebuild _ | .corrupt _ _ => none

/-- A corrupted text is refused, and behind an export's text no module was compiled again but
those that the key covers. -/
def Traced.Current (traced : Traced) (request : LeanDeclarationClosureRequest) : Prop :=
  ∀ key text, request.cacheKey codec sha256 traced.build = some key →
    traced.cache key = some text →
    match traced.author key with
    | none => ∃ error, request.answered codec text = .error error
    | some (_, build) => ∀ name, Imported importsOf build request.rootModule name →
        name ≠ request.rootModule → build.oleans name = traced.build.oleans name

/-- The export that is kept of a text did write it. -/
structure Traced.Sound (traced : Traced) : Prop where
  build : traced.build ∈ builds
  written : ∀ key request build, traced.author key = some (request, build) →
    request ∈ requests ∧ build ∈ builds ∧ request.cacheKey codec sha256 build = some key ∧
      ∃ text, traced.cache key = some text ∧ lean request build = .ok text

variable {codec sha256 lean importsOf builds requests} {request : LeanDeclarationClosureRequest}
  {traced : Traced}

/-- **What an export writes**: nothing, or its text under its key. -/
theorem export_writes (world : World) (request : LeanDeclarationClosureRequest) :
    (exportDeclarationClosure codec sha256 lean world request).2 = world ∨
      ∃ key source, request.cacheKey codec sha256 world.build = some key ∧
        lean request world.build = .ok source ∧
        (exportDeclarationClosure codec sha256 lean world request).2 =
          { world with cache := update world.cache key (some source) } := by
  rw [exportDeclarationClosure]
  split_ifs
  · exact .inl rfl
  split
  · exact .inl rfl
  split
  · exact .inl rfl
  · rename_i source hexported
    split
    · rename_i key _ hkey
      exact .inr ⟨key, source, hkey, hexported, rfl⟩
    · exact .inl rfl

theorem Traced.author_of_kept {step : Step} {key : List UInt8}
    (h : (traced.toWorld.step codec sha256 lean step).cache key = traced.cache key) :
    (traced.step codec sha256 lean step).author key = traced.author key :=
  if_pos h

theorem Traced.author_of_written {key : List UInt8}
    (h : (exportDeclarationClosure codec sha256 lean traced.toWorld request).2.cache key ≠
      traced.cache key) :
    (traced.step codec sha256 lean (.«export» request)).author key =
      some (request, traced.build) :=
  if_neg h

theorem Traced.toWorld_step (step : Step) :
    (traced.step codec sha256 lean step).toWorld = traced.toWorld.step codec sha256 lean step :=
  rfl

@[simp] theorem Traced.step_rebuild (build : Build) :
    traced.step codec sha256 lean (.rebuild build) = { traced with build } := by
  simp [Traced.step, World.step]

theorem Traced.Sound.step (h : traced.Sound codec sha256 lean builds requests) {step : Step}
    (hstep : step.Within builds requests) :
    (traced.step codec sha256 lean step).Sound codec sha256 lean builds requests := by
  refine ⟨?_, fun key request build hauthor => ?_⟩
  · cases step with
    | rebuild build => exact hstep
    | corrupt key source => exact h.build
    | «export» request =>
      obtain hkept | ⟨_, _, -, -, hwritten⟩ :=
        @export_writes codec sha256 lean traced.toWorld request
      · exact (congrArg World.build hkept).symm ▸ h.build
      · exact (congrArg World.build hwritten).symm ▸ h.build
  by_cases hkept : (traced.toWorld.step codec sha256 lean step).cache key = traced.cache key
  · obtain ⟨hrequest, hbuild, hkey, text, htext, hexported⟩ :=
      h.written key request build (Traced.author_of_kept hkept ▸ hauthor)
    exact ⟨hrequest, hbuild, hkey, text, hkept.trans htext, hexported⟩
  · simp only [Traced.step, if_neg hkept] at hauthor
    cases step with
    | rebuild _ | corrupt _ _ => cases hauthor
    | «export» other =>
      obtain ⟨rfl, rfl⟩ := Prod.mk.inj (Option.some.inj hauthor)
      rw [World.step] at hkept
      obtain hsame | ⟨key', source, hkey, hexported, hwritten⟩ :=
        @export_writes codec sha256 lean traced.toWorld other
      · exact absurd (congrFun (congrArg World.cache hsame) key) hkept
      · rw [hwritten] at hkept
        obtain rfl : key = key' := by
          by_contra hne
          exact hkept (update_of_ne hne _ _)
        refine ⟨hstep, h.build, hkey, source, ?_, hexported⟩
        exact (congrFun (congrArg World.cache hwritten) key).trans (update_self _ _ _)

theorem Traced.sound_run {steps : List Step} (h : traced.Sound codec sha256 lean builds requests)
    (hsteps : ∀ step ∈ steps, step.Within builds requests) :
    (steps.foldl (Traced.step codec sha256 lean) traced).Sound codec sha256 lean builds
      requests := by
  induction steps generalizing traced with
  | nil => exact h
  | cons step steps ih =>
    obtain ⟨hstep, hrest⟩ := forall_mem_cons.1 hsteps
    exact ih (h.step hstep) hrest

/-- **A cache over modules that stand** is used for what a fresh export gives only, in every state
of every run. -/
theorem cached_eq_fresh (hreliable : Reliable codec sha256 lean importsOf builds requests)
    {build : Build} (hbuild : build ∈ builds) {steps : List Step}
    (hsteps : ∀ step ∈ steps, step.Within builds requests) :
    let traced := steps.foldl (Traced.step codec sha256 lean) (.start build)
    ∀ request ∈ requests, traced.Current codec sha256 importsOf request →
      (traced.cached codec sha256 request).isSome → ∀ closure,
        (exportDeclarationClosure codec sha256 lean traced.toWorld request).1 = .ok closure →
          request.fresh codec lean traced.build = .ok closure := by
  intro traced request hrequest hcurrent hcached closure hresult
  have hsound : traced.Sound codec sha256 lean builds requests :=
    Traced.sound_run ⟨hbuild, nofun⟩ hsteps
  obtain ⟨source, hsource⟩ := Option.isSome_iff_exists.1 hcached
  obtain ⟨key, hkey, hentry⟩ := Option.bind_eq_some_iff.1 hsource
  rw [exportDeclarationClosure] at hresult
  split_ifs at hresult with hroots
  rw [hsource] at hresult
  have hentry' := hcurrent key source hkey hentry
  split at hentry'
  · obtain ⟨error, herror⟩ := hentry'
    cases herror.symm.trans hresult
  · next other former hauthor =>
    obtain ⟨hother, hformer, hkey', text, htext, hexported⟩ := hsound.written _ _ _ hauthor
    obtain rfl := Option.some.inj (htext.symm.trans hentry)
    obtain ⟨rfl, hroot, hexporter⟩ :=
      hreliable.keys _ hformer _ hsound.build _ hother _ hrequest _ hkey' hkey
    -- the key covers the root module, and the others stand as they were
    have hsame : lean other former = lean other traced.build := by
      refine hreliable.exports _ hformer _ hsound.build _ hrequest hexporter fun name hname => ?_
      obtain rfl | hne := eq_or_ne name other.rootModule
      · exact hroot
      · exact hentry' name hname hne
    exact then_eq_ok.2 ⟨guardElse_of hroots, bind_eq_ok.2 ⟨text, hsame ▸ hexported, hresult⟩⟩

end

section

/-- A closure that tells which module was read. -/
def exportedClosure (fresh : Bool) : LeanDeclarationClosure where
  leanVersion := if fresh then "2" else "1"
  rootModule := "Root"
  rootDeclarations := ["Root.safe"]
  baseImports := ["Init"]
  proofBaseImports := []
  proofBaseInterface := []
  ownerModules := ["Root"]
  declarations := [⟨"Root.safe", "theorem", "Root", [], none⟩]
  valid := by cases fresh <;> decide +kernel

/-- A module that is compiled again, behind a root module that does not change. -/
def rebuilt (fresh : Bool) : Build where
  oleans name := if name = "Root" then some [0] else some [if fresh then 2 else 1]
  exporter := some [1]

def rootRequest : LeanDeclarationClosureRequest := ⟨"Root", ["Root.safe"], ["Init"], []⟩

def sampleLean (_ : LeanDeclarationClosureRequest) (build : Build) :
    Except EmitError (List UInt8) :=
  .ok (textCodec.dumps (exportedClosure (build.oleans "Dependency" = some [2])).canonicalManifest)

variable (fresh : Bool)

theorem answered_exported : rootRequest.answered textCodec
    (textCodec.dumps (exportedClosure fresh).canonicalManifest) = .ok (exportedClosure fresh) := by
  have hread : readFields (exportedClosure fresh).canonicalManifest =
      some (closureSchema, (exportedClosure fresh).toLeanClosureFields) := by
    cases fresh <;> rfl
  have hjson : fromJson textCodec (textCodec.dumps (exportedClosure fresh).canonicalManifest) =
      .ok (exportedClosure fresh) := by
    rw [fromJson, textCodec.loads_dumps (canonical_closure _)]
    simp only [hread]
    rw [if_neg (by simp)]
    split
    · rename_i error herror
      cases herror.symm.trans (exportedClosure fresh).valid
    · rfl
  rw [LeanDeclarationClosureRequest.answered, hjson, ok_bind]
  exact then_eq_ok.2 ⟨guardElse_of rfl, then_eq_ok.2 ⟨guardElse_of rfl,
    then_eq_ok.2 ⟨guardElse_of (by simp [exportedClosure, rootRequest]),
      then_eq_ok.2 ⟨guardElse_of rfl, rfl⟩⟩⟩⟩

/-- The key of the request, whichever of the two modules stands behind the root. -/
def rootKey : List UInt8 := rootRequest.cacheKeyOf textCodec id [0] [1]

theorem key_rebuilt : rootRequest.cacheKey textCodec id (rebuilt fresh) = some rootKey := by
  have holean : (rebuilt fresh).oleans rootRequest.rootModule = some [0] := by
    simp [rebuilt, rootRequest]
  rw [LeanDeclarationClosureRequest.cacheKey, holean]
  rfl

theorem lean_rebuilt : sampleLean rootRequest (rebuilt fresh) =
    .ok (textCodec.dumps (exportedClosure fresh).canonicalManifest) := by
  cases fresh <;> rfl

/-- What is cached once the root was exported over a module. -/
def storedWorld (fresh after : Bool) : World where
  build := rebuilt after
  cache := Function.update (fun _ => none) rootKey
    (some (textCodec.dumps (exportedClosure fresh).canonicalManifest))

theorem export_rebuilt :
    exportDeclarationClosure textCodec id sampleLean ⟨rebuilt fresh, fun _ => none⟩ rootRequest =
      (.ok (exportedClosure fresh), storedWorld fresh fresh) := by
  have hmissed : World.cached textCodec id ⟨rebuilt fresh, fun _ => none⟩ rootRequest = none := by
    rw [World.cached, key_rebuilt, Option.bind_some]
  exact export_stored (by decide) hmissed (lean_rebuilt fresh) (answered_exported fresh)
    (key_rebuilt fresh)

theorem cached_stored (after : Bool) : (storedWorld fresh after).cached textCodec id rootRequest =
      some (textCodec.dumps (exportedClosure fresh).canonicalManifest) := by
  rw [World.cached]
  simp only [storedWorld, key_rebuilt, Option.bind_some, update_self]

theorem served_stored (after : Bool) :
    (exportDeclarationClosure textCodec id sampleLean (storedWorld fresh after) rootRequest).1 =
      .ok (exportedClosure fresh) := by
  rw [export_cached (by decide) (cached_stored fresh after), answered_exported]

def rebuilds : Set Build := {build | ∃ fresh, build = rebuilt fresh}

theorem reliable_rebuilt :
    Reliable textCodec id sampleLean (fun _ => ["Dependency"]) rebuilds {rootRequest} where
  keys := by
    rintro _ ⟨fresh, rfl⟩ _ ⟨fresh', rfl⟩ _ rfl _ rfl key _ _
    exact ⟨rfl, rfl, rfl⟩
  exports := by
    rintro _ ⟨fresh, rfl⟩ _ ⟨fresh', rfl⟩ _ rfl _ hsame
    have hdependency := hsame "Dependency" (.next .root (show _ = some [0] from rfl)
      mem_cons_self)
    unfold sampleLean
    rw [hdependency]

/-- **A module is compiled again**, and the closure that is exported after it is served to the
next export, which a fresh export would answer alike. -/
theorem closure_served_again :
    let traced := [.rebuild (rebuilt true), .«export» rootRequest].foldl
      (Traced.step textCodec id sampleLean) (.start (rebuilt false))
    (traced.cached textCodec id rootRequest).isSome ∧
      (exportDeclarationClosure textCodec id sampleLean traced.toWorld rootRequest).1 =
        .ok (exportedClosure true) ∧
      rootRequest.fresh textCodec sampleLean traced.build = .ok (exportedClosure true) := by
  have hfresh := @cached_eq_fresh _ _ _ _ _ _ reliable_rebuilt (rebuilt false) ⟨false, rfl⟩
    [.rebuild (rebuilt true), .«export» rootRequest] (by simp [Step.Within, rebuilds])
    rootRequest rfl
  rw [foldl_cons, foldl_cons, foldl_nil, Traced.step_rebuild] at hfresh ⊢
  intro traced
  have hworld : traced.toWorld = storedWorld true true := by
    rw [Traced.toWorld_step, World.step, Traced.start, export_rebuilt]
  have hcached := hworld ▸ cached_stored true true
  have hserved := hworld ▸ served_stored true true
  have hauthor : traced.author rootKey = some (rootRequest, rebuilt true) := by
    refine Traced.author_of_written ?_
    rw [Traced.start, export_rebuilt]
    simp [storedWorld]
  have hsome := Option.isSome_iff_exists.2 ⟨_, hcached⟩
  refine ⟨hsome, hserved, hfresh ?_ hsome _ hserved⟩
  intro key text hkey _
  rw [congrArg World.build hworld] at hkey ⊢
  obtain rfl : rootKey = key := Option.some.inj ((key_rebuilt true).symm.trans hkey)
  rw [hauthor]
  exact fun _ _ _ => rfl

/-- A module behind the root is compiled again, and the closure of the old one is served. -/
theorem stale_closure_served :
    let world := [.«export» rootRequest, .rebuild (rebuilt true)].foldl
      (World.step textCodec id sampleLean) ⟨rebuilt false, fun _ => none⟩
    (world.cached textCodec id rootRequest).isSome ∧
      (exportDeclarationClosure textCodec id sampleLean world rootRequest).1 =
        .ok (exportedClosure false) ∧
      rootRequest.fresh textCodec sampleLean world.build = .ok (exportedClosure true) := by
  intro world
  have hworld : world = storedWorld false true := foldl_exported (export_rebuilt false)
  have hfresh : rootRequest.fresh textCodec sampleLean (rebuilt true) =
      .ok (exportedClosure true) :=
    then_eq_ok.2 ⟨guardElse_of (by decide),
      bind_eq_ok.2 ⟨_, lean_rebuilt true, answered_exported true⟩⟩
  rw [hworld]
  exact ⟨Option.isSome_iff_exists.2 ⟨_, cached_stored false true⟩, served_stored false true, hfresh⟩

end

end PooFlow.Axle
