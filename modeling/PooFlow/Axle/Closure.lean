import PooFlow.Axle.Receipt
import Mathlib.Data.List.MinMax

/-! What the Lean exporter answers, as in `lean_declaration_closure.py`, and the source declarations
of its names, as in `axle_exact_closure.py`. -/

namespace PooFlow.Axle

open Foundation Proof

structure EmitError where
  code : String
  shown : List String
deriving DecidableEq

def startsWith (name front : String) : Bool := front.toList.isPrefixOf name.toList

def endsWith (name back : String) : Bool := back.toList.isSuffixOf name.toList

def removePrefix (name front : String) : String :=
  if startsWith name front then String.ofList (name.toList.drop front.length) else name

def firstPart (name : String) (separator : Char) : String :=
  String.ofList (name.toList.takeWhile (· ≠ separator))

/-- `name.rpartition(".")[0]` -/
def namespaceOf (name : String) : String :=
  String.ofList ((name.toList.reverse.dropWhile (· ≠ '.')).drop 1).reverse

/-- `name.rpartition(".")[2]` -/
def baseName (name : String) : String :=
  String.ofList (name.toList.reverse.takeWhile (· ≠ '.')).reverse

def belongsTo (name declaration : String) : Bool :=
  name = declaration || startsWith name (declaration ++ ".")

def coveringDocument (name : String) (documentNames : List String) : Option String :=
  (documentNames.filter (belongsTo name)).argmax String.length

structure LeanSourceRange where
  startLine : ℕ
  startColumn : ℕ
  startCharUtf16 : ℕ
  endLine : ℕ
  endColumn : ℕ
  endCharUtf16 : ℕ
deriving DecidableEq

structure LeanDeclaration where
  name : String
  kind : String
  ownerModule : String
  localDependencies : List String
  sourceRange : Option LeanSourceRange

structure LeanProofBaseInterfaceDeclaration where
  name : String
  declarationRole : String
  levelParams : List String
  typeSource : String
  valueSource : Option String

def texts (values : List String) : JsonTree := .array (values.map .string)

def optional (value : Option String) : JsonTree :=
  match value with
  | some text => .string text
  | none => .null

def LeanSourceRange.canonicalRecord (range : LeanSourceRange) : JsonTree :=
  .ofFields [("start_line", .number range.startLine), ("start_column", .number range.startColumn),
    ("start_char_utf16", .number range.startCharUtf16), ("end_line", .number range.endLine),
    ("end_column", .number range.endColumn), ("end_char_utf16", .number range.endCharUtf16)]

def LeanDeclaration.canonicalRecord (declaration : LeanDeclaration) : JsonTree :=
  .ofFields ([("kind", .string declaration.kind),
    ("local_dependencies", texts declaration.localDependencies),
    ("name", .string declaration.name), ("owner_module", .string declaration.ownerModule)] ++
    (declaration.sourceRange.map fun range => ("source_range", range.canonicalRecord)).toList)

def LeanProofBaseInterfaceDeclaration.canonicalRecord
    (declaration : LeanProofBaseInterfaceDeclaration) : JsonTree :=
  .ofFields [("declaration_role", .string declaration.declarationRole),
    ("level_params", texts declaration.levelParams), ("name", .string declaration.name),
    ("type_source", .string declaration.typeSource),
    ("value_source", optional declaration.valueSource)]

/-- The fields of `LeanDeclarationClosure`. -/
structure LeanClosureFields where
  leanVersion : String
  rootModule : String
  rootDeclarations : List String
  baseImports : List String
  proofBaseImports : List String
  proofBaseInterface : List LeanProofBaseInterfaceDeclaration
  ownerModules : List String
  declarations : List LeanDeclaration

def closureSchema : String := "poo-flow.lean-declaration-closure.v1"

def requireString (value label : String) : Except EmitError Unit :=
  guardElse (value ≠ "") ⟨"invalid-field", [label]⟩

def requireStringTuple (values : List String) (label : String) : Except EmitError Unit :=
  guardElse ("" ∉ values) ⟨"invalid-field", [label]⟩

def LeanProofBaseInterfaceDeclaration.check (declaration : LeanProofBaseInterfaceDeclaration) :
    Except EmitError Unit := do
  guardElse (declaration.valueSource ≠ some "")
    ⟨"invalid-field", ["proof_base_interface.value_source"]⟩
  requireString declaration.declarationRole "proof_base_interface.declaration_role"
  guardElse (declaration.declarationRole ∈ ["abbrev", "axiom", "definition", "instance"])
    ⟨"invalid-field", ["proof_base_interface.declaration_role"]⟩
  requireString declaration.name "proof_base_interface.name"
  requireStringTuple declaration.levelParams "proof_base_interface.level_params"
  requireString declaration.typeSource "proof_base_interface.type_source"

/-- The checks of `LeanSourceRange.from_mapping`. -/
def LeanSourceRange.check (range : LeanSourceRange) : Except EmitError Unit := do
  guardElse (range.startLine ≠ 0 ∧ range.endLine ≠ 0)
    ⟨"invalid-source-range", ["line numbers are 1-based"]⟩
  guardElse (range.startLine < range.endLine ∨
      range.startLine = range.endLine ∧ range.startCharUtf16 ≤ range.endCharUtf16)
    ⟨"invalid-source-range", ["end precedes start"]⟩

def LeanDeclaration.check (declaration : LeanDeclaration) : Except EmitError Unit := do
  requireString declaration.name "declaration.name"
  requireString declaration.kind "declaration.kind"
  requireString declaration.ownerModule "declaration.owner_module"
  requireStringTuple declaration.localDependencies "declaration.local_dependencies"
  declaration.sourceRange.toList.forM LeanSourceRange.check

def checkTopological : List String → List LeanDeclaration → Except EmitError Unit
  | _, [] => .ok ()
  | emitted, declaration :: declarations => do
    guardElse (declaration.name ∉ emitted) ⟨"duplicate-declaration", [declaration.name]⟩
    let missing := declaration.localDependencies.filter (· ∉ emitted)
    guardElse (missing = []) ⟨"non-topological-declaration", declaration.name :: missing⟩
    checkTopological (declaration.name :: emitted) declarations

namespace LeanClosureFields

variable (fields : LeanClosureFields)

def names : List String := fields.declarations.map LeanDeclaration.name

def proofBaseNames : List String :=
  fields.proofBaseInterface.map LeanProofBaseInterfaceDeclaration.name

/-- The checks of `from_mapping` on the fields. -/
def checkStrings : Except EmitError Unit := do
  requireString fields.leanVersion "lean_version"
  requireString fields.rootModule "root_module"
  requireStringTuple fields.rootDeclarations "root_declarations"
  requireStringTuple fields.baseImports "base_imports"
  requireStringTuple fields.proofBaseImports "proof_base_imports"
  fields.proofBaseInterface.forM LeanProofBaseInterfaceDeclaration.check
  requireStringTuple fields.ownerModules "owner_modules"
  fields.declarations.forM LeanDeclaration.check

/-- `LeanDeclarationClosure.__post_init__` -/
def checkClosure : Except EmitError Unit := do
  guardElse (fields.rootDeclarations ≠ []) ⟨"missing-root-declaration", [fields.rootModule]⟩
  guardElse fields.rootDeclarations.Nodup ⟨"duplicate-root-declaration", [fields.rootModule]⟩
  guardElse (fields.baseImports ≠ []) ⟨"missing-base-import", [fields.rootModule]⟩
  guardElse fields.proofBaseImports.Nodup ⟨"duplicate-proof-base-import", [fields.rootModule]⟩
  guardElse fields.proofBaseNames.Nodup
    ⟨"duplicate-proof-base-interface-declaration", [fields.rootModule]⟩
  guardElse (sortOn id fields.ownerModules.dedup = fields.ownerModules)
    ⟨"non-canonical-owner-modules", [fields.rootModule]⟩
  checkTopological [] fields.declarations
  let missingRoots := fields.rootDeclarations.filter (· ∉ fields.names)
  guardElse (missingRoots = []) ⟨"root-outside-closure", missingRoots⟩
  let owners := fields.declarations.map LeanDeclaration.ownerModule
  guardElse (sortOn id owners.dedup = sortOn id fields.ownerModules.dedup)
    ⟨"owner-module-mismatch", [fields.rootModule]⟩

def check : Except EmitError Unit := do
  fields.checkStrings
  fields.checkClosure

def canonicalManifest : JsonTree :=
  .ofFields [("base_imports", texts fields.baseImports),
    ("declarations", .array (fields.declarations.map LeanDeclaration.canonicalRecord)),
    ("lean_version", .string fields.leanVersion), ("owner_modules", texts fields.ownerModules),
    ("proof_base_imports", texts fields.proofBaseImports),
    ("proof_base_interface", .array
      (fields.proofBaseInterface.map LeanProofBaseInterfaceDeclaration.canonicalRecord)),
    ("root_declarations", texts fields.rootDeclarations),
    ("root_module", .string fields.rootModule), ("schema_id", .string closureSchema)]

end LeanClosureFields

/-- `LeanDeclarationClosure`, as it is read from the exporter. -/
structure LeanDeclarationClosure extends LeanClosureFields where
  valid : toLeanClosureFields.check = .ok ()

def rangeKey (range : LeanSourceRange) : ℕ ×ₗ ℕ := toLex (range.startLine, range.startCharUtf16)

def rangeEndKey (range : LeanSourceRange) : ℕ ×ₗ ℕ := toLex (range.endLine, range.endCharUtf16)

def rangeContains (outer inner : LeanSourceRange) : Bool :=
  rangeKey outer ≤ rangeKey inner ∧ rangeEndKey inner ≤ rangeEndKey outer

def rangeOrder (range : LeanSourceRange) : ℤ ×ₗ ℤ ×ₗ ℤ ×ₗ ℤ :=
  toLex (range.startLine, toLex (range.startCharUtf16, toLex (-range.endLine, -range.endCharUtf16)))

def appendUnder {α : Type} [DecidableEq α] (key : α) (value : String) :
    List (α × List String) → List (α × List String)
  | [] => [(key, [value])]
  | (other, values) :: rest =>
    if other = key then (other, values ++ [value]) :: rest
    else (other, values) :: appendUnder key value rest

def coalesceOne (coalesced : List (LeanSourceRange × List String))
    (ranged : LeanSourceRange × List String) :
    Except EmitError (List (LeanSourceRange × List String)) :=
  match coalesced.findIdx? fun existing => rangeContains existing.1 ranged.1 with
  | some index =>
    .ok (coalesced.modify index fun existing => (existing.1, existing.2 ++ ranged.2))
  | none => do
    guardElse (coalesced.all fun existing => rangeEndKey existing.1 ≤ rangeKey ranged.1)
      ⟨"partially-overlapping-source-ranges", []⟩
    return coalesced ++ [ranged]

def coalesceSourceRanges (ranged : List (LeanSourceRange × List String)) :
    Except EmitError (List (LeanSourceRange × List String)) := do
  let coalesced ← (sortOn (rangeOrder ·.1) ranged).foldlM coalesceOne []
  return coalesced.map fun existing => (existing.1, existing.2.eraseDups)

def rangedDeclarations (declarations : List LeanDeclaration) :
    Except EmitError (List (LeanSourceRange × List String)) :=
  declarations.foldlM (fun ranged declaration => do
    let range ← presentElse declaration.sourceRange
      ⟨"declaration-source-range-missing", [declaration.name]⟩
    return appendUnder range declaration.name ranged) []

/-- The least of the names by `(name.count("."), len(name), name)`. -/
def anchorOf (names : List String) : Option String :=
  (sortOn (fun name : String => (toLex (name.toList.count '.', toLex (name.length, name)) :
    ℕ ×ₗ ℕ ×ₗ String)) names).head?

def aliasesOfRange (declarations : List LeanDeclaration)
    (ranged : LeanSourceRange × List String) : Except EmitError (List (String × String)) := do
  let outerNames := ranged.2.filter fun name =>
    declarations.any fun declaration =>
      declaration.name = name && declaration.sourceRange = some ranged.1
  let anchor ← presentElse (anchorOf outerNames) ⟨"source-declaration-anchor-missing", ranged.2⟩
  return ranged.2.map fun name => (name, anchor)

def sourceDeclarationAliases (closure : LeanDeclarationClosure) :
    Except EmitError (List (String × String)) := do
  let missing := closure.declarations.filter (·.sourceRange = none)
  guardElse (missing = [])
    ⟨"declaration-source-range-missing", (missing.take 1).map LeanDeclaration.name⟩
  let modules := (closure.declarations.map LeanDeclaration.ownerModule).eraseDups
  let aliases ← modules.mapM fun moduleName => do
    let ranged ← rangedDeclarations (closure.declarations.filter (·.ownerModule = moduleName))
    let coalesced ← coalesceSourceRanges ranged
    coalesced.mapM (aliasesOfRange closure.declarations)
  return aliases.flatten.flatten

def instanceAnchor (aliases : List (String × String)) (name : String)
    (named : String → String → Bool) : Option String :=
  ((aliases.map Prod.snd).eraseDups.filter fun anchor =>
    startsWith name (namespaceOf anchor ++ ".inst") &&
      named anchor (firstPart (removePrefix name (namespaceOf anchor ++ ".")) '.')).argmax
    String.length

def aliasOf (aliases : List (String × String)) (name : String) : Option String :=
  (coveringDocument name (aliases.map Prod.fst)).bind fun owner => aliases.lookup owner

/-- `source_name` of `source_declaration_closure` -/
def sourceName (aliases : List (String × String)) (name : String) : String :=
  (aliasOf aliases name <|> instanceAnchor aliases name fun anchor head =>
    endsWith head (removePrefix anchor (namespaceOf anchor ++ "."))).getD name

/-- `_normalized_source_declaration_name`, which goes on with the owner of an inaccessible
name, which is shorter. -/
def normalizedName (aliases : List (String × String)) : ℕ → String → String
  | 0, name => name
  | fuel + 1, name =>
    match aliasOf aliases name with
    | some anchor => anchor
    | none =>
      let internalOwner := firstPart (String.ofList (name.toList.drop 2)) '»'
      let normalized := normalizedName aliases fuel internalOwner
      if startsWith name "«_" ∧ '»' ∈ name.toList ∧
          (normalized ≠ internalOwner ∨ internalOwner ∈ aliases.map Prod.snd) then normalized
      else
        (instanceAnchor aliases name fun anchor head =>
          namespaceOf anchor ≠ "" && endsWith head (baseName anchor)).getD name

def normalizedSourceDeclarationName (aliases : List (String × String)) (name : String) : String :=
  normalizedName aliases (name.length + 1) name

structure Document where
  name : String
  kind : String
  declaration : String
  localTypeDependencies : List String
  localValueDependencies : List String
  localSyntacticDependencies : List String

def Document.dependencies (document : Document) : List String :=
  (document.localTypeDependencies ++ document.localValueDependencies ++
    document.localSyntacticDependencies).eraseDups

def byName (documents : List Document) (name : String) : Option Document :=
  documents.reverse.find? (·.name = name)

def ownerOf (documents : List Document) (aliases : List (String × String)) (name : String) :
    Option String :=
  coveringDocument (sourceName aliases name) (documents.map Document.name)

def dependenciesOf (documents : List Document) (name : String) : List String :=
  ((byName documents name).map Document.dependencies).getD []

/-- The pending loop of `source_declaration_closure`. Every name is pending once. -/
def closeOver (documents : List Document) (aliases : List (String × String)) :
    ℕ → List String → List String → Except EmitError (List String)
  | _, [], selected => .ok selected
  | 0, _, selected => .ok selected
  | fuel + 1, name :: pending, selected => do
    let owners ← (dependenciesOf documents name).mapM fun dependency =>
      presentElse (ownerOf documents aliases dependency)
        ⟨"local-dependency-without-source-declaration", [name, dependency]⟩
    let fresh := (owners.filter (· ∉ selected)).eraseDups
    closeOver documents aliases fuel (fresh.reverse ++ pending) (selected ++ fresh)

/-- `visit` of `_topological_order`. -/
def visit (dependencies : String → List String) :
    ℕ → List String → List String → String → Except EmitError (List String)
  | 0, _, ordered, _ => .ok ordered
  | fuel + 1, visiting, ordered, name =>
    if name ∈ ordered then .ok ordered
    else if name ∈ visiting then
      .error ⟨"source-declaration-cycle", visiting.dropWhile (· ≠ name) ++ [name]⟩
    else do
      let ordered ← (sortOn id (dependencies name)).foldlM
        (visit dependencies fuel (visiting ++ [name])) ordered
      return ordered ++ [name]

def topologicalOrder (names : List String) (dependencies : String → List String) :
    Except EmitError (List String) :=
  (sortOn id names).foldlM (visit dependencies (names.length + 1) []) []

def sourceDeclarationClosure (leanDeclarations rootDeclarations : List String)
    (documents : List Document) (aliases : List (String × String)) :
    Except EmitError (List String) := do
  let declared ← leanDeclarations.mapM fun declaration =>
    presentElse (ownerOf documents aliases declaration)
      ⟨"lean-constant-without-source-declaration", [declaration]⟩
  let roots ← rootDeclarations.mapM fun root =>
    presentElse (ownerOf documents aliases root) ⟨"root-without-source-declaration", [root]⟩
  let seed := (declared ++ roots).eraseDups
  let selected ← closeOver documents aliases documents.length seed seed
  topologicalOrder selected fun name =>
    ((dependenciesOf documents name).filterMap (ownerOf documents aliases)).eraseDups.filter
      fun owner => owner ∈ selected ∧ owner ≠ name

end PooFlow.Axle
