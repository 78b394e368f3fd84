import PooFlow.Contract.Schema

/-! `json-schema-normalize-core.ss`, `-parse.ss` and `-resolve.ss`. Parsing yields `none` where it
raises, on a pattern that does not compile. Its fuel is the size of the schema. -/

namespace PooFlow.Contract

open JsonDatum

inductive SchemaReason where
  | invalidSchema
  | invalidRef
  | invalidTypeEntry
  | unknownType
  | invalidConstraintValue
  | invalidProperties
  | invalidAdditionalProperties
  | invalidPatternProperties
  | unsupportedReference
  | cyclicReference
  | unresolvedReference

/-- `poo-flow-json-schema-diagnostic`; all of them are warnings. -/
structure SchemaDiagnostic where
  reason : SchemaReason
  message : String
  value : JsonDatum

abbrev Parsed (α : Type) := α × List SchemaDiagnostic

def mapPairWithDiagnostics {α β : Type} (project : α → Option (Parsed β)) (values : List α) :
    Option (Parsed (List β)) := do
  let parsed ← values.mapM project
  return (parsed.map Prod.fst, (parsed.map Prod.snd).flatten)

/-- The rows of an alist whose keys are strings or symbols, what
`poo-flow-json-schema-json-object?` accepts. -/
def schemaRows (value : JsonDatum) : Option (List Row) := do
  let rows ← value.jsonObject
  if rows.all (·.1.keyString.isSome) then some rows else none

/-- `poo-flow-json-schema-array-value`: a list of one list is unwrapped. -/
def arrayValue (value : JsonDatum) : List JsonDatum :=
  match value.jsonArray with
  | [item] => if (schemaRows item).isNone then item.items.getD [item] else [item]
  | items => items

/-- `poo-flow-json-schema-pair-entry-value`: a list of one object is unwrapped. -/
def pairEntryValue : JsonDatum → JsonDatum
  | .pair item .nil =>
    if (schemaRows (.pair item .nil)).isNone ∧ (schemaRows item).isSome then item
    else .pair item .nil
  | tail => tail

def requiredSymbols (rows : List Row) : List String :=
  ((objectRef rows "required").map arrayValue).getD [] |>.filterMap fun
    | .text name => some name
    | _ => none

def constraintDiagnostic (rows : List Row) (test : JsonDatum → Bool) (message : String)
    (keyword : String) : List SchemaDiagnostic :=
  match objectRef rows keyword with
  | none => []
  | some value => if test value then [] else [⟨.invalidConstraintValue, message, value⟩]

def constraintDiagnostics (rows : List Row) : List SchemaDiagnostic :=
  (["minLength", "maxLength", "minItems", "maxItems", "minProperties", "maxProperties"].map <|
    constraintDiagnostic rows (fun | .number value => value.den = 1 && 0 ≤ value | _ => false)
      "JSON Schema constraint must be a non-negative integer.").flatten ++
  (["minimum", "maximum", "exclusiveMinimum", "exclusiveMaximum", "multipleOf"].map <|
    constraintDiagnostic rows (fun | .number _ => true | _ => false)
      "JSON Schema constraint must be a number.").flatten ++
  (["pattern", "format"].map <|
    constraintDiagnostic rows (fun | .text _ => true | _ => false)
      "JSON Schema constraint must be a string.").flatten

variable (pregexp : String → Option (String → Bool))

section

-- How the schemas inside a schema are parsed.
variable (parse : JsonDatum → Option (Parsed Node))

def parseProperties (rows : List Row) : Option (Parsed (List (Property Node))) :=
  match objectRef rows "properties" with
  | none => some ([], [])
  | some properties =>
    match schemaRows properties with
    | none => some ([], [⟨.invalidProperties, "JSON Schema properties must be an object.",
        properties⟩])
    | some properties =>
      mapPairWithDiagnostics (fun entry => do
        let name := entry.1.keySymbol
        let (schema, diagnostics) ← parse (pairEntryValue entry.2)
        return (⟨name, schema, (requiredSymbols rows).contains name⟩, diagnostics)) properties

/-- `poo-flow-json-schema-parse-additional-properties`: without the keyword, `#t`. -/
def parseAdditionalProperties (rows : List Row) : Option (Parsed (Additional Node)) :=
  match objectRef rows "additionalProperties" with
  | none => some (.flag true, [])
  | some (.boolean allowed) => some (.flag allowed, [])
  | some value =>
    if (schemaRows value).isSome then do
      let (schema, diagnostics) ← parse value
      return (.schema schema, diagnostics)
    else some (.flag false, [⟨.invalidAdditionalProperties,
      "JSON Schema additionalProperties must be boolean or object.", value⟩])

def parsePatternProperties (rows : List Row) : Option (Parsed (List (PatternProperty Node))) :=
  match objectRef rows "patternProperties" with
  | none => some ([], [])
  | some patterns =>
    match schemaRows patterns with
    | none => some ([], [⟨.invalidPatternProperties,
        "JSON Schema patternProperties must be an object.", patterns⟩])
    | some patterns =>
      mapPairWithDiagnostics (fun entry => do
        let (schema, diagnostics) ← parse (pairEntryValue entry.2)
        let pattern := entry.1.keySymbol
        let _ ← pregexp pattern
        return (⟨pattern, schema⟩, diagnostics)) patterns

def parseObjectSchema (rows : List Row) : Option (Parsed Node) := do
  let properties ← parseProperties parse rows
  let additional ← parseAdditionalProperties parse rows
  let patterns ← parsePatternProperties pregexp parse rows
  return (.object rows properties.1 additional.1 patterns.1,
    properties.2 ++ additional.2 ++ patterns.2)

/-- `poo-flow-json-schema-parse-array-schema`, with tuples. -/
def parseArraySchema (rows : List Row) : Option (Parsed Node) :=
  match objectRef rows "items" with
  | none => some (.array rows (.any []), [])
  | some items =>
    if (schemaRows (.list (arrayValue items))).isNone then do
      let parsed ← mapPairWithDiagnostics parse (arrayValue items)
      return (.tuple rows parsed.1, parsed.2)
    else do
      let parsed ← parse items
      return (.array rows parsed.1, parsed.2)

def parseTypeName (typeName : String) (rows : List Row) : Option (Parsed Node) :=
  let scalar (kind : ScalarKind) := some (.scalar kind rows, constraintDiagnostics rows)
  match typeName with
  | "object" => parseObjectSchema pregexp parse rows
  | "array" => parseArraySchema parse rows
  | "string" => scalar .string
  | "number" => scalar .number
  | "integer" => scalar .integer
  | "boolean" => scalar .boolean
  | "null" => scalar .null
  | _ => some (.unchecked .unknownType,
      [⟨.unknownType, "JSON Schema type is not supported.", .symbol typeName⟩])

def parseType (declaredType : JsonDatum) (rows : List Row) : Option (Parsed Node) :=
  match declaredType with
  | .text typeName => parseTypeName pregexp parse typeName rows
  | declaredType => do
    let parsed ← mapPairWithDiagnostics (fun entry =>
      match entry with
      | .text typeName => do
        let (node, diagnostics) ← parseTypeName pregexp parse typeName rows
        return (some node, diagnostics)
      | entry => some (none, [⟨.invalidTypeEntry,
          "JSON Schema type array entry must be a string.", entry⟩])) (arrayValue declaredType)
    return (.logical .oneOf parsed.1.reduceOption, parsed.2)

def parseImplicit (rows : List Row) : Option (Parsed Node) :=
  if ["properties", "additionalProperties", "patternProperties"].any
      (objectRef rows · |>.isSome) then
    parseObjectSchema pregexp parse rows
  else if (objectRef rows "items").isSome then parseArraySchema parse rows
  else some (.any rows, [])

/-- `poo-flow-json-schema-parse-logical`: the first of its keywords, if any. -/
def parseLogical (rows : List Row) : Option (Option (Parsed Node)) :=
  let parseList (kind : LogicalKind) (value : JsonDatum) : Option (Parsed Node) := do
    let parsed ← mapPairWithDiagnostics parse (arrayValue value)
    return (.logical kind parsed.1, parsed.2)
  match objectRef rows "allOf", objectRef rows "anyOf", objectRef rows "oneOf",
      objectRef rows "not" with
  | some value, _, _, _ => some (parseList .allOf value)
  | none, some value, _, _ => some (parseList .anyOf value)
  | none, none, some value, _ => some (parseList .oneOf value)
  | none, none, none, some value => some do
    let parsed ← parse value
    return (.negation parsed.1, parsed.2)
  | none, none, none, none => none

def parseObject (rows : List Row) : Option (Parsed Node) :=
  match objectRef rows "$ref" with
  | some (.text reference) => some (.ref reference, [])
  | some reference => some (.unchecked .invalidRef,
      [⟨.invalidRef, "JSON Schema $ref must be a string.", reference⟩])
  | none =>
    match parseLogical parse rows with
    | some parsed => parsed
    | none =>
      match objectRef rows "type" with
      | some declaredType => parseType pregexp parse declaredType rows
      | none => parseImplicit pregexp parse rows

end

/-- `poo-flow-json-schema-parse/context`. -/
def parse : ℕ → JsonDatum → Option (Parsed Node)
  | 0, _ => none
  | fuel + 1, schema =>
    match schemaRows schema with
    | some rows => parseObject pregexp (parse fuel) rows
    | none =>
      match schema with
      | .boolean _ => some (.unchecked .booleanSchema, [])
      | schema => some (.unchecked .invalid,
          [⟨.invalidSchema, "JSON Schema entry must be an object or boolean.", schema⟩])

def parseDefinitions (fuel : ℕ) (rows : List Row) : Option (Parsed (List (String × Node))) := do
  let pairs (keyword : String) :=
    mapPairWithDiagnostics (fun entry : Row => do
      let (node, diagnostics) ← parse pregexp fuel (pairEntryValue entry.2)
      return ((entry.1.keySymbol, node), diagnostics))
      (((objectRef rows keyword).bind schemaRows).getD [])
  let definitions ← pairs "definitions"
  let defs ← pairs "$defs"
  return (definitions.1 ++ defs.1, definitions.2 ++ defs.2)

def localDefinitionName (reference : String) : Option String := do
  let name ← "#/definitions/".toList.isPrefixOf? reference.toList <|>
    "#/$defs/".toList.isPrefixOf? reference.toList
  if name = [] then none else some (String.ofList name)

section

-- How a reference is resolved.
variable (resolveRef : String → Parsed Node)

mutual

def resolveNode : Node → Parsed Node
  | .ref reference => resolveRef reference
  | .object schema properties additional patternProperties =>
    let resolved := resolveProperties properties
    let resolvedAdditional := resolveAdditional additional
    let resolvedPatterns := resolvePatterns patternProperties
    (.object schema resolved.1 resolvedAdditional.1 resolvedPatterns.1,
      resolved.2 ++ resolvedAdditional.2 ++ resolvedPatterns.2)
  | .array schema items =>
    let resolved := resolveNode items
    (.array schema resolved.1, resolved.2)
  | .tuple schema items =>
    let resolved := resolveNodes items
    (.tuple schema resolved.1, resolved.2)
  | .logical kind children =>
    let resolved := resolveNodes children
    (.logical kind resolved.1, resolved.2)
  | .scalar kind schema => (.scalar kind schema, [])
  | .any schema => (.any schema, [])
  | .unchecked kind => (.unchecked kind, [])
  -- what is negated is not descended into
  | .negation child => (.negation child, [])
termination_by structural node => node

def resolveNodes : List Node → Parsed (List Node)
  | [] => ([], [])
  | node :: nodes =>
    let resolved := resolveNode node
    let rest := resolveNodes nodes
    (resolved.1 :: rest.1, resolved.2 ++ rest.2)
termination_by structural nodes => nodes

def resolveProperties : List (Property Node) → Parsed (List (Property Node))
  | [] => ([], [])
  | property :: properties =>
    let resolved := resolveProperty property
    let rest := resolveProperties properties
    (resolved.1 :: rest.1, resolved.2 ++ rest.2)
termination_by structural properties => properties

def resolveProperty : Property Node → Parsed (Property Node)
  | ⟨name, schema, required⟩ =>
    let resolved := resolveNode schema
    (⟨name, resolved.1, required⟩, resolved.2)
termination_by structural property => property

/-- `poo-flow-json-schema-resolve-additional-properties`. -/
def resolveAdditional : Additional Node → Parsed (Additional Node)
  | .flag allowed => (.flag allowed, [])
  | .schema node =>
    let resolved := resolveNode node
    (.schema resolved.1, resolved.2)
termination_by structural additional => additional

/-- `poo-flow-json-schema-resolve-pattern-properties`. -/
def resolvePatterns : List (PatternProperty Node) → Parsed (List (PatternProperty Node))
  | [] => ([], [])
  | property :: properties =>
    let resolved := resolvePattern property
    let rest := resolvePatterns properties
    (resolved.1 :: rest.1, resolved.2 ++ rest.2)
termination_by structural properties => properties

def resolvePattern : PatternProperty Node → Parsed (PatternProperty Node)
  | ⟨pattern, schema⟩ =>
    let resolved := resolveNode schema
    (⟨pattern, resolved.1⟩, resolved.2)
termination_by structural property => property

end

end

def fallback (reason : SchemaReason) (message reference : String) : Parsed Node :=
  (.unchecked .predicateFallback, [⟨reason, message, .text reference⟩])

/-- `poo-flow-json-schema-resolve-ref`. Names that were seen are not followed
again, so that one round for each definition is enough. -/
def resolveRef (references : List (String × Node)) : ℕ → List String → String → Parsed Node
  | rounds, seen, reference =>
    match localDefinitionName reference with
    | none => fallback .unsupportedReference
        "Only local #/definitions/<name> and #/$defs/<name> references are supported in P0"
        reference
    | some name =>
      if name ∈ seen then
        fallback .cyclicReference
          "Cyclic JSON Schema references fall back to an opaque predicate" reference
      else
        match references.find? (·.1 = name), rounds with
        | some target, rounds + 1 =>
          resolveNode (resolveRef references rounds (name :: seen)) target.2
        | _, _ => fallback .unresolvedReference
            "Local JSON Schema reference could not be resolved" reference

/-- `poo-flow-json-schema-normalization`. -/
structure Normalization where
  schema : Node
  references : List (String × Node)
  diagnostics : List SchemaDiagnostic

mutual

def JsonDatum.size : JsonDatum → ℕ
  | .pair car cdr => car.size + cdr.size + 1
  | .vector items => JsonDatum.sizes items + 1
  | _ => 1
termination_by structural datum => datum

def JsonDatum.sizes : List JsonDatum → ℕ
  | [] => 0
  | item :: items => item.size + JsonDatum.sizes items
termination_by structural items => items

end

def normalize (schema : JsonDatum) : Option Normalization := do
  let definitions ← parseDefinitions pregexp schema.size (schema.jsonObject.getD [])
  let root ← parse pregexp schema.size schema
  let references := definitions.1
  let resolved := resolveNode (resolveRef references references.length []) root.1
  return ⟨resolved.1, references, root.2 ++ definitions.2 ++ resolved.2⟩

end PooFlow.Contract
