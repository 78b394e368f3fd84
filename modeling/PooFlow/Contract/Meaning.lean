import PooFlow.Contract.Emission

/-! What JSON Schema says of the supported keywords, the schemas whose meaning normalization keeps,
and the values that the fast path reads as what they are. -/

namespace PooFlow.Contract

open JsonDatum Foundation

/-- How an array or an object is written: as a list or an alist, or as a vector or a
hash table. -/
inductive Layout where
  | listed
  | packed

/-- A JSON value as it is written. -/
inductive JsonValue where
  | null (datum : JsonDatum) (hnull : datum.isNull)
  | boolean (value : Bool)
  | number (value : ℚ)
  | text (value : String)
  | array (layout : Layout) (items : List JsonValue)
  | object (layout : Layout) (rows : List (String × JsonValue))

namespace JsonValue

mutual

def datum : JsonValue → JsonDatum
  | null datum _ => datum
  | boolean value => .boolean value
  | number value => .number value
  | text value => .text value
  | array .listed items => list (itemData items)
  | array .packed items => .vector (itemData items)
  | object .listed rows => alist (rowData rows)
  | object .packed rows => .table ((rowData rows).map fun row => (.text row.1, row.2))
termination_by structural value => value

def itemData : List JsonValue → List JsonDatum
  | [] => []
  | item :: items => item.datum :: itemData items
termination_by structural items => items

def rowData : List (String × JsonValue) → List (String × JsonDatum)
  | [] => []
  | row :: rows => rowDatum row :: rowData rows
termination_by structural rows => rows

def rowDatum : String × JsonValue → String × JsonDatum
  | (key, value) => (key, value.datum)
termination_by structural row => row

end

/-- One value, however it is written and in whichever order its keys stand. -/
inductive Same : JsonValue → JsonValue → Prop where
  | null {first second : JsonDatum} (hfirst : first.isNull) (hsecond : second.isNull) :
      Same (null first hfirst) (null second hsecond)
  | boolean (value : Bool) : Same (boolean value) (boolean value)
  | number (value : ℚ) : Same (number value) (number value)
  | text (value : String) : Same (text value) (text value)
  | array {layout layout' : Layout} {items items' : List JsonValue}
      (hitems : List.Forall₂ Same items items') : Same (array layout items) (array layout' items')
  | object {layout layout' : Layout} {rows rows' ordered : List (String × JsonValue)}
      (horder : rows'.Perm ordered) (hkeys : rows.map Prod.fst = ordered.map Prod.fst)
      (hvalues : List.Forall₂ Same (rows.map Prod.snd) (ordered.map Prod.snd)) :
      Same (object layout rows) (object layout' rows')

end JsonValue

/-- A name of the keyword `type`. -/
def HasType (typeName : String) (value : JsonValue) : Prop :=
  match typeName with
  | "object" => ∃ layout rows, value = .object layout rows
  | "array" => ∃ layout items, value = .array layout items
  | "string" => ∃ text, value = .text text
  | "number" => ∃ number, value = .number number
  | "integer" => ∃ number, value = .number number ∧ number.den = 1
  | "boolean" => ∃ b, value = .boolean b
  | "null" => ∃ datum hnull, value = .null datum hnull
  | _ => False

variable (pregexp : String → Option (String → Bool))

def Bounded (constraint : Constraint) (value : JsonValue) : Prop :=
  match constraint with
  | (.minLength, .number bound) => ∀ text, value = .text text → bound ≤ text.length
  | (.maxLength, .number bound) => ∀ text, value = .text text → text.length ≤ bound
  | (.minimum, .number bound) => ∀ number, value = .number number → bound ≤ number
  | (.maximum, .number bound) => ∀ number, value = .number number → number ≤ bound
  | (.exclusiveMinimum, .number bound) => ∀ number, value = .number number → bound < number
  | (.exclusiveMaximum, .number bound) => ∀ number, value = .number number → number < bound
  | (.minItems, .number bound) => ∀ layout items, value = .array layout items → bound ≤ items.length
  | (.maxItems, .number bound) => ∀ layout items, value = .array layout items → items.length ≤ bound
  | (.minProperties, .number bound) => ∀ layout rows, value = .object layout rows → bound ≤ rows.length
  | (.maxProperties, .number bound) => ∀ layout rows, value = .object layout rows → rows.length ≤ bound
  | (.pattern, .text pattern) => ∀ text, value = .text text →
      ∃ matcher, pregexp pattern = some matcher ∧ matcher text
  | _ => True

def patternMatches (pattern : JsonDatum) (key : String) : Bool :=
  (pregexp pattern.keySymbol).any (· key)

/-- A key that neither `properties` nor `patternProperties` speaks of. -/
def Additional.IsKey (schema : List Row) (key : String) : Prop :=
  (∀ properties, objectRef schema "properties" = some properties →
    ∀ entry ∈ (schemaRows properties).getD [], entry.1.keySymbol ≠ key) ∧
  ∀ patterns, objectRef schema "patternProperties" = some patterns →
    ∀ entry ∈ (schemaRows patterns).getD [], patternMatches pregexp entry.1 key = false

/-- A condition holds at one position of a list. -/
def ExactlyOne {α : Type} (p : α → Prop) (values : List α) : Prop :=
  ∃ before value after, values = before ++ value :: after ∧ p value ∧
    ∀ other ∈ before ++ after, ¬p other

/-- The keywords of a schema, side by side. `follow` is the meaning of references
and `accepts` that of the schemas inside. -/
structure AcceptsRows (follow : String → JsonValue → Prop)
    (accepts : JsonDatum → JsonValue → Prop) (schema : List Row) (value : JsonValue) : Prop where
  ref : ∀ reference, objectRef schema "$ref" = some (.text reference) → follow reference value
  type : ∀ declared, objectRef schema "type" = some declared →
    match declared with
    | .text typeName => HasType typeName value
    | declared => ∃ typeName, .text typeName ∈ declared.jsonArray ∧ HasType typeName value
  enum : ∀ values, objectRef schema "enum" = some values →
    ∃ member : JsonValue, member.datum ∈ values.jsonArray ∧ member.Same value
  const : ∀ expected, objectRef schema "const" = some expected →
    ∃ member : JsonValue, member.datum = expected ∧ member.Same value
  allOf : ∀ schemas, objectRef schema "allOf" = some schemas →
    ∀ inner ∈ schemas.jsonArray, accepts inner value
  anyOf : ∀ schemas, objectRef schema "anyOf" = some schemas →
    ∃ inner ∈ schemas.jsonArray, accepts inner value
  oneOf : ∀ schemas, objectRef schema "oneOf" = some schemas →
    ExactlyOne (accepts · value) schemas.jsonArray
  bounds : ∀ constraint ∈ schemaConstraints schema, Bounded pregexp constraint value
  items : ∀ inner, objectRef schema "items" = some inner →
    ∀ layout items, value = .array layout items →
      if (schemaRows (.list (arrayValue inner))).isSome then ∀ item ∈ items, accepts inner item
      else ∀ pair ∈ inner.jsonArray.zip items, accepts pair.1 pair.2
  required : ∀ names, objectRef schema "required" = some names →
    ∀ layout rows, value = .object layout rows →
      ∀ name, .text name ∈ names.jsonArray → (rows.lookup name).isSome
  properties : ∀ properties, objectRef schema "properties" = some properties →
    ∀ layout rows, value = .object layout rows → ∀ entry ∈ (schemaRows properties).getD [],
      ∀ inner, rows.lookup entry.1.keySymbol = some inner → accepts entry.2 inner
  patternProperties : ∀ patterns, objectRef schema "patternProperties" = some patterns →
    ∀ layout rows, value = .object layout rows → ∀ entry ∈ (schemaRows patterns).getD [],
      ∀ row ∈ rows, patternMatches pregexp entry.1 row.1 → accepts entry.2 row.2
  additionalProperties : ∀ inner, objectRef schema "additionalProperties" = some inner →
    ∀ layout rows, value = .object layout rows → ∀ row ∈ rows,
      Additional.IsKey pregexp schema row.1 → accepts inner row.2

/-- The meaning of a schema: an object of keywords, or a boolean. -/
def Accepts (follow : String → JsonValue → Prop) : ℕ → JsonDatum → JsonValue → Prop
  | 0, _, _ => False
  | fuel + 1, schema, value =>
    match schemaRows schema with
    | some rows => AcceptsRows pregexp follow (Accepts follow fuel) rows value
    | none => ∃ allowed, schema = .boolean allowed ∧ allowed = true

def definitionOf (root : JsonDatum) (reference : String) : Option JsonDatum := do
  let name ← localDefinitionName reference
  let place := if ("#/definitions/".toList.isPrefixOf? reference.toList).isSome then "definitions"
    else "$defs"
  objectRef (← (objectRef (root.jsonObject.getD []) place).bind schemaRows) name

/-- The meaning of references, followed so many times. -/
def Follows (root : JsonDatum) : ℕ → String → JsonValue → Prop
  | 0, _, _ => False
  | rounds + 1, reference, value => ∃ target, definitionOf root reference = some target ∧
      Accepts pregexp (Follows root rounds) root.size target value

def definitionNames (root : JsonDatum) : List String :=
  ["definitions", "$defs"].flatMap fun keyword =>
    (((objectRef (root.jsonObject.getD []) keyword).bind schemaRows).getD []).map (·.1.keySymbol)

def Means (root : JsonDatum) (value : JsonValue) : Prop :=
  Accepts pregexp (Follows pregexp root (definitionNames root).length) root.size root value

def assertions : List String :=
  ["$ref", "type", "enum", "const", "allOf", "anyOf", "oneOf", "not", "items", "required",
    "properties", "patternProperties", "additionalProperties"] ++
  [Keyword.minLength, .maxLength, .minimum, .maximum, .exclusiveMinimum, .exclusiveMaximum,
    .minItems, .maxItems, .minProperties, .maxProperties, .pattern].map Keyword.name

def Only (keywords : List String) (schema : List Row) : Prop :=
  ∀ keyword ∈ assertions, keyword ∉ keywords → objectRef schema keyword = none

/-- A schema without the keywords that hide the others, or that are dropped. -/
def Plain (schema : List Row) : Prop :=
  ∀ keyword ∈ ["$ref", "allOf", "anyOf", "oneOf", "not", "enum", "const"],
    objectRef schema keyword = none

/-- The value of a bound is of the type that the keyword asks for. -/
def BoundTyped (constraint : Constraint) : Prop :=
  if constraint.1 = .pattern then ∃ pattern, constraint.2 = .text pattern
  else ∃ bound, constraint.2 = .number bound

def LogicalKind.keyword : LogicalKind → String
  | anyOf => "anyOf"
  | allOf => "allOf"
  | oneOf => "oneOf"

def ScalarKind.typeName : ScalarKind → String
  | string => "string"
  | number => "number"
  | integer => "integer"
  | boolean => "boolean"
  | null => "null"

def entriesOf (schema : List Row) (keyword : String) : Option (List Row) :=
  match objectRef schema keyword with
  | none => some []
  | some value => schemaRows value

/-- A schema that names its one type. -/
structure Typed (schema : JsonDatum) (rows : List Row) (typeName : String) : Prop where
  read : schemaRows schema = some rows
  plain : Plain rows
  type : objectRef rows "type" = some (.text typeName)
  bounds : ∀ constraint ∈ schemaConstraints rows, BoundTyped constraint

/-- The keywords of an object that is closed and requires what it declares. -/
structure ObjectRows (rows properties patterns : List Row) (additional : JsonDatum) : Prop where
  declared : entriesOf rows "properties" = some properties
  values : ∀ entry ∈ properties ++ patterns, pairEntryValue entry.2 = entry.2
  patterned : entriesOf rows "patternProperties" = some patterns
  names : ∀ names, objectRef rows "required" = some names → arrayValue names = names.jsonArray
  required : ∀ name ∈ requiredSymbols rows, name ∈ properties.map (·.1.keySymbol)
  rest : objectRef rows "additionalProperties" = some additional
  closed : additional = .boolean false ∨ (schemaRows additional).isSome

/-- The schemas whose meaning is kept: no `enum`, no `const` and no schema `false`;
`$ref`, `allOf`, `anyOf` and `oneOf` stand alone; else one type is named; items are
one schema; an object is closed and requires what it declares. -/
inductive Kept (root : JsonDatum) : JsonDatum → Prop where
  | always : Kept root (.boolean true)
  | reference {schema target : JsonDatum} {rows : List Row} {reference : String}
      (hrows : schemaRows schema = some rows) (honly : Only ["$ref"] rows)
      (hreference : objectRef rows "$ref" = some (.text reference))
      (htarget : definitionOf root reference = some target) (hkept : Kept root target) :
      Kept root schema
  | logical {schema schemas : JsonDatum} {rows : List Row} (kind : LogicalKind)
      (hrows : schemaRows schema = some rows) (honly : Only [kind.keyword] rows)
      (hschemas : objectRef rows kind.keyword = some schemas)
      (hlist : arrayValue schemas = schemas.jsonArray)
      (hkept : ∀ inner ∈ schemas.jsonArray, Kept root inner) : Kept root schema
  | scalar {schema : JsonDatum} {rows : List Row} (kind : ScalarKind)
      (htyped : Typed schema rows kind.typeName) : Kept root schema
  | any {schema : JsonDatum} {rows : List Row} (hrows : schemaRows schema = some rows)
      (honly : Only (assertions.drop 13) rows)
      (hbounds : ∀ constraint ∈ schemaConstraints rows, BoundTyped constraint) :
      Kept root schema
  | array {schema : JsonDatum} {rows : List Row} (items : Option JsonDatum)
      (htyped : Typed schema rows "array") (hitems : objectRef rows "items" = items)
      (hone : ∀ inner ∈ items, (schemaRows (.list (arrayValue inner))).isSome)
      (hkept : ∀ inner ∈ items, Kept root inner) : Kept root schema
  | object {schema additional : JsonDatum} {rows properties patterns : List Row}
      (htyped : Typed schema rows "object")
      (hobject : ObjectRows rows properties patterns additional)
      (hkept : ∀ entry ∈ properties ++ patterns, Kept root entry.2)
      (hkeptAdditional : (schemaRows additional).isSome → Kept root additional) :
      Kept root schema

section

variable (followed : String → JsonValue → Prop) (accepts legible : JsonDatum → JsonValue → Prop)
  (schema : List Row)

end

end PooFlow.Contract
