import Mathlib.Data.Rat.Defs

/-! The data that `contract/functional.ss` reads, and the nodes of `json-schema-ir.ss`. An object is
an alist, an array a list or a vector. `pregexp` compiles a pattern to its matcher, or raises. -/

namespace PooFlow.Contract

inductive JsonDatum where
  | nil
  | pair (car cdr : JsonDatum)
  | boolean (value : Bool)
  | number (value : ℚ)
  | text (value : String)
  | symbol (name : String)
  | void
  | vector (items : List JsonDatum)
  | table (rows : List (JsonDatum × JsonDatum))
  | object (slots : List (String × JsonDatum))

abbrev Row := JsonDatum × JsonDatum

namespace JsonDatum

def items : JsonDatum → Option (List JsonDatum)
  | nil => some []
  | pair car cdr => cdr.items.map (car :: ·)
  | _ => none

def row : JsonDatum → Option Row
  | pair car cdr => some (car, cdr)
  | _ => none

/-- The rows of an alist, what `poo-flow-contract-json-object?` accepts. -/
def jsonObject (value : JsonDatum) : Option (List Row) := do
  (← value.items).mapM row

/-- `poo-flow-contract-json-array->list`. -/
def jsonArray : JsonDatum → List JsonDatum
  | vector items => items
  | value => value.items.getD []

def list : List JsonDatum → JsonDatum
  | [] => nil
  | item :: items => pair item (list items)

def alist (rows : List (String × JsonDatum)) : JsonDatum :=
  list (rows.map fun row => pair (text row.1) row.2)

def keyString : JsonDatum → Option String
  | text value => some value
  | symbol name => some name
  | _ => none

def keySymbol (key : JsonDatum) : String :=
  key.keyString.getD "unknown-contract-key"

/-- `poo-flow-contract-object-ref`, with `none` for the default value. -/
def objectRef (rows : List Row) (key : String) : Option JsonDatum :=
  (rows.find? fun row => row.1.keyString = some key).map Prod.snd

/-- `poo-flow-json-schema-row-value`: a list of one empty object is unwrapped. -/
def rowValue : JsonDatum → JsonDatum
  | pair item nil =>
    if (pair item nil).jsonObject.isNone ∧ item.jsonObject.isSome then item else pair item nil
  | tail => tail

/-- `poo-flow-json-schema-null?`. -/
def isNull : JsonDatum → Bool
  | symbol name => name = "null" || name = "json-null"
  | void => true
  | _ => false

end JsonDatum

/-- `+poo-flow-json-schema-constraint-keywords+`, and `uniqueItems`. -/
inductive Keyword where
  | minLength
  | maxLength
  | minimum
  | maximum
  | exclusiveMinimum
  | exclusiveMaximum
  | minItems
  | maxItems
  | minProperties
  | maxProperties
  | pattern
  | uniqueItems
  deriving DecidableEq

def Keyword.name : Keyword → String
  | minLength => "minLength"
  | maxLength => "maxLength"
  | minimum => "minimum"
  | maximum => "maximum"
  | exclusiveMinimum => "exclusiveMinimum"
  | exclusiveMaximum => "exclusiveMaximum"
  | minItems => "minItems"
  | maxItems => "maxItems"
  | minProperties => "minProperties"
  | maxProperties => "maxProperties"
  | pattern => "pattern"
  | uniqueItems => "uniqueItems"

/-- A row of the `constraints` in the metadata of a node. -/
abbrev Constraint := Keyword × JsonDatum

def constraintsOf (keywords : List Keyword) (schema : List Row) : List Constraint :=
  keywords.filterMap fun keyword =>
    (JsonDatum.objectRef schema keyword.name).map fun value => (keyword, value)

/-- The constraints of `poo-flow-json-schema-schema-metadata`. -/
def schemaConstraints : List Row → List Constraint :=
  constraintsOf [.minLength, .maxLength, .minimum, .maximum, .exclusiveMinimum,
    .exclusiveMaximum, .minItems, .maxItems, .minProperties, .maxProperties, .pattern]

/-- The constraints of `poo-flow-json-schema-array-metadata`. -/
def arrayConstraints : List Row → List Constraint :=
  constraintsOf [.minItems, .maxItems, .uniqueItems]

/-- The constraints of `poo-flow-json-schema-object-metadata`. -/
def objectConstraints : List Row → List Constraint :=
  constraintsOf [.minProperties, .maxProperties]

inductive ScalarKind where
  | string
  | number
  | integer
  | boolean
  | null

inductive LogicalKind where
  | anyOf
  | allOf
  | oneOf

inductive UncheckedKind where
  | booleanSchema
  | invalid
  | invalidRef
  | unknownType
  | predicateFallback

/-- `poo-flow-json-schema-property`. -/
structure Property (ν : Type) where
  name : String
  schema : ν
  required : Bool

/-- `poo-flow-json-schema-pattern-property`; its pattern has been compiled before. -/
structure PatternProperty (ν : Type) where
  pattern : String
  schema : ν

/-- `additionalProperties` of an object node. -/
inductive Additional (ν : Type) where
  | flag (allowed : Bool)
  | schema (node : ν)

/-- A node that the normalizer makes, with the rows of the schema that its
constraints are taken from. `tuple` is an array node whose value is a list of
nodes, and `ref` a reference that is not resolved yet. -/
inductive Node where
  | scalar (kind : ScalarKind) (schema : List Row)
  | any (schema : List Row)
  | unchecked (kind : UncheckedKind)
  | ref (reference : String)
  | negation (child : Node)
  | array (schema : List Row) (items : Node)
  | tuple (schema : List Row) (items : List Node)
  | logical (kind : LogicalKind) (children : List Node)
  | object (schema : List Row) (properties : List (Property Node))
      (additional : Additional Node) (patternProperties : List (PatternProperty Node))

end PooFlow.Contract
