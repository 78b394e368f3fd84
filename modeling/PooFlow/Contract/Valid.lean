import PooFlow.Contract.Schema

/-! `json-schema-valid.ss`. A check yields `none` where the source raises: on a bound that is no
number, and on the items of a tuple, whose node is a list. -/

namespace PooFlow.Contract

open JsonDatum

/-- `poo-flow-json-schema-schema-guided-array-values` of a guided array. -/
def guidedArray : JsonDatum → Option (List JsonDatum)
  | .vector items => some items
  | value => value.items

/-- `poo-flow-json-schema-candidate-rows` of a guided object. -/
def candidateRows : JsonDatum → Option (List Row)
  | .table rows => some rows
  | .object slots => some (slots.map fun slot => (.symbol slot.1, slot.2))
  | value => value.jsonObject

def valueAt (key : JsonDatum → Bool) (rows : List Row) : Option JsonDatum :=
  (rows.find? fun row => key row.1).map Prod.snd

def hashRef (rows : List Row) (slot : String) : Option JsonDatum :=
  valueAt (fun | .text key => key = slot | _ => false) rows <|>
    valueAt (fun | .symbol key => key = slot | _ => false) rows

/-- `poo-flow-json-schema-candidate-index-slot`, in the index of the candidate. -/
def candidateIndexSlot (candidate : JsonDatum) (slot : String) : Option JsonDatum :=
  match candidate with
  | .table rows => hashRef rows slot
  | value => do
    let row ← (← candidateRows value).find? fun row => row.1.keySymbol = slot
    return rowValue row.2

def rowKeyString (row : Row) : String := row.1.keyString.getD row.1.keySymbol

def atLeast (size : ℚ) : JsonDatum → Option Bool
  | .number bound => some (bound ≤ size)
  | _ => none

def atMost (size : ℚ) : JsonDatum → Option Bool
  | .number bound => some (size ≤ bound)
  | _ => none

def above (size : ℚ) : JsonDatum → Option Bool
  | .number bound => some (bound < size)
  | _ => none

def below (size : ℚ) : JsonDatum → Option Bool
  | .number bound => some (size < bound)
  | _ => none

def arrayConstraintValid (size : ℕ) (constraint : Constraint) : Option Bool :=
  match constraint.1 with
  | .minItems => atLeast size constraint.2
  | .maxItems => atMost size constraint.2
  | _ => some true

def objectConstraintValid (size : ℕ) (constraint : Constraint) : Option Bool :=
  match constraint.1 with
  | .minProperties => atLeast size constraint.2
  | .maxProperties => atMost size constraint.2
  | _ => some true

def measured {σ : Type} (measure : Option σ) (test : σ → Option Bool) : Option Bool :=
  measure.elim (some true) test

def textLength : JsonDatum → Option ℚ
  | .text value => some value.length
  | _ => none

def numberValue : JsonDatum → Option ℚ
  | .number value => some value
  | _ => none

/-- A keyword other than `pattern` on a value, whose items and properties are
counted as given. -/
def boundValid (itemCount propertyCount : Option ℕ) (constraint : Constraint)
    (value : JsonDatum) : Option Bool :=
  match constraint.1 with
  | .minLength => measured (textLength value) (atLeast · constraint.2)
  | .maxLength => measured (textLength value) (atMost · constraint.2)
  | .minimum => measured (numberValue value) (atLeast · constraint.2)
  | .maximum => measured (numberValue value) (atMost · constraint.2)
  | .exclusiveMinimum => measured (numberValue value) (above · constraint.2)
  | .exclusiveMaximum => measured (numberValue value) (below · constraint.2)
  | .minItems | .maxItems => measured itemCount (arrayConstraintValid · constraint)
  | .minProperties | .maxProperties => measured propertyCount (objectConstraintValid · constraint)
  | .pattern | .uniqueItems => some true

variable (pregexp : String → Option (String → Bool))

/-- `pregexp` of any datum. -/
def compiled : JsonDatum → Option (String → Bool)
  | .text pattern => pregexp pattern
  | _ => none

def patternConstraintValid (bound : JsonDatum) : JsonDatum → Bool
  | .text value => (compiled pregexp bound).any (· value)
  | _ => true

def nodeConstraintValid (constraint : Constraint) (value : JsonDatum) : Option Bool :=
  if constraint.1 = .pattern then some (patternConstraintValid pregexp constraint.2 value)
  else boundValid ((guidedArray value).map List.length) ((candidateRows value).map List.length)
    constraint value

/-- `poo-flow-json-schema-pattern-property-matches?`. -/
def PatternProperty.matchesKey {ν : Type} (property : PatternProperty ν) (key : String) : Bool :=
  (pregexp property.pattern).any (· key)

def ScalarKind.accepts : ScalarKind → JsonDatum → Bool
  | .string, .text _ => true
  | .number, .number _ => true
  | .integer, .number value => value.den = 1
  | .boolean, .boolean _ => true
  | .null, value => value.isNull
  | _, _ => false

inductive PatternState where
  | unmatched
  | matched
  | invalid
  deriving DecidableEq

/-- `poo-flow-json-schema-object-row-valid?`, from the state of the patterns of a row
and what `additionalProperties` says of it. -/
def objectRowVerdict (declared : Bool) (additional : Option Bool) : PatternState → Option Bool
  | .invalid => some false
  | .matched => some true
  | .unmatched => if declared then some true else additional

def declares (properties : List (Property Node)) (key : String) : Bool :=
  properties.any (·.name = key)

mutual

def nodeValid : Node → JsonDatum → Option Bool
  | .scalar kind schema, value =>
    if kind.accepts value then
      (schemaConstraints schema).allM (nodeConstraintValid pregexp · value)
    else some false
  | .any schema, value => (schemaConstraints schema).allM (nodeConstraintValid pregexp · value)
  | .unchecked _, _ | .negation _, _ => some true
  | .ref _, _ => some true
  | .array schema items, value =>
    match guidedArray value with
    | none => some false
    | some values => do
      if ← (arrayConstraints schema).allM (arrayConstraintValid values.length) then
        values.allM fun item => nodeValid items item
      else return false
  | .tuple schema _, value =>
    match guidedArray value with
    | none => some false
    | some values => do
      if ← (arrayConstraints schema).allM (arrayConstraintValid values.length) then
        -- the kind of a list of nodes is asked for
        values.allM fun _ => none
      else return false
  | .logical .anyOf children, value => anyValid children value
  | .logical .allOf children, value => allValid children value
  | .logical .oneOf children, value => do return (← countValid children value) = 1
  | .object schema properties additional patternProperties, candidate =>
    match candidateRows candidate with
    | none => some false
    | some rows => do
      if ← (objectConstraints schema).allM (objectConstraintValid rows.length) then
        if ← propertiesValid properties candidate then
          rows.allM fun row => do
            objectRowVerdict (declares properties row.1.keySymbol)
              (additionalPropertyValid additional row.2)
              (← patternRowState patternProperties row .unmatched)
        else return false
      else return false
termination_by structural node => node

def anyValid : List Node → JsonDatum → Option Bool
  | [], _ => some false
  | child :: children, value => do
    if ← nodeValid child value then return true else anyValid children value
termination_by structural children => children

def allValid : List Node → JsonDatum → Option Bool
  | [], _ => some true
  | child :: children, value => do
    if ← nodeValid child value then allValid children value else return false
termination_by structural children => children

def countValid : List Node → JsonDatum → Option ℕ
  | [], _ => some 0
  | child :: children, value => do
    let valid ← nodeValid child value
    return (← countValid children value) + valid.toNat
termination_by structural children => children

def propertiesValid : List (Property Node) → JsonDatum → Option Bool
  | [], _ => some true
  | property :: properties, candidate => do
    if ← propertyValid property candidate then propertiesValid properties candidate
    else return false
termination_by structural properties => properties

/-- `poo-flow-json-schema-property-valid/index?`. -/
def propertyValid : Property Node → JsonDatum → Option Bool
  | ⟨name, schema, required⟩, candidate =>
    match candidateIndexSlot candidate name with
    | none => some !required
    | some value => nodeValid schema value
termination_by structural property => property

/-- `poo-flow-json-schema-additional-property-valid?`. Both flags fall through to
its last branch, which rejects the row. -/
def additionalPropertyValid : Additional Node → JsonDatum → Option Bool
  | .flag _, _ => some false
  | .schema node, tail => nodeValid node (rowValue tail)
termination_by structural additional => additional

/-- `poo-flow-json-schema-pattern-row-state`, from the given state on. -/
def patternRowState : List (PatternProperty Node) → Row → PatternState → Option PatternState
  | [], _, state => some state
  | property :: properties, row, state => do
    if state = .invalid then patternRowState properties row .invalid
    else if property.matchesKey pregexp (rowKeyString row) then
      if ← patternRowValid property row then patternRowState properties row .matched
      else patternRowState properties row .invalid
    else patternRowState properties row state
termination_by structural properties => properties

def patternRowValid : PatternProperty Node → Row → Option Bool
  | ⟨_, schema⟩, row => nodeValid schema (rowValue row.2)
termination_by structural property => property

end

/-- `poo-flow-json-schema-contract-artifact-value-valid?`, of the root node. -/
def valueValid (root : Node) (candidate : JsonDatum) : Option Bool :=
  if (candidateRows candidate).isSome then nodeValid pregexp root candidate else some false

end PooFlow.Contract
