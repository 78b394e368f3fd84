import PooFlow.Contract.Valid

/-! `json-schema-emit-runtime.ss` and `json-schema-constraints.ss`. Emission yields `none` where it
raises: on a pattern that does not compile, and on the item node of a tuple. -/

namespace PooFlow.Contract

open JsonDatum

abbrev Predicate := JsonDatum → Option Bool

/-- `poo-flow-json-schema-json-array-value?`, with the items. -/
def jsonArrayItems (value : JsonDatum) : Option (List JsonDatum) :=
  if value.jsonObject.isSome then none else value.items

/-- `poo-flow-json-schema-schema-ref`: a list of one value is unwrapped. `#f`
stands for an absent entry. -/
def schemaRef (schema : List Row) (key : String) : Option JsonDatum :=
  match objectRef schema key with
  | none | some (.boolean false) | some (.pair (.boolean false) .nil) => none
  | some (.pair value .nil) => some value
  | some value => some value

variable (pregexp : String → Option (String → Bool))

def constraintPredicate (constraint : Constraint) : Option Predicate :=
  if constraint.1 = .pattern then do
    let matcher ← compiled pregexp constraint.2
    return fun value =>
      match value with
      | .text value => some (matcher value)
      | _ => some true
  else some fun value =>
    boundValid ((jsonArrayItems value).map List.length) (value.jsonObject.map List.length)
      constraint value

/-- `poo-flow-predicate-and` of a base predicate and constraints. -/
def withConstraints (base : Predicate) (constraints : List Predicate) : Predicate :=
  fun value => do
    if ← base value then constraints.allM (· value) else return false

def applyNodeConstraints (base : Predicate) (constraints : List Constraint) : Option Predicate :=
  return withConstraints base (← constraints.mapM (constraintPredicate pregexp))

def patternRuntimeMatch (pattern : JsonDatum) (value : String) : Bool :=
  (compiled pregexp pattern).any (· value)

def schemaBound (schema : List Row) (keyword : Keyword) (test : JsonDatum → Option Bool) :
    Option Bool :=
  measured (schemaRef schema keyword.name) test

def stringPredicate (schema : List Row) : Predicate
  | .text value =>
    [schemaBound schema .minLength (atLeast value.length),
      schemaBound schema .maxLength (atMost value.length),
      schemaBound schema .pattern fun pattern =>
        some (patternRuntimeMatch pregexp pattern value)].allM id
  | _ => some false

def numberPredicate (schema : List Row) (base : JsonDatum → Bool) : Predicate
  | .number value =>
    if base (.number value) then
      [schemaBound schema .minimum (atLeast value), schemaBound schema .maximum (atMost value),
        schemaBound schema .exclusiveMinimum (above value),
        schemaBound schema .exclusiveMaximum (below value)].allM id
    else some false
  | _ => some false

def scalarPredicate (schema : List Row) : ScalarKind → Predicate
  | .string => stringPredicate pregexp schema
  | .number => numberPredicate schema ScalarKind.number.accepts
  | .integer => numberPredicate schema ScalarKind.integer.accepts
  | .boolean => fun value => some (ScalarKind.boolean.accepts value)
  | .null => fun value => some value.isNull

/-- `poo-flow-json-schema-object-runtime-rows`: a list, or the slots of a POO object. -/
def objectRuntimeRows : JsonDatum → Option (List JsonDatum)
  | .object slots => some (slots.map fun slot => .pair (.symbol slot.1) slot.2)
  | value => value.items

def staticPropertyName (properties : List (Property Node)) (key : JsonDatum) : Bool :=
  properties.any fun property => key.keyString = some property.name

/-- Whether a row is among `poo-flow-json-schema-matching-runtime-pattern-properties`. -/
def PatternProperty.matchesRow (property : PatternProperty Node) (key : JsonDatum) : Bool :=
  key.keyString.any (property.matchesKey pregexp)

/-- `poo-flow-json-schema-object-runtime-rows-for-schema`: the only row of an
object is taken for the object itself when nothing declares its key. -/
def objectRuntimeRowsForSchema (properties : List (Property Node))
    (patternProperties : List (PatternProperty Node)) : List JsonDatum → List JsonDatum
  | [.pair key value] =>
    if staticPropertyName properties key = false ∧
        patternProperties.any (·.matchesRow pregexp key) = false then
      value.items.getD [.pair key value]
    else [.pair key value]
  | rows => rows

def arrayPredicate (item : Predicate) : Predicate := fun value =>
  match jsonArrayItems value with
  | none => some false
  | some values => values.allM item

/-- `poo-flow-json-schema-object-predicate`, over the check of the rows. -/
def objectPredicate (properties : List (Property Node))
    (patternProperties : List (PatternProperty Node)) (childrenValid : List Row → Option Bool) :
    Predicate := fun value =>
  match objectRuntimeRows value with
  | none => some false
  | some raw =>
    match (objectRuntimeRowsForSchema pregexp properties patternProperties raw).mapM row with
    | none => some false
    | some rows => childrenValid rows

def predicateOr (predicates : List Predicate) : Predicate :=
  fun value => predicates.anyM (· value)

def predicateAnd (predicates : List Predicate) : Predicate :=
  fun value => predicates.allM (· value)

def predicateExactlyOne (predicates : List Predicate) : Predicate :=
  fun value => return (← predicates.mapM (· value)).count true = 1

def LogicalKind.combine : LogicalKind → List Predicate → Predicate
  | .anyOf => predicateOr
  | .allOf => predicateAnd
  | .oneOf => predicateExactlyOne

mutual

def nodePredicate : Node → Option Predicate
  | .scalar kind schema =>
    applyNodeConstraints pregexp (scalarPredicate pregexp schema kind) (schemaConstraints schema)
  | .any schema => applyNodeConstraints pregexp (fun _ => some true) (schemaConstraints schema)
  | .unchecked _ | .negation _ => some fun _ => some true
  | .ref _ => some fun _ => some true
  | .array schema items => do
    let item ← nodePredicate items
    applyNodeConstraints pregexp (arrayPredicate item) (arrayConstraints schema)
  | .tuple _ _ => none
  | .logical kind children => return kind.combine (← nodePredicates children)
  | .object schema properties additional patternProperties =>
    let childrenValid := fun rows => do
      if ← propertiesRun properties rows then
        rows.allM fun row => do
          if patternProperties.any (·.matchesRow pregexp row.1) then
            patternsRun patternProperties row
          else if staticPropertyName properties row.1 then return true
          else additionalRun additional row.2
      else return false
    applyNodeConstraints pregexp
      (objectPredicate pregexp properties patternProperties childrenValid) (objectConstraints schema)
termination_by structural node => node

/-- `poo-flow-json-schema-node-predicate-list`. -/
def nodePredicates : List Node → Option (List Predicate)
  | [] => some []
  | child :: children => return (← nodePredicate child) :: (← nodePredicates children)
termination_by structural children => children

/-- `poo-flow-json-schema-object-properties-valid?`. -/
def propertiesRun : List (Property Node) → List Row → Option Bool
  | [], _ => some true
  | property :: properties, rows => do
    if ← propertyRun property rows then propertiesRun properties rows else return false
termination_by structural properties => properties

def propertyRun : Property Node → List Row → Option Bool
  | ⟨name, schema, required⟩, rows =>
    match objectRef rows name with
    | none => some !required
    | some value => do (← nodePredicate schema) value
termination_by structural property => property

/-- `poo-flow-json-schema-pattern-runtime-valid?`, of the patterns that match the row. -/
def patternsRun : List (PatternProperty Node) → Row → Option Bool
  | [], _ => some true
  | property :: properties, row => do
    if property.matchesRow pregexp row.1 then
      if ← patternRun property row then patternsRun properties row else return false
    else patternsRun properties row
termination_by structural properties => properties

def patternRun : PatternProperty Node → Row → Option Bool
  | ⟨_, schema⟩, row => do (← nodePredicate schema) row.2
termination_by structural property => property

/-- `poo-flow-json-schema-additional-runtime-valid?`. -/
def additionalRun : Additional Node → JsonDatum → Option Bool
  | .flag allowed, _ => some allowed
  | .schema node, value => do (← nodePredicate node) value
termination_by structural additional => additional

end

def predicateResult (node : Node) (value : JsonDatum) : Option Bool := do
  (← nodePredicate pregexp node) value

end PooFlow.Contract
