import PooFlow.Contract.Predicate

/-! `json-schema-validate.ss`. The contract inside a diagnostic is left out; every diagnostic is an
error. -/

namespace PooFlow.Contract

open JsonDatum

inductive PathPart where
  | slot (name : String)
  | index (position : ℕ)

abbrev Path := List PathPart

def PathPart.text : PathPart → String
  | slot name => name
  | index position => toString position

def Path.symbol : Path → String
  | [] => "root"
  | path => String.intercalate "/" (path.map PathPart.text)

inductive Reason where
  | missingRequiredSlot
  | invalidNodeValue
  | additionalPropertyNotAllowed
  | invalidObjectShape
  deriving DecidableEq

/-- `poo-flow-json-schema-validation-diagnostic`. -/
structure Diagnostic where
  reason : Reason
  message : String
  path : Option Path
  value : JsonDatum

def Diagnostic.slot (diagnostic : Diagnostic) : Option String := diagnostic.path.map Path.symbol

def invalidNode (message : String) (path : Path) (value : JsonDatum) : Diagnostic :=
  ⟨.invalidNodeValue, message, some path, value⟩

def candidateSlot (candidate : JsonDatum) (slot : String) : Option JsonDatum :=
  match candidate with
  | .table rows => hashRef rows slot
  | .object slots => (slots.find? fun row => row.1 = slot).map Prod.snd
  | value => do objectRef (← value.jsonObject) slot

/-- `poo-flow-json-schema-array-node-shape-valid?`. -/
def arrayShapeValid (constraints : List Constraint) (value : JsonDatum) : Option Bool :=
  match guidedArray value with
  | none => some false
  | some values => constraints.allM (arrayConstraintValid values.length)

/-- `poo-flow-json-schema-object-node-shape-valid?`. -/
def objectShapeValid (constraints : List Constraint) (value : JsonDatum) : Option Bool :=
  match candidateRows value with
  | none => some false
  | some rows => constraints.allM (objectConstraintValid rows.length)

variable (pregexp : String → Option (String → Bool))

def predicateValidate (node : Node) (value : JsonDatum) (path : Path) :
    Option (List Diagnostic) := do
  if ← predicateResult pregexp node value then return []
  else return [invalidNode "JSON Schema recursive node predicate rejected the value" path value]

mutual

def nodeValidate : Node → JsonDatum → Path → Option (List Diagnostic)
  | .array schema items, value, path => do
    if ← arrayShapeValid (arrayConstraints schema) value then
      let values := (guidedArray value).getD []
      return (← values.zipIdx.mapM fun item =>
        nodeValidate items item.1 (path ++ [.index item.2])).flatten
    else return [invalidNode "JSON Schema recursive array predicate rejected the value" path value]
  | .tuple schema _, value, path => do
    if ← arrayShapeValid (arrayConstraints schema) value then
      -- the kind of a list of nodes is asked for
      return (← ((guidedArray value).getD []).mapM fun _ => none).flatten
    else return [invalidNode "JSON Schema recursive array predicate rejected the value" path value]
  | .object schema properties additional patternProperties, value, path => do
    if ← objectShapeValid (objectConstraints schema) value then
      let propertyDiagnostics ← propertiesValidate properties value path
      let mapDiagnostics ← ((candidateRows value).getD []).mapM fun row => do
        let rowPath := path ++ [.slot row.1.keySymbol]
        let patternDiagnostics ← patternsValidate patternProperties row rowPath
        if declares properties row.1.keySymbol ∨
            patternProperties.any (·.matchesKey pregexp (rowKeyString row)) then
          return patternDiagnostics
        else return patternDiagnostics ++ (← additionalPropertyValidate additional row.2 rowPath)
      return propertyDiagnostics ++ mapDiagnostics.flatten
    else return [invalidNode "JSON Schema recursive object predicate rejected the value" path value]
  | .logical .oneOf [child], value, path => nodeValidate child value path
  | node, value, path => predicateValidate pregexp node value path
termination_by structural node => node

def propertiesValidate : List (Property Node) → JsonDatum → Path → Option (List Diagnostic)
  | [], _, _ => some []
  | property :: properties, candidate, path =>
    return (← propertyValidate property candidate path) ++
      (← propertiesValidate properties candidate path)
termination_by structural properties => properties

def propertyValidate : Property Node → JsonDatum → Path → Option (List Diagnostic)
  | ⟨name, schema, required⟩, candidate, path =>
    match candidateSlot candidate name with
    | none =>
      if required then
        some [⟨.missingRequiredSlot, "Required JSON Schema contract path is missing",
          some (path ++ [.slot name]), candidate⟩]
      else some []
    | some value => nodeValidate schema value (path ++ [.slot name])
termination_by structural property => property

def patternsValidate : List (PatternProperty Node) → Row → Path → Option (List Diagnostic)
  | [], _, _ => some []
  | property :: properties, row, path => do
    if property.matchesKey pregexp (rowKeyString row) then
      return (← patternRowValidate property row path) ++
        (← patternsValidate properties row path)
    else patternsValidate properties row path
termination_by structural properties => properties

def patternRowValidate : PatternProperty Node → Row → Path → Option (List Diagnostic)
  | ⟨_, schema⟩, row, path => nodeValidate schema (rowValue row.2) path
termination_by structural property => property

def additionalPropertyValidate : Additional Node → JsonDatum → Path → Option (List Diagnostic)
  | .flag true, _, _ => some []
  | .flag false, tail, path =>
    some [⟨.additionalPropertyNotAllowed,
      "JSON Schema additionalProperties rejected object key", some path, rowValue tail⟩]
  | .schema node, tail, path => nodeValidate node (rowValue tail) path
termination_by structural additional => additional

end

/-- `poo-flow-json-schema-object-contract-validation`. -/
structure ContractValidation where
  valid : Bool
  diagnostics : List Diagnostic
  missingRequired : List String
  invalidSlots : List String

def slotsByReason (diagnostics : List Diagnostic) (reason : Reason) : List String :=
  diagnostics.filterMap fun diagnostic =>
    if diagnostic.reason = reason then diagnostic.slot else none

def validationReceipt (diagnostics : List Diagnostic) : ContractValidation where
  valid := diagnostics.isEmpty
  diagnostics := diagnostics
  missingRequired := slotsByReason diagnostics .missingRequiredSlot
  invalidSlots := slotsByReason diagnostics .invalidNodeValue ++
    slotsByReason diagnostics .additionalPropertyNotAllowed

/-- `poo-flow-json-schema-contract-artifact-validate`, of the root node. -/
def contractValidate (root : Node) (candidate : JsonDatum) : Option ContractValidation := do
  if (candidateRows candidate).isSome then
    if ← nodeValid pregexp root candidate then return validationReceipt []
    else return validationReceipt (← nodeValidate pregexp root candidate [])
  else return validationReceipt [⟨.invalidObjectShape,
    "JSON Schema object-contract validation requires a POO object or alist", none, candidate⟩]

end PooFlow.Contract
