import PooFlow.Contract.Emission
import PooFlow.Contract.Validate

namespace PooFlow.Contract

open JsonDatum Foundation List

variable (pregexp : String → Option (String → Bool))

mutual

/-- Wherever the fast path comes to on a value, the diagnostic path checks it alike. -/
def ChecksAlike : Node → JsonDatum → Prop
  | .array schema items, value => ∀ values, guidedArray value = some values →
    (arrayConstraints schema).allM (arrayConstraintValid values.length) = some true →
    Stepwise (nodeValid pregexp items · = some true) (fun item => ChecksAlike items item) values
  | .tuple _ _, _ => True
  | .object schema properties additional patternProperties, candidate =>
    ∀ rows, candidateRows candidate = some rows →
    (objectConstraints schema).allM (objectConstraintValid rows.length) = some true →
    PropertiesCheckAlike properties candidate ∧
    (propertiesValid pregexp properties candidate = some true →
      Stepwise (rowValid pregexp properties additional patternProperties · = some true)
        (fun row => PatternsCheckAlike patternProperties row ∧
          (declares properties row.1.keySymbol = false →
            patternProperties.any (·.matchesKey pregexp (rowKeyString row)) = false →
            AdditionalChecksAlike additional row.2)) rows)
  | .logical .oneOf [child], value => ChecksAlike child value
  -- the diagnostic path runs the emitted predicate
  | node, value => Emits pregexp node ∧ ReadsAlike pregexp node value
termination_by structural node => node

def PropertiesCheckAlike : List (Property Node) → JsonDatum → Prop
  | [], _ => True
  | property :: properties, candidate => PropertyChecksAlike property candidate ∧
    (propertyValid pregexp property candidate = some true →
      PropertiesCheckAlike properties candidate)
termination_by structural properties => properties

def PropertyChecksAlike : Property Node → JsonDatum → Prop
  | ⟨name, schema, _⟩, candidate =>
    candidateIndexSlot candidate name = candidateSlot candidate name ∧
    ∀ value, candidateSlot candidate name = some value → ChecksAlike schema value
termination_by structural property => property

def PatternsCheckAlike : List (PatternProperty Node) → Row → Prop
  | [], _ => True
  | property :: properties, row =>
    (property.matchesKey pregexp (rowKeyString row) → PatternChecksAlike property row) ∧
    ((property.matchesKey pregexp (rowKeyString row) →
      patternRowValid pregexp property row = some true) → PatternsCheckAlike properties row)
termination_by structural properties => properties

def PatternChecksAlike : PatternProperty Node → Row → Prop
  | ⟨_, schema⟩, row => ChecksAlike schema (rowValue row.2)
termination_by structural property => property

/-- No key is left open, which the fast path rejects. -/
def AdditionalChecksAlike : Additional Node → JsonDatum → Prop
  | .flag allowed, _ => allowed = false
  | .schema node, tail => ChecksAlike node (rowValue tail)
termination_by structural additional => additional

end

variable {pregexp}

theorem both_eq_true {first second : Option Bool} :
    (do if ← first then second else return false) = some true ↔
      first = some true ∧ second = some true := by
  cases first with
  | none => simp
  | some b => cases b <;> simp

theorem append_eq_nil {first second : Option (List Diagnostic)} :
    (do return (← first) ++ (← second)) = some [] ↔ first = some [] ∧ second = some [] := by
  cases first <;> cases second <;> simp

variable {α : Type} {values : List α} {f : α → Option (List Diagnostic)}
  {diagnostics : Option (List Diagnostic)}

theorem append_flatten_eq_nil {first : Option (List Diagnostic)} :
    (do let diagnostics ← first
        let rest ← values.mapM f
        return diagnostics ++ rest.flatten) = some [] ↔
      first = some [] ∧ (do return (← values.mapM f).flatten) = some [] := by
  cases first with
  | none => simp
  | some diagnostics => cases values.mapM f <;> simp

theorem shaped_eq_nil {shape : Option Bool} {diagnostic : Diagnostic} :
    (do if ← shape then diagnostics else return [diagnostic]) = some [] ↔
      shape = some true ∧ diagnostics = some [] := by
  cases shape with
  | none => simp
  | some b => cases b <;> simp

theorem mapM_flatten_eq_nil :
    (do return (← values.mapM f).flatten) = some [] ↔ ∀ value ∈ values, f value = some [] := by
  induction values with
  | nil => simp
  | cons value values ih =>
    cases hf : f value with
    | none => simp [mapM_cons, hf]
    | some diagnostics =>
      cases hfs : values.mapM f with
      | none =>
        have hsome : ∃ value ∈ values, ¬f value = some [] := by simpa [hfs] using ih
        simpa [mapM_cons, hf, hfs] using fun _ => hsome
      | some rest => simp_all [mapM_cons]

/-- The state of a row says whether a pattern matches, unless it is invalid. -/
theorem eq_of_patternRowState {patternProperties : List (PatternProperty Node)} {row : Row}
    {state result : PatternState}
    (hstate : patternRowState pregexp patternProperties row state = some result)
    (hvalid : result ≠ .invalid) :
    result = if patternProperties.any (·.matchesKey pregexp (rowKeyString row)) then .matched
      else state := by
  induction patternProperties generalizing state with
  | nil => simpa [patternRowState, eq_comm] using hstate
  | cons property properties ih =>
    by_cases hinvalid : state = .invalid
    · rw [hinvalid, patternRowState_invalid, Option.some.injEq] at hstate
      exact absurd hstate.symm hvalid
    · by_cases hmatch : property.matchesKey pregexp (rowKeyString row)
      · cases hrow : patternRowValid pregexp property row with
        | none => simp [patternRowState, hinvalid, hmatch, hrow] at hstate
        | some b =>
          cases b with
          | false =>
            simp [patternRowState, hinvalid, hmatch, hrow, patternRowState_invalid] at hstate
            exact absurd hstate.symm hvalid
          | true =>
            simp only [patternRowState, hinvalid, hmatch, hrow, if_true, if_false,
              Option.bind_eq_bind, Option.bind_some] at hstate
            simpa [hmatch] using ih hstate
      · simp only [patternRowState, hinvalid, hmatch, if_false] at hstate
        simpa [hmatch] using ih hstate

theorem rowVerdict_eq_true {state : Option PatternState} {matched declared : Bool}
    {additional : Option Bool} {patternDiagnostics : Option (List Diagnostic)}
    (hpatterns : state = some (if matched then .matched else .unmatched) ↔
      patternDiagnostics = some [])
    (hstate : ∀ result, state = some result → result ≠ .invalid →
      result = if matched then .matched else .unmatched)
    (hadditional : declared = false → matched = false →
      (additional = some true ↔ diagnostics = some [])) :
    (do objectRowVerdict declared additional (← state)) = some true ↔
      (do let patternDiagnostics ← patternDiagnostics
          if declared ∨ matched then return patternDiagnostics
          else return patternDiagnostics ++ (← diagnostics)) = some [] := by
  -- only a state that the patterns agree on is left
  by_cases hnil : patternDiagnostics = some []
  · rw [hpatterns.2 hnil, hnil]
    cases matched with
    | true => simp [objectRowVerdict]
    | false =>
      cases declared with
      | true => simp [objectRowVerdict]
      | false =>
        simp only [objectRowVerdict, Option.bind_eq_bind, Option.bind_some, Bool.false_eq_true,
          if_false, hadditional rfl rfl, or_self, nil_append]
        cases diagnostics <;> simp
  · have hverdict : (do objectRowVerdict declared additional (← state)) ≠ some true := by
      cases hresult : state with
      | none => simp
      | some result =>
        by_cases hinvalid : result = .invalid
        · simp [hinvalid, objectRowVerdict]
        · exact absurd (hpatterns.1 (by rw [hresult, hstate result hresult hinvalid])) hnil
    refine iff_of_false hverdict ?_
    cases patternDiagnostics with
    | none => simp
    | some found =>
      have hne : found ≠ [] := fun h => hnil (by rw [h])
      split_ifs <;> cases diagnostics <;> simp [hne]

theorem predicateValidate_eq_nil {node : Node} {value : JsonDatum} {path : Path}
    (hread : Emits pregexp node ∧ ReadsAlike pregexp node value) :
    nodeValid pregexp node value = some true ↔
      predicateValidate pregexp node value path = some [] := by
  obtain ⟨b, hrun, hvalid⟩ := nodePredicate_agree node value hread.1 hread.2
  cases b <;> simp [predicateValidate, hrun, hvalid]

mutual

theorem nodeValidate_eq_nil_iff : ∀ node value path, ChecksAlike pregexp node value →
    (nodeValid pregexp node value = some true ↔
      nodeValidate pregexp node value path = some [])
  | .array schema items, value, path, halike => by
    rw [nodeValid, nodeValidate, arrayShapeValid, shaped_eq_nil]
    cases hvalues : guidedArray value with
    | none => simp
    | some values =>
      rw [both_eq_true]
      refine and_congr_right fun hbounds => ?_
      rw [allM_eq_true, mapM_flatten_eq_nil]
      exact Stepwise.forall_zipIdx_iff 0 ((halike values hvalues hbounds).imp
        fun item _ hitem _ => nodeValidate_eq_nil_iff items item _ hitem)
  | .tuple schema items, value, path, _ => by
    rw [nodeValid, nodeValidate, arrayShapeValid, shaped_eq_nil]
    cases hvalues : guidedArray value with
    | none => simp
    | some values =>
      rw [both_eq_true]
      refine and_congr_right fun _ => ?_
      rw [allM_eq_true, mapM_flatten_eq_nil]
      simp
  | .object schema properties additional patternProperties, candidate, path, halike => by
    rw [nodeValid, nodeValidate, objectShapeValid, shaped_eq_nil]
    cases hrows : candidateRows candidate with
    | none => simp
    | some rows =>
      rw [both_eq_true, both_eq_true]
      refine and_congr_right fun hbounds => ?_
      obtain ⟨hproperties, hrowsAlike⟩ := halike rows hrows hbounds
      rw [append_flatten_eq_nil,
        ← propertiesValidate_eq_nil_iff properties candidate path hproperties]
      refine and_congr_right fun hvalid => ?_
      rw [allM_eq_true, mapM_flatten_eq_nil]
      refine Stepwise.forall_iff ((hrowsAlike hvalid).imp fun row _ hrow => ?_)
      obtain ⟨hpatterns, hadditional⟩ := hrow
      have hstate := patternsValidate_eq_nil_iff patternProperties row
        (path ++ [.slot row.1.keySymbol]) .unmatched (by simp) hpatterns
      exact rowVerdict_eq_true hstate (fun result => eq_of_patternRowState) fun hdeclared hany =>
        additionalPropertyValidate_eq_nil_iff additional row.2 _ (hadditional hdeclared hany)
  | .logical .oneOf [child], value, path, halike => by
    have ih := nodeValidate_eq_nil_iff child value path halike
    rw [nodeValidate, ← ih]
    cases hvalid : nodeValid pregexp child value with
    | none => simp [nodeValid, countValid, hvalid]
    | some b => cases b <;> simp [nodeValid, countValid, hvalid]
  | .scalar kind schema, value, path, halike => predicateValidate_eq_nil halike
  | .any schema, value, path, halike => predicateValidate_eq_nil halike
  | .unchecked kind, value, path, halike => predicateValidate_eq_nil halike
  | .ref reference, value, path, halike => predicateValidate_eq_nil halike
  | .negation child, value, path, halike => predicateValidate_eq_nil halike
  | .logical .anyOf children, value, path, halike => predicateValidate_eq_nil halike
  | .logical .allOf children, value, path, halike => predicateValidate_eq_nil halike
  | .logical .oneOf [], value, path, halike => predicateValidate_eq_nil halike
  | .logical .oneOf (child :: next :: children), value, path, halike =>
    predicateValidate_eq_nil halike

theorem propertiesValidate_eq_nil_iff : ∀ properties candidate path,
    PropertiesCheckAlike pregexp properties candidate →
    (propertiesValid pregexp properties candidate = some true ↔
      propertiesValidate pregexp properties candidate path = some [])
  | [], _, _, _ => by simp [propertiesValid, propertiesValidate]
  | property :: properties, candidate, path, ⟨hproperty, hproperties⟩ => by
    have hfirst := propertyValidate_eq_nil_iff property candidate path hproperty
    rw [propertiesValid, propertiesValidate, both_eq_true, append_eq_nil, ← hfirst]
    exact and_congr_right fun hpass =>
      propertiesValidate_eq_nil_iff properties candidate path (hproperties hpass)

theorem propertyValidate_eq_nil_iff : ∀ property candidate path,
    PropertyChecksAlike pregexp property candidate →
    (propertyValid pregexp property candidate = some true ↔
      propertyValidate pregexp property candidate path = some [])
  | ⟨name, schema, required⟩, candidate, path, ⟨hlookup, hschema⟩ => by
    rw [propertyValid, propertyValidate, hlookup]
    cases hvalue : candidateSlot candidate name with
    | none => cases required <;> simp
    | some value => exact nodeValidate_eq_nil_iff schema value _ (hschema value hvalue)

theorem patternsValidate_eq_nil_iff : ∀ patternProperties (row : Row) path state,
    state ≠ .invalid → PatternsCheckAlike pregexp patternProperties row →
    (patternRowState pregexp patternProperties row state =
        some (if patternProperties.any (·.matchesKey pregexp (rowKeyString row)) then .matched
          else state) ↔
      patternsValidate pregexp patternProperties row path = some [])
  | [], _, _, _, _, _ => by simp [patternsValidate, patternRowState]
  | property :: properties, row, path, state, hstate, ⟨hproperty, hproperties⟩ => by
    by_cases hmatch : property.matchesKey pregexp (rowKeyString row)
    · have hfirst := patternRowValidate_eq_nil_iff property row path (hproperty hmatch)
      rw [patternsValidate, if_pos hmatch, append_eq_nil, ← hfirst]
      cases hrow : patternRowValid pregexp property row with
      | none => simp [patternRowState, hstate, hmatch, hrow]
      | some b =>
        cases b with
        | false => simp [patternRowState, hstate, hmatch, hrow, patternRowState_invalid]
        | true =>
          have hrest := patternsValidate_eq_nil_iff properties row path .matched (by simp)
            (hproperties fun _ => hrow)
          simp [patternRowState, hstate, hmatch, hrow, ← hrest]
    · rw [patternsValidate, if_neg hmatch, ← patternsValidate_eq_nil_iff properties row path state
        hstate (hproperties fun h => absurd h hmatch)]
      simp [patternRowState, hstate, hmatch]

theorem patternRowValidate_eq_nil_iff : ∀ property row path,
    PatternChecksAlike pregexp property row → (patternRowValid pregexp property row = some true ↔
      patternRowValidate pregexp property row path = some [])
  | ⟨_, schema⟩, _, path, halike => nodeValidate_eq_nil_iff schema _ path halike

theorem additionalPropertyValidate_eq_nil_iff : ∀ additional tail path,
    AdditionalChecksAlike pregexp additional tail →
    (additionalPropertyValid pregexp additional tail = some true ↔
      additionalPropertyValidate pregexp additional tail path = some [])
  | .flag allowed, tail, path, hclosed => by
    obtain rfl : allowed = false := hclosed
    simp [additionalPropertyValid, additionalPropertyValidate]
  | .schema node, tail, path, halike => nodeValidate_eq_nil_iff node _ path halike

end

/-- A candidate that both paths check alike is valid on the fast path exactly if its
receipt has no diagnostics. -/
theorem valid_iff_no_diagnostics (schema candidate : JsonDatum) :
    ∀ normalization, normalize pregexp schema = some normalization →
      ChecksAlike pregexp normalization.schema candidate →
      (valueValid pregexp normalization.schema candidate = some true ↔
        ∃ receipt, contractValidate pregexp normalization.schema candidate = some receipt ∧
          receipt.diagnostics = []) ∧
      ∀ path, nodeValid pregexp normalization.schema candidate = some true ↔
        nodeValidate pregexp normalization.schema candidate path = some [] := by
  intro normalization _ halike
  have hnode := fun path => nodeValidate_eq_nil_iff normalization.schema candidate path halike
  refine ⟨?_, hnode⟩
  unfold valueValid contractValidate
  cases hrows : candidateRows candidate with
  | none => simp [validationReceipt]
  | some rows =>
    cases hvalid : nodeValid pregexp normalization.schema candidate with
    | none => simp
    | some b =>
      cases b with
      | true => simp [validationReceipt]
      | false =>
        have hdiagnostics : nodeValidate pregexp normalization.schema candidate [] ≠ some [] :=
          fun h => by simp [(hnode []).2 h] at hvalid
        cases hpath : nodeValidate pregexp normalization.schema candidate [] with
        | none => simp
        | some diagnostics =>
          have hne : diagnostics ≠ [] := fun h => hdiagnostics (by rw [hpath, h])
          simp [validationReceipt, hne]

theorem person_checked_alike :
    (valueValid (fun _ => none) personNode (alist [("name", .text "Ada")]) = some true ↔
      ∃ receipt, contractValidate (fun _ => none) personNode
          (alist [("name", .text "Ada")]) = some receipt ∧ receipt.diagnostics = []) ∧
    ∀ path, nodeValid (fun _ => none) personNode (alist [("name", .text "Ada")]) = some true ↔
      nodeValidate (fun _ => none) personNode (alist [("name", .text "Ada")]) path = some [] := by
  refine valid_iff_no_diagnostics personSchema _ _ normalize_personSchema fun rows hrows _ => ?_
  obtain rfl : [(.text "name", .text "Ada")] = rows := Option.some.inj hrows
  refine ⟨⟨⟨rfl, fun value hvalue => ?_⟩, fun _ => trivial⟩,
    fun _ => ⟨⟨trivial, fun _ _ => rfl⟩, fun _ => trivial⟩⟩
  obtain rfl : JsonDatum.text "Ada" = value := Option.some.inj hvalue
  refine ⟨fun constraint hconstraint hpattern => ?_, fun _ => ⟨true, rfl, rfl⟩⟩
  replace hconstraint : constraint ∈ [(Keyword.minLength, JsonDatum.number 1)] := hconstraint
  obtain rfl := mem_singleton.1 hconstraint
  cases hpattern

/-- An object with a key that an open schema does not declare: the fast path
rejects it, and its receipt is valid. -/
theorem open_object_rejected :
    ¬ ∀ (pregexp : String → Option (String → Bool)) (schema candidate : JsonDatum)
        (normalization : Normalization),
      normalize pregexp schema = some normalization →
      (valueValid pregexp normalization.schema candidate = some true ↔
        ∃ receipt, contractValidate pregexp normalization.schema candidate = some receipt ∧
          receipt.diagnostics = []) := by
  intro hclaim
  have hiff := hclaim (fun _ => none) (alist [("type", .text "object")])
    (alist [("x", .number 1)]) _ rfl
  have hvalid := hiff.2 ⟨validationReceipt [], rfl, rfl⟩
  have hrejected : valueValid (fun _ => none)
      (.object [(.text "type", .text "object")] [] (.flag true) [])
      (alist [("x", .number 1)]) = some false := rfl
  exact absurd (hrejected.symm.trans hvalid) (by simp)

end PooFlow.Contract
