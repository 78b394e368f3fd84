import PooFlow.Contract.Predicate
import PooFlow.Contract.Normalize
import PooFlow.Foundation.Checks

namespace PooFlow.Contract

open JsonDatum Foundation List Option ScalarKind

variable (pregexp : String → Option (String → Bool))

/-- The emitted predicate counts what the fast path counts. -/
def countsAlike (value : JsonDatum) : Keyword → Bool
  | .minItems | .maxItems => (jsonArrayItems value).isSome = (guidedArray value).isSome
  | .minProperties | .maxProperties => value.jsonObject.isSome = (candidateRows value).isSome
  | _ => true

/-- The bounds of a node without those that the emitted predicate takes to be met. -/
def boundsRun (constraints : List Constraint) (value : JsonDatum) : Option Bool :=
  (constraints.filter fun constraint => countsAlike value constraint.1).allM
    (nodeConstraintValid pregexp · value)

/-- The rows that the emitted predicate of an object runs on. -/
def predicateRows (properties : List (Property Node))
    (patternProperties : List (PatternProperty Node)) (candidate : JsonDatum) :
    Option (List Row) := do
  (objectRuntimeRowsForSchema pregexp properties patternProperties
    (← objectRuntimeRows candidate)).mapM row

section

variable (properties : List (Property Node)) (additional : Additional Node)
  (patternProperties : List (PatternProperty Node)) (row : Row)

def rowRun : Option Bool := do
  if patternProperties.any (·.matchesRow pregexp row.1) then
    patternsRun pregexp patternProperties row
  else if staticPropertyName properties row.1 then return true
  else additionalRun pregexp additional row.2

def rowValid : Option Bool := do
  objectRowVerdict (declares properties row.1.keySymbol)
    (additionalPropertyValid pregexp additional row.2)
    (← patternRowState pregexp patternProperties row .unmatched)

end

mutual

def Emits : Node → Prop
  | .scalar _ schema | .any schema =>
    ∀ constraint ∈ schemaConstraints schema, constraint.1 = .pattern →
      (compiled pregexp constraint.2).isSome
  | .unchecked _ | .negation _ | .ref _ | .object _ _ _ _ => True
  | .array _ items => Emits items
  | .tuple _ _ => False
  | .logical _ children => EmitsEach children
termination_by structural node => node

def EmitsEach : List Node → Prop
  | [] => True
  | child :: children => Emits child ∧ EmitsEach children
termination_by structural children => children

end

/-- The next schema of a union is read. -/
def LogicalKind.GoesOn : LogicalKind → Option Bool → Prop
  | .anyOf, answer => answer = some false
  | .allOf, answer => answer = some true
  | .oneOf, _ => True

mutual

/-- Wherever the fast path and the emitted predicate come to on a value, they read it
alike. The predicate takes the bounds of arrays and objects last. -/
def ReadsAlike : Node → JsonDatum → Prop
  | .scalar kind schema, value => kind.accepts value →
    Agree (boundsRun pregexp (schemaConstraints schema) value)
      ((schemaConstraints schema).allM (nodeConstraintValid pregexp · value))
  | .any schema, value =>
    Agree (boundsRun pregexp (schemaConstraints schema) value)
      ((schemaConstraints schema).allM (nodeConstraintValid pregexp · value))
  | .unchecked _, _ | .negation _, _ => True
  | .ref _, _ => True
  | .array schema items, value => ∀ values, guidedArray value = some values →
    let valid := (arrayConstraints schema).allM (arrayConstraintValid values.length)
    valid.isSome ∧
    (valid = some false → (predicateResult pregexp (.array [] items) value).isSome) ∧
    (valid = some true →
      if (jsonArrayItems value).isSome then
        Stepwise (nodeValid pregexp items · = some true) (fun item => ReadsAlike items item) values
      else nodeValid pregexp (.array [] items) value = some false)
  | .tuple _ _, _ => False
  | .logical kind children, value => ReadsEachAlike kind children value
  | .object schema properties additional patternProperties, candidate =>
    ∀ rows, candidateRows candidate = some rows →
    let valid := (objectConstraints schema).allM (objectConstraintValid rows.length)
    let unbounded := Node.object [] properties additional patternProperties
    valid.isSome ∧
    (valid = some false → ∃ b, predicateResult pregexp unbounded candidate = some b ∧
      (b = true → candidate.jsonObject.isSome)) ∧
    (valid = some true →
      match predicateRows pregexp properties patternProperties candidate with
      | none => nodeValid pregexp unbounded candidate = some false
      | some taken =>
        PropertiesReadAlike properties candidate taken ∧
        (propertiesValid pregexp properties candidate = some true →
          -- the only row is not taken for the object
          taken = rows ∧
          Stepwise (rowValid pregexp properties additional patternProperties · = some true)
            (fun row => row.1.keyString.isSome ∧ PatternsReadAlike patternProperties row ∧
              (declares properties row.1.keySymbol = false →
                patternProperties.any (·.matchesRow pregexp row.1) = false →
                AdditionalReadsAlike additional row.2)) rows))
termination_by structural node => node

def ReadsEachAlike : LogicalKind → List Node → JsonDatum → Prop
  | _, [], _ => True
  | kind, child :: children, value => ReadsAlike child value ∧
    (kind.GoesOn (nodeValid pregexp child value) → ReadsEachAlike kind children value)
termination_by structural _ children => children

def PropertiesReadAlike : List (Property Node) → JsonDatum → List Row → Prop
  | [], _, _ => True
  | property :: properties, candidate, rows => PropertyReadsAlike property candidate rows ∧
    (propertyValid pregexp property candidate = some true →
      PropertiesReadAlike properties candidate rows)
termination_by structural properties => properties

def PropertyReadsAlike : Property Node → JsonDatum → List Row → Prop
  | ⟨name, schema, _⟩, candidate, rows =>
    candidateIndexSlot candidate name = objectRef rows name ∧
    ∀ value, objectRef rows name = some value → Emits pregexp schema ∧ ReadsAlike schema value
termination_by structural property => property

def PatternsReadAlike : List (PatternProperty Node) → Row → Prop
  | [], _ => True
  | property :: properties, row =>
    (property.matchesRow pregexp row.1 → PatternReadsAlike property row) ∧
    ((property.matchesRow pregexp row.1 → patternRowValid pregexp property row = some true) →
      PatternsReadAlike properties row)
termination_by structural properties => properties

def PatternReadsAlike : PatternProperty Node → Row → Prop
  | ⟨_, schema⟩, row => rowValue row.2 = row.2 ∧ Emits pregexp schema ∧ ReadsAlike schema row.2
termination_by structural property => property

/-- No key is left open, which the fast path rejects. -/
def AdditionalReadsAlike : Additional Node → JsonDatum → Prop
  | .flag allowed, _ => allowed = false
  | .schema node, tail => rowValue tail = tail ∧ Emits pregexp node ∧ ReadsAlike node tail
termination_by structural additional => additional

end

variable {pregexp : String → Option (String → Bool)}

variable {values : List JsonDatum} {value : JsonDatum} {constraint : Constraint} {schema : List Row}

theorem jsonArrayItems_eq (harray : (guidedArray value).isSome → (jsonArrayItems value).isSome) :
    jsonArrayItems value = guidedArray value := by
  cases value with
  | vector items => simp [guidedArray, jsonArrayItems, jsonObject, JsonDatum.items] at harray
  | _ =>
    simp only [guidedArray, jsonArrayItems] at harray ⊢
    split at harray <;> simp_all

theorem jsonObject_eq (hobject : (candidateRows value).isSome → value.jsonObject.isSome) :
    value.jsonObject = candidateRows value := by
  cases value with
  | table rows => simp [candidateRows, jsonObject, JsonDatum.items] at hobject
  | object slots => simp [candidateRows, jsonObject, JsonDatum.items] at hobject
  | _ => rfl

/-- A bound that the predicate does not count is met. -/
theorem constraintPredicate_run
    (hpattern : constraint.1 = .pattern → (compiled pregexp constraint.2).isSome) :
    ∃ run, constraintPredicate pregexp constraint = some run ∧ ∀ value, run value =
      if countsAlike value constraint.1 then nodeConstraintValid pregexp constraint value
      else some true := by
  obtain ⟨keyword, bound⟩ := constraint
  by_cases hkeyword : keyword = .pattern
  · subst hkeyword
    obtain ⟨matcher, hmatcher⟩ := isSome_iff_exists.1 (hpattern rfl)
    refine ⟨_, by simp [constraintPredicate, hmatcher]; rfl, fun value => ?_⟩
    cases value <;> simp [countsAlike, nodeConstraintValid, patternConstraintValid, hmatcher]
  · refine ⟨_, by simp only [constraintPredicate, hkeyword, if_false]; rfl, fun value => ?_⟩
    simp only [nodeConstraintValid, hkeyword, if_false]
    cases keyword with
    | minItems | maxItems =>
      by_cases hcounts : (jsonArrayItems value).isSome = (guidedArray value).isSome
      · simp [countsAlike, boundValid, jsonArrayItems_eq fun h => by rwa [hcounts]]
      · have hnone : jsonArrayItems value = none := by
          by_contra hsome
          exact hcounts (by rw [jsonArrayItems_eq fun _ => isSome_iff_ne_none.2 hsome])
        rw [if_neg (by simpa [countsAlike] using hcounts), hnone]
        rfl
    | minProperties | maxProperties =>
      by_cases hcounts : value.jsonObject.isSome = (candidateRows value).isSome
      · simp [countsAlike, boundValid, jsonObject_eq fun h => by rwa [hcounts]]
      · have hnone : value.jsonObject = none := by
          by_contra hsome
          exact hcounts (by rw [jsonObject_eq fun _ => isSome_iff_ne_none.2 hsome])
        rw [if_neg (by simpa [countsAlike] using hcounts), hnone]
        rfl
    | _ => simp [countsAlike, boundValid]

theorem applyNodeConstraints_run (base : Predicate) (constraints : List Constraint)
    (hpatterns : ∀ constraint ∈ constraints, constraint.1 = .pattern →
      (compiled pregexp constraint.2).isSome) :
    ∃ run, applyNodeConstraints pregexp base constraints = some run ∧ ∀ value, run value =
      do if ← base value then boundsRun pregexp constraints value else return false := by
  obtain ⟨runs, hruns, hvalues⟩ : ∃ runs,
      constraints.mapM (constraintPredicate pregexp) = some runs ∧
        ∀ value, runs.allM (· value) = constraints.allM fun constraint =>
          if countsAlike value constraint.1 then nodeConstraintValid pregexp constraint value
          else some true := by
    induction constraints with
    | nil => exact ⟨[], rfl, fun _ => rfl⟩
    | cons constraint constraints ih =>
      obtain ⟨runs, hruns, hvalues⟩ := ih fun c hc => hpatterns c (by simp [hc])
      obtain ⟨run, hrun, hvalue⟩ := constraintPredicate_run (hpatterns constraint (by simp))
      refine ⟨run :: runs, by simp [mapM_cons, hrun, hruns], fun value => ?_⟩
      rw [allM_cons, allM_cons, hvalue, hvalues]
  refine ⟨withConstraints base runs, by simp [applyNodeConstraints, hruns], fun value => ?_⟩
  simp only [withConstraints, hvalues]
  rw [boundsRun, allM_filter (p := fun constraint => countsAlike value constraint.1)
    fun constraint _ hskip => by simp [hskip]]
  rw [allM_congr fun constraint hconstraint => if_pos (mem_filter.1 hconstraint).2]

theorem mem_constraintsOf {keywords : List Keyword} : constraint ∈ constraintsOf keywords schema ↔
      constraint.1 ∈ keywords ∧ objectRef schema constraint.1.name = some constraint.2 := by
  obtain ⟨keyword, bound⟩ := constraint
  simp [constraintsOf]

theorem not_pattern_of_mem {keywords : List Keyword} (hkeywords : .pattern ∉ keywords)
    (hmem : constraint ∈ constraintsOf keywords schema) : constraint.1 ≠ .pattern :=
  fun h => hkeywords (h ▸ (mem_constraintsOf.1 hmem).1)

theorem allM_constraintsOf {keywords : List Keyword} {test : Constraint → Option Bool} :
    (constraintsOf keywords schema).allM test = keywords.allM fun keyword =>
      measured (objectRef schema keyword.name) fun bound => test (keyword, bound) := by
  induction keywords with
  | nil => rfl
  | cons keyword keywords ih =>
    rw [allM_cons, ← ih]
    cases hbound : objectRef schema keyword.name <;> simp [constraintsOf, hbound, measured]

theorem schemaBound_of_measured {keyword : Keyword} {test : JsonDatum → Option Bool}
    (hplain : ∀ bound, objectRef schema keyword.name = some bound → (test bound).isSome →
      (∃ q, bound = .number q) ∨ ∃ pattern, bound = .text pattern) (b : Bool)
    (hb : measured (objectRef schema keyword.name) test = some b) :
    schemaBound schema keyword test = some b := by
  cases hbound : objectRef schema keyword.name with
  | none => simpa [schemaBound, schemaRef, hbound, measured] using hb
  | some bound =>
    have htest : test bound = some b := by simpa [hbound, measured] using hb
    rcases hplain bound hbound (by simp [htest]) with ⟨q, rfl⟩ | ⟨pattern, rfl⟩ <;>
      simpa [schemaBound, schemaRef, hbound, measured] using htest

theorem compare_isSome {bound : JsonDatum} {size : ℚ} (h : (atLeast size bound).isSome ∨
      (atMost size bound).isSome ∨ (above size bound).isSome ∨ (below size bound).isSome) :
    (∃ q, bound = .number q) ∨ ∃ pattern, bound = .text pattern := by
  cases bound <;> simp [atLeast, atMost, above, below] at h ⊢

/-- A value of another kind is rejected before any bound is read. -/
theorem scalarPredicate_of_not_accepts {kind : ScalarKind} (haccepts : kind.accepts value = false) :
    scalarPredicate pregexp schema kind value = some false := by
  cases kind with
  | null =>
    have : null.accepts value = value.isNull := by cases value <;> rfl
    simp [scalarPredicate, ← this, haccepts]
  | _ =>
    cases value <;> simp_all [scalarPredicate, stringPredicate, numberPredicate, accepts]

theorem scalarPredicate_of_accepts {kind : ScalarKind} (haccepts : kind.accepts value)
    (hpatterns : ∀ constraint ∈ schemaConstraints schema, constraint.1 = .pattern →
      (compiled pregexp constraint.2).isSome) {b : Bool}
    (hvalid : (schemaConstraints schema).allM (nodeConstraintValid pregexp · value) = some b) :
    ∃ b', scalarPredicate pregexp schema kind value = some b' ∧ (b = true → b' = true) := by
  -- the keywords that say nothing of the value are left out
  have hkept : ∀ p : Keyword → Bool, (∀ keyword, p keyword = false → ∀ bound,
      nodeConstraintValid pregexp (keyword, bound) value = some true) →
      (List.filter p [.minLength, .maxLength, .minimum, .maximum, .exclusiveMinimum,
        .exclusiveMaximum, .minItems, .maxItems, .minProperties, .maxProperties, .pattern]).allM
        (fun keyword => measured (objectRef schema keyword.name) fun bound =>
          nodeConstraintValid pregexp (keyword, bound) value) = some b := by
    intro p hskip
    rw [← hvalid, schemaConstraints, allM_constraintsOf]
    refine (allM_filter fun keyword _ hp => ?_).symm
    simp only [hskip keyword hp]
    cases objectRef schema keyword.name <;> rfl
  have hnumber : ∀ q, value = .number q → ∀ base : JsonDatum → Bool, base (.number q) →
      numberPredicate schema base (.number q) = some b := by
    rintro q rfl base hbase
    simp only [numberPredicate, hbase, if_true]
    refine allM_of_forall₂ (.cons ?_ (.cons ?_ (.cons ?_ (.cons ?_ .nil))))
      (hkept (· ∈ [.minimum, .maximum, .exclusiveMinimum, .exclusiveMaximum])
        fun keyword hskip bound => by cases keyword <;> first | rfl | simp at hskip)
    · exact schemaBound_of_measured fun _ _ h => compare_isSome (.inl h)
    · exact schemaBound_of_measured fun _ _ h => compare_isSome (.inr (.inl h))
    · exact schemaBound_of_measured fun _ _ h => compare_isSome (.inr (.inr (.inl h)))
    · exact schemaBound_of_measured fun _ _ h => compare_isSome (.inr (.inr (.inr h)))
  cases kind with
  | string =>
    cases value with
    | text text =>
      refine ⟨b, allM_of_forall₂ (.cons ?_ (.cons ?_ (.cons ?_ .nil)))
        (hkept (· ∈ [.minLength, .maxLength, .pattern])
          fun keyword hskip bound => by cases keyword <;> first | rfl | simp at hskip), id⟩
      · exact schemaBound_of_measured fun _ _ h => compare_isSome (.inl h)
      · exact schemaBound_of_measured fun _ _ h => compare_isSome (.inr (.inl h))
      · refine schemaBound_of_measured fun bound hbound _ => ?_
        have := hpatterns (.pattern, bound) (mem_constraintsOf.2 ⟨by simp, hbound⟩) rfl
        cases bound <;> simp [compiled] at this ⊢
    | _ => simp [accepts] at haccepts
  | number =>
    cases value with
    | number q => exact ⟨b, hnumber q rfl _ haccepts, id⟩
    | _ => simp [accepts] at haccepts
  | integer =>
    cases value with
    | number q => exact ⟨b, hnumber q rfl _ haccepts, id⟩
    | _ => simp [accepts] at haccepts
  | boolean => exact ⟨true, by simpa [scalarPredicate] using haccepts, fun _ => rfl⟩
  | null =>
    have : null.accepts value = value.isNull := by cases value <;> rfl
    exact ⟨true, by simpa [scalarPredicate, ← this] using haccepts, fun _ => rfl⟩

variable {properties : List (Property Node)} {patternProperties : List (PatternProperty Node)}
  {additional : Additional Node} {items : Node} {rows : List Row} {row : Row}
  {candidate : JsonDatum}

theorem matchesRow_eq {property : PatternProperty Node}
    (hkey : row.1.keyString.isSome) :
    property.matchesKey pregexp (rowKeyString row) = property.matchesRow pregexp row.1 := by
  obtain ⟨key, hkey⟩ := isSome_iff_exists.1 hkey
  simp [PatternProperty.matchesRow, rowKeyString, hkey]

theorem staticPropertyName_eq {key : JsonDatum} (hkey : key.keyString.isSome) :
    staticPropertyName properties key = declares properties key.keySymbol := by
  obtain ⟨name, hkey⟩ := isSome_iff_exists.1 hkey
  simp [staticPropertyName, declares, keySymbol, hkey, eq_comm]

theorem arrayConstraint_eq (hvalues : guidedArray value = some values)
    (hmem : constraint ∈ arrayConstraints schema) : nodeConstraintValid pregexp constraint value =
      arrayConstraintValid values.length constraint := by
  obtain ⟨keyword, bound⟩ := constraint
  have hkeyword := (mem_constraintsOf.1 hmem).1
  simp only [mem_cons, not_mem_nil, or_false] at hkeyword
  rcases hkeyword with rfl | rfl | rfl <;>
    simp [nodeConstraintValid, boundValid, measured, hvalues, arrayConstraintValid]

theorem objectConstraint_eq (hrows : candidateRows value = some rows)
    (hmem : constraint ∈ objectConstraints schema) : nodeConstraintValid pregexp constraint value =
      objectConstraintValid rows.length constraint := by
  obtain ⟨keyword, bound⟩ := constraint
  have hkeyword := (mem_constraintsOf.1 hmem).1
  simp only [mem_cons, not_mem_nil, or_false] at hkeyword
  rcases hkeyword with rfl | rfl <;>
    simp [nodeConstraintValid, boundValid, measured, hrows, objectConstraintValid]

theorem boundsRun_array (hvalues : guidedArray value = some values)
    (harray : (jsonArrayItems value).isSome) :
    boundsRun pregexp (arrayConstraints schema) value =
      (arrayConstraints schema).allM (arrayConstraintValid values.length) := by
  rw [boundsRun, filter_eq_self.2 fun constraint hconstraint => ?_]
  · exact allM_congr fun constraint hconstraint => arrayConstraint_eq hvalues hconstraint
  · have hkeyword := (mem_constraintsOf.1 hconstraint).1
    simp only [mem_cons, not_mem_nil, or_false] at hkeyword
    rcases hkeyword with h | h | h <;> simp [h, countsAlike, harray, hvalues]

/-- The bounds of a POO object are not counted. -/
theorem boundsRun_object (hrows : candidateRows candidate = some rows) :
    boundsRun pregexp (objectConstraints schema) candidate =
      if candidate.jsonObject.isSome then
        (objectConstraints schema).allM (objectConstraintValid rows.length)
      else some true := by
  have hkeywords : ∀ constraint ∈ objectConstraints schema,
      countsAlike candidate constraint.1 = candidate.jsonObject.isSome := by
    intro constraint hconstraint
    have hkeyword := (mem_constraintsOf.1 hconstraint).1
    simp only [mem_cons, not_mem_nil, or_false] at hkeyword
    rcases hkeyword with h | h <;> simp [h, countsAlike, hrows]
  split_ifs with hobject
  · rw [boundsRun, filter_eq_self.2 fun constraint h => (hkeywords constraint h).trans hobject]
    exact allM_congr fun constraint hconstraint => objectConstraint_eq hrows hconstraint
  · rw [boundsRun, filter_eq_nil_iff.2 fun constraint h => by
      simp [hkeywords constraint h, hobject]]
    rfl

theorem predicateRows_eq_none (hrows : candidateRows candidate = none) :
    predicateRows pregexp properties patternProperties candidate = none := by
  cases hraw : objectRuntimeRows candidate with
  | none => simp [predicateRows, hraw]
  | some raw =>
    have hnone : raw.mapM JsonDatum.row = none := by
      cases candidate with
      | table | object => simp [candidateRows] at hrows
      | _ => simp_all [candidateRows, jsonObject, objectRuntimeRows]
    have hkept : objectRuntimeRowsForSchema pregexp properties patternProperties raw = raw := by
      unfold objectRuntimeRowsForSchema
      split
      · -- a single raw row that is a pair would be a row of the candidate
        simp [mapM_cons, JsonDatum.row] at hnone
      · rfl
    simp [predicateRows, hraw, hkept, hnone]

mutual

theorem nodePredicate_emits : ∀ node, Emits pregexp node →
    ∃ run, nodePredicate pregexp node = some run
  | .scalar _ _, hemits => by
    rw [nodePredicate]
    exact (applyNodeConstraints_run _ _ hemits).imp fun _ h => h.1
  | .any _, hemits => by
    rw [nodePredicate]
    exact (applyNodeConstraints_run _ _ hemits).imp fun _ h => h.1
  | .unchecked _, _ => ⟨_, rfl⟩
  | .negation _, _ => ⟨_, rfl⟩
  | .ref _, _ => ⟨_, rfl⟩
  | .array _ items, hemits => by
    obtain ⟨item, hitem⟩ := nodePredicate_emits items hemits
    rw [nodePredicate, hitem]
    refine (applyNodeConstraints_run _ _ fun c hc hpattern => ?_).imp fun _ h => h.1
    exact absurd hpattern (not_pattern_of_mem (by simp) hc)
  | .tuple _ _, hemits => hemits.elim
  | .logical _ children, hemits => by
    obtain ⟨runs, hruns⟩ := nodePredicates_emit children hemits
    simp [nodePredicate, hruns]
  | .object _ _ _ _, _ => by
    rw [nodePredicate]
    refine (applyNodeConstraints_run _ _ fun c hc hpattern => ?_).imp fun _ h => h.1
    exact absurd hpattern (not_pattern_of_mem (by simp) hc)

theorem nodePredicates_emit : ∀ children, EmitsEach pregexp children →
    ∃ runs, nodePredicates pregexp children = some runs
  | [], _ => ⟨[], rfl⟩
  | child :: children, hemits => by
    obtain ⟨run, hrun⟩ := nodePredicate_emits child hemits.1
    obtain ⟨runs, hruns⟩ := nodePredicates_emit children hemits.2
    simp [nodePredicates, hrun, hruns]

end

theorem predicateResult_eq {node : Node} {base : Predicate} {constraints : List Constraint}
    (hnode : nodePredicate pregexp node = applyNodeConstraints pregexp base constraints)
    (hpatterns : ∀ constraint ∈ constraints, constraint.1 = .pattern →
      (compiled pregexp constraint.2).isSome) (value : JsonDatum) :
    predicateResult pregexp node value =
      do if ← base value then boundsRun pregexp constraints value else return false := by
  obtain ⟨run, hrun, hvalue⟩ := applyNodeConstraints_run base constraints hpatterns
  rw [predicateResult, hnode, hrun, ← hvalue]
  rfl

theorem passed_eq (check : Option Bool) :
    (do if ← check then boundsRun pregexp [] value else return false) = check := by
  cases check with
  | none => rfl
  | some b => cases b <;> rfl

/-- The predicate of an array node runs its items, and then looks at the bounds. -/
theorem predicateResult_array (hemits : Emits pregexp items) :
    (predicateResult pregexp (.array schema items) value = do
      if ← predicateResult pregexp (.array [] items) value then
        boundsRun pregexp (arrayConstraints schema) value
      else return false) ∧
    predicateResult pregexp (.array [] items) value = match jsonArrayItems value with
      | none => some false
      | some values => values.allM (predicateResult pregexp items) := by
  obtain ⟨item, hitem⟩ := nodePredicate_emits items hemits
  have hitems : predicateResult pregexp items = item := by
    funext value
    simp [predicateResult, hitem]
  have hrun := fun schema => @predicateResult_eq pregexp (.array schema items) (arrayPredicate item)
    (arrayConstraints schema) (by simp [nodePredicate, hitem])
    (fun c hc hpattern => absurd hpattern (not_pattern_of_mem (by simp) hc)) value
  have hbase := (hrun []).trans (passed_eq _)
  exact ⟨by rw [hrun, hbase], by rw [hbase, hitems]; rfl⟩

/-- The predicate of an object node runs its properties, its rows, and then looks at
the bounds. -/
theorem predicateResult_object :
    (predicateResult pregexp (.object schema properties additional patternProperties) candidate = do
      if ← predicateResult pregexp (.object [] properties additional patternProperties) candidate
      then boundsRun pregexp (objectConstraints schema) candidate
      else return false) ∧
    predicateResult pregexp (.object [] properties additional patternProperties) candidate =
      match predicateRows pregexp properties patternProperties candidate with
      | none => some false
      | some rows => do
        if ← propertiesRun pregexp properties rows then
          rows.allM (rowRun pregexp properties additional patternProperties)
        else return false := by
  let base := objectPredicate pregexp properties patternProperties fun rows => do
    if ← propertiesRun pregexp properties rows then
      rows.allM (rowRun pregexp properties additional patternProperties)
    else return false
  have hrun := fun schema => @predicateResult_eq pregexp
    (.object schema properties additional patternProperties) base (objectConstraints schema)
    (by rw [nodePredicate]; rfl)
    (fun c hc hpattern => absurd hpattern (not_pattern_of_mem (by simp) hc)) candidate
  have hbase := (hrun []).trans (passed_eq _)
  refine ⟨by rw [hrun, hbase], hbase.trans ?_⟩
  simp only [base, objectPredicate, predicateRows]
  cases objectRuntimeRows candidate <;> rfl

theorem nodePredicates_run {children : List Node} {runs : List Predicate}
    (hruns : nodePredicates pregexp children = some runs) (value : JsonDatum) :
    predicateOr runs value = children.anyM (predicateResult pregexp · value) ∧
    predicateAnd runs value = children.allM (predicateResult pregexp · value) ∧
    runs.mapM (· value) = children.mapM (predicateResult pregexp · value) := by
  induction children generalizing runs with
  | nil =>
    obtain rfl : [] = runs := some.inj hruns
    exact ⟨rfl, rfl, rfl⟩
  | cons child children ih =>
    rw [nodePredicates] at hruns
    obtain ⟨run, hrun, hruns⟩ := bind_eq_some_iff.1 hruns
    obtain ⟨rest, hrest, hruns⟩ := bind_eq_some_iff.1 hruns
    obtain rfl := some.inj hruns
    obtain ⟨hor, hand, hmap⟩ := ih hrest
    have hchild : predicateResult pregexp child value = run value := by simp [predicateResult, hrun]
    simp only [predicateOr, predicateAnd] at hor hand ⊢
    simp only [anyM_cons, allM_cons, mapM_cons, hchild, hor, hand, hmap, and_self]

theorem patternRowState_invalid :
    patternRowState pregexp patternProperties row .invalid = some .invalid := by
  induction patternProperties with
  | nil => rfl
  | cons property properties ih => simpa [patternRowState] using ih

/-- On the states of the patterns of a row, both paths come to one verdict. -/
theorem rowRun_agree (hkey : row.1.keyString.isSome) {b : Bool}
    (hrun : patternsRun pregexp patternProperties row = some b)
    (hstate : patternRowState pregexp patternProperties row .unmatched = some
      (if b = false then .invalid
        else if patternProperties.any (·.matchesRow pregexp row.1) then .matched else .unmatched))
    (hmatched : b = false → patternProperties.any (·.matchesRow pregexp row.1))
    (hadditional : declares properties row.1.keySymbol = false →
      patternProperties.any (·.matchesRow pregexp row.1) = false →
      Agree (additionalRun pregexp additional row.2)
        (additionalPropertyValid pregexp additional row.2)) :
    Agree (rowRun pregexp properties additional patternProperties row)
      (rowValid pregexp properties additional patternProperties row) := by
  rw [rowRun, rowValid, hstate]
  cases hany : patternProperties.any (·.matchesRow pregexp row.1) with
  | true => exact ⟨b, by simp [hrun], by cases b <;> simp [objectRowVerdict]⟩
  | false =>
    obtain rfl : b = true := by
      by_contra hfalse
      exact absurd (hmatched (by simpa using hfalse)) (by simp [hany])
    simp only [staticPropertyName_eq hkey]
    cases hdeclared : declares properties row.1.keySymbol with
    | true => exact ⟨true, by simp, by simp [objectRowVerdict]⟩
    | false => simpa [objectRowVerdict] using hadditional hdeclared hany

mutual

theorem nodePredicate_agree : ∀ node value, Emits pregexp node → ReadsAlike pregexp node value →
    Agree (predicateResult pregexp node value) (nodeValid pregexp node value)
  | .scalar kind schema, value, hemits, hread => by
    rw [predicateResult_eq (by rw [nodePredicate]) hemits, nodeValid]
    cases haccepts : kind.accepts value with
    | false => exact ⟨false, by simp [scalarPredicate_of_not_accepts haccepts], by simp⟩
    | true =>
      obtain ⟨b, hrun, hvalid⟩ := hread haccepts
      obtain ⟨b', hbase, htrue⟩ := scalarPredicate_of_accepts haccepts hemits hvalid
      refine ⟨b, ?_, by simpa using hvalid⟩
      cases b' <;> cases b <;> simp_all
  | .any schema, value, hemits, hread => by
    rw [predicateResult_eq (by rw [nodePredicate]) hemits, nodeValid]
    exact hread
  | .unchecked _, _, _, _ => ⟨true, rfl, rfl⟩
  | .negation _, _, _, _ => ⟨true, rfl, rfl⟩
  | .ref _, _, _, _ => ⟨true, rfl, rfl⟩
  | .array schema items, value, hemits, hread => by
    obtain ⟨hrun, hbase⟩ := @predicateResult_array pregexp value schema items hemits
    rw [hrun]
    cases hvalues : guidedArray value with
    | none =>
      have hnone : jsonArrayItems value = none := by
        rw [jsonArrayItems_eq (by simp [hvalues]), hvalues]
      exact ⟨false, by simp [hbase, hnone], by simp [nodeValid, hvalues]⟩
    | some values =>
      obtain ⟨hvalid, hfails, hpasses⟩ := hread values hvalues
      have hnode : nodeValid pregexp (.array schema items) value = do
          if ← (arrayConstraints schema).allM (arrayConstraintValid values.length) then
            nodeValid pregexp (.array [] items) value
          else return false := by
        simp only [nodeValid, hvalues]
        rfl
      rw [hnode]
      obtain ⟨valid, hbounds⟩ := isSome_iff_exists.1 hvalid
      have hcounted : (jsonArrayItems value).isSome →
          boundsRun pregexp (arrayConstraints schema) value = some valid := fun harray =>
        (boundsRun_array hvalues harray).trans hbounds
      rw [hbounds]
      cases harray : jsonArrayItems value with
      | none =>
        have hreject : predicateResult pregexp (.array [] items) value = some false := by
          rw [hbase, harray]
        refine ⟨false, by simp [hreject], ?_⟩
        cases valid with
        | false => simp
        | true => simpa [harray] using hpasses hbounds
      | some found =>
        have hcount := hcounted (by simp [harray])
        cases valid with
        | false =>
          obtain ⟨b, hb⟩ := isSome_iff_exists.1 (hfails hbounds)
          exact ⟨false, by cases b <;> simp [hb, hcount], by simp⟩
        | true =>
          have hfound : jsonArrayItems value = some values := by
            rw [jsonArrayItems_eq (by simp [harray]), hvalues]
          have hitems := hpasses hbounds
          rw [if_pos (by simp [harray])] at hitems
          obtain ⟨b, hb, hvalidItems⟩ := Agree.allM (hitems.imp fun item _ hitem =>
            nodePredicate_agree items item hemits hitem)
          have hnode : nodeValid pregexp (.array [] items) value =
              values.allM (nodeValid pregexp items) := by
            rw [nodeValid, hvalues]
            rfl
          refine ⟨b, ?_, by simpa [hnode] using hvalidItems⟩
          rw [hbase, hfound]
          cases b <;> simp [hb, hcount]
  | .tuple _ _, _, _, hread => hread.elim
  | .logical kind children, value, hemits, hread => by
    obtain ⟨runs, hruns⟩ := nodePredicates_emit children hemits
    obtain ⟨hor, hand, hmap⟩ := nodePredicates_run hruns value
    rw [nodeValid.eq_def]
    simp only [predicateResult, nodePredicate, hruns]
    cases kind with
    | anyOf => simpa [LogicalKind.combine, hor] using anyRun_agree children value hemits hread
    | allOf => simpa [LogicalKind.combine, hand] using allRun_agree children value hemits hread
    | oneOf =>
      obtain ⟨answers, hanswers, hcount⟩ := countRun_agree children value hemits hread
      exact ⟨_, by simp [LogicalKind.combine, predicateExactlyOne, hmap, hanswers]; rfl,
        by simp [hcount]⟩
  | .object schema properties additional patternProperties, candidate, _, hread => by
    obtain ⟨hrun, hbase⟩ := @predicateResult_object pregexp schema properties patternProperties
      additional candidate
    rw [hrun]
    cases hrows : candidateRows candidate with
    | none =>
      exact ⟨false, by simp [hbase, predicateRows_eq_none hrows], by simp [nodeValid, hrows]⟩
    | some rows =>
      obtain ⟨hvalid, hfails, hpasses⟩ := hread rows hrows
      have hnode : ∀ schema,
          nodeValid pregexp (.object schema properties additional patternProperties) candidate = do
          if ← (objectConstraints schema).allM (objectConstraintValid rows.length) then
            if ← propertiesValid pregexp properties candidate then
              rows.allM (rowValid pregexp properties additional patternProperties)
            else return false
          else return false := by
        intro schema
        simp only [nodeValid, hrows]
        rfl
      obtain ⟨valid, hbounds⟩ := isSome_iff_exists.1 hvalid
      rw [hnode, hbounds, boundsRun_object hrows, hbounds]
      cases valid with
      | false =>
        obtain ⟨b, hb, hobject⟩ := hfails hbounds
        refine ⟨false, ?_, by simp⟩
        cases b with
        | false => simp [hb]
        | true => simp [hb, hobject rfl]
      | true =>
        have hread := hpasses hbounds
        simp only [ite_self]
        suffices h : Agree
            (predicateResult pregexp (.object [] properties additional patternProperties) candidate)
            (do if ← propertiesValid pregexp properties candidate then
                  rows.allM (rowValid pregexp properties additional patternProperties)
                else return false) by
          obtain ⟨b, hb, hvalid⟩ := h
          exact ⟨b, by cases b <;> simp [hb], by simpa using hvalid⟩
        rw [hbase]
        cases htaken : predicateRows pregexp properties patternProperties candidate with
        | none =>
          simp only [htaken, hnode] at hread
          exact ⟨false, rfl, hread⟩
        | some taken =>
          simp only [htaken] at hread
          refine (propertiesRun_agree properties candidate taken hread.1).and fun hproperties => ?_
          obtain ⟨rfl, hrowsRead⟩ := hread.2 hproperties
          refine Agree.allM (hrowsRead.imp fun row _ hrow => ?_)
          obtain ⟨hkey, hpatterns, hadditional⟩ := hrow
          obtain ⟨b, hrun, hmatched, hstate⟩ :=
            patternsRun_agree patternProperties row hkey hpatterns
          exact rowRun_agree hkey hrun (by simpa using hstate .unmatched) hmatched
            fun hdeclared hany =>
              additionalRun_agree additional row.2 (hadditional hdeclared hany)

theorem anyRun_agree : ∀ children value, EmitsEach pregexp children →
    ReadsEachAlike pregexp .anyOf children value →
    Agree (children.anyM (predicateResult pregexp · value)) (anyValid pregexp children value)
  | [], _, _, _ => ⟨false, rfl, rfl⟩
  | child :: children, value, hemits, hread => by
    rw [anyM_cons, anyValid]
    exact (nodePredicate_agree child value hemits.1 hread.1).or fun hgoes =>
      anyRun_agree children value hemits.2 (hread.2 hgoes)

theorem allRun_agree : ∀ children value, EmitsEach pregexp children →
    ReadsEachAlike pregexp .allOf children value →
    Agree (children.allM (predicateResult pregexp · value)) (allValid pregexp children value)
  | [], _, _, _ => ⟨true, rfl, rfl⟩
  | child :: children, value, hemits, hread => by
    rw [allM_cons, allValid]
    exact (nodePredicate_agree child value hemits.1 hread.1).and fun hgoes =>
      allRun_agree children value hemits.2 (hread.2 hgoes)

theorem countRun_agree : ∀ children value, EmitsEach pregexp children →
    ReadsEachAlike pregexp .oneOf children value →
    ∃ answers, children.mapM (predicateResult pregexp · value) = some answers ∧
      countValid pregexp children value = some (answers.count true)
  | [], _, _, _ => ⟨[], rfl, rfl⟩
  | child :: children, value, hemits, hread => by
    obtain ⟨b, hrun, hvalid⟩ := nodePredicate_agree child value hemits.1 hread.1
    obtain ⟨answers, hruns, hcount⟩ := countRun_agree children value hemits.2 (hread.2 trivial)
    refine ⟨b :: answers, by simp [mapM_cons, hrun, hruns], ?_⟩
    cases b <;> simp [countValid, hvalid, hcount]

theorem propertiesRun_agree : ∀ properties candidate rows,
    PropertiesReadAlike pregexp properties candidate rows →
    Agree (propertiesRun pregexp properties rows) (propertiesValid pregexp properties candidate)
  | [], _, _, _ => ⟨true, rfl, rfl⟩
  | property :: properties, candidate, rows, hread => by
    rw [propertiesRun, propertiesValid]
    exact (propertyRun_agree property candidate rows hread.1).and fun hpass =>
      propertiesRun_agree properties candidate rows (hread.2 hpass)

theorem propertyRun_agree : ∀ property candidate rows,
    PropertyReadsAlike pregexp property candidate rows →
    Agree (propertyRun pregexp property rows) (propertyValid pregexp property candidate)
  | ⟨name, schema, required⟩, candidate, rows, ⟨hlookup, hschema⟩ => by
    rw [propertyRun, propertyValid, hlookup]
    cases hvalue : objectRef rows name with
    | none => exact ⟨_, rfl, rfl⟩
    | some value =>
      obtain ⟨hemits, hread⟩ := hschema value hvalue
      exact nodePredicate_agree schema value hemits hread

theorem patternsRun_agree : ∀ patternProperties (row : Row), row.1.keyString.isSome →
    PatternsReadAlike pregexp patternProperties row →
    ∃ b, patternsRun pregexp patternProperties row = some b ∧
      (b = false → patternProperties.any (·.matchesRow pregexp row.1)) ∧
      ∀ state, patternRowState pregexp patternProperties row state =
        some (if state = .invalid ∨ b = false then .invalid
          else if patternProperties.any (·.matchesRow pregexp row.1) then .matched else state)
  | [], _, _, _ => ⟨true, rfl, by simp, fun state => by cases state <;> rfl⟩
  | property :: properties, row, hkey, hread => by
    have hmatch : property.matchesKey pregexp (rowKeyString row) =
        property.matchesRow pregexp row.1 := matchesRow_eq hkey
    by_cases hmatches : property.matchesRow pregexp row.1
    · obtain ⟨b, hrun, hvalid⟩ := patternRun_agree property row (hread.1 hmatches)
      cases b with
      | false =>
        refine ⟨false, by simp [patternsRun, hmatches, hrun], by simp [hmatches], fun state => ?_⟩
        cases state <;>
          simp [patternRowState, hmatch, hmatches, hvalid, patternRowState_invalid]
      | true =>
        obtain ⟨b, hruns, hany, hstate⟩ :=
          patternsRun_agree properties row hkey (hread.2 fun _ => hvalid)
        refine ⟨b, by simp [patternsRun, hmatches, hrun, hruns], by simp [hmatches],
          fun state => ?_⟩
        cases b <;> cases state <;> simp [patternRowState, hmatch, hmatches, hvalid, hstate]
    · obtain ⟨b, hruns, hany, hstate⟩ :=
        patternsRun_agree properties row hkey (hread.2 fun h => absurd h hmatches)
      refine ⟨b, by simp [patternsRun, hmatches, hruns], by simpa [hmatches] using hany,
        fun state => ?_⟩
      cases state <;> simp [patternRowState, hmatch, hmatches, hstate]

theorem patternRun_agree : ∀ property row, PatternReadsAlike pregexp property row →
    Agree (patternRun pregexp property row) (patternRowValid pregexp property row)
  | ⟨_, schema⟩, row, ⟨hplain, hemits, hread⟩ => by
    rw [patternRowValid, hplain]
    exact nodePredicate_agree schema row.2 hemits hread

theorem additionalRun_agree : ∀ additional tail, AdditionalReadsAlike pregexp additional tail →
    Agree (additionalRun pregexp additional tail) (additionalPropertyValid pregexp additional tail)
  | .flag _, _, hclosed => ⟨false, by simp [additionalRun, show _ = false from hclosed], rfl⟩
  | .schema node, tail, ⟨hplain, hemits, hread⟩ => by
    rw [additionalPropertyValid, hplain]
    exact nodePredicate_agree node tail hemits hread

end

/-- The emitted predicate of a normalized schema ends as the fast path does, if
it can be emitted and both read alike what they come to on the value. -/
theorem predicate_refines_valid (schema value : JsonDatum) :
    ∀ normalization, normalize pregexp schema = some normalization →
      Emits pregexp normalization.schema → ReadsAlike pregexp normalization.schema value →
      ∃ run b, nodePredicate pregexp normalization.schema = some run ∧
        run value = some b ∧ nodeValid pregexp normalization.schema value = some b := by
  intro normalization _ hemits hread
  obtain ⟨b, hresult, hvalid⟩ := nodePredicate_agree _ value hemits hread
  obtain ⟨run, hrun, hb⟩ := bind_eq_some_iff.1 hresult
  exact ⟨run, b, hrun, hb, hvalid⟩

inductive IsJson : JsonDatum → Prop where
  | null : IsJson (.symbol "null")
  | boolean (value : Bool) : IsJson (.boolean value)
  | number (value : ℚ) : IsJson (.number value)
  | text (value : String) : IsJson (.text value)
  | array {items : List JsonDatum} (hitems : ∀ item ∈ items, IsJson item) : IsJson (list items)
  | object {rows : List (String × JsonDatum)} (hrows : ∀ row ∈ rows, IsJson row.2) :
      IsJson (alist rows)

def personSchema : JsonDatum :=
  alist [("type", .text "object"),
    ("properties", alist [("name", alist [("type", .text "string"), ("minLength", .number 1)])]),
    ("required", list [.text "name"]), ("additionalProperties", .boolean false)]

def personNode : Node :=
  .object [(.text "type", .text "object"),
      (.text "properties", alist [("name",
        alist [("type", .text "string"), ("minLength", .number 1)])]),
      (.text "required", list [.text "name"]), (.text "additionalProperties", .boolean false)]
    [⟨"name", .scalar .string [(.text "type", .text "string"), (.text "minLength", .number 1)],
      true⟩] (.flag false) []

theorem normalize_personSchema :
    normalize (fun _ => none) personSchema = some ⟨personNode, [], []⟩ := rfl

theorem person_read_alike : ∃ run b, nodePredicate (fun _ => none) personNode = some run ∧
      run (alist [("name", .text "Ada")]) = some b ∧
      nodeValid (fun _ => none) personNode (alist [("name", .text "Ada")]) = some b := by
  refine predicate_refines_valid personSchema _ _ normalize_personSchema trivial
    fun rows hrows => ?_
  obtain rfl : [(.text "name", .text "Ada")] = rows := Option.some.inj hrows
  refine ⟨rfl, nofun, fun _ => ⟨⟨⟨rfl, fun value hvalue => ?_⟩, fun _ => trivial⟩,
    fun _ => ⟨rfl, ⟨rfl, trivial, fun _ _ => rfl⟩, fun _ => trivial⟩⟩⟩
  obtain rfl : JsonDatum.text "Ada" = value := Option.some.inj hvalue
  refine ⟨fun constraint hconstraint hpattern => ?_, fun _ => ⟨true, rfl, rfl⟩⟩
  replace hconstraint : constraint ∈ [(Keyword.minLength, JsonDatum.number 1)] := hconstraint
  obtain rfl := mem_singleton.1 hconstraint
  cases hpattern

/-- The empty list is an object to the emitted predicate, and no array. -/
theorem empty_array_read_in_two_ways :
    ¬ ∀ (pregexp : String → Option (String → Bool)) (schema value : JsonDatum)
        (normalization : Normalization),
      normalize pregexp schema = some normalization → IsJson value →
      ∃ run b, nodePredicate pregexp normalization.schema = some run ∧
        run value = some b ∧ nodeValid pregexp normalization.schema value = some b := by
  intro hclaim
  obtain ⟨run, b, hrun, hb, hvalid⟩ :=
    hclaim (fun _ => none) (alist [("type", .text "array")]) .nil _ rfl
      (IsJson.array (by simp) : IsJson (list []))
  have hrejected : predicateResult (fun _ => none)
      (.array [(.text "type", .text "array")] (.any [])) .nil = some false := rfl
  replace hrun : nodePredicate (fun _ => none)
      (.array [(.text "type", .text "array")] (.any [])) = some run := hrun
  have hresult : predicateResult (fun _ => none)
      (.array [(.text "type", .text "array")] (.any [])) .nil = some b := by
    rw [predicateResult, hrun]
    exact hb
  have haccepted : (some true : Option Bool) = some b := hvalid
  simp_all

end PooFlow.Contract
