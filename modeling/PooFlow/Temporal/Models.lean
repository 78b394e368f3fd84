import PooFlow.Temporal.Types

/-! A model in `funs.ss` is a finite family of hypotheses about one effect, with observations that
may refute them. -/

namespace PooFlow.Temporal

open Foundation List Function

structure ClockDomain where
  identity : String
  clockRole : String

def ClockDomain.Shape (value : ClockDomain) : Prop := Text value.identity

instance : DecidablePred ClockDomain.Shape := fun value =>
  inferInstanceAs (Decidable (Text value.identity))

structure ModelObservation where
  identity : String
  domainIdentity : String
  logicalPosition : ℕ
  provenanceIdentity : String
  modality : String

def ModelObservation.Shape (value : ModelObservation) : Prop :=
  Text value.identity ∧ Text value.domainIdentity ∧ Text value.provenanceIdentity

instance : DecidablePred ModelObservation.Shape := fun _ => inferInstanceAs (Decidable (_ ∧ _ ∧ _))

inductive OrderRelation where
  | before | notAfter

def OrderRelation.symbol : OrderRelation → String
  | .before => "before"
  | .notAfter => "not-after"

structure TemporalConstraint where
  identity : String
  relation : OrderRelation
  leftObservationId : String
  rightObservationId : String

def TemporalConstraint.Shape (value : TemporalConstraint) : Prop :=
  Text value.identity ∧ Text value.leftObservationId ∧ Text value.rightObservationId

instance : DecidablePred TemporalConstraint.Shape := fun _ =>
  inferInstanceAs (Decidable (_ ∧ _ ∧ _))

structure Hypothesis where
  identity : String
  causeObservationId : String
  effectObservationId : String
  constraints : List TemporalConstraint

def IdList (values : List String) : Prop := (∀ value ∈ values, Text value) ∧ values.Nodup

instance : DecidablePred IdList := fun _ => inferInstanceAs (Decidable (_ ∧ _))

def Hypothesis.Shape (value : Hypothesis) : Prop :=
  Text value.identity ∧ Text value.causeObservationId ∧ Text value.effectObservationId ∧
    (∀ constraint ∈ value.constraints, constraint.Shape) ∧
    IdList (value.constraints.map TemporalConstraint.identity)

instance : DecidablePred Hypothesis.Shape := fun _ =>
  inferInstanceAs (Decidable (_ ∧ _ ∧ _ ∧ _ ∧ _))

structure TemporalModel where
  identity : String
  semanticDigest : String
  domains : List ClockDomain
  observations : List ModelObservation
  hypotheses : List Hypothesis
  familyComplete : Bool

def TemporalModel.Shape (value : TemporalModel) : Prop :=
  (∀ text ∈ [value.identity, value.semanticDigest], Text text) ∧
    (∀ domain ∈ value.domains, domain.Shape) ∧
    (∀ observation ∈ value.observations, observation.Shape) ∧
    value.hypotheses ≠ [] ∧ ∀ hypothesis ∈ value.hypotheses, hypothesis.Shape

instance : DecidablePred TemporalModel.Shape := fun _ =>
  inferInstanceAs (Decidable (_ ∧ _ ∧ _ ∧ _ ∧ _))

structure Query where
  identity : String
  hypothesisIdentity : String
  explorationLimit : Option ℕ

def Query.Shape (value : Query) : Prop :=
  Text value.identity ∧ Text value.hypothesisIdentity ∧ ∀ limit ∈ value.explorationLimit, 0 < limit

instance : DecidablePred Query.Shape := fun _ => inferInstanceAs (Decidable (_ ∧ _ ∧ _))

inductive Classification where
  | possible | necessary | refuted | unknown
deriving DecidableEq

structure ModelReceipt where
  modelDigest : String
  queryIdentity : String
  classification : Classification
  admissibleHypothesisIds : List String
  refutedHypothesisIds : List String
  unknownHypothesisIds : List String
  unexploredHypothesisIds : List String
  exhausted : Bool
  familyComplete : Bool

def ModelReceipt.Shape (value : ModelReceipt) : Prop :=
  (∀ text ∈ [value.modelDigest, value.queryIdentity], Text text) ∧
    ∀ ids ∈ [value.admissibleHypothesisIds, value.refutedHypothesisIds,
      value.unknownHypothesisIds, value.unexploredHypothesisIds], IdList ids

instance : DecidablePred ModelReceipt.Shape := fun _ => inferInstanceAs (Decidable (_ ∧ _))

/-- `(list-sort by-id values)`. -/
def sortById {α : Type} (identity : α → String) (values : List α) : List α :=
  values.insertionSort (identity · ≤ identity ·)

def canonicalConstraints (hypothesis : Hypothesis) : Datum :=
  .list ((sortById TemporalConstraint.identity hypothesis.constraints).map fun constraint =>
    .list [.text constraint.identity, .symbol constraint.relation.symbol,
      .text constraint.leftObservationId, .text constraint.rightObservationId])

def hypothesisRow (hypothesis : Hypothesis) : Datum :=
  .list [.text hypothesis.identity, .text hypothesis.causeObservationId,
    .text hypothesis.effectObservationId, canonicalConstraints hypothesis]

def modelRow (identity : String) (domains : List ClockDomain)
    (observations : List ModelObservation) (hypotheses : List Hypothesis)
    (familyComplete : Bool) : Datum :=
  .list [.symbol "poo-flow.temporal-causality.model.v1", .text identity, .boolean familyComplete,
    .list ((sortById ClockDomain.identity domains).map fun domain =>
      .list [.text domain.identity, .symbol domain.clockRole]),
    .list ((sortById ModelObservation.identity observations).map fun observation =>
      .list [.text observation.identity, .text observation.domainIdentity,
        .integer observation.logicalPosition, .text observation.provenanceIdentity,
        .symbol observation.modality]),
    .list ((sortById Hypothesis.identity hypotheses).map hypothesisRow)]

section

variable (sha256 : Bytes → Digest) (write : Datum → String)

def modelOf (identity : String) (domains : List ClockDomain) (observations : List ModelObservation)
    (hypotheses : List Hypothesis) (familyComplete : Bool) : TemporalModel where
  identity := identity
  semanticDigest := digest sha256 write
    (modelRow identity domains observations hypotheses familyComplete)
  domains := sortById ClockDomain.identity domains
  observations := sortById ModelObservation.identity observations
  hypotheses := sortById Hypothesis.identity hypotheses
  familyComplete := familyComplete

def temporalModel (identity : String) (domains : List ClockDomain)
    (observations : List ModelObservation) (hypotheses : List Hypothesis)
    (familyComplete : Bool) : Except Condition TemporalModel := do
  guardElse (Text identity ∧ domains ≠ [] ∧ (∀ domain ∈ domains, domain.Shape) ∧
      (∀ observation ∈ observations, observation.Shape) ∧ hypotheses ≠ [] ∧
      ∀ hypothesis ∈ hypotheses, hypothesis.Shape)
    (raise "invalid temporal model inventory" [identity])
  guardElse ((domains.map ClockDomain.identity).Nodup ∧
      (observations.map ModelObservation.identity).Nodup ∧
      (hypotheses.map Hypothesis.identity).Nodup)
    (raise "duplicate temporal model identity" [identity])
  observations.forM fun observation =>
    guardElse (observation.domainIdentity ∈ domains.map ClockDomain.identity)
      (raise "temporal observation has unknown clock domain" [observation.identity])
  -- all hypotheses explain the effect of the first one
  let effectId := hypotheses.head?.map Hypothesis.effectObservationId
  guardElse (∀ hypothesis ∈ hypotheses, some hypothesis.effectObservationId = effectId)
    (raise "temporal hypothesis family has multiple effects" [identity])
  let model := modelOf sha256 write identity domains observations hypotheses familyComplete
  guardElse model.Shape .invalid
  return model

end

inductive Standing where
  | admitted | refuted | unknown
deriving DecidableEq

def observationAt (index : List ModelObservation) (identity : String) : Option ModelObservation :=
  index.find? fun observation => observation.identity = identity

/-- Whether the positions are in the relation. -/
def OrderRelation.Holds (relation : OrderRelation) (left right : ℕ) : Prop :=
  match relation with
  | .before => left < right
  | .notAfter => left ≤ right

instance (relation : OrderRelation) (left right : ℕ) : Decidable (relation.Holds left right) :=
  match relation with
  | .before => inferInstanceAs (Decidable (left < right))
  | .notAfter => inferInstanceAs (Decidable (left ≤ right))

def orderStatus (leftId rightId : String) (relation : OrderRelation)
    (observations : List ModelObservation) : Standing :=
  match observationAt observations leftId, observationAt observations rightId with
  | some left, some right =>
    if ¬(left.modality = "observed" ∧ right.modality = "observed") then .unknown
    else if left.domainIdentity ≠ right.domainIdentity then .unknown
    else if relation.Holds left.logicalPosition right.logicalPosition then .admitted
    else .refuted
  | _, _ => .unknown

/-- `statuses` of a hypothesis. -/
def orderStatuses (hypothesis : Hypothesis) (observations : List ModelObservation) :
    List Standing :=
  orderStatus hypothesis.causeObservationId hypothesis.effectObservationId .before observations ::
    hypothesis.constraints.map fun constraint =>
      orderStatus constraint.leftObservationId constraint.rightObservationId constraint.relation
        observations

def hypothesisStatus (hypothesis : Hypothesis) (observations : List ModelObservation) : Standing :=
  if .refuted ∈ orderStatuses hypothesis observations then .refuted
  else if .unknown ∈ orderStatuses hypothesis observations then .unknown
  else .admitted

structure Explored where
  admitted : List String
  refuted : List String
  unknown : List String

def Explored.add (explored : Explored) (id : String) : Standing → Explored
  | .admitted => { explored with admitted := id :: explored.admitted }
  | .refuted => { explored with refuted := id :: explored.refuted }
  | .unknown => { explored with unknown := id :: explored.unknown }

/-- The loop of `poo-flow-temporal-model-classify`: what was looked at, and what remains. -/
def exploreWorlds (observations : List ModelObservation) :
    List Hypothesis → Option ℕ → Explored → Explored × List Hypothesis
  | [], _, explored => (explored, [])
  | remaining@(_ :: _), some 0, explored => (explored, remaining)
  | hypothesis :: remaining, fuel, explored =>
    exploreWorlds observations remaining (fuel.map (· - 1))
      (explored.add hypothesis.identity (hypothesisStatus hypothesis observations))

/-- `classification` of a target. -/
def classificationOf (target : String) (familyComplete exhausted : Bool) (explored : Explored) :
    Classification :=
  if target ∈ explored.refuted then .refuted
  else if target ∈ explored.admitted then
    if exhausted = true ∧ familyComplete = true ∧ explored.unknown = [] ∧
        explored.admitted.length = 1 then .necessary
    else .possible
  else .unknown

def temporalModelClassify (model : TemporalModel) (query : Query) :
    Except Condition ModelReceipt := do
  guardElse (model.Shape ∧ query.Shape)
    (raise "temporal model classification requires a model and query" [])
  let target := query.hypothesisIdentity
  guardElse (∃ hypothesis ∈ model.hypotheses, hypothesis.identity = target)
    (raise "query hypothesis is absent from temporal model" [target])
  let (explored, remaining) :=
    exploreWorlds model.observations.reverse model.hypotheses query.explorationLimit ⟨[], [], []⟩
  let exhausted := remaining.isEmpty
  let receipt : ModelReceipt :=
    ⟨model.semanticDigest, query.identity,
      classificationOf target model.familyComplete exhausted explored,
      explored.admitted.reverse, explored.refuted.reverse, explored.unknown.reverse,
      remaining.map Hypothesis.identity, exhausted, model.familyComplete⟩
  guardElse receipt.Shape .invalid
  return receipt

theorem perm_sortById {α : Type} (identity : α → String) (values : List α) :
    (sortById identity values).Perm values :=
  perm_insertionSort _ _

theorem sortById_congr {α : Type} {identity : α → String} {values values' : List α}
    (h : (values.map identity).Nodup) (hperm : values.Perm values') :
    sortById identity values = sortById identity values' :=
  sortOn_congr hperm fun _ ha _ hb => inj_on_of_nodup_map h ha hb

/-- What the constructor asks for. -/
structure Inventory (identity : String) (domains : List ClockDomain)
    (observations : List ModelObservation) (hypotheses : List Hypothesis) : Prop where
  named : Text identity
  domainShapes : domains ≠ [] ∧ ∀ domain ∈ domains, domain.Shape
  observationShapes : ∀ observation ∈ observations, observation.Shape
  hypothesisShapes : hypotheses ≠ [] ∧ ∀ hypothesis ∈ hypotheses, hypothesis.Shape
  distinctDomains : (domains.map ClockDomain.identity).Nodup
  distinctObservations : (observations.map ModelObservation.identity).Nodup
  distinctHypotheses : (hypotheses.map Hypothesis.identity).Nodup
  declared : ∀ observation ∈ observations,
    observation.domainIdentity ∈ domains.map ClockDomain.identity
  effect : ∃ effectId, ∀ hypothesis ∈ hypotheses, hypothesis.effectObservationId = effectId

section

variable {sha256 : Bytes → Digest} {write : Datum → String} {identity : String}
  {domains : List ClockDomain} {observations : List ModelObservation}
  {hypotheses : List Hypothesis} {familyComplete : Bool}

theorem Inventory.model_shape (h : Inventory identity domains observations hypotheses) :
    (modelOf sha256 write identity domains observations hypotheses familyComplete).Shape := by
  have hhypotheses := perm_sortById Hypothesis.identity hypotheses
  refine ⟨?_, fun domain hmem => ?_, fun observation hmem => ?_, ?_, fun hypothesis hmem => ?_⟩
  · simp only [modelOf, forall_mem_cons, not_mem_nil, false_imp_iff, implies_true,
      and_true]
    exact ⟨h.named, text_digest _⟩
  · exact h.domainShapes.2 domain ((perm_sortById _ _).mem_iff.1 hmem)
  · exact h.observationShapes observation ((perm_sortById _ _).mem_iff.1 hmem)
  · exact fun hnil => h.hypothesisShapes.1 (hhypotheses.symm.trans (hnil ▸ .refl _)).eq_nil
  · exact h.hypothesisShapes.2 hypothesis (hhypotheses.mem_iff.1 hmem)

theorem effect_iff (hnonempty : hypotheses ≠ []) :
    (∀ hypothesis ∈ hypotheses, some hypothesis.effectObservationId =
        hypotheses.head?.map Hypothesis.effectObservationId) ↔
      ∃ effectId, ∀ hypothesis ∈ hypotheses, hypothesis.effectObservationId = effectId := by
  obtain ⟨first, rest, rfl⟩ := exists_cons_of_ne_nil hnonempty
  simp only [List.head?_cons, Option.map_some, Option.some.injEq]
  constructor
  · exact fun h => ⟨_, h⟩
  · rintro ⟨effectId, h⟩ hypothesis hmem
    rw [h hypothesis hmem, h first mem_cons_self]

/-- **Construction** succeeds on the inventories that are asked for. -/
theorem temporalModel_eq_ok {model : TemporalModel} :
    temporalModel sha256 write identity domains observations hypotheses familyComplete = .ok model ↔
      Inventory identity domains observations hypotheses ∧
        model = modelOf sha256 write identity domains observations hypotheses familyComplete := by
  rw [temporalModel]
  simp only [bind_eq_ok, guardElse_eq_ok, exists_const]
  constructor
  · rintro ⟨⟨hidentity, hdomains, hdomainShapes, hobservations, hnonempty, hhypotheses⟩,
      ⟨hdistinctDomains, hdistinctObservations, hdistinctHypotheses⟩, ⟨⟩, hdeclared, heffect, _, hmodel⟩
    exact ⟨⟨hidentity, ⟨hdomains, hdomainShapes⟩, hobservations, ⟨hnonempty, hhypotheses⟩,
      hdistinctDomains, hdistinctObservations, hdistinctHypotheses,
      fun observation hmem => guardElse_eq_ok.1 (forM_eq_ok.1 hdeclared observation hmem),
      (effect_iff hnonempty).1 heffect⟩, (Except.ok.inj hmodel).symm⟩
  · rintro ⟨h, rfl⟩
    exact ⟨⟨h.named, h.domainShapes.1, h.domainShapes.2, h.observationShapes, h.hypothesisShapes⟩,
      ⟨h.distinctDomains, h.distinctObservations, h.distinctHypotheses⟩, (),
      forM_eq_ok.2 fun observation hmem => guardElse_eq_ok.2 (h.declared observation hmem),
      (effect_iff h.hypothesisShapes.1).2 h.effect, h.model_shape, rfl⟩

end

def within (limit : Option ℕ) (hypotheses : List Hypothesis) : List Hypothesis :=
  match limit with
  | none => hypotheses
  | some n => hypotheses.take n

def beyond (limit : Option ℕ) (hypotheses : List Hypothesis) : List Hypothesis :=
  match limit with
  | none => []
  | some n => hypotheses.drop n

theorem within_append_beyond (limit : Option ℕ) (hypotheses : List Hypothesis) :
    within limit hypotheses ++ beyond limit hypotheses = hypotheses := by
  cases limit with
  | none => exact append_nil _
  | some n => exact take_append_drop n hypotheses

def ofStanding (observations : List ModelObservation) (hypotheses : List Hypothesis)
    (standing : Standing) : List String :=
  (hypotheses.filter (hypothesisStatus · observations = standing)).map Hypothesis.identity

theorem mem_ofStanding {observations : List ModelObservation} {hypotheses : List Hypothesis}
    {standing : Standing} {id : String} :
    id ∈ ofStanding observations hypotheses standing ↔ ∃ hypothesis ∈ hypotheses,
      hypothesis.identity = id ∧ hypothesisStatus hypothesis observations = standing := by
  simp only [ofStanding, mem_map, mem_filter, decide_eq_true_eq, and_assoc]
  exact exists_congr fun _ => and_congr_right fun _ => and_comm

def receiptOf (model : TemporalModel) (query : Query) : ModelReceipt where
  modelDigest := model.semanticDigest
  queryIdentity := query.identity
  classification :=
    classificationOf query.hypothesisIdentity model.familyComplete
      (beyond query.explorationLimit model.hypotheses).isEmpty
      ⟨worlds .admitted, worlds .refuted, worlds .unknown⟩
  admissibleHypothesisIds := worlds .admitted
  refutedHypothesisIds := worlds .refuted
  unknownHypothesisIds := worlds .unknown
  unexploredHypothesisIds :=
    (beyond query.explorationLimit model.hypotheses).map Hypothesis.identity
  exhausted := (beyond query.explorationLimit model.hypotheses).isEmpty
  familyComplete := model.familyComplete
where
  worlds : Standing → List String :=
    ofStanding model.observations.reverse (within query.explorationLimit model.hypotheses)

def Explored.addAll (explored : Explored) (observations : List ModelObservation)
    (hypotheses : List Hypothesis) : Explored where
  admitted := (ofStanding observations hypotheses .admitted).reverse ++ explored.admitted
  refuted := (ofStanding observations hypotheses .refuted).reverse ++ explored.refuted
  unknown := (ofStanding observations hypotheses .unknown).reverse ++ explored.unknown

theorem exploreWorlds_eq (observations : List ModelObservation) (hypotheses : List Hypothesis)
    (fuel : Option ℕ) (explored : Explored) : exploreWorlds observations hypotheses fuel explored =
      (explored.addAll observations (within fuel hypotheses), beyond fuel hypotheses) := by
  induction hypotheses generalizing fuel explored with
  | nil => cases fuel <;> simp [exploreWorlds, Explored.addAll, within, beyond, ofStanding]
  | cons hypothesis hypotheses ih =>
    have hstep : ∀ later, exploreWorlds observations hypotheses later
        (explored.add hypothesis.identity (hypothesisStatus hypothesis observations)) =
        (explored.addAll observations (hypothesis :: within later hypotheses),
          beyond later hypotheses) := by
      intro later
      rw [ih]
      cases hstatus : hypothesisStatus hypothesis observations <;>
        simp [Explored.addAll, ofStanding, Explored.add, hstatus]
    cases fuel with
    | none => exact hstep none
    | some n =>
      cases n with
      | zero => simp [exploreWorlds, Explored.addAll, within, beyond, ofStanding]
      | succ n => exact hstep (some n)

theorem classificationOf_reverse (target : String) (familyComplete exhausted : Bool)
    (admitted refuted unknown : List String) : classificationOf target familyComplete exhausted
        ⟨admitted.reverse, refuted.reverse, unknown.reverse⟩ =
      classificationOf target familyComplete exhausted ⟨admitted, refuted, unknown⟩ := by
  simp [classificationOf]

section

variable {model : TemporalModel} {query : Query}

theorem receiptOf_shape (hmodel : model.Shape)
    (hdistinct : (model.hypotheses.map Hypothesis.identity).Nodup) (hquery : query.Shape) :
    (receiptOf model query).Shape := by
  have hids : ∀ hypotheses : List Hypothesis, hypotheses.Sublist model.hypotheses →
      IdList (hypotheses.map Hypothesis.identity) := by
    intro hypotheses hsublist
    refine ⟨fun id hid => ?_, hdistinct.sublist (hsublist.map _)⟩
    obtain ⟨hypothesis, hmem, rfl⟩ := mem_map.1 hid
    exact (hmodel.2.2.2.2 hypothesis (hsublist.subset hmem)).1
  have hsplit := within_append_beyond query.explorationLimit model.hypotheses
  have hwithin : (within query.explorationLimit model.hypotheses).Sublist model.hypotheses := by
    conv_rhs => rw [← hsplit]
    exact sublist_append_left _ _
  have hbeyond : (beyond query.explorationLimit model.hypotheses).Sublist model.hypotheses := by
    conv_rhs => rw [← hsplit]
    exact sublist_append_right _ _
  have hworlds : ∀ standing, IdList (receiptOf.worlds model query standing) := fun standing =>
    hids _ (filter_sublist.trans hwithin)
  simp only [ModelReceipt.Shape, receiptOf, forall_mem_cons, not_mem_nil, false_imp_iff,
    implies_true, and_true]
  exact ⟨⟨hmodel.1 _ (by simp), hquery.1⟩, hworlds _, hworlds _, hworlds _, hids _ hbeyond⟩

/-- **Classification** of a model with distinct hypotheses. -/
theorem temporalModelClassify_eq_ok (hmodel : model.Shape)
    (hdistinct : (model.hypotheses.map Hypothesis.identity).Nodup) {receipt : ModelReceipt} :
    temporalModelClassify model query = .ok receipt ↔ query.Shape ∧
      (∃ hypothesis ∈ model.hypotheses, hypothesis.identity = query.hypothesisIdentity) ∧
        receipt = receiptOf model query := by
  have hreceipt : ∀ {explored remaining},
      exploreWorlds model.observations.reverse model.hypotheses query.explorationLimit
        ⟨[], [], []⟩ = (explored, remaining) →
      (⟨model.semanticDigest, query.identity,
        classificationOf query.hypothesisIdentity model.familyComplete remaining.isEmpty explored,
        explored.admitted.reverse, explored.refuted.reverse, explored.unknown.reverse,
        remaining.map Hypothesis.identity, remaining.isEmpty, model.familyComplete⟩ :
          ModelReceipt) = receiptOf model query := by
    intro explored remaining hrun
    rw [exploreWorlds_eq, Prod.mk.injEq] at hrun
    obtain ⟨rfl, rfl⟩ := hrun
    simp only [Explored.addAll, append_nil, reverse_reverse, classificationOf_reverse,
      receiptOf, receiptOf.worlds]
  rw [temporalModelClassify]
  simp only [bind_eq_ok, guardElse_eq_ok, exists_const, hreceipt rfl]
  constructor
  · rintro ⟨⟨_, hquery⟩, htarget, _, hok⟩
    exact ⟨hquery, htarget, (Except.ok.inj hok).symm⟩
  · rintro ⟨hquery, htarget, rfl⟩
    exact ⟨⟨hmodel, hquery⟩, htarget, receiptOf_shape hmodel hdistinct hquery, rfl⟩

end

/-- A limit that allows as much as another, or more. -/
def Raises (limit limit' : Option ℕ) : Prop := ∀ m ∈ limit', ∃ n ∈ limit, n ≤ m

def Classification.MayBecome : Classification → Classification → Prop
  | .refuted, later => later = .refuted
  | .necessary, later => later = .necessary
  | .possible, later => later = .possible ∨ later = .necessary
  | .unknown, _ => True

theorem within_subset_of_raises {limit limit' : Option ℕ} (h : Raises limit limit')
    (hypotheses : List Hypothesis) : within limit hypotheses ⊆ within limit' hypotheses := by
  cases limit' with
  | none =>
    conv_rhs => rw [← within_append_beyond limit hypotheses]
    exact subset_append_left _ _
  | some m =>
    obtain ⟨n, hn, hle⟩ := h m rfl
    obtain rfl := Option.mem_def.1 hn
    exact (take_sublist_take_left hle).subset

theorem beyond_eq_nil_of_raises {limit limit' : Option ℕ} (h : Raises limit limit')
    {hypotheses : List Hypothesis} (hnil : beyond limit hypotheses = []) :
    beyond limit' hypotheses = [] := by
  cases limit' with
  | none => rfl
  | some m =>
    obtain ⟨n, hn, hle⟩ := h m rfl
    obtain rfl := Option.mem_def.1 hn
    exact drop_eq_nil_of_le ((drop_eq_nil_iff.1 hnil).trans hle)

def orders (hypothesis : Hypothesis) : List (String × String × OrderRelation) :=
  (hypothesis.causeObservationId, hypothesis.effectObservationId, .before) ::
    hypothesis.constraints.map fun constraint =>
      (constraint.leftObservationId, constraint.rightObservationId, constraint.relation)

theorem orderStatuses_eq (hypothesis : Hypothesis) (observations : List ModelObservation) :
    orderStatuses hypothesis observations =
      (orders hypothesis).map fun order => orderStatus order.1 order.2.1 order.2.2 observations := by
  simp [orderStatuses, orders, comp_def]

section

variable {known more : List ModelObservation} (hsubset : known ⊆ more)
  (hdistinct : (more.map ModelObservation.identity).Nodup)

include hsubset hdistinct

theorem observationAt_of_subset {id : String} {observation : ModelObservation}
    (h : observationAt known id = some observation) : observationAt more id = some observation := by
  have hmem := hsubset (mem_of_find?_eq_some h)
  obtain rfl : observation.identity = id := by simpa using List.find?_some h
  obtain ⟨found, hfound⟩ : ∃ found, observationAt more observation.identity = some found :=
    Option.isSome_iff_exists.1 (List.find?_isSome.2 ⟨observation, hmem, by simp⟩)
  rw [hfound, inj_on_of_nodup_map hdistinct (mem_of_find?_eq_some hfound) hmem
    (by simpa using List.find?_some hfound)]

theorem orderStatus_of_subset {leftId rightId : String} {relation : OrderRelation}
    (h : orderStatus leftId rightId relation known ≠ .unknown) :
    orderStatus leftId rightId relation more = orderStatus leftId rightId relation known := by
  rw [orderStatus] at h
  cases hleft : observationAt known leftId with
  | none => rw [hleft] at h; exact absurd rfl h
  | some left =>
    cases hright : observationAt known rightId with
    | none => rw [hleft, hright] at h; exact absurd rfl h
    | some right =>
      rw [orderStatus, orderStatus, hleft, hright, observationAt_of_subset hsubset hdistinct hleft,
        observationAt_of_subset hsubset hdistinct hright]

theorem hypothesisStatus_of_subset {hypothesis : Hypothesis}
    (h : hypothesisStatus hypothesis known ≠ .unknown) :
    hypothesisStatus hypothesis more = hypothesisStatus hypothesis known := by
  rw [hypothesisStatus] at h
  by_cases hrefuted : Standing.refuted ∈ orderStatuses hypothesis known
  · -- one refuted order refutes, whatever else is learned
    have hmore : Standing.refuted ∈ orderStatuses hypothesis more := by
      rw [orderStatuses_eq] at hrefuted ⊢
      obtain ⟨order, horder, hstatus⟩ := mem_map.1 hrefuted
      have hne : orderStatus order.1 order.2.1 order.2.2 known ≠ .unknown := by
        rw [hstatus]
        decide
      exact mem_map.2
        ⟨order, horder, (orderStatus_of_subset hsubset hdistinct hne).trans hstatus⟩
    rw [hypothesisStatus, hypothesisStatus, if_pos hrefuted, if_pos hmore]
  · have hknown : Standing.unknown ∉ orderStatuses hypothesis known := by
      intro hunknown
      rw [if_neg hrefuted, if_pos hunknown] at h
      exact h rfl
    have hsame : orderStatuses hypothesis more = orderStatuses hypothesis known := by
      rw [orderStatuses_eq] at hknown ⊢
      rw [orderStatuses_eq]
      refine map_congr_left fun order horder => orderStatus_of_subset hsubset hdistinct ?_
      exact fun hstatus => hknown (mem_map.2 ⟨order, horder, hstatus⟩)
    rw [hypothesisStatus, hypothesisStatus, hsame]

theorem classificationOf_mayBecome {hypotheses : List Hypothesis}
    (hhypotheses : (hypotheses.map Hypothesis.identity).Nodup) {limit limit' : Option ℕ}
    (hraises : Raises limit limit') (target : String) (familyComplete : Bool) :
    (classificationOf target familyComplete (beyond limit hypotheses).isEmpty
      ⟨ofStanding known (within limit hypotheses) .admitted,
        ofStanding known (within limit hypotheses) .refuted,
        ofStanding known (within limit hypotheses) .unknown⟩).MayBecome
    (classificationOf target familyComplete (beyond limit' hypotheses).isEmpty
      ⟨ofStanding more (within limit' hypotheses) .admitted,
        ofStanding more (within limit' hypotheses) .refuted,
        ofStanding more (within limit' hypotheses) .unknown⟩) := by
  have hwithin := within_subset_of_raises hraises hypotheses
  have hkept : ∀ standing ≠ Standing.unknown, target ∈ ofStanding known (within limit hypotheses)
      standing → target ∈ ofStanding more (within limit' hypotheses) standing := by
    intro standing hne htarget
    obtain ⟨hypothesis, hmem, hidentity, rfl⟩ := mem_ofStanding.1 htarget
    exact mem_ofStanding.2
      ⟨hypothesis, hwithin hmem, hidentity, hypothesisStatus_of_subset hsubset hdistinct hne⟩
  by_cases hrefuted : target ∈ ofStanding known (within limit hypotheses) .refuted
  · rw [classificationOf, if_pos hrefuted, classificationOf, if_pos (hkept _ (by decide) hrefuted)]
    rfl
  · rw [classificationOf, if_neg hrefuted]
    by_cases hadmitted : target ∈ ofStanding known (within limit hypotheses) .admitted
    · have hstays := hkept _ (by decide) hadmitted
      have hnot : target ∉ ofStanding more (within limit' hypotheses) .refuted := by
        intro hlater
        obtain ⟨hypothesis, hmem, hidentity, hstatus⟩ := mem_ofStanding.1 hstays
        obtain ⟨other, hother, hsame, hrefutes⟩ := mem_ofStanding.1 hlater
        have hin : ∀ hypothesis ∈ within limit' hypotheses, hypothesis ∈ hypotheses := by
          intro hypothesis hmem
          rw [← within_append_beyond limit' hypotheses]
          exact mem_append_left _ hmem
        obtain rfl := inj_on_of_nodup_map hhypotheses (hin _ hmem) (hin _ hother)
          (hidentity.trans hsame.symm)
        rw [hstatus] at hrefutes
        cases hrefutes
      rw [if_pos hadmitted, classificationOf, if_neg hnot, if_pos hstays]
      split
      · next hnecessary =>
        -- all hypotheses were looked at, and the standing of each was known
        obtain ⟨hexhausted, hcomplete, hunknown, hone⟩ := hnecessary
        have hnil := List.isEmpty_iff.1 hexhausted
        have hnil' := beyond_eq_nil_of_raises hraises hnil
        have hall := within_append_beyond limit hypotheses
        have hall' := within_append_beyond limit' hypotheses
        rw [hnil, append_nil] at hall
        rw [hnil', append_nil] at hall'
        rw [hall] at hunknown hone
        dsimp only at hunknown
        have hsame : ∀ standing,
            ofStanding more hypotheses standing = ofStanding known hypotheses standing := by
          intro standing
          refine congrArg (List.map _) (filter_congr fun hypothesis hmem => ?_)
          rw [hypothesisStatus_of_subset hsubset hdistinct]
          intro hstatus
          have hlisted := mem_ofStanding.2 ⟨hypothesis, hmem, rfl, hstatus⟩
          rw [hunknown] at hlisted
          cases hlisted
        rw [hall', hsame, hsame, hsame, hnil']
        exact if_pos ⟨rfl, hcomplete, hunknown, hone⟩
      · split
        · exact .inr rfl
        · exact .inl rfl
    · rw [if_neg hadmitted]
      trivial

end

structure Hypothesis.Reordered (hypothesis other : Hypothesis) : Prop where
  identity : hypothesis.identity = other.identity
  cause : hypothesis.causeObservationId = other.causeObservationId
  effect : hypothesis.effectObservationId = other.effectObservationId
  constraints : hypothesis.constraints.Perm other.constraints

def Hypothesis.canonical (hypothesis : Hypothesis) : Hypothesis :=
  { hypothesis with
    constraints := sortById TemporalConstraint.identity hypothesis.constraints }

theorem Hypothesis.Reordered.canonical {hypothesis other : Hypothesis}
    (h : hypothesis.Reordered other)
    (hdistinct : (hypothesis.constraints.map TemporalConstraint.identity).Nodup) :
    hypothesis.canonical = other.canonical := by
  rw [Hypothesis.canonical, Hypothesis.canonical, sortById_congr hdistinct h.constraints,
    h.identity, h.cause, h.effect]

theorem Hypothesis.Reordered.shape {hypothesis other : Hypothesis} (h : hypothesis.Reordered other)
    (hshape : hypothesis.Shape) : other.Shape := by
  obtain ⟨hidentity, hcause, heffect, hconstraints, hids⟩ := hshape
  refine ⟨h.identity ▸ hidentity, h.cause ▸ hcause, h.effect ▸ heffect, fun constraint hmem =>
    hconstraints constraint (h.constraints.mem_iff.2 hmem), fun id hmem => ?_, ?_⟩
  · exact hids.1 id ((h.constraints.map _).mem_iff.2 hmem)
  · exact (h.constraints.map _).nodup_iff.1 hids.2

theorem hypothesisRow_canonical (hypothesis : Hypothesis) :
    hypothesisRow hypothesis.canonical = hypothesisRow hypothesis := by
  have hsorted : sortById TemporalConstraint.identity hypothesis.canonical.constraints =
      sortById TemporalConstraint.identity hypothesis.constraints :=
    List.Pairwise.insertionSort_eq (pairwise_insertionSort _ _)
  rw [hypothesisRow, hypothesisRow, canonicalConstraints, canonicalConstraints, hsorted]
  rfl

theorem hypothesisStatus_canonical (hypothesis : Hypothesis)
    (observations : List ModelObservation) :
    hypothesisStatus hypothesis.canonical observations = hypothesisStatus hypothesis observations := by
  have hperm : (orders hypothesis.canonical).Perm (orders hypothesis) :=
    ((perm_sortById _ _).map _).cons _
  have hstatuses : ∀ standing, standing ∈ orderStatuses hypothesis.canonical observations ↔
      standing ∈ orderStatuses hypothesis observations := by
    intro standing
    rw [orderStatuses_eq, orderStatuses_eq]
    exact (hperm.map _).mem_iff
  simp only [hypothesisStatus, hstatuses]

def TemporalModel.canonical (model : TemporalModel) : TemporalModel :=
  { model with hypotheses := model.hypotheses.map Hypothesis.canonical }

theorem ofStanding_canonical (observations : List ModelObservation) (hypotheses : List Hypothesis)
    (standing : Standing) : ofStanding observations (hypotheses.map Hypothesis.canonical) standing =
      ofStanding observations hypotheses standing := by
  simp only [ofStanding, filter_map, map_map, comp_def, hypothesisStatus_canonical]
  rfl

theorem receiptOf_canonical (model : TemporalModel) (query : Query) :
    receiptOf model.canonical query = receiptOf model query := by
  have hwithin : within query.explorationLimit model.canonical.hypotheses =
      (within query.explorationLimit model.hypotheses).map Hypothesis.canonical := by
    cases query.explorationLimit with
    | none => rfl
    | some n => exact map_take.symm
  have hbeyond : beyond query.explorationLimit model.canonical.hypotheses =
      (beyond query.explorationLimit model.hypotheses).map Hypothesis.canonical := by
    cases query.explorationLimit with
    | none => rfl
    | some n => exact map_drop.symm
  have hworlds : receiptOf.worlds model.canonical query = receiptOf.worlds model query := by
    funext standing
    rw [receiptOf.worlds, hwithin]
    exact ofStanding_canonical _ _ _
  rw [receiptOf, receiptOf, hworlds, hbeyond, isEmpty_map, map_map]
  rfl

section

variable {sha256 : Bytes → Digest} {write : Datum → String} {identity : String}
  {domains domains' : List ClockDomain} {observations observations' : List ModelObservation}
  {hypotheses middle hypotheses' : List Hypothesis} {familyComplete : Bool}

theorem forall₂_mem {p : Hypothesis → Prop}
    (hreordered : List.Forall₂ Hypothesis.Reordered middle hypotheses')
    (hstep : ∀ {hypothesis other}, hypothesis.Reordered other → p hypothesis → p other)
    (h : ∀ hypothesis ∈ middle, p hypothesis) : ∀ hypothesis ∈ hypotheses', p hypothesis := by
  induction hreordered with
  | nil => exact forall_mem_nil _
  | cons hhead _ ih =>
    rw [forall_mem_cons] at h ⊢
    exact ⟨hstep hhead h.1, ih h.2⟩

theorem map_eq_of_reordered {β : Type} {f : Hypothesis → β}
    (hreordered : List.Forall₂ Hypothesis.Reordered middle hypotheses')
    (hstep : ∀ hypothesis ∈ middle, ∀ other, hypothesis.Reordered other → f hypothesis = f other) :
    middle.map f = hypotheses'.map f := by
  induction hreordered with
  | nil => rfl
  | cons hhead _ ih =>
    rw [forall_mem_cons] at hstep
    rw [map_cons, map_cons, hstep.1 _ hhead, ih hstep.2]

variable (hdomains : domains.Perm domains') (hobservations : observations.Perm observations')
  (hmiddle : hypotheses.Perm middle)
  (hreordered : List.Forall₂ Hypothesis.Reordered middle hypotheses')

include hdomains hobservations hmiddle hreordered

/-- What the constructor asks for does not depend on the order. -/
theorem Inventory.reorder (h : Inventory identity domains observations hypotheses) :
    Inventory identity domains' observations' hypotheses' where
  named := h.named
  domainShapes := ⟨fun hnil => h.domainShapes.1 (hnil ▸ hdomains).eq_nil,
    fun domain hmem => h.domainShapes.2 domain (hdomains.mem_iff.2 hmem)⟩
  observationShapes observation hmem :=
    h.observationShapes observation (hobservations.mem_iff.2 hmem)
  hypothesisShapes := by
    refine ⟨?_, forall₂_mem hreordered (fun hsame => hsame.shape) fun hypothesis hmem =>
      h.hypothesisShapes.2 hypothesis (hmiddle.mem_iff.2 hmem)⟩
    rintro rfl
    cases hreordered
    exact h.hypothesisShapes.1 hmiddle.eq_nil
  distinctDomains := (hdomains.map _).nodup_iff.1 h.distinctDomains
  distinctObservations := (hobservations.map _).nodup_iff.1 h.distinctObservations
  distinctHypotheses := by
    rw [← map_eq_of_reordered hreordered fun _ _ _ hsame => hsame.identity]
    exact (hmiddle.map _).nodup_iff.1 h.distinctHypotheses
  declared observation hmem :=
    (hdomains.map _).mem_iff.1 (h.declared observation (hobservations.mem_iff.2 hmem))
  effect := by
    obtain ⟨effectId, heffect⟩ := h.effect
    refine ⟨effectId, forall₂_mem hreordered (fun hsame heq => hsame.effect.symm.trans heq)
      fun hypothesis hmem => heffect hypothesis (hmiddle.mem_iff.2 hmem)⟩

theorem modelOf_canonical (h : Inventory identity domains observations hypotheses) :
    (modelOf sha256 write identity domains observations hypotheses familyComplete).canonical =
      (modelOf sha256 write identity domains' observations' hypotheses'
        familyComplete).canonical := by
  have hconstraints : middle.map Hypothesis.canonical = hypotheses'.map Hypothesis.canonical :=
    map_eq_of_reordered hreordered fun hypothesis hmem other hsame =>
      hsame.canonical (h.hypothesisShapes.2 hypothesis (hmiddle.mem_iff.2 hmem)).2.2.2.2.2
  have hsort : ∀ hypotheses : List Hypothesis,
      (sortById Hypothesis.identity hypotheses).map Hypothesis.canonical =
        sortById Hypothesis.identity (hypotheses.map Hypothesis.canonical) := fun hypotheses =>
    map_insertionSort _ _ _ _ fun _ _ _ _ => Iff.rfl
  have hfamily : (sortById Hypothesis.identity hypotheses).map Hypothesis.canonical =
      (sortById Hypothesis.identity hypotheses').map Hypothesis.canonical := by
    rw [sortById_congr h.distinctHypotheses hmiddle, hsort, hsort, hconstraints]
  have hrows : (sortById Hypothesis.identity hypotheses).map hypothesisRow =
      (sortById Hypothesis.identity hypotheses').map hypothesisRow := by
    have hmap := congrArg (List.map hypothesisRow) hfamily
    simpa only [map_map, comp_def, hypothesisRow_canonical] using hmap
  rw [TemporalModel.canonical, TemporalModel.canonical, modelOf, modelOf, modelRow, modelRow,
    sortById_congr h.distinctDomains hdomains, sortById_congr h.distinctObservations hobservations,
    hrows, hfamily]

end

section

variable {sha256 : Bytes → Digest} {write : Datum → String} {identity : String}
  {domains : List ClockDomain} {observations : List ModelObservation}
  {hypotheses : List Hypothesis} {familyComplete : Bool} {model : TemporalModel}

theorem Inventory.distinct_sorted (h : Inventory identity domains observations hypotheses) :
    ((modelOf sha256 write identity domains observations hypotheses
      familyComplete).hypotheses.map Hypothesis.identity).Nodup :=
  ((perm_sortById _ _).map _).nodup_iff.2 h.distinctHypotheses

theorem Inventory.extend (h : Inventory identity domains observations hypotheses)
    {further : List ModelObservation} (hfurther : ∀ observation ∈ further, observation.Shape ∧
      observation.domainIdentity ∈ domains.map ClockDomain.identity)
    (hnew : ((observations ++ further).map ModelObservation.identity).Nodup) :
    Inventory identity domains (observations ++ further) hypotheses :=
  { h with
    observationShapes := forall_mem_append.2
      ⟨h.observationShapes, fun observation hmem => (hfurther observation hmem).1⟩
    distinctObservations := hnew
    declared := forall_mem_append.2
      ⟨h.declared, fun observation hmem => (hfurther observation hmem).2⟩ }

/-- **Classification is monotone in what is known, and blind to order.** -/
theorem classification_monotone_and_order_free
    (h : temporalModel sha256 write identity domains observations hypotheses familyComplete =
      .ok model) :
    (∀ further : List ModelObservation, (∀ observation ∈ further, observation.Shape ∧
        observation.domainIdentity ∈ domains.map ClockDomain.identity) →
      ((observations ++ further).map ModelObservation.identity).Nodup →
      ∃ model', temporalModel sha256 write identity domains (observations ++ further) hypotheses
          familyComplete = .ok model' ∧
        ∀ query limit receipt, Raises query.explorationLimit limit →
          temporalModelClassify model query = .ok receipt →
          ∃ receipt', temporalModelClassify model' { query with explorationLimit := limit } =
              .ok receipt' ∧
            receipt.classification.MayBecome receipt'.classification) ∧
    ∀ domains' observations' middle hypotheses', domains.Perm domains' →
      observations.Perm observations' → hypotheses.Perm middle →
      List.Forall₂ Hypothesis.Reordered middle hypotheses' →
      ∃ model', temporalModel sha256 write identity domains' observations' hypotheses'
          familyComplete = .ok model' ∧
        model'.semanticDigest = model.semanticDigest ∧
        ∀ query receipt, temporalModelClassify model' query = .ok receipt ↔
          temporalModelClassify model query = .ok receipt := by
  obtain ⟨hinventory, rfl⟩ := temporalModel_eq_ok.1 h
  constructor
  · intro further hfurther hnew
    -- more is known: the inventory is extended
    have hextended := hinventory.extend hfurther hnew
    refine ⟨_, temporalModel_eq_ok.2 ⟨hextended, rfl⟩, ?_⟩
    intro query limit receipt hraises hclassify
    obtain ⟨⟨hidentity, htext, hlimit⟩, htarget, rfl⟩ :=
      (temporalModelClassify_eq_ok hinventory.model_shape hinventory.distinct_sorted).1 hclassify
    refine ⟨_, (temporalModelClassify_eq_ok hextended.model_shape hextended.distinct_sorted).2
      ⟨⟨hidentity, htext, fun m hm => ?_⟩, htarget, rfl⟩, ?_⟩
    · obtain ⟨n, hn, hle⟩ := hraises m hm
      exact (hlimit n hn).trans_le hle
    · refine classificationOf_mayBecome ?_ ?_ hinventory.distinct_sorted hraises _ _
      · intro observation hmem
        rw [mem_reverse] at hmem ⊢
        refine (perm_sortById _ _).mem_iff.2 (mem_append_left _ ?_)
        exact (perm_sortById _ _).mem_iff.1 hmem
      · rw [map_reverse, nodup_reverse]
        exact ((perm_sortById _ _).map _).nodup_iff.2 hnew
  · intro domains' observations' middle hypotheses' hdomains hobservations hmiddle hreordered
    -- another order: both models have the same canonical form
    have hreorder := hinventory.reorder hdomains hobservations hmiddle hreordered
    have hsame : (modelOf sha256 write identity domains observations hypotheses
        familyComplete).canonical =
          (modelOf sha256 write identity domains' observations' hypotheses'
            familyComplete).canonical :=
      modelOf_canonical hdomains hobservations hmiddle hreordered hinventory
    refine ⟨_, temporalModel_eq_ok.2 ⟨hreorder, rfl⟩, ?_, fun query receipt => ?_⟩
    · have hdigest := congrArg TemporalModel.semanticDigest hsame.symm
      exact hdigest
    · have hpresent : ∀ model : TemporalModel,
          (∃ hypothesis ∈ model.hypotheses, hypothesis.identity = query.hypothesisIdentity) ↔
            ∃ hypothesis ∈ model.canonical.hypotheses,
              hypothesis.identity = query.hypothesisIdentity := by
        intro model
        simp [TemporalModel.canonical, Hypothesis.canonical]
      rw [temporalModelClassify_eq_ok hreorder.model_shape hreorder.distinct_sorted,
        temporalModelClassify_eq_ok hinventory.model_shape hinventory.distinct_sorted, hpresent,
        hpresent (modelOf sha256 write identity domains observations _ _), ← receiptOf_canonical,
        ← receiptOf_canonical (modelOf sha256 write identity domains _ _ _), hsame]

end

def outageObservation (identity : String) (position : ℕ) : ModelObservation :=
  ⟨identity, "ledger", position, "probe", "observed"⟩

def outageHypothesis (identity cause : String) (constraints : List TemporalConstraint) :
    Hypothesis :=
  ⟨identity, cause, "outage", constraints⟩

def outageHypotheses : List Hypothesis :=
  [outageHypothesis "deploy" "deployed" [⟨"c1", .notAfter, "built", "deployed"⟩],
    outageHypothesis "attack" "scanned" []]

def outageObservations : List ModelObservation :=
  [outageObservation "deployed" 2, outageObservation "built" 1, outageObservation "outage" 3]

/-- The attack came too late to be the cause: the deployment is necessary. -/
theorem outage_explained : ∃ model model' receipt receipt',
    temporalModel checksum writeDatum "outage" [⟨"ledger", "logical-version"⟩] outageObservations
      outageHypotheses true = .ok model ∧
    temporalModelClassify model ⟨"query", "deploy", some 2⟩ = .ok receipt ∧
    receipt.classification = .possible ∧
    temporalModel checksum writeDatum "outage" [⟨"ledger", "logical-version"⟩]
      (outageObservations ++ [outageObservation "scanned" 4]) outageHypotheses true = .ok model' ∧
    temporalModelClassify model' ⟨"query", "deploy", none⟩ = .ok receipt' ∧
    receipt.classification.MayBecome receipt'.classification := by
  obtain ⟨model, hmodel, receipt, hreceipt, hpossible⟩ : ∃ model,
      temporalModel checksum writeDatum "outage" [⟨"ledger", "logical-version"⟩] outageObservations
        outageHypotheses true = .ok model ∧
      ∃ receipt, temporalModelClassify model ⟨"query", "deploy", some 2⟩ = .ok receipt ∧
        receipt.classification = .possible := by decide +kernel
  obtain ⟨model', hmodel', hlater⟩ := (classification_monotone_and_order_free hmodel).1
    [outageObservation "scanned" 4] (by decide) (by decide)
  obtain ⟨receipt', hreceipt', hmay⟩ :=
    hlater _ none receipt (fun _ h => absurd h (Option.not_mem_none _)) hreceipt
  exact ⟨model, model', receipt, receipt', hmodel, hreceipt, hpossible, hmodel', hreceipt', hmay⟩

end PooFlow.Temporal
