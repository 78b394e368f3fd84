import Mathlib.Data.List.Chain
import PooFlow.Foundation.Routes
import PooFlow.Foundation.Worklist
import PooFlow.Temporal.Events

/-! `funs.ss` compares a contract of a trigger, intended events, error paths and their effects with
an event graph. -/

namespace PooFlow.Temporal

open Foundation List Relation

structure TrajectoryContract where
  identity : String
  triggerEventId : String
  intendedEventIds : List String
  errorEventPaths : List (List String)
  intendedImpactEventIds : List String
  errorImpactEventIds : List String

namespace TrajectoryContract

def errorIds (contract : TrajectoryContract) : List String := contract.errorEventPaths.flatten

def allIds (contract : TrajectoryContract) : List String :=
  contract.triggerEventId :: (contract.intendedEventIds ++ contract.errorIds ++
    contract.intendedImpactEventIds ++ contract.errorImpactEventIds)

def Shape (value : TrajectoryContract) : Prop :=
  Text value.identity ∧ Text value.triggerEventId ∧
    value.intendedEventIds ≠ [] ∧ (∀ id ∈ value.intendedEventIds, Text id) ∧
    value.errorEventPaths ≠ [] ∧
    (∀ path ∈ value.errorEventPaths, path ≠ [] ∧ ∀ id ∈ path, Text id) ∧
    (∀ id ∈ value.intendedImpactEventIds, Text id) ∧
    value.errorImpactEventIds ≠ [] ∧ (∀ id ∈ value.errorImpactEventIds, Text id) ∧
    value.allIds.Nodup

instance : DecidablePred Shape := fun _ =>
  inferInstanceAs (Decidable (_ ∧ _ ∧ _ ∧ _ ∧ _ ∧ _ ∧ _ ∧ _ ∧ _ ∧ _))

end TrajectoryContract

inductive DiagnosticCode where
  | incompleteEventGraph | missingTrajectoryEvent
  | invalidTriggerModality | invalidIntendedModality | invalidErrorModality
  | invalidImpactModality
  | brokenIntendedTrajectory | detachedErrorTrajectory | brokenErrorTrajectory
  | detachedIntendedImpact | detachedErrorImpact

/-- `causal-trajectory-diagnostic`. -/
structure TrajectoryDiagnostic where
  code : DiagnosticCode
  identity : String
  detail : Datum

inductive AssessmentStatus where
  | causalTrajectoryAdmitted | causalTrajectoryRejected
deriving DecidableEq

structure TrajectoryAssessment where
  status : AssessmentStatus
  accepted : Bool
  contractIdentity : String
  eventGraphIdentity : String
  diagnostics : List TrajectoryDiagnostic
  intendedEventIds : List String
  errorEventPaths : List (List String)
  intendedImpactEventIds : List String
  errorImpactEventIds : List String

def TrajectoryAssessment.Shape (value : TrajectoryAssessment) : Prop :=
  value.accepted = decide (value.status = .causalTrajectoryAdmitted) ∧
    Text value.contractIdentity ∧ Text value.eventGraphIdentity

instance : DecidablePred TrajectoryAssessment.Shape := fun _ =>
  inferInstanceAs (Decidable (_ ∧ _ ∧ _))

/-- `(unless p (reject! …))`. -/
def rejectUnless (p : Prop) [Decidable p] (code : DiagnosticCode) (identity : String)
    (detail : Datum) : List TrajectoryDiagnostic :=
  if p then [] else [⟨code, identity, detail⟩]

variable {code : DiagnosticCode} {id : String} {eventGraph : CausalEventGraph}

@[simp] theorem rejectUnless_eq_nil {p : Prop} [Decidable p] {identity : String} {detail : Datum} :
    rejectUnless p code identity detail = [] ↔ p := by
  unfold rejectUnless
  by_cases h : p <;> simp [h]

def checkEvent (index : List CausalEvent) (p : CausalEvent → Prop) [DecidablePred p]
    (code : DiagnosticCode) (detail : CausalEvent → Datum) (id : String) :
    List TrajectoryDiagnostic :=
  match eventAt index id with
  | none => []
  | some event => rejectUnless (p event) code id (detail event)

variable {index : List CausalEvent}

theorem checkEvent_eq_nil {p : CausalEvent → Prop} [DecidablePred p]
    {detail : CausalEvent → Datum} :
    checkEvent index p code detail id = [] ↔ ∀ event, eventAt index id = some event → p event := by
  unfold checkEvent
  cases eventAt index id <;> simp

/-- `causal-event-parent?`, of the event under an id. -/
def HasParent (index : List CausalEvent) (parent id : String) : Prop :=
  Given (fun event => parent ∈ event.causalParentIdentities) (eventAt index id)

instance (index : List CausalEvent) (parent id : String) : Decidable (HasParent index parent id) :=
  inferInstanceAs (Decidable (Given _ _))

def checkChain (index : List CausalEvent) (code : DiagnosticCode) :
    String → List String → List TrajectoryDiagnostic
  | _, [] => []
  | previous, id :: ids =>
    rejectUnless (HasParent index previous id) code id (.text previous) ++
      checkChain index code id ids

theorem checkChain_eq_nil {previous : String} {ids : List String} :
    checkChain index code previous ids = [] ↔ (previous :: ids).IsChain (HasParent index) := by
  induction ids generalizing previous with
  | nil => simp [checkChain]
  | cons id ids ih =>
    rw [checkChain, append_eq_nil_iff, rejectUnless_eq_nil, ih, isChain_cons_cons]

def checkErrorPath (index : List CausalEvent) (branchPoints : List String) :
    List String → List TrajectoryDiagnostic
  | [] => []
  | first :: rest =>
    rejectUnless (∃ point ∈ branchPoints, HasParent index point first) .detachedErrorTrajectory
      first (.texts branchPoints) ++ checkChain index .brokenErrorTrajectory first rest

def causalEventAdjacency (eventGraph : CausalEventGraph) : String → List String :=
  collect (eventGraph.events.flatMap fun event =>
    event.causalParentIdentities.map fun parent => (parent, event.identity))

theorem mem_causalEventAdjacency {parent child : String} :
    child ∈ causalEventAdjacency eventGraph parent ↔ ParentOf eventGraph.events parent child := by
  rw [causalEventAdjacency, mem_collect, mem_flatMap]
  constructor
  · rintro ⟨event, hevent, hmem⟩
    obtain ⟨_, hparent, hpair⟩ := mem_map.1 hmem
    obtain ⟨rfl, rfl⟩ := Prod.mk.inj hpair
    exact ⟨event, hevent, rfl, hparent⟩
  · rintro ⟨event, hevent, rfl, hparent⟩
    exact ⟨event, hevent, mem_map.2 ⟨parent, hparent, rfl⟩⟩

def childRoads (eventGraph : CausalEventGraph) : Roads String Unit where
  nodes := eventGraph.events.map CausalEvent.identity
  next := fun parent => (causalEventAdjacency eventGraph parent).map fun child => (child, ())
  closed := by
    intro parent child _ hnext
    obtain ⟨_, hchild, hpair⟩ := mem_map.1 hnext
    obtain ⟨rfl, _⟩ := Prod.mk.inj hpair
    obtain ⟨event, hevent, hidentity, _⟩ := mem_causalEventAdjacency.1 hchild
    exact mem_map.2 ⟨event, hevent, hidentity⟩

/-- `causal-descendant-index`: the ids that are marked in a search from some roots. -/
def causalDescendantIndex (eventGraph : CausalEventGraph) (roots : List String) : List String :=
  ((childRoads eventGraph).exploreFrom roots).map Route.target

/-- **The search marks the roots and their descendants.** -/
theorem mem_causalDescendantIndex {roots : List String} :
    id ∈ causalDescendantIndex eventGraph roots ↔
      ∃ root ∈ roots, ReflTransGen (ParentOf eventGraph.events) root id := by
  have hleads : (childRoads eventGraph).Leads = ParentOf eventGraph.events := by
    funext parent child
    refine propext ⟨?_, fun h => ⟨(), ?_⟩⟩
    · rintro ⟨_, hnext⟩
      obtain ⟨_, hchild, hpair⟩ := mem_map.1 hnext
      obtain ⟨rfl, _⟩ := Prod.mk.inj hpair
      exact mem_causalEventAdjacency.1 hchild
    · exact mem_map.2 ⟨child, mem_causalEventAdjacency.2 h, rfl⟩
  rw [causalDescendantIndex, Roads.mem_exploreFrom, hleads]

theorem mem_causalDescendantIndex_of_not_root {roots : List String} (h : id ∉ roots) :
    id ∈ causalDescendantIndex eventGraph roots ↔
      ∃ root ∈ roots, TransGen (ParentOf eventGraph.events) root id := by
  rw [mem_causalDescendantIndex]
  constructor
  · rintro ⟨root, hroot, hpath⟩
    apply (Relation.reflTransGen_iff_eq_or_transGen.1 hpath).elim
    · rintro rfl
      exact absurd hroot h
    · exact fun hpath => ⟨root, hroot, hpath⟩
  · rintro ⟨root, hroot, hpath⟩
    exact ⟨root, hroot, hpath.to_reflTransGen⟩

section

variable (contract : TrajectoryContract) (eventGraph : CausalEventGraph)

def standing (event : CausalEvent) : Datum :=
  .list [.symbol event.modality.symbol, .boolean event.committed]

def memberDiagnostics : List TrajectoryDiagnostic :=
  let index := eventGraph.eventIndex
  rejectUnless eventGraph.Complete .incompleteEventGraph eventGraph.identity
      (.list (eventGraph.missingParentIdentities.map .text ++
        eventGraph.temporalOrderViolations.map fun violation =>
          .texts [violation.1, violation.2])) ++
    (contract.allIds.flatMap fun id =>
      rejectUnless ((eventAt index id).isSome = true) .missingTrajectoryEvent id
        (.symbol "event-graph")) ++
    checkEvent index (fun event => event.modality = .observed ∧ event.committed = true)
      .invalidTriggerModality standing contract.triggerEventId ++
    contract.intendedEventIds.flatMap (checkEvent index
      (fun event => event.modality ∈ [.observed, .declared, .derived])
      .invalidIntendedModality fun event => .symbol event.modality.symbol) ++
    contract.errorIds.flatMap (checkEvent index
      (fun event => event.modality = .counterfactual ∧ event.committed = false)
      .invalidErrorModality standing) ++
    (contract.intendedImpactEventIds ++ contract.errorImpactEventIds).flatMap (checkEvent index
      (fun event => event.modality = .hypothesized ∧ event.committed = false)
      .invalidImpactModality standing)

def topologyDiagnostics : List TrajectoryDiagnostic :=
  let index := eventGraph.eventIndex
  let branchPoints := contract.triggerEventId :: contract.intendedEventIds
  checkChain index .brokenIntendedTrajectory contract.triggerEventId contract.intendedEventIds ++
    contract.errorEventPaths.flatMap (checkErrorPath index branchPoints) ++
    (contract.intendedImpactEventIds.flatMap fun id =>
      rejectUnless (id ∈ causalDescendantIndex eventGraph contract.intendedEventIds)
        .detachedIntendedImpact id (.texts contract.intendedEventIds)) ++
    contract.errorImpactEventIds.flatMap fun id =>
      rejectUnless (id ∈ causalDescendantIndex eventGraph contract.errorIds)
        .detachedErrorImpact id (.texts contract.errorIds)

/-- `diagnostics`: the topology is checked when every declared member resolves. -/
def trajectoryDiagnostics : List TrajectoryDiagnostic :=
  memberDiagnostics contract eventGraph ++
    if ∀ id ∈ contract.allIds, (eventAt eventGraph.eventIndex id).isSome = true then
      topologyDiagnostics contract eventGraph
    else []

def causalTrajectoryAssess : Except Condition TrajectoryAssessment := do
  guardElse contract.Shape (raise "invalid causal trajectory contract" [contract.identity])
  guardElse eventGraph.Shape
    (raise "causal trajectory requires a causal event graph" [eventGraph.identity])
  let diagnostics := trajectoryDiagnostics contract eventGraph
  let status := if diagnostics.isEmpty then .causalTrajectoryAdmitted else .causalTrajectoryRejected
  let assessment : TrajectoryAssessment :=
    ⟨status, decide (status = .causalTrajectoryAdmitted), contract.identity, eventGraph.identity,
      diagnostics, contract.intendedEventIds, contract.errorEventPaths,
      contract.intendedImpactEventIds, contract.errorImpactEventIds⟩
  guardElse assessment.Shape .invalid
  return assessment

def Named (id : String) (p : CausalEvent → Prop) : Prop :=
  Given p (eventAt eventGraph.eventIndex id)

instance (id : String) (p : CausalEvent → Prop) [DecidablePred p] :
    Decidable (Named eventGraph id p) :=
  inferInstanceAs (Decidable (Given _ _))

/-- A contract holds in a graph: the graph is complete and has the named events as the
contract asks for them, the events of each path follow one another, and the impacts
descend from the events that they are impacts of. -/
structure Conforms : Prop where
  complete : eventGraph.Complete
  trigger : Named eventGraph contract.triggerEventId fun event =>
    event.modality = .observed ∧ event.committed = true
  intended : ∀ id ∈ contract.intendedEventIds, Named eventGraph id fun event =>
    event.modality ∈ [.observed, .declared, .derived]
  errors : ∀ path ∈ contract.errorEventPaths, ∀ id ∈ path, Named eventGraph id fun event =>
    event.modality = .counterfactual ∧ event.committed = false
  impacts : ∀ id ∈ contract.intendedImpactEventIds ++ contract.errorImpactEventIds,
    Named eventGraph id fun event => event.modality = .hypothesized ∧ event.committed = false
  intendedChain : (contract.triggerEventId :: contract.intendedEventIds).IsChain
    (HasParent eventGraph.eventIndex)
  errorChains : ∀ path ∈ contract.errorEventPaths, path.IsChain (HasParent eventGraph.eventIndex)
  errorBranches : ∀ path ∈ contract.errorEventPaths, ∃ first, path.head? = some first ∧
    ∃ point ∈ contract.triggerEventId :: contract.intendedEventIds,
      HasParent eventGraph.eventIndex point first
  intendedImpacts : ∀ id ∈ contract.intendedImpactEventIds, ∃ root ∈ contract.intendedEventIds,
    Relation.TransGen (ParentOf eventGraph.events) root id
  errorImpacts : ∀ id ∈ contract.errorImpactEventIds, ∃ path ∈ contract.errorEventPaths,
    ∃ root ∈ path, Relation.TransGen (ParentOf eventGraph.events) root id

end

section

variable {contract : TrajectoryContract} {eventGraph : CausalEventGraph}

theorem mem_errorIds {id : String} :
    id ∈ contract.errorIds ↔ ∃ path ∈ contract.errorEventPaths, id ∈ path := mem_flatten

theorem named_iff {id : String} {p : CausalEvent → Prop} :
    Named eventGraph id p ↔ (eventAt eventGraph.eventIndex id).isSome = true ∧
      ∀ event, eventAt eventGraph.eventIndex id = some event → p event := by
  rw [Named, Given]
  cases eventAt eventGraph.eventIndex id <;> simp

theorem forall_mem_allIds {p : String → Prop} :
    (∀ id ∈ contract.allIds, p id) ↔ p contract.triggerEventId ∧
      (∀ id ∈ contract.intendedEventIds, p id) ∧
      (∀ path ∈ contract.errorEventPaths, ∀ id ∈ path, p id) ∧
      ∀ id ∈ contract.intendedImpactEventIds ++ contract.errorImpactEventIds, p id := by
  rw [TrajectoryContract.allIds, forall_mem_cons]
  simp only [forall_mem_append, mem_errorIds, forall_exists_index, and_imp, and_assoc]
  refine and_congr_right fun _ => and_congr_right fun _ => and_congr_left fun _ => ?_
  exact ⟨fun h path hpath id hid => h id path hpath hid, fun h id path hpath hid => h path hpath id hid⟩

/-- **Without member diagnostics** the graph is complete and every named event is in it
as the contract asks for it. -/
theorem memberDiagnostics_eq_nil : memberDiagnostics contract eventGraph = [] ↔
    eventGraph.Complete ∧
    Named eventGraph contract.triggerEventId
      (fun event => event.modality = .observed ∧ event.committed = true) ∧
    (∀ id ∈ contract.intendedEventIds, Named eventGraph id
      fun event => event.modality ∈ [.observed, .declared, .derived]) ∧
    (∀ path ∈ contract.errorEventPaths, ∀ id ∈ path, Named eventGraph id
      fun event => event.modality = .counterfactual ∧ event.committed = false) ∧
    ∀ id ∈ contract.intendedImpactEventIds ++ contract.errorImpactEventIds,
      Named eventGraph id fun event => event.modality = .hypothesized ∧ event.committed = false := by
  rw [memberDiagnostics]
  simp only [append_eq_nil_iff, rejectUnless_eq_nil, flatMap_eq_nil_iff, checkEvent_eq_nil]
  rw [forall_mem_allIds]
  simp only [named_iff, mem_errorIds, forall_exists_index, and_imp]
  constructor
  · rintro ⟨⟨⟨⟨⟨hcomplete, hpresent, hintended, herrors, himpacts⟩, ht⟩, hi⟩, he⟩, hm⟩
    exact ⟨hcomplete, ⟨hpresent, ht⟩, fun id hid => ⟨hintended id hid, hi id hid⟩,
      fun path hpath id hid => ⟨herrors path hpath id hid, he id path hpath hid⟩,
      fun id hid => ⟨himpacts id hid, hm id hid⟩⟩
  · rintro ⟨hcomplete, ⟨hpresent, ht⟩, hi, he, hm⟩
    exact ⟨⟨⟨⟨⟨hcomplete, hpresent, fun id hid => (hi id hid).1,
      fun path hpath id hid => (he path hpath id hid).1, fun id hid => (hm id hid).1⟩, ht⟩,
      fun id hid => (hi id hid).2⟩, fun id path hpath hid => (he path hpath id hid).2⟩,
      fun id hid => (hm id hid).2⟩

theorem checkErrorPath_eq_nil {branchPoints path : List String} (hpath : path ≠ []) :
    checkErrorPath index branchPoints path = [] ↔ path.IsChain (HasParent index) ∧
      ∃ first, path.head? = some first ∧ ∃ point ∈ branchPoints, HasParent index point first := by
  cases path with
  | nil => exact absurd rfl hpath
  | cons first rest =>
    rw [checkErrorPath, append_eq_nil_iff, rejectUnless_eq_nil, checkChain_eq_nil, and_comm,
      List.head?_cons]
    simp only [Option.some.injEq, exists_eq_left']

theorem TrajectoryContract.Shape.impact_not_root (h : contract.Shape) :
    (∀ id ∈ contract.intendedImpactEventIds, id ∉ contract.intendedEventIds) ∧
      ∀ id ∈ contract.errorImpactEventIds, id ∉ contract.errorIds := by
  obtain ⟨_, _, _, _, _, _, _, _, _, hdistinct⟩ := h
  have hparts := (nodup_cons.1 hdistinct).2
  rw [nodup_append, nodup_append] at hparts
  obtain ⟨⟨_, _, hintended⟩, _, herrors⟩ := hparts
  constructor
  · intro id hid hroot
    exact hintended id (mem_append_left _ hroot) id hid rfl
  · intro id hid hroot
    exact herrors id (mem_append_left _ (mem_append_right _ hroot)) id hid rfl

/-- **Without topology diagnostics** the paths are chains and the impacts descend from
them. -/
theorem topologyDiagnostics_eq_nil (h : contract.Shape) :
    topologyDiagnostics contract eventGraph = [] ↔
    (contract.triggerEventId :: contract.intendedEventIds).IsChain
      (HasParent eventGraph.eventIndex) ∧
    (∀ path ∈ contract.errorEventPaths, path.IsChain (HasParent eventGraph.eventIndex) ∧
      ∃ first, path.head? = some first ∧
        ∃ point ∈ contract.triggerEventId :: contract.intendedEventIds,
          HasParent eventGraph.eventIndex point first) ∧
    (∀ id ∈ contract.intendedImpactEventIds, ∃ root ∈ contract.intendedEventIds,
      TransGen (ParentOf eventGraph.events) root id) ∧
    ∀ id ∈ contract.errorImpactEventIds, ∃ path ∈ contract.errorEventPaths,
      ∃ root ∈ path, TransGen (ParentOf eventGraph.events) root id := by
  obtain ⟨hintended, herrors⟩ := h.impact_not_root
  have hpaths : ∀ path ∈ contract.errorEventPaths, path ≠ [] :=
    fun path hpath => (h.2.2.2.2.2.1 path hpath).1
  have hroots : ∀ id, (∃ root ∈ contract.errorIds,
      TransGen (ParentOf eventGraph.events) root id) ↔
        ∃ path ∈ contract.errorEventPaths, ∃ root ∈ path,
          TransGen (ParentOf eventGraph.events) root id := by
    intro id
    simp only [mem_errorIds]
    constructor
    · rintro ⟨root, ⟨path, hpath, hroot⟩, hbelow⟩
      exact ⟨path, hpath, root, hroot, hbelow⟩
    · rintro ⟨path, hpath, root, hroot, hbelow⟩
      exact ⟨root, ⟨path, hpath, hroot⟩, hbelow⟩
  rw [topologyDiagnostics]
  simp only [append_eq_nil_iff, rejectUnless_eq_nil, flatMap_eq_nil_iff,
    checkChain_eq_nil, and_assoc]
  refine and_congr_right fun _ => and_congr (forall₂_congr fun path hpath => ?_)
    (and_congr (forall₂_congr fun id hid => ?_) (forall₂_congr fun id hid => ?_))
  · exact checkErrorPath_eq_nil (hpaths path hpath)
  · exact mem_causalDescendantIndex_of_not_root (hintended id hid)
  · rw [mem_causalDescendantIndex_of_not_root (herrors id hid), hroots]

theorem allIds_present (h : memberDiagnostics contract eventGraph = []) :
    ∀ id ∈ contract.allIds, (eventAt eventGraph.eventIndex id).isSome = true := by
  obtain ⟨_, htrigger, hintended, herrors, himpacts⟩ := memberDiagnostics_eq_nil.1 h
  rw [forall_mem_allIds]
  exact ⟨(named_iff.1 htrigger).1, fun id hid => (named_iff.1 (hintended id hid)).1,
    fun path hpath id hid => (named_iff.1 (herrors path hpath id hid)).1,
    fun id hid => (named_iff.1 (himpacts id hid)).1⟩

theorem trajectoryDiagnostics_eq_nil (h : contract.Shape) :
    trajectoryDiagnostics contract eventGraph = [] ↔ Conforms contract eventGraph := by
  rw [trajectoryDiagnostics, append_eq_nil_iff]
  constructor
  · rintro ⟨hmembers, htopology⟩
    rw [if_pos (allIds_present hmembers), topologyDiagnostics_eq_nil h] at htopology
    obtain ⟨hcomplete, htrigger, hintended, herrors, himpacts⟩ :=
      memberDiagnostics_eq_nil.1 hmembers
    obtain ⟨hchain, hpaths, hintendedImpacts, herrorImpacts⟩ := htopology
    exact ⟨hcomplete, htrigger, hintended, herrors, himpacts, hchain,
      fun path hpath => (hpaths path hpath).1, fun path hpath => (hpaths path hpath).2,
      hintendedImpacts, herrorImpacts⟩
  · intro hconforms
    have hmembers : memberDiagnostics contract eventGraph = [] :=
      memberDiagnostics_eq_nil.2 ⟨hconforms.complete, hconforms.trigger, hconforms.intended,
        hconforms.errors, hconforms.impacts⟩
    refine ⟨hmembers, ?_⟩
    rw [if_pos (allIds_present hmembers), topologyDiagnostics_eq_nil h]
    exact ⟨hconforms.intendedChain, fun path hpath =>
      ⟨hconforms.errorChains path hpath, hconforms.errorBranches path hpath⟩,
      hconforms.intendedImpacts, hconforms.errorImpacts⟩

end

/-- **Trajectory admission is exact.** -/
theorem trajectory_admission_exact (contract : TrajectoryContract) (eventGraph : CausalEventGraph) :
    ((∃ assessment, causalTrajectoryAssess contract eventGraph = .ok assessment) ↔
      contract.Shape ∧ eventGraph.Shape) ∧
    ∀ assessment, causalTrajectoryAssess contract eventGraph = .ok assessment →
      (assessment.status = .causalTrajectoryAdmitted ↔ Conforms contract eventGraph) := by
  refine ⟨⟨?_, ?_⟩, ?_⟩
  · rintro ⟨assessment, h⟩
    rw [causalTrajectoryAssess] at h
    simp only [bind_eq_ok, guardElse_eq_ok, exists_const] at h
    exact ⟨h.1, h.2.1⟩
  · rintro ⟨hcontract, hgraph⟩
    rw [causalTrajectoryAssess, guardElse_of hcontract, ok_bind, guardElse_of hgraph, ok_bind]
    exact exists_bind_ok (guardElse_of ⟨rfl, hcontract.1, hgraph.1⟩) ⟨_, rfl⟩
  · intro assessment h
    rw [causalTrajectoryAssess] at h
    simp only [bind_eq_ok, guardElse_eq_ok, exists_const] at h
    obtain ⟨hcontract, _, _, hassessment⟩ := h
    obtain rfl := Except.ok.inj hassessment
    rw [← trajectoryDiagnostics_eq_nil hcontract, ← List.isEmpty_iff]
    show (if (trajectoryDiagnostics contract eventGraph).isEmpty = true then _ else _) = _ ↔ _
    by_cases hempty : (trajectoryDiagnostics contract eventGraph).isEmpty = true
    · simp [hempty]
    · simp [hempty]

def orderEvent (identity : String) (parents : List String) (modality : Modality)
    (committed : Bool) : CausalEvent where
  identity := identity
  subject := "order"
  eventKind := "step"
  observation := ⟨identity, .logicalVersion, 1, "ledger"⟩
  payloadIdentity := "payload"
  causalParentIdentities := parents
  modality := modality
  committed := committed

def orderEvents : List CausalEvent :=
  [orderEvent "placed" [] .observed true, orderEvent "shipped" ["placed"] .declared true,
    orderEvent "lost" ["shipped"] .counterfactual false,
    orderEvent "delivered" ["shipped"] .hypothesized false,
    orderEvent "refunded" ["lost"] .hypothesized false]

def orderContract : TrajectoryContract :=
  ⟨"order", "placed", ["shipped"], [["lost"]], ["delivered"], ["refunded"]⟩

theorem order_admitted : ∃ graph assessment,
    causalEventGraph checksum writeDatum "order" orderEvents = .ok graph ∧
      causalTrajectoryAssess orderContract graph = .ok assessment ∧
      assessment.status = .causalTrajectoryAdmitted := by
  obtain ⟨graph, hgraph, hshape, hcomplete, htrigger, hshipped, hlost, himpacts, hchain, hbranch,
      hdelivered, hrefunded⟩ : ∃ graph,
      causalEventGraph checksum writeDatum "order" orderEvents = .ok graph ∧
        graph.Shape ∧ graph.Complete ∧
        Named graph "placed" (fun event => event.modality = .observed ∧ event.committed = true) ∧
        Named graph "shipped" (fun event => event.modality ∈ [.observed, .declared, .derived]) ∧
        Named graph "lost" (fun event => event.modality = .counterfactual ∧
          event.committed = false) ∧
        (∀ id ∈ ["delivered", "refunded"], Named graph id fun event =>
          event.modality = .hypothesized ∧ event.committed = false) ∧
        HasParent graph.eventIndex "placed" "shipped" ∧
        HasParent graph.eventIndex "shipped" "lost" ∧
        ParentOf graph.events "shipped" "delivered" ∧
        ParentOf graph.events "lost" "refunded" := by decide +kernel
  have hconforms : Conforms orderContract graph := by
    refine ⟨hcomplete, htrigger, ?_, ?_, himpacts, ?_, ?_, ?_, ?_, ?_⟩
    · simpa [orderContract] using hshipped
    · simpa [orderContract] using hlost
    · simpa [orderContract] using hchain
    · simp [orderContract]
    · simpa [orderContract] using Or.inr hbranch
    · simpa [orderContract] using Relation.TransGen.single hdelivered
    · simpa [orderContract] using Relation.TransGen.single hrefunded
  obtain ⟨hexists, hexact⟩ := trajectory_admission_exact orderContract graph
  obtain ⟨assessment, h⟩ := hexists.2 ⟨by decide +kernel, hshape⟩
  exact ⟨graph, assessment, hgraph, h, (hexact assessment h).2 hconforms⟩

end PooFlow.Temporal
