import PooFlow.Temporal.Cuts
import PooFlow.Temporal.Impact

namespace PooFlow.Temporal

open Foundation List

inductive Placement where
  | past | current | future | hypothesized | counterfactual | outside
deriving DecidableEq

def Placement.all : List Placement :=
  [.past, .current, .future, .hypothesized, .counterfactual, .outside]

theorem Placement.mem_all (placement : Placement) : placement ∈ Placement.all := by
  cases placement <;> decide

inductive ClassificationStatus where
  | boundedTemporalClassification | partialTemporalClassification | invalidCausalCut

structure ClassificationReceipt where
  status : ClassificationStatus
  eventGraphIdentity : String
  cutIdentity : String
  triggerEventId : String
  asOfPosition : ℕ
  horizon : ℕ
  eventIds : Placement → List String
  unknownFrontier : List String
  relationTrajectories : List (Route String String)
  structuralImpact : StructuralImpact String

def ClassificationReceipt.Shape (value : ClassificationReceipt) : Prop :=
  (∀ text ∈ [value.eventGraphIdentity, value.cutIdentity, value.triggerEventId], Text text) ∧
    value.asOfPosition ≤ value.horizon ∧
    (∀ placement ∈ Placement.all, ∀ id ∈ value.eventIds placement, Text id) ∧
    (∀ id ∈ value.unknownFrontier, Text id) ∧
    (Placement.all.flatMap value.eventIds ++ value.unknownFrontier).Nodup ∧
    value.structuralImpact.Shape

instance : DecidablePred ClassificationReceipt.Shape := fun _ =>
  inferInstanceAs (Decidable (_ ∧ _ ∧ _ ∧ _ ∧ _ ∧ _))

/-- `causal-event-graph->graph`. -/
def relationGraph (eventGraph : CausalEventGraph) : RelationGraph String where
  graphId := .list [.symbol "causal-event-graph", .text eventGraph.identity]
  nodes := eventGraph.events.map CausalEvent.identity
  edges := eventGraph.events.flatMap fun event =>
    event.causalParentIdentities.map fun parent => ⟨parent, event.identity, "CAUSAL_PARENT"⟩

def orderedUnion (left right : List String) : List String := deleteDuplicates (left ++ right)

def placeEvent (asOfPosition horizon : ℕ) (event : CausalEvent) : Placement :=
  if event.modality = .counterfactual then .counterfactual
  else if event.modality = .hypothesized then .hypothesized
  else if event.position < asOfPosition then .past
  else if event.position = asOfPosition then .current
  else if event.position ≤ horizon then .future
  else .outside

def placedIds (eventGraph : CausalEventGraph) (asOfPosition horizon : ℕ) (affected : List String)
    (placement : Placement) : List String :=
  (eventGraph.events.filter fun event =>
    event.identity ∈ affected ∧ placeEvent asOfPosition horizon event = placement).map
      CausalEvent.identity

def temporalCausalClassify (eventGraph : CausalEventGraph) (cut : CausalCut)
    (triggerEventId : String) (horizon : ℕ) : Except Condition ClassificationReceipt := do
  guardElse eventGraph.Shape
    (raise "temporal classification requires a causal event graph" [eventGraph.identity])
  guardElse cut.Shape (raise "temporal classification requires a causal cut" [cut.identity])
  guardElse (cut.eventGraphIdentity = eventGraph.identity)
    (raise "causal cut belongs to another event graph" [cut.identity])
  guardElse (cut.asOfPosition ≤ horizon)
    (raise "invalid temporal classification horizon" [toString cut.asOfPosition, toString horizon])
  guardElse ((eventAt cut.eventIndex triggerEventId).isSome = true)
    (raise "trigger event is absent from causal cut" [triggerEventId])
  -- what the trigger may have caused, along the edges to the children
  let structural ← structuralImpactAnalyze (relationGraph eventGraph) ["CAUSAL_PARENT"]
    [triggerEventId] .dependencies (decide eventGraph.Complete)
  let status :=
    -- a violated order outranks a missing parent
    if eventGraph.temporalOrderViolations ≠ [] ∨ cut.temporalOrderViolations ≠ [] then
      .invalidCausalCut
    else if eventGraph.missingParentIdentities ≠ [] ∨ cut.missingParentIdentities ≠ [] then
      .partialTemporalClassification
    else .boundedTemporalClassification
  let receipt : ClassificationReceipt :=
    { status := status
      eventGraphIdentity := eventGraph.identity
      cutIdentity := cut.identity
      triggerEventId := triggerEventId
      asOfPosition := cut.asOfPosition
      horizon := horizon
      eventIds := placedIds eventGraph cut.asOfPosition horizon structural.affectedNodeIds
      unknownFrontier := orderedUnion cut.missingParentIdentities eventGraph.missingParentIdentities
      relationTrajectories := structural.relationTrajectories
      structuralImpact := structural }
  guardElse receipt.Shape .invalid
  return receipt

abbrev Reached (eventGraph : CausalEventGraph) : String → String → Prop :=
  Relation.ReflTransGen (ParentOf eventGraph.events)

variable {eventGraph : CausalEventGraph} {id : String}

theorem leads_iff_parentOf {parent child : String} :
    (roads (relationGraph eventGraph) ["CAUSAL_PARENT"] .dependencies).Leads parent child ↔
      parent ∈ eventGraph.events.map CausalEvent.identity ∧
        ParentOf eventGraph.events parent child := by
  simp only [Roads.Leads, roads, mem_adjacency, resolvedEdges, mem_filter, relationGraph,
    mem_flatMap, mem_map, decide_eq_true_eq, RelationEdge.oriented, ParentOf]
  constructor
  · rintro ⟨_, _, ⟨⟨event, hevent, source, hparent, rfl⟩, _, hsource, _⟩, horiented⟩
    obtain ⟨rfl, rfl, _⟩ := by simpa using horiented
    exact ⟨hsource, event, hevent, rfl, hparent⟩
  · rintro ⟨hsource, event, hevent, rfl, hparent⟩
    exact ⟨"CAUSAL_PARENT", ⟨parent, event.identity, "CAUSAL_PARENT"⟩,
      ⟨⟨event, hevent, parent, hparent, rfl⟩, by simp, hsource, event, hevent, rfl⟩, rfl⟩

theorem Reached.mem {trigger : String} (h : Reached eventGraph trigger id)
    (htrigger : trigger ∈ eventGraph.events.map CausalEvent.identity) :
    id ∈ eventGraph.events.map CausalEvent.identity := by
  rcases h.cases_tail with rfl | ⟨_, _, event, hevent, hidentity, _⟩
  · exact htrigger
  · exact mem_map.2 ⟨event, hevent, hidentity⟩

theorem reflTransGen_leads_iff {trigger : String}
    (htrigger : trigger ∈ eventGraph.events.map CausalEvent.identity) : Relation.ReflTransGen
        (roads (relationGraph eventGraph) ["CAUSAL_PARENT"] .dependencies).Leads trigger id ↔
      Reached eventGraph trigger id := by
  constructor
  · exact Relation.ReflTransGen.mono (fun _ _ hleads => (leads_iff_parentOf.1 hleads).2) _ _
  · intro hreached
    induction hreached with
    | refl => exact .refl
    | tail hpath hparent ih =>
      exact ih.tail (leads_iff_parentOf.2 ⟨Reached.mem hpath htrigger, hparent⟩)

theorem mem_placedIds {asOfPosition horizon : ℕ} {affected : List String} {placement : Placement} :
    id ∈ placedIds eventGraph asOfPosition horizon affected placement ↔
      ∃ event ∈ eventGraph.events, event.identity = id ∧ id ∈ affected ∧
        placeEvent asOfPosition horizon event = placement := by
  simp only [placedIds, mem_map, mem_filter, decide_eq_true_eq]
  constructor
  · rintro ⟨event, ⟨hevent, haffected, hplace⟩, rfl⟩
    exact ⟨event, hevent, rfl, haffected, hplace⟩
  · rintro ⟨event, hevent, rfl, haffected, hplace⟩
    exact ⟨event, ⟨hevent, haffected, hplace⟩, rfl⟩

theorem nodup_placedIds (hdistinct : (eventGraph.events.map CausalEvent.identity).Nodup)
    (asOfPosition horizon : ℕ) (affected : List String) :
    (Placement.all.flatMap (placedIds eventGraph asOfPosition horizon affected)).Nodup := by
  rw [nodup_flatMap]
  refine ⟨fun placement _ => hdistinct.sublist (filter_sublist.map _), ?_⟩
  refine List.Pairwise.imp ?_ (show Placement.all.Nodup by decide)
  intro placement other hne id hid hother
  obtain ⟨event, hevent, hidentity, _, rfl⟩ := mem_placedIds.1 hid
  obtain ⟨event', hevent', hidentity', _, rfl⟩ := mem_placedIds.1 hother
  obtain rfl := inj_on_of_nodup_map hdistinct hevent hevent' (hidentity.trans hidentity'.symm)
  exact hne rfl

def ReachedOutside (eventGraph : CausalEventGraph) (cut : CausalCut) (trigger : String) : Prop :=
  ∃ event ∈ eventGraph.events, Reached eventGraph trigger event.identity ∧ event ∉ cut.events ∧
    ∃ child ∈ cut.events, event.identity ∈ child.causalParentIdentities

structure Classifies (eventGraph : CausalEventGraph) (trigger : String)
    (receipt : ClassificationReceipt) : Prop where
  shape : receipt.Shape
  placed : ∀ event ∈ eventGraph.events, Reached eventGraph trigger event.identity →
    ∃! placement, event.identity ∈ receipt.eventIds placement
  reached : ∀ placement, ∀ id ∈ receipt.eventIds placement,
    id ∈ eventGraph.events.map CausalEvent.identity ∧ Reached eventGraph trigger id
  frontier : ∀ id ∈ receipt.unknownFrontier, ∀ placement, id ∉ receipt.eventIds placement

section

variable {sha256 : Bytes → Digest} {write : Datum → String} {subject : String}
  {events : List CausalEvent} {eventGraph : CausalEventGraph} {asOfPosition horizon : ℕ}
  {cut : CausalCut} {trigger : String}

section

variable (hgraph : causalEventGraph sha256 write subject events = .ok eventGraph)
  (hcut : causalCut sha256 write eventGraph asOfPosition = .ok cut)
  (htrigger : trigger ∈ cut.events.map CausalEvent.identity) (hhorizon : asOfPosition ≤ horizon)

include hgraph hcut htrigger hhorizon

/-- **The guards pass**, and only the shape of the receipt is left to check. -/
theorem temporalCausalClassify_eq : ∃ receipt : ClassificationReceipt,
      (temporalCausalClassify eventGraph cut trigger horizon = do
        guardElse receipt.Shape .invalid
        return receipt) ∧
      (receipt.Shape ↔
        (Placement.all.flatMap receipt.eventIds ++ receipt.unknownFrontier).Nodup) ∧
      (∀ placement id, id ∈ receipt.eventIds placement ↔ ∃ event ∈ eventGraph.events,
        event.identity = id ∧ Reached eventGraph trigger id ∧
          placeEvent asOfPosition horizon event = placement) ∧
      (Placement.all.flatMap receipt.eventIds).Nodup ∧
      receipt.unknownFrontier =
        orderedUnion cut.missingParentIdentities eventGraph.missingParentIdentities := by
  obtain ⟨_, _, hgraphShape, _, _, _, _, _⟩ := causalEventGraph_ok hgraph
  obtain ⟨analysis, hanalyzes, hcutShape, hevents, hindex, _, hidentity, hasOf⟩ := causalCut_ok hcut
  have hdistinct := hgraphShape.2.2.2.2.2.1
  obtain ⟨found, hfound, rfl⟩ := mem_map.1 htrigger
  rw [hevents, (perm_committedEvents hanalyzes).mem_iff] at hfound
  have hlisted : (eventAt cut.eventIndex found.identity).isSome = true := by
    rw [hindex, hanalyzes.index]
    exact List.find?_isSome.2 ⟨found, mem_reverse.2 hfound, by simp⟩
  have hpresent : found.identity ∈ eventGraph.events.map CausalEvent.identity :=
    mem_map.2 ⟨found, (mem_filter.1 hfound).1, rfl⟩
  obtain ⟨structural, hstructural, himpact, haffected, htrajectories⟩ :=
    structuralImpactAnalyze_ok (relationGraph eventGraph) ["CAUSAL_PARENT"] [found.identity]
      .dependencies (decide eventGraph.Complete) hdistinct (by simp) (by simp) (by simp)
      (fun changed hmem => mem_singleton.1 hmem ▸ hpresent)
  have hplaced : ∀ placement id,
      id ∈ placedIds eventGraph cut.asOfPosition horizon structural.affectedNodeIds placement ↔
        ∃ event ∈ eventGraph.events, event.identity = id ∧
          Reached eventGraph found.identity id ∧
            placeEvent asOfPosition horizon event = placement := by
    intro placement id
    have hreached : id ∈ structural.affectedNodeIds ↔ Reached eventGraph found.identity id := by
      rw [haffected, htrajectories, mem_affectedNodes]
      simp only [mem_singleton, exists_eq_left]
      exact reflTransGen_leads_iff hpresent
    rw [mem_placedIds, hasOf]
    simp only [hreached]
  rw [temporalCausalClassify, guardElse_of hgraphShape, ok_bind, guardElse_of hcutShape, ok_bind,
    guardElse_of hidentity, ok_bind, guardElse_of (hasOf.le.trans hhorizon), ok_bind,
    guardElse_of hlisted, ok_bind, hstructural, ok_bind]
  refine ⟨_, rfl, ?_, hplaced, nodup_placedIds hdistinct _ _ _, rfl⟩
  constructor
  · exact fun hshape => hshape.2.2.2.2.1
  · intro hnodup
    refine ⟨?_, hasOf.le.trans hhorizon, ?_, ?_, hnodup, himpact⟩
    · simp only [forall_mem_cons, not_mem_nil, false_imp_iff, implies_true, and_true]
      exact ⟨hgraphShape.1, hcutShape.1.1, (hgraphShape.2.2.2.1 found (mem_filter.1 hfound).1).1⟩
    · intro placement _ id hid
      obtain ⟨event, hevent, rfl, _⟩ := (hplaced placement id).1 hid
      exact (hgraphShape.2.2.2.1 event hevent).1
    · intro id hid
      rw [orderedUnion, mem_deleteDuplicates, mem_append] at hid
      rcases hid with hid | hid
      · exact hcutShape.1.2.2.2.2.2.2.2.1 id hid
      · exact hgraphShape.2.2.2.2.2.2.2.1 id hid

/-- The receipt is well formed unless the cut misses a reached event. -/
theorem temporalCausalClassify_shape : ∃ receipt : ClassificationReceipt,
      (temporalCausalClassify eventGraph cut trigger horizon = do
        guardElse receipt.Shape .invalid
        return receipt) ∧
      (receipt.Shape ↔ ¬ReachedOutside eventGraph cut trigger) ∧
      (receipt.Shape → Classifies eventGraph trigger receipt) := by
  obtain ⟨receipt, hrun, hshape, hplaced, hbuckets, hfrontier⟩ :=
    temporalCausalClassify_eq hgraph hcut htrigger hhorizon
  obtain ⟨analysis, hanalyzes, hgraphShape, _, hevents, _, hmissing, _⟩ := causalEventGraph_ok hgraph
  obtain ⟨cutAnalysis, hcutAnalyzes, _, hcutEvents, _⟩ := causalCut_ok hcut
  have hsubset : ∀ event ∈ cut.events, event ∈ eventGraph.events := by
    intro event hevent
    rw [hcutEvents, (perm_committedEvents hcutAnalyzes).mem_iff] at hevent
    exact (mem_filter.1 hevent).1
  have hsame : ∀ event ∈ eventGraph.events, ∀ other ∈ eventGraph.events,
      event.identity = other.identity → event = other := fun event hevent other hother =>
    inj_on_of_nodup_map hgraphShape.2.2.2.2.2.1 hevent hother
  have hunknown : ∀ id, id ∈ receipt.unknownFrontier ↔
      id ∈ cut.missingParentIdentities ∨ id ∈ eventGraph.missingParentIdentities := by
    intro id
    rw [hfrontier, orderedUnion, mem_deleteDuplicates, mem_append]
  -- an identity is in a bucket and in the frontier when the cut misses a reached event
  have hclash : ReachedOutside eventGraph cut trigger ↔
      ∃ id ∈ receipt.unknownFrontier, ∃ placement, id ∈ receipt.eventIds placement := by
    constructor
    · rintro ⟨event, hevent, hreached, houtside, hparent⟩
      refine ⟨event.identity, (hunknown _).2 (.inl ?_), _,
        (hplaced _ _).2 ⟨event, hevent, rfl, hreached, rfl⟩⟩
      refine (mem_cut_missing hcut).2 ⟨hparent, fun other hother hidentity => houtside ?_⟩
      rwa [← hsame other (hsubset other hother) event hevent hidentity]
    · rintro ⟨id, hid, placement, hplace⟩
      obtain ⟨event, hevent, rfl, hreached, _⟩ := (hplaced placement id).1 hplace
      rcases (hunknown _).1 hid with hid | hid
      · obtain ⟨hparent, hnone⟩ := (mem_cut_missing hcut).1 hid
        exact ⟨event, hevent, hreached, fun hmem => hnone event hmem rfl, hparent⟩
      · rw [hmissing, hanalyzes.missing] at hid
        rw [hevents, hanalyzes.ordered, (perm_sortEvents _).mem_iff] at hevent
        exact absurd rfl (hid.2 event hevent)
  have hnodup : receipt.Shape ↔ ¬ReachedOutside eventGraph cut trigger := by
    rw [hshape, hclash, nodup_append, and_iff_right hbuckets,
      and_iff_right (hfrontier ▸ nodup_deleteDuplicates _)]
    constructor
    · rintro hdisjoint ⟨id, hid, placement, hplace⟩
      exact hdisjoint id (mem_flatMap.2 ⟨placement, placement.mem_all, hplace⟩) id hid rfl
    · rintro hnone id hid _ hunknown rfl
      obtain ⟨placement, _, hplace⟩ := mem_flatMap.1 hid
      exact hnone ⟨id, hunknown, placement, hplace⟩
  refine ⟨receipt, hrun, hnodup, fun hvalid => ⟨hvalid, ?_, ?_, ?_⟩⟩
  · intro event hevent hreached
    refine ⟨placeEvent asOfPosition horizon event,
      (hplaced _ _).2 ⟨event, hevent, rfl, hreached, rfl⟩, ?_⟩
    intro placement hplace
    obtain ⟨other, hother, hidentity, _, rfl⟩ := (hplaced _ _).1 hplace
    rw [hsame other hother event hevent hidentity]
  · intro placement id hid
    obtain ⟨event, hevent, rfl, hreached, _⟩ := (hplaced placement id).1 hid
    exact ⟨mem_map.2 ⟨event, hevent, rfl⟩, hreached⟩
  · intro id hid placement hplace
    exact hclash.not.1 (hnodup.1 hvalid) ⟨id, hid, placement, hplace⟩

end

/-- **When a classification succeeds.** -/
theorem classifies_iff (hgraph : causalEventGraph sha256 write subject events = .ok eventGraph)
    (hcut : causalCut sha256 write eventGraph asOfPosition = .ok cut)
    (htrigger : trigger ∈ cut.events.map CausalEvent.identity) (hhorizon : asOfPosition ≤ horizon) :
    (∃ receipt, temporalCausalClassify eventGraph cut trigger horizon = .ok receipt ∧
      Classifies eventGraph trigger receipt) ↔ ¬ReachedOutside eventGraph cut trigger := by
  obtain ⟨receipt, hrun, hshape, hclassifies⟩ :=
    temporalCausalClassify_shape hgraph hcut htrigger hhorizon
  rw [← hshape, hrun]
  constructor
  · rintro ⟨other, hok, _⟩
    obtain ⟨_, hvalid, _⟩ := bind_eq_ok.1 hok
    exact guardElse_eq_ok.1 hvalid
  · intro hvalid
    rw [guardElse_of hvalid, ok_bind]
    exact ⟨receipt, rfl, hclassifies hvalid⟩

end

theorem release_classified : ∃ eventGraph cut receipt,
    causalEventGraph checksum writeDatum "release" releaseEvents = .ok eventGraph ∧
    causalCut checksum writeDatum eventGraph 2 = .ok cut ∧
    temporalCausalClassify eventGraph cut "build" 5 = .ok receipt ∧
    Classifies eventGraph "build" receipt := by
  obtain ⟨eventGraph, hgraph, cut, hcut, htrigger, hall⟩ : ∃ eventGraph,
      causalEventGraph checksum writeDatum "release" releaseEvents = .ok eventGraph ∧
        ∃ cut, causalCut checksum writeDatum eventGraph 2 = .ok cut ∧
          "build" ∈ cut.events.map CausalEvent.identity ∧
            ∀ event ∈ eventGraph.events, event ∈ cut.events := by decide +kernel
  obtain ⟨receipt, hreceipt, hclassifies⟩ :=
    (classifies_iff hgraph hcut htrigger
      (show 2 ≤ 5 by decide)).2 fun ⟨event, hevent, _, houtside, _⟩ => houtside (hall event hevent)
  exact ⟨eventGraph, cut, receipt, hgraph, hcut, hreceipt, hclassifies⟩

def admissionEvents : List CausalEvent :=
  [releaseEvent "request" [] 1,
    { releaseEvent "approval" ["request"] 2 with modality := .declared, committed := false },
    releaseEvent "admission" ["approval"] 3]

/-- The approval is reached, and the cut misses it as the parent of the admission. -/
theorem admission_unclassified : ∃ eventGraph cut,
    causalEventGraph checksum writeDatum "release" admissionEvents = .ok eventGraph ∧
    causalCut checksum writeDatum eventGraph 3 = .ok cut ∧
    "request" ∈ cut.events.map CausalEvent.identity ∧
    ∀ receipt, temporalCausalClassify eventGraph cut "request" 5 ≠ .ok receipt := by
  obtain ⟨eventGraph, hgraph, cut, hcut, htrigger, event, hevent, hparent, houtside, hchild⟩ :
      ∃ eventGraph, causalEventGraph checksum writeDatum "release" admissionEvents =
          .ok eventGraph ∧
        ∃ cut, causalCut checksum writeDatum eventGraph 3 = .ok cut ∧
          "request" ∈ cut.events.map CausalEvent.identity ∧
            ∃ event ∈ eventGraph.events, ParentOf eventGraph.events "request" event.identity ∧
              event ∉ cut.events ∧
                ∃ child ∈ cut.events, event.identity ∈ child.causalParentIdentities := by
    decide +kernel
  obtain ⟨receipt, hclassify, hshape, _⟩ :=
    temporalCausalClassify_shape hgraph hcut htrigger (show 3 ≤ 5 by decide)
  refine ⟨eventGraph, cut, hgraph, hcut, htrigger, ?_⟩
  intro other hok
  rw [hclassify] at hok
  obtain ⟨_, hvalid, _⟩ := bind_eq_ok.1 hok
  exact hshape.1 (guardElse_eq_ok.1 hvalid) ⟨event, hevent, .single hparent, houtside, hchild⟩

end PooFlow.Temporal
