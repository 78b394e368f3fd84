import Mathlib.Data.Prod.Lex
import PooFlow.Temporal.Types

/-! `types.ss` and `funs.ss`. A parent that is not among the events is missing; one at a later
position violates the order of time. -/

namespace PooFlow.Temporal

open Foundation List Relation
open Except (ok.inj)

inductive ClockRole where
  | wallClock | monotonic | logicalVersion | authoritativeService
deriving DecidableEq

def ClockRole.symbol : ClockRole → String
  | .wallClock => "wall-clock"
  | .monotonic => "monotonic"
  | .logicalVersion => "logical-version"
  | .authoritativeService => "authoritative-service"

structure Observation where
  identity : String
  clockRole : ClockRole
  logicalPosition : ℕ
  provenanceIdentity : String
deriving DecidableEq

def Observation.Shape (value : Observation) : Prop :=
  Text value.identity ∧ Text value.provenanceIdentity

instance : DecidablePred Observation.Shape := fun _ => inferInstanceAs (Decidable (_ ∧ _))

inductive Modality where
  | observed | declared | derived | hypothesized | counterfactual
deriving DecidableEq

def Modality.symbol : Modality → String
  | .observed => "observed"
  | .declared => "declared"
  | .derived => "derived"
  | .hypothesized => "hypothesized"
  | .counterfactual => "counterfactual"

structure CausalEvent where
  identity : String
  subject : String
  eventKind : String
  observation : Observation
  payloadIdentity : String
  causalParentIdentities : List String
  modality : Modality
  committed : Bool
deriving DecidableEq

namespace CausalEvent

def Shape (value : CausalEvent) : Prop :=
  Text value.identity ∧ Text value.subject ∧ value.observation.Shape ∧
    Text value.payloadIdentity ∧ (∀ parent ∈ value.causalParentIdentities, Text parent) ∧
    value.causalParentIdentities.Nodup ∧
    (value.modality = .observed → value.committed = true) ∧
    (value.modality ∈ [.hypothesized, .counterfactual] → value.committed = false)

instance : DecidablePred Shape := fun _ =>
  inferInstanceAs (Decidable (_ ∧ _ ∧ _ ∧ _ ∧ _ ∧ _ ∧ _ ∧ _))

def position (event : CausalEvent) : ℕ := event.observation.logicalPosition

/-- The order of `causal-event<?`: by position, then by identity. -/
def rank (event : CausalEvent) : ℕ ×ₗ String := toLex (event.position, event.identity)

def canonical (event : CausalEvent) : Datum :=
  .list [.text event.identity, .text event.subject, .symbol event.eventKind,
    .list [.text event.observation.identity, .symbol event.observation.clockRole.symbol,
      .integer event.observation.logicalPosition, .text event.observation.provenanceIdentity],
    .text event.payloadIdentity, .texts (sortTexts event.causalParentIdentities),
    .symbol event.modality.symbol, .boolean event.committed]

end CausalEvent

/-- `(list-sort causal-event<? events)`. -/
def sortEvents (events : List CausalEvent) : List CausalEvent :=
  events.insertionSort (·.rank ≤ ·.rank)

theorem perm_sortEvents (events : List CausalEvent) : (sortEvents events).Perm events :=
  perm_insertionSort _ _

def eventAt (index : List CausalEvent) (identity : String) : Option CausalEvent :=
  index.find? fun event => event.identity = identity

structure CausalInventory where
  identity : String
  subject : String
  events : List CausalEvent
  eventIndex : List CausalEvent
  missingParentIdentities : List String
  temporalOrderViolations : List (String × String)

namespace CausalInventory

def Complete (value : CausalInventory) : Prop :=
  value.missingParentIdentities = [] ∧ value.temporalOrderViolations = []

instance : DecidablePred Complete := fun _ => inferInstanceAs (Decidable (_ ∧ _))

def Shape (value : CausalInventory) : Prop :=
  Text value.identity ∧ Text value.subject ∧ value.events ≠ [] ∧
    (∀ event ∈ value.events, event.Shape) ∧
    (∀ event ∈ value.events, event.subject = value.subject) ∧
    (value.events.map CausalEvent.identity).Nodup ∧
    (∀ event ∈ value.events, eventAt value.eventIndex event.identity = some event) ∧
    (∀ parent ∈ value.missingParentIdentities, Text parent) ∧
    ∀ violation ∈ value.temporalOrderViolations, Text violation.1 ∧ Text violation.2

instance : DecidablePred Shape := fun _ =>
  inferInstanceAs (Decidable (_ ∧ _ ∧ _ ∧ _ ∧ _ ∧ _ ∧ _ ∧ _ ∧ _))

end CausalInventory

abbrev CausalEventGraph := CausalInventory

structure CausalCut extends CausalInventory where
  eventGraphIdentity : String
  asOfPosition : ℕ

def CausalCut.Shape (value : CausalCut) : Prop :=
  value.toCausalInventory.Shape ∧ Text value.eventGraphIdentity ∧
    ∀ event ∈ value.events, event.committed = true ∧ event.position ≤ value.asOfPosition

instance : DecidablePred CausalCut.Shape := fun _ => inferInstanceAs (Decidable (_ ∧ _ ∧ _))

/-- The first loop of `causal-events-analyze`: the index by identity. -/
def indexEvents (subject : String) :
    List CausalEvent → List CausalEvent → Except Condition (List CausalEvent)
  | [], index => .ok index
  | event :: events, index => do
    guardElse (event.subject = subject)
      (raise "causal event belongs to another subject" [event.identity])
    guardElse event.causalParentIdentities.Nodup
      (raise "duplicate causal parent identity" [event.identity])
    guardElse (∀ known ∈ index, known.identity ≠ event.identity)
      (raise "duplicate causal event identity" [event.identity])
    indexEvents subject events (event :: index)

structure Findings where
  missing : List String
  violations : List (String × String)

/-- One step of the second loop of `causal-events-analyze`. -/
def checkParent (index : List CausalEvent) (found : Findings) (edge : String × CausalEvent) :
    Findings :=
  match eventAt index edge.1 with
  | some parent =>
    -- a parent may stand at the position of its child
    if edge.2.position < parent.position then
      { found with violations := (edge.1, edge.2.identity) :: found.violations }
    else found
  | none =>
    if edge.1 ∈ found.missing then found else { found with missing := edge.1 :: found.missing }

def parentEdges (events : List CausalEvent) : List (String × CausalEvent) :=
  events.flatMap fun event => event.causalParentIdentities.map fun parent => (parent, event)

structure Analysis where
  ordered : List CausalEvent
  eventIndex : List CausalEvent
  missing : List String
  violations : List (String × String)

def causalEventsAnalyze (subject : String) (events : List CausalEvent) :
    Except Condition Analysis := do
  guardElse (Text subject ∧ events ≠ [] ∧ ∀ event ∈ events, event.Shape)
    (raise "invalid causal event subject or inventory" [subject])
  let index ← indexEvents subject events []
  let found := (parentEdges events).foldl (checkParent index) ⟨[], []⟩
  return ⟨sortEvents events, index, found.missing.reverse, found.violations.reverse⟩

section

variable (sha256 : Bytes → Digest) (write : Datum → String)

def causalEventGraph (subject : String) (events : List CausalEvent) :
    Except Condition CausalEventGraph := do
  let analysis ← causalEventsAnalyze subject events
  let identity := digest sha256 write (.list [
    .symbol "poo-flow.temporal-causality.causal-event-graph.v1", .text subject,
    .list (analysis.ordered.map CausalEvent.canonical)])
  let graph : CausalEventGraph :=
    ⟨identity, subject, analysis.ordered, analysis.eventIndex, analysis.missing, analysis.violations⟩
  guardElse graph.Shape .invalid
  return graph

def committedEvents (eventGraph : CausalEventGraph) (asOfPosition : ℕ) : List CausalEvent :=
  eventGraph.events.filter fun event => event.committed ∧ event.position ≤ asOfPosition

def causalCut (eventGraph : CausalEventGraph) (asOfPosition : ℕ) : Except Condition CausalCut := do
  guardElse eventGraph.Shape
    (raise "causal cut requires a causal event graph" [eventGraph.identity])
  guardElse (committedEvents eventGraph asOfPosition ≠ [])
    (raise "causal cut has no committed event" [toString asOfPosition])
  let analysis ← causalEventsAnalyze eventGraph.subject (committedEvents eventGraph asOfPosition)
  let identity := digest sha256 write (.list [
    .symbol "poo-flow.temporal-causality.causal-cut.v1", .text eventGraph.identity,
    .integer asOfPosition, .texts (analysis.ordered.map CausalEvent.identity)])
  let cut : CausalCut :=
    ⟨⟨identity, eventGraph.subject, analysis.ordered, analysis.eventIndex, analysis.missing,
      analysis.violations⟩, eventGraph.identity, asOfPosition⟩
  guardElse cut.Shape .invalid
  return cut

end

variable {events : List CausalEvent} (index : List CausalEvent) (edge : String × CausalEvent)

variable {subject : String}

theorem indexEvents_ok {index index' : List CausalEvent}
    (h : indexEvents subject events index = .ok index')
    (hindex : (index.map CausalEvent.identity).Nodup) :
    (index'.map CausalEvent.identity).Nodup ∧ index' = events.reverse ++ index ∧
      ∀ event ∈ events, event.subject = subject := by
  induction events generalizing index with
  | nil =>
    obtain rfl := ok.inj h
    exact ⟨hindex, rfl, forall_mem_nil _⟩
  | cons event events ih =>
    rw [indexEvents] at h
    simp only [bind_eq_ok, guardElse_eq_ok, exists_const] at h
    obtain ⟨hsubject, _, hnew, hrest⟩ := h
    obtain ⟨hdistinct, rfl, hsubjects⟩ := ih hrest (by
      rw [map_cons, nodup_cons]
      refine ⟨fun hmem => ?_, hindex⟩
      obtain ⟨known, hknown, hsame⟩ := mem_map.1 hmem
      exact hnew known hknown hsame)
    exact ⟨hdistinct, by simp, forall_mem_cons.2 ⟨hsubject, hsubjects⟩⟩

theorem eventAt_eq_some {index : List CausalEvent} (h : (index.map CausalEvent.identity).Nodup)
    {identity : String} {event : CausalEvent} :
    eventAt index identity = some event ↔ event ∈ index ∧ event.identity = identity := by
  constructor
  · intro hfound
    exact ⟨mem_of_find?_eq_some hfound, by simpa using List.find?_some hfound⟩
  · rintro ⟨hmem, rfl⟩
    obtain ⟨found, hfound⟩ : ∃ found, eventAt index event.identity = some found :=
      Option.isSome_iff_exists.1 (List.find?_isSome.2 ⟨event, hmem, by simp⟩)
    rw [hfound, inj_on_of_nodup_map h (mem_of_find?_eq_some hfound) hmem
      (by simpa using List.find?_some hfound)]

theorem eventAt_eq_none {index : List CausalEvent} {identity : String} :
    eventAt index identity = none ↔ ∀ event ∈ index, event.identity ≠ identity := by
  simp [eventAt]

theorem mem_parentEdges {edge : String × CausalEvent} :
    edge ∈ parentEdges events ↔ edge.2 ∈ events ∧ edge.1 ∈ edge.2.causalParentIdentities := by
  simp only [parentEdges, mem_flatMap, mem_map]
  constructor
  · rintro ⟨event, hevent, parent, hparent, rfl⟩
    exact ⟨hevent, hparent⟩
  · rintro ⟨hevent, hparent⟩
    exact ⟨edge.2, hevent, edge.1, hparent, rfl⟩

theorem mem_missing_checkParent (found : Findings) (parent : String) :
    parent ∈ (checkParent index found edge).missing ↔
      parent ∈ found.missing ∨ edge.1 = parent ∧ eventAt index parent = none := by
  rw [checkParent]
  cases hfound : eventAt index edge.1 with
  | some known =>
    have hnot : ¬(edge.1 = parent ∧ eventAt index parent = none) := by
      rintro ⟨rfl, hnone⟩
      rw [hfound] at hnone
      cases hnone
    rw [or_iff_left hnot]
    dsimp only
    split <;> rfl
  | none =>
    dsimp only
    split
    · next hknown =>
      refine ⟨Or.inl, fun h => h.elim id ?_⟩
      rintro ⟨rfl, _⟩
      exact hknown
    · rw [mem_cons, or_comm]
      refine or_congr_right ⟨?_, fun h => h.1.symm⟩
      rintro rfl
      exact ⟨rfl, hfound⟩

theorem mem_violations_checkParent (found : Findings) (violation : String × String) :
    violation ∈ (checkParent index found edge).violations ↔
      violation ∈ found.violations ∨ ∃ parent, eventAt index edge.1 = some parent ∧
        edge.2.position < parent.position ∧ violation = (edge.1, edge.2.identity) := by
  rw [checkParent]
  cases eventAt index edge.1 with
  | some known =>
    dsimp only
    split
    · next hlater => simp [hlater, or_comm]
    · next hlater => simp [hlater]
  | none =>
    dsimp only
    split <;> simp

theorem nodup_checkParent {found : Findings} (h : found.missing.Nodup) :
    (checkParent index found edge).missing.Nodup := by
  rw [checkParent]
  cases eventAt index edge.1 with
  | some known =>
    dsimp only
    split <;> exact h
  | none =>
    dsimp only
    split
    · exact h
    · next hfresh => exact nodup_cons.2 ⟨hfresh, h⟩

theorem foldl_checkParent (edges : List (String × CausalEvent)) (found : Findings) :
    (∀ parent, parent ∈ (edges.foldl (checkParent index) found).missing ↔
      parent ∈ found.missing ∨ ∃ edge ∈ edges, edge.1 = parent ∧ eventAt index parent = none) ∧
    (∀ violation, violation ∈ (edges.foldl (checkParent index) found).violations ↔
      violation ∈ found.violations ∨ ∃ edge ∈ edges, ∃ parent, eventAt index edge.1 = some parent ∧
        edge.2.position < parent.position ∧ violation = (edge.1, edge.2.identity)) ∧
    (found.missing.Nodup → (edges.foldl (checkParent index) found).missing.Nodup) := by
  induction edges generalizing found with
  | nil => simp
  | cons edge edges ih =>
    rw [foldl_cons]
    obtain ⟨hmissing, hviolations, hnodup⟩ := ih (checkParent index found edge)
    refine ⟨fun parent => ?_, fun violation => ?_, fun h => hnodup (nodup_checkParent index edge h)⟩
    · rw [hmissing, mem_missing_checkParent, exists_mem_cons_iff, or_assoc]
    · rw [hviolations, mem_violations_checkParent, exists_mem_cons_iff, or_assoc]

structure Analyzes (subject : String) (events : List CausalEvent) (analysis : Analysis) : Prop where
  shape : ∀ event ∈ events, event.Shape
  subject : ∀ event ∈ events, event.subject = subject
  distinct : (events.map CausalEvent.identity).Nodup
  ordered : analysis.ordered = sortEvents events
  index : analysis.eventIndex = events.reverse
  missing : ∀ parent, parent ∈ analysis.missing ↔
    (∃ event ∈ events, parent ∈ event.causalParentIdentities) ∧
      ∀ event ∈ events, event.identity ≠ parent
  missing_nodup : analysis.missing.Nodup
  violations : ∀ violation, violation ∈ analysis.violations ↔
    ∃ event ∈ events, ∃ parent ∈ events, parent.identity ∈ event.causalParentIdentities ∧
      event.position < parent.position ∧ violation = (parent.identity, event.identity)

theorem causalEventsAnalyze_ok {analysis : Analysis}
    (h : causalEventsAnalyze subject events = .ok analysis) : Analyzes subject events analysis := by
  rw [causalEventsAnalyze] at h
  simp only [bind_eq_ok, guardElse_eq_ok, exists_const] at h
  obtain ⟨⟨_, _, hshape⟩, index, hindex, hanalysis⟩ := h
  obtain rfl := ok.inj hanalysis
  obtain ⟨hdistinct, rfl, hsubject⟩ := indexEvents_ok hindex (by simp)
  rw [append_nil] at hdistinct ⊢
  obtain ⟨hmissing, hviolations, hnodup⟩ :=
    foldl_checkParent events.reverse (parentEdges events) ⟨[], []⟩
  refine ⟨hshape, hsubject, ?_, rfl, rfl, fun parent => ?_, ?_, fun violation => ?_⟩
  · rwa [map_reverse, nodup_reverse] at hdistinct
  · rw [mem_reverse, hmissing, or_iff_right not_mem_nil]
    simp only [mem_parentEdges, eventAt_eq_none, mem_reverse]
    constructor
    · rintro ⟨edge, ⟨hevent, hparent⟩, rfl, hnone⟩
      exact ⟨⟨edge.2, hevent, hparent⟩, hnone⟩
    · rintro ⟨⟨event, hevent, hparent⟩, hnone⟩
      exact ⟨(parent, event), ⟨hevent, hparent⟩, rfl, hnone⟩
  · exact nodup_reverse.2 (hnodup nodup_nil)
  · rw [mem_reverse, hviolations, or_iff_right not_mem_nil]
    simp only [mem_parentEdges, eventAt_eq_some hdistinct, mem_reverse]
    constructor
    · rintro ⟨edge, ⟨hevent, hmem⟩, parent, ⟨hparent, hidentity⟩, hlater, rfl⟩
      exact ⟨edge.2, hevent, parent, hparent, hidentity ▸ hmem, hlater, by rw [hidentity]⟩
    · rintro ⟨event, hevent, parent, hparent, hmem, hlater, rfl⟩
      exact ⟨(parent.identity, event), ⟨hevent, hmem⟩, parent, ⟨hparent, rfl⟩, hlater, rfl⟩

section

variable {sha256 : Bytes → Digest} {write : Datum → String}

theorem causalEventGraph_ok {events : List CausalEvent} {graph : CausalEventGraph}
    (h : causalEventGraph sha256 write subject events = .ok graph) :
    ∃ analysis, Analyzes subject events analysis ∧ graph.Shape ∧ graph.subject = subject ∧
      graph.events = analysis.ordered ∧ graph.eventIndex = analysis.eventIndex ∧
      graph.missingParentIdentities = analysis.missing ∧
      graph.temporalOrderViolations = analysis.violations := by
  rw [causalEventGraph] at h
  simp only [bind_eq_ok, guardElse_eq_ok, exists_const] at h
  obtain ⟨analysis, hanalysis, hshape, hgraph⟩ := h
  obtain rfl := ok.inj hgraph
  exact ⟨analysis, causalEventsAnalyze_ok hanalysis, hshape, rfl, rfl, rfl, rfl, rfl⟩

variable {eventGraph : CausalEventGraph} {asOfPosition : ℕ}

theorem perm_committedEvents {analysis : Analysis}
    (h : Analyzes eventGraph.subject (committedEvents eventGraph asOfPosition) analysis) :
    analysis.ordered.Perm (committedEvents eventGraph asOfPosition) := by
  rw [h.ordered]
  exact perm_sortEvents _

theorem causalCut_ok {cut : CausalCut}
    (h : causalCut sha256 write eventGraph asOfPosition = .ok cut) :
    ∃ analysis, Analyzes eventGraph.subject (committedEvents eventGraph asOfPosition) analysis ∧
      cut.Shape ∧ cut.events = analysis.ordered ∧ cut.eventIndex = analysis.eventIndex ∧
      cut.missingParentIdentities = analysis.missing ∧
      cut.eventGraphIdentity = eventGraph.identity ∧ cut.asOfPosition = asOfPosition := by
  rw [causalCut] at h
  simp only [bind_eq_ok, guardElse_eq_ok, exists_const] at h
  obtain ⟨_, _, analysis, hanalysis, hshape, hcut⟩ := h
  obtain rfl := ok.inj hcut
  exact ⟨analysis, causalEventsAnalyze_ok hanalysis, hshape, rfl, rfl, rfl, rfl, rfl⟩

end

def ParentOf (events : List CausalEvent) (parent child : String) : Prop :=
  ∃ event ∈ events, event.identity = child ∧ parent ∈ event.causalParentIdentities

instance (events : List CausalEvent) (parent child : String) :
    Decidable (ParentOf events parent child) :=
  inferInstanceAs (Decidable (∃ event ∈ events, _))

def PeerOf (events : List CausalEvent) (parent child : String) : Prop :=
  ∃ event ∈ events, event.identity = child ∧
    ∃ source ∈ events, source.identity = parent ∧ parent ∈ event.causalParentIdentities ∧
      source.position = event.position

/-- The ancestors of events: all are events, none at a later position than a
descendant, and a cycle keeps to one position. Ancestry is a strict order when no
cycle does, and it always is between different positions. -/
structure AncestryOrdered (events : List CausalEvent) : Prop where
  declared : ∀ parent child, ParentOf events parent child →
    ∃ event ∈ events, event.identity = parent
  position : ∀ event ∈ events, ∀ later ∈ events,
    Relation.TransGen (ParentOf events) event.identity later.identity →
      event.position ≤ later.position
  cycles : ∀ id, Relation.TransGen (ParentOf events) id id ↔ Relation.TransGen (PeerOf events) id id
  strict_iff : IsStrictOrder String (Relation.TransGen (ParentOf events)) ↔
    ∀ id, ¬Relation.TransGen (PeerOf events) id id
  strict_between : IsStrictOrder {event // event ∈ events} fun event later =>
    Relation.TransGen (ParentOf events) event.1.identity later.1.identity ∧
      event.1.position < later.1.position

section

variable {events : List CausalEvent}

theorem PeerOf.parentOf {parent child : String} (h : PeerOf events parent child) :
    ParentOf events parent child := by
  obtain ⟨event, hevent, hchild, _, _, _, hparent, _⟩ := h
  exact ⟨event, hevent, hchild, hparent⟩

theorem ancestryOrdered (hdistinct : (events.map CausalEvent.identity).Nodup)
    (hdeclared : ∀ parent child, ParentOf events parent child →
      ∃ event ∈ events, event.identity = parent)
    (hposition : ∀ event ∈ events, ∀ parent ∈ events,
      parent.identity ∈ event.causalParentIdentities → parent.position ≤ event.position) :
    AncestryOrdered events := by
  have hsame : ∀ event ∈ events, ∀ other ∈ events, event.identity = other.identity →
      event = other := fun event hevent other hother =>
    inj_on_of_nodup_map hdistinct hevent hother
  have hstep : ∀ event ∈ events, ∀ parent ∈ events,
      ParentOf events parent.identity event.identity → parent.position ≤ event.position := by
    rintro event hevent parent hparent ⟨child, hchild, hidentity, hmem⟩
    obtain rfl := hsame child hchild event hevent hidentity
    exact hposition _ hevent parent hparent hmem
  have hancestors : ∀ event ∈ events, ∀ later ∈ events,
      TransGen (ParentOf events) event.identity later.identity →
        event.position ≤ later.position := by
    intro event hevent later hlater hpath
    generalize hend : later.identity = id at hpath
    induction hpath generalizing later with
    | single hparent => exact hstep later hlater event hevent (hend ▸ hparent)
    | tail _ hparent ih =>
      obtain ⟨middle, hmiddle, rfl⟩ := hdeclared _ _ hparent
      exact (ih middle hmiddle rfl).trans (hstep later hlater middle hmiddle (hend ▸ hparent))
  have hpeer : ∀ event ∈ events, ∀ parent ∈ events,
      ParentOf events parent.identity event.identity → parent.position = event.position →
        PeerOf events parent.identity event.identity := by
    rintro event hevent parent hparent ⟨child, hchild, hidentity, hmem⟩ hequal
    obtain rfl := hsame child hchild event hevent hidentity
    exact ⟨_, hevent, rfl, parent, hparent, rfl, hmem, hequal⟩
  -- a way between events at one position stays there
  have hpeers : ∀ event ∈ events, ∀ later ∈ events,
      TransGen (ParentOf events) event.identity later.identity →
        event.position = later.position →
          TransGen (PeerOf events) event.identity later.identity := by
    intro event hevent later hlater hpath
    generalize hend : later.identity = id at hpath
    induction hpath generalizing later with
    | single hparent =>
      rw [← hend] at hparent ⊢
      exact fun hequal => .single (hpeer later hlater event hevent hparent hequal)
    | tail hpath hparent ih =>
      obtain ⟨middle, hmiddle, rfl⟩ := hdeclared _ _ hparent
      rw [← hend] at hparent ⊢
      intro hequal
      have hbefore := hancestors event hevent middle hmiddle hpath
      have hafter := hstep later hlater middle hmiddle hparent
      exact (ih middle hmiddle rfl (by omega)).tail
        (hpeer later hlater middle hmiddle hparent (by omega))
  have hcycles : ∀ id, TransGen (ParentOf events) id id ↔
      TransGen (PeerOf events) id id := by
    intro id
    constructor
    · intro hcycle
      obtain ⟨_, _, event, hevent, rfl, _⟩ := TransGen.tail'_iff.1 hcycle
      exact hpeers event hevent event hevent hcycle rfl
    · exact fun hcycle => TransGen.mono (fun _ _ h => PeerOf.parentOf h) _ _ hcycle
  refine ⟨hdeclared, hancestors, hcycles, ?_, ?_⟩
  · constructor
    · exact fun hstrict id hcycle => hstrict.irrefl id ((hcycles id).2 hcycle)
    · intro hnone
      exact { irrefl := fun id hcycle => hnone id ((hcycles id).1 hcycle)
              trans := fun _ _ _ h h' => h.trans h' }
  · exact { irrefl := fun _ h => lt_irrefl _ h.2
            trans := fun _ _ _ h h' => ⟨h.1.trans h'.1, h.2.trans h'.2⟩ }

end

/-- **Ancestors in a complete graph.** -/
theorem ancestry_ordered {sha256 : Bytes → Digest} {write : Datum → String} {subject : String}
    {events : List CausalEvent} {graph : CausalEventGraph}
    (h : causalEventGraph sha256 write subject events = .ok graph) (hcomplete : graph.Complete) :
    AncestryOrdered graph.events := by
  obtain ⟨analysis, hanalyzes, _, _, hevents, _, hmissing, hviolations⟩ := causalEventGraph_ok h
  have hperm : graph.events.Perm events := by
    rw [hevents, hanalyzes.ordered]
    exact perm_sortEvents events
  refine ancestryOrdered ((hperm.map _).nodup_iff.2 hanalyzes.distinct) ?_ ?_
  · rintro parent child ⟨event, hevent, _, hparent⟩
    by_contra hnone
    have hlisted : parent ∈ graph.missingParentIdentities := by
      rw [hmissing, hanalyzes.missing]
      refine ⟨⟨event, hperm.mem_iff.1 hevent, hparent⟩, fun other hother hidentity => ?_⟩
      exact hnone ⟨other, hperm.mem_iff.2 hother, hidentity⟩
    rw [hcomplete.1] at hlisted
    cases hlisted
  · intro event hevent parent hparent hmem
    by_contra hlater
    have hlisted : (parent.identity, event.identity) ∈ graph.temporalOrderViolations := by
      rw [hviolations, hanalyzes.violations]
      exact ⟨event, hperm.mem_iff.1 hevent, parent, hperm.mem_iff.1 hparent, hmem,
        not_le.1 hlater, rfl⟩
    rw [hcomplete.2] at hlisted
    cases hlisted

def releaseEvent (identity : String) (parents : List String) (position : ℕ) : CausalEvent where
  identity := identity
  subject := "release"
  eventKind := "step"
  observation := ⟨identity, .logicalVersion, position, "ledger"⟩
  payloadIdentity := "payload"
  causalParentIdentities := parents
  modality := .observed
  committed := true

def releaseEvents : List CausalEvent :=
  [releaseEvent "deploy" ["build"] 2, releaseEvent "build" [] 1]

theorem release_ordered : ∃ graph,
    causalEventGraph checksum writeDatum "release" releaseEvents = .ok graph ∧ graph.Complete ∧
      AncestryOrdered graph.events := by
  obtain ⟨graph, hgraph, hcomplete⟩ : ∃ graph,
      causalEventGraph checksum writeDatum "release" releaseEvents = .ok graph ∧
        graph.Complete := by decide +kernel
  exact ⟨graph, hgraph, hcomplete, ancestry_ordered hgraph hcomplete⟩

def mutualEvents : List CausalEvent :=
  [releaseEvent "build" ["deploy"] 1, releaseEvent "deploy" ["build"] 1]

/-- A complete graph with a cycle: a parent at the position of its child is no violation. -/
theorem mutual_parents_complete : ∃ graph,
    causalEventGraph checksum writeDatum "release" mutualEvents = .ok graph ∧ graph.Complete ∧
      Relation.TransGen (ParentOf graph.events) "build" "build" := by
  obtain ⟨graph, hgraph, hcomplete, hbuild, hdeploy⟩ : ∃ graph,
      causalEventGraph checksum writeDatum "release" mutualEvents = .ok graph ∧ graph.Complete ∧
        ParentOf graph.events "build" "deploy" ∧ ParentOf graph.events "deploy" "build" := by
    decide +kernel
  exact ⟨graph, hgraph, hcomplete, .tail (.single hbuild) hdeploy⟩

end PooFlow.Temporal
