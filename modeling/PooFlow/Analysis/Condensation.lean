import PooFlow.Analysis.Components
import PooFlow.Analysis.Receipt
import PooFlow.Foundation.Grouping

/-! `poo-flow-graph-loop-analysis-receipt` of `graph/algorithms.ss`. -/

namespace PooFlow.Analysis

open Foundation List Function
open Option (some.inj some_inj)

variable {α : Type*} [DecidableEq α]

/-- `poo-flow-graph-loop-analysis`; a condensation edge has the positions of two components. -/
structure PooFlowGraphLoopAnalysis (α : Type*) where
  graphId : α
  componentCount : ℕ
  cyclicComponentCount : ℕ
  components : List (List α)
  cyclicComponents : List (List α)
  condensationEdges : List (ℕ × ℕ)
  diagnostics : List (String × List (List α))

def indexComponentMembers (members : List α) (membership : α → Option ℕ) (componentId : ℕ) :
    α → Option ℕ :=
  members.foldl (fun table member => Function.update table member (some componentId)) membership

/-- The loop of `components->membership`. -/
def componentsMembershipFrom : List (List α) → ℕ → (α → Option ℕ) → α → Option ℕ
  | [], _, membership => membership
  | component :: remaining, componentId, membership =>
    componentsMembershipFrom remaining (componentId + 1)
      (indexComponentMembers component membership componentId)

def componentsMembership (components : List (List α)) : α → Option ℕ :=
  componentsMembershipFrom components 0 fun _ => none

/-- The tables of `order-components/indexed`. -/
structure OrderTables (α : Type*) where
  rawToOrdered : Option ℕ → Option ℕ := fun _ => none
  membersRev : Option ℕ → List α := fun _ => []
  componentIndex : α → Option ℕ := fun _ => none
  rawOrderRev : List (Option ℕ) := []
  nextOrderedId : ℕ := 0

/-- Where `order-components/indexed` meets a component for the first time. -/
def OrderTables.enter (s : OrderTables α) (rawId : Option ℕ) : OrderTables α :=
  if s.rawToOrdered rawId = none then
    { s with
      rawToOrdered := Function.update s.rawToOrdered rawId (some s.nextOrderedId)
      rawOrderRev := rawId :: s.rawOrderRev
      nextOrderedId := s.nextOrderedId + 1 }
  else s

/-- The step of `order-components/indexed` at one node. -/
def orderNode (membership : α → Option ℕ) (s : OrderTables α) (nodeId : α) : OrderTables α :=
  let rawId := membership nodeId
  let s := s.enter rawId
  { s with
    componentIndex := Function.update s.componentIndex nodeId (s.rawToOrdered rawId)
    membersRev := Function.update s.membersRev rawId (nodeId :: s.membersRev rawId) }

/-- `order-components/indexed`. -/
def orderComponents (nodeIds : List α) (components : List (List α)) :
    List (List α) × (α → Option ℕ) :=
  let s := nodeIds.foldl (orderNode (componentsMembership components)) {}
  (s.rawOrderRev.reverse.map fun rawId => (s.membersRev rawId).reverse, s.componentIndex)

/-- `component-cyclic?`, of a component that has members. -/
def componentCyclic (outgoing : α → List α) : List α → Bool
  | [] => false
  | first :: others => others ≠ [] ∨ first ∈ outgoing first

def selectCyclicComponents (components : List (List α)) (outgoing : α → List α) : List (List α) :=
  components.filter (componentCyclic outgoing)

/-- `graph-condensation-edges/rev`: the edges of an id without a component fail, as `=`
takes numbers. -/
def graphCondensationEdgesRev (componentIndex : α → Option ℕ) :
    List (α × α) → List (ℕ × ℕ) → List (ℕ × ℕ) → Option (List (ℕ × ℕ))
  | [], _, edgesRev => some edgesRev
  | edgePair :: edgePairs, seen, edgesRev => do
    let sourceComponent ← componentIndex edgePair.1
    let targetComponent ← componentIndex edgePair.2
    let componentEdge := (sourceComponent, targetComponent)
    -- `seen` holds the edges that were listed, as keys of a table
    if sourceComponent = targetComponent ∨ componentEdge ∈ seen then
      graphCondensationEdgesRev componentIndex edgePairs seen edgesRev
    else
      graphCondensationEdgesRev componentIndex edgePairs (componentEdge :: seen)
        (componentEdge :: edgesRev)

def graphCondensationEdges (edgePairs : List (α × α)) (componentIndex : α → Option ℕ) :
    Option (List (ℕ × ℕ)) :=
  (graphCondensationEdgesRev componentIndex edgePairs [] []).map List.reverse

def pooFlowGraphLoopAnalysisDiagnostics (cyclicComponents : List (List α)) :
    List (String × List (List α)) :=
  if cyclicComponents = [] then [] else [("cyclic-components", cyclicComponents)]

def pooFlowGraphLoopAnalysisReceipt (graph : PooFlowGraph α) :
    Option (PooFlowGraphLoopAnalysis α) :=
  let ordered := orderComponents graph.nodes
    (graphStrongComponents (outgoingNetwork graph.edges graph.nodes) graph.nodes)
  let components := ordered.1
  let cyclicComponents := selectCyclicComponents components (outgoingIndex graph.edges)
  (graphCondensationEdges graph.edges ordered.2).map fun condensationEdges =>
    { graphId := graph.graphId
      componentCount := components.length
      cyclicComponentCount := cyclicComponents.length
      components
      cyclicComponents
      condensationEdges
      diagnostics := pooFlowGraphLoopAnalysisDiagnostics cyclicComponents }

theorem indexComponentMembers_eq (members : List α) (membership : α → Option ℕ) (componentId : ℕ)
    (a : α) : indexComponentMembers members membership componentId a =
      if a ∈ members then some componentId else membership a := by
  unfold indexComponentMembers
  induction members generalizing membership with
  | nil => rfl
  | cons member members ih =>
    rw [foldl_cons, ih]
    by_cases heq : a = member
    · simp [heq]
    · simp [heq]

variable {components : List (List α)} {a : α}

variable {componentId : ℕ} {membership : α → Option ℕ}

theorem componentsMembershipFrom_of_notMem (h : a ∉ components.flatten) :
    componentsMembershipFrom components componentId membership a = membership a := by
  induction components generalizing componentId membership with
  | nil => rfl
  | cons component components ih =>
    rw [flatten_cons, mem_append, not_or] at h
    rw [componentsMembershipFrom, ih h.2, indexComponentMembers_eq, if_neg h.1]

variable {component : List α}

theorem componentsMembershipFrom_eq (hnodup : components.flatten.Nodup) {i : ℕ}
    (hcomponent : components[i]? = some component) (ha : a ∈ component) :
    componentsMembershipFrom components componentId membership a = some (componentId + i) := by
  induction components generalizing componentId i membership with
  | nil => cases hcomponent
  | cons first components ih =>
    rw [flatten_cons, nodup_append] at hnodup
    rw [componentsMembershipFrom]
    cases i with
    | zero =>
      obtain rfl := some.inj hcomponent
      rw [componentsMembershipFrom_of_notMem fun hmem => hnodup.2.2 a ha a hmem rfl,
        indexComponentMembers_eq, if_pos ha, Nat.add_zero]
    | succ i =>
      rw [List.getElem?_cons_succ] at hcomponent
      rw [ih hnodup.2.1 hcomponent, Nat.add_assoc, Nat.add_comm 1]

theorem componentsMembership_eq_iff {R : α → α → Prop} (hnodup : components.flatten.Nodup)
    (hstrong : ∀ component ∈ components, ∀ a ∈ component, ∀ b, b ∈ component ↔ Strong R a b) {b : α}
    (ha : a ∈ components.flatten) (hb : b ∈ components.flatten) :
    componentsMembership components a = componentsMembership components b ↔ Strong R a b := by
  obtain ⟨component, hcomponent, ha⟩ := mem_flatten.1 ha
  obtain ⟨other, hother, hb⟩ := mem_flatten.1 hb
  obtain ⟨i, hi⟩ := mem_iff_getElem?.mp hcomponent
  obtain ⟨j, hj⟩ := mem_iff_getElem?.mp hother
  have hmember : ∀ {c i d}, components[i]? = some c → d ∈ c →
      componentsMembership components d = some i := by
    intro c i d hc hd
    rw [componentsMembership, componentsMembershipFrom_eq hnodup hc hd, Nat.zero_add]
  rw [hmember hi ha]
  constructor
  · intro hsame
    rw [hmember hj hb] at hsame
    obtain rfl := some.inj hsame
    obtain rfl := some.inj (hi.symm.trans hj)
    exact (hstrong component hcomponent a ha b).1 hb
  · intro hab
    exact (hmember hi ((hstrong component hcomponent a ha b).2 hab)).symm

section

variable {membership : α → Option ℕ} {done : List α} {s : OrderTables α}

def rawOrder (membership : α → Option ℕ) (nodeIds : List α) : List (Option ℕ) :=
  (firstOfKey membership nodeIds).map membership

variable {a : α}

omit [DecidableEq α] in
theorem mem_rawOrder {nodeIds : List α} (ha : a ∈ nodeIds) :
    membership a ∈ rawOrder membership nodeIds :=
  (mem_map_firstOfKey membership).2 (mem_map_of_mem ha)

omit [DecidableEq α] in
theorem rawOrder_concat (done : List α) (a : α) : rawOrder membership (done ++ [a]) =
      if membership a ∈ rawOrder membership done then rawOrder membership done
      else rawOrder membership done ++ [membership a] := by
  unfold rawOrder
  rw [firstOfKey_concat]
  simp only [mem_map_firstOfKey]
  split
  · rfl
  · rw [map_append, map_singleton]

structure Numbered (order : List (Option ℕ)) (s : OrderTables α) : Prop where
  rawOrder : s.rawOrderRev.reverse = order
  rawToOrdered : ∀ rawId, s.rawToOrdered rawId =
    if rawId ∈ order then some (order.idxOf rawId) else none
  nextOrderedId : s.nextOrderedId = order.length

structure Ordered (membership : α → Option ℕ) (done : List α) (s : OrderTables α) : Prop where
  numbered : Numbered (rawOrder membership done) s
  componentIndex : ∀ a ∈ done, s.componentIndex a =
    some ((rawOrder membership done).idxOf (membership a))
  members : ∀ rawId, (s.membersRev rawId).reverse = done.filter (membership · = rawId)

omit [DecidableEq α] in
theorem Numbered.enter {order : List (Option ℕ)} (h : Numbered order s) (rawId : Option ℕ) :
    Numbered (if rawId ∈ order then order else order ++ [rawId]) (s.enter rawId) := by
  unfold OrderTables.enter
  by_cases hmem : rawId ∈ order
  · have hmet : s.rawToOrdered rawId ≠ none := by
      rw [h.rawToOrdered, if_pos hmem]
      exact Option.some_ne_none _
    rw [if_pos hmem, if_neg hmet]
    exact h
  · rw [if_neg hmem, if_pos ((h.rawToOrdered rawId).trans (if_neg hmem))]
    refine ⟨?_, fun other => ?_, ?_⟩
    · rw [reverse_cons, h.rawOrder]
    · -- the new raw id is the last one, the others keep their places
      show Function.update s.rawToOrdered rawId (some s.nextOrderedId) other = _
      by_cases hother : other = rawId
      · rw [hother, update_self, if_pos (mem_append_right _ mem_cons_self),
          idxOf_append_of_notMem hmem, idxOf_cons_self, h.nextOrderedId, Nat.add_zero]
      · rw [update_of_ne hother, h.rawToOrdered]
        by_cases hold : other ∈ order
        · rw [if_pos hold, if_pos (mem_append_left _ hold), idxOf_append_of_mem hold]
        · rw [if_neg hold, if_neg fun hnew => ?_]
          rcases mem_append.1 hnew with hmem | hlast
          · exact hold hmem
          · exact hother (mem_singleton.1 hlast)
    · rw [length_append, length_singleton, h.nextOrderedId]

omit [DecidableEq α] in
theorem enter_componentIndex (s : OrderTables α) (rawId : Option ℕ) :
    (s.enter rawId).componentIndex = s.componentIndex := by
  unfold OrderTables.enter
  split <;> rfl

omit [DecidableEq α] in
theorem enter_membersRev (s : OrderTables α) (rawId : Option ℕ) :
    (s.enter rawId).membersRev = s.membersRev := by
  unfold OrderTables.enter
  split <;> rfl

theorem Ordered.concat (h : Ordered membership done s) (a : α) :
    Ordered membership (done ++ [a]) (orderNode membership s a) := by
  have hnumbered : Numbered (rawOrder membership (done ++ [a])) (s.enter (membership a)) := by
    rw [rawOrder_concat]
    exact h.numbered.enter (membership a)
  -- the node has a place, whether its component was met or not
  have hlast : membership a ∈ rawOrder membership (done ++ [a]) :=
    mem_rawOrder (mem_append_right _ mem_cons_self)
  refine ⟨⟨hnumbered.rawOrder, hnumbered.rawToOrdered, hnumbered.nextOrderedId⟩,
    fun b hb => ?_, fun rawId => ?_⟩
  · show Function.update (s.enter (membership a)).componentIndex a
      ((s.enter (membership a)).rawToOrdered (membership a)) b = _
    by_cases heq : b = a
    · rw [heq, update_self, hnumbered.rawToOrdered, if_pos hlast]
    · have hdone := (mem_append.1 hb).resolve_right fun hmem =>
        heq (mem_singleton.1 hmem)
      rw [update_of_ne heq, enter_componentIndex, h.componentIndex b hdone, rawOrder_concat]
      split
      · rfl
      · rw [idxOf_append_of_mem (mem_rawOrder hdone)]
  · show (Function.update (s.enter (membership a)).membersRev (membership a)
      (a :: (s.enter (membership a)).membersRev (membership a)) rawId).reverse = _
    rw [enter_membersRev, filter_append, ← h.members]
    by_cases heq : rawId = membership a
    · rw [heq, update_self, reverse_cons, filter_cons_of_pos (by simp)]
      rfl
    · rw [update_of_ne heq, filter_cons_of_neg (by simpa using Ne.symm heq),
        filter_nil, append_nil]

theorem orderNodes_ordered (membership : α → Option ℕ) (nodeIds : List α) :
    Ordered membership nodeIds (nodeIds.foldl (orderNode membership) {}) := by
  induction nodeIds using List.reverseRecOn with
  | nil =>
    refine ⟨⟨rfl, fun rawId => rfl, rfl⟩, fun a ha => absurd ha not_mem_nil, fun rawId => rfl⟩
  | append_singleton done a ih =>
    rw [foldl_append]
    exact ih.concat a

/-- **The components in order** are the nodes of each raw id, and a node is indexed by
the position of its component. -/
theorem orderComponents_eq (nodeIds : List α) (components : List (List α)) :
    (orderComponents nodeIds components).1 =
        groupsOf (componentsMembership components) nodeIds ∧
      ∀ a ∈ nodeIds, (orderComponents nodeIds components).2 a =
        some ((rawOrder (componentsMembership components) nodeIds).idxOf
          (componentsMembership components a)) := by
  have hordered := orderNodes_ordered (componentsMembership components) nodeIds
  refine ⟨?_, hordered.componentIndex⟩
  show List.map _ (OrderTables.rawOrderRev _).reverse = _
  rw [hordered.numbered.rawOrder, rawOrder, map_map, groupsOf]
  exact map_congr_left fun first _ => hordered.members _

omit [DecidableEq α] in
theorem mem_groupsOf_iff {nodeIds : List α} {i : ℕ} (ha : a ∈ nodeIds) :
    (∃ group, (groupsOf membership nodeIds)[i]? = some group ∧ a ∈ group) ↔
      (rawOrder membership nodeIds).idxOf (membership a) = i := by
  have hkeys : (groupsOf membership nodeIds) =
      (rawOrder membership nodeIds).map fun rawId => nodeIds.filter (membership · = rawId) := by
    rw [groupsOf, rawOrder, map_map]
    rfl
  rw [hkeys, List.getElem?_map]
  constructor
  · rintro ⟨group, hgroup, hmem⟩
    obtain ⟨rawId, hrawId, rfl⟩ := Option.map_eq_some_iff.1 hgroup
    obtain rfl := of_decide_eq_true (mem_filter.1 hmem).2
    obtain ⟨hlt, hget⟩ := List.getElem?_eq_some_iff.1 hrawId
    rw [← hget]
    exact (nodup_firstOfKey membership nodeIds).idxOf_getElem i hlt
  · rintro rfl
    refine ⟨nodeIds.filter (membership · = membership a), ?_, mem_filter.2 ⟨ha, decide_eq_true rfl⟩⟩
    rw [List.getElem?_idxOf (mem_rawOrder ha)]
    rfl

end

section

variable {componentIndex : α → Option ℕ} {edgePairs : List (α × α)}

omit [DecidableEq α] in
theorem graphCondensationEdgesRev_spec
    (hindexed : ∀ edge ∈ edgePairs, ∃ i j, componentIndex edge.1 = some i ∧
      componentIndex edge.2 = some j)
    {seen edgesRev : List (ℕ × ℕ)} (hseen : ∀ edge, edge ∈ seen ↔ edge ∈ edgesRev)
    (hnodup : edgesRev.Nodup) :
    ∃ edges, graphCondensationEdgesRev componentIndex edgePairs seen edgesRev = some edges ∧
      edges.Nodup ∧ ∀ i j, (i, j) ∈ edges ↔ (i, j) ∈ edgesRev ∨
        i ≠ j ∧ ∃ edge ∈ edgePairs, componentIndex edge.1 = some i ∧
          componentIndex edge.2 = some j := by
  induction edgePairs generalizing seen edgesRev with
  | nil => exact ⟨edgesRev, rfl, hnodup, fun i j => by simp⟩
  | cons edgePair edgePairs ih =>
    obtain ⟨source, target, hsource, htarget⟩ := hindexed edgePair mem_cons_self
    have hrest : ∀ edge ∈ edgePairs, ∃ i j, componentIndex edge.1 = some i ∧
        componentIndex edge.2 = some j := fun edge hedge =>
      hindexed edge (mem_cons_of_mem _ hedge)
    have hpair : ∀ i j, (∃ edge ∈ edgePair :: edgePairs, componentIndex edge.1 = some i ∧
          componentIndex edge.2 = some j) ↔
        (i, j) = (source, target) ∨ ∃ edge ∈ edgePairs, componentIndex edge.1 = some i ∧
          componentIndex edge.2 = some j := by
      intro i j
      rw [exists_mem_cons_iff, hsource, htarget, Prod.mk.injEq, some_inj,
        some_inj, eq_comm, @eq_comm _ target]
    rw [graphCondensationEdgesRev, hsource, htarget]
    simp only [Option.bind_eq_bind, Option.bind_some]
    split
    · next hskip =>
      obtain ⟨edges, hedges, hdistinct, hmem⟩ := ih hrest hseen hnodup
      -- a pair that is skipped is a self-pair, or is listed
      refine ⟨edges, hedges, hdistinct, fun i j => ?_⟩
      rw [hmem, hpair]
      constructor
      · rintro (hold | ⟨hne, hlater⟩)
        · exact .inl hold
        · exact .inr ⟨hne, .inr hlater⟩
      · rintro (hold | ⟨hne, hfirst | hlater⟩)
        · exact .inl hold
        · obtain ⟨rfl, rfl⟩ := Prod.mk.injEq .. ▸ hfirst
          exact .inl ((hseen _).1 (hskip.resolve_left hne))
        · exact .inr ⟨hne, hlater⟩
    · next hnew =>
      obtain ⟨hne, hunseen⟩ := not_or.1 hnew
      have hseen' : ∀ edge, edge ∈ (source, target) :: seen ↔
          edge ∈ (source, target) :: edgesRev := fun edge => by
        rw [mem_cons, mem_cons, hseen]
      obtain ⟨edges, hedges, hdistinct, hmem⟩ := ih hrest hseen'
        (nodup_cons.2 ⟨fun hmem => hunseen ((hseen _).2 hmem), hnodup⟩)
      refine ⟨edges, hedges, hdistinct, fun i j => ?_⟩
      rw [hmem, hpair, mem_cons]
      constructor
      · rintro ((hfirst | hold) | ⟨hdiffer, hlater⟩)
        · exact .inr ⟨by rintro rfl; cases hfirst; exact hne rfl, .inl hfirst⟩
        · exact .inl hold
        · exact .inr ⟨hdiffer, .inr hlater⟩
      · rintro (hold | ⟨hdiffer, hfirst | hlater⟩)
        · exact .inl (.inr hold)
        · exact .inl (.inl hfirst)
        · exact .inr ⟨hdiffer, hlater⟩

omit [DecidableEq α] in
/-- **The condensation edges** join the components of the ends of an edge, once each. -/
theorem graphCondensationEdges_spec
    (hindexed : ∀ edge ∈ edgePairs, ∃ i j, componentIndex edge.1 = some i ∧
      componentIndex edge.2 = some j) :
    ∃ edges, graphCondensationEdges edgePairs componentIndex = some edges ∧ edges.Nodup ∧
      ∀ i j, (i, j) ∈ edges ↔ i ≠ j ∧ ∃ edge ∈ edgePairs, componentIndex edge.1 = some i ∧
        componentIndex edge.2 = some j := by
  have hseen : ∀ edge : ℕ × ℕ, edge ∈ [] ↔ edge ∈ [] := fun _ => Iff.rfl
  obtain ⟨edges, hedges, hnodup, hmem⟩ :=
    graphCondensationEdgesRev_spec hindexed hseen nodup_nil
  refine ⟨edges.reverse, by rw [graphCondensationEdges, hedges]; rfl,
    nodup_reverse.2 hnodup, fun i j => ?_⟩
  rw [mem_reverse, hmem, or_iff_right not_mem_nil]

end

omit [DecidableEq α] in
theorem exists_closedPath {R : α → α → Prop} {id : α}
    (hcycle : Relation.TransGen R id id) (hstrong : ∀ b, b ∈ component ↔ Strong R id b) :
    ∃ path, ClosedPath R path ∧ ∀ other ∈ path, other ∈ component := by
  obtain ⟨inner, hchain, hinner⟩ := exists_isChain_of_transGen hcycle
  have hid : id ∈ component := (hstrong id).2 (.refl id)
  refine ⟨id :: (inner ++ [id]), ⟨⟨id, inner, rfl⟩, hchain⟩, fun other hother => ?_⟩
  rcases mem_cons.1 hother with rfl | hother
  · exact hid
  rcases mem_append.1 hother with hother | hother
  · exact (hstrong other).2 (hinner other hother)
  · exact mem_singleton.1 hother ▸ hid

theorem componentCyclic_iff {graph : PooFlowGraph α} (hne : component ≠ [])
    (hnodup : component.Nodup)
    (hstrong : ∀ a ∈ component, ∀ b, b ∈ component ↔ Strong graph.Edge a b) :
    componentCyclic (outgoingIndex graph.edges) component = true ↔
      ∃ path, ClosedPath graph.Edge path ∧ ∀ id ∈ path, id ∈ component := by
  obtain ⟨first, others, rfl⟩ := exists_cons_of_ne_nil hne
  rw [componentCyclic, decide_eq_true_iff, mem_outgoingIndex]
  constructor
  · intro hcyclic
    -- the first member is on a cycle
    have hcycle : Relation.TransGen graph.Edge first first := by
      refine transGen_self_iff.2 (hcyclic.symm.imp_right fun hothers => ?_)
      obtain ⟨other, rest, rfl⟩ := exists_cons_of_ne_nil hothers
      refine ⟨other, fun heq => ?_, (hstrong first mem_cons_self other).1 (by simp)⟩
      exact (nodup_cons.1 hnodup).1 (heq ▸ mem_cons_self)
    exact exists_closedPath hcycle (hstrong first mem_cons_self)
  · rintro ⟨_, hclosed, hmem⟩
    obtain ⟨id, inner, rfl⟩ := hclosed.closed
    have hid := hmem id mem_cons_self
    have hcycle := transGen_self_iff.1 hclosed.transGen
    -- a component of one id is cyclic through its own edge only
    by_cases hsingle : others = []
    · subst hsingle
      obtain rfl := mem_singleton.1 hid
      refine .inr (hcycle.resolve_right ?_)
      rintro ⟨b, hb, hconnected⟩
      exact hb (mem_singleton.1 ((hstrong id hid b).2 hconnected))
    · exact .inl hsingle

def PooFlowGraphLoopAnalysis.At (analysis : PooFlowGraphLoopAnalysis α) (i : ℕ) (id : α) : Prop :=
  ∃ component, analysis.components[i]? = some component ∧ id ∈ component

/-- What a receipt says about the graph. -/
structure LoopsAnalysed (graph : PooFlowGraph α) (analysis : PooFlowGraphLoopAnalysis α) :
    Prop where
  partitions : analysis.components.flatten.Perm graph.nodes ∧ [] ∉ analysis.components
  connects : ∀ a ∈ graph.nodes, ∀ b ∈ graph.nodes,
    (∃ component ∈ analysis.components, a ∈ component ∧ b ∈ component) ↔ Strong graph.Edge a b
  ordered : (analysis.components.filterMap List.head?).Sublist graph.nodes ∧
    ∀ component ∈ analysis.components, component.Sublist graph.nodes
  cyclic : ∀ component, component ∈ analysis.cyclicComponents ↔
    component ∈ analysis.components ∧
      ∃ path, ClosedPath graph.Edge path ∧ ∀ id ∈ path, id ∈ component
  acyclic : analysis.cyclicComponents = [] ↔ graphCyclePath graph.nodes graph.edges = none
  condenses : ∀ i j, (i, j) ∈ analysis.condensationEdges ↔
    i ≠ j ∧ ∃ a b, graph.Edge a b ∧ analysis.At i a ∧ analysis.At j b
  distinct : analysis.condensationEdges.Nodup
  descends : ∀ i, ¬Relation.TransGen (fun i j => (i, j) ∈ analysis.condensationEdges) i i

structure Classified (graph : PooFlowGraph α) (membership componentIndex : α → Option ℕ) :
    Prop where
  nodup : graph.nodes.Nodup
  declared : ∀ source target, graph.Edge source target →
    source ∈ graph.nodes ∧ target ∈ graph.nodes
  same : ∀ a ∈ graph.nodes, ∀ b ∈ graph.nodes, membership a = membership b ↔ Strong graph.Edge a b
  index : ∀ a ∈ graph.nodes,
    componentIndex a = some ((rawOrder membership graph.nodes).idxOf (membership a))

namespace Classified

variable {graph : PooFlowGraph α} {membership componentIndex : α → Option ℕ}

omit [DecidableEq α] in
theorem mem_nodes (h : Classified graph membership componentIndex) {b : α}
    (ha : a ∈ graph.nodes) (hab : Strong graph.Edge a b) : b ∈ graph.nodes :=
  mem_of_reflTransGen (S := (· ∈ graph.nodes)) (fun a b _ hedge => (h.declared a b hedge).2) ha
    hab.1

omit [DecidableEq α] in
theorem group (h : Classified graph membership componentIndex) {group : List α}
    (hgroup : group ∈ groupsOf membership graph.nodes) : group.Sublist graph.nodes ∧ group ≠ [] ∧
      ∀ a ∈ group, ∀ b, b ∈ group ↔ Strong graph.Edge a b := by
  obtain ⟨first, hfirst, rfl⟩ := mem_groupsOf.1 hgroup
  refine ⟨filter_sublist, ?_, fun a ha b => ?_⟩
  · exact ne_nil_of_mem (mem_filter.2 ⟨hfirst, decide_eq_true rfl⟩)
  · obtain ⟨hnode, hkey⟩ := mem_filter.1 ha
    rw [mem_filter, ← of_decide_eq_true hkey, decide_eq_true_iff]
    constructor
    · rintro ⟨hb, hkeys⟩
      exact (h.same a hnode b hb).1 hkeys.symm
    · intro hab
      have hb := h.mem_nodes hnode hab
      exact ⟨hb, ((h.same a hnode b hb).2 hab).symm⟩

omit [DecidableEq α] in
theorem exists_group (membership : α → Option ℕ) (ha : a ∈ graph.nodes) :
    ∃ group ∈ groupsOf membership graph.nodes, a ∈ group :=
  ⟨_, mem_groupsOf.2 ⟨a, ha, rfl⟩, mem_filter.2 ⟨ha, decide_eq_true rfl⟩⟩

omit [DecidableEq α] in
theorem connects (h : Classified graph membership componentIndex) {b : α} (ha : a ∈ graph.nodes) :
    (∃ group ∈ groupsOf membership graph.nodes, a ∈ group ∧ b ∈ group) ↔
      Strong graph.Edge a b := by
  constructor
  · rintro ⟨group, hgroup, hamem, hbmem⟩
    exact ((h.group hgroup).2.2 a hamem b).1 hbmem
  · intro hab
    obtain ⟨group, hgroup, hamem⟩ := exists_group membership ha
    exact ⟨group, hgroup, hamem, ((h.group hgroup).2.2 a hamem b).2 hab⟩

section

variable (h : Classified graph membership componentIndex)

include h

omit [DecidableEq α] in
theorem position (ha : a ∈ graph.nodes) (i : ℕ) :
    (∃ group, (groupsOf membership graph.nodes)[i]? = some group ∧ a ∈ group) ↔
      componentIndex a = some i := by
  rw [mem_groupsOf_iff ha, h.index a ha, some_inj]

theorem cyclic : component ∈ selectCyclicComponents (groupsOf membership graph.nodes)
        (outgoingIndex graph.edges) ↔
      component ∈ groupsOf membership graph.nodes ∧
        ∃ path, ClosedPath graph.Edge path ∧ ∀ id ∈ path, id ∈ component := by
  rw [selectCyclicComponents, mem_filter]
  refine and_congr_right fun hmem => ?_
  obtain ⟨hsublist, hne, hstrong⟩ := h.group hmem
  exact componentCyclic_iff hne (hsublist.nodup h.nodup) hstrong

theorem acyclic :
    selectCyclicComponents (groupsOf membership graph.nodes) (outgoingIndex graph.edges) = [] ↔
      graphCyclePath graph.nodes graph.edges = none := by
  rw [graphCyclePath_eq_none, eq_nil_iff_forall_not_mem]
  constructor
  · intro hnone first hfirst id hpath hcycle
    have hid : id ∈ graph.nodes :=
      mem_of_reflTransGen (S := (· ∈ graph.nodes)) (fun a b _ hedge => (h.declared a b hedge).2)
        hfirst hpath
    obtain ⟨group, hgroup, hmem⟩ := exists_group membership hid
    exact hnone group (h.cyclic.2
      ⟨hgroup, exists_closedPath hcycle ((h.group hgroup).2.2 id hmem)⟩)
  · intro hnone group hgroup
    obtain ⟨hmem, path, hclosed, hpath⟩ := h.cyclic.1 hgroup
    obtain ⟨id, inner, rfl⟩ := hclosed.closed
    have hid := (h.group hmem).1.mem (hpath id mem_cons_self)
    exact hnone id hid id .refl hclosed.transGen

end

omit [DecidableEq α] in
theorem descends (h : Classified graph membership componentIndex) {edges : List (ℕ × ℕ)}
    (hedges : ∀ i j, (i, j) ∈ edges → i ≠ j ∧ ∃ edge ∈ graph.edges,
      componentIndex edge.1 = some i ∧ componentIndex edge.2 = some j) (i : ℕ) :
    ¬Relation.TransGen (fun i j => (i, j) ∈ edges) i i := by
  intro hcycle
  have hindex : ∀ a b, a ∈ graph.nodes → b ∈ graph.nodes →
      (componentIndex a = componentIndex b ↔ Strong graph.Edge a b) := by
    intro a b ha hb
    rw [h.index a ha, h.index b hb, some_inj, idxOf_inj (mem_rawOrder ha)]
    exact h.same a ha b hb
  refine quotient_acyclic (R := graph.Edge) h.declared hindex (some i)
    (hcycle.lift some fun i j hedge => ?_)
  obtain ⟨hne, edge, hmem, hsource, htarget⟩ := hedges i j hedge
  exact ⟨fun heq => hne (some.inj heq), edge.1, edge.2, hmem, hsource, htarget⟩

end Classified

/-- **Loop analysis is right** for a graph with distinct ids whose edges join declared
nodes. -/
theorem loop_analysis_right (graph : PooFlowGraph α) (hdistinct : graph.nodes.Nodup)
    (hdeclared : ∀ source target, graph.Edge source target →
      source ∈ graph.nodes ∧ target ∈ graph.nodes) :
    ∃ analysis, pooFlowGraphLoopAnalysisReceipt graph = some analysis ∧
      LoopsAnalysed graph analysis := by
  obtain ⟨hnodup, hall, hstrong⟩ := graphStrongComponents_spec
    (N := outgoingNetwork graph.edges graph.nodes) fun id (hid : id ∈ graph.nodes) =>
      mem_append_left _ hid
  rw [outgoingNetwork_leads graph graph.nodes] at hstrong
  -- the groups of the nodes are the components that were found, in order
  obtain ⟨hgroups, hindex⟩ := orderComponents_eq graph.nodes
    (graphStrongComponents (outgoingNetwork graph.edges graph.nodes) graph.nodes)
  have hclassified : Classified graph _ _ := ⟨hdistinct, hdeclared, fun a ha b hb =>
    componentsMembership_eq_iff hnodup hstrong (hall a ha) (hall b hb), hindex⟩
  obtain ⟨edges, hedges, hedgesNodup, hmem⟩ := graphCondensationEdges_spec
    fun edge (hedge : edge ∈ graph.edges) =>
      ⟨_, _, hindex _ (hdeclared edge.1 edge.2 hedge).1, hindex _ (hdeclared edge.1 edge.2 hedge).2⟩
  rw [pooFlowGraphLoopAnalysisReceipt]
  simp only [hgroups, hedges]
  refine ⟨_, rfl, ?_⟩
  constructor
  · exact ⟨perm_flatten_groupsOf hdistinct, fun hnil => (hclassified.group hnil).2.1 rfl⟩
  · exact fun a ha b _ => hclassified.connects ha
  · refine ⟨?_, fun group hgroup => (hclassified.group hgroup).1⟩
    rw [heads_groupsOf]
    exact firstOfKey_sublist _ graph.nodes
  · exact fun component => hclassified.cyclic
  · exact hclassified.acyclic
  · intro i j
    refine (hmem i j).trans (and_congr_right fun _ => ?_)
    constructor
    · rintro ⟨edge, hedge, hsource, htarget⟩
      obtain ⟨hnode, hnode'⟩ := hdeclared edge.1 edge.2 hedge
      exact ⟨edge.1, edge.2, hedge, (hclassified.position hnode i).2 hsource,
        (hclassified.position hnode' j).2 htarget⟩
    · rintro ⟨a, b, hedge, hsource, htarget⟩
      obtain ⟨hnode, hnode'⟩ := hdeclared a b hedge
      exact ⟨(a, b), hedge, (hclassified.position hnode i).1 hsource,
        (hclassified.position hnode' j).1 htarget⟩
  · exact hedgesNodup
  · exact hclassified.descends fun i j hedge => (hmem i j).1 hedge

theorem loop_analysis_right_chain : ∃ analysis, pooFlowGraphLoopAnalysisReceipt
        (⟨0, [3, 1, 2], [(1, 2), (2, 1), (2, 3)]⟩ : PooFlowGraph ℕ) = some analysis ∧
      LoopsAnalysed ⟨0, [3, 1, 2], [(1, 2), (2, 1), (2, 3)]⟩ analysis :=
  loop_analysis_right ⟨0, [3, 1, 2], [(1, 2), (2, 1), (2, 3)]⟩ (by decide) (by
    intro source target hedge
    simp only [PooFlowGraph.Edge, mem_cons, Prod.mk.injEq, not_mem_nil, or_false] at hedge
    obtain ⟨rfl, rfl⟩ | ⟨rfl, rfl⟩ | ⟨rfl, rfl⟩ := hedge <;> decide)

end PooFlow.Analysis
