import Mathlib.Data.Finset.Card
import Mathlib.Tactic.Linarith
import PooFlow.Analysis.Cycles
import PooFlow.Foundation.Strong

/-! The elimination of ids without incoming edges in `graph/algorithms.ss`. -/

namespace PooFlow.Analysis

open Foundation List Function Option

variable {α : Type*} [DecidableEq α]

/-- `graph-indegrees`: the keys are the ids of the nodes. -/
def graphIndegrees (nodeIds : List α) (edgePairs : List (α × α)) : α → ℤ :=
  edgePairs.foldl (fun indegrees edgePair =>
    if edgePair.2 ∈ nodeIds then
      Function.update indegrees edgePair.2 (1 + indegrees edgePair.2)
    else indegrees) (fun _ => 0)

def topologicalEnqueueTargets (nodeIds : List α) : List α → (α → ℤ) → List α → (α → ℤ) × List α
  | [], indegrees, pending => (indegrees, pending)
  | target :: targets, indegrees, pending =>
    if target ∈ nodeIds then
      let nextIndegree := indegrees target - 1
      topologicalEnqueueTargets nodeIds targets (Function.update indegrees target nextIndegree)
        (if nextIndegree = 0 then pending ++ [target] else pending)
    else topologicalEnqueueTargets nodeIds targets indegrees pending

variable {id : α}

theorem topologicalEnqueueTargets_indegrees {nodeIds : List α} (hid : id ∈ nodeIds)
    (targets : List α) (indegrees : α → ℤ) (pending : List α) :
    (topologicalEnqueueTargets nodeIds targets indegrees pending).1 id =
      indegrees id - targets.count id := by
  induction targets generalizing indegrees pending with
  | nil => simp [topologicalEnqueueTargets]
  | cons target targets ih =>
    rw [topologicalEnqueueTargets]
    by_cases htarget : target ∈ nodeIds
    · rw [if_pos htarget, ih]
      by_cases hsame : id = target
      · subst hsame
        simp only [update_self, count_cons_self]
        omega
      · rw [update_of_ne hsame, count_cons_of_ne (Ne.symm hsame)]
    · rw [if_neg htarget, ih, count_cons_of_ne]
      rintro rfl
      exact htarget hid

variable (nodeIds targets : List α) (indegrees : α → ℤ) (pending : List α)

/-- **One round.** The nodes whose indegree ceases to be positive are enqueued, once each. -/
theorem topologicalEnqueueTargets_enqueued :
    ∃ enqueued, (topologicalEnqueueTargets nodeIds targets indegrees pending).2 =
        pending ++ enqueued ∧ enqueued.Nodup ∧
      ∀ id, id ∈ enqueued ↔ id ∈ nodeIds ∧ 0 < indegrees id ∧
        indegrees id - targets.count id ≤ 0 := by
  induction targets generalizing indegrees pending with
  | nil =>
    refine ⟨[], by simp [topologicalEnqueueTargets], nodup_nil, fun id => ?_⟩
    simp only [not_mem_nil, count_nil, false_iff]
    omega
  | cons target targets ih =>
    rw [topologicalEnqueueTargets]
    by_cases htarget : target ∈ nodeIds
    · rw [if_pos htarget]
      dsimp only
      obtain ⟨enqueued, hpending, hnodup, hmem⟩ := ih
        (update indegrees target (indegrees target - 1))
        (if indegrees target - 1 = 0 then pending ++ [target] else pending)
      by_cases hlast : indegrees target - 1 = 0
      · -- the last edge into the target was counted: it is enqueued now, and not again
        refine ⟨target :: enqueued, ?_, ?_, ?_⟩
        · rw [if_pos hlast] at hpending ⊢
          rw [hpending, append_assoc]
          rfl
        · refine nodup_cons.2 ⟨fun hagain => ?_, hnodup⟩
          have hpositive := ((hmem target).1 hagain).2.1
          rw [update_self] at hpositive
          omega
        · intro id
          rw [mem_cons, hmem]
          by_cases hsame : id = target
          · subst hsame
            rw [count_cons_self]
            simp only [true_or, true_iff]
            exact ⟨htarget, by omega, by omega⟩
          · rw [update_of_ne hsame, count_cons_of_ne (Ne.symm hsame)]
            exact or_iff_right hsame
      · -- edges into the target are left, or it was enqueued before
        refine ⟨enqueued, ?_, hnodup, ?_⟩
        · rw [if_neg hlast] at hpending ⊢
          exact hpending
        · intro id
          rw [hmem]
          by_cases hsame : id = target
          · subst hsame
            rw [update_self, count_cons_self]
            refine and_congr_right fun _ => ?_
            omega
          · rw [update_of_ne hsame, count_cons_of_ne (Ne.symm hsame)]
    · rw [if_neg htarget]
      obtain ⟨enqueued, hpending, hnodup, hmem⟩ := ih indegrees pending
      refine ⟨enqueued, hpending, hnodup, fun id => ?_⟩
      rw [hmem]
      refine and_congr_right fun hid => ?_
      rw [count_cons_of_ne]
      rintro rfl
      exact htarget hid

def waiting (nodeIds : List α) (indegrees : α → ℤ) : Finset α :=
  nodeIds.toFinset.filter fun id => 0 < indegrees id

theorem card_waiting :
    (waiting nodeIds (topologicalEnqueueTargets nodeIds targets indegrees pending).1).card +
        (topologicalEnqueueTargets nodeIds targets indegrees pending).2.length =
      (waiting nodeIds indegrees).card + pending.length := by
  obtain ⟨enqueued, hpending, hnodup, hmem⟩ :=
    topologicalEnqueueTargets_enqueued nodeIds targets indegrees pending
  have hsplit : waiting nodeIds indegrees =
      waiting nodeIds (topologicalEnqueueTargets nodeIds targets indegrees pending).1 ∪
        enqueued.toFinset := by
    ext id
    simp only [waiting, Finset.mem_union, Finset.mem_filter, List.mem_toFinset, hmem, ← and_or_left]
    refine and_congr_right fun hid => ?_
    rw [topologicalEnqueueTargets_indegrees hid]
    omega
  -- an id that waits still has a positive indegree, an id that was enqueued has not
  have hdisjoint : Disjoint
      (waiting nodeIds (topologicalEnqueueTargets nodeIds targets indegrees pending).1)
      enqueued.toFinset := by
    rw [Finset.disjoint_left]
    intro id hwaiting henqueued
    obtain ⟨hid, _, hdone⟩ := (hmem id).1 (mem_toFinset.1 henqueued)
    have hpositive := (Finset.mem_filter.1 hwaiting).2
    rw [topologicalEnqueueTargets_indegrees hid] at hpositive
    omega
  rw [hsplit, Finset.card_union_of_disjoint hdisjoint, toFinset_card_of_nodup hnodup, hpending,
    length_append]
  omega

section

variable (nodeIds : List α) (outgoing : α → List α)

/-- The loop of `topological-order/indexed`. -/
def topologicalLoop (indegrees : α → ℤ) (pending orderRev : List α) (visitedCount : ℕ) :
    Option (List α) :=
  match pending with
  | [] => if visitedCount = nodeIds.length then some orderRev.reverse else none
  | id :: pending =>
    let round := topologicalEnqueueTargets nodeIds (outgoing id) indegrees pending
    topologicalLoop round.1 round.2 (id :: orderRev) (visitedCount + 1)
termination_by (waiting nodeIds indegrees).card + pending.length
decreasing_by
  rw [card_waiting]
  exact Nat.lt_succ_self _

end

/-- `topological-order/indexed`. -/
def topologicalOrder (nodeIds : List α) (edgePairs : List (α × α)) (outgoing : α → List α) :
    Option (List α) :=
  let indegrees := graphIndegrees nodeIds edgePairs
  let readyIds := nodeIds.filter fun id => indegrees id = 0
  topologicalLoop nodeIds outgoing indegrees readyIds [] 0

theorem graphIndegrees_eq {nodeIds : List α} (hid : id ∈ nodeIds) (edgePairs : List (α × α)) :
    graphIndegrees nodeIds edgePairs id = edgePairs.countP fun edgePair => edgePair.2 = id := by
  have hfold : ∀ indegrees : α → ℤ, edgePairs.foldl (fun indegrees edgePair =>
        if edgePair.2 ∈ nodeIds then
          update indegrees edgePair.2 (1 + indegrees edgePair.2)
        else indegrees) indegrees id =
      indegrees id + edgePairs.countP fun edgePair => edgePair.2 = id := by
    induction edgePairs with
    | nil => simp
    | cons edgePair edgePairs ih =>
      intro indegrees
      rw [foldl_cons, ih, countP_cons]
      by_cases hsame : edgePair.2 = id
      · subst hsame
        simp only [if_pos hid, update_self, decide_true, if_true]
        omega
      · split
        · rw [update_of_ne (Ne.symm hsame)]
          simp [hsame]
        · simp [hsame]
  rw [graphIndegrees, hfold, zero_add]

/-- **The rule of the loop**: what each round preserves holds at its end. -/
theorem topologicalLoop_ends (nodeIds : List α) (outgoing : α → List α)
    (motive : List α → List α → (α → ℤ) → Prop)
    (hround : ∀ id pending orderRev indegrees, motive orderRev (id :: pending) indegrees →
      motive (id :: orderRev)
        (topologicalEnqueueTargets nodeIds (outgoing id) indegrees pending).2
        (topologicalEnqueueTargets nodeIds (outgoing id) indegrees pending).1)
    (indegrees : α → ℤ) (pending orderRev : List α) (h : motive orderRev pending indegrees) :
    ∃ order indegrees', motive order [] indegrees' ∧
      topologicalLoop nodeIds outgoing indegrees pending orderRev orderRev.length =
        if order.length = nodeIds.length then some order.reverse else none := by
  generalize hcount : orderRev.length = visitedCount
  induction indegrees, pending, orderRev, visitedCount using
    topologicalLoop.induct nodeIds outgoing with
  | case1 indegrees orderRev =>
    refine ⟨orderRev, indegrees, h, ?_⟩
    rw [topologicalLoop, hcount]
  | case2 indegrees orderRev visitedCount hshort =>
    refine ⟨orderRev, indegrees, h, ?_⟩
    rw [topologicalLoop, hcount]
  | case3 indegrees orderRev visitedCount id pending round ih =>
    rw [topologicalLoop]
    exact ih (hround id pending orderRev indegrees h) (congrArg (· + 1) hcount)

/-- The state of the elimination: the indegrees count the edges from ids that are
not in the order, and the ids without such edges are in the order or pending. -/
structure Eliminates (nodeIds : List α) (edgePairs : List (α × α)) (orderRev pending : List α)
    (indegrees : α → ℤ) : Prop where
  degree : ∀ id ∈ nodeIds, indegrees id = (edgePairs.countP fun edgePair => edgePair.2 = id) -
    (orderRev.flatMap (outgoingIndex edgePairs)).count id
  multiplicity : ∀ id, (orderRev ++ pending).count id ≤ nodeIds.count id
  enqueued : ∀ id ∈ nodeIds, id ∈ orderRev ++ pending ↔ indegrees id ≤ 0

variable {nodeIds : List α} {edgePairs : List (α × α)} {orderRev pending : List α}
  {indegrees : α → ℤ}

theorem Eliminates.declared (h : Eliminates nodeIds edgePairs orderRev pending indegrees)
    (hid : id ∈ orderRev ++ pending) : id ∈ nodeIds :=
  count_pos_iff.1 (lt_of_lt_of_le (count_pos_iff.2 hid) (h.multiplicity id))

theorem Eliminates.initial (nodeIds : List α) (edgePairs : List (α × α)) :
    Eliminates nodeIds edgePairs []
      (nodeIds.filter fun id => graphIndegrees nodeIds edgePairs id = 0)
      (graphIndegrees nodeIds edgePairs) where
  degree id hid := by simp [graphIndegrees_eq hid]
  multiplicity id := filter_sublist.count_le id
  enqueued id hid := by
    have hnonneg : 0 ≤ graphIndegrees nodeIds edgePairs id := by
      rw [graphIndegrees_eq hid]
      exact Int.natCast_nonneg _
    simp only [nil_append, mem_filter, decide_eq_true_eq, hid, true_and]
    omega

theorem Eliminates.round (h : Eliminates nodeIds edgePairs orderRev (id :: pending) indegrees) :
    Eliminates nodeIds edgePairs (id :: orderRev)
      (topologicalEnqueueTargets nodeIds (outgoingIndex edgePairs id) indegrees pending).2
      (topologicalEnqueueTargets nodeIds (outgoingIndex edgePairs id) indegrees pending).1 := by
  obtain ⟨new, hpending, hnodup, hnew⟩ :=
    topologicalEnqueueTargets_enqueued nodeIds (outgoingIndex edgePairs id) indegrees pending
  rw [hpending]
  have hperm : (id :: orderRev ++ (pending ++ new)).Perm (orderRev ++ id :: pending ++ new) := by
    rw [append_assoc, cons_append, cons_append]
    exact perm_middle.symm
  refine ⟨?_, ?_, ?_⟩
  · intro other hother
    rw [topologicalEnqueueTargets_indegrees hother, h.degree other hother, flatMap_cons,
      count_append]
    push_cast
    omega
  · intro other
    rw [hperm.count_eq, count_append]
    by_cases hmem : other ∈ new
    -- an id is enqueued when its indegree is gone, which happens once
    · obtain ⟨hother, hpositive, _⟩ := (hnew other).1 hmem
      have hfresh : other ∉ orderRev ++ id :: pending := fun hagain => by
        have := (h.enqueued other hother).1 hagain
        omega
      rw [count_eq_zero_of_not_mem hfresh, zero_add]
      exact le_trans (nodup_iff_count_le_one.1 hnodup other) (count_pos_iff.2 hother)
    · rw [count_eq_zero_of_not_mem hmem, add_zero]
      exact h.multiplicity other
  · intro other hother
    rw [hperm.mem_iff, mem_append, h.enqueued other hother, hnew,
      topologicalEnqueueTargets_indegrees hother]
    constructor
    · rintro (hdone | ⟨_, _, hdone⟩)
      · omega
      · exact hdone
    · intro hdone
      by_cases hbefore : indegrees other ≤ 0
      · exact .inl hbefore
      · exact .inr ⟨hother, not_le.1 hbefore, hdone⟩

/-- **What an order holds**: the ids of the nodes. -/
theorem topologicalOrder_perm {order : List α}
    (h : topologicalOrder nodeIds edgePairs (outgoingIndex edgePairs) = some order) :
    order.Perm nodeIds := by
  obtain ⟨orderRev, indegrees, hends, hloop⟩ := topologicalLoop_ends nodeIds
    (outgoingIndex edgePairs) (Eliminates nodeIds edgePairs)
    (fun _ _ _ _ hround => hround.round) _ _ [] (Eliminates.initial nodeIds edgePairs)
  rw [topologicalOrder] at h
  obtain ⟨hlength, hsome⟩ := ite_none_right_eq_some.1 (hloop.symm.trans h)
  obtain rfl := some.inj hsome
  refine (reverse_perm orderRev).trans ?_
  have hsubperm : orderRev.Subperm nodeIds := subperm_ext_iff.2 fun id _ => by
    simpa using hends.multiplicity id
  exact hsubperm.perm_of_length_le hlength.ge

/-- Edges to an id from listed sources: those that the listed ids take away. -/
theorem count_flatMap_outgoing (hnodup : orderRev.Nodup) (id : α) :
    (orderRev.flatMap (outgoingIndex edgePairs)).count id =
      edgePairs.countP fun edgePair => edgePair.2 = id ∧ edgePair.1 ∈ orderRev := by
  induction orderRev with
  | nil => simp
  | cons source orderRev ih =>
    obtain ⟨hfresh, hnodup⟩ := nodup_cons.1 hnodup
    have hsource : (outgoingIndex edgePairs source).count id =
        edgePairs.countP fun edgePair => edgePair = (source, id) := by
      rw [outgoingIndex, collect_eq, count_reverse, List.count, countP_map,
        countP_filter, countP_reverse]
      refine countP_congr fun edgePair _ => ?_
      simp [Prod.ext_iff, and_comm]
    rw [flatMap_cons, count_append, hsource, ih hnodup]
    clear ih hsource
    induction edgePairs with
    | nil => rfl
    | cons edgePair edgePairs ih =>
      simp only [countP_cons, mem_cons, decide_eq_true_eq, Prod.ext_iff] at ih ⊢
      by_cases hsame : edgePair.1 = source
      · subst hsame
        simp only [hfresh, true_and, true_or, and_true, and_false, if_false] at ih ⊢
        omega
      · simp only [hsame, false_and, false_or, if_false] at ih ⊢
        omega

theorem forall_of_countP_le {β : Type*} {p q : β → Prop} [DecidablePred p] [DecidablePred q]
    {items : List β} (h : items.countP (p ·) ≤ items.countP fun item => p item ∧ q item) :
    ∀ item ∈ items, p item → q item := by
  intro item hitem hp
  by_contra hq
  refine h.not_gt (countP_lt_of_imp (fun other hboth => ?_) hitem (decide_eq_true hp)
    (decide_eq_false fun hboth => hq hboth.2))
  exact decide_eq_true (of_decide_eq_true hboth).1

theorem Eliminates.sources (h : Eliminates nodeIds edgePairs orderRev pending indegrees)
    (hdistinct : nodeIds.Nodup) {source target : α} (hedge : (source, target) ∈ edgePairs)
    (htarget : target ∈ orderRev ++ pending) : source ∈ orderRev := by
  have hlisted : (orderRev ++ pending).Nodup := nodup_iff_count_le_one.2 fun id =>
    le_trans (h.multiplicity id) (nodup_iff_count_le_one.1 hdistinct id)
  have hdone := (h.enqueued target (h.declared htarget)).1 htarget
  rw [h.degree target (h.declared htarget),
    count_flatMap_outgoing (nodup_append.1 hlisted).1] at hdone
  exact forall_of_countP_le (p := fun edgePair : α × α => edgePair.2 = target)
    (q := fun edgePair => edgePair.1 ∈ orderRev) (by omega) _ hedge rfl

def Follows (edgePairs : List (α × α)) (order : List α) : Prop :=
  ∀ source target, (source, target) ∈ edgePairs → target ∈ order →
    order.idxOf source < order.idxOf target

theorem Eliminates.follows (h : Eliminates nodeIds edgePairs orderRev (id :: pending) indegrees)
    (hdistinct : nodeIds.Nodup) (hfollows : Follows edgePairs orderRev.reverse) :
    Follows edgePairs (id :: orderRev).reverse := by
  have hlisted : (orderRev ++ id :: pending).Nodup := nodup_iff_count_le_one.2 fun other =>
    le_trans (h.multiplicity other) (nodup_iff_count_le_one.1 hdistinct other)
  have hfresh : id ∉ orderRev.reverse := fun hmem =>
    (nodup_append.1 hlisted).2.2 id (mem_reverse.1 hmem) id mem_cons_self rfl
  rw [reverse_cons]
  intro source target hedge htarget
  have hsource : source ∈ orderRev.reverse := by
    refine mem_reverse.2 (h.sources hdistinct hedge ?_)
    rcases mem_append.1 htarget with hmem | hmem
    · exact mem_append_left _ (mem_reverse.1 hmem)
    · obtain rfl := mem_singleton.1 hmem
      exact mem_append_right _ mem_cons_self
  rw [idxOf_append_of_mem hsource]
  by_cases hknown : target ∈ orderRev.reverse
  · rw [idxOf_append_of_mem hknown]
    exact hfollows source target hedge hknown
  · rw [idxOf_append_of_notMem hknown]
    exact Nat.lt_add_right _ (idxOf_lt_length_of_mem hsource)

theorem topologicalOrder_ends (edgePairs : List (α × α)) (hdistinct : nodeIds.Nodup) :
    ∃ orderRev indegrees, Eliminates nodeIds edgePairs orderRev [] indegrees ∧
      Follows edgePairs orderRev.reverse ∧
      topologicalOrder nodeIds edgePairs (outgoingIndex edgePairs) =
        if orderRev.length = nodeIds.length then some orderRev.reverse else none := by
  obtain ⟨orderRev, indegrees, ⟨hends, hfollows⟩, hloop⟩ := topologicalLoop_ends nodeIds
    (outgoingIndex edgePairs)
    (fun orderRev pending indegrees =>
      Eliminates nodeIds edgePairs orderRev pending indegrees ∧ Follows edgePairs orderRev.reverse)
    (fun _ _ _ _ hround => ⟨hround.1.round, hround.1.follows hdistinct hround.2⟩) _ _ []
    ⟨Eliminates.initial nodeIds edgePairs, by simp [Follows]⟩
  exact ⟨orderRev, indegrees, hends, hfollows, hloop⟩

/-- **An order of distinct ids follows the edges.** -/
theorem topologicalOrder_follows {order : List α} (hdistinct : nodeIds.Nodup)
    (h : topologicalOrder nodeIds edgePairs (outgoingIndex edgePairs) = some order) :
    Follows edgePairs order ∧
      ∀ source target, (source, target) ∈ edgePairs → target ∈ nodeIds → source ∈ nodeIds := by
  obtain ⟨orderRev, indegrees, hends, hfollows, hloop⟩ := topologicalOrder_ends edgePairs hdistinct
  obtain ⟨_, hsome⟩ := ite_none_right_eq_some.1 (hloop.symm.trans h)
  obtain rfl := some.inj hsome
  refine ⟨hfollows, fun source target hedge htarget => ?_⟩
  have hlisted : target ∈ orderRev.reverse := (topologicalOrder_perm h).mem_iff.2 htarget
  rw [mem_reverse] at hlisted
  exact hends.declared (mem_append_left _
    (hends.sources hdistinct hedge (mem_append_left _ hlisted)))

/-- **There is an order** of distinct ids when the ids descend in some list and
no edge leads from another id to them. -/
theorem topologicalOrder_isSome {ids visited : List α} (hdistinct : nodeIds.Nodup)
    (hdescends : Descends (outgoingNetwork edgePairs ids) visited) (hvisited : nodeIds ⊆ visited)
    (hdeclared : ∀ source target, (source, target) ∈ edgePairs → target ∈ nodeIds →
      source ∈ nodeIds) :
    (topologicalOrder nodeIds edgePairs (outgoingIndex edgePairs)).isSome = true := by
  obtain ⟨orderRev, indegrees, hends, _, hloop⟩ := topologicalOrder_ends edgePairs hdistinct
  have hlistedNodup : orderRev.Nodup := nodup_iff_count_le_one.2 fun id => by
    simpa using le_trans (hends.multiplicity id) (nodup_iff_count_le_one.1 hdistinct id)
  -- an id that is not listed has a source that is not listed, and which was visited later
  have hall : ∀ rank, ∀ id ∈ nodeIds, visited.length - visited.idxOf id ≤ rank → id ∈ orderRev := by
    intro rank
    induction rank with
    | zero =>
      intro id hid hrank
      have := idxOf_lt_length_of_mem (hvisited hid)
      omega
    | succ rank ih =>
      intro id hid hrank
      by_contra hleft
      have hwaiting : ¬indegrees id ≤ 0 := fun hdone =>
        hleft (by simpa using (hends.enqueued id hid).2 hdone)
      rw [hends.degree id hid, count_flatMap_outgoing hlistedNodup] at hwaiting
      obtain ⟨source, hedge, hsource⟩ : ∃ source, (source, id) ∈ edgePairs ∧
          source ∉ orderRev := by
        by_contra hnone
        push Not at hnone
        apply hwaiting
        rw [countP_congr (q := fun edgePair : α × α => edgePair.2 = id ∧ edgePair.1 ∈ orderRev)
          fun edgePair hmem => ?_]
        · omega
        · obtain ⟨source, target⟩ := edgePair
          simp only [decide_eq_true_eq]
          constructor
          · rintro rfl
            exact ⟨rfl, hnone source hmem⟩
          · exact fun hboth => hboth.1
      have hknown := hdeclared source id hedge hid
      have hlater : visited.idxOf id < visited.idxOf source :=
        hdescends source (hvisited hknown) id (mem_outgoingIndex.2 hedge)
      exact hsource (ih source hknown (by omega))
  have hsubset : nodeIds ⊆ orderRev := fun id hid => hall _ id hid le_rfl
  have hperm : orderRev.Perm nodeIds := (perm_ext_iff_of_nodup hlistedNodup hdistinct).2
    fun id => ⟨fun hid => hends.declared (mem_append_left _ hid), fun hid => hsubset hid⟩
  rw [hloop, if_pos hperm.length_eq]
  rfl

end PooFlow.Analysis
