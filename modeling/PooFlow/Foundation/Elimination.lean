import Mathlib.Data.Fintype.EquivFin
import Mathlib.Data.List.Lex
import Mathlib.Order.WellFounded

namespace PooFlow.Foundation

open List Relation

structure Precedence (α : Type*) where
  vertices : List α
  successors : α → List α
  distinct : vertices.Nodup
  successors_distinct : ∀ a, (successors a).Nodup
  closed : ∀ a b, b ∈ successors a → a ∈ vertices ∧ b ∈ vertices

namespace Precedence

variable {α : Type*} (P : Precedence α)

/-- One vertex comes before another. -/
def Leads (a b : α) : Prop := b ∈ P.successors a

def Acyclic : Prop := ∀ a, ¬Relation.TransGen P.Leads a a

/-- A vertex that can be removed after some others. -/
structure Available (done : List α) (a : α) : Prop where
  vertex : a ∈ P.vertices
  fresh : a ∉ done
  ready : ∀ b, P.Leads b a → b ∈ done

/-- After some vertices, the others follow in an order of the precedence. -/
def Orders : List α → List α → Prop
  | _, [] => True
  | done, a :: rest => P.Available done a ∧ Orders (done ++ [a]) rest

/-- An order that takes the least available vertex at each step. -/
def Greedy [LE α] : List α → List α → Prop
  | _, [] => True
  | done, a :: rest => P.Available done a ∧ (∀ b, P.Available done b → a ≤ b) ∧
      Greedy (done ++ [a]) rest

section

variable {P} {done order other : List α} {a : α}

theorem Greedy.append [LE α] (h : P.Greedy done order) (ha : P.Available (done ++ order) a)
    (hleast : ∀ b, P.Available (done ++ order) b → a ≤ b) : P.Greedy done (order ++ [a]) := by
  induction order generalizing done with
  | nil =>
    rw [append_nil] at ha hleast
    exact ⟨ha, hleast, trivial⟩
  | cons b order ih =>
    exact ⟨h.1, h.2.1, ih h.2.2 (by rwa [append_assoc]) (by rwa [append_assoc])⟩

theorem Greedy.orders [LE α] (h : P.Greedy done order) : P.Orders done order := by
  induction order generalizing done with
  | nil => trivial
  | cons a order ih => exact ⟨h.1, ih h.2.2⟩

theorem Orders.vertex (h : P.Orders done order) (ha : a ∈ order) : a ∈ P.vertices := by
  induction order generalizing done with
  | nil => cases ha
  | cons b order ih =>
    rcases mem_cons.1 ha with rfl | ha
    · exact h.1.vertex
    · exact ih h.2 ha

theorem Orders.mem_of_leads (h : P.Orders done order) {b : α} (hb : b ∈ order)
    (hleads : P.Leads a b) : a ∈ done ++ order := by
  induction order generalizing done with
  | nil => cases hb
  | cons c order ih =>
    rcases mem_cons.1 hb with rfl | hb
    · exact mem_append_left _ (h.1.ready a hleads)
    · have hmem := ih h.2 hb
      rwa [append_assoc] at hmem

theorem Orders.nodup (h : P.Orders done order) (hdone : done.Nodup) : (done ++ order).Nodup := by
  induction order generalizing done with
  | nil => rwa [append_nil]
  | cons a order ih =>
    have hnext := ih h.2 (nodup_append.2 ⟨hdone, nodup_singleton a,
      fun b hb c hc heq => h.1.fresh (mem_singleton.1 hc ▸ heq ▸ hb)⟩)
    rwa [append_assoc] at hnext

theorem Orders.length_le (h : P.Orders [] order) : order.length ≤ P.vertices.length :=
  ((h.nodup nodup_nil).subperm fun _ ha => h.vertex ha).length_le

theorem Orders.perm (h : P.Orders [] order) (hlength : P.vertices.length ≤ order.length) :
    order.Perm P.vertices :=
  ((h.nodup nodup_nil).subperm fun _ ha => h.vertex ha).perm_of_length_le hlength

theorem Orders.idxOf_lt [DecidableEq α] (h : P.Orders done order) (hdone : done.Nodup) {b : α}
    (hb : b ∈ order) (hleads : P.Leads a b) :
    (done ++ order).idxOf a < (done ++ order).idxOf b := by
  induction order generalizing done with
  | nil => cases hb
  | cons c order ih =>
    have hsplit : done ++ c :: order = (done ++ [c]) ++ order := by
      rw [append_assoc, singleton_append]
    rcases mem_cons.1 hb with rfl | hb
    · have hpred := h.1.ready a hleads
      rw [idxOf_append_of_mem hpred, idxOf_append_of_notMem h.1.fresh]
      exact (idxOf_lt_length_of_mem hpred).trans_le (Nat.le_add_right _ _)
    · rw [hsplit]
      refine ih h.2 (nodup_append.2 ⟨hdone, nodup_singleton c, ?_⟩) hb
      exact fun d hd e he heq => h.1.fresh (mem_singleton.1 he ▸ heq ▸ hd)

theorem orders_of_idxOf [DecidableEq α] (hnodup : (done ++ order).Nodup)
    (hvertices : ∀ a ∈ order, a ∈ P.vertices) (hcomplete : ∀ a ∈ P.vertices, a ∈ done ++ order)
    (hbefore : ∀ a b, b ∈ order → P.Leads a b → (done ++ order).idxOf a < (done ++ order).idxOf b) :
    P.Orders done order := by
  induction order generalizing done with
  | nil => trivial
  | cons c order ih =>
    have hsplit : done ++ c :: order = (done ++ [c]) ++ order := by
      rw [append_assoc, singleton_append]
    have hfresh : c ∉ done := fun hmem =>
      (nodup_append.1 hnodup).2.2 c hmem c mem_cons_self rfl
    refine ⟨⟨hvertices c mem_cons_self, hfresh, fun a hleads => ?_⟩, ?_⟩
    · have hlt := hbefore a c mem_cons_self hleads
      by_contra hnot
      rw [idxOf_append_of_notMem hfresh, idxOf_append_of_notMem hnot, idxOf_cons_self] at hlt
      omega
    · rw [hsplit] at hnodup hcomplete hbefore
      exact ih hnodup (fun a ha => hvertices a (mem_cons_of_mem _ ha)) hcomplete
        fun a b hb hleads => hbefore a b (mem_cons_of_mem _ hb) hleads

/-- **A complete greedy order is the least of the complete orders.** -/
theorem Greedy.le [LinearOrder α] (h : P.Greedy done order) (hother : P.Orders done other)
    (hcomplete : ∀ a ∈ P.vertices, a ∈ done ++ other) : ¬other < order := by
  induction order generalizing done other with
  | nil => exact not_lt_nil other
  | cons a order ih =>
    intro hless
    cases other with
    | nil =>
      have hmem := hcomplete a h.1.vertex
      rw [append_nil] at hmem
      exact h.1.fresh hmem
    | cons b other =>
      rcases cons_lt_cons_iff.1 hless with hlt | ⟨rfl, hlt⟩
      · exact absurd (h.2.1 b hother.1) (not_le.2 hlt)
      · refine ih h.2.2 hother.2 (fun c hc => ?_) hlt
        rw [append_assoc]
        exact hcomplete c hc

theorem acyclic_of_orders [DecidableEq α] (h : P.Orders [] order)
    (hcomplete : ∀ a ∈ P.vertices, a ∈ order) : P.Acyclic := by
  have hstep : ∀ a b, P.Leads a b → order.idxOf a < order.idxOf b := fun a b hleads =>
    h.idxOf_lt nodup_nil (hcomplete b (P.closed a b hleads).2) hleads
  have hpath : ∀ a b, TransGen P.Leads a b → order.idxOf a < order.idxOf b := by
    intro a b hpath
    induction hpath with
    | single hleads => exact hstep _ _ hleads
    | tail _ hleads ih => exact ih.trans (hstep _ _ hleads)
  exact fun a hcycle => lt_irrefl _ (hpath a a hcycle)

theorem exists_available (h : P.Acyclic) {rest : List α} (hne : rest ≠ [])
    (hrest : ∀ a, a ∈ rest ↔ a ∈ P.vertices ∧ a ∉ done) : ∃ a, P.Available done a := by
  classical
  let below : {a // a ∈ rest} → {a // a ∈ rest} → Prop :=
    fun a b => TransGen P.Leads a.1 b.1
  have hirrefl : Std.Irrefl below := ⟨fun a => h a.1⟩
  have htrans : IsTrans _ below := ⟨fun a b c hab hbc => TransGen.trans hab hbc⟩
  have hwf : WellFounded below := Finite.wellFounded_of_trans_of_irrefl below
  obtain ⟨first, hfirst⟩ := exists_mem_of_ne_nil rest hne
  obtain ⟨least, -, hleast⟩ := hwf.has_min Set.univ ⟨⟨first, hfirst⟩, trivial⟩
  obtain ⟨hvertex, hfresh⟩ := (hrest least.1).1 least.2
  refine ⟨least.1, hvertex, hfresh, fun b hleads => ?_⟩
  by_contra hnot
  exact hleast ⟨b, (hrest b).2 ⟨(P.closed b least.1 hleads).1, hnot⟩⟩ trivial (.single hleads)

end

section

variable [LinearOrder α]

def settle : List α → (α → ℤ) → List α → (α → ℤ) × List α
  | [], counts, queue => (counts, queue)
  | a :: rest, counts, queue =>
    let count := counts a - 1
    settle rest (Function.update counts a count)
      (if count = 0 then queue.orderedInsert (· ≤ ·) a else queue)

/-- Remove the head of the queue until it is empty, at most `fuel` times. -/
def eliminate (successors : α → List α) : ℕ → (α → ℤ) → List α → List α → List α
  | 0, _, _, order => order
  | _ + 1, _, [], order => order
  | fuel + 1, counts, a :: queue, order =>
    let settled := settle ((successors a).insertionSort (· ≤ ·)) counts queue
    eliminate successors fuel settled.1 settled.2 (order ++ [a])

theorem settle_spec {rest : List α} (hrest : rest.Nodup) (counts : α → ℤ) {queue : List α}
    (hsorted : queue.Pairwise (· ≤ ·)) :
    (∀ a, (settle rest counts queue).1 a = counts a - if a ∈ rest then 1 else 0) ∧
      (settle rest counts queue).2.Pairwise (· ≤ ·) ∧
      ((settle rest counts queue).2).Perm (queue ++ rest.filter fun a => counts a = 1) := by
  induction rest generalizing counts queue with
  | nil => exact ⟨fun a => by simp [settle], hsorted, by simp [settle]⟩
  | cons a rest ih =>
    obtain ⟨hnot, hrest⟩ := nodup_cons.1 hrest
    have hqueue : (if counts a - 1 = 0 then queue.orderedInsert (· ≤ ·) a else queue).Pairwise
        (· ≤ ·) := by
      split_ifs
      · exact hsorted.orderedInsert a queue
      · exact hsorted
    obtain ⟨hcounts, hsorted', hperm⟩ := ih hrest (Function.update counts a (counts a - 1)) hqueue
    refine ⟨fun b => ?_, hsorted', hperm.trans ?_⟩
    · rw [settle, hcounts]
      by_cases hb : b = a
      · subst hb
        simp [hnot]
      · simp [hb]
    · have hfilter : (rest.filter fun b => Function.update counts a (counts a - 1) b = 1) =
          rest.filter fun b => counts b = 1 := by
        refine filter_congr fun b hb => ?_
        have hne : b ≠ a := fun heq => hnot (heq ▸ hb)
        rw [Function.update_of_ne hne]
      rw [hfilter]
      by_cases hone : counts a = 1
      · rw [if_pos (by omega), filter_cons_of_pos (by simpa using hone)]
        exact ((perm_orderedInsert _ a queue).append_right _).trans perm_middle.symm
      · rw [if_neg (by omega), filter_cons_of_neg (by simpa using hone)]

/-- The state of an elimination: each count is the number of the predecessors that are
left, and the queue holds the available vertices by priority. -/
structure Eliminating (counts : α → ℤ) (queue order : List α) : Prop where
  greedy : P.Greedy [] order
  counts : ∀ a, counts a =
    (P.vertices.filter fun b => b ∉ order ∧ a ∈ P.successors b).length
  sorted : queue.Pairwise (· ≤ ·)
  distinct : queue.Nodup
  queue : ∀ a, a ∈ queue ↔ P.Available order a

variable {P} {counts : α → ℤ} {queue order : List α} {a : α}

theorem length_left_eq_zero {order : List α} {a : α} :
    (P.vertices.filter fun b => b ∉ order ∧ a ∈ P.successors b).length = 0 ↔
      ∀ b, P.Leads b a → b ∈ order := by
  rw [length_eq_zero_iff, filter_eq_nil_iff]
  constructor
  · intro h b hleads
    by_contra hnot
    exact h b (P.closed b a hleads).1 (by simpa using ⟨hnot, hleads⟩)
  · intro h b _ hleft
    simp only [decide_eq_true_eq] at hleft
    exact hleft.1 (h b hleft.2)

/-- One predecessor less. -/
theorem length_left_append {b : α} (ha : P.Available order a) :
    ((P.vertices.filter fun c => c ∉ order ++ [a] ∧ b ∈ P.successors c).length : ℤ) =
      (P.vertices.filter fun c => c ∉ order ∧ b ∈ P.successors c).length -
        if b ∈ P.successors a then 1 else 0 := by
  have hsplit : (P.vertices.filter fun c => c ∉ order ++ [a] ∧ b ∈ P.successors c) =
      (P.vertices.filter fun c => c ∉ order ∧ b ∈ P.successors c).filter (· != a) := by
    rw [filter_filter]
    refine filter_congr fun c _ => ?_
    rw [Bool.eq_iff_iff]
    simp only [mem_append, mem_singleton, not_or, decide_eq_true_eq, Bool.and_eq_true, bne_iff_ne]
    tauto
  have hnodup := P.distinct.filter fun c => decide (c ∉ order ∧ b ∈ P.successors c)
  rw [hsplit, ← hnodup.erase_eq_filter]
  by_cases hmem : b ∈ P.successors a
  · have hlisted : a ∈ P.vertices.filter fun c => c ∉ order ∧ b ∈ P.successors c :=
      mem_filter.2 ⟨ha.vertex, by simpa using ⟨ha.fresh, hmem⟩⟩
    rw [length_erase_of_mem hlisted, if_pos hmem]
    have hpos := length_pos_of_mem hlisted
    omega
  · rw [erase_of_not_mem, if_neg hmem, Int.sub_zero]
    intro hlisted
    exact hmem (of_decide_eq_true (mem_filter.1 hlisted).2).2

/-- **One round**: the head of the queue is removed. -/
theorem Eliminating.round (h : P.Eliminating counts (a :: queue) order) :
    P.Eliminating (settle ((P.successors a).insertionSort (· ≤ ·)) counts queue).1
      (settle ((P.successors a).insertionSort (· ≤ ·)) counts queue).2 (order ++ [a]) := by
  obtain ⟨hleast, hsorted⟩ := pairwise_cons.1 h.sorted
  obtain ⟨hnot, hdistinct⟩ := nodup_cons.1 h.distinct
  have ha : P.Available order a := (h.queue a).1 mem_cons_self
  have hrest : ((P.successors a).insertionSort (· ≤ ·)).Nodup :=
    (perm_insertionSort _ _).nodup_iff.2 (P.successors_distinct a)
  have hmem : ∀ b, b ∈ (P.successors a).insertionSort (· ≤ ·) ↔ P.Leads a b :=
    fun b => (perm_insertionSort _ _).mem_iff
  obtain ⟨hcounts, hsorted', hperm⟩ := settle_spec hrest counts hsorted
  have hleft : ∀ b, (settle ((P.successors a).insertionSort (· ≤ ·)) counts queue).1 b =
      (P.vertices.filter fun c => c ∉ order ++ [a] ∧ b ∈ P.successors c).length := by
    intro b
    rw [hcounts, h.counts, length_left_append ha]
    congr 2
    exact propext (hmem b)
  have hzero : ∀ b, P.Available order b → counts b = 0 := fun b hb => by
    rw [h.counts, Int.natCast_eq_zero]
    exact length_left_eq_zero.2 hb.ready
  have hself : ¬P.Leads a a := fun hleads => ha.fresh (ha.ready a hleads)
  refine ⟨h.greedy.append (by simpa using ha) fun b hb => ?_, hleft, hsorted', ?_, fun b => ?_⟩
  · rcases mem_cons.1 ((h.queue b).2 (by simpa using hb)) with rfl | hb
    · exact le_rfl
    · exact hleast b hb
  · -- what joins the queue had a successor count of one, what waits has none
    rw [hperm.nodup_iff]
    refine nodup_append.2 ⟨hdistinct, hrest.filter _, fun b hb c hc heq => ?_⟩
    have hone := (mem_filter.1 hc).2
    rw [← heq, hzero b ((h.queue b).1 (mem_cons_of_mem _ hb))] at hone
    cases hone
  · rw [hperm.mem_iff, mem_append, mem_filter, hmem, decide_eq_true_eq]
    constructor
    · rintro (hb | ⟨hleads, hone⟩)
      · have hold := (h.queue b).1 (mem_cons_of_mem _ hb)
        refine ⟨hold.vertex, ?_, fun c hc => mem_append_left _ (hold.ready c hc)⟩
        rw [mem_append, mem_singleton]
        rintro (hdone | rfl)
        · exact hold.fresh hdone
        · exact hnot hb
      · refine ⟨(P.closed a b hleads).2, ?_, length_left_eq_zero.1 ?_⟩
        · rw [mem_append, mem_singleton]
          rintro (hdone | rfl)
          · exact ha.fresh (h.greedy.orders.mem_of_leads hdone hleads)
          · exact hself hleads
        · have hcount := hleft b
          rw [hcounts, if_pos ((hmem b).2 hleads), hone] at hcount
          omega
    · intro hb
      -- a vertex becomes available by the removal, or was available before
      by_cases hleads : P.Leads a b
      · refine .inr ⟨hleads, ?_⟩
        have hcount := hleft b
        rw [hcounts, if_pos ((hmem b).2 hleads), length_left_eq_zero.2 hb.ready] at hcount
        push_cast at hcount
        omega
      · refine .inl ?_
        have hfresh : b ∉ order ∧ b ≠ a := by
          have hnone := hb.fresh
          rwa [mem_append, mem_singleton, not_or] at hnone
        have hold : P.Available order b := ⟨hb.vertex, hfresh.1, fun c hc => by
          rcases mem_append.1 (hb.ready c hc) with hc' | hc'
          · exact hc'
          · exact absurd (mem_singleton.1 hc' ▸ hc) hleads⟩
        exact mem_of_ne_of_mem hfresh.2 ((h.queue b).2 hold)

theorem Eliminating.eliminate {fuel : ℕ} (h : P.Eliminating counts queue order)
    (hfuel : P.vertices.length ≤ fuel + order.length) : ∃ counts', P.Eliminating counts' []
      (Precedence.eliminate P.successors fuel counts queue order) := by
  induction fuel generalizing counts queue order with
  | zero =>
    have hperm := h.greedy.orders.perm (by omega)
    have hempty : queue = [] := by
      rw [eq_nil_iff_forall_not_mem]
      intro a ha
      have hnone := (h.queue a).1 ha
      exact hnone.fresh (hperm.mem_iff.2 hnone.vertex)
    exact ⟨counts, hempty ▸ h⟩
  | succ fuel ih =>
    cases queue with
    | nil => exact ⟨counts, h⟩
    | cons a queue => exact ih h.round (by rw [length_append, length_singleton]; omega)

theorem eliminating_initial
    (hcounts : ∀ a, counts a = (P.vertices.filter fun b => a ∈ P.successors b).length) :
    P.Eliminating counts ((P.vertices.filter fun a => counts a = 0).insertionSort (· ≤ ·)) [] where
  greedy := trivial
  counts a := by simp [hcounts]
  sorted := pairwise_insertionSort _ _
  distinct := (perm_insertionSort _ _).nodup_iff.2 (P.distinct.filter _)
  queue a := by
    rw [(perm_insertionSort _ _).mem_iff, mem_filter, decide_eq_true_eq, hcounts]
    have hzero := @length_left_eq_zero α P _ [] a
    simp only [not_mem_nil, not_false_eq_true, true_and] at hzero
    rw [Int.natCast_eq_zero, hzero]
    exact ⟨fun ⟨hvertex, hready⟩ => ⟨hvertex, not_mem_nil,
      fun b hleads => absurd (hready b hleads) id⟩, fun h => ⟨h.vertex,
        fun b hleads => absurd (h.ready b hleads) not_mem_nil⟩⟩

def elimination (P : Precedence α) (counts : α → ℤ) : List α :=
  eliminate P.successors P.vertices.length counts
    ((P.vertices.filter fun a => counts a = 0).insertionSort (· ≤ ·)) []

section

variable (hcounts : ∀ a, counts a = (P.vertices.filter fun b => a ∈ P.successors b).length)

include hcounts

/-- **The elimination is greedy.** -/
theorem greedy_elimination : P.Greedy [] (P.elimination counts) := by
  obtain ⟨counts', hends⟩ := (eliminating_initial hcounts).eliminate (Nat.le_add_right _ 0)
  exact hends.greedy

/-- **It is complete if and only if there is no cycle.** -/
theorem elimination_complete_iff :
    (P.elimination counts).length = P.vertices.length ↔ P.Acyclic := by
  obtain ⟨counts', hends⟩ := (eliminating_initial hcounts).eliminate (Nat.le_add_right _ 0)
  rw [← elimination] at hends
  have horders := hends.greedy.orders
  constructor
  · intro hlength
    have hperm := horders.perm hlength.ge
    exact acyclic_of_orders horders fun a ha => hperm.mem_iff.2 ha
  · intro hacyclic
    refine le_antisymm horders.length_le ?_
    by_contra hless
    have hrest : (P.vertices.filter fun a => a ∉ P.elimination counts) ≠ [] := by
      intro hnil
      refine hless (P.distinct.subperm fun a ha => ?_).length_le
      by_contra hnot
      exact filter_eq_nil_iff.1 hnil a ha (by simpa using hnot)
    obtain ⟨a, ha⟩ : ∃ a, P.Available (P.elimination counts) a :=
      exists_available hacyclic hrest fun a => by simp [mem_filter]
    exact absurd ((hends.queue a).2 ha) not_mem_nil

end

end

end Precedence

section

variable {α : Type*} [DecidableEq α]

/-- Follow `next` from a stack, at most `fuel` times; what is pushed is marked at once. -/
def spread (next : α → List α) : ℕ → List α → List α → List α
  | 0, _, seen => seen
  | _ + 1, [], seen => seen
  | fuel + 1, a :: stack, seen =>
    let fresh := (next a).filter (· ∉ seen)
    spread next fuel (fresh.reverse ++ stack) (seen ++ fresh)

/-- What is on the stack is marked, what is marked can be reached, and what was
followed leads to marked values. -/
structure Spreading (next : α → List α) (vertices : List α) (start : α) (stack seen : List α) :
    Prop where
  stacked : stack ⊆ seen
  listed : seen ⊆ vertices
  distinct : seen.Nodup
  started : start ∈ seen
  reached : ∀ a ∈ seen, Relation.ReflTransGen (fun a b => b ∈ next a) start a
  followed : ∀ a ∈ seen, a ∉ stack → next a ⊆ seen

variable {next : α → List α} {vertices stack seen : List α} {start a : α}

theorem Spreading.step (h : Spreading next vertices start (a :: stack) seen)
    (hdistinct : (next a).Nodup) (hlisted : next a ⊆ vertices) :
    Spreading next vertices start (((next a).filter (· ∉ seen)).reverse ++ stack)
      (seen ++ (next a).filter (· ∉ seen)) where
  stacked b hb := by
    rcases mem_append.1 hb with hb | hb
    · exact mem_append_right _ (mem_reverse.1 hb)
    · exact mem_append_left _ (h.stacked (mem_cons_of_mem _ hb))
  listed b hb := by
    rcases mem_append.1 hb with hb | hb
    · exact h.listed hb
    · exact hlisted (mem_filter.1 hb).1
  distinct := nodup_append.2 ⟨h.distinct, hdistinct.filter _, fun b hb c hc heq =>
    of_decide_eq_true (mem_filter.1 hc).2 (heq ▸ hb)⟩
  started := mem_append_left _ h.started
  reached b hb := by
    rcases mem_append.1 hb with hb | hb
    · exact h.reached b hb
    · exact (h.reached a (h.stacked mem_cons_self)).tail (mem_filter.1 hb).1
  followed b hb hnot := by
    rw [mem_append, not_or, mem_reverse] at hnot
    rcases mem_append.1 hb with hb | hb
    · by_cases heq : b = a
      · subst heq
        intro c hc
        by_cases hseen : c ∈ seen
        · exact mem_append_left _ hseen
        · exact mem_append_right _ (mem_filter.2 ⟨hc, decide_eq_true hseen⟩)
      · exact fun c hc => mem_append_left _
          (h.followed b hb (fun hmem => hnot.2 (mem_of_ne_of_mem heq hmem)) hc)
    · exact absurd hb hnot.1

theorem Spreading.spread {fuel : ℕ} (h : Spreading next vertices start stack seen)
    (hdistinct : ∀ a, (next a).Nodup) (hlisted : ∀ a, next a ⊆ vertices)
    (hfuel : stack.length + vertices.length ≤ fuel + seen.length) :
    Spreading next vertices start [] (PooFlow.Foundation.spread next fuel stack seen) := by
  induction fuel generalizing stack seen with
  | zero =>
    have hle := (h.distinct.subperm h.listed).length_le
    obtain rfl : stack = [] := eq_nil_of_length_eq_zero (by omega)
    exact h
  | succ fuel ih =>
    cases stack with
    | nil => exact h
    | cons a stack =>
      refine ih (h.step (hdistinct a) (hlisted a)) ?_
      rw [length_append, length_reverse, length_append]
      rw [length_cons] at hfuel
      omega

omit [DecidableEq α] in
theorem Spreading.mem_iff (h : Spreading next vertices start [] seen) :
    a ∈ seen ↔ ReflTransGen (fun a b => b ∈ next a) start a := by
  refine ⟨h.reached a, fun hpath => ?_⟩
  induction hpath with
  | refl => exact h.started
  | tail _ hnext ih => exact h.followed _ ih not_mem_nil hnext

/-- **What is marked is what can be reached.** -/
theorem mem_spread (hstart : start ∈ vertices) (hdistinct : ∀ a, (next a).Nodup)
    (hlisted : ∀ a, next a ⊆ vertices) : a ∈ spread next vertices.length [start] [start] ↔
      ReflTransGen (fun a b => b ∈ next a) start a := by
  have hinitial : Spreading next vertices start [start] [start] :=
    { stacked := fun b hb => hb
      listed := fun b hb => mem_singleton.1 hb ▸ hstart
      distinct := nodup_singleton start
      started := mem_singleton_self start
      reached := fun b hb => mem_singleton.1 hb ▸ .refl
      followed := fun b hb hnot => absurd hb hnot }
  exact (hinitial.spread hdistinct hlisted (Nat.add_comm _ _).le).mem_iff

end

end PooFlow.Foundation
