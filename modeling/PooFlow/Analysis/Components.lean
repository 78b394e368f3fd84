import Mathlib.Data.List.Nodup
import PooFlow.Analysis.Cycles
import PooFlow.Foundation.Strong

/-! The search of `graph/algorithms.ss`. An id is on the stack from when it is indexed until its
component is complete. -/

namespace PooFlow.Analysis

open Foundation List Function Option Relation

variable {α : Type*} [DecidableEq α]

/-- The tables of the search; `lowlinks` is read where it was put only. -/
structure Connection (α : Type*) where
  indices : α → Option ℕ := fun _ => none
  lowlinks : α → ℕ := fun _ => 0
  onStack : α → Bool := fun _ => false
  stack : List α := []
  nextIndex : ℕ := 0
  components : List (List α) := []

/-- `strong-components-pop!`: the component, and what is left of the stack and its table. -/
def strongComponentsPop (rootId : α) : List α → (α → Bool) → List α → List α × List α × (α → Bool)
  -- the root is on the stack, so this is not reached
  | [], onStack, component => (component, [], onStack)
  | member :: members, onStack, component =>
    if member = rootId then (member :: component, members, Function.update onStack member false)
    else strongComponentsPop rootId members (Function.update onStack member false)
      (member :: component)

namespace Connection

/-- The first statements of `strong-components-connect!`. -/
def push (s : Connection α) (id : α) : Connection α :=
  { s with
    nextIndex := s.nextIndex + 1
    indices := Function.update s.indices id (some s.nextIndex)
    lowlinks := Function.update s.lowlinks id s.nextIndex
    onStack := Function.update s.onStack id true
    stack := id :: s.stack }

/-- `(hash-put! lowlinks id (min (hash-get lowlinks id) low))`. -/
def lower (s : Connection α) (id : α) (low : ℕ) : Connection α :=
  { s with lowlinks := Function.update s.lowlinks id (min (s.lowlinks id) low) }

/-- The last statement of `strong-components-connect!`. -/
def popComponent (s : Connection α) (id : α) : Connection α :=
  if s.indices id = some (s.lowlinks id) then
    let popped := strongComponentsPop id s.stack s.onStack []
    { s with
      stack := popped.2.1
      onStack := popped.2.2
      components := popped.1 :: s.components }
  else s

end Connection

/-- `strong-components-connect-neighbors!`, with the call that connects an id. -/
def strongComponentsConnectNeighbors (connect : α → Connection α → Connection α) (id : α) :
    List α → Connection α → Connection α
  | [], s => s
  | neighbor :: ids, s =>
    match s.indices neighbor with
    | none =>
      let t := connect neighbor s
      strongComponentsConnectNeighbors connect id ids (t.lower id (t.lowlinks neighbor))
    | some index =>
      strongComponentsConnectNeighbors connect id ids
        (if s.onStack neighbor then s.lower id index else s)

section

variable (N : Network α)

/-- `strong-components-connect!`, for ids that are at most so many steps deep. -/
def strongComponentsConnect : ℕ → α → Connection α → Connection α
  -- not reached: as many ids are deep at most as have no index
  | 0, _, s => s
  | depth + 1, id, s =>
    (strongComponentsConnectNeighbors (strongComponentsConnect depth) id (N.children id)
      (s.push id)).popComponent id

def strongComponentsWalkNodes : List α → Connection α → Connection α
  | [], s => s
  | id :: ids, s =>
    strongComponentsWalkNodes ids
      (if s.indices id = none then strongComponentsConnect N N.nodes.length id s else s)

/-- `graph-strong-components/indexed`. -/
def graphStrongComponents (nodeIds : List α) : List (List α) :=
  (strongComponentsWalkNodes N nodeIds {}).components.reverse

variable {N}

namespace Connection

def num (s : Connection α) (id : α) : ℕ := (s.indices id).getD 0

def closed (s : Connection α) : List α := s.components.flatten

def unindexed (N : Network α) (s : Connection α) : ℕ :=
  N.nodes.countP fun id => s.indices id = none

end Connection

variable (N) in
/-- What holds while the ids of a path are connected, the last one first. -/
structure Connecting (path : List α) (s : Connection α) : Prop where
  onStack : ∀ a, s.onStack a = true ↔ a ∈ s.stack
  descends : s.stack.Pairwise fun a b => s.num b < s.num a
  indexed : ∀ a, s.indices a ≠ none ↔ a ∈ s.stack ∨ a ∈ s.closed
  apart : ∀ a ∈ s.stack, a ∉ s.closed
  below : ∀ a, s.indices a ≠ none → s.num a < s.nextIndex
  nodup : s.closed.Nodup
  strong : ∀ component ∈ s.components, ∀ a ∈ component, ∀ b, b ∈ component ↔ Strong N.Leads a b
  leads : ∀ a ∈ s.closed, ∀ b ∈ N.children a, b ∈ s.closed
  stacked : ∀ a ∈ path, a ∈ s.stack
  finished : ∀ a ∈ s.stack, a ∉ path → ∀ b ∈ N.children a, s.indices b ≠ none
  reaches : ∀ a ∈ s.stack, ∀ b ∈ s.stack, s.num a ≤ s.num b → Relation.ReflTransGen N.Leads a b
  returns : ∀ a ∈ s.stack, ∃ b ∈ path, s.num b ≤ s.num a ∧ Relation.ReflTransGen N.Leads a b

/-- The ids that had an index keep it, and their low link. -/
structure Keeps (s t : Connection α) : Prop where
  indices : ∀ a, s.indices a ≠ none → t.indices a = s.indices a
  lowlinks : ∀ a, s.indices a ≠ none → t.lowlinks a = s.lowlinks a

variable (N) in
/-- **What connecting an id does**: the id has the next index; what is new on the stack
leads no lower than its low link, and the low link is the index of an id of the stack
that it reaches, unless its component was taken off. -/
structure Connected (path : List α) (s t : Connection α) (id : α) : Prop where
  connecting : Connecting N path t
  keeps : Keeps s t
  index : t.indices id = some s.nextIndex
  stack : ∃ above, t.stack = above ++ s.stack ∧
    ∀ a ∈ above, ∀ b ∈ s.stack, b ∈ N.children a → t.lowlinks id ≤ s.num b
  low : (∃ a ∈ t.stack, t.num a = t.lowlinks id ∧ Relation.ReflTransGen N.Leads id a) ∨
    s.nextIndex ≤ t.lowlinks id

variable (N) in
/-- What holds of the neighbours of an id that were looked at, since the id was pushed. -/
structure Looking (path : List α) (s t : Connection α) (id : α) (seen : List α) : Prop where
  connecting : Connecting N (id :: path) t
  keeps : Keeps s t
  index : t.indices id = some s.nextIndex
  low_le : t.lowlinks id ≤ s.nextIndex
  low : ∃ a ∈ t.stack, t.num a = t.lowlinks id ∧ Relation.ReflTransGen N.Leads id a
  stack : ∃ above, t.stack = above ++ id :: s.stack ∧
    ∀ a ∈ above, ∀ b ∈ s.stack, b ∈ N.children a → t.lowlinks id ≤ s.num b
  looked : ∀ a ∈ seen, t.indices a ≠ none ∧ (a ∈ s.stack → t.lowlinks id ≤ s.num a)

variable {path : List α} {s t u : Connection α} {id : α} {seen : List α}

omit [DecidableEq α] in
theorem Keeps.refl (s : Connection α) : Keeps s s := ⟨fun _ _ => rfl, fun _ _ => rfl⟩

variable {a : α}

omit [DecidableEq α] in
theorem Keeps.indexed (h : Keeps s t) (ha : s.indices a ≠ none) : t.indices a ≠ none := by
  rw [h.indices a ha]
  exact ha

omit [DecidableEq α] in
theorem Keeps.num (h : Keeps s t) (ha : s.indices a ≠ none) : t.num a = s.num a := by
  rw [Connection.num, Connection.num, h.indices a ha]

omit [DecidableEq α] in
theorem Keeps.trans (h : Keeps s t) (h' : Keeps t u) : Keeps s u :=
  ⟨fun a ha => (h'.indices a (h.indexed ha)).trans (h.indices a ha),
    fun a ha => (h'.lowlinks a (h.indexed ha)).trans (h.lowlinks a ha)⟩

theorem Keeps.lower (h : Keeps s t) (hnew : s.indices id = none) (low : ℕ) :
    Keeps s (t.lower id low) := by
  refine ⟨h.indices, fun a ha => ?_⟩
  have hne : a ≠ id := fun heq => ha (heq ▸ hnew)
  rw [← h.lowlinks a ha]
  exact update_of_ne hne _ _

omit [DecidableEq α] in
theorem Keeps.unindexed_le (h : Keeps s t) : t.unindexed N ≤ s.unindexed N := by
  refine countP_mono_left fun a _ ha => decide_eq_true ?_
  by_contra hindexed
  exact h.indexed hindexed (of_decide_eq_true ha)

theorem Keeps.push (hnew : s.indices id = none) : Keeps s (s.push id) := by
  have hne : ∀ a, s.indices a ≠ none → a ≠ id := fun a ha heq => ha (heq ▸ hnew)
  exact ⟨fun a ha => update_of_ne (hne a ha) _ _, fun a ha => update_of_ne (hne a ha) _ _⟩

@[simp] theorem push_indices_self : (s.push id).indices id = some s.nextIndex :=
  update_self _ _ _

@[simp] theorem push_num_self : (s.push id).num id = s.nextIndex := by
  rw [Connection.num, push_indices_self, getD_some]

theorem unindexed_push_lt (hnew : s.indices id = none) (hnode : id ∈ N.nodes) :
    (s.push id).unindexed N < s.unindexed N := by
  refine countP_lt_of_imp (fun a ha => ?_) hnode (decide_eq_true hnew) (decide_eq_false ?_)
  · refine decide_eq_true ?_
    by_contra hindexed
    exact (Keeps.push hnew).indexed hindexed (of_decide_eq_true ha)
  · rw [push_indices_self]
    exact some_ne_none _

omit [DecidableEq α] in
theorem Connecting.indexed_of_stack (h : Connecting N path s) (ha : a ∈ s.stack) :
    s.indices a ≠ none :=
  (h.indexed a).2 (.inl ha)

theorem Connecting.lower (h : Connecting N path s) (id : α) (low : ℕ) :
    Connecting N path (s.lower id low) :=
  ⟨h.onStack, h.descends, h.indexed, h.apart, h.below, h.nodup, h.strong, h.leads, h.stacked,
    h.finished, h.reaches, h.returns⟩

section

variable (h : Connecting N path s) (hnew : s.indices id = none)
  (hpath : ∀ a ∈ path, ReflTransGen N.Leads a id)

include h hnew hpath

/-- **An id is pushed** that every id of the path reaches. -/
theorem Connecting.push : Connecting N (id :: path) (s.push id) := by
  have hkeeps := Keeps.push hnew
  have hnum : ∀ a ∈ s.stack, (s.push id).num a = s.num a := fun a ha =>
    hkeeps.num (h.indexed_of_stack ha)
  have hbelow : ∀ a ∈ s.stack, s.num a < s.nextIndex := fun a ha =>
    h.below a (h.indexed_of_stack ha)
  have hne : ∀ a, s.indices a ≠ none → a ≠ id := fun a ha heq => ha (heq ▸ hnew)
  have hclosed : id ∉ s.closed := fun hmem => hne id ((h.indexed id).2 (.inr hmem)) rfl
  have hindices : ∀ a, (s.push id).indices a ≠ none ↔ a = id ∨ s.indices a ≠ none := by
    intro a
    by_cases heq : a = id
    · rw [heq, push_indices_self]
      exact iff_of_true (some_ne_none _) (.inl rfl)
    · rw [or_iff_right heq]
      exact iff_of_eq (congrArg (· ≠ none) (update_of_ne heq _ _))
  constructor
  · intro a
    by_cases heq : a = id
    · rw [heq]
      exact iff_of_true (update_self _ _ _) mem_cons_self
    · have hsame : (s.push id).onStack a = s.onStack a := update_of_ne heq _ _
      rw [hsame, h.onStack]
      exact (or_iff_right heq).symm.trans mem_cons.symm
  · refine pairwise_cons.2 ⟨fun a ha => ?_, ?_⟩
    · rw [hnum a ha, push_num_self]
      exact hbelow a ha
    · refine h.descends.imp_of_mem fun ha hb hlt => ?_
      rw [hnum _ ha, hnum _ hb]
      exact hlt
  · intro a
    rw [hindices, h.indexed]
    exact or_assoc.symm.trans (or_congr_left mem_cons.symm)
  · intro a ha
    rcases mem_cons.1 ha with rfl | ha
    · exact hclosed
    · exact h.apart a ha
  · intro a ha
    rcases (hindices a).1 ha with rfl | ha
    · rw [push_num_self]
      exact Nat.lt_succ_self _
    · rw [hkeeps.num ha]
      exact Nat.lt_succ_of_lt (h.below a ha)
  · exact h.nodup
  · exact h.strong
  · exact h.leads
  · intro a ha
    rcases mem_cons.1 ha with rfl | ha
    · exact mem_cons_self
    · exact mem_cons_of_mem _ (h.stacked a ha)
  · intro a ha hpending b hb
    rw [mem_cons, not_or] at hpending
    have hstack := (mem_cons.1 ha).resolve_left hpending.1
    exact hkeeps.indexed (h.finished a hstack hpending.2 b hb)
  · -- an older id returns to the path, and the path leads to the id
    intro a ha b hb hle
    rcases mem_cons.1 ha with rfl | hold
    · rcases mem_cons.1 hb with rfl | hb
      · exact .refl
      · rw [push_num_self, hnum b hb] at hle
        exact absurd (hbelow b hb) (Nat.not_lt.2 hle)
    · rcases mem_cons.1 hb with rfl | hb
      · obtain ⟨c, hc, _, hback⟩ := h.returns a hold
        exact hback.trans (hpath c hc)
      · rw [hnum a hold, hnum b hb] at hle
        exact h.reaches a hold b hb hle
  · intro a ha
    rcases mem_cons.1 ha with rfl | ha
    · exact ⟨a, mem_cons_self, Nat.le_refl _, .refl⟩
    · obtain ⟨c, hc, hle, hback⟩ := h.returns a ha
      refine ⟨c, mem_cons_of_mem _ hc, ?_, hback⟩
      rw [hnum a ha, hnum c (h.stacked c hc)]
      exact hle

theorem Looking.start : Looking N path s (s.push id) id [] := by
  have hlow : (s.push id).lowlinks id = s.nextIndex := update_self _ _ _
  refine ⟨h.push hnew hpath, Keeps.push hnew, push_indices_self, hlow.le, ?_, ?_, ?_⟩
  · exact ⟨id, mem_cons_self, push_num_self.trans hlow.symm, .refl⟩
  · exact ⟨[], rfl, fun a ha => absurd ha not_mem_nil⟩
  · exact fun a ha => absurd ha not_mem_nil

end

/-- **A neighbour is looked at**: other ids may have been connected, and the low link of
the id becomes the least of two. -/
theorem Looking.next (h : Looking N path s t id seen) (hs : Connecting N path s)
    (hnew : s.indices id = none) (hconnecting : Connecting N (id :: path) u) (hkeeps : Keeps t u)
    {low : ℕ} {neighbor : α} (hstack : ∃ above, u.stack = above ++ t.stack ∧
      ∀ a ∈ above, ∀ b ∈ t.stack, b ∈ N.children a → low ≤ t.num b)
    (hlow : (∃ a ∈ u.stack, u.num a = low ∧ ReflTransGen N.Leads id a) ∨
      t.lowlinks id ≤ low)
    (hneighbor : u.indices neighbor ≠ none) (hstacked : neighbor ∈ t.stack → low ≤ t.num neighbor) :
    Looking N path s (u.lower id low) id (neighbor :: seen) := by
  have hid : t.indices id ≠ none := by
    rw [h.index]
    exact some_ne_none _
  have hleast : (u.lower id low).lowlinks id = min (t.lowlinks id) low := by
    rw [← hkeeps.lowlinks id hid]
    exact update_self _ _ _
  obtain ⟨above, habove, hcross⟩ := h.stack
  obtain ⟨above', habove', hcross'⟩ := hstack
  have hold : ∀ b ∈ s.stack, b ∈ t.stack ∧ t.num b = s.num b := by
    intro b hb
    refine ⟨?_, h.keeps.num (hs.indexed_of_stack hb)⟩
    rw [habove]
    exact mem_append_right _ (mem_cons_of_mem _ hb)
  have hlink : ∃ a ∈ u.stack, u.num a = t.lowlinks id ∧ ReflTransGen N.Leads id a := by
    obtain ⟨a, ha, hnum, hpath⟩ := h.low
    refine ⟨a, ?_, (hkeeps.num (h.connecting.indexed_of_stack ha)).trans hnum, hpath⟩
    rw [habove']
    exact mem_append_right _ ha
  constructor
  · exact hconnecting.lower id low
  · exact (h.keeps.trans hkeeps).lower hnew low
  · exact (hkeeps.indices id hid).trans h.index
  · rw [hleast]
    exact (min_le_left _ _).trans h.low_le
  · rw [hleast]
    -- either low link is the index of an id that is reached
    rcases Nat.le_total (t.lowlinks id) low with hle | hle
    · rw [min_eq_left hle]
      exact hlink
    · rw [min_eq_right hle]
      refine hlow.elim (fun hreached => hreached) fun hle' => ?_
      rw [Nat.le_antisymm hle hle']
      exact hlink
  · refine ⟨above' ++ above, ?_, fun a ha b hb hchild => ?_⟩
    · show u.stack = _
      rw [habove', habove, append_assoc]
    · rw [hleast]
      rcases mem_append.1 ha with ha | ha
      · rw [← (hold b hb).2]
        exact (min_le_right _ _).trans (hcross' a ha b (hold b hb).1 hchild)
      · exact (min_le_left _ _).trans (hcross a ha b hb hchild)
  · intro a ha
    rw [hleast]
    rcases mem_cons.1 ha with rfl | ha
    · refine ⟨hneighbor, fun hb => ?_⟩
      rw [← (hold a hb).2]
      exact (min_le_right _ _).trans (hstacked (hold a hb).1)
    · obtain ⟨hindexed, hle⟩ := h.looked a ha
      exact ⟨hkeeps.indexed hindexed, fun hb => (min_le_left _ _).trans (hle hb)⟩

variable {ids : List α}

/-- **All neighbours are looked at**, if connecting one of them does what it should. -/
theorem Looking.neighbors {connect : α → Connection α → Connection α} {depth : ℕ}
    (hconnect : ∀ (path : List α) (s : Connection α) (id : α), Connecting N path s →
      s.indices id = none → id ∈ N.nodes → (∀ a ∈ path, ReflTransGen N.Leads a id) →
      s.unindexed N ≤ depth → Connected N path s (connect id s) id)
    (hs : Connecting N path s) (hnew : s.indices id = none)
    (hpath : ∀ a ∈ path, ReflTransGen N.Leads a id)
    (hids : ∀ neighbor ∈ ids, neighbor ∈ N.children id) (h : Looking N path s t id seen)
    (hdepth : t.unindexed N ≤ depth) :
    Looking N path s (strongComponentsConnectNeighbors connect id ids t) id
      (ids.reverse ++ seen) := by
  induction ids generalizing t seen with
  | nil => exact h
  | cons neighbor ids ih =>
    rw [reverse_cons, append_assoc]
    have hleads : N.Leads id neighbor := hids neighbor mem_cons_self
    have hrest : ∀ other ∈ ids, other ∈ N.children id := fun other hother =>
      hids other (mem_cons_of_mem _ hother)
    rw [strongComponentsConnectNeighbors]
    cases hindex : t.indices neighbor with
    | none =>
      -- the id is on the path while its neighbour is connected
      have hconnected := hconnect (id :: path) t neighbor h.connecting hindex (N.closed hleads)
        (fun a ha => by
          rcases mem_cons.1 ha with rfl | ha
          · exact .single hleads
          · exact (hpath a ha).tail hleads) hdepth
      refine ih hrest (h.next hs hnew hconnected.connecting hconnected.keeps hconnected.stack ?_ ?_
        fun hstack => absurd hindex (h.connecting.indexed_of_stack hstack)) ?_
      · refine hconnected.low.imp
          (fun ⟨a, ha, hnum, hreaches⟩ => ⟨a, ha, hnum, .head hleads hreaches⟩) fun hpopped => ?_
        -- the id was indexed before its neighbour
        have hbelow := h.connecting.below id (by rw [h.index]; exact some_ne_none _)
        rw [Connection.num, h.index, getD_some] at hbelow
        exact (h.low_le.trans hbelow.le).trans hpopped
      · rw [hconnected.index]
        exact some_ne_none _
      · exact hconnected.keeps.unindexed_le.trans hdepth
    | some index =>
      have hindexed : t.indices neighbor ≠ none := by
        rw [hindex]
        exact some_ne_none _
      have hnum : t.num neighbor = index := by rw [Connection.num, hindex, getD_some]
      have hsame : ∀ low, ∃ above, t.stack = above ++ t.stack ∧
          ∀ a ∈ above, ∀ b ∈ t.stack, b ∈ N.children a → low ≤ t.num b :=
        fun low => ⟨[], rfl, fun a ha => absurd ha not_mem_nil⟩
      refine ih hrest ?_ ?_
      · split
        · next hon =>
          exact h.next hs hnew h.connecting (.refl t) (hsame index)
            (.inl ⟨neighbor, (h.connecting.onStack neighbor).1 hon, hnum, .single hleads⟩) hindexed
            fun _ => hnum.ge
        · next hoff =>
          -- the component of the neighbour was taken off: nothing changes
          have hunstacked : neighbor ∉ t.stack := fun hstack =>
            hoff ((h.connecting.onStack neighbor).2 hstack)
          have hlowered : t.lower id (t.lowlinks id) = t := by
            rw [Connection.lower, min_self, update_eq_self]
          have hnext := h.next hs hnew h.connecting (.refl t) (hsame (t.lowlinks id))
            (.inr (Nat.le_refl _)) hindexed fun hstack => absurd hstack hunstacked
          rw [hlowered] at hnext
          exact hnext
      · split
        · exact hdepth
        · exact hdepth

theorem strongComponentsPop_eq {rootId : α} {above : List α} (below component : List α)
    (onStack : α → Bool) (h : rootId ∉ above) :
    (strongComponentsPop rootId (above ++ rootId :: below) onStack component).1 =
        rootId :: (above.reverse ++ component) ∧
      (strongComponentsPop rootId (above ++ rootId :: below) onStack component).2.1 = below ∧
      ∀ a, (strongComponentsPop rootId (above ++ rootId :: below) onStack component).2.2 a = true ↔
        onStack a = true ∧ a ∉ above ∧ a ≠ rootId := by
  have hupdate : ∀ (onStack : α → Bool) (member a : α),
      update onStack member false a = true ↔ onStack a = true ∧ a ≠ member := by
    intro onStack member a
    by_cases heq : a = member
    · simp [heq]
    · simp [heq]
  induction above generalizing onStack component with
  | nil =>
    rw [nil_append, strongComponentsPop, if_pos rfl]
    refine ⟨rfl, rfl, fun a => ?_⟩
    rw [hupdate]
    simp
  | cons member above ih =>
    rw [mem_cons, not_or] at h
    rw [cons_append, strongComponentsPop, if_neg (Ne.symm h.1)]
    obtain ⟨hcomponent, hbelow, htable⟩ := ih (member :: component)
      (update onStack member false) h.2
    refine ⟨?_, hbelow, fun a => ?_⟩
    · rw [hcomponent, reverse_cons, append_assoc]
      rfl
    · rw [htable, hupdate, mem_cons, not_or, and_assoc, and_assoc]

variable (N) in
/-- What is on the stack from an id on, when its neighbours were looked at. -/
structure Topped (path : List α) (s t : Connection α) (id : α) (above : List α) : Prop where
  stack : t.stack = above ++ id :: s.stack
  num : t.num id = s.nextIndex
  higher : ∀ a ∈ above, t.num id < t.num a
  lower : ∀ b ∈ s.stack, t.num b < t.num id
  kept : ∀ b ∈ s.stack, t.num b = s.num b
  leads : ∀ a, a = id ∨ a ∈ above → ∀ b ∈ N.children a,
    t.indices b ≠ none ∧ (b ∈ s.stack → t.lowlinks id ≤ s.num b)

omit [DecidableEq α] in
theorem Looking.topped (h : Looking N path s t id seen) (hs : Connecting N path s)
    (hseen : ∀ neighbor ∈ N.children id, neighbor ∈ seen) :
    ∃ above, Topped N path s t id above := by
  obtain ⟨above, habove, hcross⟩ := h.stack
  have hdescends := h.connecting.descends
  rw [habove, pairwise_append, pairwise_cons] at hdescends
  refine ⟨above, habove, ?_, fun a ha => hdescends.2.2 a ha id mem_cons_self,
    hdescends.2.1.1, fun b hb => h.keeps.num (hs.indexed_of_stack hb), ?_⟩
  · rw [Connection.num, h.index, getD_some]
  · rintro a (rfl | ha) b hb
    · exact h.looked b (hseen b hb)
    · refine ⟨?_, fun hstack => hcross a ha b hstack hb⟩
      refine h.connecting.finished a (habove ▸ mem_append_left _ ha) (fun hpath => ?_) b hb
      -- the path is below what is above the id
      have hhigher := hdescends.2.2 a ha
      rcases mem_cons.1 hpath with rfl | hpath
      · exact Nat.lt_irrefl _ (hhigher a mem_cons_self)
      · exact Nat.lt_irrefl _ (hhigher a (mem_cons_of_mem _ (hs.stacked a hpath)))

namespace Topped

variable {above : List α}

omit [DecidableEq α] in
theorem mem_stack (h : Topped N path s t id above) :
    a ∈ t.stack ↔ (a = id ∨ a ∈ above) ∨ a ∈ s.stack := by
  rw [h.stack, mem_append, mem_cons]
  tauto

omit [DecidableEq α] in
theorem num_le (h : Topped N path s t id above) (ha : a = id ∨ a ∈ above) : t.num id ≤ t.num a := by
  rcases ha with rfl | ha
  · exact Nat.le_refl _
  · exact (h.higher a ha).le

omit [DecidableEq α] in
theorem strong (h : Topped N path s t id above) (hconnecting : Connecting N (id :: path) t)
    (hpath : ∀ a ∈ path, ReflTransGen N.Leads a id) (ha : a = id ∨ a ∈ above) :
    Strong N.Leads id a := by
  have hstack : ∀ {a}, a = id ∨ a ∈ above → a ∈ t.stack := fun ha => h.mem_stack.2 (.inl ha)
  refine ⟨hconnecting.reaches id (hstack (.inl rfl)) a (hstack ha) (h.num_le ha), ?_⟩
  obtain ⟨b, hb, _, hback⟩ := hconnecting.returns a (hstack ha)
  rcases mem_cons.1 hb with rfl | hb
  · exact hback
  · exact hback.trans (hpath b hb)

omit [DecidableEq α] in
theorem leads_or_closed (h : Topped N path s t id above) (hconnecting : Connecting N (id :: path) t)
    (hlow : t.lowlinks id = s.nextIndex) (ha : a = id ∨ a ∈ above) {b : α}
    (hb : b ∈ N.children a) : (b = id ∨ b ∈ above) ∨ b ∈ t.closed := by
  obtain ⟨hindexed, hbelow⟩ := h.leads a ha b hb
  refine ((hconnecting.indexed b).1 hindexed).imp_left fun hstack => ?_
  refine (h.mem_stack.1 hstack).resolve_right fun hold => ?_
  have hlt := h.lower b hold
  have hle := hbelow hold
  rw [h.num, h.kept b hold, ← hlow] at hlt
  exact Nat.lt_irrefl _ (hle.trans_lt hlt)

omit [DecidableEq α] in
/-- **The ids from an id on are a component.** -/
theorem component (h : Topped N path s t id above) (hconnecting : Connecting N (id :: path) t)
    (hpath : ∀ a ∈ path, ReflTransGen N.Leads a id)
    (hlow : t.lowlinks id = s.nextIndex) {b : α} (ha : a = id ∨ a ∈ above) :
    (b = id ∨ b ∈ above) ↔ Strong N.Leads a b := by
  constructor
  · intro hb
    exact (h.strong hconnecting hpath ha).symm.trans (h.strong hconnecting hpath hb)
  · rintro ⟨hthere, hback⟩
    have hreached : (b = id ∨ b ∈ above) ∨ b ∈ t.closed := by
      refine mem_of_reflTransGen (S := fun c => (c = id ∨ c ∈ above) ∨ c ∈ t.closed)
        (fun a b ha hleads => ?_) (.inl ha) hthere
      rcases ha with ha | ha
      · exact h.leads_or_closed hconnecting hlow ha hleads
      · exact .inr (hconnecting.leads a ha b hleads)
    -- what was taken off does not come back
    refine hreached.resolve_right fun hclosed => ?_
    exact hconnecting.apart a (h.mem_stack.2 (.inl ha))
      (mem_of_reflTransGen (fun a b ha hleads => hconnecting.leads a ha b hleads) hclosed hback)

end Topped

/-- **An id that leads below itself** stays on the stack. -/
theorem Looking.stay (h : Looking N path s t id seen) (hs : Connecting N path s)
    (hseen : ∀ neighbor ∈ N.children id, neighbor ∈ seen) (hlow : t.lowlinks id < s.nextIndex) :
    Connected N path s t id := by
  obtain ⟨above, htopped⟩ := h.topped hs hseen
  have hconnecting := h.connecting
  -- what returns to the id returns to the path below it
  have hreturns : ∃ b ∈ path, t.num b < t.num id ∧ ReflTransGen N.Leads id b := by
    obtain ⟨a, ha, hnum, hreaches⟩ := h.low
    obtain ⟨b, hb, hle, hback⟩ := hconnecting.returns a ha
    have hlt : t.num b < t.num id := by
      rw [htopped.num]
      exact (hle.trans hnum.le).trans_lt hlow
    rcases mem_cons.1 hb with rfl | hb
    · exact absurd hlt (Nat.lt_irrefl _)
    · exact ⟨b, hb, hlt, hreaches.trans hback⟩
  refine ⟨⟨hconnecting.onStack, hconnecting.descends, hconnecting.indexed, hconnecting.apart,
    hconnecting.below, hconnecting.nodup, hconnecting.strong, hconnecting.leads, ?_, ?_,
    hconnecting.reaches, ?_⟩, h.keeps, h.index, ⟨above ++ [id], ?_, ?_⟩, .inl h.low⟩
  · exact fun a ha => hconnecting.stacked a (mem_cons_of_mem _ ha)
  · intro a ha hpath b hb
    by_cases heq : a = id
    · exact (htopped.leads a (.inl heq) b hb).1
    · exact hconnecting.finished a ha (fun hmem => hpath ((mem_cons.1 hmem).resolve_left heq))
        b hb
  · intro a ha
    obtain ⟨b, hb, hle, hback⟩ := hconnecting.returns a ha
    rcases mem_cons.1 hb with rfl | hb
    · obtain ⟨c, hc, hlt, hreaches⟩ := hreturns
      exact ⟨c, hc, (hlt.trans_le hle).le, hback.trans hreaches⟩
    · exact ⟨b, hb, hle, hback⟩
  · rw [htopped.stack, append_assoc]
    rfl
  · intro a ha b hb hchild
    refine (htopped.leads a ?_ b hchild).2 hb
    exact (mem_append.1 ha).symm.imp_left mem_singleton.1

/-- The tables after a component was taken off the stack. -/
structure Popped (t u : Connection α) (id : α) (above below : List α) : Prop where
  stack : u.stack = below
  onStack : ∀ a, u.onStack a = true ↔ t.onStack a = true ∧ ¬(a = id ∨ a ∈ above)
  indices : u.indices = t.indices
  lowlinks : u.lowlinks = t.lowlinks
  nextIndex : u.nextIndex = t.nextIndex
  components : u.components = (id :: above.reverse) :: t.components

theorem popped_popComponent {above below : List α} (hstack : t.stack = above ++ id :: below)
    (habove : id ∉ above) (hroot : t.indices id = some (t.lowlinks id)) :
    Popped t (t.popComponent id) id above below := by
  obtain ⟨hcomponent, hbelow, htable⟩ := strongComponentsPop_eq below [] t.onStack habove
  rw [← hstack, append_nil] at hcomponent
  rw [← hstack] at hbelow htable
  have hpopped : t.popComponent id =
      { t with
        stack := below
        onStack := (strongComponentsPop id t.stack t.onStack []).2.2
        components := (id :: above.reverse) :: t.components } := by
    rw [Connection.popComponent, if_pos hroot]
    simp only [hcomponent, hbelow]
  rw [hpopped]
  refine ⟨rfl, fun a => (htable a).trans (and_congr_right fun _ => ?_), rfl, rfl, rfl, rfl⟩
  rw [not_or]
  exact And.comm

namespace Popped

variable {above below : List α}

omit [DecidableEq α] in
theorem num (h : Popped t u id above below) (a : α) : u.num a = t.num a := by
  rw [Connection.num, h.indices, Connection.num]

omit [DecidableEq α] in
theorem mem_closed (h : Popped t u id above below) :
    a ∈ u.closed ↔ (a = id ∨ a ∈ above) ∨ a ∈ t.closed := by
  rw [Connection.closed, h.components, flatten_cons, mem_append, mem_cons, mem_reverse]
  exact Iff.rfl

end Popped

omit [DecidableEq α] in
/-- **A component is taken off** from an id that leads to nothing below it. -/
theorem Topped.connecting {above : List α} (h : Topped N path s t id above)
    (hs : Connecting N path s) (hconnecting : Connecting N (id :: path) t)
    (hpath : ∀ a ∈ path, ReflTransGen N.Leads a id)
    (hlow : t.lowlinks id = s.nextIndex) (hpopped : Popped t u id above s.stack) :
    Connecting N path u := by
  -- what is below the id stays as it is
  have hstack : ∀ a ∈ s.stack, a ∈ t.stack := fun a ha => h.mem_stack.2 (.inr ha)
  have hdistinct : ∀ a ∈ s.stack, ¬(a = id ∨ a ∈ above) := fun a ha hmem =>
    Nat.lt_irrefl _ ((h.lower a ha).trans_le (h.num_le hmem))
  have hdescends := hconnecting.descends
  rw [h.stack, pairwise_append, pairwise_cons] at hdescends
  constructor
  · intro a
    rw [hpopped.stack, hpopped.onStack, hconnecting.onStack, h.mem_stack]
    constructor
    · rintro ⟨hmem | hmem, hnot⟩
      · exact absurd hmem hnot
      · exact hmem
    · exact fun ha => ⟨.inr ha, hdistinct a ha⟩
  · rw [hpopped.stack]
    refine hdescends.2.1.2.imp fun hlt => ?_
    rw [hpopped.num, hpopped.num]
    exact hlt
  · intro a
    rw [hpopped.indices, hpopped.stack, hpopped.mem_closed, hconnecting.indexed, h.mem_stack]
    tauto
  · intro a ha hmem
    rw [hpopped.stack] at ha
    exact (hpopped.mem_closed.1 hmem).elim (hdistinct a ha) (hconnecting.apart a (hstack a ha))
  · intro a ha
    rw [hpopped.indices] at ha
    rw [hpopped.num, hpopped.nextIndex]
    exact hconnecting.below a ha
  · rw [Connection.closed, hpopped.components]
    have habove : above.Nodup := hdescends.1.imp fun hlt heq => by
      rw [heq] at hlt
      exact Nat.lt_irrefl _ hlt
    refine nodup_append.2 ⟨?_, hconnecting.nodup, fun a ha b hb heq => ?_⟩
    · rw [nodup_cons, mem_reverse, nodup_reverse]
      exact ⟨fun hmem => Nat.lt_irrefl _ (h.higher id hmem), habove⟩
    · rw [mem_cons, mem_reverse] at ha
      exact hconnecting.apart a (h.mem_stack.2 (.inl ha)) (heq ▸ hb)
  · rw [hpopped.components]
    refine forall_mem_cons.2 ⟨fun a ha b => ?_, hconnecting.strong⟩
    rw [mem_cons, mem_reverse] at ha ⊢
    exact h.component hconnecting hpath hlow ha
  · intro a ha b hb
    refine hpopped.mem_closed.2 ?_
    rcases hpopped.mem_closed.1 ha with ha | ha
    · exact h.leads_or_closed hconnecting hlow ha hb
    · exact .inr (hconnecting.leads a ha b hb)
  · rw [hpopped.stack]
    exact hs.stacked
  · intro a ha hpending b hb
    rw [hpopped.stack] at ha
    rw [hpopped.indices]
    refine hconnecting.finished a (hstack a ha) (fun hmem => ?_) b hb
    exact (mem_cons.1 hmem).elim (not_or.1 (hdistinct a ha)).1 hpending
  · intro a ha b hb hle
    rw [hpopped.stack] at ha hb
    rw [hpopped.num, hpopped.num] at hle
    exact hconnecting.reaches a (hstack a ha) b (hstack b hb) hle
  · intro a ha
    rw [hpopped.stack] at ha
    obtain ⟨b, hb, hle, hback⟩ := hconnecting.returns a (hstack a ha)
    refine ⟨b, (mem_cons.1 hb).resolve_left fun heq => ?_, ?_, hback⟩
    · rw [heq] at hle
      exact Nat.lt_irrefl _ ((h.lower a ha).trans_le hle)
    · rw [hpopped.num, hpopped.num]
      exact hle

/-- **An id that leads to nothing below it** is taken off with its component. -/
theorem Looking.leave (h : Looking N path s t id seen) (hs : Connecting N path s)
    (hpath : ∀ a ∈ path, ReflTransGen N.Leads a id)
    (hseen : ∀ neighbor ∈ N.children id, neighbor ∈ seen) (hlow : t.lowlinks id = s.nextIndex) :
    Connected N path s (t.popComponent id) id := by
  obtain ⟨above, htopped⟩ := h.topped hs hseen
  have hpopped := popped_popComponent htopped.stack
    (fun hmem => Nat.lt_irrefl _ (htopped.higher id hmem))
    (h.index.trans (congrArg some hlow.symm))
  refine ⟨htopped.connecting hs h.connecting hpath hlow hpopped, ⟨fun a ha => ?_, fun a ha => ?_⟩,
    ?_, ⟨[], hpopped.stack, fun a ha => absurd ha not_mem_nil⟩, .inr ?_⟩
  · rw [hpopped.indices]
    exact h.keeps.indices a ha
  · rw [hpopped.lowlinks]
    exact h.keeps.lowlinks a ha
  · rw [hpopped.indices]
    exact h.index
  · rw [hpopped.lowlinks, hlow]

/-- **The search from an id** connects it. -/
theorem strongComponentsConnect_connected (depth : ℕ) (path : List α) (s : Connection α) (id : α)
    (hs : Connecting N path s) (hnew : s.indices id = none) (hnode : id ∈ N.nodes)
    (hpath : ∀ a ∈ path, ReflTransGen N.Leads a id) (hdepth : s.unindexed N ≤ depth) :
    Connected N path s (strongComponentsConnect N depth id s) id := by
  induction depth generalizing path s id with
  | zero =>
    -- the id itself has no index
    have hpos : 0 < s.unindexed N := countP_pos_iff.2 ⟨id, hnode, decide_eq_true hnew⟩
    exact absurd hdepth (Nat.not_le.2 hpos)
  | succ depth ih =>
    rw [strongComponentsConnect]
    have hpushed := (unindexed_push_lt (N := N) hnew hnode).trans_le hdepth
    have hlooking := (Looking.start hs hnew hpath).neighbors ih hs hnew hpath
      (fun neighbor hneighbor => hneighbor) (Nat.le_of_lt_succ hpushed)
    have hseen : ∀ neighbor ∈ N.children id, neighbor ∈ (N.children id).reverse ++ [] := by
      intro neighbor hneighbor
      rw [append_nil, mem_reverse]
      exact hneighbor
    -- the id is the root of its component when nothing lowered its link
    rcases hlooking.low_le.lt_or_eq with hlow | hlow
    · rw [Connection.popComponent, if_neg fun hroot => ?_]
      · exact hlooking.stay hs hseen hlow
      · rw [hlooking.index] at hroot
        exact hlow.ne' (some.inj hroot)
    · exact hlooking.leave hs hpath hseen hlow

omit [DecidableEq α] in
theorem Connecting.stack_eq_nil (h : Connecting N [] s) : s.stack = [] := by
  refine eq_nil_iff_forall_not_mem.2 fun a ha => ?_
  obtain ⟨b, hb, _⟩ := h.returns a ha
  exact not_mem_nil hb

omit [DecidableEq α] in
theorem connecting_start : Connecting N [] ({} : Connection α) := by
  constructor
  all_goals simp [Connection.closed]

theorem strongComponentsWalkNodes_connecting (hids : ∀ id ∈ ids, id ∈ N.nodes)
    (hs : Connecting N [] s) : Connecting N [] (strongComponentsWalkNodes N ids s) ∧
      Keeps s (strongComponentsWalkNodes N ids s) ∧
      ∀ id ∈ ids, (strongComponentsWalkNodes N ids s).indices id ≠ none := by
  induction ids generalizing s with
  | nil => exact ⟨hs, .refl s, fun id hid => absurd hid not_mem_nil⟩
  | cons id ids ih =>
    rw [strongComponentsWalkNodes]
    -- the first id has an index, and keeps it
    have hfirst : ∃ t, (if s.indices id = none then strongComponentsConnect N N.nodes.length id s
        else s) = t ∧ Connecting N [] t ∧ Keeps s t ∧ t.indices id ≠ none := by
      split
      · next hnew =>
        have hconnected := strongComponentsConnect_connected N.nodes.length [] s id hs hnew
          (hids id mem_cons_self) (fun a ha => absurd ha not_mem_nil)
          countP_le_length
        refine ⟨_, rfl, hconnected.connecting, hconnected.keeps, ?_⟩
        rw [hconnected.index]
        exact some_ne_none _
      · next hindexed => exact ⟨s, rfl, hs, .refl s, hindexed⟩
    obtain ⟨t, ht, hconnecting, hkeeps, hindexed⟩ := hfirst
    rw [ht]
    obtain ⟨hall, hkept, hrest⟩ :=
      ih (fun other hother => hids other (mem_cons_of_mem _ hother)) hconnecting
    exact ⟨hall, hkeeps.trans hkept, forall_mem_cons.2 ⟨hkept.indexed hindexed, hrest⟩⟩

/-- **The components that are found** hold each id once, and every id that was asked for
is in one; the ids that are strongly connected to a member are the members. -/
theorem graphStrongComponents_spec (hids : ∀ id ∈ ids, id ∈ N.nodes) :
    (graphStrongComponents N ids).flatten.Nodup ∧
      (∀ id ∈ ids, id ∈ (graphStrongComponents N ids).flatten) ∧
      ∀ component ∈ graphStrongComponents N ids, ∀ a ∈ component, ∀ b,
        b ∈ component ↔ Strong N.Leads a b := by
  obtain ⟨hconnecting, _, hindexed⟩ :=
    strongComponentsWalkNodes_connecting (s := {}) hids connecting_start
  have hperm : (graphStrongComponents N ids).flatten.Perm
      (strongComponentsWalkNodes N ids {}).closed :=
    (reverse_perm _).flatten
  refine ⟨hperm.nodup_iff.2 hconnecting.nodup, fun id hid => ?_, fun component hcomponent => ?_⟩
  · refine hperm.mem_iff.2 (((hconnecting.indexed id).1 (hindexed id hid)).resolve_left ?_)
    rw [hconnecting.stack_eq_nil]
    exact not_mem_nil
  · exact hconnecting.strong component (mem_reverse.1 hcomponent)

end

end PooFlow.Analysis
