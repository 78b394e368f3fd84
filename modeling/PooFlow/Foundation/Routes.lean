import Mathlib.Data.List.Nodup
import Mathlib.Logic.Relation

namespace PooFlow.Foundation

open List

variable {α ρ : Type*}

inductive Way (step : α → ρ → α → Prop) : List α → List ρ → Prop where
  | stay (a : α) : Way step [a] []
  | go {a b : α} {label : ρ} {nodes : List α} {labels : List ρ} (hstep : step a label b)
      (h : Way step (b :: nodes) labels) : Way step (a :: b :: nodes) (label :: labels)

namespace Way

variable {step step' : α → ρ → α → Prop} {nodes : List α} {labels : List ρ}

theorem mono (hmono : ∀ a label b, step a label b → step' a label b) (h : Way step nodes labels) :
    Way step' nodes labels := by
  induction h with
  | stay a => exact .stay a
  | go hstep _ ih => exact .go (hmono _ _ _ hstep) ih

theorem extend {a b : α} {label : ρ} (h : Way step nodes labels) (hlast : nodes.getLast? = some a)
    (hstep : step a label b) : Way step (nodes ++ [b]) (labels ++ [label]) := by
  induction h with
  | stay c =>
    obtain rfl : c = a := Option.some.inj hlast
    exact .go hstep (.stay b)
  | go hfirst _ ih =>
    apply Way.go hfirst
    apply ih
    rwa [List.getLast?_cons_cons] at hlast

end Way

structure Route (α ρ : Type*) where
  target : α
  nodePath : List α
  relationPath : List ρ
  ends : nodePath.getLast? = some target
  counts : relationPath.length + 1 = nodePath.length

namespace Route

def start (a : α) : Route α ρ where
  target := a
  nodePath := [a]
  relationPath := []
  ends := rfl
  counts := rfl

def extend (route : Route α ρ) (a : α) (label : ρ) : Route α ρ where
  target := a
  nodePath := route.nodePath ++ [a]
  relationPath := route.relationPath ++ [label]
  ends := List.getLast?_concat
  counts := by simp [route.counts]

def steps (route : Route α ρ) : ℕ := route.relationPath.length

@[simp] theorem steps_start (a : α) : (Route.start a : Route α ρ).steps = 0 := rfl

@[simp] theorem steps_extend (route : Route α ρ) (a : α) (label : ρ) :
    (route.extend a label).steps = route.steps + 1 := by
  simp [steps, extend]

end Route

structure Roads (α ρ : Type*) where
  nodes : List α
  next : α → List (α × ρ)
  closed : ∀ {a b : α} {label : ρ}, (b, label) ∈ next a → b ∈ nodes

namespace Roads

variable (N : Roads α ρ)

def Leads (a b : α) : Prop := ∃ label, (b, label) ∈ N.next a

/-- A route that begins at one of the given nodes and leads along edges. -/
inductive Follows (initial : List α) : Route α ρ → Prop where
  | start {a : α} (h : a ∈ initial) : Follows initial (.start a)
  | extend {route : Route α ρ} {b : α} {label : ρ} (h : Follows initial route)
      (hnext : (b, label) ∈ N.next route.target) : Follows initial (route.extend b label)

variable {N} in
theorem Follows.reached {initial : List α} {route : Route α ρ} (h : N.Follows initial route) :
    ∃ a ∈ initial, Relation.ReflTransGen N.Leads a route.target := by
  induction h with
  | start h => exact ⟨_, h, .refl⟩
  | extend _ hnext ih =>
    obtain ⟨a, ha, hpath⟩ := ih
    exact ⟨a, ha, hpath.tail ⟨_, hnext⟩⟩

variable {initial : List α} {route : Route α ρ} {queue found : List (Route α ρ)}

theorem Follows.way (h : N.Follows initial route) : (∃ a ∈ initial, route.nodePath.head? = some a) ∧
      Way (fun a label b => (b, label) ∈ N.next a) route.nodePath route.relationPath := by
  induction h with
  | start h => exact ⟨⟨_, h, rfl⟩, .stay _⟩
  | @extend route b label _ hnext ih =>
    obtain ⟨⟨a, ha, hhead⟩, hway⟩ := ih
    refine ⟨⟨a, ha, ?_⟩, hway.extend route.ends hnext⟩
    show (route.nodePath ++ [b]).head? = some a
    rw [List.head?_append, hhead]
    rfl

/-- What the search began with is found, and so are the neighbours of every
found node that does not wait. -/
def Covers (initial : List α) (queue found : List (Route α ρ)) : Prop :=
  (∀ start ∈ initial, start ∈ found.map Route.target) ∧
    ∀ a ∈ found.map Route.target, a ∈ queue.map Route.target ∨
      ∀ b, N.Leads a b → b ∈ found.map Route.target

theorem Covers.perm {queue' : List (Route α ρ)} (h : N.Covers initial queue found)
    (hperm : queue.Perm queue') : N.Covers initial queue' found :=
  ⟨h.1, fun a ha => (h.2 a ha).imp_left ((hperm.map _).mem_iff.1)⟩

variable {new : List (Route α ρ)}

theorem Covers.step (h : N.Covers initial (route :: queue) found)
    (hall : ∀ edge ∈ N.next route.target, edge.1 ∈ (new ++ found).map Route.target) :
    N.Covers initial (new ++ queue) (new ++ found) := by
  have hkept : ∀ a ∈ found.map Route.target, a ∈ (new ++ found).map Route.target := by
    intro a ha
    rw [map_append]
    exact mem_append_right _ ha
  refine ⟨fun start hmem => hkept _ (h.1 start hmem), fun a ha => ?_⟩
  rw [map_append, mem_append] at ha ⊢
  rcases ha with hnew | hfound
  · exact .inl (.inl hnew)
  · rcases h.2 a hfound with hqueue | hneighbours
    · rcases mem_cons.1 hqueue with rfl | hqueue
      · exact .inr fun b ⟨label, hedge⟩ => hall _ hedge
      · exact .inl (.inr hqueue)
    · exact .inr fun b hb => hkept b (hneighbours b hb)

theorem covers_start (initial : List α) :
    N.Covers initial (initial.map .start) (initial.map Route.start).reverse := by
  have htargets : (initial.map (Route.start : α → Route α ρ)).map Route.target = initial := by
    rw [map_map]
    exact map_id _
  rw [Covers, map_reverse, htargets]
  exact ⟨fun start hmem => mem_reverse.2 hmem, fun a ha => .inl (mem_reverse.1 ha)⟩

variable [DecidableEq α]

def meet (route : Route α ρ) (state : List (Route α ρ) × List (Route α ρ)) (edge : α × ρ) :
    List (Route α ρ) × List (Route α ρ) :=
  if edge.1 ∈ state.1.map Route.target then state
  else (route.extend edge.1 edge.2 :: state.1, route.extend edge.1 edge.2 :: state.2)

def discover (route : Route α ρ) (edges : List (α × ρ)) (found back : List (Route α ρ)) :
    List (Route α ρ) × List (Route α ρ) :=
  edges.foldl (meet route) (found, back)

theorem discover_spec (route : Route α ρ) (edges : List (α × ρ)) (found back : List (Route α ρ)) :
    ∃ new, discover route edges found back = (new ++ found, new ++ back) ∧
      (new.map Route.target).Nodup ∧
      (∀ r ∈ new, r.target ∉ found.map Route.target) ∧
      (∀ r ∈ new, ∃ edge ∈ edges, r = route.extend edge.1 edge.2) ∧
      ∀ edge ∈ edges, edge.1 ∈ (new ++ found).map Route.target := by
  induction edges generalizing found back with
  | nil => exact ⟨[], rfl, nodup_nil, by simp, by simp, by simp⟩
  | cons edge edges ih =>
    rw [discover, foldl_cons, meet]
    dsimp only
    by_cases hfound : edge.1 ∈ found.map Route.target
    · rw [if_pos hfound]
      obtain ⟨new, heq, hnodup, hfresh, hextends, hall⟩ := ih found back
      refine ⟨new, heq, hnodup, hfresh, fun r hr => ?_, fun other hother => ?_⟩
      · obtain ⟨other, hother, hr⟩ := hextends r hr
        exact ⟨other, mem_cons_of_mem _ hother, hr⟩
      · rcases mem_cons.1 hother with rfl | hother
        · rw [map_append]
          exact mem_append_right _ hfound
        · exact hall other hother
    · rw [if_neg hfound]
      obtain ⟨new, heq, hnodup, hfresh, hextends, hall⟩ :=
        ih (route.extend edge.1 edge.2 :: found) (route.extend edge.1 edge.2 :: back)
      refine ⟨new ++ [route.extend edge.1 edge.2], ?_, ?_, ?_, ?_, ?_⟩
      · rw [append_assoc, append_assoc]
        exact heq
      · rw [map_append, nodup_append]
        refine ⟨hnodup, pairwise_singleton _ _, fun a ha b hb heq => ?_⟩
        obtain ⟨r, hr, rfl⟩ := mem_map.1 ha
        obtain rfl : b = edge.1 := mem_singleton.1 hb
        exact hfresh r hr (mem_cons.2 (.inl heq))
      · intro r hr
        rcases mem_append.1 hr with hr | hr
        · exact fun hmem => hfresh r hr (mem_cons_of_mem _ hmem)
        · rw [mem_singleton.1 hr]
          exact hfound
      · intro r hr
        rcases mem_append.1 hr with hr | hr
        · obtain ⟨other, hother, hr⟩ := hextends r hr
          exact ⟨other, mem_cons_of_mem _ hother, hr⟩
        · exact ⟨edge, mem_cons_self, mem_singleton.1 hr⟩
      · intro other hother
        rw [append_assoc, singleton_append]
        rcases mem_cons.1 hother with rfl | hother
        · exact mem_map.2 ⟨_, mem_append_right _ mem_cons_self, rfl⟩
        · exact hall other hother

def unfound (found : List (Route α ρ)) : List α :=
  N.nodes.filter (· ∉ found.map Route.target)

variable {found front back : List (Route α ρ)} {initial : List α}

theorem unfound_lt {route : Route α ρ} (hnew : new ≠ [])
    (hfresh : ∀ r ∈ new, r.target ∉ found.map Route.target)
    (hextends : ∀ r ∈ new, ∃ edge ∈ N.next route.target, r = route.extend edge.1 edge.2) :
    (N.unfound (new ++ found)).length < (N.unfound found).length := by
  have hsplit : N.unfound (new ++ found) =
      (N.unfound found).filter (· ∉ new.map Route.target) := by
    rw [unfound, unfound, filter_filter]
    refine filter_congr fun a _ => ?_
    simp [map_append, mem_append, not_or]
  rw [hsplit]
  obtain ⟨r, hr⟩ := exists_mem_of_ne_nil new hnew
  obtain ⟨edge, hedge, heq⟩ := hextends r hr
  refine length_filter_lt_length_iff_exists.2 ⟨r.target, mem_filter.2 ⟨?_, ?_⟩, ?_⟩
  · rw [heq]
    exact N.closed hedge
  · exact decide_eq_true (hfresh r hr)
  · simpa using ⟨r, hr, rfl⟩

def explore (front back found : List (Route α ρ)) : List (Route α ρ) :=
  match front, back with
  | route :: front, back =>
    explore front (discover route (N.next route.target) found back).2
      (discover route (N.next route.target) found back).1
  | [], route :: back => explore (route :: back).reverse [] found
  | [], [] => found
termination_by ((N.unfound found).length, front.length + back.length, back.length)
decreasing_by
  · obtain ⟨new, heq, _, hfresh, hextends, _⟩ :=
      discover_spec route (N.next route.target) found back
    rw [heq]
    by_cases hnew : new = []
    · subst hnew
      exact .right _ (.left _ _ (by simp only [nil_append, length_cons]; omega))
    · exact .left _ _ (N.unfound_lt hnew hfresh hextends)
  · exact .right _ (by
      simp only [length_reverse, length_cons, length_nil, Nat.zero_add, Nat.add_zero]
      exact .right _ (Nat.succ_pos _))

variable {motive : List (Route α ρ) → List (Route α ρ) → Prop}

/-- **The rule of the search**: what holds of the routes that wait, in their order, and
of the routes that were found, and is kept when a route is taken up, holds of the
routes found in the end. -/
theorem explore_in_order (hstep : ∀ {route queue found new}, motive (route :: queue) found →
      (new.map Route.target).Nodup → (∀ r ∈ new, r.target ∉ found.map Route.target) →
      (∀ r ∈ new, ∃ edge ∈ N.next route.target, r = route.extend edge.1 edge.2) →
      (∀ edge ∈ N.next route.target, edge.1 ∈ (new ++ found).map Route.target) →
      motive (queue ++ new.reverse) (new ++ found)) (h : motive (front ++ back.reverse) found) :
    motive [] (N.explore front back found) := by
  induction front, back, found using explore.induct N with
  | case1 found route front back ih =>
    rw [explore]
    apply ih
    obtain ⟨new, heq, hnodup, hfresh, hextends, hall⟩ :=
      discover_spec route (N.next route.target) found back
    rw [heq]
    show motive (front ++ (new ++ back).reverse) (new ++ found)
    rw [reverse_append, ← append_assoc]
    exact hstep h hnodup hfresh hextends hall
  | case2 found route back ih =>
    rw [explore]
    apply ih
    rwa [reverse_nil, append_nil]
  | case3 found =>
    rw [explore]
    exact h

theorem explore_ends
    (hperm : ∀ {queue queue' found}, queue.Perm queue' → motive queue found → motive queue' found)
    (hstep : ∀ {route queue found new}, motive (route :: queue) found →
      (new.map Route.target).Nodup → (∀ r ∈ new, r.target ∉ found.map Route.target) →
      (∀ r ∈ new, ∃ edge ∈ N.next route.target, r = route.extend edge.1 edge.2) →
      (∀ edge ∈ N.next route.target, edge.1 ∈ (new ++ found).map Route.target) →
      motive (new ++ queue) (new ++ found)) (h : motive (front ++ back) found) :
    motive [] (N.explore front back found) := by
  apply N.explore_in_order
  · intro route queue found new hqueue hnodup hfresh hextends hall
    refine hperm ?_ (hstep hqueue hnodup hfresh hextends hall)
    exact (perm_append_comm).trans ((reverse_perm new).symm.append_left queue)
  · exact hperm ((reverse_perm back).symm.append_left front) h

theorem explore_follows (hqueue : ∀ r ∈ front ++ back, N.Follows initial r)
    (hfound : ∀ r ∈ found, N.Follows initial r) :
    ∀ r ∈ N.explore front back found, N.Follows initial r := by
  refine (N.explore_ends (motive := fun queue found => (∀ r ∈ queue, N.Follows initial r) ∧
    ∀ r ∈ found, N.Follows initial r) ?_ ?_ ⟨hqueue, hfound⟩).2
  · exact fun hperm h => ⟨fun r hr => h.1 r (hperm.mem_iff.2 hr), h.2⟩
  · intro route queue found new h _ _ hextends _
    have hnew : ∀ r ∈ new, N.Follows initial r := by
      intro r hr
      obtain ⟨edge, hedge, rfl⟩ := hextends r hr
      exact .extend (h.1 route mem_cons_self) hedge
    exact ⟨fun r hr => (mem_append.1 hr).elim (hnew r) fun hr =>
        h.1 r (mem_cons_of_mem _ hr),
      fun r hr => (mem_append.1 hr).elim (hnew r) (h.2 r)⟩

def exploreFrom (initial : List α) : List (Route α ρ) :=
  N.explore (initial.map .start) [] (initial.map Route.start).reverse

theorem exploreFrom_follows : ∀ r ∈ N.exploreFrom initial, N.Follows initial r := by
  have hstart : ∀ r ∈ initial.map (Route.start : α → Route α ρ), N.Follows initial r := by
    intro r hr
    obtain ⟨start, hmem, rfl⟩ := mem_map.1 hr
    exact .start hmem
  apply N.explore_follows
  · rwa [append_nil]
  · exact fun r hr => hstart r (mem_reverse.1 hr)

/-- **The search finds exactly what can be reached.** -/
theorem mem_exploreFrom {a : α} : a ∈ (N.exploreFrom initial).map Route.target ↔
      ∃ start ∈ initial, Relation.ReflTransGen N.Leads start a := by
  constructor
  · intro hmem
    obtain ⟨r, hr, rfl⟩ := mem_map.1 hmem
    exact (N.exploreFrom_follows r hr).reached
  · -- where the search began was found, and the neighbours of what does not wait were
    have hcovers : N.Covers initial [] (N.exploreFrom initial) := by
      refine N.explore_ends (motive := N.Covers initial) (fun hperm h => h.perm N hperm)
        (fun h _ _ _ hall => h.step N hall) ?_
      rw [append_nil]
      exact N.covers_start initial
    rintro ⟨start, hmem, hpath⟩
    induction hpath with
    | refl => exact hcovers.1 start hmem
    | tail _ hlast ih => exact ((hcovers.2 _ ih).resolve_left not_mem_nil) _ hlast

/-- The routes that wait were found and stand in the order of their steps. None that
was found is more than one step longer than one that waits, and the neighbours of
what does not wait are at most one step further. -/
structure Layered (queue found : List (Route α ρ)) : Prop where
  distinct : (found.map Route.target).Nodup
  waiting : ∀ r ∈ queue, r ∈ found
  ascending : queue.Pairwise fun r s => r.steps ≤ s.steps
  near : ∀ r ∈ found, ∀ s ∈ queue, r.steps ≤ s.steps + 1
  followed : ∀ r ∈ found, r ∈ queue ∨ ∀ edge ∈ N.next r.target,
    ∃ s ∈ found, s.target = edge.1 ∧ s.steps ≤ r.steps + 1

variable {N}

variable {initial : List α} {found : List (Route α ρ)} {labels : List ρ} {r : Route α ρ}

omit [DecidableEq α] in
theorem Layered.start (h : initial.Nodup) :
    N.Layered (initial.map .start) (initial.map Route.start).reverse := by
  have hzero : ∀ r ∈ initial.map (Route.start : α → Route α ρ), r.steps = 0 := by
    intro r hr
    obtain ⟨a, _, rfl⟩ := mem_map.1 hr
    rfl
  refine ⟨?_, fun r hr => mem_reverse.2 hr, ?_, fun r hr s _ => ?_, fun r hr => ?_⟩
  · rw [map_reverse, map_map, nodup_reverse]
    exact (map_id initial).symm ▸ h
  · exact pairwise_of_forall_mem_list fun r hr s _ => (hzero r hr) ▸ Nat.zero_le _
  · rw [hzero r (mem_reverse.1 hr)]
    exact Nat.zero_le _
  · exact .inl (mem_reverse.1 hr)

omit [DecidableEq α] in
theorem Layered.step {route : Route α ρ} {queue : List (Route α ρ)}
    (h : N.Layered (route :: queue) found) (hnodup : (new.map Route.target).Nodup)
    (hfresh : ∀ r ∈ new, r.target ∉ found.map Route.target)
    (hextends : ∀ r ∈ new, ∃ edge ∈ N.next route.target, r = route.extend edge.1 edge.2)
    (hall : ∀ edge ∈ N.next route.target, edge.1 ∈ (new ++ found).map Route.target) :
    N.Layered (queue ++ new.reverse) (new ++ found) := by
  have hnew : ∀ r ∈ new, r.steps = route.steps + 1 := by
    intro r hr
    obtain ⟨edge, _, rfl⟩ := hextends r hr
    exact Route.steps_extend _ _ _
  have hfirst : ∀ s ∈ queue, route.steps ≤ s.steps := (pairwise_cons.1 h.ascending).1
  have hfound : ∀ r ∈ found, r.steps ≤ route.steps + 1 :=
    fun r hr => h.near r hr route mem_cons_self
  refine ⟨?_, fun r hr => ?_, ?_, fun r hr s hs => ?_, fun r hr => ?_⟩
  · rw [map_append, nodup_append]
    refine ⟨hnodup, h.distinct, fun a ha b hb heq => ?_⟩
    obtain ⟨r, hr, rfl⟩ := mem_map.1 ha
    exact hfresh r hr (heq ▸ hb)
  · rw [mem_append, mem_reverse] at hr
    rw [mem_append]
    exact hr.symm.imp_right fun hr => h.waiting r (mem_cons_of_mem _ hr)
  · rw [pairwise_append, pairwise_reverse]
    refine ⟨(pairwise_cons.1 h.ascending).2, ?_, fun r hr s hs => ?_⟩
    · exact pairwise_of_forall_mem_list fun r hr s hs => Nat.le_of_eq ((hnew s hs).trans (hnew r hr).symm)
    · rw [hnew s (mem_reverse.1 hs)]
      exact hfound r (h.waiting r (mem_cons_of_mem _ hr))
  · -- what was found is at most one step past the route that is taken up
    have hr : r.steps ≤ route.steps + 1 :=
      (mem_append.1 hr).elim (fun hr => Nat.le_of_eq (hnew r hr)) (hfound r)
    have hs : route.steps ≤ s.steps := by
      rw [mem_append, mem_reverse] at hs
      exact hs.elim (hfirst s) fun hs => by rw [hnew s hs]; omega
    omega
  · by_cases hin : r ∈ new
    · exact .inl (mem_append_right _ (mem_reverse.2 hin))
    · have hr : r ∈ found := (mem_append.1 hr).resolve_left hin
      rcases h.followed r hr with hqueue | hnext
      · rcases mem_cons.1 hqueue with rfl | hqueue
        · refine .inr fun edge hedge => ?_
          obtain ⟨s, hs, htarget⟩ := mem_map.1 (hall edge hedge)
          refine ⟨s, hs, htarget, ?_⟩
          exact (mem_append.1 hs).elim (fun hs => Nat.le_of_eq (hnew s hs)) (hfound s)
        · exact .inl (mem_append_left _ hqueue)
      · refine .inr fun edge hedge => ?_
        obtain ⟨s, hs, hspec⟩ := hnext edge hedge
        exact ⟨s, mem_append_right _ hs, hspec⟩

omit [DecidableEq α] in
theorem Layered.along (h : N.Layered [] found) {nodes : List α}
    (hway : Way (fun a label b => (b, label) ∈ N.next a) nodes labels) (hr : r ∈ found)
    (hhead : nodes.head? = some r.target) {b : α} (hlast : nodes.getLast? = some b) :
    ∃ s ∈ found, s.target = b ∧ s.steps ≤ r.steps + labels.length := by
  induction hway generalizing r with
  | stay a =>
    refine ⟨r, hr, ?_, by simp⟩
    exact (Option.some.inj hhead).symm.trans (Option.some.inj hlast)
  | @go a c label nodes labels hnext _ ih =>
    obtain rfl : a = r.target := Option.some.inj hhead
    obtain ⟨s, hs, htarget, hsteps⟩ :=
      (h.followed r hr).resolve_left not_mem_nil _ hnext
    rw [List.getLast?_cons_cons] at hlast
    obtain ⟨t, ht, hend, hlength⟩ := ih hs (by rw [htarget]; rfl) hlast
    refine ⟨t, ht, hend, ?_⟩
    rw [length_cons]
    omega

/-- **The search finds shortest ways**: no way from where it began to the end of a
route is shorter than the route. -/
theorem exploreFrom_shortest (hinitial : initial.Nodup) (hr : r ∈ N.exploreFrom initial)
    {nodes : List α} (hway : Way (fun a label b => (b, label) ∈ N.next a) nodes labels) {a : α}
    (ha : a ∈ initial) (hhead : nodes.head? = some a) (hlast : nodes.getLast? = some r.target) :
    r.steps ≤ labels.length := by
  -- the start stays found while the search goes on
  have hends : N.Layered [] (N.exploreFrom initial) ∧ Route.start a ∈ N.exploreFrom initial := by
    apply N.explore_in_order (motive := fun queue found => N.Layered queue found ∧
      Route.start a ∈ found)
    · intro route queue found new hkept hnodup hfresh hextends hall
      exact ⟨hkept.1.step hnodup hfresh hextends hall, mem_append_right _ hkept.2⟩
    · rw [reverse_nil, append_nil]
      exact ⟨.start hinitial, mem_reverse.2 (mem_map_of_mem ha)⟩
  obtain ⟨s, hs, htarget, hsteps⟩ := hends.1.along hway hends.2 hhead hlast
  obtain rfl : s = r := inj_on_of_nodup_map hends.1.distinct hs hr htarget
  rwa [Route.steps_start, Nat.zero_add] at hsteps

theorem nodup_exploreFrom (hinitial : initial.Nodup) :
    ((N.exploreFrom initial).map Route.target).Nodup := by
  apply Layered.distinct
  apply N.explore_in_order (motive := N.Layered)
  · exact fun hkept => hkept.step
  · rw [reverse_nil, append_nil]
    exact .start hinitial

end Roads

end PooFlow.Foundation
