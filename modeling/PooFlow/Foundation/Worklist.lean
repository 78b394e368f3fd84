import Mathlib.Data.List.Basic
import Mathlib.Logic.Relation

namespace PooFlow.Foundation

open List Relation

variable {α κ β : Type*}

/-- Put `value` before the values of `key`. -/
def pushUnder [DecidableEq κ] (table : κ → List β) (key : κ) (value : β) : κ → List β :=
  fun other => if other = key then value :: table key else table other

def collect [DecidableEq κ] (entries : List (κ × β)) : κ → List β :=
  entries.foldl (fun table entry => pushUnder table entry.1 entry.2) (fun _ => [])

variable (entries : List (κ × β))

theorem foldl_pushUnder [DecidableEq κ] (table : κ → List β) (key : κ) :
    entries.foldl (fun table entry => pushUnder table entry.1 entry.2) table key =
      ((entries.filter fun entry => entry.1 = key).map Prod.snd).reverse ++ table key := by
  induction entries generalizing table with
  | nil => rfl
  | cons entry entries ih =>
    rw [foldl_cons, ih]
    by_cases hkey : entry.1 = key
    · subst hkey
      simp [pushUnder]
    · simp [pushUnder, hkey, Ne.symm hkey]

theorem collect_eq [DecidableEq κ] (key : κ) :
    collect entries key = ((entries.filter fun entry => entry.1 = key).map Prod.snd).reverse := by
  rw [collect, foldl_pushUnder, append_nil]

@[simp] theorem mem_collect [DecidableEq κ] {entries : List (κ × β)} {key : κ} {value : β} :
    value ∈ collect entries key ↔ (key, value) ∈ entries := by
  simp only [collect_eq, mem_reverse, mem_map, mem_filter, decide_eq_true_eq]
  constructor
  · rintro ⟨⟨_, _⟩, ⟨hmem, rfl⟩, rfl⟩
    exact hmem
  · intro hmem
    exact ⟨_, ⟨hmem, rfl⟩, rfl⟩

def deleteDuplicates [DecidableEq α] : List α → List α
  | [] => []
  | a :: rest => a :: (deleteDuplicates rest).filter (· ≠ a)

@[simp] theorem mem_deleteDuplicates [DecidableEq α] {values : List α} {a : α} :
    a ∈ deleteDuplicates values ↔ a ∈ values := by
  induction values with
  | nil => rfl
  | cons b rest ih =>
    by_cases hab : a = b <;> simp [deleteDuplicates, hab, ih]

theorem nodup_deleteDuplicates [DecidableEq α] (values : List α) :
    (deleteDuplicates values).Nodup := by
  induction values with
  | nil => exact nodup_nil
  | cons a rest ih =>
    rw [deleteDuplicates, nodup_cons]
    exact ⟨fun hmem => of_decide_eq_true (mem_filter.1 hmem).2 rfl, ih.filter _⟩

structure Network (α : Type*) where
  nodes : List α
  children : α → List α
  closed : ∀ {parent child : α}, child ∈ children parent → child ∈ nodes

namespace Network

variable (N : Network α)

abbrev Node := {a : α // a ∈ N.nodes}

def childNodes (a : α) : List N.Node :=
  (N.children a).pmap Subtype.mk fun _ hchild => N.closed hchild

@[simp] theorem mem_childNodes {a : α} {child : N.Node} :
    child ∈ N.childNodes a ↔ child.1 ∈ N.children a := by
  simp only [childNodes, mem_pmap]
  constructor
  · rintro ⟨value, hmem, rfl⟩
    exact hmem
  · intro hmem
    exact ⟨child.1, hmem, rfl⟩

/-- The edges of the network. -/
def Leads (parent child : α) : Prop := child ∈ N.children parent

/-- A search from `initial`, with nodes to visit and nodes seen: both can be
reached, and where the search started and what was seen lead to one or the other. -/
structure Searching (initial queue : List N.Node) (seen : List α) : Prop where
  reached : ∀ a, a ∈ seen ∨ a ∈ queue.map Subtype.val →
    ∃ start ∈ initial, Relation.ReflTransGen N.Leads start.1 a
  started : ∀ start ∈ initial, start.1 ∈ seen ∨ start.1 ∈ queue.map Subtype.val
  followed : ∀ parent ∈ seen, ∀ child, N.Leads parent child →
    child ∈ seen ∨ child ∈ queue.map Subtype.val

section

variable {N} {initial queue queue' : List N.Node} {seen : List α}

theorem Searching.perm (hperm : queue.Perm queue') (h : N.Searching initial queue seen) :
    N.Searching initial queue' seen := by
  have hmem : ∀ a, a ∈ queue.map Subtype.val ↔ a ∈ queue'.map Subtype.val :=
    fun a => (hperm.map Subtype.val).mem_iff
  refine ⟨fun a ha => h.reached a (ha.imp_right (hmem a).2), ?_, ?_⟩
  · exact fun start hstart => (h.started start hstart).imp_right (hmem _).1
  · exact fun parent hparent child hchild =>
      (h.followed parent hparent child hchild).imp_right (hmem child).1

theorem Searching.drop {id : N.Node} (h : N.Searching initial (id :: queue) seen)
    (hmem : id.1 ∈ seen) : N.Searching initial queue seen := by
  -- what waits as the dropped node was seen
  have hleft : ∀ a, a ∈ seen ∨ a ∈ (id :: queue).map Subtype.val →
      a ∈ seen ∨ a ∈ queue.map Subtype.val := by
    rintro a (hseen | hqueue)
    · exact .inl hseen
    · rcases mem_cons.1 hqueue with rfl | hqueue
      · exact .inl hmem
      · exact .inr hqueue
  refine ⟨fun a ha => h.reached a (ha.imp_right (mem_cons_of_mem _)), ?_, ?_⟩
  · exact fun start hstart => hleft _ (h.started start hstart)
  · exact fun parent hparent child hchild => hleft _ (h.followed parent hparent child hchild)

theorem Searching.visit {id : N.Node} (h : N.Searching initial (id :: queue) seen) :
    N.Searching initial (N.childNodes id.1 ++ queue) (id.1 :: seen) := by
  have hchildren : ∀ a, a ∈ (N.childNodes id.1 ++ queue).map Subtype.val ↔
      N.Leads id.1 a ∨ a ∈ queue.map Subtype.val := by
    intro a
    rw [map_append, mem_append, mem_map]
    refine or_congr_left ⟨?_, fun hchild => ?_⟩
    · rintro ⟨child, hchild, rfl⟩
      exact N.mem_childNodes.1 hchild
    · exact ⟨⟨a, N.closed hchild⟩, N.mem_childNodes.2 hchild, rfl⟩
  have hkept : ∀ a, a ∈ seen ∨ a ∈ (id :: queue).map Subtype.val →
      a ∈ id.1 :: seen ∨ a ∈ (N.childNodes id.1 ++ queue).map Subtype.val := by
    rintro a (hseen | hqueue)
    · exact .inl (mem_cons_of_mem _ hseen)
    · rcases mem_cons.1 hqueue with rfl | hqueue
      · exact .inl mem_cons_self
      · exact .inr ((hchildren a).2 (.inr hqueue))
  obtain ⟨start, hstart, hpath⟩ := h.reached id.1 (.inr mem_cons_self)
  refine ⟨?_, fun start hstart => hkept _ (h.started start hstart), ?_⟩
  · rintro a (hseen | hqueue)
    · rcases mem_cons.1 hseen with rfl | hseen
      · exact ⟨start, hstart, hpath⟩
      · exact h.reached a (.inl hseen)
    · rcases (hchildren a).1 hqueue with hchild | hqueue
      -- a child of the visited node is reached from the node itself
      · exact ⟨start, hstart, hpath.tail hchild⟩
      · exact h.reached a (.inr (mem_cons_of_mem _ hqueue))
  · intro parent hparent child hchild
    rcases mem_cons.1 hparent with rfl | hparent
    · exact .inr ((hchildren child).2 (.inl hchild))
    · exact hkept _ (h.followed parent hparent child hchild)

theorem Searching.initially (initial : List N.Node) : N.Searching initial initial [] := by
  refine ⟨?_, fun start hstart => .inr (mem_map_of_mem hstart),
    fun parent hparent => absurd hparent not_mem_nil⟩
  rintro a (hseen | hqueue)
  · cases hseen
  · obtain ⟨start, hstart, rfl⟩ := mem_map.1 hqueue
    exact ⟨start, hstart, .refl⟩

theorem Searching.mem_iff (h : N.Searching initial [] seen) {a : α} :
    a ∈ seen ↔ ∃ start ∈ initial, ReflTransGen N.Leads start.1 a := by
  have hempty : ∀ a : α, a ∉ ([] : List N.Node).map Subtype.val := fun _ => not_mem_nil
  constructor
  · exact fun hseen => h.reached a (.inl hseen)
  · rintro ⟨start, hstart, hpath⟩
    induction hpath with
    | refl => exact (h.started start hstart).resolve_right (hempty _)
    | tail _ hlast ih => exact (h.followed _ ih _ hlast).resolve_right (hempty _)

end

variable [DecidableEq α]

variable {seen : List α}

theorem unseen_lt {id : α} (hnode : id ∈ N.nodes) (hseen : id ∉ seen) :
    (N.nodes.filter (· ∉ id :: seen)).length < (N.nodes.filter (· ∉ seen)).length := by
  have hsplit : N.nodes.filter (· ∉ id :: seen) =
      (N.nodes.filter (· ∉ seen)).filter (· ≠ id) := by
    rw [filter_filter]
    refine filter_congr fun a _ => ?_
    simp [mem_cons]
  rw [hsplit]
  refine length_filter_lt_length_iff_exists.2 ⟨id, ?_, by simp⟩
  exact mem_filter.2 ⟨hnode, by simpa using hseen⟩

def search (front back : List N.Node) (seen : List α) : List α :=
  match front, back with
  | id :: front, back =>
    if id.1 ∈ seen then search front back seen
    else search front (N.childNodes id.1 ++ back) (id.1 :: seen)
  | [], id :: back => search (id :: back).reverse [] seen
  | [], [] => seen
termination_by
  ((N.nodes.filter (· ∉ seen)).length, front.length + back.length, back.length)
decreasing_by
  · exact .right _ (.left _ _ (by simp only [length_cons]; omega))
  · exact .left _ _ (N.unseen_lt id.2 ‹_›)
  · exact .right _ (by
      simp only [length_reverse, length_cons, length_nil, Nat.zero_add, Nat.add_zero]
      exact .right _ (Nat.succ_pos _))

variable (id : N.Node) (front back : List N.Node) {initial : List N.Node} {a : α}

theorem search_seen (h : id.1 ∈ seen) :
    N.search (id :: front) back seen = N.search front back seen := by
  rw [search, if_pos h]

theorem search_unseen (h : id.1 ∉ seen) : N.search (id :: front) back seen =
      N.search front (N.childNodes id.1 ++ back) (id.1 :: seen) := by
  rw [search, if_neg h]

/-- **The rule of the search**: what holds of the nodes to visit, in any order, and
of the nodes seen, and is kept when a node is dropped or visited, holds of the
nodes visited in the end. -/
theorem search_ends {motive : List N.Node → List α → Prop}
    (hperm : ∀ {queue queue' seen}, queue.Perm queue' → motive queue seen → motive queue' seen)
    (hdrop : ∀ {id queue seen}, id.1 ∈ seen → motive (id :: queue) seen → motive queue seen)
    (hvisit : ∀ {id queue seen}, id.1 ∉ seen → motive (id :: queue) seen →
      motive (N.childNodes id.1 ++ queue) (id.1 :: seen)) {front back : List N.Node}
    (h : motive (front ++ back) seen) : motive [] (N.search front back seen) := by
  induction front, back, seen using search.induct N with
  | case1 seen id front back hmem ih =>
    rw [search_seen _ _ _ _ hmem]
    exact ih (hdrop hmem h)
  | case2 seen id front back hmem ih =>
    rw [search_unseen _ _ _ _ hmem]
    exact ih (hperm (perm_append_comm_assoc _ _ _) (hvisit hmem h))
  | case3 seen id back ih =>
    rw [search]
    apply ih
    rw [append_nil]
    exact hperm (reverse_perm _).symm h
  | case4 seen =>
    rw [search]
    exact h

theorem nodup_search {front back : List N.Node} (h : seen.Nodup) :
    (N.search front back seen).Nodup :=
  N.search_ends (motive := fun _ seen => seen.Nodup) (fun _ h => h) (fun _ h => h)
    (fun hmem h => nodup_cons.2 ⟨hmem, h⟩) h

/-- **The search visits exactly what can be reached.** -/
theorem mem_search : a ∈ N.search initial [] [] ↔
      ∃ start ∈ initial, ReflTransGen N.Leads start.1 a := by
  refine (N.search_ends (motive := N.Searching initial) .perm (fun hmem h => h.drop hmem)
    (fun _ h => h.visit) ?_).mem_iff
  rw [append_nil]
  exact .initially initial

def walk (pending : List N.Node) (seen : List α) : List α :=
  match pending with
  | [] => seen.reverse
  | id :: pending =>
    if id.1 ∈ seen then walk pending seen
    else walk (pending ++ N.childNodes id.1) (id.1 :: seen)
termination_by ((N.nodes.filter (· ∉ seen)).length, pending.length)
decreasing_by
  · exact .right _ (Nat.lt_succ_self _)
  · exact .left _ _ (N.unseen_lt id.2 ‹_›)

/-- **The walk visits exactly what can be reached.** -/
theorem mem_walk :
    a ∈ N.walk initial [] ↔ ∃ start ∈ initial, ReflTransGen N.Leads start.1 a := by
  have hends : ∀ queue seen, N.Searching initial queue seen →
      ∃ seen', N.Searching initial [] seen' ∧ N.walk queue seen = seen'.reverse := by
    intro queue seen
    induction queue, seen using walk.induct N with
    | case1 seen => exact fun h => ⟨seen, h, by rw [walk]⟩
    | case2 seen id queue hmem ih =>
      rw [walk, if_pos hmem]
      exact fun h => ih (h.drop hmem)
    | case3 seen id queue hmem ih =>
      rw [walk, if_neg hmem]
      exact fun h => ih (h.visit.perm perm_append_comm)
  obtain ⟨seen', hsearching, hwalk⟩ := hends initial [] (.initially initial)
  rw [hwalk, mem_reverse, hsearching.mem_iff]

theorem nodup_walk {pending : List N.Node} (h : seen.Nodup) : (N.walk pending seen).Nodup := by
  induction pending, seen using walk.induct N with
  | case1 seen =>
    rw [walk]
    exact (reverse_perm seen).nodup_iff.2 h
  | case2 seen id pending hmem ih =>
    rw [walk, if_pos hmem]
    exact ih h
  | case3 seen id pending hmem ih =>
    rw [walk, if_neg hmem]
    exact ih (nodup_cons.2 ⟨hmem, h⟩)

end Network

end PooFlow.Foundation
