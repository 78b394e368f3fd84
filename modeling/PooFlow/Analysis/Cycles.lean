import Mathlib.Data.List.Chain
import PooFlow.Foundation.Worklist

/-! The depth-first search of `graph/algorithms.ss`: an id is `'visiting` while it is on the stack,
then `'visited`. -/

namespace PooFlow.Analysis

open Foundation List Relation

variable {α : Type*} [DecidableEq α]

structure PooFlowGraph (α : Type*) where
  graphId : α
  nodes : List α
  edges : List (α × α)

def outgoingIndex (edgePairs : List (α × α)) : α → List α := collect edgePairs.reverse

def incomingIndex (edgePairs : List (α × α)) : α → List α :=
  collect (edgePairs.reverse.map Prod.swap)

variable {edgePairs : List (α × α)} {source target : α}

theorem mem_outgoingIndex :
    target ∈ outgoingIndex edgePairs source ↔ (source, target) ∈ edgePairs := by
  simp [outgoingIndex]

theorem mem_incomingIndex :
    source ∈ incomingIndex edgePairs target ↔ (source, target) ∈ edgePairs := by
  simp [incomingIndex]

def outgoingNetwork (edgePairs : List (α × α)) (ids : List α) : Network α where
  nodes := ids ++ edgePairs.map Prod.snd
  children := outgoingIndex edgePairs
  closed := fun hchild =>
    mem_append_right _ (mem_map.2 ⟨_, mem_outgoingIndex.1 hchild, rfl⟩)

def incomingNetwork (edgePairs : List (α × α)) (ids : List α) : Network α where
  nodes := ids ++ edgePairs.map Prod.fst
  children := incomingIndex edgePairs
  closed := fun hchild =>
    mem_append_right _ (mem_map.2 ⟨_, mem_incomingIndex.1 hchild, rfl⟩)

/-- `cycle-path-from`: the part of the stack above `id`, closed at both ends. -/
def cyclePathFrom (id : α) : List α → List α → List α
  | [], _ => [id]
  | node :: stack, pathTail =>
    if id = node then id :: (pathTail ++ [id]) else cyclePathFrom id stack (node :: pathTail)

section

variable (N : Network α)

mutual

/-- `cycle-dfs/indexed`: the cycle found, and what was visited, the last id last. -/
def cycleDfs (id : N.Node) (stack visited : List α) : Option (List α) × List α :=
  if id.1 ∈ stack then (some (cyclePathFrom id.1 stack []), visited)
  else if id.1 ∈ visited then (none, visited)
  else
    let search := cycleDfsNeighbors (N.childNodes id.1) (id.1 :: stack) visited
    (search.1, search.2 ++ [id.1])
termination_by ((N.nodes.filter (· ∉ stack)).length, 0)
decreasing_by exact .left _ _ (N.unseen_lt id.2 ‹_›)

/-- `cycle-dfs-neighbors/indexed`. -/
def cycleDfsNeighbors (ids : List N.Node) (stack visited : List α) : Option (List α) × List α :=
  match ids with
  | [] => (none, visited)
  | id :: ids =>
    let search := cycleDfs id stack visited
    match search.1 with
    | some cycle => (some cycle, search.2)
    | none => cycleDfsNeighbors ids stack search.2
termination_by ((N.nodes.filter (· ∉ stack)).length, ids.length)
decreasing_by
  · exact .right _ (Nat.succ_pos _)
  · exact .right _ (Nat.lt_succ_self _)

end

/-- `find-cycle-from-nodes/indexed`, with the states as its result too. -/
def findCycleFromNodes (ids : List N.Node) (visited : List α) : Option (List α) × List α :=
  cycleDfsNeighbors N ids [] visited

def Descends (order : List α) : Prop :=
  ∀ id ∈ order, ∀ neighbour ∈ N.children id, order.idxOf neighbour < order.idxOf id

variable {N}

variable {order : List α} {id : α} {ids : List N.Node} {first : α}

theorem Descends.mem (h : Descends N order) {neighbour : α} (hid : id ∈ order)
    (hneighbour : neighbour ∈ N.children id) : neighbour ∈ order :=
  idxOf_lt_length_iff.1
    (Nat.lt_trans (h id hid neighbour hneighbour) (idxOf_lt_length_of_mem hid))

theorem Descends.concat (h : Descends N order)
    (hneighbours : ∀ neighbour ∈ N.children id, neighbour ∈ order) :
    Descends N (order ++ [id]) := by
  intro listed hlisted neighbour hneighbour
  by_cases hknown : listed ∈ order
  · rw [idxOf_append_of_mem (h.mem hknown hneighbour), idxOf_append_of_mem hknown]
    exact h listed hknown neighbour hneighbour
  · obtain rfl := mem_singleton.1 ((mem_append.1 hlisted).resolve_left hknown)
    have hearlier := hneighbours neighbour hneighbour
    rw [idxOf_append_of_mem hearlier, idxOf_append_of_notMem hknown]
    exact Nat.lt_add_right _ (idxOf_lt_length_of_mem hearlier)

variable (N) in
/-- What a search without a cycle adds to the visited ids. -/
structure Visits (visited visited' : List α) : Prop where
  descends : Descends N visited → Descends N visited'
  grows : visited ⊆ visited'

theorem Visits.trans {first second third : List α} (h : Visits N first second)
    (h' : Visits N second third) : Visits N first third :=
  ⟨fun hdescends => h'.descends (h.descends hdescends), fun _ hid => h'.grows (h.grows hid)⟩

/-- **One visit, and the visits of some neighbours.** -/
theorem cycleDfs_visits :
    (∀ (id : N.Node) (stack visited : List α), (cycleDfs N id stack visited).1 = none →
      Visits N visited (cycleDfs N id stack visited).2 ∧
        id.1 ∈ (cycleDfs N id stack visited).2) ∧
    ∀ (ids : List N.Node) (stack visited : List α), (cycleDfsNeighbors N ids stack visited).1 = none →
      Visits N visited (cycleDfsNeighbors N ids stack visited).2 ∧
        ∀ id ∈ ids, id.1 ∈ (cycleDfsNeighbors N ids stack visited).2 := by
  apply cycleDfs.mutual_induct N
  · intro id stack visited hvisiting h
    rw [cycleDfs, if_pos hvisiting] at h
    cases h
  · intro id stack visited hvisiting hvisited _
    rw [cycleDfs, if_neg hvisiting, if_pos hvisited]
    exact ⟨⟨fun hdescends => hdescends, fun _ hid => hid⟩, hvisited⟩
  · intro id stack visited hvisiting hvisited ih h
    -- the neighbours are done, so the id may be listed last
    rw [cycleDfs, if_neg hvisiting, if_neg hvisited] at h ⊢
    obtain ⟨hvisits, hneighbours⟩ := ih h
    refine ⟨⟨fun hdescends => (hvisits.descends hdescends).concat ?_, ?_⟩, by simp⟩
    · intro neighbour hneighbour
      exact hneighbours ⟨neighbour, N.closed hneighbour⟩ (N.mem_childNodes.2 hneighbour)
    · exact fun _ hid => mem_append_left _ (hvisits.grows hid)
  · intro stack visited _
    rw [cycleDfsNeighbors]
    exact ⟨⟨fun hdescends => hdescends, fun _ hid => hid⟩, fun _ hid => absurd hid not_mem_nil⟩
  · intro stack visited id ids search cycle hcycle _ h
    rw [cycleDfsNeighbors] at h
    simp only [show (cycleDfs N id stack visited).1 = some cycle from hcycle] at h
    cases h
  · intro stack visited id ids search hnone ih ihs h
    have hfirst : (cycleDfs N id stack visited).1 = none := hnone
    rw [cycleDfsNeighbors] at h ⊢
    simp only [hfirst] at h ⊢
    obtain ⟨hvisits, hid⟩ := ih hfirst
    obtain ⟨hrest, hids⟩ := ihs h
    exact ⟨hvisits.trans hrest, forall_mem_cons.2 ⟨hrest.grows hid, hids⟩⟩

/-- **Without a cycle, what was visited descends**, and every node was visited. -/
theorem findCycleFromNodes_descends (h : (findCycleFromNodes N ids []).1 = none) :
    Descends N (findCycleFromNodes N ids []).2 ∧
      ∀ id ∈ ids, id.1 ∈ (findCycleFromNodes N ids []).2 := by
  obtain ⟨hvisits, hids⟩ := cycleDfs_visits.2 ids [] [] h
  exact ⟨hvisits.descends fun _ hid => absurd hid not_mem_nil, hids⟩

variable {last : α} {R : α → α → Prop} {stack : List α}

section

variable (h : Descends N order) (hfirst : first ∈ order)

include h hfirst

theorem Descends.mem_of_reaches (hpath : ReflTransGen N.Leads first last) :
    last ∈ order := by
  induction hpath with
  | refl => exact hfirst
  | tail _ hlast ih => exact h.mem ih hlast

theorem Descends.idxOf_lt (hpath : TransGen N.Leads first last) :
    order.idxOf last < order.idxOf first := by
  induction hpath with
  | single hlast => exact h _ hfirst _ hlast
  | tail hpath hlast ih =>
    exact Nat.lt_trans (h _ (h.mem_of_reaches hfirst hpath.to_reflTransGen) _ hlast) ih

theorem Descends.no_cycle (hpath : ReflTransGen N.Leads first id) :
    ¬TransGen N.Leads id id := fun hcycle =>
  Nat.lt_irrefl _ (h.idxOf_lt (h.mem_of_reaches hfirst hpath) hcycle)

end

/-- The path of a cycle: it ends where it starts, and follows a relation. -/
structure ClosedPath (R : α → α → Prop) (path : List α) : Prop where
  closed : ∃ id inner, path = id :: (inner ++ [id])
  follows : path.IsChain R

omit [DecidableEq α] in
theorem ClosedPath.transGen {inner : List α} (h : ClosedPath R (id :: (inner ++ [id]))) :
    TransGen R id id := by
  have hchain := h.follows
  -- every id of the path comes after its first one
  have hafter : ∀ (first : α) (rest : List α), (first :: (rest ++ [id])).IsChain R →
      TransGen R first id := by
    intro first rest
    induction rest generalizing first with
    | nil => exact fun hlast => .single (isChain_cons_cons.1 hlast).1
    | cons second rest ih =>
      intro hpath
      obtain ⟨hstep, hrest⟩ := isChain_cons_cons.1 hpath
      exact .head hstep (ih second hrest)
  exact hafter id inner hchain

theorem cyclePathFrom_eq {above below pathTail : List α} (h : id ∉ above) :
    cyclePathFrom id (above ++ id :: below) pathTail =
      id :: (above.reverse ++ pathTail ++ [id]) := by
  induction above generalizing pathTail with
  | nil => rw [nil_append, cyclePathFrom, if_pos rfl, reverse_nil, nil_append]
  | cons node above ih =>
    obtain ⟨hnode, habove⟩ := not_or.1 (mem_cons.not.1 h)
    rw [cons_append, cyclePathFrom, if_neg hnode, ih habove]
    simp

/-- A stack on which every id was found from the id below it. -/
def Stacked (R : α → α → Prop) (stack : List α) : Prop := stack.IsChain (Function.swap R)

theorem closedPath_cyclePathFrom (hstacked : Stacked R (id :: stack)) (hid : id ∈ stack) :
    ClosedPath R (cyclePathFrom id stack []) := by
  obtain ⟨above, below, rfl, hnot⟩ := eq_append_cons_of_mem hid
  have hcut : cyclePathFrom id (above ++ id :: below) [] = (id :: (above ++ [id])).reverse := by
    rw [cyclePathFrom_eq hnot]
    simp
  refine ⟨⟨id, above.reverse, by rw [cyclePathFrom_eq hnot, append_nil]⟩, ?_⟩
  rw [hcut, isChain_reverse]
  have hpart : (id :: (above ++ [id])) <+: id :: (above ++ id :: below) :=
    ⟨below, by simp⟩
  exact List.IsChain.prefix hstacked hpart

theorem head_cyclePathFrom (hid : id ∈ stack) : (cyclePathFrom id stack []).head? = some id := by
  obtain ⟨above, below, rfl, hnot⟩ := eq_append_cons_of_mem hid
  rw [cyclePathFrom_eq hnot]
  rfl

variable (N) in
structure CycleFound (reached : α → Prop) (cycle : List α) : Prop where
  path : ClosedPath N.Leads cycle
  reaches : ∀ id ∈ cycle.head?, reached id

/-- **A search finds cycles**, at ids that its stack reaches. -/
theorem cycleDfs_found (reached : α → Prop)
    (hreached : ∀ id, reached id → ∀ neighbour, N.Leads id neighbour → reached neighbour) :
    (∀ (id : N.Node) (stack visited : List α), Stacked N.Leads (id.1 :: stack) → reached id.1 →
      ∀ cycle, (cycleDfs N id stack visited).1 = some cycle → CycleFound N reached cycle) ∧
    ∀ (ids : List N.Node) (stack visited : List α),
      (∀ id ∈ ids, Stacked N.Leads (id.1 :: stack) ∧ reached id.1) →
      ∀ cycle, (cycleDfsNeighbors N ids stack visited).1 = some cycle →
        CycleFound N reached cycle := by
  apply cycleDfs.mutual_induct N
  · intro id stack visited hvisiting hstacked hid cycle hcycle
    rw [cycleDfs, if_pos hvisiting] at hcycle
    obtain rfl := Option.some.inj hcycle
    refine ⟨closedPath_cyclePathFrom hstacked hvisiting, ?_⟩
    rw [head_cyclePathFrom hvisiting]
    rintro _ ⟨⟩
    exact hid
  · intro id stack visited hvisiting hvisited _ _ cycle hcycle
    rw [cycleDfs, if_neg hvisiting, if_pos hvisited] at hcycle
    cases hcycle
  · intro id stack visited hvisiting hvisited ih hstacked hid cycle hcycle
    rw [cycleDfs, if_neg hvisiting, if_neg hvisited] at hcycle
    refine ih ?_ cycle hcycle
    intro neighbour hneighbour
    have hleads := N.mem_childNodes.1 hneighbour
    exact ⟨isChain_cons_cons.2 ⟨hleads, hstacked⟩, hreached _ hid _ hleads⟩
  · intro stack visited _ cycle hcycle
    rw [cycleDfsNeighbors] at hcycle
    cases hcycle
  · intro stack visited id ids search first hfirst ih hids cycle hcycle
    have hsearch : (cycleDfs N id stack visited).1 = some first := hfirst
    rw [cycleDfsNeighbors] at hcycle
    simp only [hsearch] at hcycle
    obtain ⟨hstacked, hid⟩ := hids id mem_cons_self
    exact ih hstacked hid cycle (hsearch.trans hcycle)
  · intro stack visited id ids search hnone _ ih hids cycle hcycle
    have hsearch : (cycleDfs N id stack visited).1 = none := hnone
    rw [cycleDfsNeighbors] at hcycle
    simp only [hsearch] at hcycle
    exact ih (fun other hother => hids other (mem_cons_of_mem _ hother)) cycle hcycle

/-- **The search is sound and complete.** -/
theorem findCycleFromNodes_none : (findCycleFromNodes N ids []).1 = none ↔
      ∀ first ∈ ids, ∀ id, ReflTransGen N.Leads first.1 id →
        ¬TransGen N.Leads id id := by
  constructor
  · intro h first hfirst id hpath
    obtain ⟨hdescends, hids⟩ := findCycleFromNodes_descends h
    exact hdescends.no_cycle (hids first hfirst) hpath
  · intro h
    rw [Option.eq_none_iff_forall_ne_some]
    intro cycle hcycle
    obtain ⟨⟨⟨id, inner, rfl⟩, hfollows⟩, hreaches⟩ := (cycleDfs_found (N := N)
      (fun id => ∃ first ∈ ids, ReflTransGen N.Leads first.1 id)
      (fun _ ⟨first, hfirst, hpath⟩ _ hleads => ⟨first, hfirst, hpath.tail hleads⟩)).2 ids [] []
      (fun first hfirst => ⟨isChain_singleton _, first, hfirst, .refl⟩) cycle hcycle
    obtain ⟨first, hfirst, hpath⟩ := hreaches id rfl
    exact h first hfirst id hpath (ClosedPath.transGen ⟨⟨id, inner, rfl⟩, hfollows⟩)

theorem findCycleFromNodes_closed {cycle : List α}
    (h : (findCycleFromNodes N ids []).1 = some cycle) : ClosedPath N.Leads cycle :=
  ((cycleDfs_found (N := N) (fun _ => True) (fun _ _ _ _ => trivial)).2 ids [] []
    (fun _ _ => ⟨isChain_singleton _, trivial⟩) cycle h).path

end

end PooFlow.Analysis
