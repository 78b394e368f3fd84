import Mathlib.Data.Int.Notation
import Mathlib.Data.List.Dedup
import PooFlow.Foundation.Guard

/-! `_runtime_graph_types.py` and `_runtime_graph_state.py`. Actions, routers and reducers are code
of the caller: they may fail, and observe and change a world `W`. A mapping keeps its keys in the
order in which they were set, which the caller's code can see. -/

namespace PooFlow

open Foundation List

def graphStart : String := "__start__"

def graphEnd : String := "__end__"

/-- The exceptions of a graph run: the executor's own, the ones Python raises
in it, those of checkpointers and those of the caller's code. -/
inductive GraphError where
  | runtimeGraph (message : String)
  | keyError (key : String)
  | attributeError (message : String)
  | checkpoint (message : String)
  | runtimeError (message : String)
  | stopIteration
  | raised (exception : String)
  deriving DecidableEq

abbrev Effect (W : Type) := ExceptT GraphError (StateM W)

theorem Effect.ext {W α : Type} {x y : Effect W α} (h : ∀ world, x.run.run world = y.run.run world) :
    x = y :=
  ExceptT.ext (StateT.ext h)

theorem Effect.run_bind {W α β : Type} (x : Effect W α) (f : α → Effect W β) (world : W) :
    (x >>= f).run.run world = match x.run.run world with
      | (.ok a, world) => (f a).run.run world
      | (.error error, world) => (.error error, world) := by
  rw [ExceptT.run_bind, StateT.run_bind]
  show (match x.run.run world with | (_, _) => _) = _
  rcases x.run.run world with ⟨_ | _, _⟩ <;> rfl

section

variable {W α β : Type} {x : Effect W α} {f : α → Effect W β} {world world' : W}

theorem Effect.run_bind_ok {b : β} : (x >>= f).run.run world = (.ok b, world') ↔
    ∃ a after, x.run.run world = (.ok a, after) ∧ (f a).run.run after = (.ok b, world') := by
  rw [Effect.run_bind]
  rcases x.run.run world with ⟨_ | a, after⟩
  · exact ⟨nofun, fun ⟨_, _, h, _⟩ => nomatch h⟩
  · refine ⟨fun h => ⟨a, after, rfl, h⟩, ?_⟩
    rintro ⟨_, _, ⟨⟩, h⟩
    exact h

theorem Effect.run_bind_error {error : GraphError} :
    (x >>= f).run.run world = (.error error, world') ↔
      x.run.run world = (.error error, world') ∨
        ∃ a after, x.run.run world = (.ok a, after) ∧
          (f a).run.run after = (.error error, world') := by
  rw [Effect.run_bind]
  rcases x.run.run world with ⟨_ | a, after⟩
  · refine ⟨fun h => ?_, fun h => ?_⟩
    · cases h
      exact .inl rfl
    · obtain ⟨⟨⟩⟩ | ⟨_, _, h, _⟩ := h
      · rfl
      · cases h
  · refine ⟨fun h => .inr ⟨a, after, rfl, h⟩, fun h => ?_⟩
    obtain h | ⟨_, _, ⟨⟩, h⟩ := h
    · cases h
    · exact h

end

/-- What a callable hands back: its answer, or an object to await. A caller
that does not await sees the object only, by its type or its representation. -/
inductive Called (W α : Type) where
  | value (answer : α)
  | awaitable (typeName repr : String) (answer : Effect W α)

/-- `if inspect.isawaitable(result): result = await result`. -/
def Called.awaited {W α : Type} : Called W α → Effect W α
  | value answer => pure answer
  | awaitable _ _ answer => answer

/-- What the runtime asks of a value: a trace as a value, whether it is `None`,
and its items when it is a sequence other than text, bytes or a dict. -/
class RuntimeValue (V : Type) where
  ofTrace : List String → V
  isNone : V → Bool
  items : V → Option (List V)

/-- Lists of texts as values. -/
instance : RuntimeValue (List String) where
  ofTrace := id
  isNone := fun _ => false
  items := fun texts => some (texts.map fun text => [text])

structure Mapping (V : Type) where
  entries : List (String × V)
  nodup : (entries.map Prod.fst).Nodup
  deriving DecidableEq

namespace Mapping

variable {V : Type}

def empty : Mapping V := ⟨[], nodup_nil⟩

instance : EmptyCollection (Mapping V) := ⟨empty⟩

def keys (mapping : Mapping V) : List String := mapping.entries.map Prod.fst

def lookup (mapping : Mapping V) (key : String) : Option V :=
  mapping.entries.lookup key

/-- The first entry of `key` takes the value where it stands; a new key comes last. -/
def setEntry (key : String) (value : V) : List (String × V) → List (String × V)
  | [] => [(key, value)]
  | entry :: rest =>
    if entry.1 = key then (key, value) :: rest else entry :: setEntry key value rest

theorem keys_setEntry (key : String) (value : V) (entries : List (String × V)) :
    (setEntry key value entries).map Prod.fst =
      if key ∈ entries.map Prod.fst then entries.map Prod.fst
      else entries.map Prod.fst ++ [key] := by
  induction entries with
  | nil => rfl
  | cons entry rest ih =>
    by_cases hkey : entry.1 = key
    · simp [setEntry, hkey]
    · have hne : key ≠ entry.1 := Ne.symm hkey
      simp only [setEntry, if_neg hkey, map_cons, ih, mem_cons, hne, false_or]
      split <;> rfl

/-- `mapping[key] = value`. -/
def insert (mapping : Mapping V) (key : String) (value : V) : Mapping V where
  entries := setEntry key value mapping.entries
  nodup := by
    rw [keys_setEntry]
    split
    · exact mapping.nodup
    · next hnew => simpa using mapping.nodup.concat hnew

/-- `mapping.pop(key, None)`. -/
def erase (mapping : Mapping V) (key : String) : Mapping V where
  entries := mapping.entries.filter (·.1 ≠ key)
  nodup := (filter_sublist.map Prod.fst).nodup mapping.nodup

/-- `mapping.update(entries)`. -/
def update (mapping : Mapping V) (entries : List (String × V)) : Mapping V :=
  entries.foldl (fun mapping entry => mapping.insert entry.1 entry.2) mapping

variable (mapping : Mapping V) {key other : String} {value : V}

@[simp] theorem lookup_insert : (mapping.insert key value).lookup key = some value := by
  show (setEntry key value mapping.entries).lookup key = _
  induction mapping.entries with
  | nil => simp [setEntry]
  | cons entry rest ih =>
    obtain ⟨first, held⟩ := entry
    by_cases hkey : first = key
    · simp [setEntry, hkey]
    · simpa [setEntry, hkey, lookup_cons, beq_eq_false_iff_ne.2 (Ne.symm hkey)] using ih

theorem lookup_insert_of_ne (h : other ≠ key) :
    (mapping.insert key value).lookup other = mapping.lookup other := by
  show (setEntry key value mapping.entries).lookup other = mapping.entries.lookup other
  induction mapping.entries with
  | nil => simp [setEntry, lookup_cons, beq_eq_false_iff_ne.2 h]
  | cons entry rest ih =>
    obtain ⟨first, held⟩ := entry
    by_cases hkey : first = key
    · simp [setEntry, hkey, lookup_cons, beq_eq_false_iff_ne.2 h]
    · simp [setEntry, hkey, lookup_cons, ih]

theorem isSome_lookup_insert (h : (mapping.lookup other).isSome) :
    ((mapping.insert key value).lookup other).isSome := by
  by_cases hkey : other = key
  · rw [hkey, lookup_insert]
    rfl
  · rwa [lookup_insert_of_ne mapping hkey]

theorem lookup_erase : (mapping.erase key).lookup key = none := by
  rw [lookup, lookup_eq_none_iff]
  intro entry hentry
  have hother : entry.1 ≠ key := by simpa using (mem_filter.1 hentry).2
  simpa using hother.symm

theorem insert_insert (value' : V) :
    (mapping.insert key value).insert key value' = mapping.insert key value' := by
  obtain ⟨entries, nodup⟩ := mapping
  simp only [insert, mk.injEq]
  clear nodup
  induction entries with
  | nil => simp [setEntry]
  | cons entry rest ih =>
    by_cases hkey : entry.1 = key
    · simp [setEntry, hkey]
    · simpa [setEntry, hkey] using ih

/-- The last key of a mapping, deleted and set again, is where it was. -/
theorem insert_erase {front : List (String × V)} (h : mapping.entries = front ++ [(key, value)]) :
    (mapping.erase key).insert key value = mapping := by
  obtain ⟨entries, nodup⟩ := mapping
  subst h
  have hfront : ∀ entry ∈ front, entry.1 ≠ key := by
    intro entry hentry hkey
    rw [map_append, nodup_append] at nodup
    exact nodup.2.2 _ (mem_map_of_mem hentry) key (by simp) hkey
  simp only [insert, erase, mk.injEq, filter_append]
  rw [filter_eq_self.2 (by simpa using hfront)]
  clear nodup
  induction front with
  | nil => simp [setEntry]
  | cons entry rest ih =>
    simpa [setEntry, hfront entry mem_cons_self] using
      ih fun entry hentry => hfront entry (mem_cons_of_mem _ hentry)

end Mapping

def Mapping.routeTarget (routes : Mapping String) (routeName : String) : Option String :=
  if routes.entries = [] then some routeName else routes.lookup routeName

abbrev RuntimeState (V : Type) := Mapping V

abbrev RuntimeReducer (W V : Type) := V → V → Effect W V

variable {W V : Type}

/-- What is offered as an update. Only a mapping has items; the type of
anything else is named by the error. -/
inductive Update (V : Type) where
  | absent
  | mapping (update : Mapping V)
  | other (typeName : String)

def Update.keys : Update V → List String
  | mapping update => update.keys
  | absent | other _ => []

/-- One assignment of `merge_state`: a reducer runs for a key that is set. -/
def mergeEntry (reducers : String → Option (RuntimeReducer W V)) (merged : RuntimeState V)
    (entry : String × V) : Effect W (RuntimeState V) :=
  match merged.lookup entry.1, reducers entry.1 with
  | some old, some reducer => do
    let value ← reducer old entry.2
    pure (merged.insert entry.1 value)
  | _, _ => pure (merged.insert entry.1 entry.2)

def mergeState (reducers : String → Option (RuntimeReducer W V)) (state : RuntimeState V)
    (update : Mapping V) : Effect W (RuntimeState V) :=
  update.entries.foldlM (mergeEntry reducers) state

/-- `if outcome.update is not None: merge_state(...)`. -/
def mergeUpdate (reducers : String → Option (RuntimeReducer W V)) (state : RuntimeState V) :
    Update V → Effect W (RuntimeState V)
  | .absent => pure state
  | .mapping update => mergeState reducers state update
  | .other typeName =>
    throw (.attributeError s!"'{typeName}' object has no attribute 'items'")

def withBranchUpdate (state : RuntimeState V) : Option (Mapping V) → RuntimeState V
  | none => state
  | some update => state.update update.entries

structure RuntimeGraphEdge where
  source : String
  target : String

structure RuntimeGraphConditionalEdge where
  source : String
  router : String
  routes : Mapping String

structure RuntimeGraphPlan where
  nodes : List String
  edges : List RuntimeGraphEdge
  conditionalEdges : List RuntimeGraphConditionalEdge := []
  stepLimit : ℤ := 100

def checkEndpoint (endpoint : String) (nodes : List String) : Except GraphError Unit :=
  guardElse (endpoint ∈ nodes ∨ endpoint = graphStart ∨ endpoint = graphEnd)
    (.runtimeGraph s!"unknown runtime graph endpoint: {endpoint}")

def indexEdges (edges : List RuntimeGraphEdge) (source : String) : List String :=
  (edges.filter (·.source = source)).map (·.target)

def indexConditionalEdges (edges : List RuntimeGraphConditionalEdge) (source : String) :
    List RuntimeGraphConditionalEdge :=
  edges.filter (·.source = source)

def validatePlan (plan : RuntimeGraphPlan) : Except GraphError Unit := do
  plan.edges.forM fun edge => do
    checkEndpoint edge.source plan.nodes
    checkEndpoint edge.target plan.nodes
  plan.conditionalEdges.forM fun edge => do
    checkEndpoint edge.source plan.nodes
    edge.routes.entries.forM fun route => checkEndpoint route.2 plan.nodes

structure RuntimeGraphSend (V : Type) where
  target : String
  update : Mapping V := .empty
  deriving DecidableEq

structure RuntimeGraphInterrupt (V : Type) where
  value : V
  resumable : Bool := true
  deriving DecidableEq

/-- The `goto` of a command. -/
inductive Goto where
  | absent
  | one (node : String)
  | many (nodes : List String)

def Goto.nodes : Goto → List String
  | absent => []
  | one node => [node]
  | many nodes => nodes

inductive RuntimeActionResult (V : Type) where
  | update (update : Update V)
  | command (update : Update V) (goto : Goto)
  | send (send : RuntimeGraphSend V)
  | sends (sends : List (RuntimeGraphSend V))
  | interrupt (interrupt : RuntimeGraphInterrupt V)

def RuntimeActionResult.Interrupts : RuntimeActionResult V → Prop
  | interrupt _ => True
  | _ => False

instance (result : RuntimeActionResult V) : Decidable result.Interrupts := by
  cases result
  all_goals first | exact instDecidableTrue | exact instDecidableFalse

structure NormalizedActionResult (V : Type) where
  update : Update V
  goto : List String
  controlsFlow : Bool
  sends : List (RuntimeGraphSend V)
  interrupt : Option (RuntimeGraphInterrupt V)

def normalizeActionResult : RuntimeActionResult V → NormalizedActionResult V
  | .interrupt interrupt => ⟨.absent, [], true, [], some interrupt⟩
  | .command update goto => ⟨update, goto.nodes, !goto.nodes.isEmpty, [], none⟩
  | .send send => ⟨.absent, [], true, [send], none⟩
  | .sends sends => ⟨.absent, [], true, sends, none⟩
  | .update update => ⟨update, [], false, [], none⟩

theorem normalizeActionResult_interrupt {result : RuntimeActionResult V} :
    (normalizeActionResult result).interrupt = none ↔ ¬result.Interrupts := by
  cases result <;> simp [normalizeActionResult, RuntimeActionResult.Interrupts]

inductive RuntimeRouteResult (V : Type) where
  | send (send : RuntimeGraphSend V)
  | sends (sends : List (RuntimeGraphSend V))
  | names (names : List String)
  | name (name : String)
  | other (repr : String)

def Called.asResult : Called W (RuntimeActionResult V) → RuntimeActionResult V
  | value answer => answer
  | awaitable typeName _ _ => .update (.other typeName)

def Called.asRoute : Called W (RuntimeRouteResult V) → RuntimeRouteResult V
  | value answer => answer
  | awaitable _ repr _ => .other repr

abbrev RuntimeAction (W V : Type) :=
  RuntimeState V → Effect W (Called W (RuntimeActionResult V))

abbrev RuntimeRouter (W V : Type) :=
  RuntimeState V → Effect W (Called W (RuntimeRouteResult V))

def validateActions (plan : RuntimeGraphPlan) (actions : String → Option (RuntimeAction W V)) :
    Except GraphError Unit :=
  let missing := (plan.nodes.dedup.filter fun node => (actions node).isNone).mergeSort
  guardElse (missing = [])
    (.runtimeGraph ("missing runtime graph actions for nodes: " ++ ", ".intercalate missing))

theorem validateActions_of_forall {plan : RuntimeGraphPlan}
    {actions : String → Option (RuntimeAction W V)}
    (h : ∀ node ∈ plan.nodes, (actions node).isSome) : validateActions plan actions = .ok () := by
  have hnone : (plan.nodes.dedup.filter fun node => (actions node).isNone) = [] := by
    rw [filter_eq_nil_iff]
    intro node hnode
    have hsome := h node (mem_dedup.1 hnode)
    simpa using Option.isSome_iff_ne_none.1 hsome
  rw [validateActions, hnone]
  exact guardElse_eq_ok.2 mergeSort_nil

inductive PendingItem (V : Type) where
  | node (node : String)
  | send (send : RuntimeGraphSend V)
  deriving DecidableEq

/-- `next_node`: where an entry leads. -/
def PendingItem.target : PendingItem V → String
  | .node name => name
  | .send sent => sent.target

def PendingItem.branchUpdate : PendingItem V → Option (Mapping V)
  | .node _ => none
  | .send sent => some sent.update

inductive EventKind where
  | start | nodeStart | nodeEnd | resume | interrupt | complete
  deriving DecidableEq

inductive EventDetail (V : Type) where
  | started (pending : List (PendingItem V))
  | nodeStarted (branchUpdateKeys : List String) (trace : List String)
  | finished (commandControlsFlow : Bool) (goto sendTargets updateKeys : List String)
  | interrupted (value : V) (resumable : Bool) (trace : List String)
  | completed (state : RuntimeState V) (trace : List String)
  deriving DecidableEq

structure RuntimeGraphEvent (V : Type) where
  kind : EventKind
  node : Option String
  step : ℕ
  detail : EventDetail V
  deriving DecidableEq

structure RuntimeGraphInterrupted (V : Type) where
  interrupt : RuntimeGraphInterrupt V
  node : String
  step : ℕ
  state : RuntimeState V
  trace : List String
  pending : List (PendingItem V) := []
  events : List (RuntimeGraphEvent V) := []
  validationReceipt : List UInt8 := []
  planDigest : Option String := none

end PooFlow
