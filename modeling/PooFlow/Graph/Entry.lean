import PooFlow.Graph.Runs

namespace PooFlow

open Foundation Generated List GraphRunContext

variable {W V : Type}

namespace RuntimeGraphExecutor

section

variable (executor : RuntimeGraphExecutor W V)

/-- The queue of a new run holds the targets of the edges from the start and those
that the routers of its conditional edges select, as after any other node. -/
def EntryComplete (initialState : RuntimeState V) (world : W) : Prop :=
  ∃ selected world', (executor.conditionalTargets graphStart initialState).run.run world =
      (.ok selected, world') ∧
    (executor.fromInitial initialState world).pending =
      (indexEdges executor.plan.edges graphStart).map .node ++ selected

def StartLeaves : Prop :=
  indexEdges executor.plan.edges graphStart ≠ [] ∨
    indexConditionalEdges executor.plan.conditionalEdges graphStart ≠ []

/-- With an edge from the start, a run that returns has run a node, unless an entry
of its queue is the end. -/
def RunsNode [RuntimeValue V] (traceKey : Option String) (initialState : RuntimeState V)
    (world : W) : Prop :=
  executor.StartLeaves →
    ∀ outcome, executor.invokeWithEvents traceKey initialState world = .ok outcome →
      outcome.trace ≠ [] ∨
        ∃ item ∈ (executor.fromInitial initialState world).pending, item.target = graphEnd

/-- The routers of the edges, asked one after the other, answer without a target. -/
def SelectsNothing (state : RuntimeState V) : List RuntimeGraphConditionalEdge → W → Prop
  | [], _ => True
  | edge :: edges, world =>
    ∃ router route world', executor.routers edge.router = some router ∧
      (router state).run.run world = (.ok route, world') ∧
      (route.asRoute = .sends [] ∨ route.asRoute = .names []) ∧
      SelectsNothing state edges world'

variable {executor} {state : RuntimeState V}

theorem resolveConditionalRoute_nil {router : String} {routes : Mapping String}
    {route : RuntimeRouteResult V} : executor.resolveConditionalRoute router routes route = .ok [] ↔
      route = .sends [] ∨ route = .names [] := by
  cases route with
  | send send => simp [resolveConditionalRoute]
  | sends sends =>
    simp only [resolveConditionalRoute, bind_eq_ok, pure_eq_ok, map_eq_nil_iff,
      RuntimeRouteResult.sends.injEq, reduceCtorEq, or_false]
    constructor
    · -- a sequence of sends is checked first, and may be empty
      rintro ⟨_, -, hnone⟩
      exact hnone
    · rintro rfl
      exact ⟨(), rfl, rfl⟩
  | names names =>
    simp only [resolveConditionalRoute, RuntimeRouteResult.names.injEq, reduceCtorEq, false_or]
    constructor
    · intro h
      cases names with
      | nil => rfl
      | cons name names =>
        -- a name that is resolved leaves a target
        rw [mapM_cons] at h
        obtain ⟨first, -, h⟩ := bind_eq_ok.1 h
        obtain ⟨rest, -, h⟩ := bind_eq_ok.1 h
        cases h
    · rintro rfl
      rfl
  | name name => simp [resolveConditionalRoute]
  | other repr => simp [resolveConditionalRoute, throw, throwThe, MonadExceptOf.throw]

variable {targets all : List (PendingItem V)} {world world' : W}
  {edges : List RuntimeGraphConditionalEdge}

/-- **One conditional edge**: what its router has answered. -/
theorem conditionalTarget_ok {edge : RuntimeGraphConditionalEdge} :
    (executor.conditionalTarget state targets edge).run.run world = (.ok all, world') ↔
      ∃ router route resolved, executor.routers edge.router = some router ∧
        (router state).run.run world = (.ok route, world') ∧
        executor.resolveConditionalRoute edge.router edge.routes route.asRoute = .ok resolved ∧
        all = targets ++ resolved := by
  rw [conditionalTarget, Effect.run_bind_ok]
  constructor
  · rintro ⟨router, after, hrouter, h⟩
    obtain ⟨route, after', hroute, h⟩ := Effect.run_bind_ok.1 h
    obtain ⟨resolved, after'', hresolved, h⟩ := Effect.run_bind_ok.1 h
    obtain rfl : world = after := congrArg Prod.snd hrouter
    obtain rfl : after' = after'' := congrArg Prod.snd hresolved
    cases h
    exact ⟨router, route, resolved, presentElse_eq_ok.1 (congrArg Prod.fst hrouter), hroute,
      congrArg Prod.fst hresolved, rfl⟩
  · rintro ⟨router, route, resolved, hrouter, hroute, hresolved, rfl⟩
    refine ⟨router, world, congrArg (·, world) (presentElse_eq_ok.2 hrouter), ?_⟩
    refine Effect.run_bind_ok.2 ⟨route, world', hroute, ?_⟩
    exact Effect.run_bind_ok.2 ⟨resolved, world', congrArg (·, world') hresolved, rfl⟩

/-- Routers only add targets. -/
theorem conditionalTargets_keep
    (h : (edges.foldlM (executor.conditionalTarget state) targets).run.run world =
      (.ok all, world')) : targets <+: all := by
  induction edges generalizing targets world with
  | nil =>
    cases h
    exact prefix_rfl
  | cons edge edges ih =>
    rw [foldlM_cons, Effect.run_bind_ok] at h
    obtain ⟨next, after, hfirst, h⟩ := h
    obtain ⟨-, -, resolved, -, -, -, rfl⟩ := conditionalTarget_ok.1 hfirst
    exact (prefix_append _ _).trans (ih h)

/-- **Nothing is selected** exactly when every router answers without a target. -/
theorem selectsNothing_iff : executor.SelectsNothing state edges world ↔
      ∃ world', (edges.foldlM (executor.conditionalTarget state) []).run.run world =
        (.ok [], world') := by
  induction edges generalizing world with
  | nil => exact ⟨fun _ => ⟨world, rfl⟩, fun _ => trivial⟩
  | cons edge edges ih =>
    constructor
    · rintro ⟨router, route, after, hrouter, hroute, hnone, hrest⟩
      obtain ⟨world', hfold⟩ := ih.1 hrest
      have hfirst : (executor.conditionalTarget state [] edge).run.run world = (.ok [], after) :=
        conditionalTarget_ok.2
          ⟨router, route, [], hrouter, hroute, resolveConditionalRoute_nil.2 hnone, rfl⟩
      exact ⟨world', Effect.run_bind_ok.2 ⟨[], after, hfirst, hfold⟩⟩
    · rintro ⟨world', h⟩
      obtain ⟨next, after, hfirst, h⟩ := Effect.run_bind_ok.1 h
      obtain rfl : next = [] := prefix_nil.1 (conditionalTargets_keep h)
      obtain ⟨router, route, resolved, hrouter, hroute, hresolved, hall⟩ :=
        conditionalTarget_ok.1 hfirst
      obtain rfl : resolved = [] := hall.symm
      exact ⟨router, route, after, hrouter, hroute, resolveConditionalRoute_nil.1 hresolved,
        ih.2 ⟨world', h⟩⟩

theorem entryComplete_iff : executor.EntryComplete state world ↔
      executor.SelectsNothing state
        (indexConditionalEdges executor.plan.conditionalEdges graphStart) world := by
  rw [selectsNothing_iff]
  constructor
  · rintro ⟨selected, world', hselected, hpending⟩
    obtain rfl : selected = [] := by
      rw [eq_comm] at hpending
      exact append_right_eq_self.1 hpending
    exact ⟨world', hselected⟩
  · rintro ⟨world', hnone⟩
    exact ⟨[], world', hnone, (append_nil _).symm⟩

end

section

variable [RuntimeValue V] {executor : RuntimeGraphExecutor W V} {traceKey : Option String}

/-- A node has been run, or one is still queued. -/
def Runs (context : GraphRunContext W V) : Prop :=
  context.trace ≠ [] ∨ ∃ item ∈ context.pending, item.target ≠ graphEnd

variable {context : GraphRunContext W V}

theorem Runs.step {context' : GraphRunContext W V} (h : Runs context) (hbusy : context.busy = true)
    (hround : (executor.executeNextEventStep traceKey context).ended = .ok context') :
    Runs context' := by
  obtain ⟨item, rest, hitem, ⟨hend, rfl⟩ | ⟨hend, started, hstarted, hfinished⟩⟩ :=
    executeNextEventStep_ok hbusy hround
  · rcases h with htrace | ⟨other, hother, hnode⟩
    · exact .inl htrace
    · rw [hitem] at hother
      rcases mem_cons.1 hother with rfl | hrest
      · exact absurd hend hnode
      · exact .inr ⟨other, hrest, hnode⟩
  · obtain ⟨-, -, htrace, -, -⟩ := startAndRunNode_ok hstarted
    obtain ⟨-, -, -, -, -, hkept, -⟩ := finishNode_ok hfinished
    refine .inl ?_
    rw [hkept, htrace]
    exact append_ne_nil_of_right_ne_nil _ (cons_ne_nil _ _)

theorem trace_ne_nil_of_runs {outcome : GraphOutcome W V}
    (hruns : Runs context) (h : executor.runContext traceKey context = .ok outcome) :
    outcome.trace ≠ [] := by
  rw [runContext_eq, pendingOutcome, executePending] at h
  obtain ⟨last, hloop, rfl⟩ := map_eq_ok.1 h
  have hstart : Runs (context.publish context.startEvent) := hruns
  obtain ⟨hlast, hidle⟩ := whileLoop_invariant (executor.executeNextEventStep_descends traceKey)
    (fun _ _ hs hbusy hround => hs.step hbusy hround) hstart hloop
  have hempty : last.pending = [] := by simpa [busy] using hidle
  have htrace : last.trace ≠ [] := by
    refine hlast.resolve_right ?_
    rintro ⟨item, hitem, -⟩
    rw [hempty] at hitem
    exact absurd hitem not_mem_nil
  cases traceKey <;> exact htrace

variable (executor) in
theorem runContext_of_idle (h : context.pending = []) (traceKey : Option String) :
    ∃ outcome, executor.runContext traceKey context = .ok outcome ∧
      outcome.trace = context.trace := by
  have hidle : (context.publish context.startEvent).busy = false := by
    simp [busy, publish, h]
  refine ⟨_, by rw [runContext_eq, pendingOutcome, executePending, whileLoop_idle hidle]; rfl, ?_⟩
  cases traceKey <;> rfl

theorem runsNode_iff {initialState : RuntimeState V} {world : W} :
    executor.RunsNode traceKey initialState world ↔
      (executor.StartLeaves → indexEdges executor.plan.edges graphStart ≠ []) := by
  have hqueue : (executor.fromInitial initialState world).pending =
      (indexEdges executor.plan.edges graphStart).map .node := rfl
  constructor
  · intro h hleaves hnone
    have hempty : (executor.fromInitial initialState world).pending = [] := by
      rw [hqueue, hnone, map_nil]
    obtain ⟨outcome, houtcome, htrace⟩ :=
      executor.runContext_of_idle hempty traceKey
    rcases h hleaves outcome (mapError_eq_ok.2 houtcome) with hran | ⟨item, hitem, -⟩
    · exact hran htrace
    · rw [hempty] at hitem
      exact absurd hitem not_mem_nil
  · intro h hleaves outcome houtcome
    by_cases hend : ∃ item ∈ (executor.fromInitial initialState world).pending,
        item.target = graphEnd
    · exact .inr hend
    · -- the first entry is a node
      obtain ⟨target, rest, hedges⟩ := exists_cons_of_ne_nil (h hleaves)
      have hfirst : PendingItem.node target ∈
          (executor.fromInitial initialState world).pending := by
        rw [hqueue, hedges, map_cons]
        exact mem_cons_self
      exact .inl (trace_ne_nil_of_runs
        (.inr ⟨_, hfirst, fun hsame => hend ⟨_, hfirst, hsame⟩⟩) (mapError_eq_ok.1 houtcome))

/-- **Entry routing**: the entry of a run is complete, and a run that returns has run
a node unless the start leads to the end, exactly when the routers of the start select
nothing and an edge from the start is a static one, if there is an edge at all. -/
theorem entry_routing_iff (executor : RuntimeGraphExecutor W V) (traceKey : Option String)
    (initialState : RuntimeState V) (world : W) : (executor.EntryComplete initialState world ∧
        executor.RunsNode traceKey initialState world) ↔
      executor.SelectsNothing initialState
          (indexConditionalEdges executor.plan.conditionalEdges graphStart) world ∧
        (indexEdges executor.plan.edges graphStart = [] →
          indexConditionalEdges executor.plan.conditionalEdges graphStart = []) := by
  rw [entryComplete_iff, runsNode_iff, StartLeaves]
  refine and_congr_right fun _ => ?_
  constructor
  · intro h hstatic
    by_contra hconditional
    exact h (.inr hconditional) hstatic
  · rintro h (hstatic | hconditional) hnone
    · exact hstatic hnone
    · exact hconditional (h hnone)

end

end RuntimeGraphExecutor

def routedGraph : RuntimeGraphExecutor Unit (List String) where
  plan := {
    nodes := ["draft"]
    edges := [⟨"draft", graphEnd⟩]
    conditionalEdges := [⟨graphStart, "choose", .empty⟩] }
  actions := fun node =>
    if node = "draft" then some fun _ => pure (.value (.update .absent)) else none
  routers := fun name =>
    if name = "choose" then some fun _ => pure (.value (.name "draft")) else none
  plan_valid := rfl
  actions_valid := validateActions_of_forall (fun _ h => by rw [mem_singleton.1 h]; rfl)

/-- **The router of the start is not asked**: it selects a node, which is not
queued, and the run returns without running a node. -/
theorem routed_start_ignored :
    ¬routedGraph.EntryComplete ∅ () ∧ ¬routedGraph.RunsNode none ∅ () := by
  constructor
  · intro h
    obtain ⟨router, route, world', hrouter, hroute, hnone, -⟩ :=
      RuntimeGraphExecutor.entryComplete_iff.1 h
    have hrouter : (if "choose" = "choose" then
        some (fun _ => pure (.value (.name "draft")) : RuntimeRouter Unit (List String))
      else none) = some router := hrouter
    rw [if_pos rfl] at hrouter
    cases hrouter
    cases hroute
    rcases hnone with hnone | hnone <;> cases hnone
  · intro h
    exact RuntimeGraphExecutor.runsNode_iff.1 h (.inr (by decide)) (by decide)

end PooFlow
