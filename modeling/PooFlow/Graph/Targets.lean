import Mathlib.Logic.Relation
import PooFlow.Graph.Entry

namespace PooFlow

open Foundation Generated List GraphRunContext

variable {W V : Type}

def NormalizedActionResult.named (outcome : NormalizedActionResult V) : List String :=
  outcome.goto ++ outcome.sends.map (·.target)

def RuntimeRouteResult.targets (routes : Mapping String) : RuntimeRouteResult V → List String
  | .send sent => [sent.target]
  | .sends all => all.map (·.target)
  | .names all => all.filterMap routes.routeTarget
  | .name one => (routes.routeTarget one).toList
  | .other _ => []

namespace RuntimeGraphExecutor

section

variable (executor : RuntimeGraphExecutor W V)

/-- The end or a node of the plan. -/
def Aimed (target : String) : Prop :=
  target = graphEnd ∨ target ∈ executor.plan.nodes

/-- The routers of the edges, asked one after the other, do not answer with the
start, unless it is a node. -/
def RoutesAimed (state : RuntimeState V) : List RuntimeGraphConditionalEdge → W → Prop
  | [], _ => True
  | edge :: edges, world =>
    ∀ router route world', executor.routers edge.router = some router →
      (router state).run.run world = (.ok route, world') →
      (graphStart ∈ route.asRoute.targets edge.routes → executor.Aimed graphStart) ∧
        RoutesAimed state edges world'

/-- The answer for a node names targets of the graph, and offers a mapping or nothing
as its update; where it leaves the flow to the plan, no edge or router of the node
leads to the start, unless that is a node. -/
structure SoundFinish (context : GraphRunContext W V) (node : String)
    (outcome : NormalizedActionResult V) : Prop where
  mapped : ∀ typeName, outcome.update ≠ .other typeName
  named : outcome.controlsFlow = true → ∀ target ∈ outcome.named, executor.Aimed target
  edges : outcome.controlsFlow = false →
    graphStart ∈ indexEdges executor.plan.edges node → executor.Aimed graphStart
  routes : outcome.controlsFlow = false → ∀ merged,
    context.perform (mergeUpdate executor.reducers context.state outcome.update) = .ok merged →
    executor.RoutesAimed merged.1 (indexConditionalEdges executor.plan.conditionalEdges node)
      merged.2.world

/-- An exception of the caller's own code. -/
inductive CallerRaises (error : GraphError) : Prop
  | action {node action state world world'} : executor.actions node = some action →
    (action state).run.run world = (.error error, world') → CallerRaises error
  | router {name router state world world'} : executor.routers name = some router →
    (router state).run.run world = (.error error, world') → CallerRaises error
  | reducer {key reducer old new world world'} : executor.reducers key = some reducer →
    (reducer old new : Effect W V).run.run world = (.error error, world') → CallerRaises error

/-- The error is the executor's own, or an exception of the caller's code. -/
def Expected (error : GraphError) : Prop :=
  (∃ message, error = .runtimeGraph message) ∨ executor.CallerRaises error

variable {executor} {node : String}

theorem isSome_action (h : node ∈ executor.plan.nodes) : (executor.actions node).isSome := by
  have hmissing := guardElse_eq_ok.1 executor.actions_valid
  by_contra hnone
  have hmem : node ∈ (executor.plan.nodes.dedup.filter
      fun node => (executor.actions node).isNone).mergeSort := by
    rw [mem_mergeSort, mem_filter]
    exact ⟨mem_dedup.2 h, by simpa using hnone⟩
  rw [hmissing] at hmem
  exact absurd hmem not_mem_nil

theorem aimed_of_checked {target : String} (h : checkEndpoint target executor.plan.nodes = .ok ())
    (hstart : target = graphStart → executor.Aimed graphStart) : executor.Aimed target := by
  rcases guardElse_eq_ok.1 h with hnode | rfl | rfl
  · exact .inr hnode
  · exact hstart rfl
  · exact .inl rfl

variable {α : Type} {router : String} {routes : Mapping String} {state : RuntimeState V}
  {targets : List (PendingItem V)} {world world' : W} {context : GraphRunContext W V}
  {error : GraphError}

variable {check : α → Except GraphError Unit} {values : List α} {routeName : String}
  {items : List (PendingItem V)} {route : RuntimeRouteResult V}
  {edges : List RuntimeGraphConditionalEdge} {outcome : NormalizedActionResult V}
  {eventKind : EventKind}

theorem checked_of_forM (h : values.forM check = .ok ()) :
    ∀ value ∈ values, check value = .ok () := by
  induction values with
  | nil => simp
  | cons value values ih =>
    have h : (check value >>= fun _ => values.forM check) = .ok () := h
    obtain ⟨hvalue, hrest⟩ := then_eq_ok.1 h
    exact forall_mem_cons.2 ⟨hvalue, ih hrest⟩

theorem checked_edge {target : String} (h : target ∈ indexEdges executor.plan.edges node) :
    checkEndpoint target executor.plan.nodes = .ok () := by
  obtain ⟨edge, hedge, rfl⟩ := mem_map.1 h
  obtain ⟨hedges, -⟩ := then_eq_ok.1 executor.plan_valid
  exact (then_eq_ok.1 (checked_of_forM hedges edge (mem_filter.1 hedge).1)).2

theorem resolveRouteName_ok {item : PendingItem V}
    (h : executor.resolveRouteName router routes routeName = .ok item) :
    routes.routeTarget routeName = some item.target ∧
      checkEndpoint item.target executor.plan.nodes = .ok () := by
  obtain ⟨target, htarget, h⟩ := bind_eq_ok.1 h
  obtain ⟨hchecked, h⟩ := then_eq_ok.1 h
  cases h
  exact ⟨presentElse_eq_ok.1 htarget, hchecked⟩

theorem resolveRouteNames_ok {names : List String}
    (h : names.mapM (executor.resolveRouteName router routes) =
      (.ok items : Except GraphError _)) :
    ∀ item ∈ items, item.target ∈ names.filterMap routes.routeTarget ∧
      checkEndpoint item.target executor.plan.nodes = .ok () := by
  induction names generalizing items with
  | nil =>
    cases h
    simp
  | cons name names ih =>
    rw [mapM_cons] at h
    obtain ⟨first, hfirst, h⟩ := bind_eq_ok.1 h
    obtain ⟨rest, hrest, h⟩ := bind_eq_ok.1 h
    cases h
    obtain ⟨htarget, hchecked⟩ := resolveRouteName_ok hfirst
    rw [filterMap_cons, htarget]
    refine forall_mem_cons.2 ⟨⟨mem_cons_self, hchecked⟩, fun item hitem => ?_⟩
    exact (ih hrest item hitem).imp_left (mem_cons_of_mem _)

/-- **What a route is resolved to** was answered, and has been checked. -/
theorem resolveConditionalRoute_ok
    (h : executor.resolveConditionalRoute router routes route = .ok items) :
    ∀ item ∈ items, item.target ∈ route.targets routes ∧
      checkEndpoint item.target executor.plan.nodes = .ok () := by
  cases route with
  | send send =>
    obtain ⟨hchecked, h⟩ := then_eq_ok.1 h
    cases h
    intro item hitem
    obtain rfl := mem_singleton.1 hitem
    exact ⟨mem_singleton.2 rfl, hchecked⟩
  | sends sends =>
    obtain ⟨hsends, h⟩ := then_eq_ok.1 h
    cases h
    intro item hitem
    obtain ⟨send, hsend, rfl⟩ := mem_map.1 hitem
    exact ⟨mem_map.2 ⟨send, hsend, rfl⟩, checked_of_forM hsends send hsend⟩
  | names names => exact resolveRouteNames_ok h
  | name name =>
    obtain ⟨first, hfirst, h⟩ := bind_eq_ok.1 h
    cases h
    obtain ⟨htarget, hchecked⟩ := resolveRouteName_ok hfirst
    intro item hitem
    obtain rfl := mem_singleton.1 hitem
    exact ⟨by simp [RuntimeRouteResult.targets, htarget], hchecked⟩
  | other repr => cases h

theorem conditionalTargets_aimed {all : List (PendingItem V)}
    (hrouted : executor.RoutesAimed state edges world)
    (htargets : ∀ item ∈ targets, executor.Aimed item.target)
    (h : (edges.foldlM (executor.conditionalTarget state) targets).run.run world =
      (.ok all, world')) : ∀ item ∈ all, executor.Aimed item.target := by
  induction edges generalizing targets world with
  | nil =>
    cases h
    exact htargets
  | cons edge edges ih =>
    rw [foldlM_cons, Effect.run_bind_ok] at h
    obtain ⟨next, after, hfirst, h⟩ := h
    obtain ⟨router, route, resolved, hrouter, hroute, hresolved, rfl⟩ :=
      conditionalTarget_ok.1 hfirst
    obtain ⟨hstart, hrest⟩ := hrouted router route after hrouter hroute
    refine ih hrest (fun item hitem => ?_) h
    rcases mem_append.1 hitem with hold | hnew
    · exact htargets item hold
    · obtain ⟨hanswered, hchecked⟩ := resolveConditionalRoute_ok hresolved item hnew
      exact aimed_of_checked hchecked fun hsame => hstart (hsame ▸ hanswered)

/-- **Finishing a node** queues aimed targets only. -/
theorem finishNode_aimed {context' : GraphRunContext W V}
    (hsound : executor.SoundFinish context node outcome)
    (hpending : ∀ item ∈ context.pending, executor.Aimed item.target)
    (h : (executor.finishNode context node outcome eventKind).ended = .ok context') :
    ∀ item ∈ context'.pending, executor.Aimed item.target := by
  obtain ⟨merged, targets, hmerged, htargets, hqueue, -, -⟩ := finishNode_ok h
  rw [hqueue]
  intro item hitem
  rcases mem_append.1 hitem with hold | hnew
  · exact hpending item hold
  · rw [nextTargets] at htargets
    cases hflow : outcome.controlsFlow with
    -- a command or send names its targets, which nothing checks
    | true =>
      rw [hflow, if_pos rfl] at htargets
      cases htargets
      refine hsound.named hflow item.target ?_
      rcases mem_append.1 hnew with hgoto | hsent
      · obtain ⟨target, htarget, rfl⟩ := mem_map.1 hgoto
        exact mem_append_left _ htarget
      · obtain ⟨send, hsend, rfl⟩ := mem_map.1 hsent
        exact mem_append_right _ (mem_map.2 ⟨send, hsend, rfl⟩)
    -- edges and routers name targets that were checked
    | false =>
      rw [hflow, if_neg Bool.false_ne_true, perform_bind] at htargets
      obtain ⟨routed, hrouted, htargets⟩ := bind_eq_ok.1 htargets
      cases htargets
      rcases mem_append.1 hnew with hstatic | hconditional
      · obtain ⟨target, htarget, rfl⟩ := mem_map.1 hstatic
        refine aimed_of_checked (checked_edge htarget) fun hstart => ?_
        exact hsound.edges hflow (hstart ▸ htarget)
      · unfold perform at hrouted
        split at hrouted
        · rename_i all after hall
          cases hrouted
          exact conditionalTargets_aimed (hsound.routes hflow merged hmerged)
            (fun _ h => absurd h not_mem_nil) hall item hconditional
        · cases hrouted

theorem checkEndpoint_error {endpoint : String} {nodes : List String}
    (h : checkEndpoint endpoint nodes = .error error) : ∃ message, error = .runtimeGraph message :=
  ⟨_, (guardElse_eq_error.1 h).2.symm⟩

theorem error_of_forM (h : values.forM check = .error error) :
    ∃ value, check value = .error error := by
  induction values with
  | nil => cases h
  | cons value values ih =>
    have h : (check value >>= fun _ => values.forM check) = .error error := h
    rcases bind_eq_error.1 h with hvalue | ⟨_, -, hrest⟩
    · exact ⟨value, hvalue⟩
    · exact ih hrest

theorem resolveRouteName_error
    (h : executor.resolveRouteName router routes routeName = .error error) :
    ∃ message, error = .runtimeGraph message := by
  rcases bind_eq_error.1 h with h | ⟨target, -, h⟩
  · exact ⟨_, (presentElse_eq_error.1 h).2.symm⟩
  · rcases bind_eq_error.1 h with h | ⟨_, -, h⟩
    · exact checkEndpoint_error h
    · cases h

theorem resolveConditionalRoute_error
    (h : executor.resolveConditionalRoute router routes route = .error error) :
    ∃ message, error = .runtimeGraph message := by
  cases route with
  | send sent =>
    rcases bind_eq_error.1 h with h | ⟨_, -, h⟩
    · exact checkEndpoint_error h
    · cases h
  | sends all =>
    rcases bind_eq_error.1 h with h | ⟨_, -, h⟩
    · obtain ⟨sent, hsent⟩ := error_of_forM h
      exact checkEndpoint_error hsent
    · cases h
  | names all =>
    rw [resolveConditionalRoute] at h
    induction all with
    | nil => cases h
    | cons name names ih =>
      rw [mapM_cons] at h
      rcases bind_eq_error.1 h with h | ⟨first, -, h⟩
      · exact resolveRouteName_error h
      · rcases bind_eq_error.1 h with h | ⟨rest, -, h⟩
        · exact ih h
        · cases h
  | name one =>
    rcases bind_eq_error.1 h with h | ⟨_, -, h⟩
    · exact resolveRouteName_error h
    · cases h
  | other repr =>
    cases h
    exact ⟨_, rfl⟩

theorem conditionalTarget_expected {edge : RuntimeGraphConditionalEdge}
    (h : (executor.conditionalTarget state targets edge).run.run world = (.error error, world')) :
    executor.Expected error := by
  rw [conditionalTarget, Effect.run_bind_error] at h
  obtain h | ⟨router, after, hrouter, h⟩ := h
  · obtain ⟨-, rfl⟩ := presentElse_eq_error.1 (congrArg Prod.fst h)
    exact .inl ⟨_, rfl⟩
  have hrouter := presentElse_eq_ok.1 (congrArg Prod.fst hrouter)
  obtain h | ⟨route, after, -, h⟩ := Effect.run_bind_error.1 h
  · -- what the router raises itself is the caller's
    exact .inr (.router hrouter h)
  obtain h | ⟨_, _, -, h⟩ := Effect.run_bind_error.1 h
  · exact .inl (resolveConditionalRoute_error (congrArg Prod.fst h))
  · cases h

theorem conditionalTargets_expected
    (h : (edges.foldlM (executor.conditionalTarget state) targets).run.run world =
      (.error error, world')) : executor.Expected error := by
  induction edges generalizing targets world with
  | nil => cases h
  | cons edge edges ih =>
    rw [foldlM_cons, Effect.run_bind_error] at h
    obtain h | ⟨_, _, -, h⟩ := h
    · exact conditionalTarget_expected h
    · exact ih h

theorem mergeUpdate_expected {update : Update V} (hmapped : ∀ typeName, update ≠ .other typeName)
    (h : (mergeUpdate executor.reducers state update).run.run world = (.error error, world')) :
    executor.Expected error := by
  cases update with
  | absent => cases h
  | other typeName => exact absurd rfl (hmapped typeName)
  | mapping update =>
    rw [mergeUpdate, mergeState] at h
    generalize update.entries = entries at h
    induction entries generalizing state world with
    | nil => cases h
    | cons entry entries ih =>
      rw [foldlM_cons, Effect.run_bind_error] at h
      obtain h | ⟨_, _, -, h⟩ := h
      · unfold mergeEntry at h
        -- only a reducer can fail here
        split at h
        · rename_i old reducer _ hreducer
          obtain hcall | ⟨_, _, -, h⟩ := Effect.run_bind_error.1 h
          · exact .inr (.reducer hreducer hcall)
          · cases h
        · cases h
      · exact ih h

theorem perform_failed {call : Effect W α} (h : context.perform call = .error (.failed error world))
    : call.run.run context.world = (.error error, world) := by
  unfold perform at h
  split at h
  · cases h
  · rename_i hcall
    cases h
    exact hcall

theorem finishNode_expected (hmapped : ∀ typeName, outcome.update ≠ .other typeName)
    (h : (executor.finishNode context node outcome eventKind).ended =
      .error (.failed error world)) : executor.Expected error := by
  simp only [finishNode, ended_bind, ended_silently, ended_yield, ended_pure, bind_eq_error] at h
  rcases h with h | ⟨merged, -, h | ⟨targets, -, h⟩⟩
  · exact mergeUpdate_expected hmapped (perform_failed h)
  · have htargets := perform_failed h
    rw [nextTargets] at htargets
    split at htargets
    · -- a command or send is queued without asking a router
      cases htargets
    · obtain hrouted | ⟨_, _, -, htargets⟩ := Effect.run_bind_error.1 htargets
      · exact conditionalTargets_expected hrouted
      · cases htargets
  · rcases h with h | ⟨_, -, h⟩ <;> cases h

end

section

variable [RuntimeValue V] (executor : RuntimeGraphExecutor W V)

/-- The action that the next round calls, if any, answers soundly. -/
def SoundRound (place : Place W V) : Prop :=
  ∀ item rest started, place.context.pending = item :: rest →
    executor.startAndRunNode place.traceKey { place.context with pending := rest } item.target
      item.branchUpdate = .ok started →
    executor.SoundFinish started.2 item.target started.1

inductive SoundMove : Place W V → Place W V → Prop
  | round {traceKey context context'} : executor.SoundRound ⟨traceKey, context⟩ →
    context.busy = true →
    (executor.executeNextEventStep traceKey context).ended = .ok context' →
    SoundMove ⟨traceKey, context⟩ ⟨traceKey, context'⟩
  | resume {traceKey context raised world kept resumed} (traceKey' : Option String)
    (answer : Called W (RuntimeActionResult V)) (world' : W) :
    (executor.executeNextEventStep traceKey context).ended = .error (.interrupted raised world) →
    Resumable raised kept →
    executor.SoundFinish ((GraphRunContext.fromInterrupted kept world').recordTrace traceKey')
      kept.node (normalizeActionResult answer.asResult) →
    executor.resumedContext traceKey' kept answer.asResult world' = .ok resumed →
    SoundMove ⟨traceKey, context⟩ ⟨traceKey', resumed.publish resumed.startEvent⟩

variable {executor}

/-- **One sound move** keeps the targets of the queue aimed. -/
theorem SoundMove.aimed {place place' : Place W V} (h : executor.SoundMove place place')
    (hpending : ∀ item ∈ place.context.pending, executor.Aimed item.target) :
    ∀ item ∈ place'.context.pending, executor.Aimed item.target := by
  cases h with
  | round hsound hbusy hround =>
    obtain ⟨item, rest, hitem, ⟨-, rfl⟩ | ⟨-, started, hstarted, hfinished⟩⟩ :=
      executeNextEventStep_ok hbusy hround
    · exact fun other hother => hpending other (by rw [hitem]; exact mem_cons_of_mem _ hother)
    · have hqueue := (startAndRunNode_ok hstarted).2.1
      refine finishNode_aimed (hsound item rest started hitem hstarted) ?_ hfinished
      rw [hqueue]
      exact fun other hother => hpending other (by rw [hitem]; exact mem_cons_of_mem _ hother)
  | @resume _ _ _ _ kept _ traceKey' answer world' hraised hkept hsound hresumed =>
    obtain ⟨item, rest, hitem, -, hstarted⟩ := executeNextEventStep_interrupted hraised
    have hqueue := (startAndRunNode_interrupted hstarted).2.2.1
    have hrest : ∀ other ∈ rest, executor.Aimed other.target := fun other hother =>
      hpending other (by rw [hitem]; exact mem_cons_of_mem _ hother)
    refine fun other hother => finishNode_aimed hsound ?_ hresumed other hother
    rw [recordTrace_pending]
    intro other hother
    have hother : other ∈ kept.pending := hother
    rw [hkept.pending, hqueue] at hother
    exact hrest other hother

/-- **A round of aimed targets** fails as the executor or the caller's code does. -/
theorem executeNextEventStep_expected {place : Place W V} (hsound : executor.SoundRound place)
    (hpending : ∀ item ∈ place.context.pending, executor.Aimed item.target)
    {error : GraphError} {world : W}
    (h : (executor.executeNextEventStep place.traceKey place.context).ended =
      .error (.failed error world)) : executor.Expected error := by
  obtain ⟨item, rest, hitem, hend, hstarted | ⟨started, hstarted, hfinished⟩⟩ :=
    executeNextEventStep_error h
  · simp only [startAndRunNode, bind_eq_error] at hstarted
    rcases hstarted with h | ⟨advanced, -, h | ⟨action, haction, h | ⟨called, -, h⟩⟩⟩
    · unfold advanceStep at h
      split at h
      · cases h
        exact .inl ⟨_, rfl⟩
      · cases h
    · -- the target of the item has an action
      obtain ⟨hnone, -⟩ := presentElse_eq_error.1 h
      have haimed := hpending item (by rw [hitem]; exact mem_cons_self)
      have hsome := isSome_action (haimed.resolve_left hend)
      rw [hnone] at hsome
      cases hsome
    · exact .inr (.action (presentElse_eq_ok.1 haction) (perform_failed h))
    · split at h <;> cases h
  · exact finishNode_expected (hsound item rest started hitem hstarted).mapped hfinished

/-- **No dangling targets**: in a run whose answers are sound, of a plan without an
edge from the start to itself, every target that is queued is the end or a node
with an action, and what fails fails as the executor or the caller's code does. -/
theorem no_dangling_targets (executor : RuntimeGraphExecutor W V) (traceKey : Option String)
    (initialState : RuntimeState V) (world : W) {place : Place W V}
    (hentry : graphStart ∈ indexEdges executor.plan.edges graphStart → executor.Aimed graphStart)
    (hrun : Relation.ReflTransGen executor.SoundMove
      (executor.startPlace traceKey initialState world) place) :
    (∀ item ∈ place.context.pending, item.target = graphEnd ∨
        item.target ∈ executor.plan.nodes ∧ (executor.actions item.target).isSome) ∧
      (executor.SoundRound place → ∀ error world',
        (executor.executeNextEventStep place.traceKey place.context).ended =
          .error (.failed error world') → executor.Expected error) := by
  have hpending : ∀ item ∈ place.context.pending, executor.Aimed item.target := by
    induction hrun with
    | refl =>
      intro item hitem
      obtain ⟨target, htarget, rfl⟩ := mem_map.1 hitem
      exact aimed_of_checked (checked_edge htarget) fun hstart => hentry (hstart ▸ htarget)
    | tail _ hmove ih => exact hmove.aimed ih
  refine ⟨fun item hitem => ?_,
    fun hsound error world' h => executeNextEventStep_expected hsound hpending h⟩
  exact (hpending item hitem).imp_right fun hnode => ⟨hnode, isSome_action hnode⟩

end

end RuntimeGraphExecutor

theorem review_sound : (reviewGraph (.update .absent)).SoundRound
    ((reviewGraph (.update .absent)).startPlace none ∅ ()) := by
  intro item rest started hitem hstarted
  cases hitem
  cases hstarted
  refine ⟨fun _ => by simp [normalizeActionResult, Called.asResult], ?_, ?_, ?_⟩
  · intro hflow
    cases hflow
  · exact fun _ h => absurd h (by decide)
  · exact fun _ merged _ => trivial

/-- A review that is answered with an update leads on to the end. -/
theorem review_not_dangling :
    ∃ context, (RuntimeGraphExecutor.executeNextEventStep (reviewGraph (.update .absent)) none
        ((reviewGraph (.update .absent)).startPlace none ∅ ()).context).ended = .ok context ∧
      ∀ item ∈ context.pending, item.target = graphEnd ∨ item.target ∈ ["review"] ∧
        ((reviewGraph (.update .absent)).actions item.target).isSome :=
  ⟨_, rfl, (RuntimeGraphExecutor.no_dangling_targets (reviewGraph (.update .absent)) none ∅ ()
    (fun h => absurd h (by decide)) (.single (.round review_sound rfl rfl))).1⟩

/-- **A command is not checked**: the target that it names is looked up as an action
in the round after, which fails with a `KeyError`. -/
theorem command_target_dangles :
    (reviewGraph (.command (.mapping .empty) (.one "missing"))).invokeWithEvents none ∅ () =
        .error (.failed (.keyError "missing") ()) ∧
      ¬(reviewGraph (.command (.mapping .empty) (.one "missing"))).Aimed "missing" := by
  constructor
  · have hrun : unrolled GraphRunContext.busy
        (RuntimeGraphExecutor.executeNextEventStep
          (reviewGraph (.command (.mapping .empty) (.one "missing"))) none) 2
        ((reviewGraph (.command (.mapping .empty) (.one "missing"))).startPlace none ∅ ()).context =
      some (.error (.failed (.keyError "missing") ())) := rfl
    exact RuntimeGraphExecutor.invokeWithEvents_of_unrolled _ none hrun
  rintro (h | h)
  · exact absurd h (by decide)
  · exact absurd h (by decide)

end PooFlow
