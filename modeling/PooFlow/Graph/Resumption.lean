import PooFlow.Graph.Executor

namespace PooFlow

open Foundation Generated List GraphRunContext

variable {W V : Type}

def Effect.onFst {Q α : Type} (x : Effect W α) : Effect (W × Q) α :=
  ExceptT.mk (fun world => ((x.run.run world.1).1, (x.run.run world.1).2, world.2))

variable {Q α : Type} (x : Effect W α) {β : Type}

theorem Effect.run_onFst (world : W × Q) : (x.onFst : Effect (W × Q) α).run.run world =
      ((x.run.run world.1).1, (x.run.run world.1).2, world.2) := rfl

theorem Effect.onFst_bind (f : α → Effect W β) :
    ((x >>= f).onFst : Effect (W × Q) β) = x.onFst >>= fun a => (f a).onFst := by
  apply Effect.ext
  intro world
  rw [Effect.run_onFst, Effect.run_bind, Effect.run_bind, Effect.run_onFst]
  rcases x.run.run world.1 with ⟨_ | _, _⟩ <;> rfl

theorem Effect.onFst_foldlM (f : β → α → Effect W β) (list : List α) (b : β) :
    ((list.foldlM f b).onFst : Effect (W × Q) β) = list.foldlM (fun b a => (f b a).onFst) b := by
  induction list generalizing b with
  | nil => rfl
  | cons a rest ih =>
    rw [foldlM_cons, foldlM_cons, Effect.onFst_bind]
    exact congrArg _ (funext ih)

def Called.onFst {Q α : Type} : Called W α → Called (W × Q) α
  | .value answer => .value answer
  | .awaitable typeName repr answer => .awaitable typeName repr answer.onFst

/-- The next of the answers, or `otherwise` when none is left. -/
def nextAnswer (otherwise : RuntimeActionResult V) : Effect (W × List (RuntimeActionResult V))
      (Called (W × List (RuntimeActionResult V)) (RuntimeActionResult V)) :=
  ExceptT.mk fun world =>
    match world.2 with
    | [] => (.ok (.value otherwise), world)
    | answer :: rest => (.ok (.value answer), world.1, rest)

def answeringAction (action : RuntimeAction W V) :
    RuntimeAction (W × List (RuntimeActionResult V)) V := fun state => do
  let called ← (action state).onFst
  match called with
  | .value (.interrupt interrupt) => nextAnswer (.interrupt interrupt)
  | called => pure called.onFst

namespace RuntimeGraphExecutor

variable (executor : RuntimeGraphExecutor W V)

def answering : RuntimeGraphExecutor (W × List (RuntimeActionResult V)) V where
  plan := executor.plan
  actions := fun node => (executor.actions node).map answeringAction
  routers := fun name => (executor.routers name).map fun router state => do
    let called ← (router state).onFst
    pure called.onFst
  reducers := fun key => (executor.reducers key).map fun reducer old value =>
    (reducer old value).onFst
  plan_valid := executor.plan_valid
  actions_valid := by
    have h := executor.actions_valid
    simpa only [validateActions, Option.isNone_map] using h

/-- A relation of states that settings keep and that the code of an executor
cannot see through. -/
structure Respects (R : RuntimeState V → RuntimeState V → Prop) : Prop where
  insert : ∀ {state state' : RuntimeState V} (key : String) (value : V), R state state' →
    R (state.insert key value) (state'.insert key value)
  reducers : ∀ {state state' : RuntimeState V} {key : String} {reducer : RuntimeReducer W V},
    executor.reducers key = some reducer → R state state' → state'.lookup key = state.lookup key
  actions : ∀ {state state' : RuntimeState V} {node : String} {action : RuntimeAction W V},
    executor.actions node = some action → R state state' → action state' = action state
  routers : ∀ {state state' : RuntimeState V} {name : String} {router : RuntimeRouter W V},
    executor.routers name = some router → R state state' → router state' = router state

theorem respects_eq : executor.Respects Eq where
  insert key value h := by rw [h]
  reducers _ h := by rw [h]
  actions _ h := by rw [h]
  routers _ h := by rw [h]

end RuntimeGraphExecutor

section

variable {Q : Type} {q : Q}

/-- The second context is the first but for what was published, and for what
`R` leaves open of its state. -/
structure Tracks (R : RuntimeState V → RuntimeState V → Prop) (q : Q) (context : GraphRunContext W V)
    (other : GraphRunContext (W × Q) V) : Prop where
  state : R context.state other.state
  pending : other.pending = context.pending
  trace : other.trace = context.trace
  step : other.step = context.step
  world : other.world = (context.world, q)

/-- The records of one interruption, but for what was published. -/
structure SameInterruption (R : RuntimeState V → RuntimeState V → Prop)
    (interrupted other : RuntimeGraphInterrupted V) : Prop where
  interrupt : other.interrupt = interrupted.interrupt
  node : other.node = interrupted.node
  step : other.step = interrupted.step
  state : R interrupted.state other.state
  trace : other.trace = interrupted.trace
  pending : other.pending = interrupted.pending

/-- The runs end early in the same way. -/
inductive HaltTracks (S : RuntimeGraphInterrupted V → RuntimeGraphInterrupted V → Prop) (q : Q) :
    Halt W V → Halt (W × Q) V → Prop
  | failed (error : GraphError) (world : W) :
    HaltTracks S q (.failed error world) (.failed error (world, q))
  | interrupted {interrupted other : RuntimeGraphInterrupted V} (h : S interrupted other)
    (world : W) : HaltTracks S q (.interrupted interrupted world) (.interrupted other (world, q))

structure OutcomeTracks (R : RuntimeState V → RuntimeState V → Prop) (q : Q)
    (outcome : GraphOutcome W V) (other : GraphOutcome (W × Q) V) : Prop where
  state : R outcome.state other.state
  trace : other.trace = outcome.trace
  world : other.world = (outcome.world, q)

/-- The runs end in states that `R` relates with the same trace and world, in the same interruption
or with the same error, where the second has the answers `q` left. -/
def RunsAgree (R : RuntimeState V → RuntimeState V → Prop) (q : Q) :
    Except (Halt W V) (GraphOutcome W V) → Except (Halt (W × Q) V) (GraphOutcome (W × Q) V) →
      Prop :=
  Ends (HaltTracks (SameInterruption R) q) (OutcomeTracks R q)

variable {R : RuntimeState V → RuntimeState V → Prop} {context : GraphRunContext W V}
  {other : GraphRunContext (W × Q) V}

theorem RunsAgree.leaving {x : Except (Halt W V) (GraphOutcome W V)}
    {y : Except (Halt (W × Q) V) (GraphOutcome (W × Q) V)} (h : RunsAgree R q x y)
    (frame : String) :
    RunsAgree R q (x.mapError (Halt.leaving frame)) (y.mapError (Halt.leaving frame)) := by
  cases h with
  | ok houtcome => exact .ok houtcome
  | error hhalt =>
    cases hhalt with
    | failed error world => cases error <;> exact .error (.failed _ _)
    | interrupted hsame world => exact .error (.interrupted hsame world)

section

variable (h : Tracks R q context other)

include h

theorem Tracks.publish (event event' : RuntimeGraphEvent V) :
    Tracks R q (context.publish event) (other.publish event') :=
  ⟨h.state, h.pending, h.trace, h.step, h.world⟩

theorem Tracks.publish_left (event : RuntimeGraphEvent V) :
    Tracks R q (context.publish event) other :=
  ⟨h.state, h.pending, h.trace, h.step, h.world⟩

theorem Tracks.recordTrace [RuntimeValue V] {executor : RuntimeGraphExecutor W V}
    (hR : executor.Respects R) (key : Option String) :
    Tracks R q (context.recordTrace key) (other.recordTrace key) := by
  cases key with
  | none => exact h
  | some key =>
    refine ⟨?_, h.pending, h.trace, h.step, h.world⟩
    show R (context.state.insert key _) (other.state.insert key _)
    rw [h.trace]
    exact hR.insert key _ h.state

theorem Tracks.completed [RuntimeValue V] {executor : RuntimeGraphExecutor W V}
    (hR : executor.Respects R) (key : Option String) :
    Tracks R q (context.completed key) (other.completed key) :=
  (h.recordTrace hR key).publish _ _

theorem Tracks.outcome : OutcomeTracks R q context.outcome other.outcome :=
  ⟨h.state, h.trace, h.world⟩

theorem Tracks.busy : context.busy = other.busy := by
  rw [GraphRunContext.busy, GraphRunContext.busy, h.pending]

end

variable {interrupted : RuntimeGraphInterrupted V} {world : W} {interrupt : RuntimeGraphInterrupt V}

theorem Tracks.raiseInterrupted
    (h : Tracks R q (fromInterrupted interrupted world) other)
    (hinterrupt : interrupt = interrupted.interrupt) :
    HaltTracks (SameInterruption R) q (.interrupted interrupted world)
      (other.raiseInterrupted interrupted.node interrupt) := by
  have hworld : other.world = (world, q) := h.world
  show HaltTracks (SameInterruption R) q _ (.interrupted _ other.world)
  rw [hworld]
  refine .interrupted ?_ world
  exact ⟨hinterrupt, rfl, h.step, h.state, h.trace, h.pending⟩

/-- A call that acts on the first part of the world answers the same. -/
theorem Tracks.perform {α : Type} (h : Tracks R q context other) (x : Effect W α) :
    Ends (HaltTracks (SameInterruption R) q) (fun r r' => r'.1 = r.1 ∧ Tracks R q r.2 r'.2) (context.perform x)
      (other.perform x.onFst) := by
  rw [GraphRunContext.perform, GraphRunContext.perform, Effect.run_onFst, h.world]
  rcases x.run.run context.world with ⟨_ | a, world⟩
  · exact .error (.failed _ _)
  · exact .ok ⟨rfl, h.state, h.pending, h.trace, h.step, rfl⟩

end

namespace RuntimeGraphExecutor

variable {executor : RuntimeGraphExecutor W V} {R : RuntimeState V → RuntimeState V → Prop}

theorem conditionalTarget_answering (state : RuntimeState V) (targets : List (PendingItem V))
    (edge : RuntimeGraphConditionalEdge) : executor.answering.conditionalTarget state targets edge =
      (executor.conditionalTarget state targets edge).onFst := by
  rw [conditionalTarget, conditionalTarget]
  show (liftM (presentElse ((executor.routers edge.router).map _) _) : Effect _ _) >>= _ = _
  cases executor.routers edge.router with
  | none => rfl
  | some router =>
    show ((router state).onFst >>= fun called => pure called.onFst) >>= _ =
      (router state >>= _).onFst
    rw [Effect.onFst_bind, bind_assoc]
    congr
    funext called
    rw [pure_bind, Effect.onFst_bind]
    cases called <;> rfl

theorem nextTargets_answering (node : String) (state : RuntimeState V)
    (outcome : NormalizedActionResult V) : executor.answering.nextTargets node state outcome =
      (executor.nextTargets node state outcome).onFst := by
  rw [nextTargets, nextTargets]
  split
  · rfl
  · rw [Effect.onFst_bind, conditionalTargets, conditionalTargets, Effect.onFst_foldlM]
    have hstep : executor.answering.conditionalTarget state =
        fun targets edge => (executor.conditionalTarget state targets edge).onFst := by
      funext targets edge
      exact conditionalTarget_answering state targets edge
    rw [hstep]
    rfl

theorem nextTargets_respects {state state' : RuntimeState V} (hR : executor.Respects R)
    (h : R state state') (node : String) (outcome : NormalizedActionResult V) :
    executor.nextTargets node state' outcome = executor.nextTargets node state outcome := by
  have hstep : executor.conditionalTarget state' = executor.conditionalTarget state := by
    funext targets edge
    rw [conditionalTarget, conditionalTarget]
    cases hrouter : executor.routers edge.router with
    | none => rfl
    | some router =>
      show (router state' >>= _) = (router state >>= _)
      rw [hR.routers hrouter h]
  rw [nextTargets, nextTargets, conditionalTargets, conditionalTargets, hstep]

theorem respects_update {state state' : RuntimeState V} (hR : executor.Respects R)
    (h : R state state') (entries : List (String × V)) :
    R (state.update entries) (state'.update entries) := by
  induction entries generalizing state state' with
  | nil => exact h
  | cons entry rest ih => exact ih (hR.insert _ _ h)

variable {q : List (RuntimeActionResult V)} {context : GraphRunContext W V}
  {other : GraphRunContext (W × List (RuntimeActionResult V)) V}

/-- Both calls give related states, in contexts that track. -/
abbrev Merges (R : RuntimeState V → RuntimeState V → Prop) (q : List (RuntimeActionResult V)) :
    Except (Halt W V) (RuntimeState V × GraphRunContext W V) →
      Except (Halt (W × List (RuntimeActionResult V)) V)
        (RuntimeState V × GraphRunContext (W × List (RuntimeActionResult V)) V) → Prop :=
  Ends (HaltTracks (SameInterruption R) q) fun r r' => R r.1 r'.1 ∧ Tracks R q r.2 r'.2

theorem mergeEntry_tracks (hR : executor.Respects R) (h : Tracks R q context other)
    {merged merged' : RuntimeState V} (hmerged : R merged merged') (entry : String × V) :
    Merges R q (context.perform (mergeEntry executor.reducers merged entry))
      (other.perform (mergeEntry executor.answering.reducers merged' entry)) := by
  have hreducers : executor.answering.reducers entry.1 = (executor.reducers entry.1).map
      fun reducer old value => (reducer old value).onFst := rfl
  have hset := hR.insert entry.1 entry.2 hmerged
  rw [mergeEntry, mergeEntry, hreducers]
  cases hreducer : executor.reducers entry.1 with
  | none => cases merged.lookup entry.1 <;> cases merged'.lookup entry.1 <;> exact .ok ⟨hset, h⟩
  | some reducer =>
    rw [hR.reducers hreducer hmerged]
    cases merged.lookup entry.1 with
    | none => exact .ok ⟨hset, h⟩
    | some old =>
      show Merges R q (context.perform (reducer old entry.2 >>= _))
        (other.perform ((reducer old entry.2).onFst >>= _))
      rw [perform_bind, perform_bind]
      refine (h.perform _).bind ?_
      rintro ⟨value, context⟩ ⟨value', other⟩ ⟨rfl, h⟩
      exact .ok ⟨hR.insert _ _ hmerged, h⟩

theorem mergeUpdate_tracks (hR : executor.Respects R) (h : Tracks R q context other)
    (update : Update V) :
    Merges R q (context.perform (mergeUpdate executor.reducers context.state update))
      (other.perform (mergeUpdate executor.answering.reducers other.state update)) := by
  have hstate := h.state
  generalize context.state = merged at hstate
  generalize other.state = merged' at hstate
  cases update with
  | absent => exact .ok ⟨hstate, h⟩
  | other typeName =>
    show Merges R q (.error (.failed _ context.world)) (.error (.failed _ other.world))
    rw [h.world]
    exact .error (.failed _ _)
  | mapping update =>
    rw [mergeUpdate, mergeUpdate, mergeState, mergeState]
    induction update.entries generalizing context other merged merged' with
    | nil => exact .ok ⟨hstate, h⟩
    | cons entry rest ih =>
      rw [foldlM_cons, foldlM_cons, perform_bind, perform_bind]
      refine (mergeEntry_tracks hR h hstate entry).bind ?_
      rintro ⟨merged, context⟩ ⟨merged', other⟩ ⟨hstate, h⟩
      exact ih h merged merged' hstate

theorem finishNode_tracks (hR : executor.Respects R) (h : Tracks R q context other) (node : String)
    (outcome : NormalizedActionResult V) (eventKind eventKind' : EventKind) :
    Ends (HaltTracks (SameInterruption R) q) (Tracks R q) (executor.finishNode context node outcome eventKind).ended
      (executor.answering.finishNode other node outcome eventKind').ended := by
  simp only [finishNode, ended_bind, ended_silently, ended_yield, ended_pure, nextTargets_answering]
  refine (mergeUpdate_tracks hR h outcome.update).bind ?_
  rintro ⟨merged, context⟩ ⟨merged', other⟩ ⟨hstate, h⟩
  have hmerged : Tracks R q { context with state := merged } { other with state := merged' } :=
    ⟨hstate, h.pending, h.trace, h.step, h.world⟩
  dsimp only
  rw [nextTargets_respects hR hstate]
  refine (hmerged.perform _).bind ?_
  rintro ⟨targets, context⟩ ⟨targets', other⟩ ⟨rfl, h⟩
  refine .ok ⟨h.state, ?_, h.trace, h.step, h.world⟩
  show other.pending ++ targets' = context.pending ++ targets'
  rw [h.pending]

def Answered (R : RuntimeState V → RuntimeState V → Prop) (q : List (RuntimeActionResult V)) (interrupted : RuntimeGraphInterrupted V)
    (world : W) (started : Except (Halt (W × List (RuntimeActionResult V)) V)
      (NormalizedActionResult V × GraphRunContext (W × List (RuntimeActionResult V)) V)) : Prop :=
  ∃ other, Tracks R q.tail (GraphRunContext.fromInterrupted interrupted world) other ∧
    started =
      let outcome := normalizeActionResult (q.headD (.interrupt interrupted.interrupt))
      match outcome.interrupt with
      | some interrupt => .error (other.raiseInterrupted interrupted.node interrupt)
      | none => .ok (outcome, other)

inductive Follows (R : RuntimeState V → RuntimeState V → Prop) (q : List (RuntimeActionResult V))
    (node : String) :
    Except (Halt W V) (NormalizedActionResult V × GraphRunContext W V) →
      Except (Halt (W × List (RuntimeActionResult V)) V)
        (NormalizedActionResult V × GraphRunContext (W × List (RuntimeActionResult V)) V) → Prop
  | ok {outcome context other} : Tracks R q context other →
    Follows R q node (.ok (outcome, context)) (.ok (outcome, other))
  | failed (error : GraphError) (world : W) :
    Follows R q node (.error (.failed error world)) (.error (.failed error (world, q)))
  | interrupted {interrupted world started} : interrupted.node = node →
    Answered R q interrupted world started →
    Follows R q node (.error (.interrupted interrupted world)) started

def entering [RuntimeValue V] (traceKey : Option String) (node : String)
    (branchUpdate : Option (Mapping V)) (context : GraphRunContext W V) : GraphRunContext W V :=
  let context := { context with trace := context.trace ++ [node] }.recordTrace traceKey
  context.publish (context.nodeStartEvent node branchUpdate)

def runAction (executor : RuntimeGraphExecutor W V) (context : GraphRunContext W V) (node : String)
    (actionState : RuntimeState V) :
    Except (Halt W V) (NormalizedActionResult V × GraphRunContext W V) := do
  let action ← presentElse (executor.actions node) (.failed (.keyError node) context.world)
  let called ← context.perform (action actionState)
  let outcome := normalizeActionResult called.1.asResult
  match outcome.interrupt with
  | some interrupt => .error (called.2.raiseInterrupted node interrupt)
  | none => pure (outcome, called.2)

theorem startAndRunNode_eq [RuntimeValue V] (executor : RuntimeGraphExecutor W V)
    (traceKey : Option String) (context : GraphRunContext W V) (node : String)
    (branchUpdate : Option (Mapping V)) :
    executor.startAndRunNode traceKey context node branchUpdate =
      context.advanceStep executor.plan.stepLimit >>= fun advanced =>
        let context := entering traceKey node branchUpdate advanced
        executor.runAction context node (withBranchUpdate context.state branchUpdate) :=
  rfl

theorem tracks_entering [RuntimeValue V] (hR : executor.Respects R) (traceKey : Option String)
    (h : Tracks R q context other) (node : String) (branchUpdate : Option (Mapping V)) :
    Tracks R q (entering traceKey node branchUpdate context)
      (entering traceKey node branchUpdate other) := by
  have htrace : Tracks R q { context with trace := context.trace ++ [node] }
      { other with trace := other.trace ++ [node] } :=
    ⟨h.state, h.pending, by rw [h.trace], h.step, h.world⟩
  exact (htrace.recordTrace hR traceKey).publish _ _

theorem runAction_answering (hR : executor.Respects R) (h : Tracks R q context other) (node : String)
    {actionState actionState' : RuntimeState V} (hstate : R actionState actionState') :
    Follows R q node (executor.runAction context node actionState)
      (executor.answering.runAction other node actionState') := by
  rw [runAction, runAction]
  show Follows R q node _ (presentElse ((executor.actions node).map answeringAction) _ >>= _)
  cases haction : executor.actions node with
  | none =>
    rw [h.world]
    exact .failed _ _
  | some action =>
    show Follows R q node (context.perform (action actionState) >>= _)
      (other.perform ((action actionState').onFst >>= _) >>= _)
    rw [hR.actions haction hstate, perform_bind, bind_assoc, perform, perform,
      Effect.run_onFst, h.world]
    rcases (action actionState).run.run context.world with ⟨error | called, world⟩
    · exact .failed _ _
    · cases called with
      | awaitable typeName repr answer =>
        exact .ok ⟨h.state, h.pending, h.trace, h.step, rfl⟩
      | value answer =>
        cases answer with
        | interrupt interrupt =>
          -- the answering action gives the first answer left instead
          refine .interrupted rfl ⟨{ other with world := (world, q.tail) },
            ⟨h.state, h.pending, h.trace, h.step, rfl⟩, ?_⟩
          cases q with
          | nil => rfl
          | cons answer rest => cases answer <;> rfl
        | update update | command update goto | send send | sends sends =>
          exact .ok ⟨h.state, h.pending, h.trace, h.step, rfl⟩

theorem startAndRunNode_answering [RuntimeValue V] (hR : executor.Respects R)
    (traceKey : Option String) (h : Tracks R q context other) (node : String) (branchUpdate : Option (Mapping V)) :
    Follows R q node (executor.startAndRunNode traceKey context node branchUpdate)
      (executor.answering.startAndRunNode traceKey other node branchUpdate) := by
  rw [startAndRunNode_eq, startAndRunNode_eq]
  show Follows R q node (context.advanceStep executor.plan.stepLimit >>= _)
    (other.advanceStep executor.plan.stepLimit >>= _)
  rw [advanceStep, advanceStep, h.step]
  split
  · rw [h.world]
    exact .failed _ _
  · have hadvanced : Tracks R q { context with step := context.step + 1 }
        { other with step := context.step + 1 } := ⟨h.state, h.pending, h.trace, rfl, h.world⟩
    have hentering := tracks_entering hR traceKey hadvanced node branchUpdate
    refine runAction_answering hR hentering node ?_
    cases branchUpdate with
    | none => exact hentering.state
    | some update => exact respects_update hR hentering.state update.entries

/-- How a run is followed by the answered executor, which takes up an answer
with `k`. -/
inductive Continues (R : RuntimeState V → RuntimeState V → Prop) 
    (q : List (RuntimeActionResult V))
    (k : String → NormalizedActionResult V × GraphRunContext (W × List (RuntimeActionResult V)) V →
      Except (Halt (W × List (RuntimeActionResult V)) V)
        (GraphRunContext (W × List (RuntimeActionResult V)) V)) :
    Except (Halt W V) (GraphRunContext W V) →
      Except (Halt (W × List (RuntimeActionResult V)) V)
        (GraphRunContext (W × List (RuntimeActionResult V)) V) → Prop
  | ok {c : GraphRunContext W V} {d : GraphRunContext (W × List (RuntimeActionResult V)) V} :
    Tracks R q c d → Continues R q k (.ok c) (.ok d)
  | failed (error : GraphError) (world : W) :
    Continues R q k (.error (.failed error world)) (.error (.failed error (world, q)))
  | interrupted {interrupted world started} : Answered R q interrupted world started →
    Continues R q k (.error (.interrupted interrupted world)) (started >>= k interrupted.node)

/-- A world with the answers that are left. -/
abbrev Stocked (W V : Type) := W × List (RuntimeActionResult V)

abbrev Ending (W V : Type) := Except (Halt W V) (GraphRunContext W V)

/-- The computation does not raise an interruption. -/
def NeverInterrupts {α : Type} (x : Except (Halt W V) α) : Prop :=
  ∀ interrupted world, x ≠ .error (.interrupted interrupted world)

theorem not_neverInterrupts {α : Type} {x : Except (Halt W V) α} : ¬NeverInterrupts x ↔
      ∃ interrupted world, x = .error (.interrupted interrupted world) := by
  simp [NeverInterrupts]

theorem neverInterrupts_of_isSome {α : Type} {x : Except (Halt W V) α} (h : x.toOption.isSome) :
    NeverInterrupts x := by
  rintro interrupted world rfl
  cases h

theorem NeverInterrupts.bind {α β : Type} {x : Except (Halt W V) α}
    {f : α → Except (Halt W V) β} (hx : NeverInterrupts x) (hf : ∀ a, NeverInterrupts (f a)) :
    NeverInterrupts (x >>= f) := by
  cases x with
  | error halt =>
    rintro interrupted world ⟨⟩
    exact hx interrupted world rfl
  | ok a => exact hf a

theorem perform_neverInterrupts {α : Type} (context : GraphRunContext W V) (x : Effect W α) :
    NeverInterrupts (context.perform x) := by
  intro interrupted world h
  unfold perform at h
  split at h <;> cases h

theorem finishNode_neverInterrupts (executor : RuntimeGraphExecutor W V)
    (context : GraphRunContext W V) (node : String) (outcome : NormalizedActionResult V)
    (eventKind : EventKind) :
    NeverInterrupts (executor.finishNode context node outcome eventKind).ended := by
  simp only [finishNode, ended_bind, ended_silently, ended_yield, ended_pure]
  refine (perform_neverInterrupts _ _).bind fun merged => ?_
  refine (perform_neverInterrupts _ _).bind fun targets => ?_
  rintro interrupted world ⟨⟩

variable {run : Ending W V} {run' : Ending (Stocked W V) V}
  {k : String → NormalizedActionResult V × GraphRunContext (Stocked W V) V →
    Ending (Stocked W V) V}

theorem continues_of_ends
    (h : Ends (HaltTracks (SameInterruption R) q) (Tracks R q) run run') (hrun : NeverInterrupts run) :
    Continues R q k run run' := by
  cases h with
  | ok htracks => exact .ok htracks
  | error hhalt =>
    cases hhalt with
    | failed error world => exact .failed error world
    | interrupted _ world => exact absurd rfl (hrun _ world)

theorem Continues.bind (h : Continues R q k run run') {f : GraphRunContext W V → Ending W V}
    {g : GraphRunContext (Stocked W V) V → Ending (Stocked W V) V}
    (hfg : ∀ context other, run = .ok context → Tracks R q context other →
      Continues R q (fun node started => k node started >>= g) (f context) (g other)) :
    Continues R q (fun node started => k node started >>= g) (run >>= f) (run' >>= g) := by
  cases h with
  | ok htracks => exact hfg _ _ rfl htracks
  | failed error world => exact .failed error world
  | interrupted hanswered =>
    rw [bind_assoc]
    exact .interrupted hanswered

theorem Continues.ends_of_nil (h : Continues R [] k run run') :
    Ends (HaltTracks (SameInterruption R) []) (Tracks R []) run run' := by
  cases h with
  | ok htracks => exact .ok htracks
  | failed error world => exact .error (.failed error world)
  | interrupted hanswered =>
    obtain ⟨other, htracks, rfl⟩ := hanswered
    exact .error (htracks.raiseInterrupted rfl)

theorem Tracks.initial (executor : RuntimeGraphExecutor W V) (initialState : RuntimeState V)
    (world : W) (q : List (RuntimeActionResult V)) :
    Tracks Eq q (executor.fromInitial initialState world)
      (executor.answering.fromInitial initialState (world, q)) :=
  ⟨rfl, rfl, rfl, rfl, rfl⟩

variable {interrupted : RuntimeGraphInterrupted V} {world : W}

variable [RuntimeValue V] {traceKey : Option String}

def takeUp (executor : RuntimeGraphExecutor W V) (node : String)
    (started : NormalizedActionResult V × GraphRunContext W V) :
    Except (Halt W V) (GraphRunContext W V) :=
  (executor.finishNode started.2 node started.1 .nodeEnd).ended

theorem executeNextEventStep_answered (hR : executor.Respects R) (h : Tracks R q context other) :
    Continues R q executor.answering.takeUp (executor.executeNextEventStep traceKey context).ended
      (executor.answering.executeNextEventStep traceKey other).ended := by
  rw [executeNextEventStep, executeNextEventStep, h.pending]
  rcases context.pending with _ | ⟨item, rest⟩
  · exact .ok h
  · dsimp only
    have hrest : Tracks R q { context with pending := rest } { other with pending := rest } :=
      ⟨h.state, rfl, h.trace, h.step, h.world⟩
    split
    · exact .ok hrest
    · simp only [ended_bind, ended_silently]
      have hstarted := startAndRunNode_answering hR traceKey hrest item.target item.branchUpdate
      generalize executor.startAndRunNode traceKey { context with pending := rest } item.target
        item.branchUpdate = started at hstarted ⊢
      generalize executor.answering.startAndRunNode traceKey { other with pending := rest }
        item.target item.branchUpdate = started' at hstarted ⊢
      cases hstarted with
      | failed error world => exact .failed error world
      | interrupted hnode hanswered =>
        rw [← hnode]
        exact .interrupted hanswered
      | @ok outcome context other htracks =>
        have hfinish := finishNode_tracks hR htracks item.target outcome .nodeEnd .nodeEnd
        show Continues R q _ (executor.finishNode context item.target outcome .nodeEnd).ended
          (executor.answering.finishNode other item.target outcome .nodeEnd).ended
        exact continues_of_ends hfinish (finishNode_neverInterrupts _ _ _ _ _)

variable (traceKey) in
/-- **An answered run goes on where the interruption stands.** -/
theorem executePending_answered (hR : executor.Respects R) (h : Tracks R q context other) :
    Continues R q
      (fun node started => executor.answering.takeUp node started >>= fun other =>
        (executor.answering.executePending traceKey other).ended)
      (executor.executePending traceKey context).ended
      (executor.answering.executePending traceKey other).ended := by
  -- the rounds go side by side until one fails or the answer is taken up
  induction context using whileLoop_induction
    (executor.executeNextEventStep_descends traceKey)
    generalizing other with
  | idle context hidle =>
    rw [executePending, executePending, whileLoop_idle hidle,
      whileLoop_idle (h.busy.symm.trans hidle)]
    exact .ok h
  | fails context halt hbusy hhalt =>
    rw [executePending, executePending, whileLoop_busy hbusy,
      whileLoop_busy (h.busy.symm.trans hbusy), ended_bind, ended_bind]
    refine (executeNextEventStep_answered hR h).bind ?_
    intro context' other' hcontext
    rw [hhalt] at hcontext
    cases hcontext
  | round context context' hbusy hround ih =>
    rw [executePending, executePending, whileLoop_busy hbusy,
      whileLoop_busy (h.busy.symm.trans hbusy), ended_bind, ended_bind]
    refine (executeNextEventStep_answered hR h).bind ?_
    intro context'' other' hcontext htracks
    rw [hround] at hcontext
    cases hcontext
    exact ih htracks

omit [RuntimeValue V] in
theorem runAction_interrupted {node : String} {actionState : RuntimeState V}
    (h : executor.runAction context node actionState = .error (.interrupted interrupted world)) :
    interrupted.state = context.state ∧ interrupted.trace = context.trace ∧
      interrupted.step = context.step := by
  simp only [runAction, bind_eq_error] at h
  rcases h with h | ⟨action, -, h | ⟨called, hcalled, h⟩⟩
  · simp at h
  · exact absurd h (perform_neverInterrupts _ _ _ _)
  · have hframe := perform_frame hcalled
    have hstate := congrArg state hframe
    have htrace := congrArg trace hframe
    have hstep := congrArg step hframe
    split at h
    · cases h
      exact ⟨hstate, htrace, hstep⟩
    · cases h

theorem executePending_interrupted (h : (executor.executePending traceKey context).ended =
      .error (.interrupted interrupted world)) :
    (fromInterrupted interrupted world).recordTrace traceKey =
        fromInterrupted interrupted world ∧
      context.step < interrupted.step := by
  -- the step that was interrupted started in `before`
  obtain ⟨before, hle, hbusy, hstep⟩ := whileLoop_error (executor.executeNextEventStep_descends traceKey)
    (I := fun c => context.step ≤ c.step)
    (fun s s' hs hbusy hs' => by
      rcases executeNextEventStep_advances hbusy hs' with ⟨hstep, -⟩ | ⟨hstep, -⟩ <;> omega)
    (Nat.le_refl _) h
  rw [executeNextEventStep] at hstep
  split at hstep
  · cases hstep
  · dsimp only at hstep
    split at hstep
    · cases hstep
    · rename_i item rest _ _
      rw [ended_bind, ended_silently] at hstep
      cases hstarted : executor.startAndRunNode traceKey { before with pending := rest }
          item.target item.branchUpdate with
      | ok started =>
        rw [hstarted] at hstep
        exact absurd hstep (finishNode_neverInterrupts _ _ _ _ _ _ _)
      | error halt =>
        rw [hstarted] at hstep
        cases hstep
        rw [startAndRunNode_eq, advanceStep] at hstarted
        split at hstarted
        · cases hstarted
        · obtain ⟨hstate, htrace, hnext⟩ := runAction_interrupted hstarted
          refine ⟨?_, ?_⟩
          · cases traceKey with
            | none => rfl
            | some key =>
              have hrecorded : interrupted.state.insert key (RuntimeValue.ofTrace interrupted.trace) =
                  interrupted.state := by
                rw [hstate, htrace]
                exact Mapping.insert_insert _ _
              simp only [recordTrace, fromInterrupted, hrecorded]
          · have hadvanced : interrupted.step = before.step + 1 :=
              hnext.trans (recordTrace_step traceKey)
            omega

theorem pendingOutcome_agrees (hR : executor.Respects R) (h : Tracks R [] context other) :
    RunsAgree R [] (executor.pendingOutcome traceKey context)
      (executor.answering.pendingOutcome traceKey other) := by
  have hends := (executePending_answered traceKey hR h).ends_of_nil
  rw [pendingOutcome, pendingOutcome]
  generalize (executor.executePending traceKey context).ended = x at hends ⊢
  generalize (executor.answering.executePending traceKey other).ended = y at hends ⊢
  cases hends with
  | ok htracks => exact .ok (htracks.completed hR traceKey).outcome
  | error hhalt => exact .error hhalt

theorem pendingOutcome_interrupted :
    executor.pendingOutcome traceKey context = .error (.interrupted interrupted world) ↔
      (executor.executePending traceKey context).ended =
        .error (.interrupted interrupted world) := by
  rw [pendingOutcome]
  cases (executor.executePending traceKey context).ended <;> simp [Except.map]

/-- A run in which nothing is answered is the run itself. -/
theorem invokeWithEvents_unanswered (executor : RuntimeGraphExecutor W V) (traceKey : Option String)
    (initialState : RuntimeState V) (world : W) :
    RunsAgree Eq [] (executor.invokeWithEvents traceKey initialState world)
      (executor.answering.invokeWithEvents traceKey initialState (world, [])) := by
  rw [invokeWithEvents, invokeWithEvents, runContext_eq, runContext_eq]
  exact (pendingOutcome_agrees executor.respects_eq
    ((Tracks.initial _ _ _ _).publish _ _)).leaving _

/-- A resumption is interrupted at a later step only. -/
theorem resumeInterrupted_later {answer : Called W (RuntimeActionResult V)}
    {again : RuntimeGraphInterrupted V} {world' : W}
    (h : executor.resumeInterrupted traceKey interrupted answer world =
      .error (.interrupted again world')) : interrupted.step < again.step := by
  obtain hstop | ⟨resumed, hresumed, h⟩ := bind_eq_error.1 (mapError_leaving_interrupted.1 h)
  · exact absurd hstop (finishNode_neverInterrupts _ _ _ _ _ _ _)
  · rw [runContext_eq, pendingOutcome_interrupted] at h
    have hlater : resumed.step < again.step := (executePending_interrupted h).2
    have hstep : resumed.step = interrupted.step :=
      (finishNode_step hresumed).trans (recordTrace_step traceKey)
    omega

/-- A run is interrupted, and ends as `y` when `answer` is the answer instead. -/
def Stopped (executor : RuntimeGraphExecutor W V) (traceKey : Option String)
    (answer : RuntimeActionResult V) (interrupted : RuntimeGraphInterrupted V) (world : W)
    (y : Except (Halt (Stocked W V) V) (GraphOutcome (Stocked W V) V)) : Prop :=
  ∃ context other, Tracks Eq [answer] context other ∧
    executor.pendingOutcome traceKey context = .error (.interrupted interrupted world) ∧
    (executor.answering.pendingOutcome traceKey other).mapError (Halt.leaving "generator") = y

variable {answer : RuntimeActionResult V} {world' : W}

theorem stopped_invoke {initialState : RuntimeState V}
    (h : executor.invokeWithEvents traceKey initialState world =
      .error (.interrupted interrupted world')) :
    executor.Stopped traceKey answer interrupted world'
      (executor.answering.invokeWithEvents traceKey initialState (world, [answer])) := by
  rw [invokeWithEvents, runContext_eq, mapError_leaving_interrupted] at h
  rw [invokeWithEvents, runContext_eq]
  exact ⟨_, _, (Tracks.initial _ _ _ _).publish _ _, h, rfl⟩

theorem stopped_resume {resumed : RuntimeGraphInterrupted V} {resumeResult : RuntimeActionResult V}
    (h : executor.resumeInterrupted traceKey resumed (.value resumeResult) world =
      .error (.interrupted interrupted world')) :
    executor.Stopped traceKey answer interrupted world'
      (executor.answering.resumeInterrupted traceKey resumed (.value resumeResult)
        (world, [answer])) := by
  have hstart : Tracks Eq [answer]
      ((fromInterrupted resumed world).recordTrace traceKey)
      ((fromInterrupted resumed (world, [answer])).recordTrace traceKey) :=
    Tracks.recordTrace ⟨rfl, rfl, rfl, rfl, rfl⟩ executor.respects_eq traceKey
  have hcontexts := finishNode_tracks executor.respects_eq hstart resumed.node
    (normalizeActionResult resumeResult) .resume .resume
  obtain hstop | ⟨context, hcontext, h⟩ := bind_eq_error.1 (mapError_leaving_interrupted.1 h)
  · exact absurd hstop (finishNode_neverInterrupts _ _ _ _ _ _ _)
  · replace hcontext : (executor.finishNode _ _ (normalizeActionResult resumeResult) _).ended = _ :=
      hcontext
    rw [runContext_eq] at h
    show executor.Stopped _ _ _ _ (((executor.answering.finishNode _ _
      (normalizeActionResult resumeResult) _).ended >>=
        executor.answering.runContext traceKey).mapError _)
    rw [hcontext] at hcontexts
    generalize (executor.answering.finishNode _ _ _ _).ended = y at hcontexts ⊢
    cases hcontexts with
    | @ok _ other htracks =>
      exact ⟨_, _, htracks.publish _ _, h,
        congrArg (Except.mapError _) (executor.answering.runContext_eq traceKey _).symm⟩

section

variable {y : Except (Halt (Stocked W V) V) (GraphOutcome (Stocked W V) V)}
  (h : executor.Stopped traceKey answer interrupted world y)

include h

theorem Stopped.taken : ∃ taken, Tracks Eq [] (fromInterrupted interrupted world) taken ∧
      y = Except.mapError (Halt.leaving "generator")
        (match (normalizeActionResult answer).interrupt with
        | some interrupt => .error (taken.raiseInterrupted interrupted.node interrupt)
        | none =>
          executor.answering.takeUp interrupted.node (normalizeActionResult answer, taken) >>=
            executor.answering.pendingOutcome traceKey) := by
  obtain ⟨context, other, htracks, hi, rfl⟩ := h
  rw [pendingOutcome_interrupted] at hi
  have hfollow := executePending_answered traceKey executor.respects_eq htracks
  rw [hi] at hfollow
  rw [pendingOutcome]
  generalize (executor.answering.executePending traceKey other).ended = y at hfollow ⊢
  cases hfollow with
  | interrupted hanswered =>
    obtain ⟨taken, htaken, rfl⟩ := hanswered
    refine ⟨taken, htaken, congrArg (Except.mapError _) ?_⟩
    dsimp only [headD_cons]
    cases hinterrupt : (normalizeActionResult answer).interrupt with
    | some interrupt => rfl
    | none =>
      show Except.map _ (executor.answering.takeUp _ (_, taken) >>= _) =
        executor.answering.takeUp _ (_, taken) >>= _
      cases executor.answering.takeUp interrupted.node (normalizeActionResult answer, taken) <;> rfl

theorem Stopped.recorded : (fromInterrupted interrupted world).recordTrace traceKey =
      fromInterrupted interrupted world := by
  obtain ⟨_, _, -, hi, -⟩ := h
  exact (executePending_interrupted (pendingOutcome_interrupted.1 hi)).1

/-- An answer that interrupts interrupts the run it is given in, at the same step. -/
theorem Stopped.interrupts (hanswer : answer.Interrupts) :
    ∃ again world', y = .error (.interrupted again world') ∧ again.step = interrupted.step := by
  obtain ⟨taken, htaken, rfl⟩ := h.taken
  cases hinterrupt : (normalizeActionResult answer).interrupt with
  | none => exact absurd hanswer (normalizeActionResult_interrupt.1 hinterrupt)
  | some interrupt => exact ⟨_, _, rfl, htaken.step⟩

/-- A run resumed from a state that `R` relates to the interrupted one, by an
answer that does not interrupt, ends as the answered run. -/
theorem Stopped.agrees (hanswer : ¬answer.Interrupts) (hR : executor.Respects R)
    {state : RuntimeState V} (hstate : R state interrupted.state) :
    RunsAgree R [] (executor.resumeInterrupted traceKey { interrupted with state } (.value answer)
      world) y := by
  obtain ⟨taken, htaken, rfl⟩ := h.taken
  have hrecorded : taken.recordTrace traceKey = taken := by
    cases traceKey with
    | none => rfl
    | some key =>
      have hsame : taken.state.insert key (RuntimeValue.ofTrace taken.trace) = taken.state := by
        rw [← htaken.state, htaken.trace]
        exact congrArg GraphRunContext.state h.recorded
      exact congrArg (fun state => { taken with state }) hsame
  have hrestored : Tracks R [] (GraphRunContext.fromInterrupted { interrupted with state } world)
      taken := ⟨htaken.state ▸ hstate, htaken.pending, htaken.trace, htaken.step, htaken.world⟩
  have hresumed := finishNode_tracks hR (hrecorded ▸ hrestored.recordTrace hR traceKey)
    interrupted.node (normalizeActionResult answer) .resume .nodeEnd
  rw [normalizeActionResult_interrupt.2 hanswer]
  refine RunsAgree.leaving (Ends.bind hresumed ?_) _
  intro resumed taken' htracks
  rw [runContext_eq]
  exact pendingOutcome_agrees hR (htracks.publish_left _)

/-- **Interruption and answer**: resumed, an interrupted run ends as the
answered run exactly when the answer is not an interrupt. -/
theorem Stopped.agrees_iff : RunsAgree Eq [] (executor.resumeInterrupted traceKey interrupted
      (.value answer) world) y ↔ ¬answer.Interrupts := by
  refine ⟨fun hagree hanswer => ?_, fun hanswer => h.agrees hanswer executor.respects_eq rfl⟩
  -- the answered run stops at the step of the answer, the resumed run at a later one
  obtain ⟨again, world', rfl, hstep⟩ := h.interrupts hanswer
  generalize hx : executor.resumeInterrupted traceKey interrupted (.value answer) world = x at hagree
  cases hagree with
  | error hhalt =>
    cases hhalt with
    | interrupted hsame _ =>
      have hlater := resumeInterrupted_later hx
      rw [← hsame.step, hstep] at hlater
      exact absurd hlater (Nat.lt_irrefl _)

end

end RuntimeGraphExecutor

def reviewQuestion : RuntimeGraphInterrupt (List String) := ⟨["approve?"], true⟩

def reviewInterrupted : RuntimeGraphInterrupted (List String) where
  interrupt := reviewQuestion
  node := "review"
  step := 1
  state := ∅
  trace := ["review"]
  pending := []
  events := [⟨.start, none, 0, .started [.node "review"]⟩,
    ⟨.nodeStart, some "review", 1, .nodeStarted [] ["review"]⟩,
    ⟨.interrupt, some "review", 1, .interrupted ["approve?"] true ["review"]⟩]

/-- A graph of one node, which asks. -/
def askingReview : RuntimeGraphExecutor Unit (List String) :=
  reviewGraph (.interrupt reviewQuestion)

theorem review_interrupted : askingReview.invokeWithEvents none ∅ () =
      .error (.interrupted reviewInterrupted ()) :=
  RuntimeGraphExecutor.invokeWithEvents_of_unrolled (n := 1)
    (x := .error (.interrupted reviewInterrupted ())) _ none rfl

end PooFlow
