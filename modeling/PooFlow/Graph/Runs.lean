import PooFlow.Graph.Asynchrony
import PooFlow.Graph.Resumption

namespace PooFlow

open Foundation Generated GraphRunContext

variable {W V : Type}

structure Place (W V : Type) where
  traceKey : Option String
  context : GraphRunContext W V

/-- A record from which an interruption may be resumed: of the record that was
raised it keeps the node, the step, the trace and the queue. -/
structure Resumable (raised kept : RuntimeGraphInterrupted V) : Prop where
  node : kept.node = raised.node
  step : kept.step = raised.step
  trace : kept.trace = raised.trace
  pending : kept.pending = raised.pending

namespace RuntimeGraphExecutor

variable (executor : RuntimeGraphExecutor W V)

section

variable {executor} {context context' : GraphRunContext W V} {node : String}
  {outcome : NormalizedActionResult V}

theorem finishNode_ok {eventKind : EventKind}
    (h : (executor.finishNode context node outcome eventKind).ended = .ok context') :
    ∃ merged targets, context.perform (mergeUpdate executor.reducers context.state outcome.update) =
        .ok merged ∧
      perform { merged.2 with state := merged.1 }
        (executor.nextTargets node merged.1 outcome) = .ok targets ∧
      context'.pending = context.pending ++ targets.1 ∧ context'.trace = context.trace ∧
      context'.step = context.step := by
  simp only [finishNode, ended_bind, ended_silently, ended_yield, ended_pure, bind_eq_ok] at h
  obtain ⟨merged, hmerged, targets, htargets, _, -, h⟩ := h
  have hfirst := perform_frame hmerged
  have hsecond := perform_frame htargets
  have hpending : targets.2.pending = context.pending := by rw [hsecond, hfirst]
  have htrace : targets.2.trace = context.trace := by rw [hsecond, hfirst]
  have hstep : targets.2.step = context.step := by rw [hsecond, hfirst]
  cases h
  exact ⟨merged, targets, hmerged, htargets, congrArg (· ++ targets.1) hpending, htrace, hstep⟩

variable [RuntimeValue V] {traceKey : Option String} {branchUpdate : Option (Mapping V)}

theorem startAndRunNode_ok {r : NormalizedActionResult V × GraphRunContext W V}
    (h : executor.startAndRunNode traceKey context node branchUpdate = .ok r) :
    (executor.actions node).isSome ∧ r.2.pending = context.pending ∧
      r.2.trace = context.trace ++ [node] ∧ r.2.step = context.step + 1 ∧
      (context.step + 1 : ℤ) ≤ executor.plan.stepLimit := by
  obtain ⟨hstep, hlimit⟩ := startAndRunNode_step h
  simp only [startAndRunNode, bind_eq_ok, advanceStep_eq_ok, presentElse_eq_ok] at h
  obtain ⟨_, ⟨-, rfl⟩, action, haction, called, hcalled, h⟩ := h
  have hframe := perform_frame hcalled
  split at h
  · cases h
  · cases h
    refine ⟨Option.isSome_iff_exists.2 ⟨action, haction⟩, ?_, ?_, hstep, hlimit⟩
    · rw [hframe]
      simp [publish]
    · rw [hframe]
      cases traceKey <;> rfl

variable {interrupted : RuntimeGraphInterrupted V} {world : W}

theorem startAndRunNode_interrupted
    (h : executor.startAndRunNode traceKey context node branchUpdate =
      .error (.interrupted interrupted world)) :
    (executor.actions node).isSome ∧ interrupted.node = node ∧
      interrupted.pending = context.pending ∧ interrupted.trace = context.trace ++ [node] ∧
      interrupted.step = context.step + 1 ∧ (context.step + 1 : ℤ) ≤ executor.plan.stepLimit := by
  simp only [startAndRunNode, bind_eq_error] at h
  rcases h with h | ⟨_, hadvance, h⟩
  · -- the step limit fails, it does not interrupt
    unfold advanceStep at h
    split at h <;> cases h
  obtain ⟨hlimit, rfl⟩ := advanceStep_eq_ok.1 hadvance
  rcases h with h | ⟨action, haction, h | ⟨called, hcalled, h⟩⟩
  · simp at h
  · exact absurd h (perform_neverInterrupts _ _ _ _)
  · have hframe := perform_frame hcalled
    have hpending := congrArg pending hframe
    have htrace := congrArg trace hframe
    have hstep := congrArg step hframe
    split at h
    · cases h
      refine ⟨Option.isSome_iff_exists.2 ⟨action, presentElse_eq_ok.1 haction⟩, rfl, ?_, ?_, ?_,
        hlimit⟩
      · refine hpending.trans ?_
        simp [publish]
      · refine htrace.trans ?_
        cases traceKey <;> rfl
      · refine hstep.trans ?_
        simp [publish]
    · cases h

/-- **A completed round** has dropped an end of the graph, or has run a node. -/
theorem executeNextEventStep_ok (hbusy : context.busy = true)
    (h : (executor.executeNextEventStep traceKey context).ended = .ok context') :
    ∃ item rest, context.pending = item :: rest ∧
      (item.target = graphEnd ∧ context' = { context with pending := rest } ∨
        item.target ≠ graphEnd ∧ ∃ started,
          executor.startAndRunNode traceKey { context with pending := rest } item.target
            item.branchUpdate = .ok started ∧
          (executor.finishNode started.2 item.target started.1 .nodeEnd).ended = .ok context') := by
  unfold executeNextEventStep at h
  split at h
  · rename_i hnil
    simp [busy, hnil] at hbusy
  · rename_i item rest hitem
    refine ⟨item, rest, hitem, ?_⟩
    split at h
    · rename_i hend
      cases h
      exact .inl ⟨hend, rfl⟩
    · rename_i hend
      simp only [ended_bind, ended_silently, bind_eq_ok] at h
      exact .inr ⟨hend, h⟩

/-- **A failed round** has failed to run a node. -/
theorem executeNextEventStep_error {halt : Halt W V}
    (h : (executor.executeNextEventStep traceKey context).ended = .error halt) :
    ∃ item rest, context.pending = item :: rest ∧ item.target ≠ graphEnd ∧
      (executor.startAndRunNode traceKey { context with pending := rest } item.target
          item.branchUpdate = .error halt ∨
        ∃ started, executor.startAndRunNode traceKey { context with pending := rest } item.target
            item.branchUpdate = .ok started ∧
          (executor.finishNode started.2 item.target started.1 .nodeEnd).ended = .error halt) := by
  unfold executeNextEventStep at h
  split at h
  · cases h
  · rename_i item rest hitem
    split at h
    · cases h
    · rename_i hend
      simp only [ended_bind, ended_silently, bind_eq_error] at h
      exact ⟨item, rest, hitem, hend, h⟩

theorem executeNextEventStep_interrupted
    (h : (executor.executeNextEventStep traceKey context).ended =
      .error (.interrupted interrupted world)) :
    ∃ item rest, context.pending = item :: rest ∧ item.target ≠ graphEnd ∧
      executor.startAndRunNode traceKey { context with pending := rest } item.target
        item.branchUpdate = .error (.interrupted interrupted world) := by
  obtain ⟨item, rest, hitem, hend, hstarted | ⟨started, -, hfinished⟩⟩ :=
    executeNextEventStep_error h
  · exact ⟨item, rest, hitem, hend, hstarted⟩
  · -- reducers and routers do not interrupt
    exact absurd hfinished (finishNode_neverInterrupts _ _ _ _ _ _ _)

end

section

def actionCalls (context : GraphRunContext W V) : ℕ :=
  match context.pending with
  | [] => 0
  | item :: _ =>
    if item.target = graphEnd then 0
    else if (context.step + 1 : ℤ) > executor.plan.stepLimit then 0
    else if (executor.actions item.target).isSome then 1
    else 0

variable {executor} {context : GraphRunContext W V} {item : PendingItem V}
  {rest : List (PendingItem V)}

theorem actionCalls_end (hitem : context.pending = item :: rest) (hend : item.target = graphEnd) :
    executor.actionCalls context = 0 := by
  rw [actionCalls, hitem]
  exact if_pos hend

theorem actionCalls_action (hitem : context.pending = item :: rest) (hend : item.target ≠ graphEnd)
    (hlimit : (context.step + 1 : ℤ) ≤ executor.plan.stepLimit)
    (haction : (executor.actions item.target).isSome) : executor.actionCalls context = 1 := by
  rw [actionCalls, hitem]
  dsimp only
  rw [if_neg hend, if_neg (Int.not_lt.2 hlimit), if_pos haction]

theorem actionCalls_le (context : GraphRunContext W V) : executor.actionCalls context = 0 ∨
      executor.actionCalls context = 1 ∧ (context.step + 1 : ℤ) ≤ executor.plan.stepLimit := by
  unfold actionCalls
  split
  · exact .inl rfl
  · split
    · exact .inl rfl
    · split
      · exact .inl rfl
      · split
        · exact .inr ⟨rfl, by omega⟩
        · exact .inl rfl

end

section

variable [RuntimeValue V]

/-- One move of a run: a round of the loop that completes, or a resumption with any
answer, under any trace key and in any world. -/
inductive Move : Place W V → Place W V → Prop
  | round {traceKey context context'} : context.busy = true →
    (executor.executeNextEventStep traceKey context).ended = .ok context' →
    Move ⟨traceKey, context⟩ ⟨traceKey, context'⟩
  | resume {traceKey context raised world kept resumed} (traceKey' : Option String)
    (answer : Called W (RuntimeActionResult V)) (world' : W) :
    (executor.executeNextEventStep traceKey context).ended = .error (.interrupted raised world) →
    Resumable raised kept →
    executor.resumedContext traceKey' kept answer.asResult world' = .ok resumed →
    Move ⟨traceKey, context⟩ ⟨traceKey', resumed.publish resumed.startEvent⟩

inductive Traversal (start : Place W V) : ℕ → Place W V → Prop
  | start : Traversal start 0 start
  | move {n place place'} : Traversal start n place → executor.Move place place' →
    Traversal start (n + executor.actionCalls place.context) place'

variable {executor} {context : GraphRunContext W V} {item : PendingItem V}
  {rest : List (PendingItem V)} {place : Place W V}

/-- **The step counter counts the actions**, and an interruption keeps it. -/
theorem Move.step_eq {place' : Place W V} (h : executor.Move place place') :
    place'.context.step = place.context.step + executor.actionCalls place.context := by
  cases h with
  | round hbusy hround =>
    obtain ⟨item, rest, hitem, ⟨hend, rfl⟩ | ⟨hend, started, hstarted, hfinished⟩⟩ :=
      executeNextEventStep_ok hbusy hround
    · rw [actionCalls_end hitem hend]
      rfl
    · obtain ⟨haction, -, -, hstep, hlimit⟩ := startAndRunNode_ok hstarted
      obtain ⟨-, -, -, -, -, -, hkept⟩ := finishNode_ok hfinished
      rw [actionCalls_action hitem hend hlimit haction]
      exact hkept.trans hstep
  | resume traceKey' answer world' hraised hkept hresumed =>
    obtain ⟨item, rest, hitem, hend, hstarted⟩ := executeNextEventStep_interrupted hraised
    obtain ⟨haction, -, -, -, hstep, hlimit⟩ := startAndRunNode_interrupted hstarted
    obtain ⟨-, -, -, -, -, -, hresumedStep⟩ := finishNode_ok hresumed
    rw [actionCalls_action hitem hend hlimit haction]
    refine hresumedStep.trans ?_
    rw [recordTrace_step]
    exact hkept.step.trans hstep

theorem Traversal.step_eq {start : Place W V} {n : ℕ} (h : executor.Traversal start n place) :
    place.context.step = start.context.step + n := by
  induction h with
  | start => rfl
  | move _ hmove ih => rw [hmove.step_eq, ih, Nat.add_assoc]

/-- **Every move lowers the rank**, a resumption as well. -/
theorem Move.rank_lt {place' : Place W V} (h : executor.Move place place') :
    WellFoundedRelation.rel (executor.rank place'.context) (executor.rank place.context) := by
  cases h with
  | round hbusy hround => exact (executeNextEventStep_advances hbusy hround).rank_lt
  | resume traceKey' answer world' hraised hkept hresumed =>
    have hstep := (Move.resume traceKey' answer world' hraised hkept hresumed).step_eq
    obtain ⟨item, rest, hitem, hend, hstarted⟩ := executeNextEventStep_interrupted hraised
    obtain ⟨haction, -, -, -, -, hlimit⟩ := startAndRunNode_interrupted hstarted
    rw [actionCalls_action hitem hend hlimit haction] at hstep
    exact Advances.rank_lt executor (Or.inl ⟨hstep, hlimit⟩)

variable (executor) in
/-- **No run goes on forever**, however it is resumed. -/
theorem move_wellFounded : WellFounded fun later earlier => executor.Move earlier later :=
  Subrelation.wf (fun h => Move.rank_lt h)
    (InvImage.wf (fun place : Place W V => executor.rank place.context) WellFoundedRelation.wf)

theorem Traversal.trans {start middle : Place W V} {n m : ℕ} (h : executor.Traversal start n middle)
    (h' : executor.Traversal middle m place) : executor.Traversal start (n + m) place := by
  induction h' with
  | start => exact h
  | move _ hmove ih =>
    rw [← Nat.add_assoc]
    exact ih.move hmove

/-- **Every call ends**: the loop returns from an empty queue, or halts in a round. -/
theorem pendingOutcome_ends (traceKey : Option String) (context : GraphRunContext W V) :
    ∃ n last, executor.Traversal ⟨traceKey, context⟩ n ⟨traceKey, last⟩ ∧
      (last.busy = false ∧
          executor.pendingOutcome traceKey context = .ok (last.completed traceKey).outcome ∨
        ∃ halt, (executor.executeNextEventStep traceKey last).ended = .error halt ∧
          executor.pendingOutcome traceKey context = .error halt) := by
  have hstep : ∀ s s' : GraphRunContext W V,
      (∃ n, executor.Traversal ⟨traceKey, context⟩ n ⟨traceKey, s⟩) → s.busy = true →
      (executor.executeNextEventStep traceKey s).ended = .ok s' →
      ∃ n, executor.Traversal ⟨traceKey, context⟩ n ⟨traceKey, s'⟩ :=
    fun s s' ⟨n, hn⟩ hbusy hround => ⟨_, hn.move (.round hbusy hround)⟩
  unfold pendingOutcome executePending
  cases hloop : (whileLoop busy (executor.executeNextEventStep traceKey)
      executor.rank (executor.executeNextEventStep_descends traceKey) context).ended with
  | ok last =>
    obtain ⟨⟨n, hn⟩, hidle⟩ := whileLoop_invariant _ hstep ⟨0, .start⟩ hloop
    exact ⟨n, last, hn, .inl ⟨hidle, rfl⟩⟩
  | error halt =>
    obtain ⟨last, ⟨n, hn⟩, -, hhalt⟩ := whileLoop_error _ hstep ⟨0, .start⟩ hloop
    exact ⟨n, last, hn, .inr ⟨halt, hhalt, rfl⟩⟩

theorem executeNextEventStep_beyond {traceKey : Option String}
    (hitem : context.pending = item :: rest) (hend : item.target ≠ graphEnd)
    (hlimit : executor.plan.stepLimit < context.step + 1) :
    (executor.executeNextEventStep traceKey context).ended =
      .error (.failed (.runtimeGraph "runtime graph step limit exceeded") context.world) := by
  rw [executeNextEventStep, hitem]
  dsimp only
  rw [if_neg hend, ended_bind, ended_silently, startAndRunNode, advanceStep, if_pos hlimit]
  rfl

variable (executor) in
def startPlace (traceKey : Option String) (initialState : RuntimeState V) (world : W) : Place W V :=
  let context := executor.fromInitial initialState world
  ⟨traceKey, context.publish context.startEvent⟩

/-- **The limit holds across interruptions.** In a run that is interrupted and
resumed any number of times, however its queue grows, the actions that are called
are none or at most the limit, a round beyond the limit fails for it, every call
ends, and the run cannot go on forever. -/
theorem step_limit_across_interrupts (executor : RuntimeGraphExecutor W V)
    (traceKey : Option String) (initialState : RuntimeState V) (world : W) :
    (∀ n place, executor.Traversal (executor.startPlace traceKey initialState world) n place →
      let total := n + executor.actionCalls place.context
      (total = 0 ∨ (total : ℤ) ≤ executor.plan.stepLimit) ∧
      (∀ item rest, place.context.pending = item :: rest → item.target ≠ graphEnd →
        executor.plan.stepLimit < n + 1 →
        (executor.executeNextEventStep place.traceKey place.context).ended =
          .error (.failed (.runtimeGraph "runtime graph step limit exceeded")
            place.context.world)) ∧
      ∃ m last, executor.Traversal (executor.startPlace traceKey initialState world) m
          ⟨place.traceKey, last⟩ ∧
        (last.busy = false ∧ executor.pendingOutcome place.traceKey place.context =
            .ok (last.completed place.traceKey).outcome ∨
          ∃ halt, (executor.executeNextEventStep place.traceKey last).ended = .error halt ∧
            executor.pendingOutcome place.traceKey place.context = .error halt)) ∧
    executor.invokeWithEvents traceKey initialState world =
      (executor.pendingOutcome traceKey
        (executor.startPlace traceKey initialState world).context).mapError
          (Halt.leaving "generator") ∧
    RunsAlike (executor.settled.invokeWithEvents traceKey initialState world)
      (executor.ainvokeWithEvents traceKey initialState world) ∧
    WellFounded fun later earlier => executor.Move earlier later := by
  refine ⟨fun n place h => ?_, congrArg (Except.mapError _) (executor.runContext_eq traceKey _),
    executor.ainvokeWithEvents_alike traceKey initialState world, executor.move_wellFounded⟩
  have hcount : place.context.step = n := by
    rw [h.step_eq]
    exact Nat.zero_add n
  refine ⟨?_, ?_, ?_⟩
  · -- the last action that was called was called within the limit
    rcases executor.actionCalls_le place.context with hnone | ⟨hone, hlimit⟩
    · rw [hnone, Nat.add_zero]
      clear hnone
      induction h with
      | start => exact .inl rfl
      | @move n before after hbefore hmove ih =>
        have hstep := hbefore.step_eq
        rcases executor.actionCalls_le before.context with hnone | ⟨hone, hlimit⟩
        · rw [hnone, Nat.add_zero]
          exact ih (hstep.trans (Nat.zero_add n))
        · rw [hone]
          rw [hstep] at hlimit
          refine .inr ?_
          have hzero : (executor.startPlace traceKey initialState world).context.step = 0 := rfl
          rw [hzero] at hlimit
          omega
    · rw [hone]
      rw [hcount] at hlimit
      exact .inr (by omega)
  · -- the step of the context counts the actions that were called
    intro item rest hitem hend hlimit
    exact executeNextEventStep_beyond hitem hend (by rw [hcount]; exact hlimit)
  · obtain ⟨m, last, hlast, hends⟩ := pendingOutcome_ends place.traceKey
      place.context
    exact ⟨n + m, last, h.trans hlast, hends⟩

end

end RuntimeGraphExecutor

def endingGraph (stepLimit : ℤ) : RuntimeGraphExecutor Unit (List String) where
  plan := { nodes := [], edges := [⟨graphStart, graphEnd⟩], stepLimit }
  actions := fun _ => none
  plan_valid := rfl
  actions_valid := validateActions_of_forall (fun _ h => absurd h List.not_mem_nil)

/-- **A negative limit is not kept** by a run that calls no action, and that does
not fail either. -/
theorem negative_limit_not_kept : ¬∀ (executor : RuntimeGraphExecutor Unit (List String)) (n : ℕ)
      (place : Place Unit (List String)),
      executor.Traversal (executor.startPlace none ∅ ()) n place →
      ((n + executor.actionCalls place.context : ℕ) : ℤ) ≤ executor.plan.stepLimit ∨
        (executor.executeNextEventStep place.traceKey place.context).ended =
          .error (.failed (.runtimeGraph "runtime graph step limit exceeded")
            place.context.world) := by
  intro h
  rcases h (endingGraph (-1)) 0 _ .start with hlimit | hfails
  · have hlimit : (0 : ℤ) ≤ -1 := hlimit
    omega
  · cases hfails

end PooFlow
