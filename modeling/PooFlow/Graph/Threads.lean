import PooFlow.Foundation.Run
import PooFlow.Graph.Program

namespace PooFlow

open Foundation Generated List RuntimeGraphExecutor

variable {W V : Type}

namespace RuntimeGraphProgram

variable [RuntimeValue V] {program : RuntimeGraphProgram W V} {traceKey : Option String}
  {threadId freshId : String} {checkpointer : MemoryRuntimeGraphCheckpointer V}
  {initialState : RuntimeState V} {world world' : W} {interrupted : RuntimeGraphInterrupted V}

/-- Nothing tells the state that a resumption would put back from the interrupted one. -/
def KeepsPlace (program : RuntimeGraphProgram W V) (traceKey : Option String)
    (initialState : RuntimeState V) (world : W) : Prop :=
  ∀ executor interrupted world', program.executor = .ok executor →
    executor.invokeWithEvents traceKey (program.internalState initialState) world =
      .error (.interrupted interrupted world') →
    executor.Indistinct (program.internalState (publicState interrupted.state)) interrupted.state

theorem invokeWithTrace_interrupted (h : program.invokeWithTrace traceKey initialState world =
      .error (.interrupted interrupted world')) :
    ∃ receipt executor inside, program.describe = .ok receipt ∧ program.executor = .ok executor ∧
      executor.invokeWithEvents traceKey (program.internalState initialState) world =
        .error (.interrupted inside world') ∧
      interrupted = program.publicInterrupted receipt inside := by
  unfold invokeWithTrace at h
  split at h
  · cases h
  · cases h
  · rename_i receipt executor hreceipt hexecutor
    rcases hinvoke : executor.invokeWithEvents traceKey (program.internalState initialState) world
      with (⟨error, world''⟩ | ⟨inside, world''⟩) | outcome
    · rw [hinvoke] at h
      cases h
    · rw [hinvoke] at h
      cases h
      exact ⟨receipt, executor, inside, hreceipt, hexecutor, hinvoke, rfl⟩
    · rw [hinvoke] at h
      cases h

variable (program traceKey threadId freshId checkpointer initialState world) in
theorem invokeThread_fst :
    (program.invokeThread traceKey threadId freshId checkpointer initialState world).1 =
      program.invokeWithTrace traceKey initialState world := by
  unfold invokeThread
  rcases program.invokeWithTrace traceKey initialState world
    with (⟨error, world''⟩ | ⟨inside, world''⟩) | execution <;> rfl

/-- **An interrupted thread holds its interruption.** -/
theorem invokeThread_interrupted (h : program.invokeWithTrace traceKey initialState world =
      .error (.interrupted interrupted world')) :
    (program.invokeThread traceKey threadId freshId checkpointer initialState world).2 =
      checkpointer.saveInterrupted freshId threadId interrupted := by
  rw [invokeThread, h]

theorem resumeThread_of_loaded (program : RuntimeGraphProgram W V) (traceKey : Option String)
    (answer : Called W (RuntimeActionResult V)) (clear : Bool) (world : W)
    (h : checkpointer.loadInterrupted threadId = .ok interrupted) :
    (program.resumeThread traceKey threadId checkpointer answer clear world).1 =
        program.resumeInterrupted traceKey interrupted answer world ∧
      (program.resumeThread traceKey threadId checkpointer answer clear world).2 =
        match program.resumeInterrupted traceKey interrupted answer world with
        | .error _ => checkpointer
        | .ok _ => if clear then checkpointer.clear threadId else checkpointer := by
  rw [resumeThread, h]
  dsimp only
  cases program.resumeInterrupted traceKey interrupted answer world <;> exact ⟨rfl, rfl⟩

theorem invokeWithTrace_unanswered (program : RuntimeGraphProgram W V) (traceKey : Option String)
    (initialState : RuntimeState V) (world : W) :
    ProgramsAgree [] (program.invokeWithTrace traceKey initialState world)
      (program.answering.invokeWithTrace traceKey initialState (world, [])) := by
  rcases hreceipt : program.describe with error | receipt
  · rw [invokeWithTrace, invokeWithTrace, hreceipt,
      show program.answering.describe = _ from hreceipt]
    exact .error (.failed error world)
  · rcases hexecutor : program.executor with error | executor
    · rw [invokeWithTrace, invokeWithTrace, hreceipt, hexecutor,
        show program.answering.describe = _ from hreceipt,
        show program.answering.executor = _ from congrArg (Except.map _) hexecutor]
      exact .error (.failed error world)
    · rw [answering_invokeWithTrace hreceipt hexecutor,
        program.invokeWithTrace_of_ok traceKey initialState world hreceipt hexecutor]
      have hagree := executor.invokeWithEvents_unanswered traceKey
        (program.internalState initialState) world
      generalize executor.invokeWithEvents traceKey _ world = x at hagree ⊢
      generalize executor.answering.invokeWithEvents traceKey _ (world, []) = y at hagree ⊢
      cases hagree with
      | ok houtcome =>
        exact .ok ⟨congrArg publicState houtcome.state.symm, houtcome.trace, rfl, houtcome.world⟩
      | error hhalt =>
        cases hhalt with
        | failed error world => exact .error (.failed error world)
        | interrupted hsame world =>
          refine .error (.interrupted ⟨⟨hsame.interrupt, hsame.node, hsame.step, ?_, hsame.trace,
            hsame.pending⟩, rfl, rfl⟩ world)
          exact congrArg publicState hsame.state

theorem resumeInterrupted_later {saved again : RuntimeGraphInterrupted V}
    {answer : Called W (RuntimeActionResult V)}
    (h : program.resumeInterrupted traceKey saved answer world =
      .error (.interrupted again world')) : saved.step < again.step := by
  unfold resumeInterrupted at h
  split at h
  · cases h
  · dsimp only at h
    split at h
    · cases h
    · split at h
      · cases h
      · have hlater := RuntimeGraphExecutor.resumeInterrupted_later (map_eq_error.1 h)
        exact hlater

section

/-- How the last call for a thread ended, and the checkpointer after it. -/
abbrev ThreadState (W V : Type) :=
  Except (Halt W V) (RuntimeGraphExecution W V) × MemoryRuntimeGraphCheckpointer V

def worldAfter : Except (Halt W V) (RuntimeGraphExecution W V) → W
  | .ok execution => execution.world
  | .error (.failed _ world) | .error (.interrupted _ world) => world

variable (program traceKey threadId)

/-- One `resume_thread`, with an answer and whether to clear. -/
def answerThread (s : ThreadState W V) (call : RuntimeActionResult V × Bool) : ThreadState W V :=
  program.resumeThread traceKey threadId s.2 (.value call.1) call.2 (worldAfter s.1)

/-- The answer leads to no further question, and answers a question by something else. -/
structure Settles (s : ThreadState W V) (call : RuntimeActionResult V × Bool) : Prop where
  asksNoMore : ∀ saved, s.2.loadInterrupted threadId = .ok saved →
    RuntimeGraphExecutor.NeverInterrupts
      (program.resumeInterrupted traceKey saved (.value call.1) (worldAfter s.1))
  answers : ¬RuntimeGraphExecutor.NeverInterrupts s.1 → ¬call.1.Interrupts

/-- An interruption that was raised is what the thread holds. -/
def HoldsRaised (s : ThreadState W V) : Prop :=
  ∀ interrupted world, s.1 = .error (.interrupted interrupted world) →
    s.2.loadInterrupted threadId = .ok interrupted

variable {program traceKey threadId} {s : ThreadState W V} {call : RuntimeActionResult V × Bool}

theorem answerThread_neverInterrupts : RuntimeGraphExecutor.NeverInterrupts
      (program.answerThread traceKey threadId s call).1 ↔
    ∀ saved, s.2.loadInterrupted threadId = .ok saved → RuntimeGraphExecutor.NeverInterrupts
      (program.resumeInterrupted traceKey saved (.value call.1) (worldAfter s.1)) := by
  rw [answerThread]
  cases hload : s.2.loadInterrupted threadId with
  | error error =>
    rw [resumeThread, hload]
    exact iff_of_true nofun nofun
  | ok saved =>
    rw [(program.resumeThread_of_loaded traceKey _ _ _ hload).1]
    exact ⟨fun h _ hsaved => by cases hsaved; exact h, fun h => h saved rfl⟩

theorem answerThread_checkpointer : (program.answerThread traceKey threadId s call).2 =
      if (program.answerThread traceKey threadId s call).1.toOption.isSome ∧ call.2
        then s.2.clear threadId else s.2 := by
  rw [answerThread]
  cases hload : s.2.loadInterrupted threadId with
  | error error =>
    rw [resumeThread, hload]
    rfl
  | ok saved =>
    rw [(program.resumeThread_of_loaded traceKey _ _ _ hload).1,
      (program.resumeThread_of_loaded traceKey _ _ _ hload).2]
    cases program.resumeInterrupted traceKey saved (.value call.1) (worldAfter s.1) with
    | error halt => rfl
    | ok execution => simp [Except.toOption]

/-- **What a thread holds**: in every state of a run of answers the thread holds
the interruption that was raised last, exactly when no answer raises one. -/
theorem holdsRaised_iff (hs : HoldsRaised threadId s) (calls : List (RuntimeActionResult V × Bool)) :
    (∀ front back, calls = front ++ back →
      HoldsRaised threadId (run (program.answerThread traceKey threadId) s front)) ↔
    Along (program.answerThread traceKey threadId) (fun s call =>
      RuntimeGraphExecutor.NeverInterrupts (program.answerThread traceKey threadId s call).1)
      s calls := by
  refine throughout_iff (fun _ => id) ?_ ?_ hs calls
  · intro s call _ hnever interrupted world hraised
    exact absurd hraised (hnever interrupted world)
  · intro s call hs hraises hholds
    rw [answerThread_neverInterrupts] at hraises
    push Not at hraises
    obtain ⟨saved, hload, hraises⟩ := hraises
    obtain ⟨again, world, hagain⟩ := not_neverInterrupts.1 hraises
    -- the record that is kept is the one that was answered, of an earlier step
    obtain ⟨hfirst, hsecond⟩ := program.resumeThread_of_loaded traceKey (.value call.1) call.2
      (worldAfter s.1) hload
    rw [hagain] at hsecond
    have hheld := hholds again world (hfirst.trans hagain)
    rw [answerThread, hsecond, hload] at hheld
    cases hheld
    exact absurd (resumeInterrupted_later hagain) (Nat.lt_irrefl _)

/-- The answer to the question of a run ends as the run answered so at once. -/
theorem answerThread_agrees (h : program.invokeWithTrace traceKey initialState world =
      .error (.interrupted interrupted (worldAfter s.1)))
    (hload : s.2.loadInterrupted threadId = .ok interrupted)
    (hplace : program.KeepsPlace traceKey initialState world) (hanswer : ¬call.1.Interrupts)
    (hnever : RuntimeGraphExecutor.NeverInterrupts
      (program.answerThread traceKey threadId s call).1) :
    ProgramsAgree [] (program.answerThread traceKey threadId s call).1
      (program.answering.invokeWithTrace traceKey initialState (world, [call.1])) := by
  obtain ⟨receipt, executor, inside, hreceipt, hexecutor, hinside, rfl⟩ :=
    invokeWithTrace_interrupted h
  have hagree := resumeInterrupted_tracks hinside (hplace _ _ _ hexecutor hinside) hanswer
  rw [answerThread, (program.resumeThread_of_loaded traceKey _ _ _ hload).1,
    resumeInterrupted_publicInterrupted hreceipt hexecutor] at hnever ⊢
  rw [answering_invokeWithTrace hreceipt hexecutor, programsAgree_iff hagree]
  generalize executor.resumeInterrupted traceKey _ _ _ = x at hagree hnever
  generalize executor.answering.invokeWithEvents traceKey _ _ = y at hagree ⊢
  cases hagree with
  | ok houtcome => exact nofun
  | error hhalt =>
    cases hhalt with
    | failed error world => exact nofun
    | interrupted hsame world => exact absurd rfl (hnever _ world)

/-- **Questions and answers of a thread.** An answer leaves the thread as it is,
or clears it. In a run of answers the thread holds every interruption that is
raised, and a call that ends the questions ends as the run in which each
interrupted node had answered so at once, exactly when no answer leads to a
further question and none is a question itself. -/
theorem thread_answers_iff (program : RuntimeGraphProgram W V) (traceKey : Option String)
    (threadId freshId : String) (checkpointer : MemoryRuntimeGraphCheckpointer V)
    (initialState : RuntimeState V) (world : W) (calls : List (RuntimeActionResult V × Bool))
    (hplace : program.KeepsPlace traceKey initialState world) :
    let invoked := program.invokeThread traceKey threadId freshId checkpointer initialState world
    let thread := run (program.answerThread traceKey threadId) invoked
    (∀ front call back, calls = front ++ call :: back →
      (thread (front ++ [call])).2 =
        if (thread (front ++ [call])).1.toOption.isSome ∧ call.2
          then (thread front).2.clear threadId else (thread front).2) ∧
    (((∀ front back, calls = front ++ back → HoldsRaised threadId (thread front)) ∧
      ∀ front back, calls = front ++ back →
        (∀ asked call rest, front = asked ++ call :: rest →
          ¬RuntimeGraphExecutor.NeverInterrupts (thread asked).1) →
        RuntimeGraphExecutor.NeverInterrupts (thread front).1 →
        ProgramsAgree [] (thread front).1 (program.answering.invokeWithTrace traceKey initialState
          (world, front.map Prod.fst))) ↔
    Along (program.answerThread traceKey threadId) (program.Settles traceKey threadId) invoked
      calls) := by
  intro invoked thread
  refine ⟨fun front call back _ => ?_, ?_⟩
  · have hstep : thread (front ++ [call]) = program.answerThread traceKey threadId (thread front)
        call := run_concat _ front call
    simp only [hstep]
    exact answerThread_checkpointer
  have hinvoked : invoked.1 = program.invokeWithTrace traceKey initialState world :=
    program.invokeThread_fst traceKey threadId freshId checkpointer initialState world
  have hholds : HoldsRaised threadId invoked := by
    intro interrupted world' hraised
    rw [show invoked.2 = _ from invokeThread_interrupted (hinvoked.symm.trans hraised)]
    exact checkpointer.loadInterrupted_saveInterrupted freshId threadId interrupted
  rw [holdsRaised_iff hholds]
  constructor
  · rintro ⟨hnever, hends⟩
    refine along_of_at fun front call back hcalls => ?_
    subst hcalls
    refine ⟨answerThread_neverInterrupts.1 hnever.at, fun hraised hanswer => ?_⟩
    rcases eq_nil_or_concat front with rfl | ⟨front, last, rfl⟩
    · -- the first answer is a question: at once it would have been raised
      have hcall := hends [call] back rfl (fun asked other rest hsplit => by
        obtain ⟨rfl, -⟩ := append_eq_singleton_iff.1 hsplit.symm |>.resolve_right (by simp)
        exact hraised) hnever.1
      obtain ⟨interrupted, world', hraised⟩ := RuntimeGraphExecutor.not_neverInterrupts.1 hraised
      obtain ⟨receipt, executor, inside, hreceipt, hexecutor, hinside, -⟩ :=
        invokeWithTrace_interrupted (hinvoked.symm.trans hraised)
      obtain ⟨again, world'', hagain, -⟩ := answering_interrupts hreceipt hexecutor hinside hanswer
      rw [show [call].map Prod.fst = [call.1] from rfl, hagain] at hcall
      obtain ⟨_, _, hcall, -⟩ := hcall.raised
      exact hnever.1 _ _ hcall
    · rw [concat_eq_append, append_assoc] at hnever
      exact hraised (by rw [concat_eq_append, run_concat]; exact hnever.at)
  · intro hsettles
    refine ⟨along_of_at fun front call back hcalls =>
      answerThread_neverInterrupts.2 (hcalls ▸ hsettles).at.asksNoMore, ?_⟩
    intro front back hcalls hasked hnever
    subst hcalls
    match front with
    | [] =>
      show ProgramsAgree [] invoked.1 _
      rw [hinvoked]
      exact program.invokeWithTrace_unanswered traceKey initialState world
    | [call] =>
      have hraised := hasked [] call [] rfl
      have hanswer := hsettles.1.answers hraised
      obtain ⟨interrupted, world', hraised⟩ := RuntimeGraphExecutor.not_neverInterrupts.1 hraised
      have hload := hholds interrupted world' hraised
      refine answerThread_agrees ?_ hload hplace hanswer hnever
      rw [← hinvoked, show invoked.1 = _ from hraised]
      rfl
    | first :: next :: rest =>
      exact absurd (answerThread_neverInterrupts.2 hsettles.1.asksNoMore)
        (hasked [first] next rest rfl)

end

end RuntimeGraphProgram

def surveyGraph : RuntimeGraphExecutor Unit (List String) where
  plan :=
    { nodes := ["first", "second"],
      edges := [⟨graphStart, "first"⟩, ⟨"first", "second"⟩, ⟨"second", graphEnd⟩] }
  actions := fun node =>
    if node ∈ ["first", "second"] then some fun _ => pure (.value (.interrupt reviewQuestion))
    else none
  plan_valid := rfl
  actions_valid := validateActions_of_forall (by decide)

def surveyFirst : RuntimeGraphInterrupted (List String) where
  interrupt := reviewQuestion
  node := "first"
  step := 1
  state := (∅ : RuntimeState (List String)).insert planStateKey ["plan"]
  trace := ["first"]
  pending := []
  events := [⟨.start, none, 0, .started [.node "first"]⟩,
    ⟨.nodeStart, some "first", 1, .nodeStarted [] ["first"]⟩,
    ⟨.interrupt, some "first", 1, .interrupted ["approve?"] true ["first"]⟩]

def surveySecond : RuntimeGraphInterrupted (List String) where
  interrupt := reviewQuestion
  node := "second"
  step := 2
  state := (∅ : RuntimeState (List String)).insert planStateKey ["plan"]
  trace := ["first", "second"]
  pending := []
  events := surveyFirst.events ++
    [⟨.resume, some "first", 1, .finished false [] [] []⟩,
      ⟨.start, none, 0, .started [.node "second"]⟩,
      ⟨.nodeStart, some "second", 2, .nodeStarted [] ["first", "second"]⟩,
      ⟨.interrupt, some "second", 2, .interrupted ["approve?"] true ["first", "second"]⟩]

theorem survey_first :
    surveyGraph.invokeWithEvents none ((programOf surveyGraph).internalState ∅) () =
      .error (.interrupted surveyFirst ()) :=
  invokeWithEvents_of_unrolled (n := 1)
    (x := .error (.interrupted surveyFirst ())) _ none rfl

theorem survey_second :
    surveyGraph.resumeInterrupted none surveyFirst (.value (.update .absent)) () =
      .error (.interrupted surveySecond ()) :=
  resumeInterrupted_of_unrolled (n := 1)
    (x := .error (.interrupted surveySecond ())) _ none rfl rfl

def surveyProgram : RuntimeGraphProgram Unit (List String) := programOf surveyGraph

theorem survey_invoked : surveyProgram.invokeWithTrace none ∅ () =
    .error (.interrupted (surveyProgram.publicInterrupted [] surveyFirst) ()) := by
  rw [RuntimeGraphProgram.invokeWithTrace_of_ok surveyProgram none ∅ () rfl rfl]
  exact congrArg (surveyProgram.handBack []) survey_first

theorem survey_resumed :
    surveyProgram.resumeInterrupted none (surveyProgram.publicInterrupted [] surveyFirst)
      (.value (.update .absent)) () = .error (.interrupted surveySecond ()) := by
  rw [RuntimeGraphProgram.resumeInterrupted_publicInterrupted rfl rfl,
    surveyProgram.internalState_publicState (l := []) rfl]
  exact congrArg (Except.map _) survey_second

/-- Every answer raises the second question, and leaves the first in the thread. -/
theorem survey_answered {s : RuntimeGraphProgram.ThreadState Unit (List String)}
    (h : s.2.loadInterrupted "t" = .ok (surveyProgram.publicInterrupted [] surveyFirst)) :
    surveyProgram.answerThread none "t" s (.update .absent, true) =
      (.error (.interrupted surveySecond ()), s.2) := by
  obtain ⟨hraised, hkept⟩ := surveyProgram.resumeThread_of_loaded none
    (.value (.update .absent)) true (RuntimeGraphProgram.worldAfter s.1) h
  rw [survey_resumed] at hraised hkept
  exact Prod.ext hraised hkept

/-- The thread after `k` answers. -/
def surveyAfter (k : ℕ) : RuntimeGraphProgram.ThreadState Unit (List String) :=
  run (surveyProgram.answerThread none "t") (surveyProgram.invokeThread none "t" "1" {} ∅ ())
    (List.replicate k (.update .absent, true))

/-- However often its second question is answered, the thread holds the first. -/
theorem surveyAfter_succ (k : ℕ) : ∃ interrupted saved,
    (surveyAfter (k + 1)).1 = .error (.interrupted interrupted ()) ∧
    (surveyAfter (k + 1)).2.loadInterrupted "t" = .ok saved ∧
    interrupted.node = "second" ∧ saved.node = "first" := by
  have hfirst : (surveyProgram.invokeThread none "t" "1" {} ∅ ()).2.loadInterrupted "t" =
      .ok (surveyProgram.publicInterrupted [] surveyFirst) := by
    rw [RuntimeGraphProgram.invokeThread_interrupted survey_invoked]
    exact MemoryRuntimeGraphCheckpointer.loadInterrupted_saveInterrupted {} "1" "t" _
  unfold surveyAfter
  generalize surveyProgram.invokeThread none "t" "1" {} ∅ () = s at hfirst ⊢
  induction k generalizing s with
  | zero =>
    rw [replicate_one, run_cons, run_nil, survey_answered hfirst]
    exact ⟨_, _, rfl, hfirst, rfl, rfl⟩
  | succ k ih =>
    rw [replicate_succ, run_cons, survey_answered hfirst]
    exact ih _ hfirst

theorem survey_stuck : ∃ interrupted saved,
    (surveyAfter 2).1 = .error (.interrupted interrupted ()) ∧
    (surveyAfter 2).2.loadInterrupted "t" = .ok saved ∧
    interrupted.node = "second" ∧ saved.node = "first" :=
  surveyAfter_succ 1

def reviewResumed : GraphRunContext Unit (List String) where
  state := reviewProgram.internalState ∅
  pending := [.node graphEnd]
  trace := ["review"]
  events := reviewInside.events ++ [⟨.resume, some "review", 1, .finished false [] [] []⟩]
  step := 1
  world := ()

theorem reviewResumed_ends :
    (unrolled GraphRunContext.busy (askingReview.executeNextEventStep none) 2
      (reviewResumed.publish reviewResumed.startEvent)).isSome = true := by
  decide +kernel

theorem review_completes :
    (reviewProgram.resumeInterrupted none (reviewProgram.publicInterrupted [] reviewInside)
      (.value (.update .absent)) ()).toOption.isSome := by
  have hresumed : askingReview.resumedContext none reviewInside (.update .absent) () =
      .ok reviewResumed := rfl
  rw [RuntimeGraphProgram.resumeInterrupted_publicInterrupted rfl rfl,
    reviewProgram.internalState_publicState (l := []) rfl]
  refine (congrArg (fun run => (Except.map _ run).toOption.isSome = true)
    (resumeInterrupted_of_unrolled _ none hresumed
      (Option.some_get reviewResumed_ends).symm)).mpr ?_
  decide +kernel

theorem review_invoked : reviewProgram.invokeWithTrace none ∅ () =
    .error (.interrupted (reviewProgram.publicInterrupted [] reviewInside) ()) := by
  rw [RuntimeGraphProgram.invokeWithTrace_of_ok reviewProgram none ∅ () rfl rfl]
  exact congrArg (reviewProgram.handBack []) review_interrupted_inside

theorem review_keepsPlace : reviewProgram.KeepsPlace none ∅ () := by
  rintro executor interrupted world' ⟨⟩ hinvoked
  obtain ⟨⟩ : Except.error (Halt.interrupted reviewInside ()) = _ :=
    review_interrupted_inside.symm.trans hinvoked
  rw [reviewProgram.internalState_publicState (l := []) rfl]
  exact indistinct_self _ _

/-- The thread of a review holds its question until it is answered, and the
answer ends the review as if nothing had been asked. -/
theorem review_thread_answered :
    (∀ front back, [(RuntimeActionResult.update .absent, true)] = front ++ back →
      RuntimeGraphProgram.HoldsRaised "t" (run (reviewProgram.answerThread none "t")
        (reviewProgram.invokeThread none "t" "1" {} ∅ ()) front)) ∧
    RuntimeGraphProgram.ProgramsAgree []
      (run (reviewProgram.answerThread none "t") (reviewProgram.invokeThread none "t" "1" {} ∅ ())
        [(.update .absent, true)]).1
      (reviewProgram.answering.invokeWithTrace none ∅ ((), [.update .absent])) := by
  have hload : (reviewProgram.invokeThread none "t" "1" {} ∅ ()).2.loadInterrupted "t" =
      .ok (reviewProgram.publicInterrupted [] reviewInside) := by
    rw [RuntimeGraphProgram.invokeThread_interrupted review_invoked]
    exact MemoryRuntimeGraphCheckpointer.loadInterrupted_saveInterrupted {} "1" "t" _
  have hsettles : reviewProgram.Settles none "t"
      (reviewProgram.invokeThread none "t" "1" {} ∅ ()) (.update .absent, true) := by
    refine ⟨fun saved hsaved => ?_, fun _ => by decide⟩
    cases hload.symm.trans hsaved
    exact RuntimeGraphExecutor.neverInterrupts_of_isSome review_completes
  obtain ⟨hholds, hends⟩ := (RuntimeGraphProgram.thread_answers_iff reviewProgram none "t" "1" {}
    ∅ () [(.update .absent, true)] review_keepsPlace).2.2 ⟨hsettles, trivial⟩
  refine ⟨hholds, hends _ [] rfl ?_ ?_⟩
  · intro asked call rest hsplit
    obtain rfl : asked = [] := by
      rcases asked with _ | ⟨_, _ | _⟩ <;> simp at hsplit ⊢
    rw [run_nil, RuntimeGraphProgram.invokeThread_fst, review_invoked]
    exact fun hnever => hnever _ _ rfl
  · exact RuntimeGraphProgram.answerThread_neverInterrupts.2 hsettles.asksNoMore

end PooFlow
