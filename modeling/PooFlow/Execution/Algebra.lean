import PooFlow.Execution.Meaning

/-! The laws of the flows of `core/flow.ss` whose tasks the runner executes itself. -/

namespace PooFlow.Execution

open Foundation Logged List
open Prod (fst)

variable {α : Type}

/-- What a run of the flow gives, whatever was logged before. -/
def Gives (runner : Runner α) (flow : Flow α) (input : Value α)
    (result : Except (Raised α) (Value α)) : Prop :=
  ∀ log, ((flow.run runner input).run log).1.map Prod.fst = result

/-- A pure or scheme task, with its procedure. -/
structure Task.Local (task : Task α) : Prop where
  kind : task.kind ∈ ["pure", "scheme"]
  executor : ∃ proc, task.executor = some proc

abbrev Flow.Local (flow : Flow α) : Prop := flow.Each Task.Local

/-- A runner that executes pure and scheme tasks itself, with any adapter. -/
structure Runner.Local (runner : Runner α) : Prop extends runner.Standard where
  tasks : ∀ kind ∈ ["pure", "scheme"], ∃ family,
    runner.taskRegistry.find? (·.name = kind) = some family ∧
      family.capability ∈ runner.strategy.capabilities ∧ family.route = "local"

/-- **The laws of flows.** Every flow has one result, and it is what the tasks say. -/
structure FlowAlgebra (runner : Runner α) : Prop where
  total : ∀ flow : Flow α, flow.Local → ∀ input, ∃! result, Gives runner flow input result
  thrown : ∀ flow : Flow α, flow.Local → ∀ input condition,
    Gives runner flow input (.error condition) → ∃ thrown, condition = thrownRaised thrown
  dependencies : ∀ flow : Flow α, flow.Local → ∀ input id,
    ¬Gives runner flow input (.error (.failure (.missingDependencyValue id)))
  andThen : ∀ left right : Flow α, left.Local → right.Local → ∀ name input value,
    Gives runner left input (.ok value) → ∀ result,
      Gives runner (flowThen name left right) input result ↔ Gives runner right value result
  andThen_error : ∀ left right : Flow α, left.Local → right.Local → ∀ name input condition,
    Gives runner left input (.error condition) →
      Gives runner (flowThen name left right) input (.error condition)
  assoc : ∀ first second third : Flow α, first.Local → second.Local → third.Local →
    ∀ name inner name' inner' input result,
      Gives runner (flowThen name (flowThen inner first second) third) input result ↔
        Gives runner (flowThen name' first (flowThen inner' second third)) input result
  identity_then : ∀ flow : Flow α, flow.Local → ∀ name unit contract input result,
    Gives runner (flowThen name (flowIdentity unit contract) flow) input result ↔
      Gives runner flow input result
  then_identity : ∀ flow : Flow α, flow.Local → ∀ name unit contract input result,
    Gives runner (flowThen name flow (flowIdentity unit contract)) input result ↔
      Gives runner flow input result
  branch : ∀ left right : Flow α, left.Local → right.Local → ∀ name input a b,
    Gives runner left input (.ok a) → Gives runner right input (.ok b) →
      Gives runner (flowBranch name left right) input (.ok (.list [a, b]))
  first : ∀ source : Flow α, source.Local → ∀ name contract a b c, Gives runner source a (.ok c) →
    Gives runner (flowFirst name source contract) (.list [a, b]) (.ok (.list [c, b]))
  second : ∀ source : Flow α, source.Local → ∀ name contract a b c, Gives runner source b (.ok c) →
    Gives runner (flowSecond name source contract) (.list [a, b]) (.ok (.list [a, c]))
  try_ok : ∀ source : Flow α, source.Local → ∀ name input value,
    Gives runner source input (.ok value) →
      Gives runner (tryFlow name source) input (.ok (.tryRight value))
  identity_bind : ∀ binder : Value α → Flow α, (∀ value, (binder value).Local) →
    ∀ name unit contract output input result,
      Gives runner (flowBind name (flowIdentity unit contract) binder output) input result ↔
        Gives runner (binder input) input result
  bind_identity : ∀ flow : Flow α, flow.Local → ∀ name unit contract output input result,
    Gives runner (flowBind name flow (fun _ => flowIdentity unit contract) output) input result ↔
      Gives runner flow input result
  bind_assoc : ∀ (flow : Flow α) (binder binder' : Value α → Flow α), flow.Local →
    (∀ value, (binder value).Local) → (∀ value, (binder' value).Local) →
      ∀ name inner name' (inner' : Value α → String) middle output (middle' : Value α → Contract)
        output' input result,
        Gives runner (flowBind name (flowBind inner flow binder middle) binder' output) input
            result ↔
          Gives runner (flowBind name' flow
            (fun value => flowBind (inner' value) (binder value) binder' (middle' value)) output')
              input result

theorem Runner.Local.family {runner : Runner α} (hrunner : runner.Local) {task : Task α}
    (htask : task.Local) : ∃ family, taskFamilyForKind runner task.kind = .ok family ∧
      family.capability ∈ runner.strategy.capabilities ∧ family.route = "local" := by
  obtain ⟨family, hfound, hfamily⟩ := hrunner.tasks task.kind htask.kind
  exact ⟨family, by rw [taskFamilyForKind, hfound], hfamily⟩

section

variable {runner : Runner α} (hrunner : runner.Local) {task : Task α} (htask : task.Local)

include hrunner htask

/-- A local task means what its procedure does. -/
theorem taskMeaning_local (input : Value α) :
    taskMeaning runner task input = (execute task input).map (·, none) := by
  obtain ⟨family, hfound, hcapable, hroute⟩ := hrunner.family htask
  rw [taskMeaning, hfound, ok_bind, if_pos ⟨hcapable, hroute⟩]
  cases execute task input <;> rfl

theorem means_localTask : ActionMeans runner (.task task) (taskMeaning runner task) := by
  intro plan node frontier haction input log
  obtain ⟨family, hfound, hcapable, hroute⟩ := hrunner.family htask
  rw [taskMeaning_local hrunner htask]
  simp only [runPlanNode, haction, runTask, run_bind_fst, run_lift, hfound, Except.bind, hcapable,
    hroute, and_self, if_true]
  cases execute task input with
  | error condition => rfl
  | ok value => exact congrArg (fun error => Except.ok (value, error)) failedError_localReceipt

theorem validateTask_local : validateTask runner task = .ok () := by
  obtain ⟨family, hfound, hcapable, hroute⟩ := hrunner.family htask
  rw [validateTask, hfound, ok_bind, if_neg (not_not_intro hcapable), if_neg]
  rintro ⟨hadapter, -⟩
  rw [hroute] at hadapter
  exact absurd hadapter (by decide)

end

/-- What a local flow can come to: a value without a failed receipt, or what a
procedure threw. -/
def Plain : Outcome α → Prop
  | .ok result => result.2 = none
  | .error condition => ∃ thrown, condition = thrownRaised thrown

section

variable {runner : Runner α}

theorem validateActions_local (hrunner : runner.Local) :
    ∀ steps : List (Step α), StepsEach Task.Local steps →
      validateActions runner (stepActions runner steps) = .ok ()
  | [], _ => rfl
  | step :: steps, h => by
    have hstep : validateStep runner (step.action runner) = .ok () := by
      cases step with
      | task task => exact validateTask_local hrunner h.1
      | _ => rfl
    change (validateStep runner (step.action runner)).bind (fun _ => validateActions runner _) = _
    rw [hstep]
    exact validateActions_local hrunner steps h.2

theorem meaning_eq (hrunner : runner.Local) {flow : Flow α} (hflow : flow.Local) :
    flow.meaning runner = stepsMeaning runner flow.steps := by
  cases flow with
  | mk name steps inputContract outputContract =>
    funext input
    rw [Flow.meaning, validateActions_local hrunner steps hflow]
    rfl

theorem Plain.andThen {first second : Value α → Outcome α} {input : Value α}
    (hfirst : Plain (first input)) (hsecond : ∀ value, Plain (second value)) :
    Plain (thenMeaning first second input) := by
  rw [thenMeaning]
  revert hfirst
  rcases first input with condition | ⟨value, error⟩
  · exact id
  · rintro (rfl : error = none)
    change Plain ((second value).map fun last => (last.1, none.or last.2))
    have hlast := hsecond value
    revert hlast
    rcases second value with condition | last
    · exact id
    · exact id

theorem Plain.branch {left right : Value α → Outcome α} {input : Value α}
    (hleft : Plain (left input)) (hright : Plain (right input)) :
    Plain (branchMeaning left right input) := by
  rw [branchMeaning]
  revert hleft hright
  rcases left input with condition | ⟨value, error⟩
  · exact fun h _ => h
  · rintro (rfl : error = none)
    rcases right input with condition | last
    · exact id
    · exact id

theorem Plain.tried {source : Value α → Outcome α} {input : Value α}
    (h : Plain (source input)) : Plain (tryMeaning source input) := by
  rw [tryMeaning]
  revert h
  rcases source input with (failure | message) | result
  · exact fun _ => rfl
  · exact id
  · exact id

theorem Plain.kleisli {source : Value α → Outcome α} {input : Value α}
    (hsource : Plain (source input)) (binder : Value α → Value α → Outcome α)
    (hbinder : ∀ value, Plain (binder value value)) :
    Plain (kleisliMeaning source binder input) := by
  rw [kleisliMeaning]
  revert hsource
  rcases source input with condition | ⟨value, error⟩
  · exact id
  · rintro (rfl : error = none)
    exact hbinder value

mutual

/-- **A local flow fails by what a procedure throws only.** -/
theorem plain_meaning (hrunner : runner.Local) :
    ∀ flow : Flow α, flow.Local → ∀ input, Plain (flow.meaning runner input)
  | .mk name steps inputContract outputContract, h, input => by
    rw [meaning_eq hrunner h]
    exact plain_stepsMeaning hrunner steps h input

theorem plain_stepsMeaning (hrunner : runner.Local) : ∀ steps : List (Step α),
    StepsEach Task.Local steps → ∀ input, Plain (stepsMeaning runner steps input)
  | [], _, _ => rfl
  | step :: steps, h, input =>
    (plain_stepMeaning hrunner step h.1 input).andThen (plain_stepsMeaning hrunner steps h.2)

theorem plain_stepMeaning (hrunner : runner.Local) :
    ∀ step : Step α, step.Each Task.Local → ∀ input, Plain (step.meaning runner input)
  | .task task, h, input => by
    change Plain (taskMeaning runner task input)
    obtain ⟨proc, hproc⟩ := h.executor
    rw [taskMeaning_local hrunner h, execute, hproc]
    dsimp only
    rcases proc input with thrown | value
    · exact ⟨thrown, rfl⟩
    · exact rfl
  | .flow flow, h, input => plain_meaning hrunner flow h input
  | .branch _ left right _ _, h, input =>
    (plain_meaning hrunner left h.1 input).branch (plain_meaning hrunner right h.2 input)
  | .try _ source _ _, h, input => (plain_meaning hrunner source h input).tried
  | .kleisli _ source binder _ _, h, input =>
    (plain_meaning hrunner source h.1 input).kleisli
      (fun value => (binder value).meaning runner) fun value => plain_meaning hrunner (binder value) (h.2 value) value

end

theorem thenMeaning_assoc (first second third : Value α → Outcome α) :
    thenMeaning (thenMeaning first second) third =
      thenMeaning first (thenMeaning second third) := by
  funext input
  simp only [thenMeaning]
  rcases first input with condition | ⟨value, error⟩
  · rfl
  · simp only [Except.bind]
    rcases second value with condition | ⟨middle, error'⟩
    · rfl
    · simp only [Except.map]
      rcases third middle with condition | last
      · rfl
      · simp only [Option.or_assoc]

theorem thenMeaning_ok (first : Value α → Outcome α) :
    thenMeaning first (fun input => .ok (input, none)) = first := by
  funext input
  rw [thenMeaning]
  rcases first input with condition | ⟨value, error⟩
  · rfl
  · exact congrArg (fun error => Except.ok (value, error)) (Option.or_none ..)

theorem ok_thenMeaning (second : Value α → Outcome α) :
    thenMeaning (fun input => .ok (input, none)) second = second := by
  funext input
  change (second input).map (fun last => (last.1, none.or last.2)) = second input
  rcases second input with condition | last
  · rfl
  · rfl

theorem stepsMeaning_append (steps later : List (Step α)) :
    stepsMeaning runner (steps ++ later) =
      thenMeaning (stepsMeaning runner steps) (stepsMeaning runner later) := by
  induction steps with
  | nil => exact (ok_thenMeaning _).symm
  | cons step steps ih => rw [cons_append, stepsMeaning, ih, stepsMeaning, thenMeaning_assoc]

theorem stepsEach_append {P : Task α → Prop} {steps later : List (Step α)}
    (hsteps : StepsEach P steps) (hlater : StepsEach P later) : StepsEach P (steps ++ later) := by
  induction steps with
  | nil => exact hlater
  | cons step steps ih => exact ⟨hsteps.1, ih hsteps.2⟩

section

variable {left right source : Flow α} (name : String)

theorem Flow.Local.steps (h : source.Local) : StepsEach Task.Local source.steps := by
  cases source
  exact h

theorem Flow.Local.flowThen (hleft : left.Local) (hright : right.Local) :
    (flowThen name left right).Local :=
  stepsEach_append hleft.steps hright.steps

theorem Flow.Local.flowBranch (hleft : left.Local) (hright : right.Local) :
    (flowBranch name left right).Local :=
  ⟨⟨hleft, hright⟩, trivial⟩

theorem Flow.Local.tryFlow (h : source.Local) : (tryFlow name source).Local := ⟨h, trivial⟩

theorem Flow.Local.flowBind (h : source.Local) {binder : Value α → Flow α}
    (hbinder : ∀ value, (binder value).Local) (outputContract : Contract) :
    (flowBind name source binder outputContract).Local :=
  ⟨⟨h, hbinder⟩, trivial⟩

theorem local_flowArr (proc : Procedure α) (inputContract outputContract : Contract) :
    (flowArr name proc inputContract outputContract).Local :=
  ⟨⟨by simp, proc, rfl⟩, trivial⟩

theorem local_flowIdentity (contract : Contract) : (flowIdentity name contract : Flow α).Local :=
  local_flowArr name (fun value => .ok value) contract contract

variable (hrunner : runner.Local)

include hrunner

theorem meaning_flowThen (hleft : left.Local) (hright : right.Local) :
    (flowThen name left right).meaning runner =
      thenMeaning (left.meaning runner) (right.meaning runner) := by
  rw [meaning_eq hrunner (hleft.flowThen name hright), meaning_eq hrunner hleft,
    meaning_eq hrunner hright]
  exact stepsMeaning_append left.steps right.steps

theorem meaning_flowArr (proc : Procedure α) (inputContract outputContract : Contract)
    (input : Value α) : (flowArr name proc inputContract outputContract).meaning runner input =
      ((proc input).mapError thrownRaised).map (·, none) := by
  rw [meaning_eq hrunner (local_flowArr name proc inputContract outputContract)]
  refine (stepsMeaning_singleton _ input).trans (taskMeaning_local hrunner ?_ input)
  exact ⟨by simp, proc, rfl⟩

theorem meaning_flowIdentity (contract : Contract) :
    (flowIdentity name contract).meaning runner = fun input => .ok (input, none) :=
  funext (meaning_flowArr name hrunner (fun value => .ok value) contract contract)

end

section

variable {flow : Flow α} {input value : Value α}

theorem gives_iff (hrunner : runner.Local) (hflow : flow.Local)
    {result : Except (Raised α) (Value α)} :
    Gives runner flow input result ↔ (flow.meaning runner input).map fst = result := by
  have hvalue : ∀ log, ((flow.run runner input).run log).1.map fst =
      (flow.meaning runner input).map fst := by
    intro log
    rw [← means_flow hrunner.toStandard (fun task => means_localTask hrunner) flow hflow input log]
    cases ((flow.run runner input).run log).1 <;> rfl
  exact ⟨fun h => (hvalue []).symm.trans (h []), fun h log => (hvalue log).trans h⟩

theorem gives_ok_iff (hrunner : runner.Local) (hflow : flow.Local) :
    Gives runner flow input (.ok value) ↔ flow.meaning runner input = .ok (value, none) := by
  rw [gives_iff hrunner hflow]
  have hplain := plain_meaning hrunner flow hflow input
  revert hplain
  rcases flow.meaning runner input with condition | ⟨result, error⟩
  · exact fun _ => ⟨nofun, nofun⟩
  · rintro (rfl : error = none)
    exact ⟨fun h => congrArg (fun value => Except.ok (value, none)) (Except.ok.inj h),
      fun h => congrArg (Except.map fst) h⟩

theorem gives_error_iff (hrunner : runner.Local) (hflow : flow.Local) {condition : Raised α} :
    Gives runner flow input (.error condition) ↔ flow.meaning runner input = .error condition := by
  rw [gives_iff hrunner hflow]
  rcases flow.meaning runner input with other | result
  · exact ⟨fun h => congrArg _ (Except.error.inj h), fun h => congrArg (Except.map fst) h⟩
  · exact ⟨nofun, nofun⟩

theorem exists_thrown_of_gives (hrunner : runner.Local) (hflow : flow.Local) {condition : Raised α}
    (h : Gives runner flow input (.error condition)) :
    ∃ thrown, condition = thrownRaised thrown := by
  have hplain := plain_meaning hrunner flow hflow input
  rw [(gives_error_iff hrunner hflow).1 h] at hplain
  exact hplain

theorem bind_identity_eq (hrunner : runner.Local) (unit : String) (contract : Contract) :
    kleisliMeaning (flow.meaning runner)
      (fun _ => (flowIdentity unit contract).meaning runner) input = flow.meaning runner input := by
  rw [kleisliMeaning, meaning_flowIdentity unit hrunner]
  rcases flow.meaning runner input with condition | ⟨value, _ | error⟩ <;> rfl

theorem kleisliMeaning_assoc (source : Value α → Outcome α)
    (binder binder' : Value α → Value α → Outcome α) : kleisliMeaning (kleisliMeaning source binder) binder' input =
      kleisliMeaning source (fun value => kleisliMeaning (binder value) binder') input := by
  simp only [kleisliMeaning]
  rcases source input with condition | ⟨value, _ | error⟩
  · rfl
  · rfl
  · rfl

/-- **The runner obeys the laws.** -/
theorem runner_obeys_flow_algebra (hrunner : runner.Local) : FlowAlgebra runner where
  total flow hflow input := by
    refine ⟨_, (gives_iff hrunner hflow).2 rfl, fun result h => ?_⟩
    exact ((gives_iff hrunner hflow).1 h).symm
  thrown flow hflow input condition h := exists_thrown_of_gives hrunner hflow h
  dependencies flow hflow input id h := by
    obtain ⟨thrown, hthrown⟩ := exists_thrown_of_gives hrunner hflow h
    cases thrown <;> cases hthrown
  andThen left right hleft hright name input value h result := by
    rw [gives_ok_iff hrunner hleft] at h
    rw [gives_iff hrunner (hleft.flowThen name hright), gives_iff hrunner hright,
      meaning_flowThen name hrunner hleft hright, thenMeaning, h]
    change ((right.meaning runner value).map fun last => (last.1, none.or last.2)).map Prod.fst =
      result ↔ _
    cases right.meaning runner value <;> exact Iff.rfl
  andThen_error left right hleft hright name input condition h := by
    rw [gives_error_iff hrunner hleft] at h
    rw [gives_error_iff hrunner (hleft.flowThen name hright),
      meaning_flowThen name hrunner hleft hright, thenMeaning, h]
    rfl
  assoc first second third hfirst hsecond hthird name inner name' inner' input result := by
    have hinner := hfirst.flowThen inner hsecond
    have hinner' := hsecond.flowThen inner' hthird
    rw [gives_iff hrunner (hinner.flowThen name hthird),
      gives_iff hrunner (hfirst.flowThen name' hinner'),
      meaning_flowThen name hrunner hinner hthird, meaning_flowThen inner hrunner hfirst hsecond,
      meaning_flowThen name' hrunner hfirst hinner', meaning_flowThen inner' hrunner hsecond hthird,
      thenMeaning_assoc]
  identity_then flow hflow name unit contract input result := by
    have hunit := local_flowIdentity (α := α) unit contract
    rw [gives_iff hrunner (hunit.flowThen name hflow), gives_iff hrunner hflow,
      meaning_flowThen name hrunner hunit hflow, meaning_flowIdentity unit hrunner, ok_thenMeaning]
  then_identity flow hflow name unit contract input result := by
    have hunit := local_flowIdentity (α := α) unit contract
    rw [gives_iff hrunner (hflow.flowThen name hunit), gives_iff hrunner hflow,
      meaning_flowThen name hrunner hflow hunit, meaning_flowIdentity unit hrunner, thenMeaning_ok]
  branch left right hleft hright name input a b ha hb := by
    rw [gives_ok_iff hrunner hleft] at ha
    rw [gives_ok_iff hrunner hright] at hb
    rw [gives_ok_iff hrunner (hleft.flowBranch name hright), meaning_flowBranch, branchMeaning, ha,
      hb]
    rfl
  first source hsource name contract a b c h := by
    rw [gives_ok_iff hrunner hsource] at h
    have hinput := local_flowArr (flowDerivedName name "first-input") (car : Procedure α)
      (.pair source.inputContract contract) source.inputContract
    have hright := local_flowArr (flowDerivedName name "first-right") (cadr : Procedure α)
      (.pair source.inputContract contract) contract
    have hleft := hinput.flowThen (flowDerivedName name "first-left") hsource
    rw [flowFirst, flowFanout, gives_ok_iff hrunner (hleft.flowBranch name hright),
      meaning_flowBranch, branchMeaning, meaning_flowThen _ hrunner hinput hsource, thenMeaning,
      meaning_flowArr _ hrunner, meaning_flowArr _ hrunner]
    simp only [car, cadr, Except.mapError, Except.map, Except.bind, h, Option.or_none]
  second source hsource name contract a b c h := by
    rw [gives_ok_iff hrunner hsource] at h
    have hleft := local_flowArr (flowDerivedName name "second-left") (car : Procedure α)
      (.pair contract source.inputContract) contract
    have hinput := local_flowArr (flowDerivedName name "second-input") (cadr : Procedure α)
      (.pair contract source.inputContract) source.inputContract
    have hright := hinput.flowThen (flowDerivedName name "second-right") hsource
    rw [flowSecond, flowFanout, gives_ok_iff hrunner (hleft.flowBranch name hright),
      meaning_flowBranch, branchMeaning, meaning_flowThen _ hrunner hinput hsource, thenMeaning,
      meaning_flowArr _ hrunner, meaning_flowArr _ hrunner]
    simp only [car, cadr, Except.mapError, Except.map, Except.bind, h, Option.or_none]
  try_ok source hsource name input value h := by
    rw [gives_ok_iff hrunner hsource] at h
    rw [gives_ok_iff hrunner (hsource.tryFlow name), meaning_tryFlow, tryMeaning, h]
    rfl
  identity_bind binder hbinder name unit contract output input result := by
    have hunit := local_flowIdentity (α := α) unit contract
    rw [gives_iff hrunner (hunit.flowBind name hbinder output), gives_iff hrunner (hbinder input),
      meaning_flowBind, kleisliMeaning, meaning_flowIdentity unit hrunner]
    exact Iff.rfl
  bind_identity flow hflow name unit contract output input result := by
    rw [gives_iff hrunner (hflow.flowBind name (fun _ => local_flowIdentity unit contract) output),
      gives_iff hrunner hflow, meaning_flowBind, bind_identity_eq hrunner]
  bind_assoc flow binder binder' hflow hbinder hbinder' name inner name' inner' middle output middle'
      output' input result := by
    have hinner := hflow.flowBind inner hbinder middle
    have hinner' : ∀ value,
        (flowBind (inner' value) (binder value) binder' (middle' value)).Local :=
      fun value => (hbinder value).flowBind (inner' value) hbinder' (middle' value)
    rw [gives_iff hrunner (hinner.flowBind name hbinder' output),
      gives_iff hrunner (hflow.flowBind name' hinner' output'), meaning_flowBind, meaning_flowBind,
      show (flowBind inner flow binder middle).meaning runner = _ from
        funext fun _ => meaning_flowBind inner binder middle, kleisliMeaning_assoc]
    simp only [kleisliMeaning, meaning_flowBind]

end

end

/-- The runner that `make-runner` builds without registries, with an adapter that
supports nothing. -/
def defaultRunner : Runner α where
  strategy := localEager
  adapter :=
    { name := "none"
      capabilities := []
      submitter _ _ := .error (.exception "no adapter")
      storePutter _ _ := .error (.exception "no adapter")
      storeGetter _ _ := .error (.exception "no adapter") }
  taskRegistryName := "default"
  taskRegistry := defaultTaskFamilies
  flowRegistryName := "default"
  flowRegistry := defaultFlowDeclarations

theorem defaultRunner_local : (defaultRunner : Runner α).Local where
  strategy := .inl rfl
  flows kind hkind := by
    simp only [mem_cons, not_mem_nil, or_false] at hkind
    rcases hkind with rfl | rfl | rfl | rfl <;> exact ⟨_, rfl, rfl⟩
  tasks kind hkind := by
    simp only [mem_cons, not_mem_nil, or_false] at hkind
    rcases hkind with rfl | rfl <;> exact ⟨_, rfl, by simp [defaultRunner, localEager], rfl⟩

theorem defaultRunner_obeys_flow_algebra : FlowAlgebra (defaultRunner : Runner String) :=
  runner_obeys_flow_algebra defaultRunner_local

end PooFlow.Execution
