import PooFlow.Execution.Meaning

namespace PooFlow.Execution

open Foundation Logged

variable {α : Type}

section

variable (runner : Runner α)

def TryValue (name : String) (source : Flow α) (input value : Value α) : Prop :=
  ∃ log receipt, (((tryFlow name source).run runner input).run log).1 = .ok (value, receipt)

/-- **Recovery**: with the value of the try flow, `flow-then` goes on like the flow
after it, and `flow-bind` like the flow of its binder. -/
structure Recovered (source : Flow α) (input : Value α) : Prop where
  andThen : ∀ name value, TryValue runner name source input value →
    ∀ thenName (next : Flow α) log log',
      ((runnerRunEither runner (flowThen thenName (tryFlow name source) next) input).run log).1 =
        ((runnerRunEither runner next value).run log').1
  bind : ∀ name value, TryValue runner name source input value →
    ∀ bindName (binder : Value α → Flow α) outputContract log log',
      (((flowBind bindName (tryFlow name source) binder outputContract).run runner input).run
          log).1.map Prod.fst =
        (((binder value).run runner value).run log').1.map Prod.fst

def WithoutFailedReceipt (source : Flow α) (input : Value α) : Prop :=
  ∀ log value receipt, ((source.run runner input).run log).1 = .ok (value, receipt) →
    firstFailedReceipt receipt = none

end

section

variable {runner : Runner α} {source : Flow α} {input value : Value α}

/-- `runner-run-either` of an outcome. -/
def eitherOutcome : Outcome α → Except (Raised α) (Value α)
  | .ok result => .ok (leftOrRight result)
  | .error (.failure failure) => .ok (.tryLeft (some failure))
  | .error (.exception message) => .error (.exception message)

theorem runnerRunEither_eq (hrunner : runner.Standard) (hadapter : runner.adapter.PerRequest)
    (flow : Flow α) (input : Value α) (log : List (Event α)) :
    ((runnerRunEither runner flow input).run log).1 = eitherOutcome (flow.meaning runner input) := by
  rw [runnerRunEither, run_catching_fst, run_bind_fst, ← means_flow_of_perRequest hrunner hadapter flow input log]
  rcases ((flow.run runner input).run log).1 with (failure | message) | result
  · rfl
  · rfl
  · exact congrArg Except.ok (tryValue_eq result)

theorem map_fst_run (hrunner : runner.Standard) (hadapter : runner.adapter.PerRequest)
    (flow : Flow α) (input : Value α) (log : List (Event α)) :
    ((flow.run runner input).run log).1.map Prod.fst =
      (flow.meaning runner input).map Prod.fst := by
  rw [← means_flow_of_perRequest hrunner hadapter flow input log]
  cases ((flow.run runner input).run log).1 <;> rfl

variable {name : String} {error : Option (Option (Failure α))}

theorem TryValue.meaning (hrunner : runner.Standard) (hadapter : runner.adapter.PerRequest)
    (h : TryValue runner name source input value) :
    ∃ error, tryMeaning (source.meaning runner) input = .ok (value, error) := by
  obtain ⟨log, receipt, hrun⟩ := h
  have hmeaning := means_flow_of_perRequest hrunner hadapter (tryFlow name source) input log
  rw [hrun, meaning_tryFlow] at hmeaning
  exact ⟨_, hmeaning.symm⟩

theorem tryValue_of_meaning (hrunner : runner.Standard) (hadapter : runner.adapter.PerRequest)
    (name : String) (h : tryMeaning (source.meaning runner) input = .ok (value, error)) :
    TryValue runner name source input value := by
  have hmeaning := means_flow_of_perRequest hrunner hadapter (tryFlow name source) input []
  rw [meaning_tryFlow, h] at hmeaning
  refine ⟨[], ?_⟩
  revert hmeaning
  rcases (((tryFlow name source).run runner input).run []).1 with condition | ⟨value', receipt⟩
  · intro hmeaning
    cases hmeaning
  · intro hmeaning
    obtain rfl : value' = value := congrArg Prod.fst (Except.ok.inj hmeaning)
    exact ⟨receipt, rfl⟩

theorem meaning_flowThen_tryFlow (h : tryMeaning (source.meaning runner) input = .ok (value, error))
    (thenName : String) (next : Flow α) :
    (flowThen thenName (tryFlow name source) next).meaning runner input =
      (next.meaning runner value).map fun last => (last.1, error.or last.2) := by
  cases next with
  | mk nextName steps inputContract outputContract =>
    change (validateActions runner (stepActions runner steps)).bind (fun _ =>
        (tryMeaning (source.meaning runner) input).bind fun result =>
          (stepsMeaning runner steps result.1).map fun last => (last.1, result.2.or last.2)) =
      ((validateActions runner (stepActions runner steps)).bind fun _ =>
        stepsMeaning runner steps value).map _
    rw [h]
    cases validateActions runner (stepActions runner steps) <;> rfl

theorem meaning_flowBind_tryFlow (h : tryMeaning (source.meaning runner) input = .ok (value, error))
    (bindName : String) (binder : Value α → Flow α) (outputContract : Contract) :
    (flowBind bindName (tryFlow name source) binder outputContract).meaning runner input =
      error.elim ((binder value).meaning runner value) fun error => .ok (value, some error) := by
  rw [meaning_flowBind, kleisliMeaning, meaning_tryFlow, h]
  cases error <;> rfl

section

variable (hrunner : runner.Standard) (hadapter : runner.adapter.PerRequest)

include hrunner hadapter

theorem error_of_withoutFailedReceipt (hsource : WithoutFailedReceipt runner source input)
    (h : tryMeaning (source.meaning runner) input = .ok (value, error)) : error = none := by
  have hmeans := means_flow_of_perRequest hrunner hadapter source input []
  have hnone := hsource []
  rw [tryMeaning, ← hmeans] at h
  revert h hnone
  rcases ((source.run runner input).run []).1 with (failure | message) | ⟨result, receipt⟩
  · intro h _
    exact (congrArg Prod.snd (Except.ok.inj h)).symm
  · intro h
    cases h
  · intro h hnone
    have herror : failedError receipt = error := congrArg Prod.snd (Except.ok.inj h)
    rw [← herror, failedError, hnone result receipt rfl]
    rfl

theorem recovered_of_withoutFailedReceipt (hsource : WithoutFailedReceipt runner source input) :
    Recovered runner source input where
  andThen name value htry thenName next log log' := by
    obtain ⟨error, hmeaning⟩ := htry.meaning hrunner hadapter
    obtain rfl := error_of_withoutFailedReceipt hrunner hadapter hsource hmeaning
    rw [runnerRunEither_eq hrunner hadapter, runnerRunEither_eq hrunner hadapter,
      meaning_flowThen_tryFlow hmeaning]
    cases next.meaning runner value <;> rfl
  bind name value htry bindName binder outputContract log log' := by
    obtain ⟨error, hmeaning⟩ := htry.meaning hrunner hadapter
    obtain rfl := error_of_withoutFailedReceipt hrunner hadapter hsource hmeaning
    rw [map_fst_run hrunner hadapter, map_fst_run hrunner hadapter,
      meaning_flowBind_tryFlow hmeaning]
    rfl

/-- After a failed receipt, `flow-then` with the empty flow is a failure, and the
empty flow on the value of the try flow is none. -/
theorem not_recovered_of_failed {error : Option (Failure α)}
    (h : source.meaning runner input = .ok (value, some error)) :
    ¬Recovered runner source input := by
  intro hrecovered
  have hmeaning : tryMeaning (source.meaning runner) input = .ok (.tryLeft error, some error) := by
    rw [tryMeaning, h]
    rfl
  have heither := hrecovered.andThen "try" _ (tryValue_of_meaning hrunner hadapter "try" hmeaning)
    "then" (.mk "empty" [] source.inputContract source.outputContract) [] []
  rw [runnerRunEither_eq hrunner hadapter, runnerRunEither_eq hrunner hadapter,
    meaning_flowThen_tryFlow hmeaning] at heither
  cases heither

end

/-- **A failure stays recovered when it is no failed receipt.** -/
theorem recovered_iff {runner : Runner α} (hrunner : runner.Standard)
    (hadapter : runner.adapter.PerRequest) (source : Flow α) (input : Value α) :
    Recovered runner source input ↔ WithoutFailedReceipt runner source input := by
  refine ⟨fun hrecovered log value receipt hrun => ?_,
    recovered_of_withoutFailedReceipt hrunner hadapter⟩
  have hmeaning := means_flow_of_perRequest hrunner hadapter source input log
  rw [hrun] at hmeaning
  cases hfailed : firstFailedReceipt receipt with
  | none => rfl
  | some failed =>
    rw [outcome, Except.map, failedError, hfailed] at hmeaning
    exact absurd hrecovered (not_recovered_of_failed hrunner hadapter hmeaning.symm)

end

def demoAdapter : Adapter Unit where
  name := "demo"
  capabilities := ["external"]
  submitter _ _ := .ok ⟨none, "failed", none, none, none⟩
  storePutter _ _ := .ok ⟨none, "failed", none, none, none⟩
  storeGetter _ _ := .ok ⟨none, "failed", none, none, none⟩

def demoRunner : Runner Unit where
  strategy := localEager
  adapter := demoAdapter
  taskRegistryName := "default"
  taskRegistry := defaultTaskFamilies
  flowRegistryName := "default"
  flowRegistry := defaultFlowDeclarations

theorem demoRunner_standard : demoRunner.Standard where
  strategy := .inl rfl
  flows kind hkind := by
    simp only [List.mem_cons, List.not_mem_nil, or_false] at hkind
    rcases hkind with rfl | rfl | rfl | rfl <;> exact ⟨_, rfl, rfl⟩

theorem demoAdapter_perRequest : demoAdapter.PerRequest where
  submitter _ _ _ _ _ _ _ _ := rfl
  storePutter _ _ _ _ _ _ _ _ := rfl
  storeGetter _ _ := rfl

def demoExternal : Flow Unit := externalFlow "external" [] (.named "input") (.named "output")

theorem recovered_iff_demo : Recovered demoRunner demoExternal (.atom ()) ↔
    WithoutFailedReceipt demoRunner demoExternal (.atom ()) :=
  recovered_iff demoRunner_standard demoAdapter_perRequest demoExternal (.atom ())

/-- **A failed receipt that a try step recovers is found again.** -/
theorem failedReceipt_not_recovered : ¬Recovered demoRunner demoExternal (.atom ()) :=
  not_recovered_of_failed demoRunner_standard demoAdapter_perRequest (by rfl)

end PooFlow.Execution
