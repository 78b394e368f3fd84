import PooFlow.Execution.Observation
import PooFlow.Execution.Recovery

namespace PooFlow.Execution

open Foundation Logged List Bool

variable {α : Type}

/-- One part of a run needs another. -/
def Needs (events : List (Event α)) (label needed : Label) : Prop :=
  ∃ dependencies last inner ended,
    .ran label dependencies last inner ended ∈ events ∧ needed ∈ dependencies

/-- After a part that ends with a failure which no try step recovers, no part is run
that depends on it, directly or through other parts. -/
def StopsDependents (events : List (Event α)) : Prop :=
  ∀ before label dependencies last inner later,
    events = before ++ .ran label dependencies last inner (some true) :: later →
      ∀ label' dependencies' last' inner' ended',
        .ran label' dependencies' last' inner' ended' ∈ later →
          ¬Relation.TransGen (Needs events) label' label

mutual

def Event.FailsFast : Event α → Prop
  | .answered _ _ => True
  | .ran _ _ _ events _ => StopsDependents events ∧ EachFailsFast events

def EachFailsFast : List (Event α) → Prop
  | [] => True
  | event :: events => event.FailsFast ∧ EachFailsFast events

end

/-- **Fail-fast**: dependent work is stopped in the plan of a run, and in every plan
that is run inside of it. -/
def FailsFast (events : List (Event α)) : Prop := StopsDependents events ∧ EachFailsFast events

mutual

def Event.onlyLastFails : Event α → Bool
  | .answered _ _ => true
  | .ran label _ last events _ =>
    (label.part != .whole || !anyUnhandled events || last) && onlyLastFail events

/-- Every failing answer of the adapter is to a node that is the last one of its plan,
and so are the nodes it is in, up to the next try step or bind. -/
def onlyLastFail : List (Event α) → Bool
  | [] => true
  | event :: events => event.onlyLastFails && onlyLastFail events

end

section

variable {before later events : List (Event α)} {event : Event α}

theorem AllShaped.middle (h : AllShaped (before ++ event :: later)) :
    event.Shaped ∧ (later ≠ [] → event.Continues) := by
  induction before with
  | nil => exact ⟨h.1, h.2.1⟩
  | cons first before ih => exact ih h.2.2

theorem onlyLastFail_middle (h : onlyLastFail (before ++ event :: later) = true) :
    event.onlyLastFails = true := by
  induction before with
  | nil => exact (and_eq_true_iff.1 h).1
  | cons first before ih => exact ih (and_eq_true_iff.1 h).2

theorem stopsDependents (hshaped : AllShaped events) (hlast : onlyLastFail events = true) :
    StopsDependents events := by
  rintro before label dependencies last inner later rfl label' dependencies' last' inner' ended' hmem
  exfalso
  obtain ⟨⟨-, hended⟩, hcontinues⟩ := hshaped.middle
  obtain ⟨hwhole, hpart⟩ := hcontinues (ne_nil_of_mem hmem)
  have hfailed : anyUnhandled inner = true := (hended true rfl).symm
  have hend := (and_eq_true_iff.1 (onlyLastFail_middle hlast)).1
  by_cases hlabel : label.part = .whole
  · rw [hlabel, hfailed, hwhole hlabel] at hend
    cases hend
  · exact hpart hlabel rfl

mutual

theorem Event.failsFast : ∀ event : Event α, event.Shaped → event.onlyLastFails = true →
    event.FailsFast
  | .answered _ _, _, _ => trivial
  | .ran _ _ _ events _, hshaped, hlast =>
    ⟨stopsDependents hshaped.1 (and_eq_true_iff.1 hlast).2,
      eachFailsFast events hshaped.1 (and_eq_true_iff.1 hlast).2⟩

theorem eachFailsFast : ∀ events : List (Event α), AllShaped events → onlyLastFail events = true →
    EachFailsFast events
  | [], _, _ => trivial
  | event :: events, hshaped, hlast =>
    ⟨event.failsFast hshaped.1 (and_eq_true_iff.1 hlast).1,
      eachFailsFast events hshaped.2.2 (and_eq_true_iff.1 hlast).2⟩

end

end

/-- **Runs whose failures stand at the ends of their plans fail fast.** -/
theorem failsFast_of_onlyLastFail (runner : Runner α) (flow : Flow α) (input : Value α)
    (log : List (Event α)) (h : onlyLastFail ((flow.run runner input).run log).2 = true) :
    FailsFast ((flow.run runner input).run log).2 :=
  have hshaped := (observes_flow runner flow input log).1
  ⟨stopsDependents hshaped h, eachFailsFast _ hshaped h⟩

/-- A sequence whose last node fails. -/
def demoLast : Flow Unit :=
  flowThen "last" (schemeFlow "local" [] .ok (.named "input") (.named "input")) demoExternal

theorem demoLast_failsFast : FailsFast ((demoLast.run demoRunner (.atom ())).run []).2 :=
  failsFast_of_onlyLastFail demoRunner demoLast (.atom ()) [] (by decide)

def demoSequence : Flow Unit :=
  flowThen "sequence" demoExternal (schemeFlow "local" [] .ok (.named "output") (.named "output"))

/-- **A node that is run after a failure it depends on**, under `fail-fast`. -/
theorem dependent_run_after_failure : demoRunner.strategy.failurePolicy = "fail-fast" ∧
    ¬FailsFast ((demoSequence.run demoRunner (.atom ())).run []).2 := by
  refine ⟨rfl, fun h => ?_⟩
  have hneeds : Needs ((demoSequence.run demoRunner (.atom ())).run []).2
      (wholeLabel ⟨"sequence", 1, "scheme", "local"⟩)
      (wholeLabel ⟨"sequence", 0, "external", "external"⟩) :=
    ⟨_, _, _, _, mem_cons_of_mem _ (mem_singleton_self _), mem_singleton_self _⟩
  exact h.1 [] _ _ _ _ _ rfl _ _ _ _ _ (mem_singleton_self _) (.single hneeds)

end PooFlow.Execution
