import PooFlow.Execution.Meaning

namespace PooFlow.Execution

open Foundation Logged List Option
open Except (ok.inj)

variable {α : Type}

mutual

def Event.failed : Event α → Bool
  | .answered _ result => result.failed
  | .ran label _ _ events ended =>
    !(label.part == .tried && ended == none) && anyFailed events

def anyFailed : List (Event α) → Bool
  | [] => false
  | event :: events => event.failed || anyFailed events

end

mutual

def Event.exposed : Event α → Bool
  | .answered _ result => result.failed
  | .ran ⟨_, .whole⟩ _ _ events _ => anyExposed events
  | .ran ⟨_, .tried⟩ .. => false
  | .ran ⟨_, .source⟩ _ _ events _ => anyFailed events
  | .ran ⟨_, .bound⟩ _ _ events _ => anyFailed events

def anyExposed : List (Event α) → Bool
  | [] => false
  | event :: events => event.exposed || anyExposed events

end

mutual

def Event.unhandled : Event α → Bool
  | .answered _ result => result.failed
  | .ran label _ _ events _ => label.part != .tried && anyUnhandled events

def anyUnhandled : List (Event α) → Bool
  | [] => false
  | event :: events => event.unhandled || anyUnhandled events

end

variable (events later : List (Event α))

theorem anyFailed_append : anyFailed (events ++ later) = (anyFailed events || anyFailed later) := by
  induction events with
  | nil => rfl
  | cons event events ih => rw [cons_append, anyFailed, anyFailed, ih, Bool.or_assoc]

theorem anyExposed_append :
    anyExposed (events ++ later) = (anyExposed events || anyExposed later) := by
  induction events with
  | nil => rfl
  | cons event events ih => rw [cons_append, anyExposed, anyExposed, ih, Bool.or_assoc]

theorem anyUnhandled_append :
    anyUnhandled (events ++ later) = (anyUnhandled events || anyUnhandled later) := by
  induction events with
  | nil => rfl
  | cons event events ih => rw [cons_append, anyUnhandled, anyUnhandled, ih, Bool.or_assoc]

mutual

def failedOutside : Receipt α → Bool
  | .mk evidence children =>
    evidence.status == "failed" || (evidence.kind != "try" && anyFailedOutside children)

def anyFailedOutside : List (Receipt α) → Bool
  | [] => false
  | receipt :: receipts => failedOutside receipt || anyFailedOutside receipts

end

mutual

theorem isSome_of_failedOutside : ∀ receipt : Receipt α, failedOutside receipt = true →
    (firstFailedReceipt receipt).isSome = true
  | .mk evidence children, h => by
    rw [firstFailedReceipt]
    by_cases hstatus : evidence.status = "failed"
    · rw [if_pos hstatus]
      rfl
    · rw [if_neg hstatus]
      refine isSome_of_anyFailedOutside children ?_
      simp only [failedOutside, Bool.or_eq_true, beq_iff_eq, hstatus, false_or,
        Bool.and_eq_true] at h
      exact h.2

theorem isSome_of_anyFailedOutside : ∀ receipts : List (Receipt α),
    anyFailedOutside receipts = true → (firstFailedReceiptIn receipts).isSome = true
  | [], h => by cases h
  | receipt :: receipts, h => by
    rw [anyFailedOutside, Bool.or_eq_true] at h
    rw [firstFailedReceiptIn, isSome_or, Bool.or_eq_true]
    exact h.imp (isSome_of_failedOutside receipt) (isSome_of_anyFailedOutside receipts)

end

mutual

theorem isSome_of_unrecovered : ∀ receipt : Receipt α, unrecovered receipt = true →
    (firstFailedReceipt receipt).isSome = true
  | .mk evidence children, h => by
    rw [firstFailedReceipt]
    by_cases hstatus : evidence.status = "failed"
    · rw [if_pos hstatus]
      rfl
    · rw [if_neg hstatus]
      refine isSome_of_anyUnrecovered children ?_
      simp only [unrecovered, Bool.or_eq_true, beq_iff_eq, hstatus, and_false, false_or,
        Bool.and_eq_true] at h
      exact h.2

theorem isSome_of_anyUnrecovered : ∀ receipts : List (Receipt α),
    anyUnrecovered receipts = true → (firstFailedReceiptIn receipts).isSome = true
  | [], h => by cases h
  | receipt :: receipts, h => by
    rw [anyUnrecovered, Bool.or_eq_true] at h
    rw [firstFailedReceiptIn, isSome_or, Bool.or_eq_true]
    exact h.imp (isSome_of_unrecovered receipt) (isSome_of_anyUnrecovered receipts)

end

structure ReportsIn (receipts : List (Receipt α)) (events : List (Event α)) : Prop where
  failed : (firstFailedReceiptIn receipts).isSome = anyFailed events
  outside : anyFailedOutside receipts = anyExposed events
  unrecovered : anyUnrecovered receipts = anyUnhandled events

structure Reports (receipt : Receipt α) (events : List (Event α)) : Prop where
  failed : (firstFailedReceipt receipt).isSome = anyFailed events
  outside : failedOutside receipt = anyExposed events
  unrecovered : unrecovered receipt = anyUnhandled events

theorem reportsIn_nil : ReportsIn ([] : List (Receipt α)) [] := ⟨rfl, rfl, rfl⟩

theorem ReportsIn.append {receipts receipts' : List (Receipt α)} {events later : List (Event α)}
    (h : ReportsIn receipts events) (h' : ReportsIn receipts' later) :
    ReportsIn (receipts ++ receipts') (events ++ later) := by
  have hfailed : ∀ receipts receipts' : List (Receipt α),
      (firstFailedReceiptIn (receipts ++ receipts')).isSome =
        ((firstFailedReceiptIn receipts).isSome || (firstFailedReceiptIn receipts').isSome) := by
    intro receipts receipts'
    induction receipts with
    | nil => rfl
    | cons receipt receipts ih =>
      rw [cons_append, firstFailedReceiptIn, firstFailedReceiptIn, isSome_or, ih,
        isSome_or, Bool.or_assoc]
  have houtside : ∀ receipts receipts' : List (Receipt α),
      anyFailedOutside (receipts ++ receipts') =
        (anyFailedOutside receipts || anyFailedOutside receipts') := by
    intro receipts receipts'
    induction receipts with
    | nil => rfl
    | cons receipt receipts ih =>
      rw [cons_append, anyFailedOutside, anyFailedOutside, ih, Bool.or_assoc]
  have hunrecovered : ∀ receipts receipts' : List (Receipt α),
      anyUnrecovered (receipts ++ receipts') =
        (anyUnrecovered receipts || anyUnrecovered receipts') := by
    intro receipts receipts'
    induction receipts with
    | nil => rfl
    | cons receipt receipts ih =>
      rw [cons_append, anyUnrecovered, anyUnrecovered, ih, Bool.or_assoc]
  exact ⟨by rw [hfailed, anyFailed_append, h.failed, h'.failed],
    by rw [houtside, anyExposed_append, h.outside, h'.outside],
    by rw [hunrecovered, anyUnhandled_append, h.unrecovered, h'.unrecovered]⟩

variable {receipt : Receipt α}

theorem Reports.singleton {events : List (Event α)}
    (h : Reports receipt events) : ReportsIn [receipt] events :=
  ⟨by rw [firstFailedReceiptIn, firstFailedReceiptIn, or_none, h.failed],
    by rw [anyFailedOutside, anyFailedOutside, Bool.or_false, h.outside],
    by rw [anyUnrecovered, anyUnrecovered, Bool.or_false, h.unrecovered]⟩

/-- What may stand before another event: a node that is not the last one of its plan,
or the flow of a step, when it left no failure. -/
def Event.Continues : Event α → Prop
  | .answered _ _ => True
  | .ran label _ last _ ended =>
    (label.part = .whole → last = false) ∧ (label.part ≠ .whole → ended ≠ some true)

mutual

/-- Events in the order of a run, each with the failures that are left in it. -/
def Event.Shaped : Event α → Prop
  | .answered _ _ => True
  | .ran _ _ _ events ended =>
    AllShaped events ∧ ∀ failed, ended = some failed → failed = anyUnhandled events

def AllShaped : List (Event α) → Prop
  | [] => True
  | event :: events => event.Shaped ∧ (events ≠ [] → event.Continues) ∧ AllShaped events

end

def Observes (events : List (Event α)) (result : Except (Raised α) (Value α × Receipt α)) : Prop :=
  AllShaped events ∧ ∀ value receipt, result = .ok (value, receipt) → Reports receipt events

variable {events : List (Event α)}

theorem observes_error {condition : Raised α} (h : AllShaped events) :
    Observes events (.error condition) :=
  ⟨h, fun _ _ heq => by cases heq⟩

theorem observes_ok {value : Value α} (h : AllShaped events)
    (hreports : Reports receipt events) : Observes events (.ok (value, receipt)) := by
  refine ⟨h, fun value' receipt' heq => ?_⟩
  obtain ⟨-, rfl⟩ := Prod.mk.inj (ok.inj heq)
  exact hreports

def observation (label : Label) (dependencies : List Label) (last : Bool) (events : List (Event α))
    (result : Except (Raised α) (Value α × Receipt α)) : Event α :=
  .ran label dependencies last events (ended result)

variable {dependencies : List Label}

theorem shaped_observation {label : Label} {last : Bool}
    {result : Except (Raised α) (Value α × Receipt α)} (h : Observes events result) :
    (observation label dependencies last events result).Shaped := by
  rw [observation, Event.Shaped]
  refine ⟨h.1, fun failed hended => ?_⟩
  rcases result with condition | ⟨value, receipt⟩
  · cases hended
  · obtain rfl := some.inj hended
    exact (h.2 value receipt rfl).unrecovered

section

variable {runner : Runner α} {flowName : String} {task : Option String} {kind : String}
  {nodeId : Option NodeId} {input output : Value α} {cache : CacheDecision α}
  {frontier : List NodeId} {error : Option (Failure α)} {children : List (Receipt α)}
  {plan : ExecutionPlan α} {node : PlanNode α}

variable {events : List (Event α)} {source : Nested α}

theorem reports_localReceipt (hkind : kind ≠ "try" ∨ children = []) (h : ReportsIn children events)
    : Reports (localReceipt runner flowName task kind nodeId input output cache frontier "ok" error
      children) events := by
  have hok : ("ok" == "failed") = false := rfl
  have hnested : ∀ failed, (children = [] → failed = false) →
      (kind != "try" && failed) = failed := by
    intro failed hempty
    rcases hkind with hkind | hnil
    · rw [bne_iff_ne.2 hkind, Bool.true_and]
    · rw [hempty hnil, Bool.and_false]
  refine ⟨?_, ?_, ?_⟩
  · rw [localReceipt, firstFailedReceipt, if_neg (show "ok" ≠ "failed" by decide), h.failed]
  · rw [localReceipt, failedOutside]
    dsimp only
    rw [hok, Bool.false_or, hnested _ (fun hnil => by rw [hnil]; rfl), h.outside]
  · rw [localReceipt, unrecovered]
    dsimp only
    rw [hok, Bool.and_false, Bool.false_or, hnested _ (fun hnil => by rw [hnil]; rfl),
      h.unrecovered]

theorem reports_leaf {evidence : Evidence α} {request : Request α} {result : AdapterResult α}
    (hstatus : (evidence.status == "failed") = result.failed) :
    Reports (.mk evidence []) [.answered request result] := by
  have hevents : anyFailed [Event.answered request result] = result.failed ∧
      anyExposed [Event.answered request result] = result.failed ∧
        anyUnhandled [Event.answered request result] = result.failed :=
    ⟨Bool.or_false _, Bool.or_false _, Bool.or_false _⟩
  refine ⟨?_, ?_, ?_⟩
  · rw [hevents.1, ← hstatus, firstFailedReceipt]
    by_cases h : evidence.status = "failed"
    · rw [if_pos h, beq_iff_eq.2 h]
      rfl
    · rw [if_neg h, beq_eq_false_iff_ne.2 h]
      rfl
  · rw [hevents.2.1, ← hstatus, failedOutside, anyFailedOutside, Bool.and_false, Bool.or_false]
  · rw [hevents.2.2, ← hstatus, unrecovered, anyUnrecovered, Bool.and_false, Bool.or_false]
    rfl

theorem status_adapterReceipt (adapter : Adapter α) (result : AdapterResult α) :
    (adapterReceiptStatus (adapterResultFailure adapter result) result == "failed") =
      result.failed := by
  rw [adapterReceiptStatus, isSome_adapterResultFailure]
  cases hfailed : result.failed with
  | true => rfl
  | false =>
    rw [AdapterResult.failed, Bool.or_eq_false_iff] at hfailed
    exact hfailed.2

theorem observes_task (task : Task α) (input : Value α) (frontier : List NodeId) :
    (runTask runner plan node task input frontier).Obeys Observes := by
  rw [runTask]
  refine obeys_lift_bind (fun condition _ => observes_error trivial) fun family _ => ?_
  split
  · exact obeys_lift_bind (fun condition _ => observes_error trivial) fun value _ =>
      obeys_pure.2 (observes_ok trivial (reports_localReceipt (.inr rfl) reportsIn_nil))
  · split
    · have hsilent : (adapterResultForTask runner family task
          (nodeRequest runner plan node task input frontier)).Obeys fun events _ => events = [] := by
        rw [adapterResultForTask]
        split <;> exact fun log => rfl
      refine obeys_answer_bind hsilent (fun condition => observes_error trivial) fun result => ?_
      have hemit : (emit (.answered (nodeRequest runner plan node task input frontier) result) :
          Exec α Unit).Obeys fun events _ =>
            events = [.answered (nodeRequest runner plan node task input frontier) result] :=
        fun log => rfl
      refine Obeys.bind hemit ?_ ?_
      · rintro events condition rfl
        exact observes_error ⟨trivial, fun _ => trivial, trivial⟩
      · rintro events _ rfl
        exact obeys_pure.2 (observes_ok ⟨trivial, fun _ => trivial, trivial⟩
          (reports_leaf (status_adapterReceipt runner.adapter result)))
    · exact obeys_throw.2 (observes_error trivial)

theorem reports_part {part : Part} (hpart : part = .whole) {id : NodeId}
    {last : Bool} {ended : Option Bool} (h : Reports receipt events) :
    ReportsIn [receipt] [.ran ⟨id, part⟩ dependencies last events ended] := by
  subst hpart
  obtain ⟨hfailed, houtside, hunrecovered⟩ := h.singleton
  refine ⟨hfailed.trans ?_, houtside.trans ?_, hunrecovered.trans ?_⟩
  · rw [anyFailed, anyFailed, Bool.or_false, Event.failed]
    rfl
  · rw [anyExposed, anyExposed, Bool.or_false, Event.exposed]
  · rw [anyUnhandled, anyUnhandled, Bool.or_false, Event.unhandled]
    rfl

/-- A flow inside a step. -/
def Nested.Observed (nested : Nested α) : Prop := ∀ input, (nested.run input).Obeys Observes

theorem observes_flowNode {nested : Nested α} (h : nested.Observed)
    (hkind : kind ≠ "try") (input : Value α) :
    (do
      let result ← nested.run input
      return (result.1, localReceipt runner flowName (some nested.name) kind nodeId input
        result.1 .noCache frontier "ok" none [result.2]) :
      Exec α (Value α × Receipt α)).Obeys Observes := by
  refine Obeys.bind (h input) (fun events condition hobserves => observes_error hobserves.1) ?_
  rintro events ⟨value, receipt⟩ hobserves
  refine obeys_pure.2 ?_
  rw [append_nil]
  exact observes_ok hobserves.1
    (reports_localReceipt (.inl hkind) (hobserves.2 value receipt rfl).singleton)

/-- What a try step's projection leaves: the receipts below it, whose failures nothing
outside of it sees. -/
def ObservesTried (events : List (Event α)) (result : Except (Raised α) (Value α × List (Receipt α))) :
    Prop :=
  AllShaped events ∧ ∀ value children, result = .ok (value, children) →
    (firstFailedReceiptIn children).isSome = anyFailed events ∧ anyExposed events = false ∧
      anyUnhandled events = false

theorem allShaped_singleton {event : Event α} (h : event.Shaped) : AllShaped [event] :=
  ⟨h, fun hne => absurd rfl hne, trivial⟩

theorem observesTried_projection (h : source.Observed) (id : NodeId) (input : Value α) :
    (tryStepProjection (observed ⟨id, .tried⟩ [] true (source.run input))).Obeys ObservesTried := by
  have hsource : (observed ⟨id, .tried⟩ [] true (source.run input)).Obeys fun events result =>
      ∃ inner, Observes inner result ∧ events = [observation ⟨id, .tried⟩ [] true inner result] :=
    Obeys.within (h input) fun events result hobserves => ⟨events, hobserves, rfl⟩
  have hsilent : ∀ inner ended, anyExposed [Event.ran ⟨id, .tried⟩ [] true inner ended] = false ∧
      anyUnhandled [(Event.ran ⟨id, .tried⟩ [] true inner ended : Event α)] = false :=
    fun inner ended => ⟨rfl, rfl⟩
  have hreturned : (do
      let result ← observed ⟨id, .tried⟩ [] true (source.run input)
      return (tryValue result, [result.2]) : Exec α (Value α × List (Receipt α))).Obeys
        fun events result => (∀ condition, result = .error condition → ∃ inner, AllShaped inner ∧
          events = [.ran ⟨id, .tried⟩ [] true inner none]) ∧
            ∀ value children, result = .ok (value, children) → ObservesTried events result := by
    refine Obeys.bind hsource ?_ ?_
    · rintro events condition ⟨inner, hobserves, rfl⟩
      exact ⟨fun _ _ => ⟨inner, hobserves.1, rfl⟩, fun value children heq => by cases heq⟩
    · rintro events ⟨value, receipt⟩ ⟨inner, hobserves, rfl⟩
      refine obeys_pure.2 ⟨fun condition heq => (by cases heq), fun _ _ _ => ?_⟩
      rw [append_nil]
      refine ⟨allShaped_singleton (shaped_observation hobserves), fun value' children heq => ?_⟩
      obtain ⟨-, rfl⟩ := Prod.mk.inj (ok.inj heq)
      refine ⟨?_, hsilent _ _⟩
      rw [(hobserves.2 value receipt rfl).singleton.failed, anyFailed, anyFailed, Bool.or_false,
        observation, Event.failed]
      rfl
  have hraised : ∀ inner, AllShaped inner →
      AllShaped [(Event.ran ⟨id, .tried⟩ [] true inner none : Event α)] := fun inner hinner =>
    allShaped_singleton ⟨hinner, fun failed heq => by cases heq⟩
  refine Obeys.catching hreturned ?_ ?_ ?_
  · rintro events ⟨value, children⟩ ⟨-, hok⟩
    exact hok value children rfl
  · rintro events condition ⟨value, children⟩ ⟨herror, -⟩ hcaught
    obtain ⟨inner, hinner, rfl⟩ := herror condition rfl
    refine ⟨hraised inner hinner, fun value' children' heq => ⟨?_, hsilent _ _⟩⟩
    cases condition with
    | failure failure =>
      obtain ⟨-, rfl⟩ := Prod.mk.inj (ok.inj heq)
      obtain ⟨-, rfl⟩ := Prod.mk.inj (some.inj hcaught)
      rfl
    | exception message => cases hcaught
  · rintro events condition ⟨herror, -⟩ -
    obtain ⟨inner, hinner, rfl⟩ := herror condition rfl
    exact ⟨hraised inner hinner, fun value children heq => by cases heq⟩

theorem observes_try (h : source.Observed) (input : Value α) (frontier : List NodeId) :
    (runTryStep runner plan node source input frontier).Obeys Observes := by
  rw [runTryStep]
  refine Obeys.bind (observesTried_projection h node.id input)
    (fun events condition hobserves => observes_error hobserves.1) ?_
  rintro events ⟨value, children⟩ hobserves
  obtain ⟨hfailed, hexposed, hunhandled⟩ := hobserves.2 value children rfl
  refine obeys_pure.2 ?_
  rw [append_nil]
  refine observes_ok hobserves.1 ⟨?_, ?_, ?_⟩
  · rw [localReceipt, firstFailedReceipt, if_neg (show "ok" ≠ "failed" by decide), hfailed]
  · rw [localReceipt, failedOutside, hexposed]
    rfl
  · rw [localReceipt, unrecovered, hunhandled]
    exact (Bool.or_false _).trans (Bool.and_false _)

variable {inner : List (Event α)} {actions : List (Action α)}

theorem reports_kleisliReceipt {failed : Option (Receipt α)} (h : ReportsIn children inner)
    (hchildren : children ≠ []) (hstatus : failed.isSome = (firstFailedReceiptIn children).isSome)
    (hfailed : anyFailed events = anyFailed inner) (hexposed : anyExposed events = anyFailed inner)
    (hunhandled : anyUnhandled events = anyUnhandled inner) :
    Reports (kleisliReceipt runner plan node input output frontier failed children) events := by
  have hempty : children.isEmpty = false := by
    rw [isEmpty_eq_false_iff]
    exact hchildren
  have hkind : ("kleisli" != "try") = true := by decide
  refine ⟨?_, ?_, ?_⟩
  · rw [hfailed, ← h.failed, kleisliReceipt, localReceipt, firstFailedReceipt]
    dsimp only
    cases hsome : failed.isSome with
    | true => simpa [hsome] using hstatus
    | false => simp
  · rw [hexposed, ← h.failed, kleisliReceipt, localReceipt, failedOutside, hkind, Bool.true_and]
    dsimp only
    rw [← hstatus]
    cases hsome : failed.isSome with
    | true => simp
    | false =>
      have hnone : anyFailedOutside children = false := by
        rw [Bool.eq_false_iff]
        intro houtside
        rw [hsome, isSome_of_anyFailedOutside children houtside] at hstatus
        cases hstatus
      simp [hnone]
  · rw [hunhandled, ← h.unrecovered, kleisliReceipt, localReceipt, unrecovered, hempty, hkind,
      Bool.false_and, Bool.false_or, Bool.true_and]

theorem observes_bound {bound : Nested α} (h : bound.Observed) {sourceReceipt : Receipt α}
    (hinner : AllShaped inner) (hsource : Reports sourceReceipt inner)
    (hnone : firstFailedReceipt sourceReceipt = none) (input value : Value α)
    (frontier : List NodeId) :
    (runKleisliBound runner plan node bound input value frontier sourceReceipt).Obeys
      fun later result => Observes
        ([observation ⟨node.id, .source⟩ [] true inner (.ok (value, sourceReceipt))] ++ later)
          result := by
  have hshaped : ∀ {later : List (Event α)} {result : Except (Raised α) (Value α × Receipt α)},
      Observes later result → AllShaped
        [observation ⟨node.id, .source⟩ [] true inner (.ok (value, sourceReceipt)),
          observation ⟨node.id, .bound⟩ [⟨node.id, .source⟩] true later result] := by
    intro later result hobserves
    refine ⟨shaped_observation (observes_ok hinner hsource), fun _ => ⟨?_, fun _ hended => ?_⟩,
      allShaped_singleton (shaped_observation hobserves)⟩
    · intro hpart
      cases hpart
    · have hsome := isSome_of_unrecovered sourceReceipt (some.inj hended)
      rw [hnone] at hsome
      cases hsome
  have hbound : (observed ⟨node.id, .bound⟩ [⟨node.id, .source⟩] true (bound.run value)).Obeys
      fun events result => ∃ later, Observes later result ∧
        events = [observation ⟨node.id, .bound⟩ [⟨node.id, .source⟩] true later result] :=
    Obeys.within (h value) fun events result hobserves => ⟨events, hobserves, rfl⟩
  rw [runKleisliBound]
  refine Obeys.bind hbound ?_ ?_
  · rintro events condition ⟨later, hobserves, rfl⟩
    exact observes_error (hshaped hobserves)
  · rintro events ⟨output, receipt⟩ ⟨later, hobserves, rfl⟩
    have hreceipt := hobserves.2 output receipt rfl
    refine obeys_pure.2 ?_
    rw [append_nil]
    refine observes_ok (hshaped hobserves) (reports_kleisliReceipt
      (hsource.singleton.append hreceipt.singleton) (cons_ne_nil _ _) ?_ ?_ ?_ ?_)
    · rw [firstFailedReceiptIn, hnone, none_or, firstFailedReceiptIn, firstFailedReceiptIn,
        or_none]
    · change (anyFailed inner || (anyFailed later || false)) = anyFailed (inner ++ later)
      rw [Bool.or_false, anyFailed_append]
    · change (anyFailed inner || (anyFailed later || false)) = anyFailed (inner ++ later)
      rw [Bool.or_false, anyFailed_append]
    · change (anyUnhandled inner || (anyUnhandled later || false)) = anyUnhandled (inner ++ later)
      rw [Bool.or_false, anyUnhandled_append]

theorem observes_kleisli {binder : Value α → Nested α} (h : source.Observed)
    (hbinder : ∀ value, (binder value).Observed) (input : Value α) (frontier : List NodeId) :
    (runKleisliStep runner plan node source binder input frontier).Obeys Observes := by
  have hsource : (observed ⟨node.id, .source⟩ [] true (source.run input)).Obeys fun events result =>
      ∃ inner, Observes inner result ∧ events = [observation ⟨node.id, .source⟩ [] true inner result] :=
    Obeys.within (h input) fun events result hobserves => ⟨events, hobserves, rfl⟩
  rw [runKleisliStep]
  refine Obeys.bind hsource ?_ ?_
  · rintro events condition ⟨inner, hobserves, rfl⟩
    exact observes_error (allShaped_singleton (shaped_observation hobserves))
  · rintro events ⟨value, receipt⟩ ⟨inner, hobserves, rfl⟩
    have hreceipt := hobserves.2 value receipt rfl
    dsimp only
    cases hfailed : firstFailedReceipt receipt with
    | none => exact observes_bound (hbinder value) hobserves.1 hreceipt hfailed input value frontier
    | some failed =>
      refine obeys_pure.2 ?_
      rw [append_nil]
      refine observes_ok (allShaped_singleton (shaped_observation hobserves))
        (reports_kleisliReceipt hreceipt.singleton (cons_ne_nil _ _) ?_ (Bool.or_false _)
          (Bool.or_false _) (Bool.or_false _))
      rw [firstFailedReceiptIn, hfailed]
      rfl

def Action.Observed : Action α → Prop
  | .task _ => True
  | .flow nested => nested.Observed
  | .branch _ left right => left.Observed ∧ right.Observed
  | .try _ source => source.Observed
  | .kleisli _ source binder => source.Observed ∧ ∀ value, (binder value).Observed

structure PlanNode.Observed (node : PlanNode α) : Prop where
  action : node.action.Observed
  kind : ∀ nested, node.action = .flow nested → node.kind ≠ "try"

theorem observes_planNode (h : node.Observed) (input : Value α) (frontier : List NodeId) :
    (runPlanNode runner plan node input frontier).Obeys Observes := by
  have hobserved := h.action
  rw [runPlanNode]
  cases haction : node.action with
  | task task => exact observes_task task input frontier
  | flow nested =>
    rw [haction] at hobserved
    exact observes_flowNode hobserved (h.kind nested haction) input
  | «try» name source =>
    rw [haction] at hobserved
    exact observes_try hobserved input frontier
  | kleisli name source binder =>
    rw [haction] at hobserved
    exact observes_kleisli hobserved.1 hobserved.2 input frontier
  | branch name left right =>
    exact obeys_pure.2 (observes_ok trivial (reports_localReceipt (.inr rfl) reportsIn_nil))

theorem observed_lowerStep {action : Action α} (h : action.Observed) (previous : List NodeId)
    (ordinal : ℕ) : ∀ node ∈ (lowerStep flowName action previous ordinal).nodes, node.Observed := by
  have hlinear : ∀ action : Action α, action.Observed →
      (stepPlanNode flowName ordinal action previous).Observed := by
    refine fun action h => ⟨h, fun nested haction => ?_⟩
    have haction : action = .flow nested := haction
    rw [haction]
    exact show "flow" ≠ "try" by decide
  cases action with
  | branch name left right =>
    have harm : ∀ (kind : String) (arm : Nested α) (ordinal : ℕ), kind ≠ "try" → arm.Observed →
        (branchArmNode flowName ordinal kind arm previous).Observed :=
      fun kind arm ordinal hkind harm => ⟨harm, fun nested _ => hkind⟩
    refine forall_mem_cons.2 ⟨harm _ left _ (by decide) h.1, forall_mem_cons.2
      ⟨harm _ right _ (by decide) h.2, forall_mem_singleton.2 ⟨h, fun nested haction => ?_⟩⟩⟩
    cases haction
  | task t | flow nested | «try» name source | kleisli name source binder =>
    exact forall_mem_singleton.2 (hlinear _ h)

theorem observed_lowerSteps (h : ∀ action ∈ actions, action.Observed) (previous : List NodeId)
    (ordinal : ℕ) :
    ∀ node ∈ (lowerSteps flowName actions previous ordinal).nodes, node.Observed := by
  induction actions generalizing previous ordinal with
  | nil => exact forall_mem_nil _
  | cons action actions ih =>
    rw [forall_mem_cons] at h
    exact forall_mem_append.2 ⟨observed_lowerStep h.1 previous ordinal, ih h.2 _ _⟩

def ObservesNodes (nodes : List (PlanNode α)) (receipts : List (Receipt α)) (events : List (Event α))
    (result : Except (Raised α) (Value α × List (Receipt α))) : Prop :=
  AllShaped events ∧ (nodes = [] → events = []) ∧ ∀ value children, result = .ok (value, children) →
    ∃ later, children.reverse = receipts.reverse ++ later ∧ ReportsIn later events

theorem observes_planNodes {nodes : List (PlanNode α)} (h : ∀ node ∈ nodes, node.Observed)
    (input : Value α) (receipts : List (Receipt α)) (index : ValueIndex α) (state : FrontierState) :
    (runPlanNodes runner plan nodes input receipts index state).Obeys
      (ObservesNodes nodes receipts) := by
  have herror : ∀ {nodes : List (PlanNode α)} {receipts} (condition : Raised α),
      ObservesNodes nodes receipts [] (.error condition) :=
    fun condition => ⟨trivial, fun _ => rfl, fun value children heq => by cases heq⟩
  induction nodes generalizing receipts index state with
  | nil =>
    refine obeys_lift_bind (fun condition _ => herror condition) fun value _ => obeys_pure.2
      ⟨trivial, fun _ => rfl, fun value' children heq => ?_⟩
    obtain ⟨-, rfl⟩ := Prod.mk.inj (ok.inj heq)
    exact ⟨[], (append_nil _).symm, reportsIn_nil⟩
  | cons node nodes ih =>
    rw [forall_mem_cons] at h
    rw [runPlanNodes]
    refine obeys_lift_bind (fun condition _ => herror condition) fun frontier _ =>
      obeys_lift_bind (fun condition _ => herror condition) fun nodeInput _ => ?_
    have hnode : (observed (wholeLabel node.id) (node.dependencies.map wholeLabel) nodes.isEmpty
        (runPlanNode runner plan node nodeInput frontier)).Obeys fun events result =>
          ∃ inner, Observes inner result ∧ events = [observation (wholeLabel node.id)
            (node.dependencies.map wholeLabel) nodes.isEmpty inner result] :=
      Obeys.within (observes_planNode h.1 nodeInput frontier) fun events result hobserves =>
        ⟨events, hobserves, rfl⟩
    refine Obeys.bind hnode ?_ ?_
    · rintro events condition ⟨inner, hobserves, rfl⟩
      exact ⟨allShaped_singleton (shaped_observation hobserves), fun heq => (by cases heq),
        fun value children heq => by cases heq⟩
    · rintro events ⟨value, receipt⟩ ⟨inner, hobserves, rfl⟩
      refine (ih h.2 (receipt :: receipts) _ _).mono fun later result hlater => ?_
      refine ⟨⟨shaped_observation hobserves, fun hne => ⟨fun _ => ?_, fun hpart => absurd rfl hpart⟩,
        hlater.1⟩, fun heq => (by cases heq), fun value' children heq => ?_⟩
      · exact isEmpty_eq_false_iff.2 fun hnil => hne (hlater.2.1 hnil)
      · obtain ⟨rest, hchildren, hreports⟩ := hlater.2.2 value' children heq
        rw [reverse_cons, append_assoc] at hchildren
        exact ⟨_, hchildren, (reports_part rfl (hobserves.2 value receipt rfl)).append hreports⟩

theorem observes_runActions (h : ∀ action ∈ actions, action.Observed) (input : Value α) :
    (runActions runner flowName actions input).Obeys Observes := by
  rw [runActions]
  refine obeys_lift_bind (fun condition _ => observes_error trivial) fun plan hplan =>
    obeys_lift_bind (fun condition _ => observes_error trivial) fun _ _ =>
      obeys_lift_bind (fun condition _ => observes_error trivial) fun frontier _ => ?_
  have hnodes : ∀ node ∈ plan.nodes, node.Observed := by
    rw [runnerPlan] at hplan
    split at hplan
    · cases hplan
    · split_ifs at hplan
      obtain rfl := ok.inj hplan
      exact observed_lowerSteps h [] 0
  refine Obeys.bind (observes_planNodes hnodes input [] (fun _ => none) _)
    (fun events condition hobserves => observes_error hobserves.1) ?_
  rintro events ⟨value, children⟩ hobserves
  obtain ⟨later, hchildren, hreports⟩ := hobserves.2.2 value children rfl
  refine obeys_pure.2 ?_
  rw [append_nil]
  refine observes_ok hobserves.1 (reports_localReceipt (.inl (by decide)) ?_)
  rw [show children.reverse = later from hchildren]
  exact hreports

end

section

variable (runner : Runner α)

mutual

/-- **The receipt of every run agrees with its events.** -/
theorem observes_flow : ∀ flow : Flow α, (⟨flow.name, flow.run runner⟩ : Nested α).Observed
  | .mk _ steps _ _ => fun input => observes_runActions (observes_steps steps) input

theorem observes_steps : ∀ steps : List (Step α), ∀ action ∈ stepActions runner steps,
    action.Observed
  | [] => forall_mem_nil _
  | step :: steps => forall_mem_cons.2 ⟨observes_step step, observes_steps steps⟩

theorem observes_step : ∀ step : Step α, (step.action runner).Observed
  | .task _ => trivial
  | .flow flow => observes_flow flow
  | .branch _ left right _ _ => ⟨observes_flow left, observes_flow right⟩
  | .try _ source _ _ => observes_flow source
  | .kleisli _ source binder _ _ => ⟨observes_flow source, fun value => observes_flow (binder value)⟩

end

end

end PooFlow.Execution
