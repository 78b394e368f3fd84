import PooFlow.Runtime.Frames

namespace PooFlow

open Foundation

variable {σ : Type}

structure QueueView where
  queue : EventQueue
  published : List ℕ
  accepted : List ℕ

def queueView (r : Resource) (life : Life) : QueueView :=
  ⟨r.queue, life.published, life.accepted⟩

def Tracked.queueView (t : Tracked σ) (i : Fin maxResources) : QueueView :=
  PooFlow.queueView (t.runtime.resources i) (t.life i)

/-- One move of a queue, whose publications meet `allowed`. -/
inductive QueueMove (allowed : QueueView → List EventHeader → Prop) :
    QueueView → QueueView → Prop where
  /-- a new allocation of the slot -/
  | renew (v : QueueView) {queue : EventQueue} (hpending : queue.pending = [])
      (hcursor : queue.pollCursor = 0) : QueueMove allowed v ⟨queue, [], []⟩
  /-- the release of the slot -/
  | release (v : QueueView) :
      QueueMove allowed v { v with queue := { v.queue with pending := [], capacity := 0 } }
  | publish (v : QueueView) {arenaCapacity : ℕ} (arenaId arenaGeneration : ℕ)
      {headers : List EventHeader}
      (hroom : headers.length ≤ v.queue.capacity - v.queue.pending.length)
      (hcheck : checkPublish arenaCapacity v.queue.lastSequence? headers = .ok ())
      (hallowed : allowed v headers) :
      QueueMove allowed v
        { v with
          queue := v.queue.publish arenaId arenaGeneration headers
          published := v.published ++ headers.map EventHeader.sequence }
  | poll (v : QueueView) (arenaId arenaGeneration : ℕ) :
      QueueMove allowed v { v with queue := v.queue.poll arenaId arenaGeneration }
  | submit (v : QueueView) {arenaCapacity : ℕ} (arenaId arenaGeneration : ℕ)
      {headers : List EventHeader} (hcheck : checkSubmit arenaCapacity none headers = .ok ()) :
      QueueMove allowed v
        { v with
          queue := { v.queue with
            pending := (v.queue.submit arenaId arenaGeneration headers).pending }
          accepted := v.accepted ++
            acceptedOf headers (v.queue.submit arenaId arenaGeneration headers).statuses }
  | acknowledge (v : QueueView) (arenaId first last : ℕ) :
      QueueMove allowed v { v with queue := v.queue.acknowledge arenaId first last }

abbrev QueueSteps (allowed : QueueView → List EventHeader → Prop) : QueueView → QueueView → Prop :=
  Relation.ReflTransGen (QueueMove allowed)

variable {allowed : QueueView → List EventHeader → Prop}

theorem QueueSteps.invariant {I : QueueView → Prop}
    (hmove : ∀ v w, QueueMove allowed v w → I v → I w) {v w : QueueView}
    (h : QueueSteps allowed v w) (hv : I v) : I w := by
  induction h with
  | refl => exact hv
  | tail _ hlast ih => exact hmove _ _ hlast ih

section

variable (i : Fin maxResources)

theorem queueSteps_lifecycle {t : Tracked σ} {c : Call σ} (hc : c.IsLifecycle) :
    QueueSteps allowed (t.queueView i) ((step t c).queueView i) := by
  have hslot := lifecycle_slot hc (t := t) i
  unfold Tracked.queueView
  generalize (step t c).runtime.resources i = entry, (step t c).life i = life at hslot ⊢
  cases hslot with
  | same => exact .refl
  | allocated hdresses => exact .single (.renew _ hdresses.pending hdresses.pollCursor)
  | restated state outstanding => exact .refl
  | released => exact .single (.release _)

variable (rt : Runtime) (life : Life) (inst session : Handle) (j : Fin maxResources) (r : Resource)

theorem queueSteps_publish (request : Option PublishRequest) (result : Option PublishResult)
    (hallowed : ∀ plan, publishAdmission rt inst session request result = .ok plan →
      i = plan.session → allowed (queueView (rt.resources i) life) plan.request.items) :
    QueueSteps allowed (queueView (rt.resources i) life)
      (queueView ((publishBatch rt inst session request result).runtime.resources i)
        (life.logPublication i session request (publishBatch rt inst session request result))) := by
  rcases Outcome.ofAdmission_eq rt (publishAdmission rt inst session request result)
    (·.publish rt) with ⟨status, herror, heq⟩ | ⟨plan, hadmission, heq⟩
  · have hne : status ≠ .ok := fun h => publishAdmission_ne_error_ok (h ▸ herror)
    rw [publishBatch, heq, Life.logPublication, if_neg (fun h => hne h.1)]
    exact .refl
  · obtain ⟨hsession, rfl, _, hroom, hcheck⟩ := publishAdmission_ok hadmission
    rw [publishBatch, heq]
    simp only [Life.logPublication, BatchPlan.publish, Outcome.accepted_status, true_and,
      resourceId_of_resolve hsession, Outcome.accepted_runtime, Runtime.modify_apply]
    split
    · next hij =>
      subst hij
      refine .single (.publish _ _ _ ?_ hcheck (hallowed plan hadmission rfl))
      simpa [PublishRequest.items, viewHeaders, queueView] using hroom
    · exact .refl

theorem queueSteps_submit (request : Option SubmitRequest) (result : Option SubmitResult) :
    QueueSteps allowed (queueView (rt.resources i) life)
      (queueView ((submitBatch rt inst session request result).runtime.resources i)
        (life.logSubmission i
          { session, request
            status := (submitBatch rt inst session request result).status
            written := (submitBatch rt inst session request result).written })) := by
  rcases Outcome.ofAdmission_eq rt (submitAdmission rt inst session request result)
    (·.submit rt) with ⟨status, herror, heq⟩ | ⟨plan, hadmission, heq⟩
  · have hne : status ≠ .ok := fun h => submitAdmission_ne_error_ok (h ▸ herror)
    rw [submitBatch, heq, Life.logSubmission, if_neg (fun h => hne h.1)]
    exact .refl
  · obtain ⟨hsession, rfl, _, hcheck⟩ := submitAdmission_ok hadmission
    rw [submitBatch, heq]
    simp only [Life.logSubmission, BatchPlan.submit, Outcome.accepted_status, true_and,
      resourceId_of_resolve hsession, Outcome.accepted_runtime, Runtime.modify_apply]
    split
    · next hij =>
      subst hij
      exact .single (.submit _ _ _ hcheck)
    · exact .refl

theorem queueSteps_run (program : AdapterProgram) (rt : Runtime) (life : Life) :
    QueueSteps allowed (queueView (rt.resources i) life)
      (queueView ((program.run rt).runtime.resources i)
        ((program.run rt).submissions.foldl (Life.logSubmission i) life)) := by
  induction program generalizing rt life with
  | done status result => exact .refl
  | submit inst session request result next ih =>
    exact (queueSteps_submit i rt life inst session request result).trans
      (ih _ _ (submitBatch rt inst session request result).runtime _)

/-- A change of one entry, seen from any slot. -/
theorem queueSteps_modify (f : Resource → Resource)
    (hf : QueueSteps allowed (queueView (rt.resources j) life) (queueView (f (rt.resources j)) life))
    : QueueSteps allowed (queueView (rt.resources i) life)
      (queueView ((rt.modify j f).resources i) life) := by
  rw [Runtime.modify_apply]
  split
  · next hij => exact hij ▸ hf
  · exact .refl

theorem queueSteps_quiet (f : Resource → Resource) (hf : ∀ r, (f r).queue = r.queue) :
    QueueSteps allowed (queueView (rt.resources i) life)
      (queueView ((rt.modify j f).resources i) life) := by
  apply queueSteps_modify
  rw [queueView, queueView, hf]

theorem queueSteps_released : QueueSteps allowed (queueView (rt.resources i) life)
      (queueView ((rt.modify j Resource.release).resources i) life) :=
  queueSteps_modify i rt life j _ (.single (.release _))

theorem queueSteps_ack (lease : Handle) : QueueSteps allowed (queueView (rt.resources i) life)
      (queueView ((batchAck rt inst session lease).runtime.resources i) life) := by
  rcases Outcome.ofAdmission_eq rt (ackAdmission rt inst session lease)
    (·.acknowledge rt) with ⟨status, herror, heq⟩ | ⟨plan, hadmission, heq⟩
  · rw [batchAck, heq]
    exact .refl
  · rw [batchAck, heq, AckPlan.acknowledge_runtime]
    apply Relation.ReflTransGen.trans _ (queueSteps_released i _ life plan.lease)
    apply Relation.ReflTransGen.trans
    · exact queueSteps_quiet i rt life plan.arena (rt.resources plan.lease).settleLease
        (fun _ => rfl)
    · exact queueSteps_modify i _ life plan.session _ (.single (.acknowledge _ _ _ _))

theorem queueView_logMediation (life : Life) (session : Handle)
    (request : Option (StrictMediationRequest σ)) (m : Mediated σ) :
    queueView r (life.logMediation i session request m) =
      queueView r (m.submissions.foldl (Life.logSubmission i) life) := by
  unfold Life.logMediation
  dsimp only
  split
  · split <;> rfl
  · rfl

theorem queueSteps_mediate (world : σ) (life : Life) (inst session : Handle)
    (request : Option (StrictMediationRequest σ)) (result : Option StrictMediationResult) :
    QueueSteps allowed (queueView (rt.resources i) life)
      (queueView ((strictMediate rt world inst session request result).runtime.resources i)
        (life.logMediation i session request
          (strictMediate rt world inst session request result))) := by
  rw [queueView_logMediation]
  rcases strictMediate_cases rt world inst session request result with
    ⟨status, world', heq⟩ | ⟨plan, _, _, heq⟩
  · rw [heq]
    exact .refl
  · rw [heq, MediationPlan.conclude_runtime]
    have hreserved : QueueSteps allowed (queueView (rt.resources i) life)
        (queueView ((plan.reserved rt).resources i) life) :=
      queueSteps_quiet i rt life plan.session _ (fun _ => rfl)
    apply (hreserved.trans (queueSteps_run i (plan.execute (plan.invocation rt)) _ life)).trans
    exact queueSteps_quiet i (plan.adapterRun rt).runtime _ plan.session _ (fun _ => rfl)

theorem queueView_logFlush (life : Life) (session : Handle)
    (request : Option (BatchedFlushRequest σ)) (f : Flushed σ) :
    queueView r (life.logFlush i session request f) = queueView r life := by
  unfold Life.logFlush
  split
  · split <;> rfl
  · rfl

theorem queueView_logReconciliation (life : Life) (session : Handle)
    (reconciliation : Option EvidenceReconciliation) (o : Outcome Unit) :
    queueView r (life.logReconciliation i session reconciliation o) = queueView r life := by
  unfold Life.logReconciliation
  split
  · split <;> rfl
  · rfl

theorem queueSteps_flush (world : σ) (life : Life) (inst session : Handle)
    (request : Option (BatchedFlushRequest σ)) (result : Option BatchedFlushResult) :
    QueueSteps allowed (queueView (rt.resources i) life)
      (queueView ((batchedFlush rt world inst session request result).runtime.resources i)
        life) := by
  rcases batchedFlush_cases rt world inst session request result with
    ⟨_, heq⟩ | ⟨plan, written, _, _, _, heq⟩
  · rw [heq]
  · rw [heq]
    exact queueSteps_quiet i rt life plan.session _ (fun _ => rfl)

theorem queueSteps_reconcile (reconciliation : Option EvidenceReconciliation) :
    QueueSteps allowed (queueView (rt.resources i) life)
      (queueView ((sessionReconcileEvidence rt inst session reconciliation).runtime.resources i)
        life) := by
  rcases reconcile_cases rt inst session reconciliation with
    ⟨_, heq⟩ | ⟨s, filled, _, ⟨_, heq⟩ | ⟨loaded, _, _, heq⟩⟩
  · rw [heq]
  · rw [heq]
    exact queueSteps_quiet i rt life s _ (fun _ => rfl)
  · rw [heq]
    exact queueSteps_quiet i rt life s _ (fun _ => rfl)

theorem queueView_logPoll (life : Life) (lives : Fin maxResources → Life) (session : Handle)
    (request : Option PollRequest) (o : Outcome PollResult) :
    queueView r (life.logPoll i lives session request o) = queueView r life := by
  unfold Life.logPoll
  split <;> rfl

theorem queueSteps_poll (t : Tracked σ) (inst session : Handle) (request : Option PollRequest)
    (result : Option PollResult) : QueueSteps allowed (t.queueView i)
      ((step t (.pollBatch inst session request result)).queueView i) := by
  change QueueSteps allowed _ (queueView _ (Life.logPoll i _ _ _ _ _))
  rw [queueView_logPoll]
  change QueueSteps allowed (queueView (t.runtime.resources i) (t.life i))
    (queueView ((pollBatch t.runtime inst session request result).runtime.resources i)
      ((t.life i).carry (t.runtime.resources i)
        ((pollBatch t.runtime inst session request result).runtime.resources i)))
  rcases pollBatch_cases t.runtime inst session request result with
    ⟨heq, _⟩ | ⟨plan, l, hdelivers⟩
  · rw [heq, carry_of_same _ rfl]
  · rw [hdelivers.apply i]
    split
    · next hil =>
      subst hil
      rw [carry_of_changed _ (nextGeneration_ne _)]
      exact .single (.renew _ rfl rfl)
    · rw [carry_of_same]
      · by_cases his : i = plan.session
        · rw [if_pos his]
          exact .single (.poll _ _ _)
        · rw [if_neg his]
          exact .refl
      · rfl

/-- Every publication of the call meets `allowed` at its session. -/
def Call.Publishes (allowed : QueueView → List EventHeader → Prop) (t : Tracked σ) : Call σ → Prop
  | .publishBatch inst session request result =>
    ∀ plan, publishAdmission t.runtime inst session request result = .ok plan →
      allowed (t.queueView plan.session) plan.request.items
  | _ => True

instance [∀ v headers, Decidable (allowed v headers)] (t : Tracked σ) (c : Call σ) :
    Decidable (c.Publishes allowed t) := by
  rcases c
  all_goals first
    | exact inferInstanceAs (Decidable (∀ plan, _ = Except.ok plan → _))
    | exact instDecidableTrue

/-- **Every call makes queue moves in every slot.** -/
theorem queue_step (t : Tracked σ) (c : Call σ) (hallowed : c.Publishes allowed t) :
    QueueSteps allowed (t.queueView i) ((step t c).queueView i) := by
  by_cases hc : c.IsLifecycle
  · exact queueSteps_lifecycle i hc
  by_cases hkeeps : c.KeepsAllocations
  · change QueueSteps allowed _ (queueView _ ((step t c).life i))
    rw [step_life_of_keeps hkeeps i]
    cases c with
    | publishBatch inst session request result =>
      refine queueSteps_publish i t.runtime (t.life i) inst session request result ?_
      rintro plan hadmission rfl
      exact hallowed plan hadmission
    | submitBatch inst session request result =>
      exact queueSteps_submit i t.runtime (t.life i) inst session request result
    | batchAck inst session lease =>
      exact queueSteps_ack i t.runtime (t.life i) inst session lease
    | strictMediate inst session request result =>
      exact queueSteps_mediate i t.runtime t.world (t.life i) inst session request result
    | batchedFlush inst session request result =>
      change QueueSteps allowed _ (queueView _ (Life.logFlush i _ _ _ _))
      rw [queueView_logFlush]
      exact queueSteps_flush i t.runtime t.world (t.life i) inst session request result
    | sessionReconcileEvidence inst session reconciliation =>
      change QueueSteps allowed _ (queueView _ (Life.logReconciliation i _ _ _ _))
      rw [queueView_logReconciliation]
      exact queueSteps_reconcile i t.runtime (t.life i) inst session reconciliation
    | sessionRelease inst session =>
      change QueueSteps allowed _ (queueView ((sessionRelease t.runtime inst session).runtime.resources i)
        (t.life i))
      rcases sessionRelease_cases t.runtime inst session with heq | ⟨j, _, _, heq⟩
      · rw [heq]
        exact .refl
      · rw [heq]
        exact queueSteps_released i t.runtime (t.life i) j
    | arenaRelease inst arena =>
      change QueueSteps allowed _ (queueView ((arenaRelease t.runtime inst arena).runtime.resources i)
        (t.life i))
      rcases arenaRelease_cases t.runtime inst arena with heq | ⟨j, _, _, _, heq⟩
      · rw [heq]
        exact .refl
      · rw [heq]
        exact queueSteps_modify i t.runtime (t.life i) j _ (.single (.release _))
    | arenaRecycle inst arena expected next =>
      change QueueSteps allowed _ (queueView
        ((arenaRecycle t.runtime inst arena expected next).runtime.resources i) (t.life i))
      rcases arenaRecycle_cases t.runtime inst arena expected next with heq | ⟨j, _, _, _, heq⟩
      · rw [heq]
        exact .refl
      · rw [heq]
        exact queueSteps_quiet i t.runtime (t.life i) j _ (fun _ => rfl)
    | _ => exact hkeeps.elim
  · cases c with
    | pollBatch inst session request result =>
      exact queueSteps_poll i t inst session request result
    | _ => first | exact absurd trivial hc | exact absurd trivial hkeeps

end

end PooFlow
