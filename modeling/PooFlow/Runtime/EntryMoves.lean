import PooFlow.Runtime.Frames

namespace PooFlow

open Foundation Function

variable {σ : Type}

/-- What a call may want to do to an entry. A life-cycle call works on whatever
its handles resolve to, by the kind they say. -/
inductive Work where
  | named (kind : Kind)
  | publish (headers : List EventHeader)
  | poll | submit | mediate | reconcile
  /-- the session of an acknowledgement -/
  | acknowledge
  /-- the lease of an acknowledgement -/
  | settle

/-- One move of an entry whose work meets `allowed`. -/
inductive EntryMove (allowed : Resource → Work → Prop) : Resource → Resource → Prop where
  | restated (r : Resource) {state : SessionState} (outstanding : ℕ)
      (hhalted : state = .cancelled ∨ state = .closed) (hunclosed : r.state ≠ .closed)
      (hallowed : allowed r (.named .session)) :
      EntryMove allowed r { r with state, outstanding }
  /-- a release through a handle of the given kind -/
  | released (r : Resource) {kind : Kind} (hkind : kind ≠ .lease)
      (hallowed : allowed r (.named kind)) : EntryMove allowed r r.release
  | releasedArena (r : Resource) (hallowed : allowed r (.named .arena)) :
      EntryMove allowed r r.releaseArena
  | recycled (r : Resource) (generation : ℕ) (hallowed : allowed r (.named .arena)) :
      EntryMove allowed r (r.recycle generation)
  /-- the lease of an acknowledgement -/
  | settled (r : Resource) {admitted : Resource} (hallowed : allowed admitted .settle) :
      EntryMove allowed r r.release
  | published (r : Resource) {arenaCapacity : ℕ} (arenaId arenaGeneration : ℕ)
      {headers : List EventHeader}
      (hroom : headers.length ≤ r.queue.capacity - r.queue.pending.length)
      (hcheck : checkPublish arenaCapacity r.queue.lastSequence? headers = .ok ())
      (hallowed : allowed r (.publish headers)) :
      EntryMove allowed r { r with queue := r.queue.publish arenaId arenaGeneration headers }
  | polled (r : Resource) (arenaId arenaGeneration : ℕ) (hallowed : allowed r .poll) :
      EntryMove allowed r { r with queue := r.queue.poll arenaId arenaGeneration }
  | counted (r : Resource) (inflightCount : ℕ) : EntryMove allowed r { r with inflightCount }
  | submitted (r : Resource) {arenaCapacity : ℕ} (arenaId arenaGeneration : ℕ)
      {headers : List EventHeader} (hcheck : checkSubmit arenaCapacity none headers = .ok ())
      (hallowed : allowed r .submit) :
      EntryMove allowed r
        (r.submitted (r.queue.submit arenaId arenaGeneration headers).pending)
  | acknowledged (r : Resource) {admitted : Resource} (arenaId first last : ℕ)
      (hallowed : allowed admitted .acknowledge) :
      EntryMove allowed r { r with queue := r.queue.acknowledge arenaId first last }
  /-- a mediation that was admitted in the entry `admitted` of this state -/
  | mediated (r : Resource) {admitted : Resource} (mediation : MediationState)
      (hstate : r.state = admitted.state) (hallowed : allowed admitted .mediate) :
      EntryMove allowed r { r with mediation }
  | flushed (r : Resource) (after : Digest) (hopened : r.state = .opened) :
      EntryMove allowed r { r with mediation := r.mediation.flush after }
  | wiped (r : Resource) (huntouched : r.Untouched) (hallowed : allowed r .reconcile) :
      EntryMove allowed r { r with mediation := r.mediation.wipeNonces }
  | reconciled (r : Resource) {loaded : MediationState}
      {reconciliation : EvidenceReconciliation} (huntouched : r.Untouched)
      (hload : loadNonces r.mediation reconciliation.nonces = some loaded)
      (hallowed : allowed r .reconcile) :
      EntryMove allowed r (r.reconciled loaded reconciliation)

abbrev EntrySteps (allowed : Resource → Work → Prop) : Resource → Resource → Prop :=
  Relation.ReflTransGen (EntryMove allowed)

/-- What a call does to an entry: it allocates a dead slot anew, or it moves. -/
inductive EntryStep (allowed : Resource → Work → Prop) (r : Resource) : Resource → Prop where
  | renewed {instanceId : ℕ} {kind : Kind} {entry : Resource} (hfree : r.alive = false)
      (hdresses : Dresses (r.fresh instanceId kind) entry) : EntryStep allowed r entry
  | moved {r' : Resource} (h : EntrySteps allowed r r') : EntryStep allowed r r'

variable {allowed : Resource → Work → Prop}

theorem EntrySteps.invariant {I : Resource → Prop}
    (hmove : ∀ r r', EntryMove allowed r r' → I r → I r') {r r' : Resource}
    (h : EntrySteps allowed r r') (hr : I r) : I r' := by
  induction h with
  | refl => exact hr
  | tail _ hlast ih => exact hmove _ _ hlast ih

theorem EntryMove.keeps {r r' : Resource} (h : EntryMove allowed r r') : r.Keeps r' := by
  cases h <;> exact ⟨rfl, rfl, rfl⟩

theorem EntrySteps.keeps {r r' : Resource} (h : EntrySteps allowed r r') : r.Keeps r' := by
  apply h.invariant (I := fun r' => r.Keeps r') _ Resource.Keeps.rfl
  intro a b hmove hkeeps
  have hlast := hmove.keeps
  exact ⟨hlast.generation.trans hkeeps.generation, hlast.kind.trans hkeeps.kind,
    hlast.instanceId.trans hkeeps.instanceId⟩

theorem EntryMove.alive {r r' : Resource} (h : EntryMove allowed r r')
    (halive : r'.alive = true) : r.alive = true := by
  cases h with
  | released | releasedArena | settled => cases halive
  | _ => exact halive

theorem EntrySteps.alive {r r' : Resource} (h : EntrySteps allowed r r')
    (halive : r'.alive = true) : r.alive = true := by
  induction h with
  | refl => exact halive
  | tail _ hlast ih => exact ih (hlast.alive halive)

/-- The adapter's submissions meet `allowed`. -/
def AdapterProgram.Works (allowed : Fin maxResources → Resource → Work → Prop) :
    AdapterProgram → Runtime → Prop
  | .done _ _, _ => True
  | .submit instance_ session request result next, rt =>
    (∀ plan, submitAdmission rt instance_ session request result = .ok plan →
      allowed plan.session (rt.resources plan.session) .submit) ∧
    (next (submitBatch rt instance_ session request result).status
      (submitBatch rt instance_ session request result).written).Works allowed
        (submitBatch rt instance_ session request result).runtime

/-- The work of a call meets `allowed`: what its admission lets it do, with the
submissions of its adapter, or what the handles of a life-cycle call resolve to. -/
def Call.Works (allowed : Fin maxResources → Resource → Work → Prop) (t : Tracked σ) : Call σ → Prop
  | .publishBatch inst session request result =>
    ∀ plan, publishAdmission t.runtime inst session request result = .ok plan →
      allowed plan.session (t.runtime.resources plan.session) (.publish plan.request.items)
  | .pollBatch inst session request result =>
    ∀ plan, pollAdmission t.runtime inst session request result = .ok plan →
      allowed plan.session (t.runtime.resources plan.session) .poll
  | .submitBatch inst session request result =>
    ∀ plan, submitAdmission t.runtime inst session request result = .ok plan →
      allowed plan.session (t.runtime.resources plan.session) .submit
  | .batchAck inst session lease =>
    ∀ plan, ackAdmission t.runtime inst session lease = .ok plan →
      allowed plan.session (t.runtime.resources plan.session) .acknowledge ∧
      allowed plan.lease (t.runtime.resources plan.lease) .settle
  | .strictMediate inst session request result =>
    ∀ plan, mediationAdmission t.runtime inst session request result = .ok plan →
      allowed plan.session (t.runtime.resources plan.session) .mediate ∧
      ((plan.reservationAnswer t.runtime t.world session).1 = .ok →
        (plan.execute (plan.invocation t.runtime)).Works allowed (plan.reserved t.runtime))
  | .batchedFlush .. => True
  | .sessionReconcileEvidence inst session reconciliation =>
    ∀ plan, reconcileAdmission t.runtime inst session reconciliation = .ok plan →
      allowed plan.1 (t.runtime.resources plan.1) .reconcile
  | c =>
    ∀ h ∈ c.handles, ∀ i, resolve t.runtime h h h.kind = .ok i →
      allowed i (t.runtime.resources i) (.named h.kind)

variable {allowed : Fin maxResources → Resource → Work → Prop}

theorem AdapterProgram.works_of_submit
    (h : ∀ i r, allowed i r .submit) (program : AdapterProgram) (rt : Runtime) :
    program.Works allowed rt := by
  induction program generalizing rt with
  | done status result => trivial
  | submit inst session request result next ih => exact ⟨fun _ _ => h _ _, ih _ _ _⟩

theorem Call.works_of_forall
    (h : ∀ i r w, allowed i r w) (t : Tracked σ) (c : Call σ) : c.Works allowed t := by
  cases c with
  | strictMediate =>
    exact fun _ _ => ⟨h _ _ _, fun _ =>
      AdapterProgram.works_of_submit (fun _ _ => h _ _ _) _ _⟩
  | _ => simp [Call.Works, h]

theorem dresses_lease (plan : BatchPlan PollRequest PollResult) (rt : Runtime) (sessionId : ℕ)
    (r : Resource) (instanceId : ℕ) : Dresses (r.fresh instanceId .lease)
      (plan.leaseEntry rt sessionId (r.fresh instanceId .lease)) :=
  ⟨rfl, rfl, rfl, rfl, rfl, fun _ => rfl, rfl, rfl, fun _ => rfl⟩

instance AdapterProgram.Works.decidable
    {allowed : Fin maxResources → Resource → Work → Prop} [∀ i r w, Decidable (allowed i r w)] :
    ∀ program rt, Decidable (AdapterProgram.Works allowed program rt)
  | .done _ _, _ => isTrue trivial
  | .submit inst session request result next, rt =>
    have : Decidable (AdapterProgram.Works allowed
        (next (submitBatch rt inst session request result).status
          (submitBatch rt inst session request result).written)
        (submitBatch rt inst session request result).runtime) :=
      AdapterProgram.Works.decidable _ _
    inferInstanceAs (Decidable ((∀ plan, _ = Except.ok plan → _) ∧ _))

instance {allowed : Fin maxResources → Resource → Work → Prop}
    [∀ i r w, Decidable (allowed i r w)] (t : Tracked σ) (c : Call σ) :
    Decidable (c.Works allowed t) := by
  rcases c
  all_goals first
    | exact inferInstanceAs (Decidable (∀ plan, _ = Except.ok plan → _))
    | exact instDecidableTrue
    | exact inferInstanceAs (Decidable (∀ h ∈ Call.handles _, ∀ i, _ = Except.ok i → _))

section

variable {allowed : Fin maxResources → Resource → Work → Prop} {t : Tracked σ}
  (i : Fin maxResources)

theorem entrySteps_modify (rt : Runtime) (j : Fin maxResources) (f : Resource → Resource)
    (hf : EntryMove (allowed j) (rt.resources j) (f (rt.resources j))) :
    EntrySteps (allowed i) (rt.resources i) ((rt.modify j f).resources i) := by
  rw [Runtime.modify_apply]
  split
  · next hij =>
    subst hij
    exact .single hf
  · exact .refl

variable {inst : Handle}

theorem named_of_resolve {handles : List Handle} {rt : Runtime}
    (hnamed : ∀ h ∈ handles, ∀ i, resolve rt h h h.kind = .ok i →
      allowed i (rt.resources i) (.named h.kind))
    {handle : Handle} {kind : Kind} {j : Fin maxResources} (hmem : handle ∈ handles)
    (hresolve : resolve rt inst handle kind = .ok j) :
    allowed j (rt.resources j) (.named kind) := by
  obtain ⟨hinstance, hkind, hslot, hgeneration, hreleased, halive, hentry⟩ :=
    resolve_eq_ok.1 hresolve
  have hself : resolve rt handle handle handle.kind = .ok j := resolve_eq_ok.2
    ⟨rfl, rfl, hslot, hgeneration, hreleased, halive, hentry.trans hinstance.symm⟩
  have hallowed := hnamed handle hmem j hself
  rwa [hkind] at hallowed

variable {c : Call σ}

theorem Call.Works.named (hc : c.IsLifecycle) (h : c.Works allowed t) :
    ∀ h ∈ c.handles, ∀ i, resolve t.runtime h h h.kind = .ok i →
      allowed i (t.runtime.resources i) (.named h.kind) := by
  cases c <;> first | exact h | exact hc.elim

theorem entryStep_lifecycle (hc : c.IsLifecycle) (hworks : c.Works allowed t) :
    EntryStep (allowed i) (t.runtime.resources i) ((step t c).runtime.resources i) := by
  have hmove := lifecycle_move hc t.runtime t.world
  have hnamed := hworks.named hc
  change LifecycleMove t.runtime c.handles (step t c).runtime.resources _ at hmove
  generalize (step t c).runtime.resources = table, (c.answer t.runtime t.world).issued = issued
    at hmove ⊢
  have hother : ∀ {j : Fin maxResources} {entry : Resource}, i ≠ j →
      EntryStep (allowed i) (t.runtime.resources i)
        (update t.runtime.resources j entry i) := by
    intro j entry hij
    rw [update_of_ne hij]
    exact .moved .refl
  cases hmove with
  | same => exact .moved .refl
  | @allocated j _ _ _ hfree hkind hdresses =>
    by_cases hij : i = j
    · subst hij
      rw [update_self]
      exact .renewed hfree hdresses
    · exact hother hij
  | @restated _ _ j state outstanding hhalted hunclosed hmem hresolve =>
    by_cases hij : i = j
    · subst hij
      rw [update_self]
      exact .moved (.single (.restated _ outstanding hhalted hunclosed
        (named_of_resolve hnamed hmem hresolve)))
    · exact hother hij
  | @released _ _ _ j hmem hresolve hkind =>
    by_cases hij : i = j
    · subst hij
      rw [update_self]
      exact .moved (.single (.released _ hkind.2.2 (named_of_resolve hnamed hmem hresolve)))
    · exact hother hij

variable {session : Handle}

theorem entrySteps_publish {request : Option PublishRequest} {result : Option PublishResult}
    (hallowed : ∀ plan, publishAdmission t.runtime inst session request result = .ok plan →
      allowed plan.session (t.runtime.resources plan.session) (.publish plan.request.items)) :
    EntrySteps (allowed i) (t.runtime.resources i)
      ((publishBatch t.runtime inst session request result).runtime.resources i) := by
  rcases Outcome.ofAdmission_eq t.runtime (publishAdmission t.runtime inst session request result)
    (·.publish t.runtime) with ⟨_, _, heq⟩ | ⟨plan, hadmission, heq⟩
  · rw [publishBatch, heq]
    exact .refl
  · obtain ⟨_, _, _, hroom, hcheck⟩ := publishAdmission_ok hadmission
    rw [publishBatch, heq, BatchPlan.publish_runtime]
    refine entrySteps_modify i _ _ _ (.published _ _ _ ?_ hcheck (hallowed plan hadmission))
    simpa [PublishRequest.items, viewHeaders] using hroom

theorem entrySteps_submit (rt : Runtime)
    {request : Option SubmitRequest} {result : Option SubmitResult}
    (hallowed : ∀ plan, submitAdmission rt inst session request result = .ok plan →
      allowed plan.session (rt.resources plan.session) .submit) :
    EntrySteps (allowed i) (rt.resources i)
      ((submitBatch rt inst session request result).runtime.resources i) := by
  rcases Outcome.ofAdmission_eq rt (submitAdmission rt inst session request result)
    (·.submit rt) with ⟨_, _, heq⟩ | ⟨plan, hadmission, heq⟩
  · rw [submitBatch, heq]
    exact .refl
  · obtain ⟨_, _, _, hcheck⟩ := submitAdmission_ok hadmission
    rw [submitBatch, heq, BatchPlan.submit_runtime]
    exact entrySteps_modify i _ _ _ (.submitted _ _ _ hcheck (hallowed plan hadmission))

theorem entrySteps_run (program : AdapterProgram) (rt : Runtime)
    (hworks : program.Works allowed rt) :
    EntrySteps (allowed i) (rt.resources i) ((program.run rt).runtime.resources i) := by
  induction program generalizing rt with
  | done status result => exact .refl
  | submit inst session request result next ih =>
    exact (entrySteps_submit i rt hworks.1).trans (ih _ _ _ hworks.2)

theorem run_state (program : AdapterProgram) (rt : Runtime) :
    ((program.run rt).runtime.resources i).state = (rt.resources i).state := by
  induction program generalizing rt with
  | done status result => rfl
  | submit inst session request result next ih =>
    refine (ih _ _ (submitBatch rt inst session request result).runtime).trans ?_
    rcases Outcome.ofAdmission_eq rt (submitAdmission rt inst session request result)
      (·.submit rt) with ⟨_, _, heq⟩ | ⟨plan, _, heq⟩
    · rw [submitBatch, heq, Outcome.rejected_runtime]
    · rw [submitBatch, heq, BatchPlan.submit_runtime, Runtime.modify_apply]
      split
      · next hi => exact congrArg (fun j => (rt.resources j).state) hi.symm
      · rfl

theorem entrySteps_mediate
    {request : Option (StrictMediationRequest σ)} {result : Option StrictMediationResult}
    (hworks : (Call.strictMediate inst session request result).Works allowed t) :
    EntrySteps (allowed i) (t.runtime.resources i)
      ((strictMediate t.runtime t.world inst session request result).runtime.resources i) := by
  rcases strictMediate_cases t.runtime t.world inst session request result with
    ⟨status, world', heq⟩ | ⟨plan, hadmission, hreserved, heq⟩
  · rw [heq]
  · obtain ⟨hallowed, hprogram⟩ := hworks plan hadmission
    have hreserve : EntrySteps (allowed i) (t.runtime.resources i)
        ((plan.reserved t.runtime).resources i) :=
      entrySteps_modify i _ _ _ (.mediated _ _ rfl hallowed)
    have hrun := entrySteps_run i _ _ (hprogram hreserved)
    have hstate : ((plan.adapterRun t.runtime).runtime.resources plan.session).state =
        (t.runtime.resources plan.session).state := by
      rw [MediationPlan.adapterRun, run_state, MediationPlan.reserved, Runtime.modify_self]
    rw [heq, MediationPlan.conclude_runtime]
    exact (hreserve.trans hrun).trans
      (entrySteps_modify i _ _ _ (.mediated _ _ hstate hallowed))

theorem entrySteps_ack {lease : Handle}
    (hallowed : ∀ plan, ackAdmission t.runtime inst session lease = .ok plan →
      allowed plan.session (t.runtime.resources plan.session) .acknowledge ∧
      allowed plan.lease (t.runtime.resources plan.lease) .settle) :
    EntrySteps (allowed i) (t.runtime.resources i)
      ((batchAck t.runtime inst session lease).runtime.resources i) := by
  rcases Outcome.ofAdmission_eq t.runtime (ackAdmission t.runtime inst session lease)
    (·.acknowledge t.runtime) with ⟨_, _, heq⟩ | ⟨plan, hadmission, heq⟩
  · rw [batchAck, heq]
    exact .refl
  · rw [batchAck, heq, AckPlan.acknowledge_runtime]
    have harena : EntrySteps (allowed i) (t.runtime.resources i)
        ((t.runtime.modify plan.arena (t.runtime.resources plan.lease).settleLease).resources i) :=
      entrySteps_modify i t.runtime plan.arena _ (.counted _ _)
    have hsession := harena.trans (entrySteps_modify i _ plan.session
      (t.runtime.resources plan.lease).acknowledgeLease (.acknowledged _ _ _ _ (hallowed plan hadmission).1))
    exact hsession.trans (entrySteps_modify i _ plan.lease Resource.release
      (.settled _ (hallowed plan hadmission).2))

theorem entrySteps_flush {request : Option (BatchedFlushRequest σ)}
    {result : Option BatchedFlushResult} : EntrySteps (allowed i) (t.runtime.resources i)
      ((batchedFlush t.runtime t.world inst session request result).runtime.resources i) := by
  rcases batchedFlush_cases t.runtime t.world inst session request result with
    ⟨_, heq⟩ | ⟨plan, written, hadmission, _, _, heq⟩
  · rw [heq]
  · rw [heq]
    exact entrySteps_modify i _ _ _ (.flushed _ _ (flushAdmission_ok hadmission).2.2.2.1)

theorem entrySteps_reconcile {reconciliation : Option EvidenceReconciliation}
    (hallowed : ∀ plan, reconcileAdmission t.runtime inst session reconciliation = .ok plan →
      allowed plan.1 (t.runtime.resources plan.1) .reconcile) :
    EntrySteps (allowed i) (t.runtime.resources i)
      ((sessionReconcileEvidence t.runtime inst session reconciliation).runtime.resources i) := by
  rcases reconcile_cases t.runtime inst session reconciliation with
    ⟨_, heq⟩ | ⟨s, filled, hadmission, ⟨_, heq⟩ | ⟨loaded, hload, _, heq⟩⟩
  · rw [heq]
  · rw [heq]
    exact entrySteps_modify i _ _ _
      (.wiped _ (reconcileAdmission_ok hadmission).2.2.2 (hallowed _ hadmission))
  · rw [heq]
    exact entrySteps_modify i _ _ _
      (.reconciled _ (reconcileAdmission_ok hadmission).2.2.2 hload (hallowed _ hadmission))

theorem entryStep_poll {request : Option PollRequest} {result : Option PollResult}
    (hallowed : ∀ plan, pollAdmission t.runtime inst session request result = .ok plan →
      allowed plan.session (t.runtime.resources plan.session) .poll) :
    EntryStep (allowed i) (t.runtime.resources i)
      ((pollBatch t.runtime inst session request result).runtime.resources i) := by
  rcases pollBatch_cases t.runtime inst session request result with
    ⟨heq, _⟩ | ⟨plan, l, hdelivers⟩
  · rw [heq]
    exact .moved .refl
  · have hadmitted : allowed plan.session (t.runtime.resources plan.session) .poll := by
      rcases hadmission : pollAdmission t.runtime inst session request result with status | plan'
      · -- a rejected poll does not deliver
        have hstatus := hdelivers.status_eq
        rw [pollBatch, hadmission] at hstatus
        exact absurd (congrArg Except.error hstatus ▸ hadmission) pollAdmission_ne_error_ok
      · have hsame : plan'.session = plan.session := Except.ok.inj
          ((pollAdmission_ok hadmission).1.symm.trans hdelivers.session_resolved)
        rw [← hsame]
        exact hallowed plan' hadmission
    rw [hdelivers.apply i]
    split
    · next hil =>
      subst hil
      exact .renewed hdelivers.free (dresses_lease plan t.runtime _ _ _)
    · by_cases his : i = plan.session
      · rw [if_pos his]
        have hpolled : EntryMove (allowed i) (t.runtime.resources i) _ :=
          .polled _ plan.request.arena.resourceId plan.request.arenaGeneration (his ▸ hadmitted)
        exact .moved (.tail (.single hpolled) (.counted _ _))
      · rw [if_neg his]
        exact .moved (.single (.counted _ _))

/-- **Every call makes entry moves in every slot.** -/
theorem entry_step (t : Tracked σ) (c : Call σ) (hworks : c.Works allowed t) :
    EntryStep (allowed i) (t.runtime.resources i) ((step t c).runtime.resources i) := by
  by_cases hc : c.IsLifecycle
  · exact entryStep_lifecycle i hc hworks
  cases c with
  | publishBatch inst session request result => exact .moved (entrySteps_publish i hworks)
  | pollBatch inst session request result => exact entryStep_poll i hworks
  | submitBatch inst session request result => exact .moved (entrySteps_submit i _ hworks)
  | batchAck inst session lease => exact .moved (entrySteps_ack i hworks)
  | strictMediate inst session request result => exact .moved (entrySteps_mediate i hworks)
  | batchedFlush inst session request result => exact .moved (entrySteps_flush i)
  | sessionReconcileEvidence inst session reconciliation =>
    exact .moved (entrySteps_reconcile i hworks)
  | sessionRelease inst session =>
    change EntryStep _ _ ((sessionRelease t.runtime inst session).runtime.resources i)
    rcases sessionRelease_cases t.runtime inst session with heq | ⟨j, _, hresolve, heq⟩
    · rw [heq]
      exact .moved .refl
    · have hallowed := named_of_resolve hworks (by simp [Call.handles]) hresolve
      rw [heq]
      exact .moved (entrySteps_modify i _ _ _
        (.released _ (show Kind.session ≠ .lease by decide) hallowed))
  | arenaRelease inst arena =>
    change EntryStep _ _ ((arenaRelease t.runtime inst arena).runtime.resources i)
    rcases arenaRelease_cases t.runtime inst arena with heq | ⟨j, _, hresolve, _, heq⟩
    · rw [heq]
      exact .moved .refl
    · rw [heq]
      exact .moved (entrySteps_modify i _ _ _
        (.releasedArena _ (named_of_resolve hworks (by simp [Call.handles]) hresolve)))
  | arenaRecycle inst arena expected next =>
    change EntryStep _ _ ((arenaRecycle t.runtime inst arena expected next).runtime.resources i)
    rcases arenaRecycle_cases t.runtime inst arena expected next with
      heq | ⟨j, _, hresolve, _, heq⟩
    · rw [heq]
      exact .moved .refl
    · rw [heq]
      exact .moved (entrySteps_modify i _ _ _
        (.recycled _ _ (named_of_resolve hworks (by simp [Call.handles]) hresolve)))
  | _ => exact absurd trivial hc

theorem serial_step (t : Tracked σ) (c : Call σ) : ((step t c).life i).serial =
      if ((step t c).runtime.resources i).generation = (t.runtime.resources i).generation then
        (t.life i).serial
      else (t.life i).serial + 1 := by
  refine (log_origin c t i _).1.trans ?_
  unfold Life.carry
  split <;> split <;> first | rfl | contradiction

theorem moved_of_serial (hworks : c.Works allowed t) (hsame : ((step t c).life i).serial = (t.life i).serial) :
    EntrySteps (allowed i) (t.runtime.resources i) ((step t c).runtime.resources i) := by
  have hstep := entry_step i t c hworks
  rw [serial_step] at hsame
  generalize (step t c).runtime.resources i = r' at hstep hsame ⊢
  cases hstep with
  | renewed hfree hdresses =>
    rw [if_neg (hdresses.generation ▸ nextGeneration_ne _)] at hsame
    omega
  | moved hmoves => exact hmoves

end

theorem serial_le_run (t : Tracked σ) (calls : List (Call σ)) (i : Fin maxResources) :
    (t.life i).serial ≤ ((run step t calls).life i).serial := by
  refine run_invariant (I := fun t' : Tracked σ => (t.life i).serial ≤ (t'.life i).serial)
    (fun t' c hle => ?_) (le_refl _) calls
  rw [serial_step]
  split <;> omega

theorem life_invariant (allowed : Fin maxResources → Resource → Work → Prop) {I : Resource → Prop}
    {i : Fin maxResources} (hmove : ∀ r r', EntryMove (allowed i) r r' → I r → I r')
    {t : Tracked σ} {calls : List (Call σ)} (hworks : Along step (fun t c => c.Works allowed t) t calls)
    (hsame : ((run step t calls).life i).serial = (t.life i).serial)
    (hI : I (t.runtime.resources i)) : I ((run step t calls).runtime.resources i) := by
  induction calls generalizing t with
  | nil => exact hI
  | cons c rest ih =>
    have hafter := serial_le_run (step t c) rest i
    have hbefore := serial_le_run t [c] i
    rw [run_cons] at hsame hbefore ⊢
    rw [run_nil] at hbefore
    have hkept : ((step t c).life i).serial = (t.life i).serial := by omega
    have hmoves := moved_of_serial i hworks.1 hkept
    exact ih hworks.2 (hsame.trans hkept.symm) (hmoves.invariant hmove hI)

end PooFlow
