import PooFlow.Runtime.Frames

namespace PooFlow

open Foundation LinearProbing

variable {σ : Type}

structure Verdict where
  durability : Durability
  adapterStatus : Status
  adapterResult : AdapterResult
  evidenceStatus : Status
  evidence : EvidenceResult

def Verdict.Commits (x : Verdict) : Prop :=
  (classifyAdapter x.adapterStatus x.adapterResult).1 = .committed

instance (x : Verdict) : Decidable x.Commits := inferInstanceAs (Decidable (_ = _))

def Verdict.judgement (x : Verdict) (before : Digest) : Judgement :=
  judgeEvidence
    (bufferOutcome x.durability (classifyAdapter x.adapterStatus x.adapterResult).1)
    before x.evidenceStatus x.evidence

variable {before : Digest} (x : Verdict)

theorem judgeEvidence_valid_of_ne {outcome : MediationOutcome} {status : Status}
    {result : EvidenceResult}
    (h : (judgeEvidence outcome before status result).outcome ≠ .indeterminate) :
    (judgeEvidence outcome before status result).valid = true ∧
      result.wellFormed status ∧
      (judgeEvidence outcome before status result).outcome = outcome := by
  unfold judgeEvidence at h ⊢
  split at h
  · exact absurd rfl h
  · next hformed =>
    split at h
    · exact absurd rfl h
    · next hroot =>
      rw [if_neg hformed, if_neg hroot]
      exact ⟨rfl, not_not.1 hformed, rfl⟩

/-- A mediation is settled as committed only if it is strict, the adapter
committed and the evidence is well formed. -/
theorem Verdict.committed (h : (x.judgement before).outcome = .committed) :
    (x.judgement before).valid = true ∧ x.durability ≠ .batched ∧ x.Commits ∧
      x.evidence.wellFormed x.evidenceStatus := by
  unfold Verdict.judgement at h ⊢
  obtain ⟨hvalid, hformed, hsame⟩ := judgeEvidence_valid_of_ne (by rw [h]; simp)
  rw [h, bufferOutcome] at hsame
  split at hsame
  · cases hsame
  · next hnot =>
    exact ⟨hvalid, fun hbatched => hnot ⟨hsame.symm, hbatched⟩, hsame.symm, hformed⟩

theorem Verdict.buffered (h : (x.judgement before).outcome = .buffered) :
    (x.judgement before).valid = true := by
  unfold Verdict.judgement at h ⊢
  exact (judgeEvidence_valid_of_ne (by rw [h]; simp)).1

structure MediationView where
  mediation : MediationState
  restored : List CompactId
  executed : List CompactId
  roots : List (Digest × Digest)
  staged : List (StagedLeaf × Digest)

def mediationView (r : Resource) (life : Life) : MediationView :=
  ⟨r.mediation, life.restored, life.executed, life.roots, life.staged⟩

def Tracked.mediationView (t : Tracked σ) (i : Fin maxResources) : MediationView :=
  PooFlow.mediationView (t.runtime.resources i) (t.life i)

/-- The view after a mediation that consumed `nonce` into `cell`. -/
def MediationView.mediated (v : MediationView) (semanticRoot before : Digest)
    (nonce : CompactId) (cell : ℕ) (x : Verdict) : MediationView where
  mediation :=
    ((v.mediation.bindSemanticRoot semanticRoot).consume nonce cell).settle
      (x.judgement before) x.evidence (v.mediation.mediationSequence + 1)
  restored := v.restored
  executed := v.executed ++ [nonce]
  roots :=
    if (x.judgement before).outcome = .committed then
      v.roots ++ [(before, x.evidence.afterExecutionRoot)]
    else v.roots
  staged :=
    if (x.judgement before).outcome = .buffered then
      v.staged ++
        [(⟨v.mediation.mediationSequence + 1, x.evidence.evidenceDigest⟩, before)]
    else v.staged

/-- One move of the mediation fields; its mediations meet `allowed`. -/
inductive MediationMove (allowed : MediationView → Verdict → Prop) :
    MediationView → MediationView → Prop where
  | idle (v : MediationView) : MediationMove allowed v v
  /-- a new allocation of the slot -/
  | renew (v : MediationView) : MediationMove allowed v ⟨{}, [], [], [], []⟩
  /-- a reconciliation that met a nonce twice -/
  | wiped (v : MediationView) (hcount : v.mediation.consumedNonceCount = 0)
      (hsequence : v.mediation.mediationSequence = 0) :
      MediationMove allowed v { v with mediation := v.mediation.wipeNonces }
  | reconciled (v : MediationView) (reconciliation : EvidenceReconciliation)
      {loaded : MediationState} (hformed : reconciliation.WellFormed)
      (hcount : v.mediation.consumedNonceCount = 0)
      (hsequence : v.mediation.mediationSequence = 0)
      (hroot : v.mediation.executionRoot = .zero)
      (hload : loadNonces v.mediation reconciliation.nonces = some loaded) :
      MediationMove allowed v
        { v with
          mediation := loaded.restore reconciliation
          restored := v.restored ++ reconciliation.nonces
          roots := v.roots ++ [(.zero, reconciliation.executionRoot)] }
  | mediated (v : MediationView) (semanticRoot before : Digest) {nonce : CompactId} {cell : ℕ}
      (x : Verdict) (hroot : v.mediation.executionRoot = before)
      (hnonce : admitNonce v.mediation nonce = .ok cell) (hallowed : allowed v x) :
      MediationMove allowed v (v.mediated semanticRoot before nonce cell x)
  | flushed (v : MediationView) (after : Digest) :
      MediationMove allowed v
        { v with
          mediation := v.mediation.flush after
          roots := v.roots ++ [(v.mediation.executionRoot, after)]
          staged := [] }

variable {allowed : MediationView → Verdict → Prop}

def Runtime.KeepsMediation (rt rt' : Runtime) : Prop :=
  ∀ i, (rt'.resources i).mediation = (rt.resources i).mediation

variable (rt : Runtime) (inst session : Handle)

theorem Runtime.KeepsMediation.modify (i : Fin maxResources) (f : Resource → Resource)
    (hf : ∀ r, (f r).mediation = r.mediation) : rt.KeepsMediation (rt.modify i f) := by
  intro j
  rw [Runtime.modify_apply]
  split
  · next hj => rw [hj, hf]
  · rfl

theorem Runtime.KeepsMediation.trans {rt rt' rt'' : Runtime} (h : rt.KeepsMediation rt')
    (h' : rt'.KeepsMediation rt'') : rt.KeepsMediation rt'' :=
  fun i => (h' i).trans (h i)

theorem admitted_keepsMediation {rt : Runtime} {α ρ : Type} {admission : Except Status α}
    {effect : α → Outcome ρ} (heffect : ∀ a, rt.KeepsMediation (effect a).runtime) :
    rt.KeepsMediation (Outcome.ofAdmission rt admission effect).runtime := by
  cases admission with
  | ok a => exact heffect a
  | error status => exact fun _ => rfl

theorem publish_keepsMediation (request : Option PublishRequest) (result : Option PublishResult) :
    rt.KeepsMediation (publishBatch rt inst session request result).runtime := by
  refine admitted_keepsMediation fun plan => ?_
  rw [BatchPlan.publish_runtime]
  exact .modify _ _ _ fun _ => rfl

theorem submitBatch_keepsMediation (request : Option SubmitRequest) (result : Option SubmitResult) :
    rt.KeepsMediation (submitBatch rt inst session request result).runtime := by
  refine admitted_keepsMediation fun plan => ?_
  rw [BatchPlan.submit_runtime]
  exact .modify _ _ _ fun _ => rfl

theorem ack_keepsMediation (lease : Handle) :
    rt.KeepsMediation (batchAck rt inst session lease).runtime := by
  refine admitted_keepsMediation fun plan => ?_
  rw [AckPlan.acknowledge_runtime]
  have harena : rt.KeepsMediation
      (rt.modify plan.arena (rt.resources plan.lease).settleLease) :=
    .modify _ _ _ fun _ => rfl
  have hsession := harena.trans
    (.modify _ plan.session (rt.resources plan.lease).acknowledgeLease fun _ => rfl)
  exact hsession.trans (.modify _ plan.lease Resource.release fun _ => rfl)

theorem run_keepsMediation (program : AdapterProgram) (rt : Runtime) :
    rt.KeepsMediation (program.run rt).runtime := by
  induction program generalizing rt with
  | done status result => exact fun _ => rfl
  | submit inst session request result next ih =>
    exact (submitBatch_keepsMediation rt inst session request result).trans (ih _ _ _)

section

variable (i : Fin maxResources)

theorem mediationView_submissions (r : Resource) (life : Life) (submissions : List Submission) :
    mediationView r (submissions.foldl (Life.logSubmission i) life) = mediationView r life := by
  induction submissions generalizing life with
  | nil => rfl
  | cons s rest ih =>
    rw [List.foldl_cons, ih]
    unfold Life.logSubmission
    split <;> rfl

theorem mediationView_idle {t : Tracked σ} {c : Call σ} (hc : c.KeepsAllocations)
    (hkeeps : t.runtime.KeepsMediation (step t c).runtime)
    (hlog : ∀ r life, mediationView r (c.log t i life) = mediationView r life) :
    (step t c).mediationView i = t.mediationView i := by
  change mediationView _ ((step t c).life i) = _
  rw [step_life_of_keeps hc, hlog]
  unfold Tracked.mediationView mediationView
  rw [hkeeps i]

def KeptOrRenewed (t t' : Tracked σ) : Prop :=
  t'.mediationView i = t.mediationView i ∨
    t'.mediationView i = ⟨{}, [], [], [], []⟩ ∧ (t'.life i).serial = (t.life i).serial + 1

theorem mediationView_lifecycle {t : Tracked σ} {c : Call σ} (hc : c.IsLifecycle) :
    KeptOrRenewed i t (step t c) := by
  have hslot := lifecycle_slot hc (t := t) i
  unfold KeptOrRenewed Tracked.mediationView
  generalize (step t c).runtime.resources i = entry, (step t c).life i = life at hslot ⊢
  cases hslot with
  | same => exact Or.inl rfl
  | allocated hdresses =>
    refine Or.inr ⟨?_, rfl⟩
    rw [mediationView, hdresses.mediation]
  | restated state outstanding => exact Or.inl rfl
  | released => exact Or.inl rfl

theorem mediationView_poll (t : Tracked σ) (inst session : Handle)
    (request : Option PollRequest) (result : Option PollResult) :
    KeptOrRenewed i t (step t (.pollBatch inst session request result)) := by
  have hview : ∀ r life, mediationView r (Life.logPoll i t.life session request
      (pollBatch t.runtime inst session request result) life) = mediationView r life := by
    intro r life
    unfold Life.logPoll
    split <;> rfl
  have hserial : ∀ life, (Life.logPoll i t.life session request
      (pollBatch t.runtime inst session request result) life).serial = life.serial := by
    intro life
    unfold Life.logPoll
    split <;> rfl
  change mediationView _ (Life.logPoll i _ _ _ _ _) = _ ∨
    mediationView _ (Life.logPoll i _ _ _ _ _) = _ ∧ (Life.logPoll i _ _ _ _ _).serial = _
  rw [hview, hserial]
  change mediationView ((pollBatch t.runtime inst session request result).runtime.resources i)
      ((t.life i).carry (t.runtime.resources i)
        ((pollBatch t.runtime inst session request result).runtime.resources i)) =
      mediationView (t.runtime.resources i) (t.life i) ∨
    mediationView ((pollBatch t.runtime inst session request result).runtime.resources i)
        ((t.life i).carry (t.runtime.resources i)
          ((pollBatch t.runtime inst session request result).runtime.resources i)) = _ ∧
      ((t.life i).carry (t.runtime.resources i)
        ((pollBatch t.runtime inst session request result).runtime.resources i)).serial = _
  rcases pollBatch_cases t.runtime inst session request result with
    ⟨heq, _⟩ | ⟨plan, l, hdelivers⟩
  · rw [heq, carry_of_same _ rfl]
    exact Or.inl rfl
  · rw [hdelivers.apply i]
    split
    · next hil =>
      subst hil
      rw [carry_of_changed _ (nextGeneration_ne _)]
      exact Or.inr ⟨rfl, rfl⟩
    · rw [carry_of_same]
      · exact Or.inl rfl
      · rfl

def Call.OnMediation : Call σ → Prop
  | .strictMediate .. | .batchedFlush .. | .sessionReconcileEvidence .. => True
  | _ => False

/-- **A call that does not work on the mediation fields** keeps them. -/
theorem mediationView_quiet (t : Tracked σ) {c : Call σ} (hquiet : ¬c.OnMediation) :
    KeptOrRenewed i t (step t c) := by
  by_cases hc : c.IsLifecycle
  · exact mediationView_lifecycle i hc
  by_cases hkeeps : c.KeepsAllocations
  · left
    cases c with
    | publishBatch inst session request result =>
      refine mediationView_idle i hkeeps (publish_keepsMediation _ _ _ _ _) ?_
      intro r life
      simp only [Call.log, Life.logPublication]
      split <;> rfl
    | submitBatch inst session request result =>
      refine mediationView_idle i hkeeps (submitBatch_keepsMediation _ _ _ _ _) ?_
      intro r life
      exact mediationView_submissions i r life [_]
    | batchAck inst session lease =>
      exact mediationView_idle i hkeeps (ack_keepsMediation _ _ _ _) fun _ _ => rfl
    | sessionRelease inst session | arenaRelease inst arena
    | arenaRecycle inst arena expected next =>
      refine mediationView_idle i hkeeps ?_ fun _ _ => rfl
      exact admitted_keepsMediation fun _ => .modify _ _ _ fun _ => rfl
    | strictMediate | batchedFlush | sessionReconcileEvidence => exact absurd trivial hquiet
    | _ => exact hkeeps.elim
  · cases c with
    | pollBatch inst session request result => exact mediationView_poll i t inst session request result
    | _ => first | exact absurd trivial hc | exact absurd trivial hkeeps

end

def MediationPlan.verdict (plan : MediationPlan σ) (rt : Runtime) (world : σ)
    (session : Handle) : Verdict where
  durability := plan.request.durability
  adapterStatus := (plan.adapterRun rt).status
  adapterResult := (plan.adapterRun rt).result
  evidenceStatus := (plan.evidenceAnswer rt world session).1.1
  evidence := (plan.evidenceAnswer rt world session).1.2

variable (plan : MediationPlan σ) (rt : Runtime)

theorem adapterRun_mediation (i : Fin maxResources) :
    ((plan.adapterRun rt).runtime.resources i).mediation =
      if i = plan.session then
        ((rt.resources i).mediation.bindSemanticRoot plan.request.semanticRoot).consume
          plan.request.nonce plan.nonceCell
      else (rt.resources i).mediation := by
  have hrun := run_keepsMediation (plan.execute (plan.invocation rt)) (plan.reserved rt) i
  rw [MediationPlan.adapterRun, hrun, MediationPlan.reserved, Runtime.modify_apply]
  split
  · next hi => rw [hi]
  · rfl

theorem bindSemanticRoot_mediationSequence (m : MediationState) (semanticRoot : Digest) :
    (m.bindSemanticRoot semanticRoot).mediationSequence = m.mediationSequence := by
  unfold MediationState.bindSemanticRoot
  split <;> rfl

theorem evidenceInvocation_mediationSequence (session : Handle) :
    (plan.evidenceInvocation rt session).mediationSequence =
      (rt.resources plan.session).mediation.mediationSequence + 1 := by
  rw [MediationPlan.evidenceInvocation, adapterRun_mediation, if_pos rfl]
  exact congrArg (· + 1) (bindSemanticRoot_mediationSequence _ _)

/-- **What a concluded mediation leaves in its session**, in the terms of its
verdict. -/
theorem conclude_mediation (world : σ) (session : Handle) (i : Fin maxResources) :
    ((plan.conclude rt session
      (plan.evidenceAnswer rt world session)).runtime.resources i).mediation =
      if i = plan.session then
        (((rt.resources i).mediation.bindSemanticRoot plan.request.semanticRoot).consume
          plan.request.nonce plan.nonceCell).settle
            ((plan.verdict rt world session).judgement plan.request.beforeExecutionRoot)
            (plan.verdict rt world session).evidence
            ((rt.resources i).mediation.mediationSequence + 1)
      else (rt.resources i).mediation := by
  rw [MediationPlan.conclude_runtime, Runtime.modify_apply]
  split
  · next hi =>
    subst hi
    dsimp only
    rw [adapterRun_mediation, if_pos rfl, evidenceInvocation_mediationSequence]
    rfl
  · next hi => rw [adapterRun_mediation, if_neg hi]

theorem conclude_written (world : σ) (session : Handle) :
    ∃ written, (plan.conclude rt session (plan.evidenceAnswer rt world session)).written =
        some written ∧
      written.outcome = ((plan.verdict rt world session).judgement
        plan.request.beforeExecutionRoot).outcome ∧
      written.mediationSequence =
        (rt.resources plan.session).mediation.mediationSequence + 1 ∧
      (written.outcome = .committed →
        written.executionRoot = (plan.verdict rt world session).evidence.afterExecutionRoot) ∧
      (written.outcome = .buffered →
        written.evidenceDigest = (plan.verdict rt world session).evidence.evidenceDigest) := by
  refine ⟨_, rfl, rfl, ?_, ?_, ?_⟩
  · change (((plan.conclude rt session
      (plan.evidenceAnswer rt world session)).runtime.resources plan.session).mediation).mediationSequence
        = _
    rw [conclude_mediation, if_pos rfl]
    exact congrArg (· + 1) (bindSemanticRoot_mediationSequence _ _)
  · intro hcommitted
    change (((plan.conclude rt session
      (plan.evidenceAnswer rt world session)).runtime.resources plan.session).mediation).executionRoot
        = _
    rw [conclude_mediation, if_pos rfl]
    exact if_pos ⟨((plan.verdict rt world session).committed hcommitted).1, hcommitted⟩
  · intro hbuffered
    exact if_pos ((plan.verdict rt world session).buffered hbuffered)

/-- The answers to every mediation of the call meet `allowed`. -/
def Call.Mediates (allowed : MediationView → Verdict → Prop) (t : Tracked σ) : Call σ → Prop
  | .strictMediate inst session request result =>
    ∀ plan, mediationAdmission t.runtime inst session request result = .ok plan →
      (plan.reservationAnswer t.runtime t.world session).1 = .ok →
      allowed (t.mediationView plan.session) (plan.verdict t.runtime t.world session)
  | _ => True

instance [∀ v x, Decidable (allowed v x)] (t : Tracked σ) (c : Call σ) :
    Decidable (c.Mediates allowed t) := by
  rcases c
  all_goals first
    | exact inferInstanceAs (Decidable (∀ plan, _ = Except.ok plan → _ → _))
    | exact instDecidableTrue

theorem Call.mediates_any (t : Tracked σ) (c : Call σ) : c.Mediates (fun _ _ => True) t := by
  cases c with
  | strictMediate => exact fun _ _ _ => trivial
  | _ => exact trivial

section

variable (i : Fin maxResources)

variable (r : Resource) (life : Life) {session : Handle}

theorem mediationView_logMediation_other (request : Option (StrictMediationRequest σ))
    (m : Mediated σ) (hother : session.resourceId ≠ slotId i) :
    mediationView r (life.logMediation i session request m) = mediationView r life := by
  unfold Life.logMediation
  dsimp only
  rw [if_neg (fun h => hother h.2), mediationView_submissions]

theorem mediationView_logMediation_self {request : StrictMediationRequest σ} {m : Mediated σ}
    {written : StrictMediationResult} (hself : session.resourceId = slotId i)
    (hinvoked : m.invocation.isSome) (hwritten : m.written = some written) :
    mediationView r (life.logMediation i session (some request) m) =
      mediationView r (life.settle request written) := by
  have hlogs := mediationView_submissions i r life m.submissions
  simp only [mediationView, MediationView.mk.injEq, true_and] at hlogs
  obtain ⟨hrestored, hexecuted, hroots, hstaged⟩ := hlogs
  unfold Life.logMediation
  dsimp only
  rw [if_pos ⟨hinvoked, hself⟩]
  simp only [hwritten, mediationView, Life.settle, hrestored, hexecuted, hroots, hstaged]

variable (t : Tracked σ) (inst session : Handle)

theorem mediationMove_mediate (request : Option (StrictMediationRequest σ))
    (result : Option StrictMediationResult)
    (hallowed : (Call.strictMediate inst session request result).Mediates allowed t) :
    MediationMove allowed (t.mediationView i)
      (mediationView
        ((strictMediate t.runtime t.world inst session request result).runtime.resources i)
        ((t.life i).logMediation i session request
          (strictMediate t.runtime t.world inst session request result))) := by
  rcases strictMediate_cases t.runtime t.world inst session request result with
    ⟨status, world', heq⟩ | ⟨plan, hadmission, hreserved, heq⟩
  · rw [heq]
    exact .idle _
  · obtain ⟨hsession, rfl, _, _, _, _, hroot, hnonce, _⟩ := mediationAdmission_ok hadmission
    obtain ⟨written, hwritten, houtcome, hsequence, hcommitted, hbuffered⟩ :=
      conclude_written plan t.runtime t.world session
    have hmediation := conclude_mediation plan t.runtime t.world session i
    rw [heq]
    by_cases hi : i = plan.session
    · subst hi
      have hview : mediationView ((plan.conclude t.runtime session
            (plan.evidenceAnswer t.runtime t.world session)).runtime.resources plan.session)
          ((t.life plan.session).logMediation plan.session session (some plan.request)
            (plan.conclude t.runtime session
              (plan.evidenceAnswer t.runtime t.world session))) =
          (t.mediationView plan.session).mediated plan.request.semanticRoot
            plan.request.beforeExecutionRoot plan.request.nonce plan.nonceCell
            (plan.verdict t.runtime t.world session) := by
        rw [mediationView_logMediation_self plan.session _ _ (resolve_eq_ok.1 hsession).2.2.1
          rfl hwritten, mediationView, hmediation, if_pos rfl]
        unfold MediationView.mediated Life.settle
        rw [houtcome] at hcommitted hbuffered
        simp only [Tracked.mediationView, mediationView, houtcome, hsequence,
          MediationView.mk.injEq, true_and]
        refine ⟨?_, ?_⟩
        · split
          · next hout => rw [hcommitted hout]
          · rfl
        · split
          · next hout => rw [hbuffered hout]
          · rfl
      rw [hview]
      exact .mediated _ _ _ _ hroot hnonce (hallowed plan hadmission hreserved)
    · have hother : session.resourceId ≠ slotId i := by
        rw [(resolve_eq_ok.1 hsession).2.2.1, Ne, slotId_inj]
        exact fun h => hi h.symm
      rw [mediationView_logMediation_other i _ _ _ _ hother, mediationView, hmediation, if_neg hi]
      exact .idle _

theorem mediationMove_flush (request : Option (BatchedFlushRequest σ))
    (result : Option BatchedFlushResult) : MediationMove allowed (t.mediationView i)
      (mediationView
        ((batchedFlush t.runtime t.world inst session request result).runtime.resources i)
        ((t.life i).logFlush i session request
          (batchedFlush t.runtime t.world inst session request result))) := by
  unfold Life.logFlush
  rcases batchedFlush_cases t.runtime t.world inst session request result with
    ⟨hstatus, heq⟩ | ⟨plan, written, hadmission, hstatus, hwritten, heq⟩
  · rw [if_neg (fun h => hstatus h.1), heq]
    exact .idle _
  · obtain ⟨hsession, rfl, -, -, hroot⟩ := flushAdmission_ok hadmission
    rw [heq, hstatus, hwritten, Runtime.modify_apply]
    simp only [true_and, resourceId_of_resolve hsession]
    split
    · next hi =>
      subst hi
      have hmove : MediationMove allowed _ _ := .flushed (t.mediationView plan.session)
        written.executionRoot
      rw [← hroot]
      exact hmove
    · exact .idle _

theorem mediationMove_reconcile (reconciliation : Option EvidenceReconciliation) :
    MediationMove allowed (t.mediationView i)
      (mediationView
        ((sessionReconcileEvidence t.runtime inst session reconciliation).runtime.resources i)
        ((t.life i).logReconciliation i session reconciliation
          (sessionReconcileEvidence t.runtime inst session reconciliation))) := by
  unfold Life.logReconciliation
  rcases reconcile_cases t.runtime inst session reconciliation with
    ⟨hstatus, heq⟩ | ⟨s, filled, hadmission, hcases⟩
  · rw [if_neg (fun h => hstatus h.1), heq]
    exact .idle _
  · obtain ⟨hsession, rfl, hformed, _, _, _, hsequence, hcount, _, hroot⟩ :=
      reconcileAdmission_ok hadmission
    rcases hcases with ⟨hstatus, heq⟩ | ⟨loaded, hload, hstatus, heq⟩
    · rw [if_neg (fun h => hstatus h.1), heq, Runtime.modify_apply]
      split
      · next hi =>
        subst hi
        exact .wiped _ hcount hsequence
      · exact .idle _
    · rw [heq, hstatus, Runtime.modify_apply]
      simp only [true_and, resourceId_of_resolve hsession]
      split
      · next hi =>
        subst hi
        exact .reconciled _ filled hformed hcount hsequence hroot hload
      · exact .idle _

/-- **Every call makes at most one mediation move in a slot.** -/
theorem mediation_step (c : Call σ) (hallowed : c.Mediates allowed t) :
    MediationMove allowed (t.mediationView i) ((step t c).mediationView i) := by
  by_cases hc : c.OnMediation
  · have hkeeps : c.KeepsAllocations := by
      cases c with
      | strictMediate | batchedFlush | sessionReconcileEvidence => trivial
      | _ => exact hc.elim
    change MediationMove allowed _ (mediationView _ ((step t c).life i))
    rw [step_life_of_keeps hkeeps i]
    cases c with
    | strictMediate inst session request result =>
      exact mediationMove_mediate i t inst session request result hallowed
    | batchedFlush inst session request result =>
      exact mediationMove_flush i t inst session request result
    | sessionReconcileEvidence inst session reconciliation =>
      exact mediationMove_reconcile i t inst session reconciliation
    | _ => exact hc.elim
  · rcases mediationView_quiet i t hc with hview | ⟨hview, _⟩
    · rw [hview]
      exact .idle _
    · rw [hview]
      exact .renew _

end

end PooFlow
