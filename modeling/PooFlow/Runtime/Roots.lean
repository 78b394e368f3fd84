import PooFlow.Runtime.MediationMoves

namespace PooFlow

open Foundation Tracked MediationState

variable {σ : Type}

def Tracked.root (t : Tracked σ) (i : Fin maxResources) : Digest :=
  (t.runtime.resources i).mediation.executionRoot

/-- The logged writes of the root lead from the zero root to the present one. -/
def MediationView.Chained (v : MediationView) : Prop :=
  Linked .zero v.roots v.mediation.executionRoot

section

variable {v : MediationView}

theorem bindSemanticRoot_executionRoot (m : MediationState) (semanticRoot : Digest) :
    (m.bindSemanticRoot semanticRoot).executionRoot = m.executionRoot := by
  unfold bindSemanticRoot
  split <;> rfl

theorem MediationView.mediated_executionRoot (semanticRoot before : Digest) (nonce : CompactId)
    (cell : ℕ) (x : Verdict) :
    (v.mediated semanticRoot before nonce cell x).mediation.executionRoot =
      if (x.judgement before).outcome = .committed then x.evidence.afterExecutionRoot
      else v.mediation.executionRoot := by
  change (if _ then _ else (v.mediation.bindSemanticRoot semanticRoot).executionRoot) = _
  rw [bindSemanticRoot_executionRoot]
  by_cases hcommitted : (x.judgement before).outcome = .committed
  · rw [if_pos hcommitted, if_pos ⟨(x.committed hcommitted).1, hcommitted⟩]
  · rw [if_neg hcommitted, if_neg (fun h => hcommitted h.2)]

/-- **Every move keeps the chain.** -/
theorem MediationView.Chained.move {allowed : MediationView → Verdict → Prop}
    {w : MediationView} (hmove : MediationMove allowed v w) (h : v.Chained) : w.Chained := by
  cases hmove with
  | idle => exact h
  | renew => exact linked_nil.2 rfl
  | wiped => exact h
  | reconciled reconciliation hformed hcount hsequence hroot hload =>
    unfold MediationView.Chained at h
    rw [hroot] at h
    exact h.extend _
  | mediated semanticRoot before x hroot hnonce =>
    unfold MediationView.Chained at h ⊢
    rw [v.mediated_executionRoot, MediationView.mediated]
    dsimp only
    split
    · rw [hroot] at h
      exact h.extend _
    · exact h
  | flushed after => exact Linked.extend h after

end

/-- The call may write `after` as the root of slot `i`: a mediation that
committed or a flush, each from the root it was presented, or a reconciliation
from the zero root. -/
def Call.WritesRoot (t : Tracked σ) (i : Fin maxResources) (after : Digest) : Call σ → Prop
  | .strictMediate inst session request result =>
    let m := PooFlow.strictMediate t.runtime t.world inst session request result
    m.status = .ok ∧ session.resourceId = slotId i ∧
      ∃ presented written, request = some presented ∧ m.written = some written ∧
        written.outcome = .committed ∧ written.executionRoot = after ∧
        presented.beforeExecutionRoot = t.root i
  | .batchedFlush inst session request result =>
    let f := PooFlow.batchedFlush t.runtime t.world inst session request result
    f.status = .ok ∧ session.resourceId = slotId i ∧
      ∃ presented written, request = some presented ∧ f.written = some written ∧
        written.executionRoot = after ∧ presented.expectedExecutionRoot = t.root i
  | .sessionReconcileEvidence inst session reconciliation =>
    (PooFlow.sessionReconcileEvidence t.runtime inst session reconciliation).status = .ok ∧
      session.resourceId = slotId i ∧
      ∃ presented, reconciliation = some presented ∧ presented.executionRoot = after ∧
        (t.runtime.resources i).Untouched
  | _ => False

section

variable {t : Tracked σ} {i : Fin maxResources}

theorem Runtime.KeepsMediation.root {c : Call σ}
    (h : t.runtime.KeepsMediation (step t c).runtime) : (step t c).root i = t.root i :=
  congrArg executionRoot (h i)

theorem root_of_isLifecycle {c : Call σ} (hc : c.IsLifecycle)
    (hserial : ((step t c).life i).serial = (t.life i).serial) : (step t c).root i = t.root i := by
  have hslot := lifecycle_slot hc (t := t) i
  unfold root
  generalize (step t c).runtime.resources i = entry, (step t c).life i = life
    at hslot hserial ⊢
  cases hslot with
  | allocated => exact absurd hserial (Nat.succ_ne_self _)
  | _ => rfl

variable {inst session : Handle}

theorem root_of_poll {request : Option PollRequest} {result : Option PollResult}
    (hserial : ((step t (.pollBatch inst session request result)).life i).serial =
      (t.life i).serial) : (step t (.pollBatch inst session request result)).root i = t.root i := by
  have hlog : ∀ life, (Life.logPoll i t.life session request
      (pollBatch t.runtime inst session request result) life).serial = life.serial := by
    intro life
    unfold Life.logPoll
    split <;> rfl
  change (Life.logPoll i _ _ _ _ _).serial = _ at hserial
  rw [hlog] at hserial
  change ((pollBatch t.runtime inst session request result).runtime.resources
    i).mediation.executionRoot = _
  change (Life.carry _ ((pollBatch t.runtime inst session request result).runtime.resources i)
    _).serial = _ at hserial
  rcases pollBatch_cases t.runtime inst session request result with
    ⟨heq, _⟩ | ⟨plan, l, hdelivers⟩
  · rw [heq, root]
  · rw [hdelivers.apply i] at hserial ⊢
    split
    · next hil =>
      subst hil
      rw [if_pos rfl, carry_of_changed _ (nextGeneration_ne _)] at hserial
      exact absurd hserial (Nat.succ_ne_self _)
    · rfl

theorem writesRoot_mediate {request : Option (StrictMediationRequest σ)}
    {result : Option StrictMediationResult}
    (hmoved : (step t (.strictMediate inst session request result)).root i ≠ t.root i) :
    (Call.strictMediate inst session request result).WritesRoot t i
      ((step t (.strictMediate inst session request result)).root i) := by
  change ((strictMediate t.runtime t.world inst session request result).runtime.resources
    i).mediation.executionRoot ≠ _ at hmoved
  change Call.WritesRoot t i (((strictMediate t.runtime t.world inst session request
    result).runtime.resources i).mediation.executionRoot) _
  rcases strictMediate_cases t.runtime t.world inst session request result with
    ⟨status, world', heq⟩ | ⟨plan, hadmission, _, heq⟩
  · rw [heq] at hmoved
    exact absurd rfl hmoved
  · obtain ⟨hsession, hrequest, _, _, _, _, hroot, _, _⟩ := mediationAdmission_ok hadmission
    obtain ⟨written, hwritten, houtcome, _, hcommitted, _⟩ :=
      conclude_written plan t.runtime t.world session
    rw [heq] at hmoved ⊢
    by_cases hi : i = plan.session
    · subst hi
      have hafter := t.mediationView plan.session |>.mediated_executionRoot
        plan.request.semanticRoot plan.request.beforeExecutionRoot plan.request.nonce
        plan.nonceCell (plan.verdict t.runtime t.world session)
      rw [conclude_mediation, if_pos rfl] at hmoved ⊢
      change ((t.mediationView plan.session).mediated _ _ _ _ _).mediation.executionRoot ≠ _
        at hmoved
      rw [hafter] at hmoved
      split at hmoved
      · next hout =>
        rw [← houtcome] at hout
        refine ⟨congrArg Mediated.status heq, (resolve_eq_ok.1 hsession).2.2.1, plan.request,
          written, hrequest, (congrArg Mediated.written heq).trans hwritten, hout, ?_, hroot.symm⟩
        rw [hcommitted hout]
        exact (hafter.trans (if_pos (houtcome ▸ hout))).symm
      · exact absurd rfl hmoved
    · rw [conclude_mediation, if_neg hi] at hmoved
      exact absurd rfl hmoved

theorem writesRoot_flush {request : Option (BatchedFlushRequest σ)}
    {result : Option BatchedFlushResult}
    (hmoved : (step t (.batchedFlush inst session request result)).root i ≠ t.root i) :
    (Call.batchedFlush inst session request result).WritesRoot t i
      ((step t (.batchedFlush inst session request result)).root i) := by
  change ((batchedFlush t.runtime t.world inst session request result).runtime.resources
    i).mediation.executionRoot ≠ _ at hmoved
  change Call.WritesRoot t i (((batchedFlush t.runtime t.world inst session request
    result).runtime.resources i).mediation.executionRoot) _
  rcases batchedFlush_cases t.runtime t.world inst session request result with
    ⟨_, heq⟩ | ⟨plan, written, hadmission, hstatus, hwritten, heq⟩
  · rw [heq] at hmoved
    exact absurd rfl hmoved
  · obtain ⟨hsession, hrequest, -, -, hroot⟩ := flushAdmission_ok hadmission
    rw [heq, Runtime.modify_apply] at hmoved ⊢
    split at hmoved
    · next hi =>
      subst hi
      rw [if_pos rfl]
      exact ⟨hstatus, (resolve_eq_ok.1 hsession).2.2.1, plan.request, written, hrequest,
        hwritten, rfl, hroot.symm⟩
    · exact absurd rfl hmoved

theorem writesRoot_reconcile {reconciliation : Option EvidenceReconciliation}
    (hmoved : (step t (.sessionReconcileEvidence inst session reconciliation)).root i ≠
      t.root i) :
    (Call.sessionReconcileEvidence inst session reconciliation).WritesRoot t i
      ((step t (.sessionReconcileEvidence inst session reconciliation)).root i) := by
  change ((sessionReconcileEvidence t.runtime inst session reconciliation).runtime.resources
    i).mediation.executionRoot ≠ _ at hmoved
  change Call.WritesRoot t i (((sessionReconcileEvidence t.runtime inst session
    reconciliation).runtime.resources i).mediation.executionRoot) _
  rcases reconcile_cases t.runtime inst session reconciliation with
    ⟨_, heq⟩ | ⟨s, filled, hadmission, ⟨_, heq⟩ | ⟨loaded, _, hstatus, heq⟩⟩
  · rw [heq] at hmoved
    exact absurd rfl hmoved
  · rw [heq, Runtime.modify_apply] at hmoved
    split at hmoved
    · next hi => exact absurd (by rw [hi]; rfl) hmoved
    · exact absurd rfl hmoved
  · obtain ⟨hsession, hrequest, _, huntouched⟩ := reconcileAdmission_ok hadmission
    rw [heq, Runtime.modify_apply] at hmoved ⊢
    split at hmoved
    · next hi =>
      subst hi
      rw [if_pos rfl]
      exact ⟨hstatus, (resolve_eq_ok.1 hsession).2.2.1, filled, hrequest, rfl, huntouched⟩
    · exact absurd rfl hmoved

/-- **Only a call that may write the root changes it**, within one life of the
slot. -/
theorem writesRoot_of_moved (c : Call σ) (hserial : ((step t c).life i).serial = (t.life i).serial)
    (hmoved : (step t c).root i ≠ t.root i) : c.WritesRoot t i ((step t c).root i) := by
  by_cases hc : c.IsLifecycle
  · exact absurd (root_of_isLifecycle hc hserial) hmoved
  cases c with
  | strictMediate => exact writesRoot_mediate hmoved
  | batchedFlush => exact writesRoot_flush hmoved
  | sessionReconcileEvidence => exact writesRoot_reconcile hmoved
  | pollBatch => exact absurd (root_of_poll hserial) hmoved
  | publishBatch => exact absurd (publish_keepsMediation _ _ _ _ _).root hmoved
  | submitBatch => exact absurd (submitBatch_keepsMediation _ _ _ _ _).root hmoved
  | batchAck => exact absurd (ack_keepsMediation _ _ _ _).root hmoved
  | sessionRelease inst session | arenaRelease inst arena | arenaRecycle inst arena expected next =>
    refine absurd (Runtime.KeepsMediation.root ?_) hmoved
    exact admitted_keepsMediation fun _ => .modify _ _ _ fun _ => rfl
  | _ => exact absurd trivial hc

end

theorem chained_run (world : σ) (calls : List (Call σ)) (i : Fin maxResources) :
    ((run step (initial world) calls).mediationView i).Chained := by
  refine run_invariant (I := fun t : Tracked σ => ∀ i, (t.mediationView i).Chained) ?_ ?_
    calls i
  · exact fun t c h i => (h i).move (mediation_step i t c (c.mediates_any t))
  · exact fun i => linked_nil.2 rfl

/-- **Execution-root chain**: in every state of every run the writes of a
session's root form one chain from the zero root to the present one, and
whatever is called next changes the root only by a committed mediation, a
flush or a reconciliation, from the root that was presented. -/
theorem roots_linked (world : σ) (calls : List (Call σ)) (i : Fin maxResources) :
    let t := run step (Tracked.initial world) calls
    Linked .zero (t.life i).roots (t.root i) ∧
      ∀ c, ((step t c).life i).serial = (t.life i).serial → (step t c).root i ≠ t.root i →
        c.WritesRoot t i ((step t c).root i) := by
  intro t
  exact ⟨chained_run world calls i, fun c hserial hmoved => writesRoot_of_moved c hserial hmoved⟩

/-- **Reconciliation is one of the three**: it moves the root of a session that
has neither mediated nor flushed. -/
theorem root_moved_by_reconciliation :
    ¬∀ (calls : List (Call Unit)) (i : Fin maxResources) (c : Call Unit),
      let t := run step (Tracked.initial ()) calls
      ((step t c).life i).serial = (t.life i).serial → (step t c).root i ≠ t.root i →
        ¬c.IsReconciliation := by
  intro h
  let it : Installation := {}
  apply h it.setUp 3 (it.reconcile (.filled 5))
  · decide +kernel
  · decide +kernel
  · trivial

end PooFlow
