import PooFlow.Runtime.Replay
import PooFlow.Runtime.Roots

namespace PooFlow

open Foundation List Tracked

variable {σ : Type}

def KeepsStagedRoot (v : MediationView) (x : Verdict) : Prop :=
  v.mediation.stagedLeaves ≠ [] → x.durability ≠ .batched → x.Commits →
    x.evidence.wellFormed x.evidenceStatus →
      x.evidence.afterExecutionRoot = v.mediation.executionRoot

instance (v : MediationView) (x : Verdict) : Decidable (KeepsStagedRoot v x) :=
  inferInstanceAs (Decidable (_ → _ → _ → _ → _))

/-- **Staging invariant**: every leaf staged by a mediation was staged against
the present root; before them stand the leaves of a reconciliation, if there
was one. -/
structure Staging (v : MediationView) : Prop where
  at_root : ∀ e ∈ v.staged, e.2 = v.mediation.executionRoot
  leaves : ∃ restored, v.mediation.stagedLeaves = restored ++ v.staged.map Prod.fst ∧
    (v.restored = [] → restored = [])
  mediated_before : v.executed = [] → v.staged = []

section

variable {v : MediationView}

theorem bindSemanticRoot_stagedLeaves (m : MediationState) (semanticRoot : Digest) :
    (m.bindSemanticRoot semanticRoot).stagedLeaves = m.stagedLeaves := by
  unfold MediationState.bindSemanticRoot
  split <;> rfl

theorem MediationView.mediated_stagedLeaves (semanticRoot before : Digest) (nonce : CompactId)
    (cell : ℕ) (x : Verdict) :
    (v.mediated semanticRoot before nonce cell x).mediation.stagedLeaves =
      if (x.judgement before).outcome = .buffered then
        v.mediation.stagedLeaves ++
          [⟨v.mediation.mediationSequence + 1, x.evidence.evidenceDigest⟩]
      else v.mediation.stagedLeaves := by
  change (if _ then (v.mediation.bindSemanticRoot semanticRoot).stagedLeaves ++ _
    else (v.mediation.bindSemanticRoot semanticRoot).stagedLeaves) = _
  rw [bindSemanticRoot_stagedLeaves]
  by_cases hbuffered : (x.judgement before).outcome = .buffered
  · rw [if_pos hbuffered, if_pos ⟨x.buffered hbuffered, hbuffered⟩]
  · rw [if_neg hbuffered, if_neg (fun h => hbuffered h.2)]

theorem Staging.staged_nil (h : Staging v) (hnone : v.mediation.stagedLeaves = []) :
    v.staged = [] := by
  obtain ⟨restored, hleaves, _⟩ := h.leaves
  rw [hnone] at hleaves
  have hmap := (append_eq_nil_iff.1 hleaves.symm).2
  exact map_eq_nil_iff.1 hmap

theorem Staging.mediated_root (h : Staging v) (semanticRoot before : Digest)
    (nonce : CompactId) (cell : ℕ) {x : Verdict} (hkeeps : KeepsStagedRoot v x) : ∀ e ∈ v.staged,
      e.2 = (v.mediated semanticRoot before nonce cell x).mediation.executionRoot := by
  intro e he
  rw [v.mediated_executionRoot]
  split
  · next hcommitted =>
    obtain ⟨_, hstrict, hcommits, hformed⟩ := x.committed hcommitted
    have hleaves : v.mediation.stagedLeaves ≠ [] := by
      intro hnone
      rw [h.staged_nil hnone] at he
      cases he
    rw [hkeeps hleaves hstrict hcommits hformed]
    exact h.at_root e he
  · exact h.at_root e he

theorem Staging.mediated (h : Staging v) {semanticRoot before : Digest} {nonce : CompactId}
    {cell : ℕ} {x : Verdict} (hroot : v.mediation.executionRoot = before)
    (hkeeps : KeepsStagedRoot v x) : Staging (v.mediated semanticRoot before nonce cell x) := by
  have hold := h.mediated_root semanticRoot before nonce cell hkeeps
  obtain ⟨restored, hleaves, hrestored⟩ := h.leaves
  by_cases hbuffered : (x.judgement before).outcome = .buffered
  · have hstaged : (v.mediated semanticRoot before nonce cell x).staged =
        v.staged ++ [(⟨v.mediation.mediationSequence + 1, x.evidence.evidenceDigest⟩, before)] :=
      if_pos hbuffered
    refine ⟨?_, ⟨restored, ?_, hrestored⟩, fun hnone => ?_⟩
    · intro e he
      rw [hstaged, mem_append] at he
      rcases he with he | he
      · exact hold e he
      · obtain rfl := mem_singleton.1 he
        rw [v.mediated_executionRoot, if_neg (by rw [hbuffered]; simp)]
        exact hroot.symm
    · rw [v.mediated_stagedLeaves, if_pos hbuffered, hstaged, hleaves]
      simp
    · exact absurd hnone (append_ne_nil_of_right_ne_nil _ (cons_ne_nil _ _))
  · have hstaged : (v.mediated semanticRoot before nonce cell x).staged = v.staged :=
      if_neg hbuffered
    refine ⟨?_, ⟨restored, ?_, hrestored⟩, fun hnone => ?_⟩
    · rw [hstaged]
      exact hold
    · rw [v.mediated_stagedLeaves, if_neg hbuffered, hstaged]
      exact hleaves
    · exact absurd hnone (append_ne_nil_of_right_ne_nil _ (cons_ne_nil _ _))

theorem Staging.reconciled (h : Staging v) (hnil : v.restored = [] ∧ v.executed = [])
    (reconciliation : EvidenceReconciliation) {loaded : MediationState}
    (hformed : reconciliation.WellFormed)
    (hload : loadNonces v.mediation reconciliation.nonces = some loaded)
    (roots : List (Digest × Digest)) : Staging
      { v with
        mediation := loaded.restore reconciliation
        restored := v.restored ++ reconciliation.nonces
        roots := roots } := by
  have hstaged := h.mediated_before hnil.2
  obtain ⟨old, hleaves, hold⟩ := h.leaves
  rw [hold hnil.1, hstaged, map_nil, nil_append] at hleaves
  have hloaded : loaded.stagedLeaves = v.mediation.stagedLeaves := by
    rw [loadNonces_frame hload]
  refine ⟨?_, ⟨reconciliation.leaves, ?_, fun hnone => ?_⟩, fun _ => hstaged⟩
  · intro e he
    rw [hstaged] at he
    cases he
  · change loaded.stagedLeaves ++ reconciliation.leaves = _
    rw [hloaded, hleaves, hstaged]
    simp
  · -- no nonces, so no leaves
    have hnonces := (append_eq_nil_iff.1 hnone).2
    obtain ⟨_, _, _, _, hcounts, _⟩ := hformed
    have hcount : reconciliation.consumedNonceCount = 0 := by
      simpa [EvidenceReconciliation.nonces] using hnonces
    have hzero : reconciliation.stagedLeafCount = 0 := by omega
    simp [EvidenceReconciliation.leaves, hzero]

/-- **Every move under the condition keeps the invariant.** -/
theorem Staging.move {w : MediationView} (hmove : MediationMove KeepsStagedRoot v w)
    (hreplay : Replay v) (h : Staging v) : Staging w := by
  cases hmove with
  | idle => exact h
  | renew => exact ⟨by simp, ⟨[], rfl, fun _ => rfl⟩, fun _ => rfl⟩
  | wiped => exact ⟨h.at_root, h.leaves, h.mediated_before⟩
  | reconciled reconciliation hformed hcount hsequence hroot hload =>
    have hnil := append_eq_nil_iff.1 (hreplay.consumed_nil hcount)
    exact h.reconciled hnil reconciliation hformed hload _
  | mediated semanticRoot before x hroot hnonce hkeeps => exact h.mediated hroot hkeeps
  | flushed after => exact ⟨by simp, ⟨[], rfl, fun _ => rfl⟩, fun _ => rfl⟩

end

theorem staging_run (world : σ) (calls : List (Call σ))
    (hruns : Along step (fun t c => c.Mediates KeepsStagedRoot t) (initial world) calls)
    (i : Fin maxResources) :
    Staging ((run step (initial world) calls).mediationView i) := by
  have hboth := hruns.invariant (I := fun t : Tracked σ =>
    ∀ i, Replay (t.mediationView i) ∧ Staging (t.mediationView i)) ?_ ?_
  · exact (hboth i).2
  · intro t c h hc i
    have hmove := mediation_step i t c hc
    exact ⟨(h i).1.move hmove, (h i).2.move hmove (h i).1⟩
  · intro i
    exact ⟨.blank rfl rfl rfl _ _, by simp [Tracked.initial, Tracked.mediationView, mediationView],
      ⟨[], rfl, fun _ => rfl⟩, fun _ => rfl⟩

/-- **Staged leaves belong to the present root**, in a run whose strict
mediations do not replace the root while leaves are staged: each leaf of a
session was staged by a mediation that was presented the present root (but for
leaves that a reconciliation restored), and so was each leaf that a flush
admitted next would commit. -/
theorem staged_at_root (world : σ) (calls : List (Call σ))
    (hruns : Along step (fun t c => c.Mediates KeepsStagedRoot t) (Tracked.initial world) calls)
    (i : Fin maxResources) :
    let t := run step (Tracked.initial world) calls
    (∀ e ∈ (t.life i).staged, e.2 = t.root i) ∧
      ((t.life i).restored = [] →
        (t.runtime.resources i).mediation.stagedLeaves = (t.life i).staged.map Prod.fst) ∧
      ∀ inst session (request : Option (BatchedFlushRequest σ)) result plan,
        flushAdmission t.runtime inst session request result = .ok plan →
          ∀ e ∈ (t.life plan.session).staged, e.2 = plan.request.expectedExecutionRoot := by
  intro t
  have h : Staging (t.mediationView i) := staging_run world calls hruns i
  refine ⟨h.at_root, ?_, ?_⟩
  · intro hnone
    obtain ⟨restored, hleaves, hrestored⟩ := h.leaves
    rw [hrestored hnone] at hleaves
    exact hleaves
  · intro inst session request result plan hadmission e he
    have hplan := (staging_run world calls hruns plan.session).at_root e he
    exact hplan.trans (flushAdmission_ok hadmission).2.2.2.2

/-- Stage a leaf, commit strictly to the root `after`, stage another. -/
def mixedMediations (flushed : Bool) : List (Call Unit) :=
  let it : Installation := {}
  let lease := Installation.lease 1
  it.setUp ++ [it.publish 1 1, it.poll, it.mediate lease .batched 1 1 .zero .zero] ++
    (if flushed then [it.flush .zero (.filled 4)] else []) ++
    [it.mediate lease .strict 2 1 (if flushed then .filled 4 else .zero) (.filled 5)]

theorem staged_at_root_after_flush :
    let t := run step (Tracked.initial ()) (mixedMediations true)
    (∀ e ∈ (t.life 3).staged, e.2 = t.root 3) ∧
      ((t.life 3).restored = [] →
        (t.runtime.resources 3).mediation.stagedLeaves = (t.life 3).staged.map Prod.fst) ∧
      ∀ inst session (request : Option (BatchedFlushRequest Unit)) result plan,
        flushAdmission t.runtime inst session request result = .ok plan →
          ∀ e ∈ (t.life plan.session).staged, e.2 = plan.request.expectedExecutionRoot :=
  staged_at_root () (mixedMediations true) (by decide +kernel) 3

/-- **The condition is needed**: a strict commit between staging and flush
leaves the leaf with a root that is gone. -/
theorem staged_at_replaced_root : ¬∀ (calls : List (Call Unit)) (i : Fin maxResources),
      let t := run step (Tracked.initial ()) calls
      ∀ e ∈ (t.life i).staged, e.2 = t.root i := by
  intro h
  have hstaged : ((run step (Tracked.initial ()) (mixedMediations false)).life 3).staged =
      [(⟨1, .zero⟩, .zero)] := by decide +kernel
  have hroot : (run step (Tracked.initial ()) (mixedMediations false)).root 3 = .filled 5 := by
    decide +kernel
  have hleaf := h (mixedMediations false) 3 (⟨1, .zero⟩, .zero)
    (by rw [hstaged]; exact mem_singleton_self _)
  rw [hroot] at hleaf
  exact absurd hleaf (by decide)

end PooFlow
