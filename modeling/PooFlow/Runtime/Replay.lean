import PooFlow.Runtime.MediationMoves

namespace PooFlow

open Foundation LinearProbing List

variable {σ : Type}

def MediationView.consumed (v : MediationView) : List CompactId := v.restored ++ v.executed

/-- **Replay invariant**: the table holds what the history has consumed, and
the three counters of it agree and keep to the limit. -/
structure Replay (v : MediationView) : Prop where
  nonces : NonceInvariant v.mediation v.consumed
  sequence_eq_count : v.mediation.mediationSequence = v.mediation.consumedNonceCount
  within_limit : v.mediation.consumedNonceCount ≤ maxConsumedNonces

theorem bindSemanticRoot_nonces (m : MediationState) (semanticRoot : Digest) :
    (m.bindSemanticRoot semanticRoot).consumedNonces = m.consumedNonces ∧
      (m.bindSemanticRoot semanticRoot).consumedNonceCount = m.consumedNonceCount := by
  unfold MediationState.bindSemanticRoot
  split <;> exact ⟨rfl, rfl⟩

section

variable {v : MediationView}

theorem Replay.consumed_nil (h : Replay v) (hcount : v.mediation.consumedNonceCount = 0) :
    v.consumed = [] := by
  have hlength := h.nonces.count_eq_length
  rw [hcount] at hlength
  exact length_eq_zero_iff.1 hlength.symm

/-- A view without history over an empty table. -/
theorem Replay.blank {m : MediationState} (htable : m.consumedNonces = fun _ => none)
    (hcount : m.consumedNonceCount = 0) (hsequence : m.mediationSequence = 0)
    (roots : List (Digest × Digest)) (staged : List (StagedLeaf × Digest)) :
    Replay ⟨m, [], [], roots, staged⟩ where
  nonces := .empty htable hcount
  sequence_eq_count := by
    change m.mediationSequence = m.consumedNonceCount
    rw [hsequence, hcount]
  within_limit := by
    change m.consumedNonceCount ≤ _
    rw [hcount]
    exact Nat.zero_le _

theorem Replay.mediated (h : Replay v) (semanticRoot before : Digest) {nonce : CompactId}
    {cell : ℕ} (x : Verdict) (hnonce : admitNonce v.mediation nonce = .ok cell) :
    Replay (v.mediated semanticRoot before nonce cell x) := by
  obtain ⟨hslot, hroom⟩ := admitNonce_ok hnonce
  obtain ⟨htable, hcount⟩ := bindSemanticRoot_nonces v.mediation semanticRoot
  have hconsumed := h.nonces.consume hslot
  refine ⟨?_, ?_, ?_⟩
  · have hmem : (v.mediated semanticRoot before nonce cell x).consumed =
        v.consumed ++ [nonce] := (append_assoc _ _ _).symm
    rw [hmem]
    apply hconsumed.congr
    · exact congrArg (Function.update · cell (some nonce)) htable
    · exact congrArg (· + 1) hcount
  · have hsequence : (v.mediation.bindSemanticRoot semanticRoot).mediationSequence + 1 =
        (v.mediation.bindSemanticRoot semanticRoot).consumedNonceCount + 1 := by
      rw [bindSemanticRoot_mediationSequence, hcount, h.sequence_eq_count]
    exact hsequence
  · change (v.mediation.bindSemanticRoot semanticRoot).consumedNonceCount + 1 ≤ _
    rw [hcount]
    exact hroom

theorem Replay.reconciled (h : Replay v) (reconciliation : EvidenceReconciliation)
    {loaded : MediationState} (hformed : reconciliation.WellFormed)
    (hcount : v.mediation.consumedNonceCount = 0)
    (hload : loadNonces v.mediation reconciliation.nonces = some loaded)
    (roots : List (Digest × Digest)) : Replay
      { v with
        mediation := loaded.restore reconciliation
        restored := v.restored ++ reconciliation.nonces
        roots := roots } := by
  have hnil := append_eq_nil_iff.1 (h.consumed_nil hcount)
  have hloaded := h.nonces.load hload
  have hconsumed : v.consumed ++ reconciliation.nonces =
      v.restored ++ reconciliation.nonces ++ v.executed := by
    rw [MediationView.consumed, hnil.1, hnil.2]
    simp
  have hlength : loaded.consumedNonceCount = reconciliation.consumedNonceCount := by
    have hnonces : reconciliation.nonces.length = reconciliation.consumedNonceCount := by
      simp [EvidenceReconciliation.nonces]
    rw [hloaded.count_eq_length, h.consumed_nil hcount, nil_append, hnonces]
  obtain ⟨_, _, hlimit, _, _, hsequence, _⟩ := hformed
  refine ⟨?_, ?_, ?_⟩
  · rw [hconsumed] at hloaded
    exact hloaded.congr rfl rfl
  · exact hsequence.symm.trans hlength.symm
  · exact hlength.trans_le hlimit

/-- **Every move keeps the invariant.** -/
theorem Replay.move {allowed : MediationView → Verdict → Prop} {w : MediationView}
    (hmove : MediationMove allowed v w) (h : Replay v) : Replay w := by
  cases hmove with
  | idle => exact h
  | renew => exact .blank rfl rfl rfl _ _
  | wiped hcount hsequence =>
    have hnil := append_eq_nil_iff.1 (h.consumed_nil hcount)
    rw [hnil.1, hnil.2]
    exact Replay.blank (m := v.mediation.wipeNonces) rfl rfl hsequence _ _
  | reconciled reconciliation hformed hcount hsequence hroot hload =>
    exact h.reconciled reconciliation hformed hcount hload _
  | mediated semanticRoot before x hroot hnonce =>
    exact h.mediated semanticRoot before x hnonce
  | flushed after => exact ⟨h.nonces.congr rfl rfl, h.sequence_eq_count, h.within_limit⟩

theorem Replay.vacant (h : Replay v) {nonce : CompactId} (hnew : nonce ∉ v.consumed) :
    ∃ cell, nonceSlot v.mediation.consumedNonces nonce = .vacant cell := by
  match hslot : nonceSlot v.mediation.consumedNonces nonce with
  | .vacant cell => exact ⟨cell, rfl⟩
  | .found cell => exact absurd (h.nonces.found_iff.1 ⟨cell, hslot⟩) hnew
  | .full => exact absurd hslot (h.nonces.not_full h.within_limit)

end

/-- **One call.** -/
theorem replay_step {t : Tracked σ} (c : Call σ) (h : ∀ i, Replay (t.mediationView i))
    (i : Fin maxResources) : Replay ((step t c).mediationView i) :=
  (h i).move (mediation_step i t c (c.mediates_any t))

theorem replay_run (world : σ) (calls : List (Call σ)) (i : Fin maxResources) :
    Replay ((run step (Tracked.initial world) calls).mediationView i) := by
  refine run_invariant (I := fun t : Tracked σ => ∀ i, Replay (t.mediationView i)) ?_ ?_ calls i
  · exact fun t c h => replay_step c h
  · exact fun i => .blank rfl rfl rfl _ _

/-- **Nonce replay protection**: in every state of every run the adapter has
been executed at most once for each nonce and never for a restored one; the
search of the nonce table finds exactly the consumed nonces and never gives up,
its counter counts the used cells and the mediations, and a new nonce finds a
free cell. -/
theorem executed_once (world : σ) (calls : List (Call σ)) (i : Fin maxResources) :
    let t := run step (Tracked.initial world) calls
    let m := (t.runtime.resources i).mediation
    (t.life i).executed.Nodup ∧
      (∀ nonce ∈ (t.life i).executed, nonce ∉ (t.life i).restored) ∧
      (∀ nonce, (∃ cell, nonceSlot m.consumedNonces nonce = .found cell) ↔
        nonce ∈ (t.life i).restored ++ (t.life i).executed) ∧
      m.consumedNonceCount = used m.consumedNonces nonceTableCapacity ∧
      m.consumedNonceCount = m.mediationSequence ∧
      (∀ nonce, nonceSlot m.consumedNonces nonce ≠ .full) ∧
      (m.consumedNonceCount < maxConsumedNonces →
        ∀ nonce ∉ (t.life i).restored ++ (t.life i).executed,
          ∃ cell, admitNonce m nonce = .ok cell) := by
  intro t m
  have h : Replay (t.mediationView i) := replay_run world calls i
  have hnodup := nodup_append.1 h.nonces.nodup
  refine ⟨hnodup.2.1, ?_, fun nonce => h.nonces.found_iff, h.nonces.count_eq_used,
    h.sequence_eq_count.symm, fun nonce => h.nonces.not_full h.within_limit, ?_⟩
  · intro nonce hexecuted hrestored
    exact hnodup.2.2 nonce hrestored nonce hexecuted rfl
  · intro hroom nonce hnew
    obtain ⟨cell, hslot⟩ := h.vacant hnew
    refine ⟨cell, ?_⟩
    change nonceSlot m.consumedNonces nonce = _ at hslot
    rw [admitNonce, hslot]
    exact if_neg (not_le.2 hroom)

end PooFlow
