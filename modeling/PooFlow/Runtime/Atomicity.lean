import PooFlow.Runtime.MediationMoves

namespace PooFlow

open Foundation

variable {σ : Type}

/-- Living entries are as before; free slots stay free. -/
def Runtime.Atomic (rt rt' : Runtime) : Prop :=
  ∀ i, ((rt.resources i).alive = true → rt'.resources i = rt.resources i) ∧
    ((rt.resources i).alive = false → (rt'.resources i).alive = false)

theorem Runtime.Atomic.of_resources {rt rt' : Runtime} (h : rt'.resources = rt.resources) :
    rt.Atomic rt' := by
  intro i
  rw [h]
  exact ⟨fun _ => rfl, id⟩

theorem Runtime.Atomic.free {rt rt' : Runtime} {i : Fin maxResources} {r : Resource}
    (h : rt'.resources = Function.update rt.resources i r)
    (hfree : (rt.resources i).alive = false) (hdead : r.alive = false) : rt.Atomic rt' := by
  intro j
  rw [h]
  by_cases hj : j = i
  · subst hj
    rw [Function.update_self]
    exact ⟨fun halive => absurd (hfree.symm.trans halive) (by decide), fun _ => hdead⟩
  · rw [Function.update_of_ne hj]
    exact ⟨fun _ => rfl, id⟩

/-- A failure leaves no trace. -/
def Outcome.FailsClean {ρ : Type} (rt : Runtime) (o : Outcome ρ) : Prop :=
  o.status ≠ .ok → rt.Atomic o.runtime

section

variable {rt : Runtime}

variable {ρ : Type} (inst : Handle) (instanceId : ℕ) {m : MediationState}

theorem failsClean_rejected (status : Status) :
    Outcome.FailsClean rt (.rejected rt status : Outcome ρ) :=
  fun _ => .of_resources rfl

theorem failsClean_accepted (rt' : Runtime) (value : ρ) :
    Outcome.FailsClean rt (.accepted rt' value) :=
  fun h => absurd rfl h

theorem failsClean_ofAdmission {α : Type} {admission : Except Status α} {effect : α → Outcome ρ}
    (h : ∀ a, admission = .ok a → (effect a).FailsClean rt) :
    Outcome.FailsClean rt (.ofAdmission rt admission effect) :=
  Outcome.ofAdmission_cases (fun status _ => failsClean_rejected status) h

theorem failsClean_instanceCreate (hasOut : Bool) : (instanceCreate rt hasOut).FailsClean rt := by
  unfold instanceCreate
  split
  · exact failsClean_rejected _
  · dsimp only
    split
    · exact fun _ => .of_resources rfl
    · exact failsClean_accepted _ _

theorem failsClean_negotiate (request : Option NegotiateRequest) (result : Option NegotiateResult) :
    (negotiate rt inst request result).FailsClean rt := by
  refine failsClean_ofAdmission fun plan _ => ?_
  obtain ⟨request, result⟩ := plan
  dsimp only
  split
  · exact failsClean_rejected _
  · exact failsClean_accepted _ _

theorem failsClean_bundleOpen (profile : Handle) (descriptor : Option BundleDescriptor)
    (hasOut : Bool) : (bundleOpen rt inst profile descriptor hasOut).FailsClean rt := by
  refine failsClean_ofAdmission fun plan _ => ?_
  obtain ⟨p, descriptor⟩ := plan
  dsimp only
  split
  · exact failsClean_rejected _
  · exact failsClean_accepted _ _

theorem failsClean_allocateSession (memory : Bool) (fill : Resource → Resource) :
    (allocateSession rt instanceId memory fill).FailsClean rt := by
  unfold allocateSession
  split
  · exact failsClean_rejected _
  · next i rt' halloc =>
    obtain ⟨hfree, rfl⟩ := allocateResource_eq_ok.1 halloc
    split
    · -- the queue could not be allocated: the new entry is released again
      intro _
      refine .free (i := i) (r := ((rt.resources i).fresh instanceId .session).release) ?_
        (freeSlot_dead hfree) rfl
      simp [Runtime.modify, Runtime.allocate]
    · exact failsClean_accepted _ _

theorem failsClean_allocateBytes (bytes : List UInt8) :
    (allocateBytes rt instanceId bytes).FailsClean rt := by
  unfold allocateBytes
  split
  · exact failsClean_rejected _
  · exact failsClean_accepted _ _

theorem failsClean_arenaRegister (descriptor : Option ArenaDescriptor) (hasOut : Bool) :
    (arenaRegister rt inst descriptor hasOut).FailsClean rt := by
  refine failsClean_ofAdmission fun plan _ => ?_
  split
  · exact failsClean_rejected _
  · exact failsClean_accepted _ _

theorem failsClean_poll (session : Handle) (request : Option PollRequest)
    (result : Option PollResult) : (pollBatch rt inst session request result).FailsClean rt := by
  rcases pollBatch_cases rt inst session request result with ⟨heq, _⟩ | ⟨plan, l, hdelivers⟩
  · exact fun _ => .of_resources (by rw [heq])
  · exact fun h => absurd hdelivers.status_eq h

/-- The nonce table of a session that has consumed nothing is empty. -/
def MediationState.Clean (m : MediationState) : Prop :=
  m.consumedNonceCount = 0 → m.consumedNonces = fun _ => none

theorem clean_load {m' : MediationState} {nonces : List CompactId} (h : m.Clean)
    (hload : loadNonces m nonces = some m') : m'.Clean := by
  induction nonces generalizing m with
  | nil =>
    obtain rfl : m = m' := Option.some.inj hload
    exact h
  | cons nonce rest ih =>
    rw [loadNonces] at hload
    split at hload
    · next cell _ =>
      refine ih (m := m.consume nonce cell) (fun hcount => ?_) hload
      exact absurd hcount (Nat.succ_ne_zero _)
    · cases hload

/-- **Every move keeps a table clean** that has consumed nothing. -/
theorem clean_move {allowed : MediationView → Verdict → Prop} {v w : MediationView}
    (hmove : MediationMove allowed v w) (h : v.mediation.Clean) : w.mediation.Clean := by
  cases hmove with
  | idle => exact h
  | renew => exact fun _ => rfl
  | wiped hcount hsequence => exact fun _ => rfl
  | reconciled reconciliation hformed hcount hsequence hroot hload =>
    have hloaded := clean_load h hload
    exact hloaded
  | mediated semanticRoot before x hroot hnonce =>
    intro hcount
    exact absurd hcount (Nat.succ_ne_zero _)
  | flushed after => exact h

/-- Wiping the table of an untouched session changes nothing. -/
theorem wipe_of_clean (h : m.Clean) (hcount : m.consumedNonceCount = 0) : m.wipeNonces = m := by
  have htable := h hcount
  obtain ⟨table, count, semanticRoot, bound, executionRoot, sequence, leaves⟩ := m
  dsimp only at hcount htable
  subst hcount htable
  rfl

theorem failsClean_reconcile (hclean : ∀ i, (rt.resources i).mediation.Clean)
    (inst session : Handle) (reconciliation : Option EvidenceReconciliation) :
    (sessionReconcileEvidence rt inst session reconciliation).FailsClean rt := by
  rcases reconcile_cases rt inst session reconciliation with
    ⟨_, heq⟩ | ⟨s, filled, hadmission, ⟨_, heq⟩ | ⟨loaded, _, hstatus, _⟩⟩
  · exact fun _ => .of_resources (by rw [heq])
  · obtain ⟨_, _, _, _, _, _, _, hcount, _⟩ := reconcileAdmission_ok hadmission
    refine fun _ => .of_resources ?_
    rw [heq]
    funext j
    rw [Runtime.modify_apply]
    split
    · next hj => rw [hj, wipe_of_clean (hclean s) hcount]
    · rfl
  · exact fun h => absurd hstatus h

end

/-- **One call** in a state whose unused nonce tables are clean. -/
theorem failed_call_clean {rt : Runtime} (hclean : ∀ i, (rt.resources i).mediation.Clean)
    (world : σ) (c : Call σ) (hfailed : (c.answer rt world).status ≠ .ok) :
    rt.Atomic (c.answer rt world).runtime := by
  cases c with
  | instanceCreate hasOut => exact failsClean_instanceCreate hasOut hfailed
  | negotiate inst request result => exact failsClean_negotiate inst request result hfailed
  | bundleOpen inst profile descriptor hasOut =>
    exact failsClean_bundleOpen inst profile descriptor hasOut hfailed
  | sessionOpen inst bundle descriptor hasOut memory =>
    exact failsClean_ofAdmission (fun _ _ => failsClean_allocateSession _ _ _) hfailed
  | sessionRestore inst bundle checkpoint hasOut memory =>
    exact failsClean_ofAdmission (fun _ _ => failsClean_allocateSession _ _ _) hfailed
  | sessionCheckpoint inst session hasOut memory =>
    exact failsClean_ofAdmission (fun _ _ => failsClean_allocateBytes _ _) hfailed
  | errorMessage inst status hasOut memory =>
    exact failsClean_ofAdmission (fun _ _ => failsClean_allocateBytes _ _) hfailed
  | arenaRegister inst descriptor hasOut =>
    exact failsClean_arenaRegister inst descriptor hasOut hfailed
  | pollBatch inst session request result => exact failsClean_poll inst session request result hfailed
  | sessionReconcileEvidence inst session reconciliation =>
    exact failsClean_reconcile hclean inst session reconciliation hfailed
  | strictMediate inst session request result =>
    rcases strictMediate_cases rt world inst session request result with
      ⟨status, world', heq⟩ | ⟨plan, _, _, heq⟩
    · have hruntime : (strictMediate rt world inst session request result).runtime = rt := by
        rw [heq]
      exact .of_resources (congrArg Runtime.resources hruntime)
    · have hstatus : (strictMediate rt world inst session request result).status = .ok := by
        rw [heq]
        rfl
      exact absurd hstatus hfailed
  | batchedFlush inst session request result =>
    rcases batchedFlush_cases rt world inst session request result with
      ⟨_, heq⟩ | ⟨plan, written, _, hstatus, _, _⟩
    · exact .of_resources (congrArg Runtime.resources heq)
    · exact absurd hstatus hfailed
  | _ => exact failsClean_ofAdmission (fun _ _ => failsClean_accepted _ _) hfailed

theorem clean_run (world : σ) (calls : List (Call σ)) (i : Fin maxResources) :
    ((run step (Tracked.initial world) calls).runtime.resources i).mediation.Clean := by
  refine run_invariant
    (I := fun t : Tracked σ => ∀ i, (t.runtime.resources i).mediation.Clean) ?_ ?_ calls i
  · exact fun t c h i => clean_move (mediation_step i t c (c.mediates_any t)) (h i)
  · exact fun _ _ => rfl

/-- **Error atomicity**: in every reachable state, a call with any arguments and
callbacks that returns another status than OK leaves every living entry as it
was, and every free slot free. -/
theorem failed_call_atomic (world : σ) (calls : List (Call σ)) (c : Call σ) :
    let t := run step (Tracked.initial world) calls
    let answer := c.answer t.runtime t.world
    answer.status ≠ .ok → ∀ i, ((t.runtime.resources i).alive = true →
        answer.runtime.resources i = t.runtime.resources i) ∧
      ((t.runtime.resources i).alive = false →
        (answer.runtime.resources i).alive = false) := by
  intro t answer hfailed
  exact failed_call_clean (fun i => clean_run world calls i) t.world c hfailed

def repeatedNonce : Call Unit :=
  let it : Installation := {}
  .sessionReconcileEvidence it.instance_ it.session
    (some {
      mediationSequence := 2
      runtimeSequence := 0
      consumedNonces := some fun _ => { low := 7 }
      consumedNonceCount := 2
      stagedMediationSequences := none
      stagedLeafDigests := none
      stagedLeafDigestStride := 0
      stagedLeafCount := 0
      semanticRoot := .filled 9
      executionRoot := .filled 2 })

theorem repeated_nonce_atomic :
    let t := run step (Tracked.initial ()) ({} : Installation).setUp
    let answer := repeatedNonce.answer t.runtime t.world
    answer.status ≠ .ok ∧ ∀ i, ((t.runtime.resources i).alive = true →
        answer.runtime.resources i = t.runtime.resources i) ∧
      ((t.runtime.resources i).alive = false →
        (answer.runtime.resources i).alive = false) := by
  have hfailed : (repeatedNonce.answer
      (run step (Tracked.initial ()) ({} : Installation).setUp).runtime ()).status ≠ .ok := by
    decide +kernel
  exact ⟨hfailed, failed_call_atomic () ({} : Installation).setUp repeatedNonce hfailed⟩

end PooFlow
