import PooFlow.Recovery.Reconciliation
import PooFlow.Runtime.Replay

/-! A session id outlives its processes: each reconciles its session with the journal that the last
one left. -/

namespace PooFlow

open Foundation LinearProbing List Tracked
open Option (bind_eq_some_iff some.inj)
open Except (ok.inj)

section

variable {sha256 : Bytes → Digest} {s : String} {i : Fin maxResources}

/-- What a process does before its session works: the session is given what the journal
tells of it. A journal that raises and a session that refuses end the process. -/
inductive Reopens (s : String) (inst session : Handle) (t : Tracked EvidenceStore) :
    Tracked EvidenceStore → Prop where
  | untold (h : t.world.reconciliation s = .ok none) : Reopens s inst session t t
  | told {reconciliation : AuthorizedEffectEvidenceReconciliation}
      (h : t.world.reconciliation s = .ok (some reconciliation))
      (haccepted :
        (sessionReconcileEvidence t.runtime inst session reconciliation.native).status = .ok) :
      Reopens s inst session t
        (step t (.sessionReconcileEvidence inst session reconciliation.native))

theorem native_eq_some {reconciliation : AuthorizedEffectEvidenceReconciliation}
    {evidence : EvidenceReconciliation} (h : reconciliation.native = some evidence) :
    evidence.nonces = reconciliation.consumedNonces.map Nonce.compact ∧
      Digest.ofBytes reconciliation.semanticRoot = some evidence.semanticRoot := by
  rw [AuthorizedEffectEvidenceReconciliation.native] at h
  obtain ⟨_, hsemantic, h⟩ := bind_eq_some_iff.1 h
  obtain ⟨_, _, h⟩ := bind_eq_some_iff.1 h
  by_cases hshape : reconciliation.stagedMediationSequences.length ≠
      reconciliation.stagedLeafDigests.length
  · rw [if_pos hshape] at h
    cases h
  rw [if_neg hshape] at h
  obtain ⟨_, _, h⟩ := bind_eq_some_iff.1 h
  obtain rfl := some.inj h
  refine ⟨?_, hsemantic⟩
  rw [EvidenceReconciliation.nonces]
  dsimp only
  split
  · next hnil => rw [hnil]; rfl
  · exact range_map_getD (reconciliation.consumedNonces.map Nonce.compact) {}

theorem restored_logMediation (session : Handle)
    (request : Option (StrictMediationRequest EvidenceStore)) (mediated : Mediated EvidenceStore)
    (life : Life) : (life.logMediation i session request mediated).restored = life.restored := by
  have hsubmissions := congrArg MediationView.restored
    (mediationView_submissions i {} life mediated.submissions)
  unfold Life.logMediation
  dsimp only
  split
  · split
    · exact hsubmissions
    · exact hsubmissions
  · exact hsubmissions

theorem world_of_setUp {store : EvidenceStore} {setUp : List (Call EvidenceStore)}
    (h : Along step (fun _ c => ¬c.OnMediation) (initial store) setUp) :
    (run step (initial store) setUp).world = store :=
  h.invariant (I := fun t => t.world = store) (fun _ _ h hc => (world_of_quiet hc).trans h) rfl

variable [Turso]

/-- The journals that any number of processes leave behind one after the other, with the
nonces for which their adapters were executed. A process that dies between the reservation
and the evidence of a mediation leaves what a failed commit leaves. -/
inductive Restarts (sha256 : Bytes → Digest) (s : String) :
    EvidenceStore → List CompactId → Prop where
  | blank {store : EvidenceStore} (h : store.Blank s) : Restarts sha256 s store []
  | process {store : EvidenceStore} {executed : List CompactId}
      (before : Restarts sha256 s store executed) {setUp calls : List (Call EvidenceStore)}
      {t t' : Tracked EvidenceStore} {inst session : Handle} {i : Fin maxResources}
      (hsetUp : Along step (fun _ c => ¬c.OnMediation) (Tracked.initial store) setUp)
      (hstarts : run step (Tracked.initial store) setUp = t)
      (hsession : resolve t.runtime inst session .session = .ok i)
      (hfresh : (t.runtime.resources i).mediation = {}) (hreopens : Reopens s inst session t t')
      (hcalls : Along step (OnJournal sha256 s i) t' calls) :
      Restarts sha256 s (run step t' calls).world
        (executed ++ ((run step t' calls).life i).executed)

section

variable {m : MediationState} {nonces : List CompactId} {store : EvidenceStore}
  {reconciliation : AuthorizedEffectEvidenceReconciliation} {evidence : EvidenceReconciliation}

theorem Mirrors.answers (h : Mirrors s m nonces store)
    {answer : Option AuthorizedEffectEvidenceReconciliation}
    (hanswer : store.reconciliation s = .ok answer) :
    (answer = none → store.reservationsOf s = []) ∧ ∀ reconciliation, answer = some reconciliation →
      reconciliation.consumedNonces = nonces.map CompactId.limbs ∧
        ∀ row ∈ store.reservationsOf s, row.semanticRoot = reconciliation.semanticRoot := by
  obtain ⟨L, hL⟩ := h.represented
  have hordered : store.orderedReservations s = store.reservationsOf s := by
    rw [hL.ordered, hL.reservations]
  have hnonces := parse_limbs h.consumed
  rw [EvidenceStore.reconciliation, hordered] at hanswer
  rcases hrows : store.reservationsOf s with _ | ⟨first, rest⟩
  · rw [hrows] at hanswer
    obtain rfl := ok.inj hanswer
    simp
  · rw [hrows] at hanswer hnonces
    obtain ⟨_, hguard, hanswer⟩ := bind_eq_ok.1 hanswer
    rw [hnonces] at hanswer
    obtain rfl := ok.inj hanswer
    refine ⟨by simp, fun reconciliation htold => ?_⟩
    obtain rfl := some.inj htold
    exact ⟨rfl, guardElse_eq_ok.1 hguard⟩

theorem Mirrors.length_nonces (h : Mirrors s m nonces store) :
    nonces.length = (store.reservationsOf s).length := by
  have hconsumed := congrArg List.length h.consumed
  rwa [length_map, length_map, eq_comm] at hconsumed

theorem Mirrors.untold (h : Mirrors s m nonces store)
    (huntold : store.reconciliation s = .ok none) : nonces = [] ∧ Mirrors s {} [] store := by
  have hrows := (h.answers huntold).1 rfl
  have hnonces : nonces = [] := length_eq_zero_iff.1 (by rw [h.length_nonces, hrows]; rfl)
  have hresolved : ¬store.Unresolved s := by
    rintro ⟨row, hrow, _⟩
    rw [hrows] at hrow
    cases hrow
  obtain ⟨_, hroot, _, hleaves⟩ := h.untouched hresolved (by rw [h.sequence, hrows]; rfl)
  refine ⟨hnonces, h.represented, .empty rfl rfl, Nat.zero_le _, Nat.zero_le _, ?_, ?_, ?_, ?_, ?_⟩
  · rw [hrows]; rfl
  · rw [hrows]; rfl
  · simp [hrows]
  · exact fun _ => hroot ▸ h.root hresolved
  · exact fun _ => (h.staged hresolved).trans (by rw [hleaves])

section

variable (h : Mirrors s m nonces store)
  (htold : store.reconciliation s = .ok (some reconciliation))
  (hnative : reconciliation.native = some evidence)

include h htold hnative

theorem Mirrors.native_eq (hresolved : ¬store.Unresolved s) :
    ∃ runtimeSequence, evidence = m.nativeReport nonces runtimeSequence := by
  have hmediated : m.mediationSequence ≠ 0 := by
    intro hnone
    rw [(h.untouched hresolved hnone).1] at htold
    cases htold
  obtain ⟨runtimeSequence, hreports⟩ := h.reconciliation hresolved hmediated
  rw [hreports] at htold
  obtain rfl := some.inj (ok.inj htold)
  rw [native_report] at hnative
  exact ⟨runtimeSequence, (some.inj hnative).symm⟩

/-- **What a fresh session is told mirrors the journal**, with a reservation unresolved too. -/
theorem Mirrors.restored (hformed : evidence.WellFormed) {loaded : MediationState}
    (hload : loadNonces {} evidence.nonces = some loaded) :
    evidence.nonces = nonces ∧ Mirrors s (loaded.restore evidence) nonces store := by
  obtain ⟨hconsumed, hsemantic⟩ := (h.answers htold).2 _ rfl
  obtain ⟨hnonces, hroot⟩ := native_eq_some hnative
  have hsame : evidence.nonces = nonces := by
    rw [hnonces, hconsumed, map_map]
    exact (map_congr_left fun nonce _ => nonce.compact_limbs).trans (map_id _)
  have htable : NonceInvariant loaded ([] ++ evidence.nonces) :=
    (NonceInvariant.empty rfl rfl).load hload
  have hlength : evidence.nonces.length = evidence.mediationSequence := by
    rw [EvidenceReconciliation.nonces, length_map, length_range]
    exact hformed.2.2.2.2.2.1
  have hleaves : (loaded.restore evidence).stagedLeaves = evidence.leaves := by
    rw [MediationState.restore, loadNonces_frame hload]
    rfl
  rw [nil_append, hsame] at htable
  refine ⟨hsame, h.represented, htable.congr rfl rfl, h.limit, ?_, ?_, h.consumed, ?_, ?_, ?_⟩
  · rw [hleaves, EvidenceReconciliation.leaves, length_map, length_range]
    exact hformed.2.2.2.1
  · rw [← h.length_nonces, ← hsame, hlength]
    rfl
  · intro row hrow
    obtain ⟨_, hrowRoot⟩ := h.semantic row hrow
    rw [← hsemantic row hrow, hrowRoot, Digest.ofBytes_bytes] at hroot
    exact ⟨rfl, hrowRoot.trans (congrArg Digest.bytes (some.inj hroot))⟩
  -- the rest is told only where no reservation is unresolved
  · intro hresolved
    obtain ⟨_, rfl⟩ := h.native_eq htold hnative hresolved
    exact h.root hresolved
  · intro hresolved
    obtain ⟨runtimeSequence, rfl⟩ := h.native_eq htold hnative hresolved
    rw [hleaves, leaves_nativeReport]
    exact h.staged hresolved

end

end

/-- **Restart invariant** of a process whose predecessors executed `past`: the journal mirrors
the session, which knows the past nonces as restored ones. -/
structure Continues (s : String) (i : Fin maxResources) (past : List CompactId)
    (t : Tracked EvidenceStore) : Prop where
  mirrors : ∃ nonces, Mirrors s (t.runtime.resources i).mediation nonces t.world
  replay : ∀ i, Replay (t.mediationView i)
  restored : past ⊆ (t.life i).restored

variable {t t' : Tracked EvidenceStore} {c : Call EvidenceStore} {past : List CompactId}

theorem restored_step (hc : OnJournal sha256 s i t c) :
    ((step t c).life i).restored = (t.life i).restored := by
  obtain ⟨hserial, hreports⟩ := hc
  by_cases hon : c.OnMediation
  · cases c with
    | strictMediate inst session request result =>
      rw [step_life_of_keeps (c := .strictMediate inst session request result) trivial]
      exact restored_logMediation ..
    | batchedFlush inst session request result =>
      rw [step_life_of_keeps (c := .batchedFlush inst session request result) trivial]
      show (Life.logFlush ..).restored = _
      unfold Life.logFlush
      split
      · split <;> rfl
      · rfl
    | sessionReconcileEvidence => exact hreports.elim
    | _ => exact hon.elim
  · rcases mediationView_quiet i t hon with hview | ⟨_, hrenewed⟩
    · exact congrArg MediationView.restored hview
    · omega

theorem Continues.step (h : Continues s i past t) (hc : OnJournal sha256 s i t c) :
    Continues s i past (step t c) where
  mirrors := mirrors_step h.mirrors hc
  replay := fun j => replay_step c h.replay j
  restored := by rw [restored_step hc]; exact h.restored

/-- **A session that was reopened** knows every nonce that the journal reserves. -/
theorem Reopens.continues {m : MediationState} {nonces : List CompactId} {inst session : Handle}
    (h : Reopens s inst session t t') (hmirrors : Mirrors s m nonces t.world)
    (hpast : past ⊆ nonces) (hreplay : ∀ i, Replay (t.mediationView i))
    (hsession : resolve t.runtime inst session .session = .ok i)
    (hfresh : (t.runtime.resources i).mediation = {}) : Continues s i past t' := by
  cases h with
  | untold huntold =>
    obtain ⟨rfl, hblank⟩ := hmirrors.untold huntold
    refine ⟨⟨[], hfresh ▸ hblank⟩, hreplay, ?_⟩
    rw [subset_nil.1 hpast]
    exact nil_subset _
  | @told reconciliation htold haccepted =>
    obtain ⟨hrefused, _⟩ | ⟨j, evidence, hadmission, ⟨hrefused, _⟩ | ⟨loaded, hload, _, hruntime⟩⟩ :=
      reconcile_cases t.runtime inst session reconciliation.native
    · exact absurd haccepted hrefused
    · exact absurd haccepted hrefused
    obtain ⟨hresolves, hnative, hformed, _⟩ := reconcileAdmission_ok hadmission
    obtain rfl : i = j := ok.inj (hsession.symm.trans hresolves)
    rw [hfresh] at hload
    obtain ⟨hsame, hrestored⟩ := hmirrors.restored htold hnative hformed hload
    refine ⟨⟨nonces, ?_⟩, fun j => replay_step _ hreplay j, ?_⟩
    · show Mirrors s ((sessionReconcileEvidence t.runtime inst session
        reconciliation.native).runtime.resources i).mediation nonces t.world
      rw [hruntime, Runtime.modify_apply, if_pos rfl]
      exact hrestored
    · rw [step_life_of_keeps
        (c := .sessionReconcileEvidence inst session reconciliation.native) trivial]
      show past ⊆ (Life.logReconciliation ..).restored
      unfold Life.logReconciliation
      rw [if_pos ⟨haccepted, (resourceId_of_resolve hsession).2 rfl⟩, hnative]
      exact fun nonce hmem => mem_append_right _ (hsame ▸ hpast hmem)

theorem Continues.executed (h : Continues s i past t) (hpast : past.Nodup) :
    ∃ nonces, Mirrors s (t.runtime.resources i).mediation nonces t.world ∧
      (past ++ (t.life i).executed).Nodup ∧ past ++ (t.life i).executed ⊆ nonces := by
  obtain ⟨nonces, hmirrors⟩ := h.mirrors
  have htable : NonceInvariant (t.runtime.resources i).mediation
      ((t.life i).restored ++ (t.life i).executed) := (h.replay i).nonces
  obtain ⟨_, hexecuted, hdisjoint⟩ := nodup_append.1 htable.nodup
  have hknown : ∀ nonce ∈ (t.life i).restored ++ (t.life i).executed, nonce ∈ nonces :=
    fun nonce hmem => (hmirrors.table.holds_iff nonce).1 ((htable.holds_iff nonce).2 hmem)
  refine ⟨nonces, hmirrors, nodup_append.2 ⟨hpast, hexecuted, ?_⟩, ?_⟩
  · exact fun nonce hmem => hdisjoint nonce (h.restored hmem)
  · intro nonce hmem
    rcases mem_append.1 hmem with hbefore | hnow
    · exact hknown nonce (mem_append_left _ (h.restored hbefore))
    · exact hknown nonce (mem_append_right _ hnow)

theorem Restarts.mirrored {store : EvidenceStore} {executed : List CompactId}
    (h : Restarts sha256 s store executed) :
    ∃ m nonces, Mirrors s m nonces store ∧ executed.Nodup ∧ executed ⊆ nonces := by
  induction h with
  | blank hblank => exact ⟨{}, [], .blank hblank, nodup_nil, nil_subset _⟩
  | @process store executed _ setUp _ t _ _ _ i hsetUp hstarts hsession hfresh hreopens hcalls ih =>
    obtain ⟨m, nonces, hmirrors, hnodup, hsub⟩ := ih
    have hworld : t.world = store := hstarts ▸ world_of_setUp hsetUp
    have hcontinues := hreopens.continues (hworld.symm ▸ hmirrors) hsub
      (hstarts ▸ replay_run store setUp) hsession hfresh
    have hends := hcalls.invariant (I := Continues s i executed) (fun _ _ h hc => h.step hc)
      hcontinues
    obtain ⟨nonces', hmirrors', hkept⟩ := hends.executed hnodup
    exact ⟨_, nonces', hmirrors', hkept⟩

/-- **At most one execution over any number of restarts**: no nonce is executed by two
processes, or twice by one, and the journal holds a reservation of each that is executed. -/
theorem executed_once_over_restarts {store : EvidenceStore} {executed : List CompactId}
    (h : Restarts sha256 s store executed) : executed.Nodup ∧
      ∀ nonce ∈ executed, ∃ row ∈ store.reservationsOf s, row.nonce = nonce.limbs.text := by
  obtain ⟨m, nonces, hmirrors, hnodup, hsub⟩ := h.mirrored
  refine ⟨hnodup, fun nonce hmem => ?_⟩
  have htext : nonce.limbs.text ∈ (store.reservationsOf s).map (·.nonce) := by
    rw [hmirrors.consumed]
    exact mem_map_of_mem (hsub hmem)
  exact mem_map.1 htext

end

section

open Turso

def oneMediated : Tracked EvidenceStore := run step oneDelivered [exampleMediation]

def oneReopened : Tracked EvidenceStore :=
  run step (Tracked.initial oneMediated.world) ({} : Installation).setUp

def oneReconciliation : AuthorizedEffectEvidenceReconciliation :=
  (oneMediated.world.reconciliation "session").toOption.join.get (by decide +kernel)

def oneTold : Tracked EvidenceStore :=
  let it : Installation := {}
  step oneReopened
    (.sessionReconcileEvidence it.instance_ it.session oneReconciliation.native)

set_option maxRecDepth 4000 in
theorem oneReopened_mediation : (oneReopened.runtime.resources 3).mediation = {} := rfl

theorem oneMediated_restarts : Restarts exampleHash "session" oneMediated.world
    ([] ++ (oneMediated.life 3).executed) := by
  let it : Installation := {}
  have hsetUp : Along step (fun _ c => ¬c.OnMediation) (initial ({} : EvidenceStore))
      (it.setUp ++ [it.publish 1 1, it.poll]) := ⟨id, id, id, id, id, id, id, trivial⟩
  have hblank : ({} : EvidenceStore).Blank "session" := by
    constructor <;> decide +kernel
  have hsession : resolve oneDelivered.runtime it.instance_ it.session .session = .ok 3 := by
    decide +kernel
  have hserial : ((step oneDelivered exampleMediation).life 3).serial =
      (oneDelivered.life 3).serial := by decide +kernel
  have hcalls : Along step (OnJournal exampleHash "session" 3) oneDelivered [exampleMediation] := by
    refine ⟨⟨hserial, rfl, fun r hr => ?_⟩, trivial⟩
    obtain rfl := some.inj hr
    exact ⟨exampleSink, rfl, rfl⟩
  exact .process (.blank hblank) (t := oneDelivered) hsetUp rfl hsession oneDelivered_mediation
    (.untold (by decide +kernel)) hcalls

theorem executed_once_over_two_processes :
    ([] ++ (oneMediated.life 3).executed ++ (oneTold.life 3).executed).Nodup ∧
      (oneMediated.life 3).executed = [{ low := 5 }] := by
  let it : Installation := {}
  have hsetUp : Along step (fun _ c => ¬c.OnMediation) (Tracked.initial oneMediated.world)
      it.setUp := ⟨id, id, id, id, id, trivial⟩
  have hsession : resolve oneReopened.runtime it.instance_ it.session .session = .ok 3 := by
    decide +kernel
  have htold : oneReopened.world.reconciliation "session" = .ok (some oneReconciliation) := by
    decide +kernel
  have haccepted : (sessionReconcileEvidence oneReopened.runtime it.instance_ it.session
      oneReconciliation.native).status = .ok := by decide +kernel
  have hreopens : Reopens "session" it.instance_ it.session oneReopened oneTold :=
    .told htold haccepted
  have hcalls : Along step (OnJournal exampleHash "session" 3) oneTold [] := trivial
  have hsecond := oneMediated_restarts.process (t := oneReopened) hsetUp rfl hsession
    oneReopened_mediation hreopens hcalls
  rw [run_nil] at hsecond
  exact ⟨(executed_once_over_restarts hsecond).1, by decide +kernel⟩

end

end PooFlow
