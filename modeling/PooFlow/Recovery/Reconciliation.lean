import PooFlow.Recovery.Mirror

namespace PooFlow

open Foundation LinearProbing List EvidenceStore MediationState

/-- A nonce as two `uint64_t` arrays carry it. -/
def Nonce.compact (nonce : Nonce) : CompactId :=
  ⟨UInt64.ofNat nonce.1.toNat, UInt64.ofNat nonce.2.toNat⟩

@[simp] theorem CompactId.compact_limbs (nonce : CompactId) : nonce.limbs.compact = nonce := by
  simp [Nonce.compact, CompactId.limbs]

/-- `reconcile_evidence` of the session, with the record that the shim fills.
Every digest is read as 32 bytes, so one of another length has no native form. -/
def AuthorizedEffectEvidenceReconciliation.native
    (reconciliation : AuthorizedEffectEvidenceReconciliation) : Option EvidenceReconciliation := do
  let nonces := reconciliation.consumedNonces.map Nonce.compact
  let semanticRoot ← Digest.ofBytes reconciliation.semanticRoot
  let executionRoot ← Digest.ofBytes reconciliation.executionRoot
  if reconciliation.stagedMediationSequences.length ≠
      reconciliation.stagedLeafDigests.length then none
  let sequences := reconciliation.stagedMediationSequences.map Int.toNat
  let digests ← reconciliation.stagedLeafDigests.mapM Digest.ofBytes
  return {
    mediationSequence := reconciliation.mediationSequence.toNat
    runtimeSequence := reconciliation.runtimeSequence.toNat
    consumedNonces := if nonces = [] then none else some fun i => nonces.getD i {}
    consumedNonceCount := nonces.length
    stagedMediationSequences := some fun i => sequences.getD i 0
    stagedLeafDigests := some fun i => digests.getD i .zero
    stagedLeafDigestStride := 32
    stagedLeafCount := sequences.length
    semanticRoot, executionRoot }

theorem range_map_getD {α : Type} (l : List α) (d : α) :
    (List.range l.length).map (fun i => l.getD i d) = l := by
  apply ext_getElem
  · simp
  · intro k hk _
    rw [length_map, length_range] at hk
    simp [hk]

theorem mapM_ofBytes (digests : List Digest) :
    (digests.map Digest.bytes).mapM Digest.ofBytes = some digests := by
  induction digests with
  | nil => rfl
  | cons digest rest ih =>
    rw [map_cons, mapM_cons, Digest.ofBytes_bytes, ih]
    rfl

structure Tells (reconciliation : AuthorizedEffectEvidenceReconciliation) (m : MediationState) :
    Prop where
  semanticRoot : reconciliation.semanticRoot = m.semanticRoot.bytes
  executionRoot : reconciliation.executionRoot = m.executionRoot.bytes
  mediationSequence : reconciliation.mediationSequence = m.mediationSequence
  consumedNonces : ∀ limbs, limbs ∈ reconciliation.consumedNonces ↔
    ∃ nonce : CompactId, Holds m.consumedNonces nonceTableCapacity nonce ∧ nonce.limbs = limbs
  stagedMediationSequences : reconciliation.stagedMediationSequences =
    m.stagedLeaves.map fun leaf => (leaf.mediationSequence : ℤ)
  stagedLeafDigests : reconciliation.stagedLeafDigests =
    m.stagedLeaves.map fun leaf => leaf.digest.bytes

section

variable {s : String} {m : MediationState} {nonces : List CompactId} {store : EvidenceStore}

theorem parse_limbs {rows : List ReservationRow}
    (h : rows.map (·.nonce) = nonces.map fun nonce => nonce.limbs.text) :
    rows.mapM (fun row => parseEvidenceNonce row.nonce) = .ok (nonces.map CompactId.limbs) := by
  induction rows generalizing nonces with
  | nil =>
    obtain rfl : nonces = [] := map_eq_nil_iff.1 h.symm
    rfl
  | cons row rest ih =>
    cases nonces with
    | nil => cases h
    | cons nonce nonces =>
      obtain ⟨hrow, hrest⟩ := List.cons.inj h
      have hnonce : row.nonce = nonce.limbs.text := hrow
      rw [mapM_cons, hnonce, parse_evidenceNonceText nonce.limbs_isUint64, ih hrest]
      rfl

def MediationState.report (m : MediationState) (nonces : List CompactId) (runtimeSequence : ℤ) :
    AuthorizedEffectEvidenceReconciliation where
  semanticRoot := m.semanticRoot.bytes
  executionRoot := m.executionRoot.bytes
  mediationSequence := m.mediationSequence
  runtimeSequence := runtimeSequence
  consumedNonces := nonces.map CompactId.limbs
  stagedMediationSequences := m.stagedLeaves.map fun leaf => (leaf.mediationSequence : ℤ)
  stagedLeafDigests := m.stagedLeaves.map fun leaf => leaf.digest.bytes

variable [Turso]

theorem Mirrors.tells (h : Mirrors s m nonces store) (runtimeSequence : ℤ) :
    Tells (m.report nonces runtimeSequence) m where
  semanticRoot := rfl
  executionRoot := rfl
  mediationSequence := rfl
  consumedNonces := by
    intro limbs
    simp only [report, mem_map, h.table.holds_iff]
  stagedMediationSequences := rfl
  stagedLeafDigests := rfl

/-- **The journal reports the session.** -/
theorem Mirrors.reconciliation (h : Mirrors s m nonces store) (hresolved : ¬store.Unresolved s)
    (hmediated : m.mediationSequence ≠ 0) :
    ∃ runtimeSequence, store.reconciliation s = .ok (some (m.report nonces runtimeSequence)) := by
  obtain ⟨L, hL⟩ := h.represented
  have hordered : store.orderedReservations s = store.reservationsOf s := by
    rw [hL.ordered, hL.reservations]
  have hrowsOf : store.stagedRows s = store.stagedLeaves s := by
    rw [hL.stagedRows, hL.staged]
  have hcount := h.sequence
  have hsequences := h.sequences
  have hsemantic := h.semantic
  have hnonces := parse_limbs h.consumed
  rw [EvidenceStore.reconciliation, hordered]
  rcases hrows : store.reservationsOf s with _ | ⟨first, rest⟩
  · rw [hrows] at hcount
    exact absurd hcount hmediated
  · rw [hrows] at hcount hsequences hsemantic hnonces
    have hsame : ∀ row ∈ first :: rest, row.semanticRoot = first.semanticRoot := by
      intro row hrow
      rw [(hsemantic row hrow).2, (hsemantic first mem_cons_self).2]
    have hguard : guardElse (∀ row ∈ first :: rest, row.semanticRoot = first.semanticRoot)
        (Raised.evidenceError "durable evidence history changes semantic root") = .ok () :=
      guardElse_eq_ok.2 hsame
    have hlast : ((first :: rest).getLast (cons_ne_nil _ _)).mediationSequence =
        m.mediationSequence := by
      have hends := congrArg List.getLast? hsequences
      rw [length_cons, numbers_succ, List.getLast?_concat, List.getLast?_map,
        List.getLast?_eq_some_getLast (cons_ne_nil _ _)] at hends
      have hend : ((first :: rest).getLast (cons_ne_nil _ _)).mediationSequence =
          (rest.length : ℤ) + 1 := Option.some.inj hends
      rw [hend, hcount, length_cons]
      rfl
    have hstaged := h.staged hresolved
    have hstagedSequences : (store.stagedLeaves s).map LeafRow.mediationSequence =
        m.stagedLeaves.map fun leaf => (leaf.mediationSequence : ℤ) := by
      have hfirst := congrArg (List.map Prod.fst) hstaged
      rwa [map_map, map_map] at hfirst
    have hstagedDigests : (store.stagedLeaves s).map LeafRow.leafDigest =
        m.stagedLeaves.map fun leaf => leaf.digest.bytes := by
      have hsecond := congrArg (List.map Prod.snd) hstaged
      rwa [map_map, map_map] at hsecond
    refine ⟨((first :: rest).getLast (cons_ne_nil _ _)).lastSequence, ?_⟩
    dsimp only
    rw [hguard, hnonces, hrowsOf, hstagedSequences, hstagedDigests, h.root hresolved]
    simp only [bind, Except.bind, pure, Except.pure]
    rw [hlast, (hsemantic first mem_cons_self).2]
    rfl

theorem Mirrors.untouched (h : Mirrors s m nonces store) (hresolved : ¬store.Unresolved s)
    (hnone : m.mediationSequence = 0) :
    store.reconciliation s = .ok none ∧ m.executionRoot = .zero ∧ m.consumedNonceCount = 0 ∧
      m.stagedLeaves = [] := by
  obtain ⟨L, hL⟩ := h.represented
  have hrows : store.reservationsOf s = [] :=
    length_eq_zero_iff.1 (h.sequence.symm.trans hnone)
  have hbindings : L.bindings = [] := by
    rw [← L.map_reservationRows, ← hL.reservations, hrows]
    rfl
  obtain ⟨hrecords, _⟩ := append_eq_nil_iff.1 hbindings
  obtain ⟨hfinal, hleaves⟩ := append_eq_nil_iff.1 (map_eq_nil_iff.1 hrecords)
  have hstaged := h.staged hresolved
  rw [hL.staged, map_eq_nil_iff.1 hleaves] at hstaged
  have hroot := h.root hresolved
  rw [hL.headRoot, hL.valid.root_of_nil hfinal] at hroot
  refine ⟨?_, ?_, ?_, (map_eq_nil_iff.1 hstaged.symm)⟩
  · have hordered : store.orderedReservations s = [] := by
      rw [hL.ordered, ← hL.reservations, hrows]
    rw [EvidenceStore.reconciliation, hordered]
  · exact Digest.bytes_inj.1 hroot.symm
  · have hconsumed := h.consumed
    rw [hrows] at hconsumed
    rw [h.table.count_eq_length, map_eq_nil_iff.1 hconsumed.symm]
    rfl

end

structure SameEvidence (m m' : MediationState) : Prop where
  semanticRoot : m'.semanticRoot = m.semanticRoot
  executionRoot : m'.executionRoot = m.executionRoot
  mediationSequence : m'.mediationSequence = m.mediationSequence
  consumedNonces : ∀ nonce, Holds m'.consumedNonces nonceTableCapacity nonce ↔
    Holds m.consumedNonces nonceTableCapacity nonce
  stagedLeaves : m'.stagedLeaves = m.stagedLeaves

/-- An open session that nothing has happened to. -/
def Resource.Fresh (r : Resource) : Prop :=
  r.state = .opened ∧ r.queue.pending = [] ∧ r.outstanding = 0 ∧ r.mediation = {}

theorem checkStagedSequences_ok {limit : ℕ} {previous : Option ℕ} {sequences : List ℕ}
    (hbound : ∀ q ∈ sequences, q ≠ 0 ∧ q ≤ limit) (hsorted : sequences.Pairwise (· < ·))
    (hprevious : ∀ p, previous = some p → ∀ q ∈ sequences, p < q) :
    checkStagedSequences limit previous sequences = .ok () := by
  induction sequences generalizing previous with
  | nil => rfl
  | cons q rest ih =>
    obtain ⟨hq, hrest⟩ := pairwise_cons.1 hsorted
    rw [checkStagedSequences, bind_eq_ok]
    obtain ⟨hpositive, hlimit⟩ := hbound q mem_cons_self
    refine ⟨(), guardElse_eq_ok.2 ⟨hpositive, hlimit, ?_⟩, ih ?_ hrest ?_⟩
    · exact fun p hp => hprevious p hp q mem_cons_self
    · exact fun q' hq' => hbound q' (mem_cons_of_mem _ hq')
    · rintro p hp q' hq'
      rw [← Option.some.inj hp]
      exact hq q' hq'

/-- **A fresh session accepts** a well-formed reconciliation of distinct nonces. -/
theorem reconcile_accepts {rt : Runtime} {inst session : Handle} {j : Fin maxResources}
    {reconciliation : EvidenceReconciliation}
    (hsession : resolve rt inst session .session = .ok j) (hfresh : (rt.resources j).Fresh)
    (hformed : reconciliation.WellFormed)
    (hstaged : checkStagedSequences reconciliation.mediationSequence none
      (reconciliation.leaves.map StagedLeaf.mediationSequence) = .ok ())
    (hnodup : reconciliation.nonces.Nodup) :
    (sessionReconcileEvidence rt inst session (some reconciliation)).status = .ok ∧
      ∃ loaded, NonceInvariant loaded reconciliation.nonces ∧
        ((sessionReconcileEvidence rt inst session (some reconciliation)).runtime.resources
          j).mediation = loaded.restore reconciliation ∧
        loaded.stagedLeaves = [] := by
  obtain ⟨hstate, hpending, houtstanding, hmediation⟩ := hfresh
  have huntouched : (rt.resources j).Untouched := by
    refine ⟨hstate, hpending, houtstanding, ?_⟩
    rw [hmediation]
    exact ⟨rfl, rfl, rfl, rfl⟩
  have hadmission : reconcileAdmission rt inst session (some reconciliation) =
      .ok (j, reconciliation) := by
    simp only [reconcileAdmission, bind_eq_ok, guardElse_eq_ok, presentElse_eq_ok, exists_const,
      pure_eq_ok]
    exact ⟨j, hsession, _, rfl, hformed, (), hstaged, huntouched, rfl⟩
  have htable : NonceInvariant (rt.resources j).mediation [] := by
    rw [hmediation]
    exact .empty rfl rfl
  have hlength : reconciliation.nonces.length ≤ maxConsumedNonces := by
    rw [EvidenceReconciliation.nonces, length_map, length_range]
    exact hformed.2.2.1
  obtain ⟨loaded, hload⟩ : ∃ loaded,
      loadNonces (rt.resources j).mediation reconciliation.nonces = some loaded :=
    htable.load_succeeds (by simpa using hnodup) (by simpa using hlength)
  have hframe := loadNonces_frame hload
  rw [sessionReconcileEvidence, hadmission]
  dsimp only [Outcome.ofAdmission]
  rw [hload]
  refine ⟨rfl, loaded, ?_, ?_, ?_⟩
  · simpa using htable.load hload
  · dsimp only [Outcome.accepted]
    rw [Runtime.modify_apply, if_pos rfl]
  · rw [hframe, hmediation]

section

variable {s : String} {m : MediationState} {nonces : List CompactId} {store : EvidenceStore}

def MediationState.nativeReport (m : MediationState) (nonces : List CompactId)
    (runtimeSequence : ℤ) : EvidenceReconciliation where
  mediationSequence := m.mediationSequence
  runtimeSequence := runtimeSequence.toNat
  consumedNonces := if nonces = [] then none else some fun i => nonces.getD i {}
  consumedNonceCount := nonces.length
  stagedMediationSequences := some fun i =>
    (m.stagedLeaves.map StagedLeaf.mediationSequence).getD i 0
  stagedLeafDigests := some fun i => (m.stagedLeaves.map StagedLeaf.digest).getD i .zero
  stagedLeafDigestStride := 32
  stagedLeafCount := m.stagedLeaves.length
  semanticRoot := m.semanticRoot
  executionRoot := m.executionRoot

variable (runtimeSequence : ℤ)

theorem native_report :
    (m.report nonces runtimeSequence).native = some (m.nativeReport nonces runtimeSequence) := by
  have hnonces : (nonces.map CompactId.limbs).map Nonce.compact = nonces := by
    rw [map_map]
    exact (map_congr_left fun nonce _ => nonce.compact_limbs).trans (map_id _)
  have hsequences : (m.stagedLeaves.map fun leaf => (leaf.mediationSequence : ℤ)).map Int.toNat =
      m.stagedLeaves.map StagedLeaf.mediationSequence := by
    rw [map_map]
    rfl
  have hdigests : (m.stagedLeaves.map fun leaf => leaf.digest.bytes).mapM Digest.ofBytes =
      some (m.stagedLeaves.map StagedLeaf.digest) := by
    rw [← mapM_ofBytes, map_map]
    rfl
  rw [AuthorizedEffectEvidenceReconciliation.native]
  simp only [report, hnonces, hsequences, hdigests, Digest.ofBytes_bytes, length_map, ne_eq,
    not_true_eq_false, if_false, bind, Option.bind, pure, nativeReport, Int.toNat_natCast]

theorem nonces_nativeReport : (m.nativeReport nonces runtimeSequence).nonces = nonces := by
  rw [EvidenceReconciliation.nonces, nativeReport]
  dsimp only
  split
  · next hnil => rw [hnil]; rfl
  · exact range_map_getD nonces {}

theorem leaves_nativeReport : (m.nativeReport nonces runtimeSequence).leaves = m.stagedLeaves := by
  rw [EvidenceReconciliation.leaves, nativeReport]
  dsimp only [Option.getD_some]
  apply ext_getElem
  · simp
  · intro k hk _
    rw [length_map, length_range] at hk
    simp [hk]

variable [Turso]

theorem Ledger.Valid.staged_sequences {L : Ledger} (h : L.Valid) :
    (L.staged.map (·.leaf.mediationSequence)).Pairwise (· < ·) ∧
      ∀ q : ℤ, q ∈ L.staged.map (·.leaf.mediationSequence) → 1 ≤ q ∧ q ≤ L.bindings.length := by
  have hsame : L.staged.map (·.leaf.mediationSequence) =
      (L.staged.map StagedRecord.evidence).map (·.mediationSequence) := by
    rw [map_map]
    exact map_congr_left fun x hx => h.leaf_sequence x hx
  have hnumbers := h.numbered_records
  rw [Ledger.records, map_append] at hnumbers
  have hsub : ((L.staged.map StagedRecord.evidence).map (·.mediationSequence)).Sublist
      (numbers L.records.length) := by
    rw [Ledger.records, ← hnumbers]
    exact sublist_append_right _ _
  rw [hsame]
  refine ⟨(pairwise_numbers _).sublist hsub, fun q hq => ?_⟩
  have hmem := mem_numbers.1 (hsub.subset hq)
  have hlength := L.length_bindings
  omega

section

variable (h : Mirrors s m nonces store) (hresolved : ¬store.Unresolved s)

include h hresolved

theorem Mirrors.staged_sequences :
    (m.stagedLeaves.map StagedLeaf.mediationSequence).Pairwise (· < ·) ∧
      ∀ q ∈ m.stagedLeaves.map StagedLeaf.mediationSequence, q ≠ 0 ∧ q ≤ m.mediationSequence := by
  obtain ⟨L, hL⟩ := h.represented
  obtain ⟨hsorted, hbound⟩ := hL.valid.staged_sequences
  have hcount : m.mediationSequence = L.bindings.length := by
    rw [h.sequence, hL.reservations, L.length_reservationRows]
  have hleaves : L.staged.map (·.leaf.mediationSequence) =
      (m.stagedLeaves.map StagedLeaf.mediationSequence).map fun q : ℕ => (q : ℤ) := by
    have hfirst := congrArg (List.map Prod.fst) (h.staged hresolved)
    rw [hL.staged, map_map, map_map, map_map] at hfirst
    rw [map_map]
    exact hfirst
  rw [hleaves] at hsorted hbound
  rw [pairwise_map] at hsorted
  refine ⟨hsorted.imp fun hlt => Int.ofNat_lt.1 hlt, fun q hq => ?_⟩
  have hq' := hbound (q : ℤ) (mem_map_of_mem hq)
  omega

theorem Mirrors.length_stagedLeaves : m.stagedLeaves.length ≤ m.mediationSequence := by
  obtain ⟨L, hL⟩ := h.represented
  have hstaged := congrArg List.length (h.staged hresolved)
  rw [hL.staged, length_map, length_map, length_map] at hstaged
  have hcount : m.mediationSequence = L.bindings.length := by
    rw [h.sequence, hL.reservations, L.length_reservationRows]
  have hbindings := L.length_bindings
  have hrecords := L.length_records
  omega

/-- **A fresh session is given the fields of the one that was stopped.** -/
theorem Mirrors.resumes (runtimeSequence : ℤ) {rt : Runtime} {inst session : Handle}
    {j : Fin maxResources} (hsession : resolve rt inst session .session = .ok j)
    (hfresh : (rt.resources j).Fresh) : (sessionReconcileEvidence rt inst session
        (some (m.nativeReport nonces runtimeSequence))).status = .ok ∧
      SameEvidence m ((sessionReconcileEvidence rt inst session
        (some (m.nativeReport nonces runtimeSequence))).runtime.resources j).mediation := by
  obtain ⟨hsorted, hbound⟩ := h.staged_sequences hresolved
  have hlength : nonces.length = m.mediationSequence := by
    have hconsumed := congrArg List.length h.consumed
    rw [length_map, length_map] at hconsumed
    rw [h.sequence, hconsumed]
  have hleaves : m.stagedLeaves.length ≤ nonces.length := by
    rw [hlength]
    exact h.length_stagedLeaves hresolved
  have hformed : (m.nativeReport nonces runtimeSequence).WellFormed := by
    refine ⟨rfl, rfl, h.limit, h.room, hleaves, hlength, fun hne => ?_, fun _ => ⟨rfl, rfl, le_rfl⟩⟩
    have hnil : nonces ≠ [] := fun hnil => hne (length_eq_zero_iff.2 hnil)
    simp [nativeReport, hnil]
  obtain ⟨hstatus, loaded, htable, hrestored, hdropped⟩ := reconcile_accepts hsession hfresh hformed
    (by
      rw [leaves_nativeReport]
      exact checkStagedSequences_ok hbound hsorted (by simp))
    (by
      rw [nonces_nativeReport]
      exact h.table.nodup)
  refine ⟨hstatus, ?_⟩
  rw [hrestored]
  rw [nonces_nativeReport] at htable
  refine ⟨rfl, rfl, rfl, fun nonce => ?_, ?_⟩
  · rw [h.table.holds_iff]
    exact htable.holds_iff nonce
  · show loaded.stagedLeaves ++ (m.nativeReport nonces runtimeSequence).leaves = _
    rw [hdropped, leaves_nativeReport]
    rfl

end

end

section

/-- The tables hold nothing of the session. -/
structure EvidenceStore.Blank (store : EvidenceStore) (s : String) : Prop where
  reservations : store.reservationsOf s = []
  evidence : store.evidenceOf s = []
  head : store.loadHead s = none
  batches : store.batchesOf s = []
  leaves : ∀ row ∈ store.leaves, row.sessionId ≠ s

variable {store : EvidenceStore} {s : String} {t : Tracked EvidenceStore} {c : Call EvidenceStore}

theorem world_of_quiet (hquiet : ¬c.OnMediation) : (step t c).world = t.world := by
  cases c with
  | strictMediate | batchedFlush | sessionReconcileEvidence => exact absurd trivial hquiet
  | _ => rfl

variable [Turso]

theorem EvidenceStore.Blank.represents (h : store.Blank s) : Represents store s {} where
  valid := .empty
  reservations := h.reservations
  evidence := h.evidence
  head := h.head
  batches := h.batches
  staged := by
    rw [stagedLeaves, map_nil, filter_eq_nil_iff]
    intro row hrow
    simp [h.leaves row hrow]
  leaves := fun row hrow hs => absurd hs (h.leaves row hrow)

theorem Mirrors.blank (h : store.Blank s) : Mirrors s {} [] store where
  represented := ⟨{}, h.represents⟩
  table := .empty rfl rfl
  limit := Nat.zero_le _
  room := Nat.zero_le _
  sequence := by rw [h.reservations]; rfl
  consumed := by rw [h.reservations]; rfl
  semantic := by simp [h.reservations]
  root := fun _ => h.represents.headRoot
  staged := fun _ => by rw [h.represents.staged]; rfl

/-- The mediations and flushes of the call are of the session in slot `i` and
report to the journal under the session id `s`. -/
def Call.Reports (sha256 : Bytes → Digest) (s : String) (i : Fin maxResources) :
    Call EvidenceStore → Prop
  | .strictMediate _ session request _ =>
    session.resourceId = slotId i ∧ ∀ r, request = some r → OfJournal sha256 s r.evidence
  | .batchedFlush _ session request _ =>
    session.resourceId = slotId i ∧ ∀ r, request = some r → OfJournal sha256 s r.evidence
  | .sessionReconcileEvidence .. => False
  | _ => True

/-- A call in the run of the session in slot `i`: the session is not replaced by
another one. -/
def OnJournal (sha256 : Bytes → Digest) (s : String) (i : Fin maxResources)
    (t : Tracked EvidenceStore) (c : Call EvidenceStore) : Prop :=
  ((step t c).life i).serial = (t.life i).serial ∧ c.Reports sha256 s i

theorem mirrors_step {sha256 : Bytes → Digest} {i : Fin maxResources}
    (h : ∃ nonces, Mirrors s (t.runtime.resources i).mediation nonces t.world)
    (hc : OnJournal sha256 s i t c) :
    ∃ nonces, Mirrors s ((step t c).runtime.resources i).mediation nonces (step t c).world := by
  obtain ⟨nonces, hmirrors⟩ := h
  obtain ⟨hserial, hreports⟩ := hc
  by_cases hon : c.OnMediation
  · cases c with
    | strictMediate inst session request result =>
      exact mirrors_mediate hmirrors hreports.1 hreports.2
    | batchedFlush inst session request result =>
      exact ⟨nonces, mirrors_flush hmirrors hreports.1 hreports.2⟩
    | sessionReconcileEvidence => exact hreports.elim
    | _ => exact hon.elim
  · rw [world_of_quiet hon]
    rcases mediationView_quiet i t hon with hview | ⟨_, hrenewed⟩
    · have hmediation : ((step t c).runtime.resources i).mediation =
          (t.runtime.resources i).mediation := congrArg MediationView.mediation hview
      rw [hmediation]
      exact ⟨nonces, hmirrors⟩
    · omega

/-- **Reconciliation simulates the session**: after any run without an unresolved
reservation the journal tells its fields, and a fresh session that is given
them has the same. A session that mediated nothing has no reconciliation. -/
theorem reconciliation_simulates (sha256 : Bytes → Digest) {t : Tracked EvidenceStore}
    {s : String} {i : Fin maxResources} {calls : List (Call EvidenceStore)}
    (hmediation : (t.runtime.resources i).mediation = {}) (hblank : t.world.Blank s)
    (hrun : Along step (OnJournal sha256 s i) t calls)
    (hresolved : ¬(run step t calls).world.Unresolved s) :
    let m := ((run step t calls).runtime.resources i).mediation
    (m.mediationSequence = 0 → (run step t calls).world.reconciliation s = .ok none ∧
      m.executionRoot = .zero ∧ m.consumedNonceCount = 0 ∧ m.stagedLeaves = []) ∧
    (m.mediationSequence ≠ 0 → ∃ reconciliation evidence,
      (run step t calls).world.reconciliation s = .ok (some reconciliation) ∧
      Tells reconciliation m ∧ reconciliation.native = some evidence ∧
      ∀ rt inst session j, resolve rt inst session .session = .ok j → (rt.resources j).Fresh →
        (sessionReconcileEvidence rt inst session (some evidence)).status = .ok ∧
        SameEvidence m ((sessionReconcileEvidence rt inst session
          (some evidence)).runtime.resources j).mediation) := by
  have hstart : ∃ nonces, Mirrors s (t.runtime.resources i).mediation nonces t.world :=
    ⟨[], hmediation ▸ .blank hblank⟩
  obtain ⟨nonces, hmirrors⟩ := hrun.invariant
    (I := fun t => ∃ nonces, Mirrors s (t.runtime.resources i).mediation nonces t.world)
    (fun _ _ h hc => mirrors_step h hc) hstart
  refine ⟨fun hnone => hmirrors.untouched hresolved hnone, fun hmediated => ?_⟩
  obtain ⟨runtimeSequence, hreconciles⟩ := hmirrors.reconciliation hresolved hmediated
  refine ⟨_, _, hreconciles, hmirrors.tells runtimeSequence, native_report runtimeSequence, ?_⟩
  intro rt inst session j hsession hfresh
  exact hmirrors.resumes hresolved runtimeSequence hsession hfresh

end

section

open Turso

def oneDelivered : Tracked EvidenceStore :=
  let it : Installation := {}
  run step (Tracked.initial {}) (it.setUp ++ [it.publish 1 1, it.poll])

def exampleSink : EvidenceSink where
  sessionId := "session"
  committedExecutionRoot := List.replicate 32 7
  evidenceReference := ""
  kernelSignature := []

/-- The one hash that a mediation through `exampleSink` asks for. -/
def exampleHash : Bytes → Digest := fun _ =>
  ⟨[118, 25, 2, 158, 66, 77, 76, 77, 51, 180, 234, 198, 59, 245, 80, 240,
    222, 120, 107, 46, 80, 174, 39, 128, 126, 233, 126, 198, 191, 75, 248, 60], rfl⟩

def exampleMediation : Call EvidenceStore :=
  let it : Installation := {}
  .strictMediate it.instance_ it.session
    (some {
      durability := .strict
      arena := it.arena
      lease := Installation.lease 1
      arenaGeneration := it.arenaGeneration
      bundleEpoch := 7
      firstSequence := 1
      lastSequence := 1
      nonce := { low := 5 }
      semanticRoot := .filled 9
      beforeExecutionRoot := .zero
      adapter := some { execute := some fun _ => .done .ok { outcome := .committed } }
      evidence := some (exampleSink.vtable exampleHash) })
    (some {})

set_option maxRecDepth 4000 in
theorem oneDelivered_mediation : (oneDelivered.runtime.resources 3).mediation = {} := rfl

theorem reconciliation_simulates_one : ∃ reconciliation,
      (run step oneDelivered [exampleMediation]).world.reconciliation "session" =
          .ok (some reconciliation) ∧
        Tells reconciliation
          ((run step oneDelivered [exampleMediation]).runtime.resources 3).mediation := by
  have hblank : oneDelivered.world.Blank "session" := by
    constructor <;> decide +kernel
  have hserial : ((step oneDelivered exampleMediation).life 3).serial =
      (oneDelivered.life 3).serial := by decide +kernel
  have hrun : Along step (OnJournal exampleHash "session" 3) oneDelivered [exampleMediation] := by
    refine ⟨⟨hserial, rfl, fun r hr => ?_⟩, trivial⟩
    obtain rfl := Option.some.inj hr
    exact ⟨exampleSink, rfl, rfl⟩
  have hresolved : ¬(run step oneDelivered [exampleMediation]).world.Unresolved "session" := by
    decide +kernel
  obtain ⟨_, hreports⟩ := reconciliation_simulates exampleHash oneDelivered_mediation hblank hrun hresolved
  obtain ⟨reconciliation, _, hreconciles, htells, _⟩ := hreports (by decide +kernel)
  exact ⟨reconciliation, hreconciles, htells⟩

/-- **A session that mediated nothing** has no reservation, so there is nothing to
tell its fields. -/
theorem nothing_reconciled :
    ¬∀ (sha256 : Bytes → Digest) (t : Tracked EvidenceStore) (s : String) (i : Fin maxResources)
      (calls : List (Call EvidenceStore)),
      (t.runtime.resources i).mediation = {} → t.world.Blank s →
      Along step (OnJournal sha256 s i) t calls →
      ¬(run step t calls).world.Unresolved s →
      ∃ reconciliation, (run step t calls).world.reconciliation s = .ok (some reconciliation) ∧
        Tells reconciliation ((run step t calls).runtime.resources i).mediation := by
  intro h
  have hblank : oneDelivered.world.Blank "session" := by
    constructor <;> decide +kernel
  obtain ⟨reconciliation, hreconciles, _⟩ :=
    h exampleHash oneDelivered "session" 3 [] oneDelivered_mediation hblank trivial (by decide +kernel)
  have hnone : oneDelivered.world.reconciliation "session" = .ok none := by decide +kernel
  rw [run_nil, hnone] at hreconciles
  cases hreconciles

end

end PooFlow
