import PooFlow.Recovery.Sink
import PooFlow.Runtime.MediationMoves

namespace PooFlow

open Foundation LinearProbing List EvidenceStore MediationState
open Option (some.inj)

theorem outcomeOf_eq_committed {outcome : MediationOutcome} :
    EvidenceSink.outcomeOf outcome = .committed ↔ outcome = .committed := by
  cases outcome <;> simp [EvidenceSink.outcomeOf]

theorem outcomeOf_eq_buffered {outcome : MediationOutcome} :
    EvidenceSink.outcomeOf outcome = .buffered ↔ outcome = .buffered := by
  cases outcome <;> simp [EvidenceSink.outcomeOf]

theorem classifyAdapter_ne_buffered (status : Status) (result : AdapterResult) :
    (classifyAdapter status result).1 ≠ .buffered := by
  unfold classifyAdapter
  split
  · simp
  · split
    · simp
    · split <;> simp

theorem bufferOutcome_eq_buffered {durability : Durability} {outcome : MediationOutcome}
    (houtcome : outcome ≠ .buffered) (h : bufferOutcome durability outcome = .buffered) :
    durability = .batched := by
  unfold bufferOutcome at h
  split at h
  · next hbatched => exact hbatched.2
  · exact absurd h houtcome

section

variable {m : MediationState} {semanticRoot : Digest} {nonce : CompactId} {cell sequence : ℕ}

def MediationState.taken (m : MediationState) (semanticRoot : Digest) (nonce : CompactId)
    (cell : ℕ) : MediationState :=
  { (m.bindSemanticRoot semanticRoot).consume nonce cell with
    mediationSequence := m.mediationSequence + 1 }

def MediationState.closed (m : MediationState) (invocation : EvidenceInvocation)
    (result : EvidenceResult) : MediationState :=
  { m with
    executionRoot :=
      if invocation.outcome = .committed then result.afterExecutionRoot else m.executionRoot
    stagedLeaves :=
      if invocation.outcome = .buffered then
        m.stagedLeaves ++ [⟨invocation.mediationSequence, result.evidenceDigest⟩]
      else m.stagedLeaves }

theorem taken_executionRoot (semanticRoot : Digest) (nonce : CompactId) (cell : ℕ) :
    (m.taken semanticRoot nonce cell).executionRoot = m.executionRoot := by
  unfold taken bindSemanticRoot consume
  split <;> rfl

theorem taken_stagedLeaves (semanticRoot : Digest) (nonce : CompactId) (cell : ℕ) :
    (m.taken semanticRoot nonce cell).stagedLeaves = m.stagedLeaves := by
  unfold taken bindSemanticRoot consume
  split <;> rfl

theorem bindSemanticRoot_semanticRoot
    (h : m.semanticRootBound = true → m.semanticRoot = semanticRoot) :
    (m.bindSemanticRoot semanticRoot).semanticRootBound = true ∧
      (m.bindSemanticRoot semanticRoot).semanticRoot = semanticRoot := by
  unfold bindSemanticRoot
  split
  · next hbound => exact ⟨hbound, h hbound⟩
  · exact ⟨rfl, rfl⟩

theorem settle_of_invalid {judgement : Judgement} {result : EvidenceResult}
    (h : judgement.valid = false) :
    ((m.bindSemanticRoot semanticRoot).consume nonce cell).settle judgement result sequence =
      m.taken semanticRoot nonce cell := by
  have hsequence := bindSemanticRoot_mediationSequence m semanticRoot
  simp only [MediationState.settle, taken, consume, h, hsequence, Bool.false_eq_true, false_and, if_false]

theorem settle_of_valid {invocation : EvidenceInvocation} {result : EvidenceResult}
    (hsequence : invocation.mediationSequence = sequence) :
    ((m.bindSemanticRoot semanticRoot).consume nonce cell).settle
        { valid := true, status := .ok, outcome := invocation.outcome } result sequence =
      (m.taken semanticRoot nonce cell).closed invocation result := by
  have hbound := bindSemanticRoot_mediationSequence m semanticRoot
  simp only [MediationState.settle, closed, taken, consume, hbound, hsequence, true_and]

end

section

variable {store : EvidenceStore} {s : String}

theorem bindings_resolveReservation (sessionId : String) (sequence : ℤ) (state : ReservationState) :
    ((store.resolveReservation sessionId sequence state).reservationsOf s).map
        (·.toEffectBinding) = (store.reservationsOf s).map (·.toEffectBinding) := by
  rw [reservationsOf_resolve]
  split
  · rw [map_map]
    refine map_congr_left fun row _ => ?_
    rw [Function.comp_apply]
    split <;> rfl
  · rfl

/-- A flush resolves nothing that was only reserved. -/
theorem unresolved_flushed {batch : BatchRow} (h : store.Unresolved s) :
    (store.flushed batch).Unresolved s := by
  obtain ⟨row, hrow, hstate⟩ := h
  have hrows : (store.flushed batch).reservationsOf s = _ :=
    reservationsOf_closeStaged batch.sessionId batch.batchId
  refine ⟨row, ?_, hstate⟩
  rw [hrows]
  split
  · exact mem_map.2 ⟨row, hrow, if_neg (by simp [hstate])⟩
  · exact hrow

theorem bindings_flushed (batch : BatchRow) :
    ((store.flushed batch).reservationsOf s).map (·.toEffectBinding) =
      (store.reservationsOf s).map (·.toEffectBinding) := by
  have hrows : (store.flushed batch).reservationsOf s = _ :=
    reservationsOf_closeStaged batch.sessionId batch.batchId
  rw [hrows]
  split
  · rw [map_map]
    refine map_congr_left fun row _ => ?_
    rw [Function.comp_apply]
    split <;> rfl
  · rfl

end

variable [Turso]

/-- **Mirror invariant**, relative to the nonces consumed so far. -/
structure Mirrors (s : String) (m : MediationState) (nonces : List CompactId)
    (store : EvidenceStore) : Prop where
  represented : ∃ L, Represents store s L
  table : NonceInvariant m nonces
  limit : nonces.length ≤ maxConsumedNonces
  room : m.stagedLeaves.length ≤ maxStagedLeaves
  sequence : m.mediationSequence = (store.reservationsOf s).length
  consumed : (store.reservationsOf s).map (·.nonce) = nonces.map fun nonce => nonce.limbs.text
  semantic : ∀ row ∈ store.reservationsOf s,
    m.semanticRootBound = true ∧ row.semanticRoot = m.semanticRoot.bytes
  root : ¬store.Unresolved s → store.headRoot s = m.executionRoot.bytes
  staged : ¬store.Unresolved s →
    (store.stagedLeaves s).map (fun row => (row.mediationSequence, row.leafDigest)) =
      m.stagedLeaves.map fun leaf => ((leaf.mediationSequence : ℤ), leaf.digest.bytes)

section

variable {s : String} {m m' : MediationState} {nonces : List CompactId}
  {store store' : EvidenceStore}

/-- Reservations and nonces stay, so only root and leaves have to be compared. -/
theorem Mirrors.move (h : Mirrors s m nonces store) (hrepresented : ∃ L, Represents store' s L)
    (hbindings : (store'.reservationsOf s).map (·.toEffectBinding) =
      (store.reservationsOf s).map (·.toEffectBinding))
    (hkeeps : m' = { m with
      executionRoot := m'.executionRoot
      stagedLeaves := m'.stagedLeaves })
    (hroom : m'.stagedLeaves.length ≤ maxStagedLeaves)
    (hroot : ¬store'.Unresolved s → store'.headRoot s = m'.executionRoot.bytes)
    (hstaged : ¬store'.Unresolved s →
      (store'.stagedLeaves s).map (fun row => (row.mediationSequence, row.leafDigest)) =
        m'.stagedLeaves.map fun leaf => ((leaf.mediationSequence : ℤ), leaf.digest.bytes)) :
    Mirrors s m' nonces store' := by
  have hlength := congrArg List.length hbindings
  rw [length_map, length_map] at hlength
  have hnonces := congrArg (List.map (EffectBinding.nonce)) hbindings
  rw [map_map, map_map] at hnonces
  refine ⟨hrepresented, ?_, h.limit, hroom, ?_, ?_, ?_, hroot, hstaged⟩
  · rw [hkeeps]
    exact h.table.congr rfl rfl
  · rw [hkeeps, hlength]
    exact h.sequence
  · exact hnonces.trans h.consumed
  · intro row hrow
    have hmem : row.toEffectBinding ∈ (store'.reservationsOf s).map (·.toEffectBinding) :=
      mem_map_of_mem hrow
    rw [hbindings] at hmem
    obtain ⟨old, hold, hsame⟩ := mem_map.1 hmem
    obtain ⟨hbound, hsemantic⟩ := h.semantic old hold
    rw [hkeeps]
    exact ⟨hbound, by rw [← hsame]; exact hsemantic⟩

variable {r : AuthorizedEffectEvidenceReservation}

theorem unresolved_opened (hs : r.sessionId = s) : (store.opened r).Unresolved s := by
  refine ⟨r.spelled.stored.row .reserved, ?_, rfl⟩
  rw [reservationsOf_opened, if_pos hs]
  exact mem_append_right _ (mem_singleton.2 rfl)

variable {semanticRoot : Digest} {available : Bool}

theorem Mirrors.opened (h : Mirrors s m nonces store) (hopens : store.Opens available r)
    (hs : r.sessionId = s) {nonce : CompactId} {cell : ℕ} (hnonce : r.nonce = nonce.limbs)
    (hsemantic : r.semanticRoot = semanticRoot.bytes)
    (hbound : m.semanticRootBound = true → m.semanticRoot = semanticRoot)
    (hcell : admitNonce m nonce = .ok cell) :
    Mirrors s (m.taken semanticRoot nonce cell) (nonces ++ [nonce]) (store.opened r) := by
  obtain ⟨hslot, hcount⟩ := admitNonce_ok hcell
  obtain ⟨hboundAfter, hrootAfter⟩ := bindSemanticRoot_semanticRoot hbound
  have hrows : (store.opened r).reservationsOf s = _ := reservationsOf_opened r
  rw [if_pos hs] at hrows
  have hunresolved : (store.opened r).Unresolved s := unresolved_opened hs
  refine ⟨?_, ?_, ?_, ?_, ?_, ?_, ?_, fun hnot => absurd hunresolved hnot,
    fun hnot => absurd hunresolved hnot⟩
  · obtain ⟨L, hL⟩ := h.represented
    obtain ⟨L', _, hL'⟩ : ∃ L', LedgerMove (fun _ _ => True) L L' ∧
        Represents (store.opened r) s L' := hL.opened hopens fun _ => trivial
    exact ⟨L', hL'⟩
  · have htable : NonceInvariant (m.bindSemanticRoot semanticRoot) nonces := by
      unfold bindSemanticRoot
      split
      · exact h.table
      · exact h.table.congr rfl rfl
    have hslot' : nonceSlot (m.bindSemanticRoot semanticRoot).consumedNonces nonce =
        .vacant cell := by
      unfold bindSemanticRoot
      split <;> exact hslot
    exact (htable.consume hslot').congr rfl rfl
  · have hlength := h.table.count_eq_length
    rw [length_append, length_singleton]
    omega
  · have hroom := h.room
    unfold taken bindSemanticRoot consume
    split <;> exact hroom
  · rw [hrows, length_append, length_singleton, ← h.sequence]
    rfl
  · rw [hrows, map_append, map_append, h.consumed, map_singleton,
      map_singleton]
    show _ ++ [r.nonce.text] = _
    rw [hnonce]
  · intro row hrow
    refine ⟨hboundAfter, ?_⟩
    show row.semanticRoot = (m.bindSemanticRoot semanticRoot).semanticRoot.bytes
    rw [hrootAfter]
    rw [hrows] at hrow
    rcases mem_append.1 hrow with hold | hnew
    · obtain ⟨hwas, hsame⟩ := h.semantic row hold
      rw [hsame, hbound hwas]
    · rw [mem_singleton.1 hnew]
      exact hsemantic

theorem Mirrors.sequences (h : Mirrors s m nonces store) :
    (store.reservationsOf s).map (·.mediationSequence) =
      numbers (store.reservationsOf s).length := by
  obtain ⟨L, hL⟩ := h.represented
  rw [hL.reservations, L.sequences_reservationRows, hL.valid.numbered, L.length_reservationRows]

theorem Mirrors.not_confirms (h : Mirrors s m nonces store) (hs : r.sessionId = s)
    (hsequence : r.mediationSequence = (m.mediationSequence + 1 : ℕ)) :
    ¬store.Confirms available r := by
  intro hconfirms
  obtain ⟨row, hrow, _⟩ := hconfirms.existing
  obtain ⟨hmem, hsession, hkey⟩ := reservation_key hrow
  have hmemOf : row ∈ store.reservationsOf s :=
    mem_reservationsOf.2 ⟨hmem, hsession.trans hs⟩
  have hnumber : row.mediationSequence ∈ (store.reservationsOf s).map (·.mediationSequence) :=
    mem_map_of_mem hmemOf
  rw [h.sequences, mem_numbers] at hnumber
  have hcount := h.sequence
  omega

section

variable {sha256 : Bytes → Digest} {sink : EvidenceSink} {invocation : EvidenceInvocation}
  {result : EvidenceResult}

theorem EvidenceSink.Commits.after_eq (h : sink.Commits invocation store result store')
    (hnot : invocation.outcome ≠ .committed) :
    result.afterExecutionRoot = invocation.beforeExecutionRoot := by
  have hafter := h.after
  have hkept : (sink.receipt invocation).afterExecutionRoot =
      invocation.beforeExecutionRoot.bytes :=
    if_neg fun houtcome => hnot (outcomeOf_eq_committed.1 houtcome)
  rw [hkept] at hafter
  exact Digest.bytes_inj.1 hafter

/-- **Evidence that is recorded on both sides** leaves them in agreement. -/
theorem Mirrors.settled {taken : MediationState} {opened : EvidenceStore}
    (h : Mirrors s taken nonces opened) (hsink : sink.sessionId = s)
    (hroot : opened.headRoot s = taken.executionRoot.bytes)
    (hstaged : (opened.stagedLeaves s).map (fun row => (row.mediationSequence, row.leafDigest)) =
      taken.stagedLeaves.map fun leaf => ((leaf.mediationSequence : ℤ), leaf.digest.bytes))
    (hcommits : sink.Commits invocation opened result store')
    (hbefore : invocation.beforeExecutionRoot = taken.executionRoot)
    (hroom : invocation.outcome = .buffered → taken.stagedLeaves.length < maxStagedLeaves) :
    Mirrors s (taken.closed invocation result) nonces store' := by
  obtain ⟨L, hL⟩ := h.represented
  have hsession : (sink.receipt invocation).sessionId = s := hsink
  by_cases hbuffered : invocation.outcome = .buffered
  · obtain rfl := hcommits.staged (outcomeOf_eq_buffered.2 hbuffered)
    have hclosedRoot : (taken.closed invocation result).executionRoot = taken.executionRoot :=
      if_neg (by simp [hbuffered])
    have hclosedLeaves : (taken.closed invocation result).stagedLeaves =
        taken.stagedLeaves ++ [⟨invocation.mediationSequence, result.evidenceDigest⟩] :=
      if_pos hbuffered
    refine h.move ?_ (bindings_resolveReservation _ _ .staged) rfl ?_ (fun _ => ?_) fun _ => ?_
    · obtain ⟨L', _, hL'⟩ : ∃ L', LedgerMove (fun _ _ => True) L L' ∧ Represents _ s L' :=
        hL.stagedWith hcommits.closes (outcomeOf_eq_buffered.2 hbuffered)
          invocation.inputDigest.bytes result.evidenceDigest.bytes
      exact ⟨L', hL'⟩
    · rw [hclosedLeaves, length_append, length_singleton]
      exact hroom hbuffered
    · rw [hclosedRoot]
      exact hroot
    · rw [stagedLeaves_stagedWith _ rfl]
      show List.map _ (if (sink.receipt invocation).sessionId = s then _ else _) = _
      rw [if_pos hsession, hclosedLeaves, map_append, map_append, hstaged]
      rfl
  · obtain ⟨hnext, rfl⟩ := hcommits.appended fun h => hbuffered (outcomeOf_eq_buffered.1 h)
    have hclosedLeaves : (taken.closed invocation result).stagedLeaves = taken.stagedLeaves :=
      if_neg hbuffered
    have hhead := @loadHead_replaceHead
      (((opened.recorded (sink.receipt invocation)).resolveReservation
        (sink.receipt invocation).sessionId (sink.receipt invocation).mediationSequence
        .finalized)) s
      ⟨(sink.receipt invocation).sessionId, (sink.receipt invocation).mediationSequence,
        (sink.receipt invocation).afterExecutionRoot⟩
    rw [if_pos hsession] at hhead
    refine h.move ?_ (bindings_resolveReservation _ _ .finalized) rfl ?_ (fun _ => ?_) fun _ => ?_
    · obtain ⟨L', _, hL'⟩ : ∃ L', LedgerMove (fun _ _ => True) L L' ∧ Represents _ s L' :=
        hL.appended hcommits.closes hnext
      exact ⟨L', hL'⟩
    · rw [hclosedLeaves]
      exact h.room
    · have hheadRoot : (opened.appended (sink.receipt invocation)).headRoot s =
          (sink.receipt invocation).afterExecutionRoot := by
        rw [headRoot, appended, hhead]
        rfl
      rw [hheadRoot, ← hcommits.after]
      by_cases hcommitted : invocation.outcome = .committed
      · exact congrArg Digest.bytes (if_pos hcommitted).symm
      · rw [hcommits.after_eq hcommitted, hbefore]
        exact congrArg Digest.bytes (if_neg hcommitted).symm
    · rw [hclosedLeaves]
      exact hstaged

theorem judgeEvidence_of_commits (h : sink.Commits invocation store result store') :
    judgeEvidence invocation.outcome invocation.beforeExecutionRoot .ok result =
      { valid := true, status := .ok, outcome := invocation.outcome } := by
  rw [judgeEvidence, if_neg (not_not.2 h.wellFormed), if_neg]
  rintro ⟨houtcome, hmoved⟩
  refine hmoved (h.after_eq fun hcommitted => ?_)
  rw [hcommitted] at houtcome
  simp at houtcome

/-- **A batch that the journal commits** leaves both sides in agreement, once the
session has dropped its leaves. -/
theorem Mirrors.flushed (h : Mirrors s m nonces store) (hsink : sink.sessionId = s)
    {root : Bytes} {batch : BatchRow} (hflushes : sink.Flushes sha256 store root batch)
    (hkeeps : m' = { m with
      executionRoot := m'.executionRoot
      stagedLeaves := m'.stagedLeaves })
    (hroom : m'.stagedLeaves.length ≤ maxStagedLeaves)
    (hagree : ¬store.Unresolved s →
      batch.afterRoot = m'.executionRoot.bytes ∧ m'.stagedLeaves = []) :
    Mirrors s m' nonces (store.flushed batch) := by
  obtain ⟨L, hL⟩ := h.represented
  have hsession : batch.sessionId = s := by rw [hflushes.batch, ← hsink, batchOf]
  have hresolved : ¬(store.flushed batch).Unresolved s → ¬store.Unresolved s :=
    fun hnot hunresolved => hnot (unresolved_flushed hunresolved)
  refine h.move ?_ (bindings_flushed batch) hkeeps hroom (fun hnot => ?_) fun hnot => ?_
  · obtain ⟨L', _, hL'⟩ : ∃ L', LedgerMove (fun _ _ => True) L L' ∧
        Represents (store.flushed batch) s L' := hL.flushed hflushes.rows hflushes.batch
    exact ⟨L', hL'⟩
  · have hhead : (store.flushed batch).loadHead s = _ := loadHead_replaceHead
      ⟨batch.sessionId, batch.lastMediationSequence, batch.afterRoot⟩
    rw [if_pos hsession] at hhead
    rw [headRoot, hhead]
    exact (hagree (hresolved hnot)).1
  · have hstaged : (store.flushed batch).stagedLeaves s = _ :=
      @stagedLeaves_closeStaged { store with batches := store.batches ++ [batch] } s
        batch.sessionId batch.batchId
    rw [if_pos hsession] at hstaged
    rw [hstaged, (hagree (hresolved hnot)).2]
    rfl

end

end

section

variable {s : String} {nonces : List CompactId} {store : EvidenceStore} {sha256 : Bytes → Digest}
  {rt : Runtime} {inst session : Handle} {i : Fin maxResources}

def OfJournal (sha256 : Bytes → Digest) (s : String)
    (evidence : Option (EvidenceVtable EvidenceStore)) : Prop :=
  ∃ sink : EvidenceSink, sink.sessionId = s ∧ evidence = some (sink.vtable sha256)

section

variable (h : Mirrors s (rt.resources i).mediation nonces store)
  (hslot : session.resourceId = slotId i)

include h hslot

/-- **A mediation keeps the mirror**, whatever its callbacks answer. -/
theorem mirrors_mediate {request : Option (StrictMediationRequest EvidenceStore)}
    {result : Option StrictMediationResult}
    (hjournal : ∀ r, request = some r → OfJournal sha256 s r.evidence) : ∃ nonces', Mirrors s
      ((strictMediate rt store inst session request result).runtime.resources i).mediation nonces'
      (strictMediate rt store inst session request result).world := by
  rcases hadmission : mediationAdmission rt inst session request result with status | plan
  · rw [strictMediate, hadmission]
    exact ⟨nonces, h⟩
  obtain ⟨hsession, rfl, _, _, _, _, hroot, hcell, _, ⟨evidence, hevidence, hreserve, hfinalize⟩,
    hroom, hsemantic⟩ := mediationAdmission_ok hadmission
  obtain ⟨sink, hsink, hvtable⟩ := hjournal _ rfl
  obtain rfl := some.inj (hevidence.symm.trans hvtable)
  obtain rfl : i = plan.session := (resourceId_of_resolve hsession).1 hslot
  have hcallback : plan.reserve = sink.reserve := (some.inj hreserve).symm
  rcases sink.reserve_cases (plan.reservation rt session) store with
    hfails | ⟨opened, hopened, hanswer⟩
  · have hrejected : strictMediate rt store inst session (some plan.request) result =
        { status := .internalInvariant, runtime := rt, world := store } := by
      rw [strictMediate, hadmission]
      dsimp only
      rw [hcallback, hfails]
      rfl
    rw [hrejected]
    exact ⟨nonces, h⟩
  have hfollows : (sink.reservation (plan.reservation rt session)).mediationSequence =
      ((rt.resources plan.session).mediation.mediationSequence + 1 : ℕ) := rfl
  rcases reserve_eq_ok.1 hopened with ⟨hconfirms, _⟩ | ⟨hopens, rfl⟩
  · exact absurd hconfirms (h.not_confirms hsink hfollows)
  have htaken : Mirrors s
      ((rt.resources plan.session).mediation.taken plan.request.semanticRoot plan.request.nonce
        plan.nonceCell) (nonces ++ [plan.request.nonce])
      (store.opened (sink.reservation (plan.reservation rt session))) :=
    h.opened hopens hsink rfl rfl hsemantic hcell
  have hresolved : ¬store.Unresolved s := hsink ▸ hopens.resolved
  have hconcluded : strictMediate rt store inst session (some plan.request) result =
      plan.conclude rt session (plan.evidenceAnswer rt store session) := by
    rw [strictMediate, hadmission]
    exact if_neg (by rw [hcallback, hanswer]; simp)
  have hfinal : plan.evidenceAnswer rt store session =
      sink.commit sha256 (plan.evidenceInvocation rt session)
        (store.opened (sink.reservation (plan.reservation rt session))) := by
    rw [MediationPlan.evidenceAnswer, MediationPlan.reservationAnswer, hcallback, hanswer,
      ← some.inj hfinalize]
  refine ⟨nonces ++ [plan.request.nonce], ?_⟩
  rw [hconcluded, conclude_mediation, if_pos rfl]
  show Mirrors s _ _ (plan.evidenceAnswer rt store session).2
  have hverdict : (plan.verdict rt store session).judgement plan.request.beforeExecutionRoot =
      judgeEvidence (plan.evidenceInvocation rt session).outcome
        plan.request.beforeExecutionRoot (plan.evidenceAnswer rt store session).1.1
        (plan.evidenceAnswer rt store session).1.2 := rfl
  have hsequence := evidenceInvocation_mediationSequence plan rt session
  have hevidenceOf : (plan.verdict rt store session).evidence =
      (plan.evidenceAnswer rt store session).1.2 := rfl
  rw [hverdict, hevidenceOf, hfinal]
  rcases sink.commit_cases sha256 (plan.evidenceInvocation rt session)
      (store.opened (sink.reservation (plan.reservation rt session))) with
    hfails | ⟨answer, store', hcommitted, hcommits⟩
  · -- the reservation stays behind and the session goes on without it
    rw [hfails, settle_of_invalid rfl]
    exact htaken
  · rw [hcommitted]
    have hjudged := judgeEvidence_of_commits hcommits
    rw [show judgeEvidence (plan.evidenceInvocation rt session).outcome
      plan.request.beforeExecutionRoot .ok answer = _ from hjudged, settle_of_valid hsequence]
    refine htaken.settled hsink ?_ ?_ hcommits ?_ ?_
    · rw [taken_executionRoot]
      exact h.root hresolved
    · rw [taken_stagedLeaves]
      exact h.staged hresolved
    · rw [taken_executionRoot]
      exact hroot.symm
    · intro hbuffered
      rw [taken_stagedLeaves]
      exact hroom (bufferOutcome_eq_buffered (classifyAdapter_ne_buffered _ _) hbuffered)

/-- **A flush keeps the mirror.** -/
theorem mirrors_flush {request : Option (BatchedFlushRequest EvidenceStore)}
    {result : Option BatchedFlushResult}
    (hjournal : ∀ r, request = some r → OfJournal sha256 s r.evidence) :
    Mirrors s ((batchedFlush rt store inst session request result).runtime.resources i).mediation
      nonces (batchedFlush rt store inst session request result).world := by
  rcases hadmission : flushAdmission rt inst session request result with status | plan
  · rw [batchedFlush, hadmission]
    exact h
  obtain ⟨hsession, rfl, ⟨evidence, hevidence, hflush⟩, _⟩ := flushAdmission_ok hadmission
  obtain ⟨sink, hsink, hvtable⟩ := hjournal _ rfl
  obtain rfl := some.inj (hevidence.symm.trans hvtable)
  obtain rfl : i = plan.session := (resourceId_of_resolve hsession).1 hslot
  have hcallback : plan.flush = sink.flush sha256 := (some.inj hflush).symm
  rw [batchedFlush, hadmission]
  dsimp only
  rw [hcallback]
  rcases sink.flush_cases sha256 (plan.invocation rt session) store with
    hfails | ⟨root, batch, hflushes, ⟨hbefore, hanswer⟩ | ⟨answer, hformed, hafter, hanswer⟩⟩
  · rw [hfails]
    exact h
  · rw [hanswer]
    refine h.flushed hsink hflushes rfl h.room fun hresolved => ?_
    refine absurd ?_ hbefore
    rw [hflushes.batch, batchOf, hsink]
    exact h.root hresolved
  · rw [hanswer]
    dsimp only
    rw [if_neg (by simp), if_neg (not_not.2 hformed)]
    dsimp only
    rw [Runtime.modify_apply, if_pos rfl]
    exact h.flushed hsink hflushes rfl (Nat.zero_le _) fun _ => ⟨hafter.symm, rfl⟩

end

end

end PooFlow
