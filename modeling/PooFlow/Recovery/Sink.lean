import PooFlow.Journal.Refinement
import PooFlow.Runtime.Mediation

/-! `native_evidence_sink.py` and `_native/evidence.py`: the evidence callbacks of a session, whose
world is the store. -/

namespace PooFlow

open Foundation EvidenceStore

def Digest.ofBytes (bytes : Bytes) : Option Digest :=
  if h : bytes.length = digestBytes then some ⟨bytes, h⟩ else none

@[simp] theorem Digest.ofBytes_bytes (digest : Digest) :
    Digest.ofBytes digest.bytes = some digest :=
  dif_pos digest.length_eq

theorem Digest.bytes_inj {a b : Digest} : a.bytes = b.bytes ↔ a = b := by
  cases a
  cases b
  simp

theorem Digest.ofBytes_of_length {bytes : Bytes} (h : bytes.length = 32) :
    ∃ digest : Digest, digest.bytes = bytes ∧ Digest.ofBytes bytes = some digest :=
  ⟨⟨bytes, h⟩, rfl, dif_pos h⟩

def CompactId.limbs (nonce : CompactId) : Nonce := (nonce.high.toNat, nonce.low.toNat)

theorem CompactId.limbs_isUint64 (nonce : CompactId) : nonce.limbs.IsUint64 := by
  have hhigh := nonce.high.toNat_lt
  have hlow := nonce.low.toNat_lt
  refine ⟨⟨Int.natCast_nonneg _, ?_⟩, Int.natCast_nonneg _, ?_⟩
  · show ((nonce.high.toNat : ℕ) : ℤ) < 2 ^ 64
    omega
  · show ((nonce.low.toNat : ℕ) : ℤ) < 2 ^ 64
    omega

/-- What the sink is built with, and what its surroundings decide at each
callback: whether the database is available, and the time. -/
structure EvidenceSink where
  sessionId : String
  committedExecutionRoot : Bytes
  evidenceReference : String
  kernelSignature : Bytes
  signatureVerified : Bool := false
  inclusionProofVerified : Bool := false
  reserveAvailable : Bool := true
  commitAvailable : Bool := true
  flushAvailable : Bool := true
  createdAtNs : ℤ := 0

namespace EvidenceSink

variable (sha256 : Bytes → Digest) (sink : EvidenceSink)

def flags : UInt32 :=
  (if sink.signatureVerified then 1 else 0) ||| (if sink.inclusionProofVerified then 2 else 0)

theorem flags_known : sink.flags &&& ~~~evidenceFlags = 0 := by
  rw [flags]
  cases sink.signatureVerified <;> cases sink.inclusionProofVerified <;> decide

def reservation (value : EvidenceReservation) : AuthorizedEffectEvidenceReservation where
  sessionId := sink.sessionId
  mediationSequence := value.mediationSequence
  firstSequence := value.firstSequence
  lastSequence := value.lastSequence
  nonce := value.nonce.limbs
  semanticRoot := value.semanticRoot.bytes
  beforeExecutionRoot := value.beforeExecutionRoot.bytes

def outcomeOf : MediationOutcome → EvidenceOutcome
  | .committed => .committed
  | .buffered => .buffered
  | .indeterminate | .foreign _ _ => .indeterminate

def receipt (invocation : EvidenceInvocation) : AuthorizedEffectEvidenceReceipt where
  sessionId := sink.sessionId
  mediationSequence := invocation.mediationSequence
  firstSequence := invocation.firstSequence
  lastSequence := invocation.lastSequence
  nonce := invocation.nonce.limbs
  semanticRoot := invocation.semanticRoot.bytes
  beforeExecutionRoot := invocation.beforeExecutionRoot.bytes
  afterExecutionRoot :=
    if outcomeOf invocation.outcome = .committed then sink.committedExecutionRoot
    else invocation.beforeExecutionRoot.bytes
  outcome := outcomeOf invocation.outcome
  observationDigest := invocation.observationDigest.bytes
  evidenceReference := sink.evidenceReference
  kernelSignature := sink.kernelSignature
  signatureVerified := sink.signatureVerified
  inclusionProofVerified := sink.inclusionProofVerified
  createdAtNs := sink.createdAtNs

section

variable [Turso]

/-- `reserve`: any exception is status 16. -/
def reserve (value : EvidenceReservation) (store : EvidenceStore) : Status × EvidenceStore :=
  match store.reserve sink.reserveAvailable (sink.reservation value) with
  | .ok store' => (.ok, store')
  | .error _ => (.internalInvariant, store)

/-- The journal's part of `commit`: the new tables with the evidence digest. -/
def record (invocation : EvidenceInvocation) (store : EvidenceStore) :
    Except Raised (EvidenceStore × Bytes) := do
  let receipt ← authorizedEffectEvidenceReceipt (sink.receipt invocation)
  if receipt.outcome = .buffered then
    store.stageBatched sha256 sink.commitAvailable receipt invocation.inputDigest.bytes
  else store.appendAndDigest sha256 sink.commitAvailable receipt

/-- `commit`: a digest that has not 32 bytes is an exception too, raised after
the journal has answered. -/
def commit (invocation : EvidenceInvocation) (store : EvidenceStore) :
    (Status × EvidenceResult) × EvidenceStore :=
  match sink.record sha256 invocation store with
  | .error _ => ((.internalInvariant, {}), store)
  | .ok (store', evidenceDigest) =>
    match Digest.ofBytes (sink.receipt invocation).afterExecutionRoot,
      Digest.ofBytes evidenceDigest,
      Digest.ofBytes (EvidenceStore.attestation sha256 sink.kernelSignature) with
    | some afterExecutionRoot, some evidenceDigest, some attestationDigest =>
      ((.ok, {
        verificationFlags := sink.flags
        afterExecutionRoot, evidenceDigest, attestationDigest }), store')
    | _, _, _ => ((.internalInvariant, {}), store')

def flush (invocation : FlushInvocation) (store : EvidenceStore) :
    (Status × FlushResult) × EvidenceStore :=
  match store.flushBatched sha256 sink.flushAvailable sink.sessionId
      (invocation.leafDigests.map Digest.bytes) sink.kernelSignature sink.flags.toNat with
  | .error _ => ((.internalInvariant, {}), store)
  | .ok (store', batch) =>
    if batch.beforeRoot ≠ invocation.beforeExecutionRoot.bytes then
      ((.internalInvariant, {}), store')
    else
      match Digest.ofBytes batch.afterRoot, Digest.ofBytes batch.batchRoot,
        Digest.ofBytes batch.evidenceDigest, Digest.ofBytes batch.attestationDigest with
      | some afterExecutionRoot, some batchRoot, some evidenceDigest, some attestationDigest =>
        ((.ok, {
          verificationFlags := UInt32.ofNat batch.verificationFlags.toNat
          afterExecutionRoot, batchRoot, evidenceDigest, attestationDigest }), store')
      | _, _, _, _ => ((.internalInvariant, {}), store')

def vtable : EvidenceVtable EvidenceStore where
  reserve := some sink.reserve
  finalize := some (sink.commit sha256)
  flush := some (sink.flush sha256)

theorem reserve_cases (value : EvidenceReservation) (store : EvidenceStore) :
    sink.reserve value store = (.internalInvariant, store) ∨
      ∃ store', store.reserve sink.reserveAvailable (sink.reservation value) = .ok store' ∧
        sink.reserve value store = (.ok, store') := by
  rw [reserve]
  cases store.reserve sink.reserveAvailable (sink.reservation value) with
  | error raised => exact Or.inl rfl
  | ok store' => exact Or.inr ⟨store', rfl, rfl⟩

theorem record_ok {invocation : EvidenceInvocation} {store store' : EvidenceStore}
    {evidenceDigest : Bytes}
    (h : sink.record sha256 invocation store = .ok (store', evidenceDigest)) :
    if outcomeOf invocation.outcome = .buffered then
      store.stageBatched sha256 sink.commitAvailable (sink.receipt invocation)
        invocation.inputDigest.bytes = .ok (store', evidenceDigest)
    else store.append sink.commitAvailable (sink.receipt invocation) = .ok store' ∧
      evidenceDigest = EvidenceStore.evidenceDigest sha256 (sink.receipt invocation) := by
  have houtcome : (sink.receipt invocation).outcome = outcomeOf invocation.outcome := rfl
  simp only [record, authorizedEffectEvidenceReceipt, bind_eq_ok, validateReceipt_eq_ok,
    exists_const, pure_eq_ok] at h
  obtain ⟨_, ⟨_, rfl⟩, hrecord⟩ := h
  rw [houtcome] at hrecord
  split
  · next hbuffered => rwa [if_pos hbuffered] at hrecord
  · next hbuffered =>
    rw [if_neg hbuffered] at hrecord
    simp only [appendAndDigest, bind_eq_ok, pure_eq_ok, Prod.mk.injEq] at hrecord
    obtain ⟨_, happend, rfl, rfl⟩ := hrecord
    exact ⟨happend, rfl⟩

end

theorem length_attestation (kernelSignature : Bytes) :
    (attestation sha256 kernelSignature).length = 32 := by
  rw [attestation]
  split
  · rfl
  · exact (sha256 kernelSignature).length_eq

theorem length_leafDigest {e : AuthorizedEffectEvidenceReceipt} {index : ℕ}
    {inputDigest leafDigest : Bytes}
    (hleaf : EvidenceStore.IsLeafDigest sha256 e index inputDigest leafDigest) :
    leafDigest.length = 32 := by
  obtain ⟨leaf, hof, hdigest⟩ := hleaf
  obtain ⟨digest, hhex⟩ := leafOf_digest hof
  rw [hhex, bytesFromHex_hexText] at hdigest
  rw [← Except.ok.inj hdigest]
  exact (sha256 digest).length_eq

section

variable [Turso]

/-- What a successful `commit` has done: it closed the reservation, by a leaf if
the mediation was buffered and on the head otherwise. -/
structure Commits (invocation : EvidenceInvocation) (store : EvidenceStore)
    (result : EvidenceResult) (store' : EvidenceStore) : Prop where
  wellFormed : result.wellFormed .ok
  closes : store.Finalizes (sink.receipt invocation)
  after : result.afterExecutionRoot.bytes = (sink.receipt invocation).afterExecutionRoot
  staged : outcomeOf invocation.outcome = .buffered →
    store' = store.stagedWith (sink.receipt invocation)
      (store.leafRow (sink.receipt invocation) invocation.inputDigest.bytes
        result.evidenceDigest.bytes)
  appended : outcomeOf invocation.outcome ≠ .buffered →
    (sink.receipt invocation).mediationSequence =
        (store.loadHead sink.sessionId).elim 1 (·.mediationSequence + 1) ∧
      store' = store.appended (sink.receipt invocation)

theorem commit_cases (invocation : EvidenceInvocation) (store : EvidenceStore) :
    sink.commit sha256 invocation store = ((.internalInvariant, {}), store) ∨
      ∃ result store', sink.commit sha256 invocation store = ((.ok, result), store') ∧
        sink.Commits invocation store result store' := by
  rw [commit]
  rcases hrecord : sink.record sha256 invocation store with raised | ⟨store', evidenceDigest⟩
  · exact Or.inl rfl
  · right
    have hanswer := sink.record_ok sha256 hrecord
    have hcloses : store.Finalizes (sink.receipt invocation) := by
      split at hanswer
      · exact (stageBatched_eq_ok.1 hanswer).2.1
      · exact (append_eq_ok.1 hanswer.1).2.1
    have hlength : evidenceDigest.length = 32 := by
      split at hanswer
      · obtain ⟨_, _, _, _, hleaf, _⟩ := stageBatched_eq_ok.1 hanswer
        exact length_leafDigest sha256 hleaf
      · rw [hanswer.2, EvidenceStore.evidenceDigest]
        exact Digest.length_eq _
    obtain ⟨after, hafter, hafterOf⟩ :=
      Digest.ofBytes_of_length hcloses.valid.digested.2.2.1
    obtain ⟨digest, hdigest, hdigestOf⟩ := Digest.ofBytes_of_length hlength
    obtain ⟨attestation, _, hattestationOf⟩ :=
      Digest.ofBytes_of_length (length_attestation sha256 sink.kernelSignature)
    dsimp only
    rw [hafterOf, hdigestOf, hattestationOf]
    refine ⟨_, _, rfl, ⟨rfl, rfl, rfl, rfl, sink.flags_known⟩, hcloses, hafter, ?_, ?_⟩
    · intro hbuffered
      rw [if_pos hbuffered] at hanswer
      rw [(stageBatched_eq_ok.1 hanswer).2.2.2.2.2.2, hdigest]
    · intro hbuffered
      rw [if_neg hbuffered] at hanswer
      obtain ⟨_, _, hnext, rfl⟩ := append_eq_ok.1 hanswer.1
      exact ⟨hnext, rfl⟩

end

section

variable {store : EvidenceStore} {sessionId : String} {rows : List LeafRow} {root : Bytes}
  {kernelSignature : Bytes} {verificationFlags : ℤ} {batch : BatchRow}
  (hbatch : batch = store.batchOf sha256 sessionId rows root kernelSignature verificationFlags)
include hbatch

theorem length_afterRoot : batch.afterRoot.length = 32 := by
  rw [hbatch]
  exact Digest.length_eq _

theorem length_evidenceDigest : batch.evidenceDigest.length = 32 := by
  rw [hbatch]
  exact Digest.length_eq _

theorem length_attestationDigest : batch.attestationDigest.length = 32 := by
  rw [hbatch]
  exact length_attestation sha256 kernelSignature

theorem length_batchRoot {digests : List Bytes} (hdigests : digests ≠ [])
    (hroot : batchedMerkleRootDigests sha256 digests = .ok root) : batch.batchRoot.length = 32 := by
  have hlength : ∀ digest ∈ digests, digest.length = 32 := by
    rw [batchedMerkleRootDigests, bind_eq_ok] at hroot
    obtain ⟨_, hguard, _⟩ := hroot
    exact guardElse_eq_ok.1 hguard
  obtain ⟨digest, hdigest⟩ := batchedMerkleRootDigests_ok sha256 hdigests hlength
  rw [hbatch]
  show root.length = 32
  rw [Except.ok.inj (hroot.symm.trans hdigest)]
  exact digest.length_eq

end

/-- What a `flush` has done that reached the journal. -/
structure Flushes (store : EvidenceStore) (root : Bytes) (batch : BatchRow) : Prop where
  rows : store.stagedRows sink.sessionId ≠ []
  batch : batch = store.batchOf sha256 sink.sessionId (store.stagedRows sink.sessionId) root
    sink.kernelSignature sink.flags.toNat

theorem flush_cases (invocation : FlushInvocation) (store : EvidenceStore) :
    sink.flush sha256 invocation store = ((.internalInvariant, {}), store) ∨
      ∃ root batch, sink.Flushes sha256 store root batch ∧
        (batch.beforeRoot ≠ invocation.beforeExecutionRoot.bytes ∧
            sink.flush sha256 invocation store =
              ((.internalInvariant, {}), store.flushed batch) ∨
          ∃ result : FlushResult, result.wellFormed ∧
            result.afterExecutionRoot.bytes = batch.afterRoot ∧
            sink.flush sha256 invocation store = ((.ok, result), store.flushed batch)) := by
  rw [flush]
  rcases hflush : store.flushBatched sha256 sink.flushAvailable sink.sessionId
      (invocation.leafDigests.map Digest.bytes) sink.kernelSignature sink.flags.toNat with
    raised | ⟨store', batch⟩
  · exact Or.inl rfl
  · right
    obtain ⟨_, hrows, hdigests, ⟨root, hroot, hbatch⟩, _, rfl⟩ :=
      flushBatched_eq_ok.1 hflush
    refine ⟨root, batch, ⟨hrows, hbatch⟩, ?_⟩
    dsimp only
    split
    · next hbefore => exact Or.inl ⟨hbefore, rfl⟩
    · right
      obtain ⟨after, hafter, hafterOf⟩ := Digest.ofBytes_of_length
        (length_afterRoot sha256 hbatch)
      obtain ⟨batchRoot, _, hrootOf⟩ := Digest.ofBytes_of_length
        (length_batchRoot sha256 hbatch
          (fun hnil => hrows (List.map_eq_nil_iff.1 (hdigests.trans hnil))) hroot)
      obtain ⟨digest, _, hdigestOf⟩ := Digest.ofBytes_of_length
        (length_evidenceDigest sha256 hbatch)
      obtain ⟨attestation, _, hattestationOf⟩ := Digest.ofBytes_of_length
        (length_attestationDigest sha256 hbatch)
      rw [hafterOf, hrootOf, hdigestOf, hattestationOf]
      refine ⟨_, ⟨rfl, rfl, rfl, ?_⟩, hafter, rfl⟩
      have hflags : batch.verificationFlags = sink.flags.toNat := by rw [hbatch]; rfl
      rw [hflags, Int.toNat_natCast, UInt32.ofNat_toNat]
      exact sink.flags_known

end EvidenceSink

end PooFlow
