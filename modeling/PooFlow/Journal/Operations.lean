import PooFlow.Journal.Framing
import PooFlow.Journal.Store

namespace PooFlow

open Foundation List

def EffectBinding.spelled (b : EffectBinding Nonce) : EffectBinding String :=
  b.withNonce b.nonce.text

def Evidence.spelled (e : Evidence Nonce) : Evidence String := e.withNonce e.nonce.text

variable (b : EffectBinding Nonce)

@[simp] theorem EffectBinding.nonce_spelled : b.spelled.nonce = b.nonce.text := rfl

@[simp] theorem EffectBinding.sessionId_spelled : b.spelled.sessionId = b.sessionId := rfl

@[simp] theorem EffectBinding.mediationSequence_spelled :
    b.spelled.mediationSequence = b.mediationSequence := rfl

@[simp] theorem Evidence.toEffectBinding_spelled (e : Evidence Nonce) :
    e.spelled.toEffectBinding = e.toEffectBinding.spelled := rfl

theorem ValidReceipt.spelled {e : Evidence Nonce} (h : ValidReceipt e) : ValidReceipt e.spelled :=
  ⟨h.inOrder, h.supported, h.digested, h.keepsRoot⟩

theorem EffectBinding.spelled_inj {a b : EffectBinding Nonce} (ha : a.nonce.IsUint64)
    (hb : b.nonce.IsUint64) (h : a.spelled = b.spelled) : a = b := by
  have htext := congrArg EffectBinding.nonce h
  rw [EffectBinding.nonce_spelled, EffectBinding.nonce_spelled] at htext
  have hnonce := Nonce.text_inj ha hb htext
  calc a = a.spelled.withNonce a.nonce := rfl
    _ = b.spelled.withNonce b.nonce := by rw [h, hnonce]
    _ = b := rfl

def EffectBinding.row (b : EffectBinding String) (state : ReservationState) : ReservationRow :=
  { b with state := state }

@[simp] theorem EffectBinding.toEffectBinding_row (b : EffectBinding String)
    (state : ReservationState) : (b.row state).toEffectBinding = b := rfl

section

variable [Turso]

@[simp] theorem EffectBinding.nonce_stored (b : EffectBinding String) :
    b.stored.nonce = b.nonce := rfl

@[simp] theorem EffectBinding.sessionId_stored (b : EffectBinding String) :
    b.stored.sessionId = b.sessionId := rfl

@[simp] theorem EffectBinding.mediationSequence_stored (b : EffectBinding String) :
    b.stored.mediationSequence = b.mediationSequence := rfl

@[simp] theorem Evidence.toEffectBinding_stored (e : Evidence String) :
    e.stored.toEffectBinding = e.toEffectBinding.stored := rfl

end

structure ValidReservation (r : AuthorizedEffectEvidenceReservation) : Prop where
  inOrder : r.InOrder
  semanticRoot : r.semanticRoot.length = 32
  beforeExecutionRoot : r.beforeExecutionRoot.length = 32
  nonce : r.nonce.IsUint64

theorem validateReservation_eq_ok {r : AuthorizedEffectEvidenceReservation} {u : Unit} :
    EvidenceStore.validateReservation r = .ok u ↔ ValidReservation r := by
  simp only [EvidenceStore.validateReservation, bind_eq_ok, guardElse_eq_ok,
    evidenceNonceText_eq_ok, exists_const, pure_eq_ok, and_true]
  constructor
  · rintro ⟨⟨horder, hsemantic, hbefore⟩, _, hnonce, _⟩
    exact ⟨horder, hsemantic, hbefore, hnonce⟩
  · rintro ⟨horder, hsemantic, hbefore, hnonce⟩
    exact ⟨⟨horder, hsemantic, hbefore⟩, _, hnonce, rfl⟩

namespace EvidenceStore

variable {store store' : EvidenceStore} {available : Bool}

section

variable {r : AuthorizedEffectEvidenceReservation}

theorem reservation_key {sequence : ℤ} {s : String} {row : ReservationRow}
    (h : store.reservation s sequence = some row) :
    row ∈ store.reservations ∧ row.sessionId = s ∧ row.mediationSequence = sequence := by
  have hkey := List.find?_some h
  rw [decide_eq_true_eq] at hkey
  exact ⟨mem_of_find?_eq_some h, hkey⟩

theorem reservationMatches_eq_ok {row : ReservationRow} (hsession : row.sessionId = r.sessionId)
    (hsequence : row.mediationSequence = r.mediationSequence) :
    reservationMatches r row = .ok true ↔ r.nonce.IsUint64 ∧ row.toEffectBinding = r.spelled := by
  obtain ⟨⟨session, sequence, first, last, nonce, semantic, before⟩, state⟩ := row
  dsimp only at hsession hsequence
  subst hsession hsequence
  rw [reservationMatches]
  dsimp only
  split
  · next hrange =>
    obtain ⟨hfirst, hlast⟩ := hrange
    simp only [bind_eq_ok, evidenceNonceText_eq_ok, pure_eq_ok, decide_eq_true_eq,
      EffectBinding.spelled, EffectBinding.withNonce, EffectBinding.mk.injEq, hfirst, hlast,
      true_and]
    constructor
    · rintro ⟨text, ⟨huint, rfl⟩, hnonce, hsemantic, hbefore⟩
      exact ⟨huint, hnonce.symm, hsemantic.symm, hbefore.symm⟩
    · rintro ⟨huint, rfl, rfl, rfl⟩
      exact ⟨_, ⟨huint, rfl⟩, rfl, rfl, rfl⟩
  · next hrange =>
    refine ⟨fun h => (Bool.noConfusion (Except.ok.inj h)), fun h => absurd ?_ hrange⟩
    have hfirst := congrArg EffectBinding.firstSequence h.2
    have hlast := congrArg EffectBinding.lastSequence h.2
    exact ⟨hfirst.symm, hlast.symm⟩

structure Confirms (store : EvidenceStore) (available : Bool)
    (r : AuthorizedEffectEvidenceReservation) : Prop where
  valid : ValidReservation r
  available : available = true
  existing : ∃ row, store.reservation r.sessionId r.mediationSequence = some row ∧
    row.toEffectBinding = r.spelled

/-- The reservation is new and may be taken out. -/
structure Opens (store : EvidenceStore) (available : Bool)
    (r : AuthorizedEffectEvidenceReservation) : Prop where
  valid : ValidReservation r
  available : available = true
  absent : store.reservation r.sessionId r.mediationSequence = none
  resolved : ¬store.Unresolved r.sessionId
  sequence : r.mediationSequence = store.nextReservationSequence r.sessionId
  root : r.beforeExecutionRoot = store.headRoot r.sessionId
  unused : ∀ old ∈ store.reservations, old.sessionId = r.sessionId →
    old.mediationSequence ≠ r.mediationSequence ∧ old.nonce ≠ r.nonce.text

variable [Turso]

def opened (store : EvidenceStore) (r : AuthorizedEffectEvidenceReservation) : EvidenceStore :=
  { store with reservations := store.reservations ++ [r.spelled.stored.row .reserved] }

theorem insertNewReservation_eq_ok : store.insertNewReservation r = .ok store' ↔
      ¬store.Unresolved r.sessionId ∧
        r.mediationSequence = store.nextReservationSequence r.sessionId ∧
        r.beforeExecutionRoot = store.headRoot r.sessionId ∧ r.nonce.IsUint64 ∧
        (∀ old ∈ store.reservations, old.sessionId = r.sessionId →
          old.mediationSequence ≠ r.mediationSequence ∧ old.nonce ≠ r.nonce.text) ∧
        store' = store.opened r := by
  simp only [insertNewReservation, insertReservation, bind_eq_ok, guardElse_eq_ok, exists_const,
    evidenceNonceText_eq_ok, pure_eq_ok]
  constructor
  · rintro ⟨hresolved, hsequence, hroot, text, ⟨huint, rfl⟩, hunused, rfl⟩
    exact ⟨hresolved, hsequence, hroot, huint, hunused, rfl⟩
  · rintro ⟨hresolved, hsequence, hroot, huint, hunused, rfl⟩
    exact ⟨hresolved, hsequence, hroot, _, ⟨huint, rfl⟩, hunused, rfl⟩

/-- **A reservation is accepted** when it is there already or may be taken
out; only the second writes. -/
theorem reserve_eq_ok : store.reserve available r = .ok store' ↔
      (store.Confirms available r ∧ store' = store) ∨
        (store.Opens available r ∧ store' = store.opened r) := by
  rw [reserve, bind_eq_ok]
  simp only [validateReservation_eq_ok, transaction_eq_ok, exists_const]
  rcases hfound : store.reservation r.sessionId r.mediationSequence with _ | row
  · dsimp only
    rw [insertNewReservation_eq_ok]
    constructor
    · rintro ⟨hvalid, havailable, hresolved, hsequence, hroot, _, hunused, rfl⟩
      exact Or.inr ⟨⟨hvalid, havailable, hfound, hresolved, hsequence, hroot, hunused⟩, rfl⟩
    · rintro (⟨hconfirms, _⟩ | ⟨hopens, rfl⟩)
      · obtain ⟨row, hrow, _⟩ := hconfirms.existing
        rw [hfound] at hrow
        cases hrow
      · exact ⟨hopens.valid, hopens.available, hopens.resolved, hopens.sequence, hopens.root,
          hopens.valid.nonce, hopens.unused, rfl⟩
  · obtain ⟨_, hsession, hsequence⟩ := reservation_key hfound
    simp only [bind_eq_ok, guardElse_eq_ok, exists_const, pure_eq_ok]
    constructor
    · rintro ⟨hvalid, havailable, same, hsame, rfl, rfl⟩
      have hbinding := ((reservationMatches_eq_ok hsession hsequence).1 hsame).2
      exact Or.inl ⟨⟨hvalid, havailable, row, hfound, hbinding⟩, rfl⟩
    · rintro (⟨hconfirms, rfl⟩ | ⟨hopens, _⟩)
      · obtain ⟨row', hrow', hbinding⟩ := hconfirms.existing
        obtain rfl := Option.some.inj (hfound.symm.trans hrow')
        exact ⟨hconfirms.valid, hconfirms.available, true,
          (reservationMatches_eq_ok hsession hsequence).2 ⟨hconfirms.valid.nonce, hbinding⟩,
          rfl, rfl⟩
      · have habsent := hopens.absent
        rw [hfound] at habsent
        cases habsent

/-- A reserve that changes the tables takes a reservation out. -/
theorem opens_of_reserve (h : store.reserve available r = .ok store') (hne : store' ≠ store) :
    store.Opens available r := by
  rcases reserve_eq_ok.1 h with ⟨_, hsame⟩ | ⟨hopens, _⟩
  · exact absurd hsame hne
  · exact hopens

theorem step_reserve (hopens : store.Opens available r) (sha256 : Bytes → Digest) :
    store.step sha256 (.reserve available r) = store.opened r := by
  rw [step, answer, reserve_eq_ok.2 (Or.inr ⟨hopens, rfl⟩)]

end

section

variable {e : AuthorizedEffectEvidenceReceipt}

structure Reserved (store : EvidenceStore) (e : AuthorizedEffectEvidenceReceipt) : Prop where
  row : store.reservation e.sessionId e.mediationSequence =
    some (e.toEffectBinding.spelled.row .reserved)
  nonce : e.nonce.IsUint64

theorem assertReserved_eq_ok {u : Unit} : store.assertReserved e = .ok u ↔ store.Reserved e := by
  rw [assertReserved]
  rcases hfound : store.reservation e.sessionId e.mediationSequence with _ | row
  · refine ⟨fun h => (by cases h), fun h => ?_⟩
    have hrow := h.row
    rw [hfound] at hrow
    cases hrow
  · obtain ⟨_, hsession, hsequence⟩ := reservation_key hfound
    simp only [bind_eq_ok, guardElse_eq_ok, exists_const]
    constructor
    · rintro ⟨hstate, same, hsame, rfl⟩
      obtain ⟨huint, hbinding⟩ := (reservationMatches_eq_ok hsession hsequence).1 hsame
      have hrow : row = e.toEffectBinding.spelled.row .reserved := by
        rw [← hbinding, EffectBinding.row, ← hstate]
      exact ⟨hfound.trans (congrArg some hrow), huint⟩
    · intro h
      obtain rfl := Option.some.inj (hfound.symm.trans h.row)
      exact ⟨rfl, true, (reservationMatches_eq_ok hsession hsequence).2 ⟨h.nonce, rfl⟩, rfl⟩

section

variable {inputDigest leafDigest : Bytes}

/-- The digest of the leaf that staging a receipt at `index` adds. -/
def IsLeafDigest (sha256 : Bytes → Digest) (e : AuthorizedEffectEvidenceReceipt) (index : ℕ)
    (inputDigest leafDigest : Bytes) : Prop :=
  ∃ leaf, leafOf sha256 e index e.nonce.text inputDigest = .ok leaf ∧
    bytesFromHex leaf.digest = .ok leafDigest

theorem leafOf_digest {sha256 : Bytes → Digest} {index : ℕ} {nonce : String} {inputDigest : Bytes}
    {leaf : BatchedEvidenceLeaf} (h : leafOf sha256 e index nonce inputDigest = .ok leaf) :
    ∃ payload, leaf.digest = hexText (sha256 payload).bytes := by
  rw [leafOf, bind_eq_ok] at h
  obtain ⟨_, -, hleaf⟩ := h
  rw [batchedEvidenceLeaf, bind_eq_ok] at hleaf
  obtain ⟨frames, -, hleaf⟩ := hleaf
  obtain rfl := Except.ok.inj hleaf
  exact ⟨_, rfl⟩

/-- The numbers of a leaf are printed. -/
structure Printed (e : AuthorizedEffectEvidenceReceipt) (index : ℕ) : Prop where
  mediation : Prints e.mediationSequence
  index : Prints index
  first : Prints e.firstSequence
  last : Prints e.lastSequence

/-- **A leaf has a digest** when its numbers are printed. -/
theorem exists_leafDigest_iff (sha256 : Bytes → Digest) (h : ValidReceipt e) (index : ℕ)
    (inputDigest : Bytes) : (∃ leafDigest, IsLeafDigest sha256 e index inputDigest leafDigest) ↔
      Printed e index := by
  obtain ⟨-, -, hfirst, hle⟩ := h.inOrder
  constructor
  · rintro ⟨_, leaf, hleaf, -⟩
    rw [leafOf, bind_eq_ok] at hleaf
    obtain ⟨_, hmediation, hleaf⟩ := hleaf
    rw [batchedEvidenceLeaf, bind_eq_ok] at hleaf
    obtain ⟨frames, hframes, -⟩ := hleaf
    have hcanonical := (mapM_frame_eq_ok.1 hframes).1
    simp only [forall_mem_cons, Field.Canonical] at hcanonical
    exact ⟨guardElse_eq_ok.1 hmediation, hcanonical.2.1.2, hcanonical.2.2.2.1.2,
      hcanonical.2.2.2.2.1.2⟩
  · intro hprinted
    have hframes : ∀ field ∈ [Field.text (e.sessionId ++ ":" ++ toString e.mediationSequence),
        .int index, .text e.nonce.text, .int e.firstSequence, .int e.lastSequence,
        .text (hexText inputDigest), .text (hexText e.semanticRoot),
        .text (hexText e.beforeExecutionRoot), .text (hexText e.observationDigest),
        .text e.outcome.text], field.Canonical := by
      simp only [forall_mem_cons, Field.Canonical]
      exact ⟨trivial, ⟨Int.natCast_nonneg _, hprinted.index⟩, trivial,
        ⟨le_of_lt hfirst, hprinted.first⟩, ⟨le_trans (le_of_lt hfirst) hle, hprinted.last⟩, trivial,
        trivial, trivial, trivial, trivial, forall_mem_nil _⟩
    have hleaf : ∃ leaf, leafOf sha256 e index e.nonce.text inputDigest = .ok leaf := by
      rw [leafOf, guardElse_of hprinted.mediation, ok_bind, batchedEvidenceLeaf,
        mapM_frame_eq_ok.2 ⟨hframes, rfl⟩, ok_bind]
      exact ⟨_, rfl⟩
    obtain ⟨leaf, hleaf⟩ := hleaf
    obtain ⟨payload, hdigest⟩ := leafOf_digest hleaf
    exact ⟨_, leaf, hleaf, hdigest ▸ bytesFromHex_hexText _⟩

end

def Unrecorded (store : EvidenceStore) (e : AuthorizedEffectEvidenceReceipt) : Prop :=
  ∀ old ∈ store.evidence, old.sessionId = e.sessionId →
    old.mediationSequence ≠ e.mediationSequence ∧ old.nonce ≠ e.nonce.text

variable [Turso]

def recorded (store : EvidenceStore) (e : AuthorizedEffectEvidenceReceipt) : EvidenceStore :=
  { store with evidence := store.evidence ++ [e.spelled.stored] }

theorem insertReceipt_eq_ok : store.insertReceipt e = .ok store' ↔
      e.nonce.IsUint64 ∧ store.Unrecorded e ∧ store' = store.recorded e := by
  simp only [insertReceipt, bind_eq_ok, guardElse_eq_ok, exists_const, evidenceNonceText_eq_ok,
    pure_eq_ok]
  constructor
  · rintro ⟨text, ⟨huint, rfl⟩, hunrecorded, rfl⟩
    exact ⟨huint, hunrecorded, rfl⟩
  · rintro ⟨huint, hunrecorded, rfl⟩
    exact ⟨_, ⟨huint, rfl⟩, hunrecorded, rfl⟩

structure Finalizes (store : EvidenceStore) (e : AuthorizedEffectEvidenceReceipt) : Prop where
  valid : ValidReceipt e
  reserved : store.Reserved e
  root : e.beforeExecutionRoot = store.headRoot e.sessionId
  unrecorded : store.Unrecorded e

def appended (store : EvidenceStore) (e : AuthorizedEffectEvidenceReceipt) : EvidenceStore :=
  ((store.recorded e).resolveReservation e.sessionId e.mediationSequence .finalized).replaceHead
    ⟨e.sessionId, e.mediationSequence, e.afterExecutionRoot⟩

/-- **A strict receipt is accepted** when it closes a reservation that follows
the head. -/
theorem append_eq_ok : store.append available e = .ok store' ↔
      available = true ∧ store.Finalizes e ∧
        e.mediationSequence = (store.loadHead e.sessionId).elim 1 (·.mediationSequence + 1) ∧
        store' = store.appended e := by
  simp only [append, bind_eq_ok, validateReceipt_eq_ok, transaction_eq_ok, exists_const,
    assertReserved_eq_ok, assertExtends, guardElse_eq_ok, insertReceipt_eq_ok, pure_eq_ok]
  constructor
  · rintro ⟨hvalid, havailable, hreserved, ⟨hsequence, hroot⟩, _, ⟨_, hunrecorded, rfl⟩, rfl⟩
    exact ⟨havailable, ⟨hvalid, hreserved, hroot, hunrecorded⟩, hsequence, rfl⟩
  · rintro ⟨havailable, h, hsequence, rfl⟩
    exact ⟨h.valid, havailable, h.reserved, ⟨hsequence, h.root⟩, _,
      ⟨h.reserved.nonce, h.unrecorded, rfl⟩, rfl⟩

section

variable {sha256 : Bytes → Digest} {inputDigest leafDigest : Bytes}

def leafRow (store : EvidenceStore) (e : AuthorizedEffectEvidenceReceipt)
    (inputDigest leafDigest : Bytes) : LeafRow where
  sessionId := e.sessionId
  mediationSequence := e.mediationSequence
  leafIndex := store.stagedCount e.sessionId
  inputDigest := inputDigest
  leafDigest := leafDigest

def stagedWith (store : EvidenceStore) (e : AuthorizedEffectEvidenceReceipt) (row : LeafRow) :
    EvidenceStore :=
  { store.recorded e with leaves := store.leaves ++ [row] }.resolveReservation e.sessionId
    e.mediationSequence .staged

/-- **A buffered receipt is accepted** when it closes a reservation; it does not
have to follow the head. -/
theorem stageBatched_eq_ok :
    store.stageBatched sha256 available e inputDigest = .ok (store', leafDigest) ↔
      available = true ∧ store.Finalizes e ∧ e.outcome = .buffered ∧ inputDigest.length = 32 ∧
        IsLeafDigest sha256 e (store.stagedCount e.sessionId) inputDigest leafDigest ∧
        (∀ old ∈ store.leaves, old.sessionId = e.sessionId →
          old.mediationSequence ≠ e.mediationSequence) ∧
        store' = store.stagedWith e (store.leafRow e inputDigest leafDigest) := by
  simp only [stageBatched, bind_eq_ok, validateReceipt_eq_ok, transaction_eq_ok, exists_const,
    assertReserved_eq_ok, guardElse_eq_ok, evidenceNonceText_eq_ok, insertReceipt_eq_ok, insertLeaf,
    pure_eq_ok, Prod.mk.injEq]
  constructor
  · rintro ⟨hvalid, ⟨hbuffered, hinput⟩, havailable, hreserved, hroot, _, ⟨_, rfl⟩, leaf, hleaf,
      digest, hdigest, _, ⟨_, hunrecorded, rfl⟩, _, ⟨hleaves, rfl⟩, rfl, rfl⟩
    exact ⟨havailable, ⟨hvalid, hreserved, hroot, hunrecorded⟩, hbuffered, hinput,
      ⟨leaf, hleaf, hdigest⟩, hleaves, rfl⟩
  · rintro ⟨havailable, h, hbuffered, hinput, ⟨leaf, hleaf, hdigest⟩, hleaves, rfl⟩
    exact ⟨h.valid, ⟨hbuffered, hinput⟩, havailable, h.reserved, h.root, _,
      ⟨h.reserved.nonce, rfl⟩, leaf, hleaf, _, hdigest, _, ⟨h.reserved.nonce, h.unrecorded, rfl⟩,
      _, ⟨hleaves, rfl⟩, rfl, rfl⟩

end

end

section

variable {sha256 : Bytes → Digest} {sessionId : String} {leafDigests : List Bytes}
  {kernelSignature : Bytes} {verificationFlags : ℤ} {batch : BatchRow}

def flushed (store : EvidenceStore) (batch : BatchRow) : EvidenceStore :=
  ({ store with batches := store.batches ++ [batch] }.closeStaged batch.sessionId
    batch.batchId).replaceHead ⟨batch.sessionId, batch.lastMediationSequence, batch.afterRoot⟩

/-- **A flush is accepted** when it names the staged leaves, in their order. -/
theorem flushBatched_eq_ok :
    store.flushBatched sha256 available sessionId leafDigests kernelSignature
        verificationFlags = .ok (store', batch) ↔
      available = true ∧ store.stagedRows sessionId ≠ [] ∧
        (store.stagedRows sessionId).map LeafRow.leafDigest = leafDigests ∧
        (∃ root, batchedMerkleRootDigests sha256 leafDigests = .ok root ∧
          batch = store.batchOf sha256 sessionId (store.stagedRows sessionId) root
            kernelSignature verificationFlags) ∧
        (∀ old ∈ store.batches, old.sessionId = sessionId → old.batchId ≠ batch.batchId) ∧
        store' = store.flushed batch := by
  simp only [flushBatched, bind_eq_ok, transaction_eq_ok, guardElse_eq_ok, exists_const,
    insertBatch, pure_eq_ok, Prod.mk.injEq]
  constructor
  · rintro ⟨havailable, ⟨hrows, rfl⟩, root, hroot, _, ⟨hids, rfl⟩, rfl, rfl⟩
    exact ⟨havailable, hrows, rfl, ⟨root, hroot, rfl⟩, hids, rfl⟩
  · rintro ⟨havailable, hrows, rfl, ⟨root, hroot, rfl⟩, hids, rfl⟩
    exact ⟨havailable, ⟨hrows, rfl⟩, root, hroot, _, ⟨hids, rfl⟩, rfl, rfl⟩

end

end EvidenceStore

end PooFlow
