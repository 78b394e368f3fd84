import Mathlib.Tactic.IntervalCases
import PooFlow.Runtime.EntryMoves

namespace PooFlow

open Foundation List Option

variable {σ : Type}

theorem ofCode_code (state : SessionState) : .ofCode state.code = state := by
  cases state with
  | unset | opened | cancelled | closed => rfl
  | foreign code outside =>
    have hne : code ≠ 0 ∧ code ≠ 1 ∧ code ≠ 2 ∧ code ≠ 3 := by
      refine ⟨?_, ?_, ?_, ?_⟩ <;>
        · rintro rfl
          exact absurd outside (by decide)
    simp [SessionState.code, SessionState.ofCode, hne, outside]

/-- The fields of a packet fit the widths of `checkpoint_packet`. -/
structure CheckpointPacket.Wide (packet : CheckpointPacket) : Prop where
  magic : packet.magic < 2 ^ 64
  epoch : packet.epoch < 2 ^ 64
  sequence : packet.sequence < 2 ^ 64
  reserved : packet.reserved < 2 ^ 32

namespace CheckpointPacket

variable (packet : CheckpointPacket)

theorem body_length : packet.body.length = 64 := by
  simp [body, packet.digest.length_eq, digestBytes]

theorem encode_length : packet.encode.length = sizeof .checkpointPacket := by
  simp [encode, body_length, sizeof]

theorem encode_take : packet.encode.take 64 = packet.body :=
  take_left' packet.body_length

theorem encode_drop : packet.encode.drop 64 = littleEndian 8 (checksumBytes packet.body).toNat :=
  drop_left' packet.body_length

/-- **Packets round trip.** -/
theorem decode_encode (h : packet.Wide) : decode packet.encode packet.encode_length =
      (packet, (checksumBytes packet.body).toNat) := by
  have hdigest := packet.digest.length_eq
  rw [digestBytes] at hdigest
  have htake : packet.digest.bytes.take 32 = packet.digest.bytes :=
    take_of_length_le (le_of_eq hdigest)
  have hbody : ∀ n k, n + k ≤ 64 →
      (packet.encode.drop n).take k = (packet.body.drop n).take k := by
    intro n k hle
    rw [encode, drop_append_of_le_length (by rw [body_length]; omega),
      take_append_of_le_length (by rw [length_drop, body_length]; omega)]
  have hmagic : packet.encode.take 8 = littleEndian 8 packet.magic := by
    have hfront := hbody 0 8 (by omega)
    simpa [body, take_append] using hfront
  have hepoch : (packet.encode.drop 8).take 8 = littleEndian 8 packet.epoch := by
    rw [hbody 8 8 (by omega)]
    simp [body]
  have hsequence : (packet.encode.drop 16).take 8 = littleEndian 8 packet.sequence := by
    rw [hbody 16 8 (by omega)]
    simp [body, drop_append]
  have hstate : (packet.encode.drop 24).take 4 = littleEndian 4 packet.state.code.toNat := by
    rw [hbody 24 4 (by omega)]
    simp [body, drop_append]
  have hreserved : (packet.encode.drop 28).take 4 = littleEndian 4 packet.reserved := by
    rw [hbody 28 4 (by omega)]
    simp [body, drop_append]
  have hbytes : (packet.encode.drop 32).take 32 = packet.digest.bytes := by
    rw [hbody 32 32 (by omega)]
    simp [body, drop_append, htake]
  have hcode : packet.state.code.toNat < 256 ^ 4 := packet.state.code.toNat_lt
  have hchecksum : (checksumBytes packet.body).toNat < 256 ^ 8 := UInt64.toNat_lt _
  have hwide : packet.magic < 256 ^ 8 ∧ packet.epoch < 256 ^ 8 ∧ packet.sequence < 256 ^ 8 ∧
      packet.reserved < 256 ^ 4 := ⟨h.magic, h.epoch, h.sequence, h.reserved⟩
  simp only [decode, hmagic, hepoch, hsequence, hstate, hreserved, hbytes, encode_drop,
    ofLittleEndian_of_lt hwide.1, ofLittleEndian_of_lt hwide.2.1,
    ofLittleEndian_of_lt hwide.2.2.1, ofLittleEndian_of_lt hwide.2.2.2,
    ofLittleEndian_of_lt hcode, ofLittleEndian_of_lt hchecksum, UInt32.ofNat_toNat, ofCode_code]

end CheckpointPacket

def stateField (bytes : List UInt8) : ℕ := ofLittleEndian ((bytes.drop 24).take 4)

theorem stateField_lt (bytes : List UInt8) : stateField bytes < 2 ^ 32 := by
  have hlt := ofLittleEndian_lt ((bytes.drop 24).take 4)
  have hlength : ((bytes.drop 24).take 4).length ≤ 4 := length_take_le 4 _
  calc stateField bytes < 256 ^ ((bytes.drop 24).take 4).length := hlt
    _ ≤ 256 ^ 4 := Nat.pow_le_pow_right (by omega) hlength

/-- The state of a session that is restored from a packet in state `state`. -/
def SessionState.restored (state : SessionState) : SessionState :=
  if state = .closed then .opened else state

theorem restored_iff {field : ℕ} (h : field < 2 ^ 32) :
    let state := (SessionState.ofCode (UInt32.ofNat field)).restored
    (state = .opened ∨ state = .cancelled) ↔ 1 ≤ field ∧ field ≤ 3 := by
  have hfield : (UInt32.ofNat field).toNat = field := UInt32.toNat_ofNat_of_lt' h
  have hcases : ∀ state : SessionState, (state.restored = .opened ∨ state.restored = .cancelled) ↔
        state = .opened ∨ state = .cancelled ∨ state = .closed := by
    intro state
    unfold SessionState.restored
    cases state <;> simp
  dsimp only
  rw [hcases]
  rcases Nat.lt_or_ge 3 field with hforeign | hnamed
  · have hlt : (3 : UInt32) < UInt32.ofNat field := by
      rw [UInt32.lt_iff_toNat_lt, hfield]
      exact hforeign
    have hne : ∀ code : UInt32, code ≤ 3 → UInt32.ofNat field ≠ code := by
      rintro code hle rfl
      exact absurd hlt (UInt32.not_lt.2 hle)
    unfold SessionState.ofCode
    rw [if_neg (hne 0 (by decide)), if_neg (hne 1 (by decide)), if_neg (hne 2 (by decide)),
      if_neg (hne 3 (by decide)), dif_pos hlt]
    simp
    omega
  · interval_cases field <;> decide

section

variable {rt : Runtime} {inst bundle : Handle}

variable {memory : Bool} {checkpoint : Option (List UInt8)} {hasOut : Bool} {b i : Fin maxResources}

theorem allocateSession_ok {instanceId : ℕ} {fill : Resource → Resource}
    (h : (allocateSession rt instanceId memory fill).status = .ok) (hfill : FillsSession fill) :
    ∃ i, freeSlot rt = some i ∧ memory = true ∧
      (allocateSession rt instanceId memory fill).written =
        some (handleOf (allocateSession rt instanceId memory fill).runtime i) ∧
      (allocateSession rt instanceId memory fill).runtime.resources i =
        fill { (rt.resources i).fresh instanceId .session with
          queue := { capacity := maxPendingEvents } } := by
  cases hfree : freeSlot rt with
  | none =>
    have halloc : allocateResource rt instanceId .session = .error .allocationFailure := by
      rw [allocateResource, hfree]
      rfl
    rw [allocateSession, halloc] at h
    cases h
  | some i =>
    have halloc := allocateResource_of_freeSlot instanceId .session hfree
    cases memory with
    | false =>
      rw [allocateSession, halloc] at h
      cases h
    | true =>
      have heq : allocateSession rt instanceId true fill = .accepted
          ((rt.allocate i instanceId .session).modify i
            (fun r => fill { r with queue := { capacity := maxPendingEvents } }))
          (handleOf (rt.allocate i instanceId .session) i) := by
        rw [allocateSession, halloc]
        rfl
      obtain ⟨hgeneration, hkind, hinstance, _⟩ := hfill.alone
        { (rt.resources i).fresh instanceId .session with
          queue := { capacity := maxPendingEvents } }
      refine ⟨i, rfl, rfl, ?_, ?_⟩
      · rw [heq]
        simp only [Outcome.accepted_written, Outcome.accepted_runtime, handleOf,
          Runtime.modify_self, Runtime.allocate, hgeneration, hkind, hinstance]
      · rw [heq]
        simp only [Outcome.accepted_runtime, Runtime.modify_self, Runtime.allocate]

variable {packet : CheckpointPacket}

theorem restoreAdmission_ok : restoreAdmission rt inst bundle checkpoint hasOut = .ok (b, packet) ↔
      resolve rt inst bundle .bundle = .ok b ∧ hasOut = true ∧
      ∃ bytes, checkpoint = some bytes ∧ ∃ h : bytes.length = sizeof .checkpointPacket,
        CheckpointPacket.decode bytes h = (packet, (checksumBytes (bytes.take 64)).toNat) ∧
        packet.magic = checkpointMagic ∧ packet.reserved = 0 ∧
        packet.epoch = (rt.resources b).epoch ∧ packet.digest = (rt.resources b).digest := by
  simp only [restoreAdmission, bind_eq_ok, presentElse_eq_ok]
  constructor
  · rintro ⟨b', hresolve, bytes, rfl, hadmission⟩
    split at hadmission
    · next hlength =>
      simp only [bind_eq_ok, guardElse_eq_ok, exists_const, pure_eq_ok, Prod.mk.injEq] at hadmission
      obtain ⟨hout, ⟨hmagic, hreserved, hchecksum⟩, ⟨hepoch, hdigest⟩, rfl, rfl⟩ := hadmission
      exact ⟨hresolve, hout, bytes, rfl, hlength, Prod.ext rfl hchecksum, hmagic, hreserved,
        hepoch, hdigest⟩
    · cases hadmission
  · rintro ⟨hresolve, hout, bytes, rfl, hlength, hdecode, hmagic, hreserved, hepoch, hdigest⟩
    refine ⟨b, hresolve, bytes, rfl, ?_⟩
    rw [dif_pos hlength, hdecode]
    simp only [bind_eq_ok, guardElse_eq_ok, exists_const, pure_eq_ok, and_true]
    exact ⟨hout, ⟨hmagic, hreserved⟩, hepoch, hdigest⟩

/-- The call leaves a session in slot `i`, opened under the bundle in slot `b`. -/
structure Opens (rt : Runtime) (inst bundle : Handle) (o : Outcome Handle)
    (b i : Fin maxResources) : Prop where
  bundle : resolve rt inst bundle .bundle = .ok b
  written : o.written = some (handleOf o.runtime i)
  alive : (o.runtime.resources i).alive = true
  kind : (o.runtime.resources i).kind = .session
  epoch : (o.runtime.resources i).epoch = (rt.resources b).epoch
  digest : (o.runtime.resources i).digest = (rt.resources b).digest

theorem sessionOpen_opens {descriptor : Option SessionDescriptor}
    (h : (sessionOpen rt inst bundle descriptor hasOut memory).status = .ok) :
    ∃ b i, Opens rt inst bundle (sessionOpen rt inst bundle descriptor hasOut memory) b i := by
  have hne : sessionOpenAdmission rt inst bundle descriptor hasOut ≠ .error .ok := by
    simp [sessionOpenAdmission, bind_eq_error, resolve_ne_error_ok]
  obtain ⟨⟨b, filled⟩, hadmission, heq⟩ := Outcome.admitted_of_ok hne h
  have heq' : sessionOpen rt inst bundle descriptor hasOut memory = _ := heq
  simp only [sessionOpenAdmission, bind_eq_ok, guardElse_eq_ok, exists_const, pure_eq_ok,
    Prod.mk.injEq] at hadmission
  obtain ⟨_, hresolve, _, _, _, _, rfl, rfl⟩ := hadmission
  rw [heq'] at h ⊢
  dsimp only at h ⊢
  obtain ⟨i, _, _, hwritten, hentry⟩ :=
    allocateSession_ok h ⟨fun _ => ⟨rfl, rfl, rfl, rfl, rfl, rfl, rfl⟩⟩
  exact ⟨_, i, hresolve, hwritten, by rw [hentry]; rfl, by rw [hentry]; rfl, by rw [hentry],
    by rw [hentry]⟩

theorem sessionRestore_ok
    (h : (sessionRestore rt inst bundle checkpoint hasOut memory).status = .ok) :
    ∃ b packet i, restoreAdmission rt inst bundle checkpoint hasOut = .ok (b, packet) ∧
      Opens rt inst bundle (sessionRestore rt inst bundle checkpoint hasOut memory) b i ∧
      let session := (sessionRestore rt inst bundle checkpoint hasOut memory).runtime.resources i
      session.sequence = packet.sequence ∧ session.state = packet.state.restored := by
  have hne : restoreAdmission rt inst bundle checkpoint hasOut ≠ .error .ok := by
    intro herror
    simp only [restoreAdmission, bind_eq_error, resolve_ne_error_ok, presentElse_eq_error,
      false_or, reduceCtorEq, and_false] at herror
    obtain ⟨_, _, _, _, herror⟩ := herror
    split at herror
    · simp [bind_eq_error] at herror
    · cases herror
  obtain ⟨⟨b, packet⟩, hadmission, heq⟩ := Outcome.admitted_of_ok hne h
  have heq' : sessionRestore rt inst bundle checkpoint hasOut memory = _ := heq
  obtain ⟨hresolve, _, _, _, _, _, _, _, hepoch, hdigest⟩ := restoreAdmission_ok.1 hadmission
  rw [heq'] at h ⊢
  dsimp only at h ⊢
  obtain ⟨i, _, _, hwritten, hentry⟩ :=
    allocateSession_ok h ⟨fun _ => ⟨rfl, rfl, rfl, rfl, rfl, rfl, rfl⟩⟩
  refine ⟨b, packet, i, hadmission, ⟨hresolve, hwritten, by rw [hentry]; rfl, by rw [hentry]; rfl,
    ?_, ?_⟩, ?_, ?_⟩
  · rw [hentry, ← hepoch]
  · rw [hentry, ← hdigest]
  · rw [hentry]
  · rw [hentry]
    rfl

theorem restore_of_admission
    (hadmission : restoreAdmission rt inst bundle checkpoint true = .ok (b, packet))
    (hfree : freeSlot rt = some i) :
    (sessionRestore rt inst bundle checkpoint true true).status = .ok := by
  have halloc := allocateResource_of_freeSlot inst.instanceId .session hfree
  rw [sessionRestore, hadmission]
  dsimp only [Outcome.ofAdmission]
  rw [allocateSession, halloc]
  rfl

theorem sessionCheckpoint_bytes {session : Handle} {owned : OwnedBytes}
    (hresolve : resolve rt inst session .session = .ok i)
    (h : (sessionCheckpoint rt inst session hasOut memory).written = some owned) :
    owned.bytes = some (checkpointOf (rt.resources i)).encode := by
  rcases Outcome.ofAdmission_eq rt (do
      let i ← resolve rt inst session .session
      guardElse (hasOut = true) .invalidArgument
      guardElse (memory = true) .allocationFailure
      return i)
    (fun i => allocateBytes rt inst.instanceId (checkpointOf (rt.resources i)).encode) with
    ⟨status, _, heq⟩ | ⟨j, hadmission, heq⟩
  · rw [sessionCheckpoint, heq] at h
    cases h
  · simp only [bind_eq_ok, guardElse_eq_ok, exists_const, pure_eq_ok, Except.ok.injEq,
      hresolve] at hadmission
    obtain ⟨_, rfl, _, _, rfl⟩ := hadmission
    rw [sessionCheckpoint, heq, allocateBytes] at h
    split at h
    · cases h
    · obtain rfl := some.inj h
      rfl

/-- **A checkpoint restores** what it recorded, in any runtime with a free slot
and a bundle of the same epoch and digest. -/
theorem restore_checkpoint {r : Resource} (hresolve : resolve rt inst bundle .bundle = .ok b)
    (hfree : freeSlot rt = some i) (hepoch : (rt.resources b).epoch = r.epoch)
    (hdigest : (rt.resources b).digest = r.digest) (hwide : (checkpointOf r).Wide) :
    let o := sessionRestore rt inst bundle (some (checkpointOf r).encode) true true
    o.status = .ok ∧ ∃ j, Opens rt inst bundle o b j ∧
      (o.runtime.resources j).sequence = r.sequence ∧
      (o.runtime.resources j).state = r.state.restored := by
  intro o
  have hadmission : restoreAdmission rt inst bundle (some (checkpointOf r).encode) true =
      .ok (b, checkpointOf r) := by
    refine restoreAdmission_ok.2 ⟨hresolve, rfl, _, rfl, CheckpointPacket.encode_length _, ?_,
      rfl, rfl, hepoch.symm, hdigest.symm⟩
    rw [CheckpointPacket.decode_encode _ hwide, CheckpointPacket.encode_take]
  have hstatus := restore_of_admission hadmission hfree
  obtain ⟨b', packet, j, hadmission', hopens, hsequence, hstate⟩ := sessionRestore_ok hstatus
  rw [hadmission] at hadmission'
  cases hadmission'
  exact ⟨hstatus, j, hopens, hsequence, hstate⟩

end

def Call.opening : Call σ → Option (Handle × Handle)
  | .sessionOpen inst bundle _ _ _ | .sessionRestore inst bundle _ _ _ => some (inst, bundle)
  | _ => none

theorem EntryMove.identity {allowed : Resource → Work → Prop} {r r' : Resource}
    (h : EntryMove allowed r r') : r'.epoch = r.epoch ∧ r'.digest = r.digest := by
  cases h <;> exact ⟨rfl, rfl⟩

theorem identity_run {t : Tracked σ} {calls : List (Call σ)} {i : Fin maxResources}
    (hsame : ((run step t calls).life i).serial = (t.life i).serial) :
    ((run step t calls).runtime.resources i).epoch = (t.runtime.resources i).epoch ∧
      ((run step t calls).runtime.resources i).digest = (t.runtime.resources i).digest := by
  refine life_invariant (fun _ _ _ => True)
    (I := fun r => r.epoch = (t.runtime.resources i).epoch ∧
      r.digest = (t.runtime.resources i).digest) ?_ ?_ hsame ⟨rfl, rfl⟩
  · intro r r' hmove hr
    exact ⟨hmove.identity.1.trans hr.1, hmove.identity.2.trans hr.2⟩
  · exact along_of_forall (fun t c => c.works_of_forall (fun _ _ _ => trivial) t) t calls

theorem handleOf_inj {rt : Runtime} {i j : Fin maxResources} :
    handleOf rt i = handleOf rt j ↔ i = j :=
  ⟨fun h => slotId_inj.1 (congrArg Handle.resourceId h), fun h => h ▸ rfl⟩

theorem identity_of_opening {t : Tracked σ} {c : Call σ} {inst bundle : Handle}
    {b i : Fin maxResources} (hopening : c.opening = some (inst, bundle))
    (hok : (c.answer t.runtime t.world).status = .ok)
    (hissued : (c.answer t.runtime t.world).issued = some (handleOf (step t c).runtime i))
    (hresolve : resolve t.runtime inst bundle .bundle = .ok b) :
    ((step t c).runtime.resources i).epoch = (t.runtime.resources b).epoch ∧
      ((step t c).runtime.resources i).digest = (t.runtime.resources b).digest := by
  have hidentity : ∀ {o : Outcome Handle} {b' j : Fin maxResources},
      Opens t.runtime inst bundle o b' j → o.written = some (handleOf o.runtime i) →
      (o.runtime.resources i).epoch = (t.runtime.resources b).epoch ∧
        (o.runtime.resources i).digest = (t.runtime.resources b).digest := by
    intro o b' j hopens hwritten
    obtain rfl := Except.ok.inj (hresolve.symm.trans hopens.bundle)
    obtain rfl := handleOf_inj.1 (some.inj (hwritten.symm.trans hopens.written))
    exact ⟨hopens.epoch, hopens.digest⟩
  cases c with
  | sessionOpen inst' bundle' descriptor hasOut memory =>
    cases hopening
    obtain ⟨_, _, hopens⟩ := sessionOpen_opens hok
    exact hidentity hopens ((bind_fun_some _).symm.trans hissued)
  | sessionRestore inst' bundle' checkpoint hasOut memory =>
    cases hopening
    obtain ⟨_, _, _, _, hopens, _⟩ := sessionRestore_ok hok
    exact hidentity hopens ((bind_fun_some _).symm.trans hissued)
  | _ => cases hopening

/-- The packet has fields of 64 bits. -/
def Resource.Fits (r : Resource) : Prop := r.epoch < 2 ^ 64 ∧ r.sequence < 2 ^ 64

/-- **Checkpoints**: a restore that returns OK gives a session with the epoch
and the digest of its bundle, open or cancelled exactly when the state field of
the packet is a lifecycle state. A session that was opened under a bundle, in
any run, has a checkpoint that any later state with a free slot restores under
that bundle; the new session has its epoch, digest, sequence and state, but is
open when it was closed. -/
theorem checkpoint_restored : (∀ rt inst bundle checkpoint hasOut memory,
      let o := sessionRestore rt inst bundle checkpoint hasOut memory
      o.status = .ok → ∃ bytes b i, checkpoint = some bytes ∧ Opens rt inst bundle o b i ∧
        ((o.runtime.resources i).state = .opened ∨ (o.runtime.resources i).state = .cancelled ↔
          1 ≤ stateField bytes ∧ stateField bytes ≤ 3)) ∧
    ∀ (world : σ) (before : List (Call σ)) (opening : Call σ) (middle later : List (Call σ))
      (inst bundle : Handle) (b i : Fin maxResources),
      let start := run step (Tracked.initial world) before
      let opened := step start opening
      let recorded := run step opened middle
      let restoring := run step recorded later
      -- slot `i` holds the session, slot `b` the bundle it was opened under
      opening.opening = some (inst, bundle) →
      (opening.answer start.runtime start.world).status = .ok →
      (opening.answer start.runtime start.world).issued = some (handleOf opened.runtime i) →
      resolve start.runtime inst bundle .bundle = .ok b →
      (recorded.life i).serial = (opened.life i).serial →
      (restoring.life b).serial = (start.life b).serial →
      (recorded.runtime.resources i).Fits →
      ∀ session owned hasOut memory inst' bundle',
        resolve recorded.runtime inst session .session = .ok i →
        (sessionCheckpoint recorded.runtime inst session hasOut memory).written = some owned →
        resolve restoring.runtime inst' bundle' .bundle = .ok b →
        freeSlot restoring.runtime ≠ none →
        let o := sessionRestore restoring.runtime inst' bundle' owned.bytes true true
        o.status = .ok ∧ ∃ j, Opens restoring.runtime inst' bundle' o b j ∧
          (o.runtime.resources j).epoch = (recorded.runtime.resources i).epoch ∧
          (o.runtime.resources j).digest = (recorded.runtime.resources i).digest ∧
          (o.runtime.resources j).sequence = (recorded.runtime.resources i).sequence ∧
          (o.runtime.resources j).state = (recorded.runtime.resources i).state.restored := by
  refine ⟨?_, ?_⟩
  · intro rt inst bundle checkpoint hasOut memory o hok
    obtain ⟨b, packet, i, hadmission, hopens, _, hstate⟩ := sessionRestore_ok hok
    obtain ⟨_, _, bytes, hbytes, hlength, hdecode, _⟩ := restoreAdmission_ok.1 hadmission
    refine ⟨bytes, b, i, hbytes, hopens, ?_⟩
    have hpacket : packet.state = .ofCode (UInt32.ofNat (stateField bytes)) :=
      congrArg (fun p => p.1.state) hdecode.symm
    rw [hstate, hpacket]
    exact restored_iff (stateField_lt bytes)
  · intro world before opening middle later inst bundle b i start opened recorded restoring
      hopening hok hissued hbundle hsession hkept hfits session owned hasOut memory inst' bundle'
      hresolve hwritten hbundle' hfree
    obtain ⟨hepoch, hdigest⟩ := identity_of_opening hopening hok hissued hbundle
    obtain ⟨hepochKept, hdigestKept⟩ := identity_run hsession
    have hrun : restoring = run step start (opening :: (middle ++ later)) := by
      rw [run_cons, run_append]
    obtain ⟨hepochBundle, hdigestBundle⟩ := identity_run (hrun ▸ hkept)
    rw [← hrun] at hepochBundle hdigestBundle
    obtain ⟨j, hj⟩ := ne_none_iff_exists'.1 hfree
    have hwide : (checkpointOf (recorded.runtime.resources i)).Wide :=
      ⟨show checkpointMagic < 2 ^ 64 by decide, hfits.1, hfits.2, show 0 < 2 ^ 32 by decide⟩
    have hsameEpoch : (restoring.runtime.resources b).epoch =
        (recorded.runtime.resources i).epoch := by
      rw [hepochBundle, hepochKept, hepoch]
    have hsameDigest : (restoring.runtime.resources b).digest =
        (recorded.runtime.resources i).digest := by
      rw [hdigestBundle, hdigestKept, hdigest]
    rw [sessionCheckpoint_bytes hresolve hwritten]
    obtain ⟨hstatus, k, hopens, hsequence, hstate⟩ :=
      restore_checkpoint hbundle' hj hsameEpoch hsameDigest hwide
    exact ⟨hstatus, k, hopens, hopens.epoch.trans hsameEpoch, hopens.digest.trans hsameDigest,
      hsequence, hstate⟩

def cancelledSession : List (Call Unit) × Call Unit × List (Call Unit) :=
  let it : Installation := {}
  (it.setUp.take 3, .sessionOpen it.instance_ it.bundle (some { initialSequence := 4 }) true true,
    [.sessionCancel it.instance_ it.session])

theorem cancelled_session_restored :
    let it : Installation := {}
    let t := run step (Tracked.initial ())
      (cancelledSession.1 ++ cancelledSession.2.1 :: cancelledSession.2.2)
    ∃ owned, (sessionCheckpoint t.runtime it.instance_ it.session true true).written =
        some owned ∧
      (sessionRestore t.runtime it.instance_ it.bundle owned.bytes true true).status = .ok := by
  have hsome : (sessionCheckpoint (run step (Tracked.initial ())
      (cancelledSession.1 ++ cancelledSession.2.1 :: cancelledSession.2.2)).runtime
        ⟨1, 1, 1, .instance_⟩ ⟨1, 4, 1, .session⟩ true true).written.isSome := by
    decide +kernel
  refine ⟨_, (some_get hsome).symm, ?_⟩
  exact (checkpoint_restored.2 () cancelledSession.1 cancelledSession.2.1 cancelledSession.2.2 []
    ⟨1, 1, 1, .instance_⟩ ⟨1, 3, 1, .bundle⟩ 2 3 rfl (by decide +kernel) (by decide +kernel)
    (by decide +kernel) (by decide +kernel) (by decide +kernel)
    ⟨by decide +kernel, by decide +kernel⟩ _ _ true true ⟨1, 1, 1, .instance_⟩
    ⟨1, 3, 1, .bundle⟩ (by decide +kernel) (some_get hsome).symm (by decide +kernel)
    (by decide +kernel)).1

def foreignPacket : CheckpointPacket where
  epoch := 7
  sequence := 0
  state := .foreign 9 (by decide)
  digest := .filled 1

/-- **The condition is needed**: the packet restores a session that is neither
open nor cancelled. -/
theorem foreign_state_restored :
    ¬∀ (calls : List (Call Unit)) (inst bundle : Handle) (checkpoint : Option (List UInt8))
      (i : Fin maxResources),
      let o := sessionRestore (run step (Tracked.initial ()) calls).runtime inst bundle checkpoint
        true true
      o.status = .ok → o.written = some (handleOf o.runtime i) →
        (o.runtime.resources i).state = .opened ∨
          (o.runtime.resources i).state = .cancelled := by
  intro h
  have hstate := h (({} : Installation).setUp) ⟨1, 1, 1, .instance_⟩ ⟨1, 3, 1, .bundle⟩
    (some foreignPacket.encode) 5 (by decide +kernel) (by decide +kernel)
  exact absurd hstate (by decide +kernel)

end PooFlow
