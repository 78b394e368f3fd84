import PooFlow.Foundation.LinearProbing
import PooFlow.Runtime.Types

namespace PooFlow

open Foundation LinearProbing List

def mix64 (value : UInt64) : UInt64 :=
  let value := value ^^^ (value >>> 30)
  let value := value * 0xbf58476d1ce4e5b9
  let value := value ^^^ (value >>> 27)
  let value := value * 0x94d049bb133111eb
  value ^^^ (value >>> 31)

def nonceHome (nonce : CompactId) : ℕ :=
  (mix64 (nonce.high ^^^ mix64 nonce.low) &&& 2047).toNat

/-- `nonce_slot`: masking with the capacity less one is the remainder by the
capacity, a power of two. -/
def nonceSlot (table : NonceTable) (nonce : CompactId) : Probe :=
  search table nonceTableCapacity (nonceHome nonce) nonce

namespace MediationState

def consume (m : MediationState) (nonce : CompactId) (cell : ℕ) : MediationState :=
  { m with
    consumedNonces := Function.update m.consumedNonces cell (some nonce)
    consumedNonceCount := m.consumedNonceCount + 1 }

/-- The two `memset` calls and the counter reset of a failed reconciliation. -/
def wipeNonces (m : MediationState) : MediationState :=
  { m with consumedNonces := fun _ => none, consumedNonceCount := 0 }

end MediationState

/-- The nonce loop of `session_reconcile_evidence`; `none` when it meets a
nonce that is already in the table or finds the table full. -/
def loadNonces : MediationState → List CompactId → Option MediationState
  | m, [] => some m
  | m, nonce :: rest =>
    match nonceSlot m.consumedNonces nonce with
    | .vacant cell => loadNonces (m.consume nonce cell) rest
    | _ => none

/-- **Nonce table invariant**, relative to the nonces consumed so far. -/
structure NonceInvariant (m : MediationState) (consumed : List CompactId) : Prop where
  sound : Sound m.consumedNonces nonceTableCapacity nonceHome
  holds_iff : ∀ nonce, Holds m.consumedNonces nonceTableCapacity nonce ↔ nonce ∈ consumed
  count_eq_used : m.consumedNonceCount = used m.consumedNonces nonceTableCapacity
  count_eq_length : m.consumedNonceCount = consumed.length
  nodup : consumed.Nodup

/-- The table of a fresh session. -/
theorem NonceInvariant.empty {m : MediationState} (htable : m.consumedNonces = fun _ => none)
    (hcount : m.consumedNonceCount = 0) : NonceInvariant m [] where
  sound := htable ▸ Sound.empty _ _
  holds_iff := by
    intro nonce
    simp [Holds, htable]
  count_eq_used := by simp [used, htable, hcount]
  count_eq_length := hcount
  nodup := nodup_nil

theorem NonceInvariant.congr {m m' : MediationState} {consumed : List CompactId}
    (h : NonceInvariant m consumed) (htable : m'.consumedNonces = m.consumedNonces)
    (hcount : m'.consumedNonceCount = m.consumedNonceCount) : NonceInvariant m' consumed where
  sound := by rw [htable]; exact h.sound
  holds_iff := by rw [htable]; exact h.holds_iff
  count_eq_used := by rw [htable, hcount]; exact h.count_eq_used
  count_eq_length := by rw [hcount]; exact h.count_eq_length
  nodup := h.nodup

section

variable {m : MediationState} {consumed : List CompactId} {nonce : CompactId}

/-- **The search finds exactly the consumed nonces.** -/
theorem NonceInvariant.found_iff (h : NonceInvariant m consumed) :
    (∃ cell, nonceSlot m.consumedNonces nonce = .found cell) ↔ nonce ∈ consumed := by
  rw [← h.holds_iff]
  exact h.sound.search_found_iff

section

variable (h : NonceInvariant m consumed) {cell : ℕ}
  (hslot : nonceSlot m.consumedNonces nonce = .vacant cell)

include h cell hslot

theorem NonceInvariant.notMem_of_vacant : nonce ∉ consumed := by
  intro hmem
  obtain ⟨found, hfound⟩ := h.found_iff.2 hmem
  rw [hslot] at hfound
  cases hfound

theorem NonceInvariant.consume : NonceInvariant (m.consume nonce cell) (consumed ++ [nonce]) := by
  have hnew := h.notMem_of_vacant hslot
  obtain ⟨hcell, hnone⟩ := search_vacant_spec hslot
  refine ⟨h.sound.insert hslot, ?_, ?_, ?_, ?_⟩
  · intro stored
    rw [MediationState.consume, holds_insert_iff hcell hnone, h.holds_iff]
    simp [or_comm]
  · rw [MediationState.consume, used_insert hcell hnone, h.count_eq_used]
  · simp [MediationState.consume, h.count_eq_length]
  · rw [nodup_append]
    refine ⟨h.nodup, nodup_singleton _, ?_⟩
    intro a ha b hb heq
    rw [mem_singleton] at hb
    exact hnew (hb ▸ heq ▸ ha)

end

/-- **The sentinel is never returned** while the counter is below its limit. -/
theorem NonceInvariant.not_full (h : NonceInvariant m consumed)
    (hcount : m.consumedNonceCount ≤ maxConsumedNonces) :
    nonceSlot m.consumedNonces nonce ≠ .full := by
  intro hfull
  have hused := used_eq_of_full hfull
  have hlimit : maxConsumedNonces < nonceTableCapacity := by decide
  have hcounted := h.count_eq_used
  omega

variable {nonces : List CompactId}

theorem NonceInvariant.load (h : NonceInvariant m consumed) {m' : MediationState}
    (hload : loadNonces m nonces = some m') : NonceInvariant m' (consumed ++ nonces) := by
  induction nonces generalizing m consumed with
  | nil =>
    obtain rfl : m = m' := Option.some.inj hload
    simpa using h
  | cons nonce rest ih =>
    rw [loadNonces] at hload
    split at hload
    · next cell hslot =>
      have hstep := ih (h.consume hslot) hload
      rwa [append_assoc, singleton_append] at hstep
    · cases hload

theorem NonceInvariant.load_succeeds (h : NonceInvariant m consumed)
    (hnodup : (consumed ++ nonces).Nodup)
    (hlimit : consumed.length + nonces.length ≤ maxConsumedNonces) :
    ∃ m', loadNonces m nonces = some m' := by
  induction nonces generalizing m consumed with
  | nil => exact ⟨m, rfl⟩
  | cons nonce rest ih =>
    have hnew : nonce ∉ consumed := by
      intro hmem
      exact disjoint_of_nodup_append hnodup hmem mem_cons_self
    have hcount : m.consumedNonceCount ≤ maxConsumedNonces := by
      rw [h.count_eq_length]
      omega
    match hslot : nonceSlot m.consumedNonces nonce with
    | .found cell => exact absurd (h.found_iff.1 ⟨cell, hslot⟩) hnew
    | .full => exact absurd hslot (h.not_full hcount)
    | .vacant cell =>
      rw [loadNonces, hslot]
      apply ih (h.consume hslot)
      · rwa [append_assoc, singleton_append]
      · rw [length_append, length_singleton]
        rw [length_cons] at hlimit
        omega

theorem loadNonces_frame {m' : MediationState} (hload : loadNonces m nonces = some m') :
    m' = { m with
      consumedNonces := m'.consumedNonces
      consumedNonceCount := m'.consumedNonceCount } := by
  induction nonces generalizing m with
  | nil =>
    obtain rfl : m = m' := Option.some.inj hload
    rfl
  | cons nonce rest ih =>
    rw [loadNonces] at hload
    split at hload
    · have hrest := ih hload
      exact hrest
    · cases hload

end

end PooFlow
