import PooFlow.Foundation.Rows
import PooFlow.Journal.Store

namespace PooFlow

open Foundation List

def Evidence.transitions {ν : Type} (batches : List BatchRow) (e : Evidence ν) :
    List (Bytes × Bytes) :=
  (e.beforeExecutionRoot, e.afterExecutionRoot) ::
    (batches.filter (·.lastMediationSequence = e.mediationSequence)).map
      fun batch => (batch.beforeRoot, batch.afterRoot)

structure StagedRecord where
  evidence : Evidence String
  leaf : LeafRow

structure Ledger where
  final : List (Evidence String) := []
  staged : List StagedRecord := []
  pending : Option (EffectBinding String) := none
  batches : List BatchRow := []
  root : Bytes := zeroRoot

namespace Ledger

variable (L : Ledger)

def records : List (Evidence String) := L.final ++ L.staged.map StagedRecord.evidence

def bindings : List (EffectBinding String) :=
  L.records.map Evidence.toEffectBinding ++ L.pending.toList

def transitions : List (Bytes × Bytes) := L.records.flatMap (Evidence.transitions L.batches)

def reserve (b : EffectBinding String) : Ledger := { L with pending := some b }

def append (e : Evidence String) : Ledger :=
  { L with
    final := L.final ++ [e]
    pending := none
    root := e.afterExecutionRoot }

def stage (x : StagedRecord) : Ledger :=
  { L with
    staged := L.staged ++ [x]
    pending := none }

def flush (batch : BatchRow) : Ledger :=
  { L with
    final := L.records
    staged := []
    batches := L.batches ++ [batch]
    root := batch.afterRoot }

@[simp] theorem length_records : L.records.length = L.final.length + L.staged.length := by
  simp [records]

theorem length_bindings : L.bindings.length = L.records.length + L.pending.toList.length := by
  simp [bindings]

section

variable {batches : List BatchRow} {e : Evidence String} {batch : BatchRow}

theorem transitions_open
    (h : ∀ batch ∈ batches, batch.lastMediationSequence < e.mediationSequence) :
    e.transitions batches = [(e.beforeExecutionRoot, e.afterExecutionRoot)] := by
  have hnone : batches.filter (·.lastMediationSequence = e.mediationSequence) = [] := by
    rw [filter_eq_nil_iff]
    intro batch hbatch
    have hlast := h batch hbatch
    simp only [decide_eq_true_eq]
    omega
  rw [Evidence.transitions, hnone, map_nil]

theorem transitions_before (h : e.mediationSequence < batch.lastMediationSequence) :
    e.transitions (batches ++ [batch]) = e.transitions batches := by
  have hother : batch.lastMediationSequence ≠ e.mediationSequence := by omega
  simp [Evidence.transitions, filter_append, hother]

theorem transitions_closing (h : batch.lastMediationSequence = e.mediationSequence) :
    e.transitions (batches ++ [batch]) =
      e.transitions batches ++ [(batch.beforeRoot, batch.afterRoot)] := by
  simp [Evidence.transitions, filter_append, h]

end

variable [Turso]

/-- The bindings of a session: numbered, with ranges as the database gives them back. -/
structure Bound (bindings : List (EffectBinding String)) : Prop where
  numbered : bindings.map (·.mediationSequence) = numbers bindings.length
  nonces_nodup : (bindings.map (·.nonce)).Nodup
  spelled : ∀ b ∈ bindings, ∃ nonce : Nonce, nonce.IsUint64 ∧ b.nonce = nonce.text
  stored : ∀ b ∈ bindings, b.stored = b

/-- **Ledger invariant.** -/
structure Valid : Prop extends Bound L.bindings where
  linked : Linked zeroRoot L.transitions L.root
  root_of_nil : L.final = [] → L.root = zeroRoot
  staged_root : ∀ x ∈ L.staged, x.evidence.beforeExecutionRoot = L.root
  leaf_sequence : ∀ x ∈ L.staged, x.leaf.mediationSequence = x.evidence.mediationSequence
  leaf_index : L.staged.map (·.leaf.leafIndex) = List.range L.staged.length
  batches_closed : ∀ batch ∈ L.batches, batch.lastMediationSequence ≤ L.final.length

theorem Bound.nil : Bound [] := ⟨rfl, nodup_nil, by simp, by simp⟩

theorem Valid.empty : Valid {} where
  toBound := Bound.nil
  linked := rfl
  root_of_nil := fun _ => rfl
  staged_root := by simp
  leaf_sequence := by simp
  leaf_index := rfl
  batches_closed := by simp

section

variable {L}

theorem Valid.numbered_records (h : L.Valid) :
    L.records.map (·.mediationSequence) = numbers L.records.length := by
  have hbindings := h.numbered
  rw [bindings, map_append, map_map] at hbindings
  have hrecords := numbers_of_append hbindings
  rwa [length_map] at hrecords

variable {e : Evidence String}

theorem Valid.record_sequence (h : L.Valid) (he : e ∈ L.records) :
    1 ≤ e.mediationSequence ∧ e.mediationSequence ≤ L.records.length := by
  have hmem : e.mediationSequence ∈ L.records.map (·.mediationSequence) :=
    mem_map_of_mem he
  rwa [h.numbered_records, mem_numbers] at hmem

theorem Valid.pending_sequence (h : L.Valid) {b : EffectBinding String} (hb : L.pending = some b) :
    b.mediationSequence = L.records.length + 1 := by
  have hbindings := h.numbered
  have hlength : L.bindings.length = L.records.length + 1 := by
    rw [length_bindings, hb]
    rfl
  rw [hlength, numbers_succ, bindings, hb, map_append, map_map] at hbindings
  have hlast := (append_inj' hbindings rfl).2
  exact head_eq_of_cons_eq hlast

end

theorem transitions_flush (h : L.Valid) {batch : BatchRow}
    (hlast : batch.lastMediationSequence = L.records.length) (hstaged : L.staged ≠ []) :
    (L.flush batch).transitions = L.transitions ++ [(batch.beforeRoot, batch.afterRoot)] := by
  have hrecords : L.records ≠ [] := by
    simpa [records] using fun _ => hstaged
  obtain ⟨front, e, hsplit⟩ := (eq_nil_or_concat L.records).resolve_left hrecords
  rw [concat_eq_append] at hsplit
  have hnumbers := h.numbered_records
  rw [hsplit, length_append, length_singleton, numbers_succ, map_append]
    at hnumbers
  obtain ⟨hfront, he⟩ := append_inj' hnumbers rfl
  have hclosing : batch.lastMediationSequence = e.mediationSequence := by
    have hseq : e.mediationSequence = (front.length : ℤ) + 1 := head_eq_of_cons_eq he
    rw [hlast, hseq, hsplit]
    simp
  have hbefore : ∀ r ∈ front, r.transitions (L.batches ++ [batch]) = r.transitions L.batches := by
    intro r hr
    apply transitions_before
    have hmem : r.mediationSequence ∈ front.map (·.mediationSequence) := mem_map_of_mem hr
    rw [hfront, mem_numbers] at hmem
    rw [hlast, hsplit, length_append, length_singleton]
    omega
  have hflush : (L.flush batch).records = L.records := by
    simp [flush, records]
  have hbatches : (L.flush batch).batches = L.batches ++ [batch] := rfl
  rw [transitions, transitions, hflush, hbatches, hsplit, flatMap_append,
    flatMap_append, flatMap_congr hbefore, flatMap_singleton,
    flatMap_singleton, transitions_closing hclosing, append_assoc]

end Ledger

section

variable [Turso]

/-- What a call does to the ledger of a session. A reservation that is taken out
meets `opens`. -/
inductive LedgerMove (opens : Ledger → EffectBinding String → Prop) : Ledger → Ledger → Prop where
  | idle (L : Ledger) : LedgerMove opens L L
  | reserved (L : Ledger) (b : EffectBinding String) (hpending : L.pending = none)
      (hsequence : b.mediationSequence = L.records.length + 1)
      (hroot : b.beforeExecutionRoot = L.root)
      (hfresh : b.nonce ∉ L.bindings.map (·.nonce))
      (hspelled : ∃ nonce : Nonce, nonce.IsUint64 ∧ b.nonce = nonce.text) (hstored : b.stored = b)
      (hopens : opens L b) : LedgerMove opens L (L.reserve b)
  | appended (L : Ledger) (e : Evidence String) (hpending : L.pending = some e.toEffectBinding)
      (hstaged : L.staged = []) (hroot : e.beforeExecutionRoot = L.root)
      (hvalid : ValidReceipt e) : LedgerMove opens L (L.append e)
  | staged (L : Ledger) (x : StagedRecord) (hpending : L.pending = some x.evidence.toEffectBinding)
      (hroot : x.evidence.beforeExecutionRoot = L.root) (hvalid : ValidReceipt x.evidence)
      (hbuffered : x.evidence.outcome = .buffered)
      (hsequence : x.leaf.mediationSequence = x.evidence.mediationSequence)
      (hindex : x.leaf.leafIndex = L.staged.length) : LedgerMove opens L (L.stage x)
  | flushed (L : Ledger) (batch : BatchRow) (hstaged : L.staged ≠ [])
      (hlast : batch.lastMediationSequence = L.records.length)
      (hbefore : batch.beforeRoot = L.root) :
      LedgerMove opens L (L.flush batch)

end

section

variable {opens : Ledger → EffectBinding String → Prop} {L L' : Ledger} {e : Evidence String}

namespace Ledger

theorem bindings_reserve {b : EffectBinding String} (hpending : L.pending = none) :
    (L.reserve b).bindings = L.bindings ++ [b] := by
  simp [bindings, records, reserve, hpending]

theorem bindings_append (hpending : L.pending = some e.toEffectBinding)
    (hstaged : L.staged = []) : (L.append e).bindings = L.bindings := by
  simp [bindings, records, append, hpending, hstaged]

theorem bindings_stage {x : StagedRecord} (hpending : L.pending = some x.evidence.toEffectBinding) :
    (L.stage x).bindings = L.bindings := by
  simp [bindings, records, stage, hpending]

theorem records_flush (batch : BatchRow) : (L.flush batch).records = L.records := by
  simp [flush, records]

theorem bindings_flush (batch : BatchRow) : (L.flush batch).bindings = L.bindings := by
  rw [bindings, records_flush]
  rfl

variable [Turso]

theorem Bound.concat {bindings : List (EffectBinding String)} (h : Bound bindings)
    {b : EffectBinding String} (hsequence : b.mediationSequence = bindings.length + 1)
    (hfresh : b.nonce ∉ bindings.map (·.nonce))
    (hspelled : ∃ nonce : Nonce, nonce.IsUint64 ∧ b.nonce = nonce.text) (hstored : b.stored = b) :
    Bound (bindings ++ [b]) where
  numbered := by
    rw [map_append, h.numbered, length_append, length_singleton, numbers_succ,
      map_singleton, hsequence]
  nonces_nodup := by
    rw [map_append, map_singleton, nodup_append]
    refine ⟨h.nonces_nodup, nodup_singleton _, ?_⟩
    intro a ha c hc heq
    rw [mem_singleton] at hc
    exact hfresh (hc ▸ heq ▸ ha)
  spelled := by
    intro c hc
    rcases mem_append.1 hc with hc | hc
    · exact h.spelled c hc
    · rw [mem_singleton.1 hc]
      exact hspelled
  stored := by
    intro c hc
    rcases mem_append.1 hc with hc | hc
    · exact h.stored c hc
    · rw [mem_singleton.1 hc, hstored]

end Ledger

variable [Turso]

namespace Ledger.Valid

theorem reserve (h : L.Valid) {b : EffectBinding String} (hpending : L.pending = none)
    (hsequence : b.mediationSequence = L.records.length + 1)
    (hfresh : b.nonce ∉ L.bindings.map (·.nonce))
    (hspelled : ∃ nonce : Nonce, nonce.IsUint64 ∧ b.nonce = nonce.text) (hstored : b.stored = b) :
    (L.reserve b).Valid := by
  have hlength : L.bindings.length = L.records.length := by
    rw [length_bindings, hpending]
    rfl
  have hbound : Bound (L.reserve b).bindings := by
    rw [bindings_reserve hpending]
    exact h.toBound.concat (by rw [hsequence, hlength]) hfresh hspelled hstored
  exact { h with toBound := hbound }

theorem append (h : L.Valid) (hpending : L.pending = some e.toEffectBinding)
    (hstaged : L.staged = []) (hroot : e.beforeExecutionRoot = L.root) : (L.append e).Valid := by
  have hbound := bindings_append hpending hstaged ▸ h.toBound
  have hsequence : e.mediationSequence = L.records.length + 1 := h.pending_sequence hpending
  have hrecords : L.records = L.final := by simp [records, hstaged]
  rw [hrecords] at hsequence
  have hopen : e.transitions L.batches = [(e.beforeExecutionRoot, e.afterExecutionRoot)] := by
    apply transitions_open
    intro batch hbatch
    have hclosed := h.batches_closed batch hbatch
    omega
  have hstays : (L.append e).staged = [] := hstaged
  refine ⟨hbound, ?_, ?_, ?_, ?_, ?_, ?_⟩
  · have htransitions : (L.append e).transitions =
        L.transitions ++ [(e.beforeExecutionRoot, e.afterExecutionRoot)] := by
      rw [← hopen]
      simp [transitions, records, Ledger.append, hstaged]
    rw [htransitions, hroot]
    exact h.linked.extend _
  · intro hnil
    exact absurd hnil (by simp [Ledger.append])
  · simp [hstays]
  · simp [hstays]
  · simp [hstays]
  · intro batch hbatch
    have hclosed := h.batches_closed batch hbatch
    simp only [Ledger.append, length_append, length_singleton]
    omega

section

variable (h : L.Valid) {x : StagedRecord} (hpending : L.pending = some x.evidence.toEffectBinding)
  (hroot : x.evidence.beforeExecutionRoot = L.root) (hvalid : ValidReceipt x.evidence)
  (hbuffered : x.evidence.outcome = .buffered)

include h x hpending hroot hvalid hbuffered

theorem transitions_stage : (L.stage x).transitions = L.transitions ++ [(L.root, L.root)] := by
  have hnext : x.evidence.mediationSequence = L.records.length + 1 := h.pending_sequence hpending
  have hafter : x.evidence.afterExecutionRoot = L.root := by
    rw [hvalid.keepsRoot (Or.inl hbuffered), hroot]
  have hopen : x.evidence.transitions L.batches = [(L.root, L.root)] := by
    rw [transitions_open, hroot, hafter]
    intro batch hbatch
    have hclosed := h.batches_closed batch hbatch
    rw [length_records] at hnext
    omega
  rw [← hopen]
  simp [transitions, records, Ledger.stage]

theorem stage (hsequence : x.leaf.mediationSequence = x.evidence.mediationSequence)
    (hindex : x.leaf.leafIndex = L.staged.length) : (L.stage x).Valid := by
  have hbound := bindings_stage hpending ▸ h.toBound
  refine ⟨hbound, ?_, h.root_of_nil, ?_, ?_, ?_, h.batches_closed⟩
  · rw [h.transitions_stage hpending hroot hvalid hbuffered]
    exact h.linked.extend _
  · intro y hy
    rcases mem_append.1 hy with hy | hy
    · exact h.staged_root y hy
    · rw [mem_singleton.1 hy]
      exact hroot
  · intro y hy
    rcases mem_append.1 hy with hy | hy
    · exact h.leaf_sequence y hy
    · rw [mem_singleton.1 hy]
      exact hsequence
  · simp only [Ledger.stage, map_append, h.leaf_index, map_singleton, hindex,
      length_append, length_singleton, range_succ]

end

theorem flush (h : L.Valid) {batch : BatchRow} (hstaged : L.staged ≠ [])
    (hlast : batch.lastMediationSequence = L.records.length)
    (hbefore : batch.beforeRoot = L.root) : (L.flush batch).Valid := by
  have hbound := bindings_flush (L := L) batch ▸ h.toBound
  refine ⟨hbound, ?_, ?_, ?_, ?_, ?_, ?_⟩
  · rw [transitions_flush L h hlast hstaged, hbefore]
    exact h.linked.extend _
  · intro hnil
    have hempty : L.final ++ L.staged.map StagedRecord.evidence = [] := hnil
    rw [append_eq_nil_iff, map_eq_nil_iff] at hempty
    exact absurd hempty.2 hstaged
  · simp [Ledger.flush]
  · simp [Ledger.flush]
  · simp [Ledger.flush]
  · intro old hold
    show old.lastMediationSequence ≤ (L.records.length : ℤ)
    rcases mem_append.1 hold with hold | hold
    · have hclosed := h.batches_closed old hold
      rw [length_records]
      omega
    · rw [mem_singleton.1 hold, hlast]

end Ledger.Valid

/-- **A ledger stays valid.** -/
theorem LedgerMove.valid (h : LedgerMove opens L L') (hvalid : L.Valid) : L'.Valid := by
  cases h with
  | idle => exact hvalid
  | reserved b hpending hsequence hroot hfresh hspelled hstored hopens =>
    exact hvalid.reserve hpending hsequence hfresh hspelled hstored
  | appended e hpending hstaged hroot hreceipt => exact hvalid.append hpending hstaged hroot
  | staged x hpending hroot hreceipt hbuffered hsequence hindex =>
    exact hvalid.stage hpending hroot hreceipt hbuffered hsequence hindex
  | flushed batch hstaged hlast hbefore => exact hvalid.flush hstaged hlast hbefore

end

end PooFlow
