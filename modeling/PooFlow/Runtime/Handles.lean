import PooFlow.Runtime.EntryMoves

namespace PooFlow

open Foundation List Function Option Tracked

variable {σ : Type}

/-- The allocation in a slot stays, or dies. -/
structure Stays (r r' : Resource) : Prop where
  keeps : r.Keeps r'
  alive : r'.alive = true → r.alive = true

variable {i : Fin maxResources} {r : Resource} {t : Tracked σ}

theorem Stays.handleOf {rt rt' : Runtime} (h : Stays (rt.resources i) (rt'.resources i)) :
    PooFlow.handleOf rt' i = PooFlow.handleOf rt i := by
  unfold PooFlow.handleOf
  rw [h.keeps.instanceId, h.keeps.generation, h.keeps.kind]

/-- A call starts no allocation, or one, for which it writes out the handle. -/
inductive AllocationStep (rt rt' : Runtime) : Option Handle → Prop where
  | none (h : ∀ i, Stays (rt.resources i) (rt'.resources i)) : AllocationStep rt rt' none
  | allocated {i : Fin maxResources} (hfree : (rt.resources i).alive = false)
      (hgeneration : (rt'.resources i).generation = nextGeneration (rt.resources i).generation)
      (hothers : ∀ j, j ≠ i → Stays (rt.resources j) (rt'.resources j)) :
      AllocationStep rt rt' (some (handleOf rt' i))

theorem EntrySteps.stays {allowed : Resource → Work → Prop} {r' : Resource}
    (h : EntrySteps allowed r r') : Stays r r' := ⟨h.keeps, h.alive⟩

protected theorem Stays.rfl : Stays r r := ⟨.rfl, id⟩

theorem stays_update {table : Fin maxResources → Resource} (h : Stays (table i) r)
    (j : Fin maxResources) : Stays (table j) (update table i r j) := by
  by_cases hj : j = i
  · subst hj
    rwa [update_self]
  · rw [update_of_ne hj]
    exact .rfl

theorem allocationStep_lifecycle {c : Call σ} (hc : c.IsLifecycle) :
    AllocationStep t.runtime (step t c).runtime (c.answer t.runtime t.world).issued := by
  have hmove := lifecycle_move hc t.runtime t.world
  change LifecycleMove t.runtime c.handles (step t c).runtime.resources _ at hmove
  generalize hafter : (step t c).runtime = rt' at hmove ⊢
  generalize (c.answer t.runtime t.world).issued = issued at hmove ⊢
  obtain ⟨table, counter⟩ := rt'
  cases hmove with
  | same => exact .none fun _ => .rfl
  | @allocated i instanceId kind entry hfree hkind hdresses =>
    have hhandle : handleOf ⟨update t.runtime.resources i entry, counter⟩ i =
        ⟨instanceId, slotId i, entry.generation, kind⟩ := by
      simp only [handleOf, update_self, hdresses.instanceId, hdresses.kind]
      rfl
    rw [← hhandle]
    refine .allocated hfree ?_ fun j hj => ?_
    · show (update t.runtime.resources i entry i).generation = _
      rw [update_self, hdresses.generation]
      rfl
    · show Stays _ (update t.runtime.resources i entry j)
      rw [update_of_ne hj]
      exact .rfl
  | restated state outstanding hhalted hunclosed hmem hresolve =>
    exact .none (stays_update ⟨⟨rfl, rfl, rfl⟩, id⟩)
  | released hmem hresolve hkind =>
    exact .none (stays_update ⟨⟨rfl, rfl, rfl⟩, fun h => by cases h⟩)

theorem allocationStep_poll {inst session : Handle} {request : Option PollRequest}
    {result : Option PollResult} :
    AllocationStep t.runtime (pollBatch t.runtime inst session request result).runtime
      ((pollBatch t.runtime inst session request result).written.bind
        fun r => nonNull r.lease) := by
  rcases pollBatch_cases t.runtime inst session request result with
    ⟨heq, hnull⟩ | ⟨plan, l, hdelivers⟩
  · have hnone : ((pollBatch t.runtime inst session request result).written.bind
        fun r => nonNull r.lease) = none := by
      rw [bind_eq_none_iff]
      intro r hr
      rw [hnull r hr]
      rfl
    rw [hnone, heq]
    exact .none fun _ => .rfl
  · have hlease : ((pollBatch t.runtime inst session request result).written.bind
        fun r => nonNull r.lease) =
          some (handleOf (pollBatch t.runtime inst session request result).runtime l) := by
      rw [hdelivers.written_eq]
      simp only [bind_some, BatchPlan.delivered, nonNull, handleOf, Runtime.allocate,
        Runtime.modify_self, Resource.fresh, hdelivers.apply l, if_pos, BatchPlan.leaseEntry]
      exact if_neg (by simp [nullHandle])
    rw [hlease]
    refine .allocated hdelivers.free ?_ fun j hj => ?_
    · rw [hdelivers.apply l, if_pos rfl]
      rfl
    · rw [hdelivers.apply j, if_neg hj]
      exact ⟨⟨rfl, rfl, rfl⟩, id⟩

/-- **Every call starts at most one allocation**, in a dead slot. -/
theorem allocation_step (t : Tracked σ) (c : Call σ) :
    AllocationStep t.runtime (step t c).runtime (c.answer t.runtime t.world).issued := by
  by_cases hc : c.IsLifecycle
  · exact allocationStep_lifecycle hc
  by_cases hkeeps : c.KeepsAllocations
  · rw [issued_of_keeps hkeeps]
    refine .none fun i => ?_
    have hstep := entry_step i t c (Call.works_of_forall (fun _ _ _ => trivial) t c)
    have hgeneration := (answer_keeps hkeeps t.runtime t.world i).generation
    change ((step t c).runtime.resources i).generation = _ at hgeneration
    generalize (step t c).runtime.resources i = r' at hstep hgeneration ⊢
    cases hstep with
    | renewed hfree hdresses =>
      rw [hdresses.generation] at hgeneration
      exact absurd hgeneration (nextGeneration_ne _)
    | moved hmoves => exact hmoves.stays
  · cases c with
    | pollBatch inst session request result => exact allocationStep_poll
    | _ => first | exact absurd trivial hc | exact absurd trivial hkeeps

def Handle.place (h : Handle) : ℕ × ℕ := (h.resourceId, h.generation)

/-- **Registry invariant**: generations count the allocations of a slot, each
slot and generation has been written out once, and what lives in a slot was
written out with the handle it has now. -/
structure Registry (t : Tracked σ) : Prop where
  generation : ∀ i, (t.runtime.resources i).generation = (t.life i).serial
  past : ∀ h ∈ t.issued, ∀ i, h.resourceId = slotId i → h.generation ≤ (t.life i).serial
  present : ∀ h ∈ t.issued, ∀ i, h.resourceId = slotId i →
    h.generation = (t.life i).serial → h = handleOf t.runtime i
  alive : ∀ i, (t.runtime.resources i).alive = true → handleOf t.runtime i ∈ t.issued
  once : (t.issued.map Handle.place).Nodup

section

variable {t : Tracked σ} {c : Call σ}

theorem handleOf_place (rt : Runtime) (i : Fin maxResources) :
    (handleOf rt i).place = (slotId i, (rt.resources i).generation) := rfl

/-- A call that starts no allocation. -/
theorem registry_stays (h : Registry t)
    (hstays : ∀ i, Stays (t.runtime.resources i) ((step t c).runtime.resources i))
    (hissued : (step t c).issued = t.issued) : Registry (step t c) := by
  have hserial : ∀ i, ((step t c).life i).serial = (t.life i).serial := by
    intro i
    rw [serial_step, if_pos (hstays i).keeps.generation]
  refine ⟨?_, ?_, ?_, ?_, ?_⟩
  · intro i
    rw [hserial, (hstays i).keeps.generation, h.generation]
  · simpa only [hissued, hserial] using h.past
  · intro handle hmem i hslot hgen
    rw [hissued] at hmem
    rw [hserial] at hgen
    rw [(hstays i).handleOf]
    exact h.present handle hmem i hslot hgen
  · intro i halive
    rw [hissued, (hstays i).handleOf]
    exact h.alive i ((hstays i).alive halive)
  · rw [hissued]
    exact h.once

theorem registry_allocated (h : Registry t)
    (hwrap : ∀ i, ((step t c).life i).serial < 2 ^ 32) {i : Fin maxResources}
    (hgeneration : ((step t c).runtime.resources i).generation =
      nextGeneration (t.runtime.resources i).generation)
    (hothers : ∀ j, j ≠ i → Stays (t.runtime.resources j) ((step t c).runtime.resources j))
    (hissued : (step t c).issued = t.issued ++ [handleOf (step t c).runtime i]) :
    Registry (step t c) := by
  have hserial : ((step t c).life i).serial = (t.life i).serial + 1 := by
    rw [serial_step, if_neg (hgeneration ▸ nextGeneration_ne _)]
  have hkept : ∀ j, j ≠ i → ((step t c).life j).serial = (t.life j).serial := by
    intro j hj
    rw [serial_step, if_pos (hothers j hj).keeps.generation]
  have hnext : ((step t c).runtime.resources i).generation = (t.life i).serial + 1 := by
    have hbound := hwrap i
    rw [hserial] at hbound
    rw [hgeneration, h.generation]
    unfold nextGeneration
    rw [Nat.mod_eq_of_lt hbound, if_neg (Nat.succ_ne_zero _)]
  have hplace : (handleOf (step t c).runtime i).resourceId = slotId i := rfl
  refine ⟨?_, ?_, ?_, ?_, ?_⟩
  · intro j
    by_cases hj : j = i
    · subst hj
      rw [hnext, hserial]
    · rw [hkept j hj, (hothers j hj).keeps.generation, h.generation]
  · intro handle hmem j hslot
    rw [hissued] at hmem
    rcases mem_append.1 hmem with hold | hnew
    · have hpast := h.past handle hold j hslot
      by_cases hj : j = i
      · subst hj
        rw [hserial]
        exact Nat.le_succ_of_le hpast
      · rwa [hkept j hj]
    · obtain rfl := mem_singleton.1 hnew
      obtain rfl := slotId_inj.1 (hplace.symm.trans hslot)
      exact le_of_eq (hnext.trans hserial.symm)
  · intro handle hmem j hslot hgen
    rw [hissued] at hmem
    rcases mem_append.1 hmem with hold | hnew
    · by_cases hj : j = i
      · -- an older handle of the slot is not of the new generation
        subst hj
        have hpast := h.past handle hold j hslot
        rw [hserial] at hgen
        omega
      · rw [hkept j hj] at hgen
        rw [(hothers j hj).handleOf]
        exact h.present handle hold j hslot hgen
    · obtain rfl := mem_singleton.1 hnew
      obtain rfl := slotId_inj.1 (hplace.symm.trans hslot)
      rfl
  · intro j halive
    rw [hissued]
    by_cases hj : j = i
    · subst hj
      exact mem_append_right _ (mem_singleton_self _)
    · rw [(hothers j hj).handleOf]
      exact mem_append_left _ (h.alive j ((hothers j hj).alive halive))
  · rw [hissued, map_append, nodup_append]
    refine ⟨h.once, nodup_singleton _, ?_⟩
    intro place hold place' hnew hsame
    rw [map_singleton, mem_singleton, handleOf_place] at hnew
    obtain ⟨handle, hmem, rfl⟩ := mem_map.1 hold
    rw [hnew] at hsame
    obtain ⟨hslot, hgen⟩ := Prod.mk.inj hsame
    have hpast := h.past handle hmem i hslot
    omega

/-- **One call**, as long as no slot has used up its generations. -/
theorem registry_step (h : Registry t) (hwrap : ∀ i, ((step t c).life i).serial < 2 ^ 32) :
    Registry (step t c) := by
  have hstep := allocation_step t c
  have hissued : (step t c).issued =
      t.issued ++ ((c.answer t.runtime t.world).issued).toList := rfl
  generalize (c.answer t.runtime t.world).issued = issued at hstep hissued
  cases hstep with
  | none hstays =>
    rw [toList_none, append_nil] at hissued
    exact registry_stays h hstays hissued
  | allocated hfree hgeneration hothers =>
    rw [toList_some] at hissued
    exact registry_allocated h hwrap hgeneration hothers hissued

theorem registry_initial (world : σ) : Registry (initial world) where
  generation := fun _ => rfl
  past := fun h hmem => by cases hmem
  present := fun h hmem => by cases hmem
  alive := fun i halive => by cases halive
  once := nodup_nil

end

/-- Every slot has been allocated fewer than `2 ^ 32` times. -/
def Tracked.Counted (t : Tracked σ) : Prop := ∀ i, (t.life i).serial < 2 ^ 32

instance (t : Tracked σ) : Decidable t.Counted := inferInstanceAs (Decidable (∀ _, _))

theorem registry_run (world : σ) (calls : List (Call σ))
    (hcounted : (run step (initial world) calls).Counted) :
    Registry (run step (initial world) calls) := by
  suffices hall : ∀ t : Tracked σ, Registry t → (run step t calls).Counted →
      Registry (run step t calls) from hall _ (registry_initial world) hcounted
  clear hcounted
  induction calls with
  | nil => exact fun _ h _ => h
  | cons c rest ih =>
    intro t h hcounted
    refine ih (step t c) (registry_step h fun i => ?_) hcounted
    exact lt_of_le_of_lt (serial_le_run (step t c) rest i) (hcounted i)

/-- **Handle safety**: after any run, with any handles, in which no slot was
allocated `2 ^ 32` times, each slot and generation has been handed out once;
and a handle that resolves names a living resource of the requested kind, the
allocation that its instance, slot, generation and kind were issued for,
exactly when it is a handle that was issued. -/
theorem resolved_iff_issued (world : σ) (calls : List (Call σ))
    (hcounted : (run step (Tracked.initial world) calls).Counted) :
    let t := run step (Tracked.initial world) calls
    (t.issued.map Handle.place).Nodup ∧
      ∀ inst handle kind i, resolve t.runtime inst handle kind = .ok i →
        ((t.runtime.resources i).alive = true ∧ (t.runtime.resources i).kind = kind ∧
          handle = handleOf t.runtime i ∧ handleOf t.runtime i ∈ t.issued ↔
        handle ∈ t.issued) := by
  have hreg := registry_run world calls hcounted
  refine ⟨hreg.once, fun inst handle kind i hresolve => ?_⟩
  obtain ⟨hinstance, hkind, hslot, hgeneration, _, halive, hentry⟩ := resolve_eq_ok.1 hresolve
  constructor
  · rintro ⟨_, _, rfl, hissued⟩
    exact hissued
  · intro hissued
    have hsame : handle = handleOf _ i := hreg.present handle hissued i hslot
      (hgeneration.symm.trans (hreg.generation i))
    refine ⟨halive, ?_, hsame, hreg.alive i halive⟩
    rw [← hkind, hsame]
    rfl

theorem resolved_iff_issued_after_setUp :
    let t := run step (Tracked.initial ()) (({} : Installation).setUp)
    (t.issued.map Handle.place).Nodup ∧
      ∀ inst handle kind i, resolve t.runtime inst handle kind = .ok i →
        ((t.runtime.resources i).alive = true ∧ (t.runtime.resources i).kind = kind ∧
          handle = handleOf t.runtime i ∧ handleOf t.runtime i ∈ t.issued ↔
        handle ∈ t.issued) :=
  resolved_iff_issued () _ (by decide +kernel)

/-- **A forged kind resolves**: the bundle of an installation, presented as a
session. -/
theorem kind_forged :
    ¬∀ (calls : List (Call Unit)) (inst handle : Handle) (kind : Kind) (i : Fin maxResources),
      (run step (Tracked.initial ()) calls).Counted →
      resolve (run step (Tracked.initial ()) calls).runtime inst handle kind = .ok i →
        ((run step (Tracked.initial ()) calls).runtime.resources i).kind = kind := by
  intro h
  have hkind := h (({} : Installation).setUp) ⟨1, 1, 1, .instance_⟩ ⟨1, 3, 1, .session⟩ .session 2
    (by decide +kernel) (by decide +kernel)
  exact absurd hkind (by decide +kernel)

end PooFlow
