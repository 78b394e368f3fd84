import PooFlow.Runtime.Calls

namespace PooFlow

open Foundation Function

variable {σ : Type}

structure Dresses (fresh entry : Resource) : Prop where
  generation : entry.generation = fresh.generation
  kind : entry.kind = fresh.kind
  instanceId : entry.instanceId = fresh.instanceId
  pending : entry.queue.pending = []
  pollCursor : entry.queue.pollCursor = 0
  capacity : fresh.kind ≠ .session → entry.queue.capacity = 0
  mediation : entry.mediation = {}
  inflightCount : entry.inflightCount = 0
  released : entry.alive = true → entry.released = false

/-- The kinds whose release nothing else depends on. -/
def Kind.Plain (kind : Kind) : Prop :=
  kind ≠ .session ∧ kind ≠ .arena ∧ kind ≠ .lease

instance (kind : Kind) : Decidable kind.Plain := inferInstanceAs (Decidable (_ ∧ _))

/-- The table and the handle written out by a life-cycle call that was given
`handles`. -/
inductive LifecycleMove (rt : Runtime) (handles : List Handle) :
    (Fin maxResources → Resource) → Option Handle → Prop where
  | same : LifecycleMove rt handles rt.resources none
  | allocated {i : Fin maxResources} {instanceId : ℕ} {kind : Kind} {entry : Resource}
      (hfree : (rt.resources i).alive = false) (hkind : kind ≠ .lease)
      (hdresses : Dresses ((rt.resources i).fresh instanceId kind) entry) :
      LifecycleMove rt handles (Function.update rt.resources i entry)
        (some ⟨instanceId, slotId i, entry.generation, kind⟩)
  | restated {inst session : Handle} {i : Fin maxResources} (state : SessionState)
      (outstanding : ℕ) (hhalted : state = .cancelled ∨ state = .closed)
      (hunclosed : (rt.resources i).state ≠ .closed) (hmem : session ∈ handles)
      (hresolve : resolve rt inst session .session = .ok i) :
      LifecycleMove rt handles
        (Function.update rt.resources i { rt.resources i with state, outstanding }) none
  | released {inst handle : Handle} {kind : Kind} {i : Fin maxResources}
      (hmem : handle ∈ handles) (hresolve : resolve rt inst handle kind = .ok i)
      (hkind : kind.Plain) :
      LifecycleMove rt handles (Function.update rt.resources i (rt.resources i).release) none

section

variable {rt : Runtime} {handles : List Handle}

variable {instanceId : ℕ} {kind : Kind} {i : Fin maxResources} (inst bundle session : Handle)

theorem LifecycleMove.fill {rt' : Runtime}
    (halloc : allocateResource rt instanceId kind = .ok (i, rt')) (f : Resource → Resource)
    (hkind : kind ≠ .lease)
    (hdresses : ∀ r : Resource, Dresses (r.fresh instanceId kind) (f (r.fresh instanceId kind))) :
    LifecycleMove rt handles (rt'.modify i f).resources (some (handleOf rt' i)) := by
  obtain ⟨hfree, rfl⟩ := allocateResource_eq_ok.1 halloc
  have hentry := hdresses (rt.resources i)
  have hhandle : handleOf (rt.allocate i instanceId kind) i =
      ⟨instanceId, slotId i, (f ((rt.resources i).fresh instanceId kind)).generation, kind⟩ := by
    rw [hentry.generation]
    simp [handleOf, Runtime.allocate, Resource.fresh]
  rw [hhandle]
  have htable : ((rt.allocate i instanceId kind).modify i f).resources =
      update rt.resources i (f ((rt.resources i).fresh instanceId kind)) := by
    simp [Runtime.modify, Runtime.allocate]
  rw [htable]
  exact .allocated (freeSlot_dead hfree) hkind hentry

theorem LifecycleMove.bare {rt' : Runtime}
    (halloc : allocateResource rt instanceId kind = .ok (i, rt')) (hkind : kind ≠ .lease) :
    LifecycleMove rt handles rt'.resources (some (handleOf rt' i)) := by
  have hmove : LifecycleMove rt handles (rt'.modify i id).resources (some (handleOf rt' i)) :=
    .fill halloc id hkind (fun _ => by constructor <;> simp [Resource.fresh])
  rwa [Runtime.modify, id, update_eq_self] at hmove

theorem LifecycleMove.recount {n : ℕ} {table : Fin maxResources → Resource} {issued : Option Handle}
    (h : LifecycleMove { rt with nextInstanceId := n } handles table issued) :
    LifecycleMove rt handles table issued := by
  cases h with
  | same => exact .same
  | allocated hfree hkind hdresses => exact .allocated hfree hkind hdresses
  | restated state outstanding hhalted hunclosed hmem hresolve =>
    exact .restated state outstanding hhalted hunclosed hmem hresolve
  | released hmem hresolve hkind => exact .released hmem hresolve hkind

def Outcome.Lifecycle {ρ : Type} (rt : Runtime) (handles : List Handle)
    (issued : ρ → Option Handle) (o : Outcome ρ) : Prop :=
  LifecycleMove rt handles o.runtime.resources (o.written.bind issued)

theorem lifecycle_rejected {ρ : Type} {issued : ρ → Option Handle} (status : Status) :
    Outcome.Lifecycle rt handles issued (.rejected rt status) := .same

theorem lifecycle_admitted {α ρ : Type} {issued : ρ → Option Handle} {admission : Except Status α}
    {effect : α → Outcome ρ}
    (h : ∀ a, admission = .ok a → Outcome.Lifecycle rt handles issued (effect a)) :
    Outcome.Lifecycle rt handles issued (Outcome.ofAdmission rt admission effect) :=
  Outcome.ofAdmission_cases (fun status _ => lifecycle_rejected status) h

theorem lifecycle_released {ρ : Type} {issued : ρ → Option Handle} {inst handle : Handle}
    {value : ρ} (hmem : handle ∈ handles) (hresolve : resolve rt inst handle kind = .ok i)
    (hkind : kind.Plain) (hissued : issued value = none) :
    Outcome.Lifecycle rt handles issued (.accepted (rt.modify i Resource.release) value) := by
  have hmove : LifecycleMove rt handles _ none := .released hmem hresolve hkind
  rw [Outcome.Lifecycle, Outcome.accepted_written, Option.bind_some, hissued]
  exact hmove

theorem lifecycle_releaseOfKind {inst handle : Handle} (hkind : kind.Plain) :
    Outcome.Lifecycle rt [inst, handle] (fun _ => none) (releaseOfKind kind rt inst handle) :=
  lifecycle_admitted fun _ hadmission => lifecycle_released (by simp) hadmission hkind rfl

theorem lifecycle_instanceCreate (hasOut : Bool) :
    Outcome.Lifecycle rt handles some (instanceCreate rt hasOut) := by
  unfold instanceCreate
  split
  · exact lifecycle_rejected _
  · dsimp only
    split
    · exact LifecycleMove.same
    · next i rt' halloc =>
      exact LifecycleMove.recount (.bare halloc (by decide))

theorem lifecycle_instanceRelease :
    Outcome.Lifecycle rt [inst] (fun _ => none) (instanceRelease rt inst) := by
  refine lifecycle_admitted ?_
  intro i hadmission
  simp only [instanceEntry, bind_eq_ok, guardElse_eq_ok, exists_const, pure_eq_ok] at hadmission
  obtain ⟨_, hresolve, _, rfl⟩ := hadmission
  exact lifecycle_released (by simp) hresolve (by decide) rfl

theorem lifecycle_negotiate (request : Option NegotiateRequest) (result : Option NegotiateResult) :
    Outcome.Lifecycle rt [inst] (fun r => some r.profile) (negotiate rt inst request result) := by
  refine lifecycle_admitted ?_
  rintro ⟨request, result⟩ _
  dsimp only
  split
  · exact lifecycle_rejected _
  · next i rt' halloc =>
    exact .fill halloc _ (by decide) (fun _ => by constructor <;> simp [Resource.fresh])

theorem lifecycle_bundleOpen (profile : Handle) (descriptor : Option BundleDescriptor)
    (hasOut : Bool) :
    Outcome.Lifecycle rt [inst, profile] some (bundleOpen rt inst profile descriptor hasOut) := by
  refine lifecycle_admitted ?_
  rintro ⟨p, descriptor⟩ _
  dsimp only
  split
  · exact lifecycle_rejected _
  · next i rt' halloc =>
    exact .fill halloc _ (by decide) (fun _ => by constructor <;> simp [Resource.fresh])

theorem lifecycle_bundleRelease :
    Outcome.Lifecycle rt [inst, bundle] (fun _ => none) (bundleRelease rt inst bundle) := by
  refine lifecycle_admitted ?_
  intro i hadmission
  simp only [bind_eq_ok, guardElse_eq_ok, exists_const, pure_eq_ok] at hadmission
  obtain ⟨_, hresolve, _, rfl⟩ := hadmission
  exact lifecycle_released (by simp) hresolve (by decide) rfl

structure FillsSession (fill : Resource → Resource) : Prop where
  alone : ∀ r, (fill r).generation = r.generation ∧ (fill r).kind = r.kind ∧
    (fill r).instanceId = r.instanceId ∧ (fill r).queue = r.queue ∧
    (fill r).mediation = r.mediation ∧ (fill r).inflightCount = r.inflightCount ∧
    (fill r).released = r.released

theorem lifecycle_allocateSession {memory : Bool} {fill : Resource → Resource}
    (hfill : FillsSession fill) :
    Outcome.Lifecycle rt handles some (allocateSession rt instanceId memory fill) := by
  unfold allocateSession
  split
  · exact lifecycle_rejected _
  · next i rt' halloc =>
    split
    · exact .fill halloc _ (by decide)
        (fun _ => ⟨rfl, rfl, rfl, rfl, rfl, fun _ => rfl, rfl, rfl, fun h => by cases h⟩)
    · refine LifecycleMove.fill halloc _ (by decide) (fun r => ?_)
      obtain ⟨hgen, hkind, hinst, hqueue, hmed, hinflight, hreleased⟩ := hfill.alone
        { r.fresh instanceId .session with queue := { capacity := maxPendingEvents } }
      exact ⟨hgen, hkind, hinst, by rw [hqueue], by rw [hqueue],
        fun h => absurd rfl h, hmed, hinflight, fun _ => hreleased⟩

theorem lifecycle_sessionOpen (descriptor : Option SessionDescriptor) (hasOut memory : Bool) :
    Outcome.Lifecycle rt [inst, bundle] some
      (sessionOpen rt inst bundle descriptor hasOut memory) :=
  lifecycle_admitted fun _ _ =>
    lifecycle_allocateSession ⟨fun _ => ⟨rfl, rfl, rfl, rfl, rfl, rfl, rfl⟩⟩

theorem lifecycle_sessionRestore (checkpoint : Option (List UInt8)) (hasOut memory : Bool) :
    Outcome.Lifecycle rt [inst, bundle] some
      (sessionRestore rt inst bundle checkpoint hasOut memory) :=
  lifecycle_admitted fun _ _ =>
    lifecycle_allocateSession ⟨fun _ => ⟨rfl, rfl, rfl, rfl, rfl, rfl, rfl⟩⟩

theorem lifecycle_sessionCancel :
    Outcome.Lifecycle rt [inst, session] (fun _ => none) (sessionCancel rt inst session) := by
  refine lifecycle_admitted ?_
  intro i hadmission
  simp only [bind_eq_ok, guardElse_eq_ok, exists_const, pure_eq_ok] at hadmission
  obtain ⟨_, hresolve, hunclosed, rfl⟩ := hadmission
  exact .restated .cancelled _ (Or.inl rfl) hunclosed (by simp) hresolve

theorem lifecycle_sessionClose (disposition : ℕ) :
    Outcome.Lifecycle rt [inst, session] (fun _ => none)
      (sessionClose rt inst session disposition) := by
  refine lifecycle_admitted ?_
  intro i hadmission
  simp only [bind_eq_ok, guardElse_eq_ok, exists_const, pure_eq_ok] at hadmission
  obtain ⟨_, hresolve, hunclosed, _, rfl⟩ := hadmission
  exact .restated .closed 0 (Or.inr rfl) hunclosed (by simp) hresolve

theorem lifecycle_allocateBytes (instanceId : ℕ) (bytes : List UInt8) :
    Outcome.Lifecycle rt handles (fun r => some r.owner)
      (allocateBytes rt instanceId bytes) := by
  unfold allocateBytes
  split
  · exact lifecycle_rejected _
  · next i rt' halloc =>
    exact .fill halloc _ (by decide) (fun _ => by constructor <;> simp [Resource.fresh])

theorem lifecycle_sessionCheckpoint (hasOut memory : Bool) :
    Outcome.Lifecycle rt [inst, session] (fun r => some r.owner)
      (sessionCheckpoint rt inst session hasOut memory) :=
  lifecycle_admitted fun _ _ =>
    lifecycle_allocateBytes _ _

theorem lifecycle_errorMessage (status : Status) (hasOut memory : Bool) :
    Outcome.Lifecycle rt [inst] (fun r => some r.owner)
      (errorMessage rt inst status hasOut memory) :=
  lifecycle_admitted fun _ _ =>
    lifecycle_allocateBytes _ _

theorem lifecycle_arenaRegister (descriptor : Option ArenaDescriptor) (hasOut : Bool) :
    Outcome.Lifecycle rt [inst] some (arenaRegister rt inst descriptor hasOut) := by
  refine lifecycle_admitted ?_
  intro descriptor _
  split
  · exact lifecycle_rejected _
  · next i rt' halloc =>
    exact .fill halloc _ (by decide) (fun _ => by constructor <;> simp [Resource.fresh])

theorem lifecycle_ownedBytesRelease (value : Option OwnedBytes) :
    Outcome.Lifecycle rt ([inst] ++ (value.map OwnedBytes.owner).toList) (fun _ => none)
      (ownedBytesRelease rt inst value) := by
  refine lifecycle_admitted ?_
  rintro ⟨i, owned⟩ hadmission
  simp only [bind_eq_ok, presentElse_eq_ok, pure_eq_ok, Prod.mk.injEq] at hadmission
  obtain ⟨_, rfl, _, hresolve, rfl, rfl⟩ := hadmission
  exact lifecycle_released (by simp) hresolve (by decide) rfl

end

/-- The calls that are life-cycle moves and add nothing to the history. -/
def Call.IsLifecycle : Call σ → Prop
  | .sessionReconcileEvidence .. | .sessionRelease .. | .arenaRelease .. | .arenaRecycle ..
  | .publishBatch .. | .pollBatch .. | .submitBatch .. | .batchAck .. | .strictMediate ..
  | .batchedFlush .. => False
  | _ => True

/-- **Life-cycle calls make life-cycle moves.** -/
theorem lifecycle_move {c : Call σ} (hc : c.IsLifecycle) (rt : Runtime) (world : σ) :
    LifecycleMove rt c.handles (c.answer rt world).runtime.resources
      (c.answer rt world).issued := by
  cases c with
  | instanceCreate hasOut => exact lifecycle_instanceCreate hasOut
  | instanceRelease inst => exact lifecycle_instanceRelease inst
  | negotiate inst request result => exact lifecycle_negotiate inst request result
  | profileRelease inst profile => exact lifecycle_releaseOfKind (by decide)
  | bundleOpen inst profile descriptor hasOut =>
    exact lifecycle_bundleOpen inst profile descriptor hasOut
  | bundleRelease inst bundle => exact lifecycle_bundleRelease inst bundle
  | sessionOpen inst bundle descriptor hasOut memory =>
    exact lifecycle_sessionOpen inst bundle descriptor hasOut memory
  | sessionCancel inst session => exact lifecycle_sessionCancel inst session
  | sessionClose inst session disposition =>
    exact lifecycle_sessionClose inst session disposition
  | sessionCheckpoint inst session hasOut memory =>
    exact lifecycle_sessionCheckpoint inst session hasOut memory
  | sessionRestore inst bundle checkpoint hasOut memory =>
    exact lifecycle_sessionRestore inst bundle checkpoint hasOut memory
  | arenaRegister inst descriptor hasOut => exact lifecycle_arenaRegister inst descriptor hasOut
  | ownedBytesRelease inst value => exact lifecycle_ownedBytesRelease inst value
  | errorMessage inst status hasOut memory =>
    exact lifecycle_errorMessage inst status hasOut memory
  | _ => exact hc.elim

theorem log_of_isLifecycle {c : Call σ} (hc : c.IsLifecycle) (t : Tracked σ)
    (i : Fin maxResources) (life : Life) : c.log t i life = life := by
  cases c <;> first | rfl | exact hc.elim

/-- The identity of the allocation in a slot. -/
structure Resource.Keeps (r r' : Resource) : Prop where
  generation : r'.generation = r.generation
  kind : r'.kind = r.kind
  instanceId : r'.instanceId = r.instanceId

theorem Resource.Keeps.rfl {r : Resource} : r.Keeps r := ⟨.refl _, .refl _, .refl _⟩

def Runtime.Keeps (rt rt' : Runtime) : Prop :=
  ∀ i, (rt.resources i).Keeps (rt'.resources i)

namespace Runtime.Keeps

theorem refl (rt : Runtime) : rt.Keeps rt := fun _ => .rfl

theorem trans {rt rt' rt'' : Runtime} (h : rt.Keeps rt') (h' : rt'.Keeps rt'') :
    rt.Keeps rt'' := fun i =>
  ⟨(h' i).generation.trans (h i).generation, (h' i).kind.trans (h i).kind,
    (h' i).instanceId.trans (h i).instanceId⟩

theorem modify (rt : Runtime) (i : Fin maxResources) (f : Resource → Resource)
    (hf : ∀ r : Resource, r.Keeps (f r)) : rt.Keeps (rt.modify i f) := by
  intro j
  rw [Runtime.modify_apply]
  split
  · next hj => exact hj ▸ hf _
  · exact .rfl

end Runtime.Keeps

section

variable (rt : Runtime) (world : σ)

theorem keeps_ofAdmission {α ρ : Type} {admission : Except Status α} {effect : α → Outcome ρ}
    (heffect : ∀ a, rt.Keeps (effect a).runtime) :
    rt.Keeps (Outcome.ofAdmission rt admission effect).runtime := by
  cases admission with
  | ok a => exact heffect a
  | error status => exact .refl rt

theorem publish_keeps (plan : BatchPlan PublishRequest PublishResult) :
    rt.Keeps (plan.publish rt).runtime := by
  rw [BatchPlan.publish_runtime]
  exact .modify _ _ _ fun r => ⟨rfl, rfl, rfl⟩

variable (inst session : Handle)

theorem submitBatch_keeps (request : Option SubmitRequest) (result : Option SubmitResult) :
    rt.Keeps (submitBatch rt inst session request result).runtime := by
  refine keeps_ofAdmission rt fun plan => ?_
  rw [BatchPlan.submit_runtime]
  exact .modify _ _ _ fun r => ⟨rfl, rfl, rfl⟩

theorem run_keeps (program : AdapterProgram) : rt.Keeps (program.run rt).runtime := by
  induction program generalizing rt with
  | done status result => exact .refl rt
  | submit inst session request result next ih =>
    exact (submitBatch_keeps rt inst session request result).trans (ih _ _ _)

theorem adapterRun_keeps (plan : MediationPlan σ) : rt.Keeps (plan.adapterRun rt).runtime := by
  have hreserved : rt.Keeps (plan.reserved rt) := by
    apply Runtime.Keeps.modify
    exact fun r => ⟨rfl, rfl, rfl⟩
  exact hreserved.trans (run_keeps _ _)

theorem strictMediate_keeps (request : Option (StrictMediationRequest σ))
    (result : Option StrictMediationResult) :
    rt.Keeps (strictMediate rt world inst session request result).runtime := by
  rcases strictMediate_cases rt world inst session request result with
    ⟨status, world', heq⟩ | ⟨plan, _, _, heq⟩
  · rw [heq]
    exact .refl rt
  · rw [heq, MediationPlan.conclude_runtime]
    exact (adapterRun_keeps rt plan).trans (.modify _ _ _ fun r => ⟨rfl, rfl, rfl⟩)

theorem batchedFlush_keeps (request : Option (BatchedFlushRequest σ))
    (result : Option BatchedFlushResult) :
    rt.Keeps (batchedFlush rt world inst session request result).runtime := by
  rcases batchedFlush_cases rt world inst session request result with
    ⟨_, heq⟩ | ⟨plan, written, _, _, _, heq⟩
  · rw [heq]
    exact .refl rt
  · rw [heq]
    exact .modify _ _ _ fun r => ⟨rfl, rfl, rfl⟩

theorem reconcile_keeps (reconciliation : Option EvidenceReconciliation) :
    rt.Keeps (sessionReconcileEvidence rt inst session reconciliation).runtime := by
  rcases reconcile_cases rt inst session reconciliation with
    ⟨_, heq⟩ | ⟨s, filled, _, ⟨_, heq⟩ | ⟨loaded, _, _, heq⟩⟩
  · rw [heq]
    exact .refl rt
  · rw [heq]
    exact .modify _ _ _ fun r => ⟨rfl, rfl, rfl⟩
  · rw [heq]
    exact .modify _ _ _ fun r => ⟨rfl, rfl, rfl⟩

theorem acknowledge_keeps (plan : AckPlan) : rt.Keeps (plan.acknowledge rt).runtime := by
  rw [AckPlan.acknowledge_runtime]
  have harena := Runtime.Keeps.modify rt plan.arena (rt.resources plan.lease).settleLease
    fun r => ⟨rfl, rfl, rfl⟩
  have hsession := harena.trans (.modify _ plan.session
    (rt.resources plan.lease).acknowledgeLease fun r => ⟨rfl, rfl, rfl⟩)
  exact hsession.trans (.modify _ plan.lease Resource.release fun r => ⟨rfl, rfl, rfl⟩)

end

/-- The calls outside the life cycle that allocate nothing. -/
def Call.KeepsAllocations : Call σ → Prop
  | .sessionReconcileEvidence .. | .sessionRelease .. | .arenaRelease .. | .arenaRecycle ..
  | .publishBatch .. | .submitBatch .. | .batchAck .. | .strictMediate ..
  | .batchedFlush .. => True
  | _ => False

/-- No call writes a serial number into the history, and only a poll writes an origin. -/
theorem log_origin (c : Call σ) (t : Tracked σ) (i : Fin maxResources) (life : Life) :
    (c.log t i life).serial = life.serial ∧
      (c.KeepsAllocations → (c.log t i life).origin = life.origin) := by
  have hsubmissions : ∀ (submissions : List Submission) (life : Life),
      (submissions.foldl (Life.logSubmission i) life).serial = life.serial ∧
        (submissions.foldl (Life.logSubmission i) life).origin = life.origin := by
    intro submissions
    induction submissions with
    | nil => exact fun _ => ⟨rfl, rfl⟩
    | cons s rest ih =>
      intro life
      rw [List.foldl_cons, (ih _).1, (ih _).2]
      unfold Life.logSubmission
      split <;> exact ⟨rfl, rfl⟩
  cases c with
  | publishBatch =>
    simp only [Call.log, Life.logPublication]
    split <;> exact ⟨rfl, fun _ => rfl⟩
  | pollBatch =>
    simp only [Call.log, Life.logPoll]
    split <;> exact ⟨rfl, False.elim⟩
  | submitBatch =>
    simp only [Call.log, Life.logSubmission]
    split <;> exact ⟨rfl, fun _ => rfl⟩
  | strictMediate =>
    have hlogged := fun submissions => hsubmissions submissions life
    simp only [Call.log, Life.logMediation]
    split
    · split
      · exact ⟨(hlogged _).1, fun _ => (hlogged _).2⟩
      · exact ⟨(hlogged _).1, fun _ => (hlogged _).2⟩
    · exact ⟨(hlogged _).1, fun _ => (hlogged _).2⟩
  | batchedFlush =>
    simp only [Call.log, Life.logFlush]
    split
    · split <;> exact ⟨rfl, fun _ => rfl⟩
    · exact ⟨rfl, fun _ => rfl⟩
  | sessionReconcileEvidence =>
    simp only [Call.log, Life.logReconciliation]
    split
    · split <;> exact ⟨rfl, fun _ => rfl⟩
    · exact ⟨rfl, fun _ => rfl⟩
  | _ => exact ⟨rfl, fun _ => rfl⟩

variable {c : Call σ} {before after : Resource} (life : Life) {t : Tracked σ}

theorem answer_keeps (hc : c.KeepsAllocations) (rt : Runtime) (world : σ) :
    rt.Keeps (c.answer rt world).runtime := by
  cases c with
  | sessionReconcileEvidence inst session reconciliation =>
    exact reconcile_keeps rt inst session reconciliation
  | sessionRelease inst session | arenaRelease inst arena | arenaRecycle inst arena expected next =>
    refine keeps_ofAdmission rt fun _ => ?_
    rw [Outcome.accepted_runtime]
    exact .modify _ _ _ fun r => ⟨rfl, rfl, rfl⟩
  | publishBatch inst session request result =>
    exact keeps_ofAdmission rt fun plan => publish_keeps rt plan
  | submitBatch inst session request result =>
    exact submitBatch_keeps rt inst session request result
  | batchAck inst session lease =>
    exact keeps_ofAdmission rt fun plan => acknowledge_keeps rt plan
  | strictMediate inst session request result =>
    exact strictMediate_keeps rt world inst session request result
  | batchedFlush inst session request result =>
    exact batchedFlush_keeps rt world inst session request result
  | _ => exact hc.elim

theorem issued_of_keeps (hc : c.KeepsAllocations) (rt : Runtime) (world : σ) :
    (c.answer rt world).issued = none := by
  cases c with
  | strictMediate | batchedFlush => rfl
  | sessionReconcileEvidence | sessionRelease | arenaRelease | arenaRecycle | publishBatch
  | submitBatch | batchAck => exact Option.bind_fun_none _
  | _ => exact hc.elim

@[simp] theorem carry_of_same (h : after.generation = before.generation) :
    life.carry before after = life :=
  if_pos h

theorem carry_of_changed (h : after.generation ≠ before.generation) :
    life.carry before after = { serial := life.serial + 1 } :=
  if_neg h

theorem nextGeneration_ne (generation : ℕ) : nextGeneration generation ≠ generation := by
  unfold nextGeneration
  split <;> omega

/-- A call that allocates nothing only adds to the histories. -/
theorem step_life_of_keeps (hc : c.KeepsAllocations) (i : Fin maxResources) :
    (step t c).life i = c.log t i (t.life i) := by
  have hkeeps := answer_keeps hc t.runtime t.world i
  change c.log t i ((t.life i).carry _ _) = _
  rw [carry_of_same _ hkeeps.generation]

inductive LifecycleSlot (r : Resource) (life : Life) : Resource → Life → Prop where
  | same : LifecycleSlot r life r life
  | allocated {instanceId : ℕ} {kind : Kind} {entry : Resource}
      (hdresses : Dresses (r.fresh instanceId kind) entry) :
      LifecycleSlot r life entry { serial := life.serial + 1 }
  | restated (state : SessionState) (outstanding : ℕ) :
      LifecycleSlot r life { r with state, outstanding } life
  | released : LifecycleSlot r life r.release life

/-- **Seen from one slot**, a life-cycle call makes one of four moves. -/
theorem lifecycle_slot (hc : c.IsLifecycle) (i : Fin maxResources) :
    LifecycleSlot (t.runtime.resources i) (t.life i) ((step t c).runtime.resources i)
      ((step t c).life i) := by
  have hlife : (step t c).life i =
      (t.life i).carry (t.runtime.resources i) ((step t c).runtime.resources i) :=
    log_of_isLifecycle hc t i _
  have hmove := lifecycle_move hc t.runtime t.world
  rw [hlife]
  change LifecycleMove t.runtime c.handles (step t c).runtime.resources _ at hmove
  generalize (step t c).runtime.resources = table, (c.answer t.runtime t.world).issued = issued
    at hmove ⊢
  -- a slot other than the one a move changes
  have hother : ∀ {j : Fin maxResources} {entry : Resource}, i ≠ j →
      LifecycleSlot (t.runtime.resources i) (t.life i)
        (update t.runtime.resources j entry i)
        ((t.life i).carry (t.runtime.resources i)
          (update t.runtime.resources j entry i)) := by
    intro j entry hij
    rw [update_of_ne hij, carry_of_same _ rfl]
    exact .same
  cases hmove with
  | same =>
    rw [carry_of_same _ rfl]
    exact .same
  | @allocated j _ _ _ hfree hkind hdresses =>
    by_cases hij : i = j
    · subst hij
      rw [update_self, carry_of_changed _ (hdresses.generation ▸ nextGeneration_ne _)]
      exact .allocated hdresses
    · exact hother hij
  | @restated _ _ j state outstanding hhalted hunclosed hmem hresolve =>
    by_cases hij : i = j
    · subst hij
      rw [update_self, carry_of_same]
      · exact .restated state outstanding
      · rfl
    · exact hother hij
  | @released _ _ _ j hmem hresolve hkind =>
    by_cases hij : i = j
    · subst hij
      rw [update_self, carry_of_same]
      · exact .released
      · rfl
    · exact hother hij

end PooFlow
