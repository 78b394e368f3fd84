import PooFlow.Runtime.QueueLemmas
import PooFlow.Runtime.Frames

namespace PooFlow

open Foundation List Function Option Tracked

variable {σ : Type}

structure Lineage where
  serial : ℕ
  origin : Option LeaseOrigin

def Life.lineage (life : Life) : Lineage := ⟨life.serial, life.origin⟩

structure Table where
  entry : Fin maxResources → Resource
  lineage : Fin maxResources → Lineage

def Tracked.table (t : Tracked σ) : Table :=
  ⟨t.runtime.resources, fun i => (t.life i).lineage⟩

namespace Table

variable (b : Table)

def Lives (i : Fin maxResources) (kind : Kind) : Prop :=
  (b.entry i).alive = true ∧ (b.entry i).kind = kind

instance (i : Fin maxResources) (kind : Kind) : Decidable (b.Lives i kind) :=
  inferInstanceAs (Decidable (_ ∧ _))

def set (i : Fin maxResources) (r : Resource) : Table :=
  { b with entry := Function.update b.entry i r }

theorem set_self (i : Fin maxResources) (r : Resource) : (b.set i r).entry i = r :=
  update_self ..

variable {i j : Fin maxResources} {kind : Kind} (s a : Fin maxResources) (instanceId : ℕ)
  {l : Fin maxResources}

theorem set_of_ne (h : j ≠ i) (r : Resource) : (b.set i r).entry j = b.entry j :=
  update_of_ne h ..

theorem Lives.ne {b : Table} {kind' : Kind} (h : b.Lives i kind) (h' : b.Lives j kind')
    (hkind : kind ≠ kind') : i ≠ j := by
  rintro rfl
  exact hkind (h.2.symm.trans h'.2)

theorem Lives.ne_of_dead {b : Table} (h : b.Lives i kind) (hdead : (b.entry j).alive = false) :
    i ≠ j := by
  rintro rfl
  rw [h.1] at hdead
  cases hdead

/-- The events that session `s` hands out for arena `a`. -/
def window (s a : Fin maxResources) : List PendingEvent :=
  (b.entry s).queue.window (slotId a) (b.entry a).arenaGeneration

/-- The lease over the window, in the slot `l`. -/
def leased (s a l : Fin maxResources) (instanceId : ℕ) : Resource :=
  { (b.entry l).fresh instanceId .lease with
    parentId := slotId a
    epoch := (b.entry a).arenaGeneration
    outstanding := slotId s
    sequence := (b.window s a).length
    leaseFirstSequence := ((b.window s a).head?.map PendingEvent.sequence).getD 0
    leaseLastSequence := ((b.window s a).getLast?.map PendingEvent.sequence).getD 0 }

def poll (s a l : Fin maxResources) (instanceId : ℕ) : Table where
  entry := fun i =>
    if i = l then b.leased s a l instanceId
    else
      { b.entry i with
        queue :=
          if i = s then (b.entry i).queue.poll (slotId a) (b.entry a).arenaGeneration
          else (b.entry i).queue
        inflightCount :=
          if i = a then (b.entry i).inflightCount + (b.window s a).length
          else (b.entry i).inflightCount }
  lineage := Function.update b.lineage l
    { serial := (b.lineage l).serial + 1
      origin := some
        { session := s
          sessionSerial := (b.lineage s).serial
          arena := a
          arenaSerial := (b.lineage a).serial } }

theorem poll_lease (l : Fin maxResources) (instanceId : ℕ) :
    (b.poll s a l instanceId).entry l = b.leased s a l instanceId := if_pos rfl

theorem poll_of_ne (h : i ≠ l) : (b.poll s a l instanceId).entry i =
      { b.entry i with
        queue :=
          if i = s then (b.entry i).queue.poll (slotId a) (b.entry a).arenaGeneration
          else (b.entry i).queue
        inflightCount :=
          if i = a then (b.entry i).inflightCount + (b.window s a).length
          else (b.entry i).inflightCount } := if_neg h

theorem poll_lives_of_ne (h : i ≠ l) : (b.poll s a l instanceId).Lives i kind ↔ b.Lives i kind := by
  rw [Lives, b.poll_of_ne s a instanceId h]
  exact Iff.rfl

theorem poll_lineage_lease (l : Fin maxResources) (instanceId : ℕ) :
    (b.poll s a l instanceId).lineage l =
      ⟨(b.lineage l).serial + 1, some ⟨s, (b.lineage s).serial, a, (b.lineage a).serial⟩⟩ :=
  update_self ..

theorem poll_lineage_of_ne (h : i ≠ l) : (b.poll s a l instanceId).lineage i = b.lineage i :=
  update_of_ne h ..

def acknowledge (s a l : Fin maxResources) : Table :=
  { b with
    entry := fun i =>
      if i = l then (b.entry l).release
      else
        { b.entry i with
          queue :=
            if i = s then (b.entry i).queue.acknowledge (b.entry l).parentId
              (b.entry l).leaseFirstSequence (b.entry l).leaseLastSequence
            else (b.entry i).queue
          inflightCount :=
            if i = a then (b.entry i).inflightCount - (b.entry l).sequence
            else (b.entry i).inflightCount } }

theorem acknowledge_lease (l : Fin maxResources) :
    (b.acknowledge s a l).entry l = (b.entry l).release := if_pos rfl

theorem acknowledge_of_ne (h : i ≠ l) : (b.acknowledge s a l).entry i =
      { b.entry i with
        queue :=
          if i = s then (b.entry i).queue.acknowledge (b.entry l).parentId
            (b.entry l).leaseFirstSequence (b.entry l).leaseLastSequence
          else (b.entry i).queue
        inflightCount :=
          if i = a then (b.entry i).inflightCount - (b.entry l).sequence
          else (b.entry i).inflightCount } := if_neg h

theorem acknowledge_lives : (b.acknowledge s a l).Lives i kind ↔ i ≠ l ∧ b.Lives i kind := by
  by_cases hil : i = l
  · subst hil
    rw [Lives, b.acknowledge_lease]
    exact ⟨fun h => absurd h.1 (by simp [Resource.release]), fun h => absurd rfl h.1⟩
  · rw [Lives, b.acknowledge_of_ne s a hil]
    exact ⟨fun h => ⟨hil, h⟩, fun h => h.2⟩

end Table

/-- A change that no other entry depends on. -/
structure Quiet (r r' : Resource) : Prop where
  alive : r'.alive = r.alive
  kind : r'.kind = r.kind
  generation : r'.generation = r.generation
  instanceId : r'.instanceId = r.instanceId
  arenaCapacity : r'.arenaCapacity = r.arenaCapacity
  arenaGeneration : r'.arenaGeneration = r.arenaGeneration
  inflightCount : r'.inflightCount = r.inflightCount
  lease : r.kind = .lease → r'.parentId = r.parentId ∧ r'.outstanding = r.outstanding ∧
    r'.epoch = r.epoch ∧ r'.leaseFirstSequence = r.leaseFirstSequence ∧
    r'.leaseLastSequence = r.leaseLastSequence ∧
    (r.queue.pending = [] → r'.sequence = r.sequence)
  pollCursor : r'.queue.pollCursor = r.queue.pollCursor
  pending : List.Forall₂ (Restamped Accepts) r.queue.pending r'.queue.pending

protected theorem Quiet.rfl {r : Resource} : Quiet r r :=
  ⟨.refl _, .refl _, .refl _, .refl _, .refl _, .refl _, .refl _, fun _ => ⟨.refl _, .refl _,
    .refl _, .refl _, .refl _, fun _ => .refl _⟩, .refl _, forall₂_unstamped _ _⟩

theorem Quiet.session {r r' : Resource} (hkind : r.kind = .session) (halive : r'.alive = r.alive)
    (hkind' : r'.kind = r.kind) (hgeneration : r'.generation = r.generation)
    (hinstance : r'.instanceId = r.instanceId) (hcapacity : r'.arenaCapacity = r.arenaCapacity)
    (harena : r'.arenaGeneration = r.arenaGeneration)
    (hinflight : r'.inflightCount = r.inflightCount) (hqueue : r'.queue = r.queue) :
    Quiet r r' where
  alive := halive
  kind := hkind'
  generation := hgeneration
  instanceId := hinstance
  arenaCapacity := hcapacity
  arenaGeneration := harena
  inflightCount := hinflight
  lease := fun hlease => by rw [hkind] at hlease; cases hlease
  pollCursor := by rw [hqueue]
  pending := by rw [hqueue]; exact forall₂_unstamped _ _

theorem Quiet.mediation (r : Resource) (m : MediationState) : Quiet r { r with mediation := m } :=
  { Quiet.rfl (r := r) with }

theorem Quiet.trans {r r' r'' : Resource} (h : Quiet r r') (h' : Quiet r' r'') : Quiet r r'' where
  alive := h'.alive.trans h.alive
  kind := h'.kind.trans h.kind
  generation := h'.generation.trans h.generation
  instanceId := h'.instanceId.trans h.instanceId
  arenaCapacity := h'.arenaCapacity.trans h.arenaCapacity
  arenaGeneration := h'.arenaGeneration.trans h.arenaGeneration
  inflightCount := h'.inflightCount.trans h.inflightCount
  lease := by
    intro hkind
    obtain ⟨hparent, hout, hepoch, hfirst, hlast, hsequence⟩ := h.lease hkind
    obtain ⟨hparent', hout', hepoch', hfirst', hlast', hsequence'⟩ :=
      h'.lease (h.kind.trans hkind)
    refine ⟨hparent'.trans hparent, hout'.trans hout, hepoch'.trans hepoch,
      hfirst'.trans hfirst, hlast'.trans hlast, fun hnone => ?_⟩
    have hnone' : r'.queue.pending = [] := by
      have hlength := h.pending.length_eq
      rw [hnone] at hlength
      exact length_eq_zero_iff.1 hlength.symm
    exact (hsequence' hnone').trans (hsequence hnone)
  pollCursor := h'.pollCursor.trans h.pollCursor
  pending := restamped_trans h.pending h'.pending

theorem Quiet.submitted (r : Resource) {pending : List PendingEvent}
    (h : List.Forall₂ (Restamped Accepts) r.queue.pending pending) :
    Quiet r (r.submitted pending) :=
  { Quiet.rfl (r := r) with
    lease := by
      intro _
      refine ⟨rfl, rfl, rfl, rfl, rfl, fun hnone => ?_⟩
      have hlength := h.length_eq
      rw [hnone] at hlength
      have hpending : pending = [] := length_eq_zero_iff.1 hlength.symm
      rw [Resource.submitted, hpending]
      rfl
    pending := h }

/-- **Identity invariant**: the generation of a slot counts its allocations,
and an issued handle of the present generation has the present kind. -/
structure Identity (b : Table) (issued : List Handle) : Prop where
  generation : ∀ i, (b.entry i).generation = (b.lineage i).serial
  issued : ∀ h ∈ issued, ∃ i, h.resourceId = slotId i ∧ h.generation ≤ (b.lineage i).serial ∧
    (h.generation = (b.lineage i).serial → h.kind = (b.entry i).kind)

variable {i : Fin maxResources}

/-- **An issued handle names an entry of its kind.** -/
theorem Identity.kind_of_resolve {rt : Runtime} {lineage : Fin maxResources → Lineage}
    {issued : List Handle} (hid : Identity ⟨rt.resources, lineage⟩ issued)
    {inst handle : Handle} {kind : Kind} (hissued : handle ∈ issued)
    (h : resolve rt inst handle kind = .ok i) : Table.Lives ⟨rt.resources, lineage⟩ i kind := by
  obtain ⟨_, hkind, hslot, hgeneration, _, halive, _⟩ := resolve_eq_ok.1 h
  obtain ⟨j, hj, _, hpresent⟩ := hid.issued handle hissued
  rw [hslot, slotId_inj] at hj
  subst hj
  refine ⟨halive, ?_⟩
  have hsame := hpresent (hgeneration.symm.trans (hid.generation i))
  exact hsame.symm.trans hkind

/-- One move of the table with the handle it issues. Releases and recyclings
meet `frees`, acknowledged leases `presents`. -/
inductive TableMove (frees : Table → Fin maxResources → Prop)
    (presents : Table → Fin maxResources → Fin maxResources → Prop) (b : Table) :
    Table → Option Handle → Prop where
  | quiet {entry : Fin maxResources → Resource} (h : ∀ i, Quiet (b.entry i) (entry i)) :
      TableMove frees presents b { b with entry := entry } none
  | allocated {i : Fin maxResources} {instanceId : ℕ} {kind : Kind} {entry : Resource}
      (hfree : (b.entry i).alive = false) (hkind : kind ≠ .lease)
      (hdresses : Dresses ((b.entry i).fresh instanceId kind) entry) :
      TableMove frees presents b
        ⟨Function.update b.entry i entry,
          Function.update b.lineage i ⟨(b.lineage i).serial + 1, none⟩⟩
        (some ⟨instanceId, slotId i, entry.generation, kind⟩)
  | released {i : Fin maxResources} {kind : Kind} (r : Resource) (hlives : b.Lives i kind)
      (hkind : kind ≠ .lease) (hidle : kind = .arena → (b.entry i).inflightCount = 0)
      (hreleased : r = (b.entry i).release ∨ r = (b.entry i).releaseArena)
      (hfrees : kind.Plain ∨ frees b i) :
      TableMove frees presents b (b.set i r) none
  | recycled {i : Fin maxResources} (generation : ℕ) (hlives : b.Lives i .arena)
      (hidle : (b.entry i).inflightCount = 0) (hfrees : frees b i) :
      TableMove frees presents b (b.set i ((b.entry i).recycle generation)) none
  | published {s a : Fin maxResources} {headers : List EventHeader}
      (hsession : b.Lives s .session) (harena : b.Lives a .arena)
      (hinstance : (b.entry a).instanceId = (b.entry s).instanceId)
      (hcheck : checkPublish (b.entry a).arenaCapacity (b.entry s).queue.lastSequence? headers =
        .ok ()) :
      TableMove frees presents b
        (b.set s { b.entry s with
          queue := (b.entry s).queue.publish (slotId a) (b.entry a).arenaGeneration headers })
        none
  | polled {s a l : Fin maxResources} (instanceId : ℕ) (hsession : b.Lives s .session)
      (harena : b.Lives a .arena) (hinstance : (b.entry a).instanceId = instanceId)
      (hfree : (b.entry l).alive = false) (hready : b.window s a ≠ []) :
      TableMove frees presents b (b.poll s a l instanceId)
        (some ⟨instanceId, slotId l, nextGeneration (b.entry l).generation, .lease⟩)
  | acknowledged {s a l : Fin maxResources} (hsession : b.Lives s .session)
      (harena : b.Lives a .arena) (hlease : b.Lives l .lease)
      (houtstanding : (b.entry l).outstanding = slotId s)
      (hparent : (b.entry l).parentId = slotId a) (hpresents : presents b s l) :
      TableMove frees presents b (b.acknowledge s a l) none

def Runtime.Quiets (rt rt' : Runtime) : Prop :=
  ∀ i, Quiet (rt.resources i) (rt'.resources i)

namespace Runtime.Quiets

variable (rt : Runtime) (world : σ)

theorem refl : rt.Quiets rt := fun _ => .rfl

theorem trans {rt rt' rt'' : Runtime} (h : rt.Quiets rt') (h' : rt'.Quiets rt'') : rt.Quiets rt'' :=
  fun i => (h i).trans (h' i)

variable {f : Resource → Resource}

theorem modify {rt : Runtime}
    (hf : Quiet (rt.resources i) (f (rt.resources i))) : rt.Quiets (rt.modify i f) := by
  intro j
  rw [Runtime.modify_apply]
  split
  · next hj => exact hj ▸ hf
  · exact .rfl

theorem submitBatch (inst session : Handle) (request : Option SubmitRequest)
    (result : Option SubmitResult) :
    rt.Quiets (submitBatch rt inst session request result).runtime := by
  rcases Outcome.ofAdmission_eq rt (submitAdmission rt inst session request result)
    (·.submit rt) with ⟨_, _, heq⟩ | ⟨plan, _, heq⟩
  · rw [PooFlow.submitBatch, heq]
    exact .refl rt
  · rw [PooFlow.submitBatch, heq, BatchPlan.submit_runtime]
    exact .modify (.submitted _ (submit_events _ _ _ _))

theorem run (program : AdapterProgram) (rt : Runtime) : rt.Quiets (program.run rt).runtime := by
  induction program generalizing rt with
  | done status result => exact .refl rt
  | submit inst session request result next ih =>
    exact (submitBatch rt inst session request result).trans (ih _ _ _)

theorem strictMediate (inst session : Handle) (request : Option (StrictMediationRequest σ))
    (result : Option StrictMediationResult) :
    rt.Quiets (strictMediate rt world inst session request result).runtime := by
  rcases strictMediate_cases rt world inst session request result with
    ⟨status, world', heq⟩ | ⟨plan, _, _, heq⟩
  · rw [heq]
    exact .refl rt
  · rw [heq, MediationPlan.conclude_runtime]
    have hreserved : rt.Quiets (plan.reserved rt) := .modify (.mediation _ _)
    have hrun := hreserved.trans (run (plan.execute (plan.invocation rt)) _)
    exact hrun.trans (.modify (.mediation _ _))

theorem batchedFlush (inst session : Handle) (request : Option (BatchedFlushRequest σ))
    (result : Option BatchedFlushResult) :
    rt.Quiets (batchedFlush rt world inst session request result).runtime := by
  rcases batchedFlush_cases rt world inst session request result with
    ⟨_, heq⟩ | ⟨plan, written, _, _, _, heq⟩
  · rw [heq]
    exact .refl rt
  · rw [heq]
    exact .modify (.mediation _ _)

end Runtime.Quiets

theorem lineage_log {c : Call σ} (hc : c.KeepsAllocations) (t : Tracked σ)
    (i : Fin maxResources) (life : Life) : (c.log t i life).lineage = life.lineage :=
  congrArg₂ Lineage.mk (log_origin c t i life).1 ((log_origin c t i life).2 hc)

theorem table_of_keeps {t : Tracked σ} {c : Call σ} (hc : c.KeepsAllocations) :
    (step t c).table = { t.table with entry := (step t c).runtime.resources } := by
  have hlineage : (fun i => ((step t c).life i).lineage) = fun i => (t.life i).lineage := by
    funext i
    rw [step_life_of_keeps hc, lineage_log hc]
  exact congrArg (Table.mk _) hlineage

theorem table_modify {t : Tracked σ} : { t.table with entry := (t.runtime.modify i f).resources } =
      t.table.set i (f (t.table.entry i)) := rfl

section

variable {frees : Table → Fin maxResources → Prop}
  {presents : Table → Fin maxResources → Fin maxResources → Prop}

def Call.Frees (frees : Table → Fin maxResources → Prop) (t : Tracked σ) : Call σ → Prop
  | .sessionRelease inst session =>
    ∀ i, sessionReleaseAdmission t.runtime inst session = .ok i → frees t.table i
  | .arenaRelease inst arena =>
    ∀ i, arenaReleaseAdmission t.runtime inst arena = .ok i → frees t.table i
  | .arenaRecycle inst arena expected next =>
    ∀ i, arenaRecycleAdmission t.runtime inst arena expected next = .ok i → frees t.table i
  | _ => True

def Call.Presents (presents : Table → Fin maxResources → Fin maxResources → Prop)
    (t : Tracked σ) : Call σ → Prop
  | .batchAck inst session lease =>
    ∀ plan, ackAdmission t.runtime inst session lease = .ok plan →
      presents t.table plan.session plan.lease
  | .strictMediate inst session request result =>
    ∀ plan, mediationAdmission t.runtime inst session request result = .ok plan →
      presents t.table plan.session plan.lease
  | _ => True

instance [∀ b i, Decidable (frees b i)] (t : Tracked σ) (c : Call σ) :
    Decidable (c.Frees frees t) := by
  rcases c
  all_goals first
    | exact inferInstanceAs (Decidable (∀ i, _ = Except.ok i → _))
    | exact instDecidableTrue

instance [∀ b s l, Decidable (presents b s l)] (t : Tracked σ) (c : Call σ) :
    Decidable (c.Presents presents t) := by
  rcases c
  all_goals first
    | exact inferInstanceAs (Decidable (∀ plan, _ = Except.ok plan → _))
    | exact instDecidableTrue

def Tracked.Identified (t : Tracked σ) : Prop := Identity t.table t.issued

/-- The handle names what lives in its slot. -/
def Tracked.Names (t : Tracked σ) (h : Handle) : Prop :=
  ∀ ⦃inst kind i⦄, resolve t.runtime inst h kind = .ok i → t.table.Lives i kind

variable {t : Tracked σ} {c : Call σ}

theorem tableMove_lifecycle (hc : c.IsLifecycle) (hnames : ∀ h ∈ c.handles, t.Names h) :
    TableMove frees presents t.table (step t c).table (c.answer t.runtime t.world).issued := by
  have hmove := lifecycle_move hc t.runtime t.world
  have hlineage : ∀ i, ((step t c).life i).lineage =
      ((t.life i).carry (t.runtime.resources i) ((step t c).runtime.resources i)).lineage :=
    fun i => congrArg Life.lineage (log_of_isLifecycle hc t i _)
  have htable : (step t c).table = ⟨(step t c).runtime.resources, fun i =>
      ((t.life i).carry (t.runtime.resources i) ((step t c).runtime.resources i)).lineage⟩ :=
    congrArg (Table.mk _) (funext hlineage)
  rw [htable]
  change LifecycleMove t.runtime c.handles (step t c).runtime.resources _ at hmove
  generalize (step t c).runtime.resources = entry, (c.answer t.runtime t.world).issued = issued
    at hmove ⊢
  -- a change that keeps every generation keeps the lineages
  have hkept : (∀ i, (entry i).generation = (t.runtime.resources i).generation) →
      (⟨entry, fun i => ((t.life i).carry (t.runtime.resources i) (entry i)).lineage⟩ : Table) =
        { t.table with entry := entry } := by
    intro hgeneration
    refine congrArg (Table.mk _) (funext fun i => ?_)
    rw [carry_of_same _ (hgeneration i)]
    rfl
  cases hmove with
  | same =>
    rw [hkept fun _ => rfl]
    exact .quiet fun _ => .rfl
  | @allocated i instanceId kind entry hfree hkind hdresses =>
    have hnew : (fun j => ((t.life j).carry (t.runtime.resources j)
        (update t.runtime.resources i entry j)).lineage) =
        update t.table.lineage i ⟨(t.table.lineage i).serial + 1, none⟩ := by
      funext j
      by_cases hj : j = i
      · subst hj
        rw [update_self, update_self,
          carry_of_changed _ (hdresses.generation ▸ nextGeneration_ne _)]
        rfl
      · rw [update_of_ne hj, update_of_ne hj, carry_of_same _ rfl]
        rfl
    rw [hnew]
    exact .allocated hfree hkind hdresses
  | @restated inst session i state outstanding hhalted hunclosed hmem hresolve =>
    have hlives := hnames _ hmem hresolve
    rw [hkept]
    · refine .quiet fun j => ?_
      by_cases hj : j = i
      · subst hj
        rw [update_self]
        exact .session hlives.2 rfl rfl rfl rfl rfl rfl rfl rfl
      · rw [update_of_ne hj]
        exact .rfl
    · intro j
      by_cases hj : j = i
      · subst hj
        rw [update_self]
      · rw [update_of_ne hj]
  | @released inst handle kind i hmem hresolve hkind =>
    have hlives := hnames _ hmem hresolve
    rw [hkept]
    · exact .released _ hlives hkind.2.2 (fun h => absurd h hkind.2.1) (Or.inl rfl)
        (Or.inl hkind)
    · intro j
      by_cases hj : j = i
      · subst hj
        rw [update_self]
        rfl
      · rw [update_of_ne hj]

theorem tableMove_quiet (hc : c.KeepsAllocations) (hquiet : t.runtime.Quiets (step t c).runtime) :
    TableMove frees presents t.table (step t c).table none := by
  rw [table_of_keeps hc]
  exact .quiet hquiet

variable {i : Fin maxResources} {inst session : Handle} {request : Option PollRequest} {b : Table}
  {issued : List Handle}

theorem tableMove_modify (hc : c.KeepsAllocations) (heq : (step t c).runtime = t.runtime.modify i f)
    (hmove : TableMove frees presents t.table (t.table.set i (f (t.table.entry i))) none) :
    TableMove frees presents t.table (step t c).table none := by
  rw [table_of_keeps hc, heq, table_modify]
  exact hmove

theorem tableMove_reconcile {reconciliation : Option EvidenceReconciliation}
    (hnames : t.Names session) : TableMove frees presents t.table
      (step t (.sessionReconcileEvidence inst session reconciliation)).table none := by
  refine tableMove_quiet trivial ?_
  change t.runtime.Quiets (sessionReconcileEvidence t.runtime inst session reconciliation).runtime
  rcases reconcile_cases t.runtime inst session reconciliation with
    ⟨_, heq⟩ | ⟨s, filled, hadmission, hcases⟩
  · rw [heq]
    exact .refl _
  · have hlives := hnames (reconcileAdmission_ok hadmission).1
    rcases hcases with ⟨_, heq⟩ | ⟨loaded, _, _, heq⟩
    · rw [heq]
      exact .modify (.mediation _ _)
    · rw [heq]
      exact .modify (.session hlives.2 rfl rfl rfl rfl rfl rfl rfl rfl)

theorem tableMove_publish {request : Option PublishRequest} {result : Option PublishResult}
    (hnames : ∀ h ∈ (Call.publishBatch inst session request result : Call σ).handles, t.Names h) :
    TableMove frees presents t.table
      (step t (.publishBatch inst session request result)).table none := by
  rcases Outcome.ofAdmission_eq t.runtime (publishAdmission t.runtime inst session request result)
    (·.publish t.runtime) with ⟨_, _, heq⟩ | ⟨plan, hadmission, heq⟩
  · refine tableMove_quiet trivial ?_
    change t.runtime.Quiets (publishBatch t.runtime inst session request result).runtime
    rw [publishBatch, heq]
    exact .refl _
  · obtain ⟨hsession, rfl, harena, hroom, hcheck⟩ := publishAdmission_ok hadmission
    obtain ⟨harena, hgeneration⟩ := resolveArena_eq_ok.1 harena
    have hs := hnames session (by simp [Call.handles]) hsession
    have ha := hnames plan.request.arena (by simp [Call.handles]) harena
    have hinstance : (t.runtime.resources plan.arena).instanceId =
        (t.runtime.resources plan.session).instanceId :=
      (resolve_eq_ok.1 harena).2.2.2.2.2.2.trans (resolve_eq_ok.1 hsession).2.2.2.2.2.2.symm
    refine tableMove_modify trivial (i := plan.session) (f := fun r =>
      { r with
        queue := (t.runtime.resources plan.session).queue.publish plan.request.arena.resourceId
          plan.request.arenaGeneration plan.request.items }) ?_ ?_
    · change (publishBatch t.runtime inst session (some plan.request) result).runtime = _
      rw [publishBatch, heq, BatchPlan.publish_runtime]
    · rw [(resolve_eq_ok.1 harena).2.2.1, ← hgeneration]
      exact .published hs ha hinstance hcheck

theorem tableMove_ack {lease : Handle} (hlease : t.Names lease) (hsession : t.Names session)
    (hpresents : (Call.batchAck inst session lease : Call σ).Presents presents t) :
    TableMove frees presents t.table (step t (.batchAck inst session lease)).table none := by
  rcases Outcome.ofAdmission_eq t.runtime (ackAdmission t.runtime inst session lease)
    (·.acknowledge t.runtime) with ⟨_, _, heq⟩ | ⟨plan, hadmission, heq⟩
  · refine tableMove_quiet trivial ?_
    change t.runtime.Quiets (batchAck t.runtime inst session lease).runtime
    rw [batchAck, heq]
    exact .refl _
  · obtain ⟨hsessionIs, hleaseIs, hout, hparent, halive, hkind, _⟩ := ackAdmission_ok hadmission
    have hs := hsession hsessionIs
    have hl := hlease hleaseIs
    have ha : t.table.Lives plan.arena .arena := ⟨halive, hkind⟩
    have htable : (step t (.batchAck inst session lease)).table =
        t.table.acknowledge plan.session plan.arena plan.lease := by
      rw [table_of_keeps (c := .batchAck inst session lease) trivial]
      refine congrArg (Table.mk · _) (funext fun i => ?_)
      change (batchAck t.runtime inst session lease).runtime.resources i = _
      rw [batchAck, heq, AckPlan.acknowledge_runtime]
      simp only [Runtime.modify_apply]
      by_cases hil : i = plan.lease
      · subst hil
        rw [if_pos rfl, if_pos rfl, if_neg (hl.ne hs (by decide)), if_neg (hl.ne ha (by decide))]
        rfl
      · rw [if_neg hil, if_neg hil]
        by_cases his : i = plan.session
        · subst his
          rw [if_pos rfl, if_pos rfl, if_neg (hs.ne ha (by decide)), if_neg (hs.ne ha (by decide))]
          rfl
        · rw [if_neg his, if_neg his]
          by_cases hia : i = plan.arena
          · subst hia
            rw [if_pos rfl, if_pos rfl]
            rfl
          · rw [if_neg hia, if_neg hia]
            rfl
    rw [htable]
    exact .acknowledged hs ha hl hout hparent (hpresents plan hadmission)

variable {o : Outcome PollResult} {entry : Fin maxResources → Resource}

theorem logPoll_undelivered {lives : Fin maxResources → Life} (life : Life)
    (hnull : ∀ r, o.written = some r → r.lease = nullHandle) :
    life.logPoll i lives session request o = life := by
  refine if_neg fun h => ?_
  obtain ⟨r, hwritten, hslot⟩ := map_eq_some_iff.1 h.2
  rw [hnull r hwritten] at hslot
  exact absurd hslot.symm (Nat.succ_ne_zero _)

theorem logPoll_delivered {plan : BatchPlan PollRequest PollResult} {l : Fin maxResources}
    (h : Delivers t.runtime inst session request plan l o) (i : Fin maxResources) :
    (((t.life i).carry (t.runtime.resources i) (o.runtime.resources i)).logPoll i t.life session
      request o).lineage = (t.table.poll plan.session plan.arena l inst.instanceId).lineage i := by
  have hlease : (o.written.map fun r => r.lease.resourceId) = some (slotId l) := by
    rw [h.written_eq]
    rfl
  have hsession := slot_eq_some.2 (resolve_eq_ok.1 h.session_resolved).2.2.1
  have harena := slot_eq_some.2
    (resolve_eq_ok.1 (resolveArena_eq_ok.1 h.arena_resolved).1).2.2.1
  unfold Life.logPoll
  rw [hlease, h.status_eq, h.apply i]
  simp only [true_and, some.injEq, slotId_inj]
  by_cases hil : i = l
  · subst hil
    rw [if_pos rfl, if_pos rfl, carry_of_changed _ (nextGeneration_ne _), hsession, h.request_eq]
    simp [Life.lineage, Table.poll, table, harena]
  · rw [if_neg (Ne.symm hil), if_neg hil, carry_of_same]
    · simp [Table.poll, table, update_of_ne hil]
    · rfl

theorem tableMove_poll {result : Option PollResult}
    (hnames : ∀ h ∈ (Call.pollBatch inst session request result : Call σ).handles, t.Names h) :
    TableMove frees presents t.table (step t (.pollBatch inst session request result)).table
      ((Call.pollBatch inst session request result : Call σ).answer t.runtime t.world).issued := by
  let o := pollBatch t.runtime inst session request result
  have htable : (step t (.pollBatch inst session request result)).table =
      ⟨o.runtime.resources, fun i => (((t.life i).carry (t.runtime.resources i)
        (o.runtime.resources i)).logPoll i t.life session request o).lineage⟩ := rfl
  have hhandle : ((Call.pollBatch inst session request result : Call σ).answer t.runtime
      t.world).issued = o.written.bind fun r => nonNull r.lease := rfl
  rw [htable, hhandle]
  rcases pollBatch_cases t.runtime inst session request result with
    ⟨heq, hnull⟩ | ⟨plan, l, hdelivers⟩
  · have hkept : (fun i => (((t.life i).carry (t.runtime.resources i)
        (o.runtime.resources i)).logPoll i t.life session request o).lineage) =
        t.table.lineage := by
      funext i
      rw [logPoll_undelivered _ hnull, heq, carry_of_same _ rfl]
      rfl
    have hnone : (o.written.bind fun r => nonNull r.lease) = none := by
      rw [bind_eq_none_iff]
      intro r hr
      rw [hnull r hr]
      rfl
    rw [hkept, hnone, heq]
    exact .quiet fun _ => .rfl
  · obtain ⟨harena, hgeneration⟩ := resolveArena_eq_ok.1 hdelivers.arena_resolved
    have hs := hnames session (by simp [Call.handles]) hdelivers.session_resolved
    have ha := hnames plan.request.arena (by simp [Call.handles, hdelivers.request_eq]) harena
    have hwindow : plan.window t.runtime = t.table.window plan.session plan.arena := by
      rw [BatchPlan.window, (resolve_eq_ok.1 harena).2.2.1, ← hgeneration]
      rfl
    have hentry : o.runtime.resources =
        (t.table.poll plan.session plan.arena l inst.instanceId).entry := by
      funext i
      rw [hdelivers.apply i]
      simp only [Table.poll, BatchPlan.leaseEntry, BatchPlan.firstSequence, BatchPlan.lastSequence,
        hwindow, Table.leased, (resolve_eq_ok.1 harena).2.2.1, ← hgeneration]
      rfl
    have hlineage : (fun i => (((t.life i).carry (t.runtime.resources i)
        (o.runtime.resources i)).logPoll i t.life session request o).lineage) =
        (t.table.poll plan.session plan.arena l inst.instanceId).lineage :=
      funext (logPoll_delivered hdelivers)
    have hlease : (o.written.bind fun r => nonNull r.lease) =
        some ⟨inst.instanceId, slotId l, nextGeneration (t.table.entry l).generation, .lease⟩ := by
      rw [hdelivers.written_eq]
      simp only [bind_some, BatchPlan.delivered, nonNull, handleOf, Runtime.allocate,
        Runtime.modify_self, Resource.fresh]
      exact if_neg (by simp [nullHandle])
    rw [hlineage, hlease, hentry]
    exact .polled inst.instanceId hs ha (resolve_eq_ok.1 harena).2.2.2.2.2.2 hdelivers.free
      (hwindow ▸ hdelivers.ready)

theorem Tracked.Identified.names (hid : t.Identified) (hissued : ∀ h ∈ c.handles, h ∈ t.issued) :
    ∀ h ∈ c.handles, t.Names h :=
  fun h hh _ _ _ hresolve => hid.kind_of_resolve (hissued h hh) hresolve

/-- **Every call makes a move of the table**, given handles of the right kinds. -/
theorem table_step (hnames : ∀ h ∈ c.handles, t.Names h) (hfrees : c.Frees frees t) (hpresents : c.Presents presents t) :
    TableMove frees presents t.table (step t c).table (c.answer t.runtime t.world).issued := by
  by_cases hc : c.IsLifecycle
  · exact tableMove_lifecycle hc hnames
  by_cases hkeeps : c.KeepsAllocations
  swap
  · cases c with
    | pollBatch inst session request result => exact tableMove_poll hnames
    | _ => first | exact absurd trivial hc | exact absurd trivial hkeeps
  rw [issued_of_keeps hkeeps]
  cases c with
  | publishBatch inst session request result =>
    exact tableMove_publish hnames
  | submitBatch inst session request result =>
    exact tableMove_quiet trivial (.submitBatch _ _ _ _ _)
  | batchAck inst session lease =>
    exact tableMove_ack (hnames lease (by simp [Call.handles]))
      (hnames session (by simp [Call.handles])) hpresents
  | strictMediate inst session request result =>
    exact tableMove_quiet trivial (.strictMediate _ _ _ _ _ _)
  | batchedFlush inst session request result =>
    exact tableMove_quiet trivial (.batchedFlush _ _ _ _ _ _)
  | sessionReconcileEvidence inst session reconciliation =>
    exact tableMove_reconcile (hnames session (by simp [Call.handles]))
  | sessionRelease inst session =>
    rcases sessionRelease_cases t.runtime inst session with heq | ⟨i, hadmission, hresolve, heq⟩
    · refine tableMove_quiet trivial ?_
      change t.runtime.Quiets (sessionRelease t.runtime inst session).runtime
      rw [heq]
      exact .refl _
    · have hlives := hnames session (by simp [Call.handles]) hresolve
      exact tableMove_modify trivial heq
        (.released _ hlives (by decide) (by simp) (Or.inl rfl) (Or.inr (hfrees i hadmission)))
  | arenaRelease inst arena =>
    rcases arenaRelease_cases t.runtime inst arena with
      heq | ⟨i, hadmission, hresolve, hidle, heq⟩
    · refine tableMove_quiet trivial ?_
      change t.runtime.Quiets (arenaRelease t.runtime inst arena).runtime
      rw [heq]
      exact .refl _
    · have hlives := hnames arena (by simp [Call.handles]) hresolve
      exact tableMove_modify trivial heq
        (.released _ hlives (by decide) (fun _ => hidle) (Or.inr rfl)
          (Or.inr (hfrees i hadmission)))
  | arenaRecycle inst arena expected next =>
    rcases arenaRecycle_cases t.runtime inst arena expected next with
      heq | ⟨i, hadmission, hresolve, hidle, heq⟩
    · refine tableMove_quiet trivial ?_
      change t.runtime.Quiets (arenaRecycle t.runtime inst arena expected next).runtime
      rw [heq]
      exact .refl _
    · have hlives := hnames arena (by simp [Call.handles]) hresolve
      exact tableMove_modify trivial heq (.recycled next hlives hidle (hfrees i hadmission))
  | _ => exact hkeeps.elim

/-- No slot has used up its generations. -/
def Tracked.NoWrap (t : Tracked σ) : Prop := ∀ i, (t.life i).serial + 1 < 2 ^ 32

instance (t : Tracked σ) : Decidable t.NoWrap := inferInstanceAs (Decidable (∀ _, _))

theorem nextGeneration_of_lt {generation : ℕ} (h : generation + 1 < 2 ^ 32) :
    nextGeneration generation = generation + 1 := by
  unfold nextGeneration
  rw [Nat.mod_eq_of_lt h, if_neg (Nat.succ_ne_zero _)]

theorem Identity.allocate (hid : Identity b issued) {lineage : Lineage} {handle : Handle}
    (hwrap : (b.lineage i).serial + 1 < 2 ^ 32)
    (hserial : lineage.serial = (b.lineage i).serial + 1)
    (hgeneration : (entry i).generation = nextGeneration (b.entry i).generation)
    (hothers : ∀ j, j ≠ i → (entry j).generation = (b.entry j).generation ∧
      (entry j).kind = (b.entry j).kind) (hslot : handle.resourceId = slotId i)
    (hhandle : handle.generation = (entry i).generation ∧ handle.kind = (entry i).kind) :
    Identity ⟨entry, update b.lineage i lineage⟩ (issued ++ [handle]) := by
  have hpresent : (entry i).generation = (b.lineage i).serial + 1 := by
    rw [hgeneration, hid.generation, nextGeneration_of_lt hwrap]
  refine ⟨fun j => ?_, fun h hh => ?_⟩
  · by_cases hj : j = i
    · subst hj
      simp only [update_self, hserial, hpresent]
    · simp only [update_of_ne hj, (hothers j hj).1, hid.generation]
  · rcases mem_append.1 hh with hold | hnew
    · obtain ⟨j, hj, hle, hkind⟩ := hid.issued h hold
      refine ⟨j, hj, ?_⟩
      by_cases hji : j = i
      · -- an older handle of the slot is not of the new generation
        subst hji
        simp only [update_self, hserial]
        exact ⟨by omega, fun hpresent => by omega⟩
      · simp only [update_of_ne hji, (hothers j hji).2]
        exact ⟨hle, hkind⟩
    · obtain rfl := mem_singleton.1 hnew
      refine ⟨i, hslot, ?_, fun _ => hhandle.2⟩
      simp only [update_self, hserial, hhandle.1, hpresent, le_refl]

theorem Identity.keep (hid : Identity b issued)
    (h : ∀ i, (entry i).generation = (b.entry i).generation ∧ (entry i).kind = (b.entry i).kind) :
    Identity { b with entry := entry } issued := by
  refine ⟨fun i => (h i).1.trans (hid.generation i), fun handle hh => ?_⟩
  obtain ⟨i, hi, hle, hkind⟩ := hid.issued handle hh
  exact ⟨i, hi, hle, fun hpresent => (hkind hpresent).trans (h i).2.symm⟩

theorem Identity.set (hid : Identity b issued) {r : Resource}
    (hgeneration : r.generation = (b.entry i).generation) (hkind : r.kind = (b.entry i).kind) :
    Identity (b.set i r) issued := by
  refine hid.keep fun j => ?_
  by_cases hj : j = i
  · subst hj
    rw [update_self]
    exact ⟨hgeneration, hkind⟩
  · rw [update_of_ne hj]
    exact ⟨rfl, rfl⟩

/-- **Every move keeps identity**, until a slot has used up its generations. -/
theorem Identity.move {b' : Table} {new : Option Handle} (hmove : TableMove frees presents b b' new)
    (hid : Identity b issued) (hwrap : ∀ i, (b.lineage i).serial + 1 < 2 ^ 32) :
    Identity b' (issued ++ new.toList) := by
  cases hmove with
  | quiet h =>
    rw [toList_none, append_nil]
    exact hid.keep fun i => ⟨(h i).generation, (h i).kind⟩
  | @allocated i instanceId kind entry hfree hkind hdresses =>
    refine hid.allocate (hwrap i) rfl ?_ (fun j hj => ?_) rfl ⟨?_, ?_⟩
    · rw [update_self]
      exact hdresses.generation
    · rw [update_of_ne hj]
      exact ⟨rfl, rfl⟩
    · rw [update_self]
    · rw [update_self]
      exact hdresses.kind.symm
  | released r hlives hkind hidle hreleased hfrees =>
    rw [toList_none, append_nil]
    rcases hreleased with rfl | rfl
    · exact hid.set rfl rfl
    · exact hid.set rfl rfl
  | recycled generation hlives hidle hfrees =>
    rw [toList_none, append_nil]
    exact hid.set rfl rfl
  | published hsession harena hinstance hcheck =>
    rw [toList_none, append_nil]
    exact hid.set rfl rfl
  | @polled s a l instanceId hsession harena hinstance hfree hready =>
    change Identity ⟨(b.poll s a l instanceId).entry, update b.lineage l _⟩ _
    refine hid.allocate (hwrap l) rfl ?_ (fun j hj => ?_) rfl ⟨?_, ?_⟩
    · exact congrArg Resource.generation (b.poll_lease s a l instanceId)
    · rw [b.poll_of_ne s a instanceId hj]
      exact ⟨rfl, rfl⟩
    · rw [b.poll_lease]
      rfl
    · rw [b.poll_lease]
      rfl
  | @acknowledged s a l hsession harena hlease houtstanding hparent hpresents =>
    rw [toList_none, append_nil]
    refine hid.keep fun i => ?_
    by_cases hil : i = l
    · subst hil
      rw [if_pos rfl]
      exact ⟨rfl, rfl⟩
    · rw [if_neg hil]
      exact ⟨rfl, rfl⟩

/-- A call with issued handles, made before any slot has used up its
generations. -/
def Call.Proper (t : Tracked σ) (c : Call σ) : Prop :=
  (∀ h ∈ c.handles, h ∈ t.issued) ∧ t.NoWrap

instance (t : Tracked σ) (c : Call σ) : Decidable (c.Proper t) :=
  inferInstanceAs (Decidable (_ ∧ _))

theorem table_proper (hid : t.Identified) (hproper : c.Proper t) :
    TableMove (fun _ _ => True) (fun _ _ _ => True) t.table (step t c).table
      (c.answer t.runtime t.world).issued := by
  refine table_step (hid.names hproper.1) ?_ ?_
  · cases c <;> first | exact trivial | exact fun _ _ => trivial
  · cases c <;> first | exact trivial | exact fun _ _ => trivial

theorem identity_step (hid : t.Identified) (hproper : c.Proper t) : (step t c).Identified :=
  hid.move (table_proper hid hproper) hproper.2

theorem identity_initial (world : σ) : (initial world).Identified :=
  ⟨fun _ => rfl, fun h hh => by cases hh⟩

end

end PooFlow
