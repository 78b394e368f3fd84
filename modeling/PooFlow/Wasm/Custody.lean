import PooFlow.Foundation.SlotTable
import PooFlow.Wasm.Handles

namespace PooFlow.Wasm

open Foundation List Function

def LiveHandle (rt : Runtime) (h : Handle) : Prop :=
  ∃ i, (rt.resources i).alive = true ∧ h = handleOf rt i

structure Shim.Custody (s : Shim) : Prop where
  handles : Foundation.Custody (slotGet s.handles) (LiveHandle s.runtime)
  topologies : Foundation.Custody (slotGet s.topologies) (· ∈ s.arenas)

structure Unmoved (rt rt' : Runtime) : Prop where
  live : ∀ h, LiveHandle rt' h ↔ LiveHandle rt h
  inflight : ∀ i, (rt.resources i).alive = true →
    (rt'.resources i).inflightCount = (rt.resources i).inflightCount

/-- A resource begins to live. -/
structure Created (rt rt' : Runtime) (h : Handle) : Prop where
  fresh : ¬LiveHandle rt h
  live : ∀ g, LiveHandle rt' g ↔ LiveHandle rt g ∨ g = h

/-- A resource ceases to live. -/
def Released (rt rt' : Runtime) (h : Handle) : Prop :=
  ∀ g, LiveHandle rt' g ↔ LiveHandle rt g ∧ g ≠ h

section

variable {rt : Runtime} {i : Fin maxResources} {f : Resource → Resource}

protected theorem Unmoved.rfl : Unmoved rt rt := ⟨fun _ => .rfl, fun _ _ => rfl⟩

theorem handleOf_injective {i j : Fin maxResources} (h : handleOf rt i = handleOf rt j) : i = j :=
  slotId_injective (congrArg Handle.resourceId h)

/-- The allocation in a slot stays the same one. -/
structure KeepsPlace (f : Resource → Resource) (r : Resource) : Prop where
  alive : (f r).alive = r.alive
  instanceId : (f r).instanceId = r.instanceId
  generation : (f r).generation = r.generation
  kind : (f r).kind = r.kind

theorem handleOf_modify_of_ne {j : Fin maxResources} (hj : j ≠ i) :
    handleOf (rt.modify i f) j = handleOf rt j := by
  simp only [handleOf, Runtime.modify_of_ne _ _ hj]

theorem handleOf_modify (h : KeepsPlace f (rt.resources i)) (j : Fin maxResources) :
    handleOf (rt.modify i f) j = handleOf rt j := by
  by_cases hj : j = i
  · subst hj
    simp only [handleOf, Runtime.modify_self, h.instanceId, h.generation, h.kind]
  · exact handleOf_modify_of_ne hj

theorem live_modify (h : KeepsPlace f (rt.resources i)) (g : Handle) :
    LiveHandle (rt.modify i f) g ↔ LiveHandle rt g := by
  have halive : ∀ j, ((rt.modify i f).resources j).alive = (rt.resources j).alive := by
    intro j
    rw [Runtime.modify_apply]
    split_ifs with hj
    · rw [h.alive, hj]
    · rfl
  simp only [LiveHandle, halive, handleOf_modify h]

theorem created_allocate (hfree : (rt.resources i).alive = false) (instanceId : ℕ) (kind : Kind) :
    Created rt (rt.allocate i instanceId kind) (handleOf (rt.allocate i instanceId kind) i) := by
  have hself : ((rt.allocate i instanceId kind).resources i).alive = true := by
    rw [Runtime.allocate, Runtime.modify_self]
    rfl
  have hothers : ∀ j, j ≠ i →
      ((rt.allocate i instanceId kind).resources j).alive = (rt.resources j).alive ∧
        handleOf (rt.allocate i instanceId kind) j = handleOf rt j := fun j hj =>
    ⟨by rw [Runtime.allocate, Runtime.modify_of_ne _ _ hj], handleOf_modify_of_ne hj⟩
  have hne : ∀ {j}, (rt.resources j).alive = true → j ≠ i := by
    rintro j hj rfl
    rw [hfree] at hj
    cases hj
  constructor
  · rintro ⟨j, hj, heq⟩
    exact hne hj (slotId_injective (congrArg Handle.resourceId heq)).symm
  · intro g
    constructor
    · rintro ⟨j, hj, rfl⟩
      by_cases hji : j = i
      · exact .inr (hji ▸ rfl)
      · exact .inl ⟨j, (hothers j hji).1 ▸ hj, (hothers j hji).2⟩
    · rintro (⟨j, hj, rfl⟩ | rfl)
      · exact ⟨j, (hothers j (hne hj)).1.trans hj, (hothers j (hne hj)).2.symm⟩
      · exact ⟨i, hself, rfl⟩

theorem released_modify (halive : (rt.resources i).alive = true)
    (hdead : (f (rt.resources i)).alive = false) : Released rt (rt.modify i f) (handleOf rt i) := by
  intro g
  constructor
  · rintro ⟨j, hj, rfl⟩
    have hji : j ≠ i := by
      rintro rfl
      rw [Runtime.modify_self, hdead] at hj
      cases hj
    rw [Runtime.modify_of_ne _ _ hji] at hj
    rw [handleOf_modify_of_ne hji]
    exact ⟨⟨j, hj, rfl⟩, fun heq => hji (handleOf_injective heq)⟩
  · rintro ⟨⟨j, hj, rfl⟩, hne⟩
    have hji : j ≠ i := by
      rintro rfl
      exact hne rfl
    exact ⟨j, by rwa [Runtime.modify_of_ne _ _ hji], (handleOf_modify_of_ne hji).symm⟩

variable {kind : Kind}

theorem handle_of_resolve {inst h : Handle} (hlive : LiveHandle rt h)
    (hresolve : resolve rt inst h kind = .ok i) :
    (rt.resources i).alive = true ∧ h = handleOf rt i := by
  obtain ⟨j, hj, rfl⟩ := hlive
  have hslot := (resolve_eq_ok.1 hresolve).2.2.1
  obtain rfl := slotId_injective hslot
  exact ⟨hj, rfl⟩

/-- A call makes the resource whose handle it writes, or fails and moves nothing. -/
structure Creates {ρ : Type} (rt : Runtime) (o : Outcome ρ) (value : ρ → Handle) : Prop where
  created : o.status = .ok → Created rt o.runtime ((o.written.map value).getD nullHandle)
  failed : o.status ≠ .ok → Unmoved rt o.runtime

section

variable {ρ : Type} {value : ρ → Handle}

variable {status : Status} {instanceId : ℕ} {kind : Kind}

theorem creates_rejected (h : status ≠ .ok) : Creates rt (.rejected rt status) value :=
  ⟨fun hok => absurd hok h, fun _ => .rfl⟩

theorem allocateResource_error (h : allocateResource rt instanceId kind = .error status) :
    status ≠ .ok := by
  rintro rfl
  simp [allocateResource] at h

theorem created_fill (hfree : (rt.resources i).alive = false) (instanceId : ℕ) (kind : Kind)
    (hfill : ∀ r, KeepsPlace f r) : Created rt ((rt.allocate i instanceId kind).modify i f)
      (handleOf (rt.allocate i instanceId kind) i) := by
  have hcreated := created_allocate hfree instanceId kind
  exact ⟨hcreated.fresh, fun g => (live_modify (hfill _) g).trans (hcreated.live g)⟩

theorem creates_ofAdmission {α : Type} {admission : Except Status α} {effect : α → Outcome ρ}
    (hne : admission ≠ .error .ok) (heffect : ∀ a, Creates rt (effect a) value) :
    Creates rt (.ofAdmission rt admission effect) value := by
  cases admission with
  | ok a => exact heffect a
  | error status => exact creates_rejected fun heq => hne (heq ▸ rfl)

theorem creates_allocate (result : Handle → ρ) (hfill : ∀ r, KeepsPlace f r)
    (hvalue : ∀ h, value (result h) = h) : Creates rt
      (match allocateResource rt instanceId kind with
      | .error status => .rejected rt status
      | .ok (i, rt') => .accepted (rt'.modify i f) (result (handleOf rt' i))) value := by
  cases halloc : allocateResource rt instanceId kind with
  | error status => exact creates_rejected (allocateResource_error halloc)
  | ok place =>
    obtain ⟨i, rt'⟩ := place
    obtain ⟨hfree, rfl⟩ := allocateResource_eq_ok.1 halloc
    refine ⟨fun _ => ?_, fun hstatus => absurd rfl hstatus⟩
    have hcreated := created_fill (freeSlot_dead hfree) instanceId kind hfill
    simpa [hvalue] using hcreated

end

variable {inst : Handle}

theorem creates_negotiate (request : Option NegotiateRequest) (result : Option NegotiateResult) :
    Creates rt (negotiate rt inst request result) NegotiateResult.profile := by
  have hne : negotiateAdmission rt inst request result ≠ .error .ok := by
    simp [negotiateAdmission, instanceEntry, bind_eq_error, resolve_ne_error_ok]
  rw [negotiate]
  exact creates_ofAdmission hne fun _ =>
    creates_allocate _ (fun _ => ⟨rfl, rfl, rfl, rfl⟩) fun _ => rfl

theorem creates_bundleOpen (profile : Handle) (descriptor : Option BundleDescriptor) :
    Creates rt (bundleOpen rt inst profile descriptor true) id := by
  have hne : bundleOpenAdmission rt inst profile descriptor true ≠ .error .ok := by
    simp [bundleOpenAdmission, bind_eq_error, resolve_ne_error_ok]
  rw [bundleOpen]
  refine creates_ofAdmission hne fun _ => creates_allocate id ?_ fun _ => rfl
  exact fun _ => ⟨rfl, rfl, rfl, rfl⟩

theorem creates_arenaRegister (descriptor : Option ArenaDescriptor) :
    Creates rt (arenaRegister rt inst descriptor true) id := by
  have hne : arenaRegisterAdmission rt inst descriptor true ≠ .error .ok := by
    simp [arenaRegisterAdmission, instanceEntry, bind_eq_error, resolve_ne_error_ok]
  rw [arenaRegister]
  refine creates_ofAdmission hne fun _ => creates_allocate id ?_ fun _ => rfl
  exact fun _ => ⟨rfl, rfl, rfl, rfl⟩

theorem unmoved_undone {instanceId : ℕ} (hfree : (rt.resources i).alive = false) :
    Unmoved rt ((rt.allocate i instanceId kind).modify i Resource.release) := by
  have hcreated := created_allocate hfree instanceId kind
  have halive : ((rt.allocate i instanceId kind).resources i).alive = true := by
    rw [Runtime.allocate, Runtime.modify_self]
    rfl
  have hreleased := @released_modify _ i Resource.release halive rfl
  constructor
  · intro g
    rw [hreleased g, hcreated.live g]
    constructor
    · rintro ⟨hg | rfl, hne⟩
      · exact hg
      · exact absurd rfl hne
    · intro hg
      exact ⟨.inl hg, fun heq => hcreated.fresh (heq ▸ hg)⟩
  · intro j hj
    have hji : j ≠ i := by
      rintro rfl
      rw [hfree] at hj
      cases hj
    rw [Runtime.modify_of_ne _ _ hji, Runtime.allocate, Runtime.modify_of_ne _ _ hji]

theorem creates_sessionOpen (bundle : Handle) (descriptor : Option SessionDescriptor)
    (memory : Bool) : Creates rt (sessionOpen rt inst bundle descriptor true memory) id := by
  have hne : sessionOpenAdmission rt inst bundle descriptor true ≠ .error .ok := by
    simp [sessionOpenAdmission, bind_eq_error, resolve_ne_error_ok]
  rw [sessionOpen]
  refine creates_ofAdmission hne fun opened => ?_
  dsimp only [allocateSession]
  cases memory with
  | true =>
    refine creates_allocate id ?_ fun _ => rfl
    exact fun _ => ⟨rfl, rfl, rfl, rfl⟩
  | false =>
    cases halloc : allocateResource rt inst.instanceId .session with
    | error status => exact creates_rejected (allocateResource_error halloc)
    | ok place =>
      obtain ⟨i, rt'⟩ := place
      obtain ⟨hfree, rfl⟩ := allocateResource_eq_ok.1 halloc
      exact ⟨fun hstatus => (by cases hstatus), fun _ => unmoved_undone (freeSlot_dead hfree)⟩

theorem creates_instanceCreate : Creates rt (instanceCreate rt true) id := by
  rw [instanceCreate, if_neg (by decide)]
  dsimp only
  cases halloc : allocateResource { rt with nextInstanceId := (rt.nextInstanceId + 1) % 2 ^ 64 }
      rt.nextInstanceId .instance_ with
  | error status =>
    exact ⟨fun hstatus => absurd hstatus (allocateResource_error halloc),
      fun _ => ⟨fun _ => .rfl, fun _ _ => rfl⟩⟩
  | ok place =>
    obtain ⟨i, rt'⟩ := place
    obtain ⟨hfree, rfl⟩ := allocateResource_eq_ok.1 halloc
    have hcreated := created_allocate (freeSlot_dead hfree) rt.nextInstanceId .instance_
    exact ⟨fun _ => ⟨hcreated.fresh, hcreated.live⟩, fun hstatus => absurd rfl hstatus⟩

/-- What the condition on a poll asks: where it is admitted, there are events that fit
the buffers. -/
def Ready (rt : Runtime) (inst session : Handle) (request : Option PollRequest)
    (result : Option PollResult) : Prop :=
  ∀ plan, pollAdmission rt inst session request result = .ok plan →
    plan.window rt ≠ [] ∧ plan.Fits rt

variable {session : Handle} {request : Option PollRequest} {result : Option PollResult}

theorem creates_pollBatch (hready : Ready rt inst session request result) :
    Creates rt (pollBatch rt inst session request result) PollResult.lease := by
  rw [pollBatch]
  cases hadmission : pollAdmission rt inst session request result with
  | error status =>
    exact creates_rejected fun heq => pollAdmission_ne_error_ok (heq ▸ hadmission)
  | ok plan =>
    obtain ⟨hwindow, hfits⟩ := hready plan hadmission
    dsimp only [Outcome.ofAdmission, BatchPlan.poll]
    rw [if_neg (by rw [not_or, not_not]; exact ⟨hwindow, hfits⟩)]
    cases halloc : allocateResource rt inst.instanceId .lease with
    | error status =>
      exact ⟨fun hstatus => absurd hstatus (allocateResource_error halloc), fun _ => .rfl⟩
    | ok place =>
      obtain ⟨l, rt'⟩ := place
      obtain ⟨hfree, rfl⟩ := allocateResource_eq_ok.1 halloc
      refine ⟨fun _ => ?_, fun hstatus => absurd rfl hstatus⟩
      have hcreated := @created_fill rt l (plan.leaseEntry rt session.resourceId)
        (freeSlot_dead hfree) inst.instanceId .lease fun _ => ⟨rfl, rfl, rfl, rfl⟩
      refine ⟨hcreated.fresh, fun g => ?_⟩
      refine Iff.trans ?_ (hcreated.live g)
      dsimp only [Outcome.accepted_runtime, BatchPlan.deliver]
      exact (live_modify ⟨rfl, rfl, rfl, rfl⟩ g).trans (live_modify ⟨rfl, rfl, rfl, rfl⟩ g)

theorem given_of_not_ready (hready : ¬Ready rt inst session request result) :
    request.isSome = true ∧ result.isSome = true := by
  obtain ⟨plan, hplan⟩ := not_forall.1 hready
  have hadmission := (Classical.not_imp.1 hplan).1
  simp only [pollAdmission, bind_eq_ok, presentElse_eq_ok] at hadmission
  obtain ⟨_, _, _, hrequest, _, hresult, _⟩ := hadmission
  rw [hrequest, hresult]
  exact ⟨rfl, rfl⟩

theorem pollBatch_of_not_ready (hready : ¬Ready rt inst session request result) :
    (pollBatch rt inst session request result).status = .ok ∧
      ((pollBatch rt inst session request result).written.map PollResult.lease).getD nullHandle =
        nullHandle := by
  obtain ⟨plan, hplan⟩ := not_forall.1 hready
  obtain ⟨hadmission, hnot⟩ := Classical.not_imp.1 hplan
  have hidle : plan.window rt = [] ∨ ¬plan.Fits rt := by
    by_cases hwindow : plan.window rt = []
    · exact .inl hwindow
    · exact .inr fun hfits => hnot ⟨hwindow, hfits⟩
  rw [pollBatch, hadmission]
  dsimp only [Outcome.ofAdmission, BatchPlan.poll]
  rw [if_pos hidle]
  exact ⟨rfl, rfl⟩

/-- A call releases the resource of its handle, or fails and moves nothing. -/
structure Releases {ρ : Type} (rt : Runtime) (o : Outcome ρ) (h : Handle) : Prop where
  released : o.status = .ok → Released rt o.runtime h
  failed : o.status ≠ .ok → Unmoved rt o.runtime

theorem releases_ofAdmission {ρ α : Type} {h : Handle} {admission : Except Status α}
    {effect : α → Outcome ρ} (hne : admission ≠ .error .ok)
    (heffect : ∀ a, admission = .ok a → (effect a).status = .ok ∧ Released rt (effect a).runtime h) :
    Releases rt (.ofAdmission rt admission effect) h := by
  cases hadmission : admission with
  | ok a =>
    obtain ⟨hstatus, hreleased⟩ := heffect a hadmission
    exact ⟨fun _ => hreleased, fun hfailed => absurd hstatus hfailed⟩
  | error status =>
    exact ⟨fun hok => absurd (hadmission.trans (congrArg Except.error hok)) hne, fun _ => .rfl⟩

theorem released_of_resolve {h : Handle} (hlive : LiveHandle rt h)
    (hresolve : resolve rt inst h kind = .ok i) (hdead : (f (rt.resources i)).alive = false) :
    Released rt (rt.modify i f) h := by
  obtain ⟨halive, rfl⟩ := handle_of_resolve hlive hresolve
  exact released_modify halive hdead

variable {h : Handle}

theorem releases_resolved {p : Fin maxResources → Prop} [DecidablePred p]
    {refused : Status} (hlive : LiveHandle rt h) (hrefused : refused ≠ .ok)
    (hdead : ∀ entry, (f entry).alive = false) : Releases rt (.ofAdmission rt
      (do
        let i ← resolve rt inst h kind
        guardElse (p i) refused
        return i)
      fun i => .accepted (rt.modify i f) ()) h := by
  refine releases_ofAdmission ?_ fun i hadmission => ?_
  · simp [bind_eq_error, resolve_ne_error_ok, hrefused]
  · obtain ⟨j, hresolve, hadmission⟩ := bind_eq_ok.1 hadmission
    obtain ⟨-, hadmission⟩ := then_eq_ok.1 hadmission
    cases hadmission
    exact ⟨rfl, released_of_resolve hlive hresolve (hdead _)⟩

theorem releases_instanceRelease (hlive : LiveHandle rt inst) :
    Releases rt (instanceRelease rt inst) inst :=
  releases_resolved hlive (by decide) fun _ => rfl

theorem releases_profileRelease (hlive : LiveHandle rt h) :
    Releases rt (profileRelease rt inst h) h :=
  releases_ofAdmission resolve_ne_error_ok fun _ hresolve =>
    ⟨rfl, released_of_resolve hlive hresolve rfl⟩

theorem releases_bundleRelease (hlive : LiveHandle rt h) :
    Releases rt (bundleRelease rt inst h) h :=
  releases_resolved hlive (by decide) fun _ => rfl

theorem releases_sessionRelease (hlive : LiveHandle rt h) :
    Releases rt (sessionRelease rt inst h) h :=
  releases_resolved hlive (by decide) fun _ => rfl

theorem releases_arenaRelease (hlive : LiveHandle rt h) :
    Releases rt (PooFlow.arenaRelease rt inst h) h :=
  releases_resolved hlive (by decide) fun _ => rfl

theorem releases_batchAck {session : Handle} (hlive : LiveHandle rt h) :
    Releases rt (batchAck rt inst session h) h := by
  rw [batchAck]
  refine releases_ofAdmission ?_ fun plan hadmission => ?_
  · simp [ackAdmission, bind_eq_error, resolve_ne_error_ok]
  · obtain ⟨-, hresolve, -⟩ := ackAdmission_ok hadmission
    obtain ⟨-, rfl⟩ := handle_of_resolve hlive hresolve
    have hlive' := hlive
    refine ⟨rfl, ?_⟩
    rw [AckPlan.acknowledge_runtime]
    -- arena and session keep their places, and so does the lease until it is released
    generalize hsettled : rt.modify plan.arena (rt.resources plan.lease).settleLease = settled
    generalize hmarked : settled.modify plan.session
      (rt.resources plan.lease).acknowledgeLease = marked
    have hlive : ∀ g, LiveHandle marked g ↔ LiveHandle rt g := by
      subst hmarked hsettled
      exact fun g => (live_modify ⟨rfl, rfl, rfl, rfl⟩ g).trans (live_modify ⟨rfl, rfl, rfl, rfl⟩ g)
    have hhandle : handleOf marked plan.lease = handleOf rt plan.lease := by
      subst hmarked hsettled
      rw [handleOf_modify ⟨rfl, rfl, rfl, rfl⟩, handleOf_modify ⟨rfl, rfl, rfl, rfl⟩]
    have hmarkedAlive : (marked.resources plan.lease).alive = true := by
      obtain ⟨j, hj, heq⟩ := (hlive _).2 hlive'
      rw [← hhandle] at heq
      exact handleOf_injective heq ▸ hj
    intro g
    rw [← hhandle, released_modify hmarkedAlive rfl g, hlive g]

/-- A call makes and releases nothing, and moves nothing when it fails. -/
structure Forwards {ρ : Type} (rt : Runtime) (o : Outcome ρ) : Prop where
  live : ∀ h, LiveHandle o.runtime h ↔ LiveHandle rt h
  failed : o.status ≠ .ok → Unmoved rt o.runtime

theorem forwards_ofAdmission {ρ α : Type} {admission : Except Status α} {effect : α → Outcome ρ}
    (heffect : ∀ a, (effect a).status = .ok ∧
      ∀ h, LiveHandle (effect a).runtime h ↔ LiveHandle rt h) :
    Forwards rt (.ofAdmission rt admission effect) := by
  cases admission with
  | ok a => exact ⟨(heffect a).2, fun hfailed => absurd (heffect a).1 hfailed⟩
  | error status => exact ⟨fun _ => .rfl, fun _ => .rfl⟩

variable (session : Handle)

theorem forwards_sessionCancel : Forwards rt (sessionCancel rt inst session) := by
  refine forwards_ofAdmission fun _ => ⟨rfl, ?_⟩
  rw [Outcome.accepted_runtime]
  exact live_modify ⟨rfl, rfl, rfl, rfl⟩

theorem forwards_sessionClose (disposition : ℕ) :
    Forwards rt (sessionClose rt inst session disposition) := by
  refine forwards_ofAdmission fun _ => ⟨rfl, ?_⟩
  rw [Outcome.accepted_runtime]
  exact live_modify ⟨rfl, rfl, rfl, rfl⟩

theorem forwards_arenaRecycle (arena : Handle) (expected next : ℕ) :
    Forwards rt (arenaRecycle rt inst arena expected next) := by
  refine forwards_ofAdmission fun _ => ⟨rfl, ?_⟩
  rw [Outcome.accepted_runtime]
  exact live_modify ⟨rfl, rfl, rfl, rfl⟩

theorem forwards_publishBatch (request : Option PublishRequest) (result : Option PublishResult) :
    Forwards rt (publishBatch rt inst session request result) := by
  refine forwards_ofAdmission fun plan => ⟨rfl, ?_⟩
  rw [BatchPlan.publish_runtime]
  exact live_modify ⟨rfl, rfl, rfl, rfl⟩

theorem forwards_submitBatch (request : Option SubmitRequest) (result : Option SubmitResult) :
    Forwards rt (submitBatch rt inst session request result) := by
  refine forwards_ofAdmission fun plan => ⟨rfl, ?_⟩
  rw [BatchPlan.submit_runtime]
  exact live_modify ⟨rfl, rfl, rfl, rfl⟩

end

section

variable {α : Type} {table : ℕ → Option α} {slot : ℕ}

theorem slotGet_update {value : Option α} (h : 0 < slot ∧ slot < pfwHandleCapacity) :
    slotGet (update table slot value) = update (slotGet table) slot value := by
  funext other
  by_cases hother : other = slot
  · subst hother
    rw [slotGet, if_neg (by omega), update_self, update_self]
  · rw [slotGet, update_of_ne hother, update_of_ne hother, slotGet]

theorem slotGet_range {a : α} (h : slotGet table slot = some a) :
    0 < slot ∧ slot < pfwHandleCapacity := by
  rw [slotGet] at h
  split_ifs at h with hrange
  omega

theorem slotFree_spec (h : slotFree table = some slot) :
    (0 < slot ∧ slot < pfwHandleCapacity) ∧ slotGet table slot = none := by
  have hmem := mem_of_find?_eq_some h
  rw [mem_range'_1] at hmem
  have hfree := @List.find?_some _ (fun slot => (table slot).isNone) slot _ h
  have hrange : 0 < slot ∧ slot < pfwHandleCapacity := by
    rw [pfwHandleCapacity] at hmem ⊢
    omega
  refine ⟨hrange, ?_⟩
  rw [slotGet, if_neg (by omega)]
  exact Option.isNone_iff_eq_none.1 hfree

theorem slotFree_ne_none (h : ∃ slot, 1 ≤ slot ∧ slot < 1 + (pfwHandleCapacity - 1) ∧
    slotGet table slot = none) : ∃ slot, slotFree table = some slot := by
  obtain ⟨slot, hlow, hhigh, hfree⟩ := h
  cases hfound : slotFree table with
  | some found => exact ⟨found, rfl⟩
  | none =>
    have hall := List.find?_eq_none.1 hfound slot (mem_range'_1.2 ⟨hlow, hhigh⟩)
    rw [slotGet, if_neg (by rw [pfwHandleCapacity] at *; omega)] at hfree
    rw [hfree] at hall
    exact absurd rfl hall

end

structure Sound (s : Shim) : Prop where
  custody : s.Custody
  numbered : ∀ arena ∈ s.arenas, arena < s.nextArena
  distinct : s.arenas.Nodup

/-- A call that fails makes, releases and counts nothing. -/
def FailsUnmoved (s : Shim) (answer : WasmStatus × Shim) : Prop :=
  answer.1 ≠ .zero → Unmoved s.runtime answer.2.runtime ∧ answer.2.arenas = s.arenas

/-- What a call keeps. -/
structure Kept (s : Shim) (answer : WasmStatus × Shim) : Prop where
  sound : Sound answer.2
  failed : FailsUnmoved s answer

section

variable {s : Shim} {rt : Runtime}

theorem Shim.Custody.exists_free (h : s.Custody) : ∃ slot, slotFree s.handles = some slot := by
  have hnamed : ∀ handle, LiveHandle s.runtime handle → ∃ i, handle = handleOf s.runtime i := by
    rintro handle ⟨i, _, heq⟩
    exact ⟨i, heq⟩
  refine slotFree_ne_none (h.handles.exists_free hnamed (fun _ _ ha hb => ha.trans hb.symm) ?_)
  rw [Fintype.card_fin, maxResources, pfwHandleCapacity]
  decide

theorem Sound.withRuntime (h : Sound s) (hlive : ∀ g, LiveHandle rt g ↔ LiveHandle s.runtime g) :
    Sound { s with runtime := rt } :=
  ⟨⟨h.custody.handles.congr hlive, h.custody.topologies⟩, h.numbered, h.distinct⟩

theorem Sound.kept_refused (h : Sound s) (status : WasmStatus) : Kept s (status, s) :=
  ⟨h, fun _ => ⟨.rfl, rfl⟩⟩

theorem Sound.kept_withHandle (h : Sound s) {slot : ℕ} {next : Handle → WasmStatus × Shim}
    (hnext : ∀ handle, pfwHandleGet s slot = some handle → Kept s (next handle)) :
    Kept s (withHandle s slot next) := by
  rw [withHandle]
  cases hget : pfwHandleGet s slot with
  | some handle => exact hnext handle hget
  | none => exact h.kept_refused _

theorem Sound.kept_withPointers (h : Sound s) {present : Bool} {next : WasmStatus × Shim}
    (hnext : present = true → Kept s next) : Kept s (withPointers s present next) := by
  rw [withPointers]
  split_ifs with hpresent
  · exact hnext hpresent
  · exact h.kept_refused _

variable {ρ : Type} {o : Outcome ρ}

theorem Sound.kept_create (h : Sound s) {value : ρ → Handle} (hcreates : Creates s.runtime o value)
    {slotOut : Bool} (hslot : o.status = .ok → slotOut = true) :
    Kept s (pfwCreate s o value slotOut) := by
  rw [pfwCreate]
  split_ifs with hstatus
  · have hcreated := hcreates.created hstatus
    obtain ⟨slot, hfree⟩ := h.custody.exists_free
    obtain ⟨hrange, hnone⟩ := slotFree_spec hfree
    have hstored := h.custody.handles.store hnone hcreated.fresh hcreated.live
    rw [← slotGet_update hrange] at hstored
    rw [pfwHandleStore, hslot hstatus, if_neg (by decide), hfree]
    exact ⟨⟨⟨hstored, h.custody.topologies⟩, h.numbered, h.distinct⟩, fun hne => absurd rfl hne⟩
  · have hunmoved := hcreates.failed hstatus
    exact ⟨h.withRuntime hunmoved.live, fun _ => ⟨hunmoved, rfl⟩⟩

theorem Sound.kept_release (h : Sound s) {slot : ℕ} {handle : Handle}
    (hget : pfwHandleGet s slot = some handle)
    (hreleases : LiveHandle s.runtime handle → Releases s.runtime o handle) :
    Kept s (pfwRelease s o slot) := by
  have hreleases := hreleases (h.custody.handles.live slot handle hget)
  rw [pfwRelease]
  split_ifs with hstatus
  · have hrange := slotGet_range hget
    have hcleared := h.custody.handles.clear hget (hreleases.released hstatus)
    rw [← slotGet_update hrange] at hcleared
    rw [pfwHandleClear, if_pos hrange]
    exact ⟨⟨⟨hcleared, h.custody.topologies⟩, h.numbered, h.distinct⟩,
      fun hne => absurd (congrArg WasmStatus.runtime hstatus) hne⟩
  · have hunmoved := hreleases.failed hstatus
    exact ⟨h.withRuntime hunmoved.live, fun _ => ⟨hunmoved, rfl⟩⟩

theorem Sound.kept_forward (h : Sound s) (hforwards : Forwards s.runtime o) :
    Kept s (pfwForward s o) :=
  ⟨h.withRuntime hforwards.live, fun hne =>
    ⟨hforwards.failed fun hok => hne (congrArg WasmStatus.runtime hok), rfl⟩⟩

theorem Sound.kept_topologyOpen (h : Sound s) (hasDescriptor hasArena slotOut : Bool)
    (created : Option {code : ℕ // code ≠ 0}) :
    Kept s (pfwTopologyOpenPacked s hasDescriptor hasArena slotOut created) := by
  refine h.kept_withPointers fun hpresent => ?_
  have hslot : slotOut = true := by
    rw [Bool.and_eq_true] at hpresent
    exact hpresent.2
  cases created with
  | some code => exact h.kept_refused _
  | none =>
    subst hslot
    have hfresh : s.nextArena ∉ s.arenas := fun hmem =>
      Nat.lt_irrefl _ (h.numbered s.nextArena hmem)
    simp only [pfwTopologyStore, Bool.true_eq_false, if_false]
    cases hfree : slotFree s.topologies with
    | some slot =>
      obtain ⟨hrange, hnone⟩ := slotFree_spec hfree
      have hstored := h.custody.topologies.store hnone hfresh
        (fun b => (mem_cons (a := b)).trans or_comm)
      rw [← slotGet_update hrange] at hstored
      dsimp only
      rw [if_pos rfl]
      refine ⟨⟨⟨h.custody.handles, hstored⟩, fun arena harena => ?_,
        nodup_cons.2 ⟨hfresh, h.distinct⟩⟩, fun hne => absurd rfl hne⟩
      rcases mem_cons.1 harena with rfl | harena
      · exact Nat.lt_succ_self _
      · exact Nat.lt_succ_of_lt (h.numbered arena harena)
    | none =>
      dsimp only
      rw [if_neg (by decide)]
      have harenas : (s.nextArena :: s.arenas).erase s.nextArena = s.arenas :=
        erase_cons_head _ _
      dsimp only [arenaRelease]
      rw [harenas]
      exact ⟨⟨⟨h.custody.handles, h.custody.topologies⟩,
        fun arena harena => Nat.lt_succ_of_lt (h.numbered arena harena), h.distinct⟩,
        fun _ => ⟨.rfl, rfl⟩⟩

theorem Sound.kept_topologyRelease (h : Sound s) (slot : ℕ) :
    Kept s (pfwTopologyRelease s slot) := by
  rw [pfwTopologyRelease]
  cases hget : pfwTopologyGet s slot with
  | none => exact h.kept_refused _
  | some arena =>
    have hlive : ∀ b, b ∈ s.arenas.erase arena ↔ b ∈ s.arenas ∧ b ≠ arena := fun b => by
      rw [h.distinct.mem_erase_iff, and_comm]
    have hcleared := h.custody.topologies.clear hget hlive
    rw [← slotGet_update (slotGet_range hget)] at hcleared
    exact ⟨⟨⟨h.custody.handles, hcleared⟩,
      fun other hother => h.numbered other (mem_of_mem_erase hother),
      h.distinct.erase arena⟩, fun hne => absurd rfl hne⟩

end

/-- The calls that keep custody: an instance has an output pointer to go to, and a poll
that the runtime admits finds events that fit the buffers. -/
def PfwCall.Meets (s : Shim) : PfwCall → Prop
  | .instanceCreate slotOut => slotOut = true ∨ freeSlot s.runtime = none
  | .pollBatch instanceSlot sessionSlot arenaSlot request result slotOut =>
    slotOut = true → ∀ inst session arena, pfwHandleGet s instanceSlot = some inst →
      pfwHandleGet s sessionSlot = some session → pfwHandleGet s arenaSlot = some arena →
        Ready s.runtime inst session (request.map fun request => { request with arena }) result
  | _ => True

section

variable {s : Shim}

variable {slotOut : Bool} {rt : Runtime} {c : PfwCall}

theorem slotOut_of_and {present : Bool} (h : (present && slotOut) = true) : slotOut = true :=
  (Bool.and_eq_true_iff.1 h).2

theorem instanceCreate_status_of_full (hfull : freeSlot rt = none) :
    (instanceCreate rt true).status ≠ .ok := by
  rw [instanceCreate, if_neg (by decide)]
  dsimp only
  cases halloc : allocateResource { rt with nextInstanceId := (rt.nextInstanceId + 1) % 2 ^ 64 }
      rt.nextInstanceId .instance_ with
  | error status => exact allocateResource_error halloc
  | ok place =>
    obtain ⟨i, rt'⟩ := place
    have hfree := (allocateResource_eq_ok.1 halloc).1
    rw [freeSlot] at hfree hfull
    rw [hfull] at hfree
    cases hfree

theorem Sound.kept_instanceCreate (h : Sound s)
    (hmeets : slotOut = true ∨ freeSlot s.runtime = none) :
    Kept s (pfwInstanceCreate s slotOut) := by
  refine h.kept_create creates_instanceCreate fun hstatus => ?_
  rcases hmeets with hslot | hfull
  · exact hslot
  · exact absurd hstatus (instanceCreate_status_of_full hfull)

/-- **Step lemma**: a call that meets the condition keeps custody. -/
theorem Sound.kept (h : Sound s) (hmeets : c.Meets s) : Kept s (c.answer s) := by
  have hheld : ∀ {slot handle}, pfwHandleGet s slot = some handle →
      LiveHandle s.runtime handle := fun hget => h.custody.handles.live _ _ hget
  cases c with
  | instanceCreate slotOut => exact h.kept_instanceCreate hmeets
  | instanceRelease instanceSlot =>
    exact h.kept_withHandle fun inst hinst => h.kept_release hinst releases_instanceRelease
  | negotiate instanceSlot request result slotOut =>
    exact h.kept_withHandle fun inst _ => h.kept_withPointers fun hpresent =>
      h.kept_create (creates_negotiate request result) fun _ => slotOut_of_and hpresent
  | profileRelease instanceSlot profileSlot =>
    exact h.kept_withHandle fun inst _ => h.kept_withHandle fun profile hprofile =>
      h.kept_release hprofile releases_profileRelease
  | bundleOpen instanceSlot profileSlot descriptor slotOut =>
    exact h.kept_withHandle fun inst _ => h.kept_withHandle fun profile _ =>
      h.kept_withPointers fun hpresent =>
        h.kept_create (creates_bundleOpen profile descriptor) fun _ => slotOut_of_and hpresent
  | bundleRelease instanceSlot bundleSlot =>
    exact h.kept_withHandle fun inst _ => h.kept_withHandle fun bundle hbundle =>
      h.kept_release hbundle releases_bundleRelease
  | sessionOpen instanceSlot bundleSlot descriptor slotOut memory =>
    exact h.kept_withHandle fun inst _ => h.kept_withHandle fun bundle _ =>
      h.kept_withPointers fun hpresent =>
        h.kept_create (creates_sessionOpen bundle descriptor memory) fun _ =>
          slotOut_of_and hpresent
  | sessionCancel instanceSlot sessionSlot =>
    exact h.kept_withHandle fun inst _ => h.kept_withHandle fun session _ =>
      h.kept_forward (forwards_sessionCancel session)
  | sessionClose instanceSlot sessionSlot disposition =>
    exact h.kept_withHandle fun inst _ => h.kept_withHandle fun session _ =>
      h.kept_forward (forwards_sessionClose session disposition)
  | sessionRelease instanceSlot sessionSlot =>
    exact h.kept_withHandle fun inst _ => h.kept_withHandle fun session hsession =>
      h.kept_release hsession releases_sessionRelease
  | arenaRegister instanceSlot descriptor slotOut =>
    exact h.kept_withHandle fun inst _ => h.kept_withPointers fun hpresent =>
      h.kept_create (creates_arenaRegister descriptor) fun _ => slotOut_of_and hpresent
  | arenaRecycle instanceSlot arenaSlot expectedGeneration nextGeneration =>
    exact h.kept_withHandle fun inst _ => h.kept_withHandle fun arena _ =>
      h.kept_forward (forwards_arenaRecycle arena expectedGeneration nextGeneration)
  | arenaRelease instanceSlot arenaSlot =>
    exact h.kept_withHandle fun inst _ => h.kept_withHandle fun arena harena =>
      h.kept_release harena releases_arenaRelease
  | publishBatch instanceSlot sessionSlot arenaSlot request result =>
    exact h.kept_withHandle fun inst _ => h.kept_withHandle fun session _ =>
      h.kept_withHandle fun arena _ => h.kept_withPointers fun _ =>
        h.kept_forward (forwards_publishBatch session _ result)
  | pollBatch instanceSlot sessionSlot arenaSlot request result slotOut =>
    refine h.kept_withHandle fun inst hinst => h.kept_withHandle fun session hsession =>
      h.kept_withHandle fun arena harena => h.kept_withPointers fun hpresent => ?_
    have hslot := slotOut_of_and hpresent
    exact h.kept_create (creates_pollBatch (hmeets hslot _ _ _ hinst hsession harena))
      fun _ => hslot
  | submitBatch instanceSlot sessionSlot arenaSlot request result =>
    exact h.kept_withHandle fun inst _ => h.kept_withHandle fun session _ =>
      h.kept_withHandle fun arena _ => h.kept_withPointers fun _ =>
        h.kept_forward (forwards_submitBatch session _ result)
  | batchAck instanceSlot sessionSlot leaseSlot =>
    exact h.kept_withHandle fun inst _ => h.kept_withHandle fun session _ =>
      h.kept_withHandle fun lease hlease => h.kept_release hlease releases_batchAck
  | topologyOpenPacked hasDescriptor hasArena slotOut created =>
    exact h.kept_topologyOpen hasDescriptor hasArena slotOut created
  | topologyRelease topologySlot => exact h.kept_topologyRelease topologySlot

theorem not_live_nullHandle : ¬LiveHandle rt nullHandle := by
  rintro ⟨i, _, heq⟩
  have hid : 0 = slotId i := congrArg Handle.resourceId heq
  rw [slotId] at hid
  omega

theorem Sound.lost_instance (h : Sound s) (hnot : ¬(slotOut = true ∨ freeSlot s.runtime = none)) :
    ¬(pfwInstanceCreate s slotOut).2.Custody := by
  obtain ⟨hslot, hfree⟩ := not_or.1 hnot
  have hslot : slotOut = false := Bool.eq_false_iff.2 hslot
  subst hslot
  intro hcustody
  obtain ⟨i, hi⟩ := Option.ne_none_iff_exists'.1 hfree
  have hok : (instanceCreate s.runtime true).status = .ok := by
    rw [instanceCreate, if_neg (by decide)]
    dsimp only
    have hnext : freeSlot { s.runtime with
        nextInstanceId := (s.runtime.nextInstanceId + 1) % 2 ^ 64 } = some i := hi
    rw [allocateResource_of_freeSlot _ _ hnext]
    rfl
  have hcreated := creates_instanceCreate.created hok
  rw [pfwInstanceCreate, pfwCreate, if_pos hok, pfwHandleStore, if_pos rfl] at hcustody
  obtain ⟨slot, hheld, _⟩ := hcustody.handles.held _ ((hcreated.live _).2 (.inr rfl))
  exact hcreated.fresh (h.custody.handles.live slot _ hheld)

theorem Sound.lost_poll (h : Sound s) {instanceSlot sessionSlot arenaSlot : ℕ}
    {request : Option PollRequest} {result : Option PollResult}
    (hnot : ¬(PfwCall.pollBatch instanceSlot sessionSlot arenaSlot request result slotOut).Meets s)
    : ¬(pfwPollBatch s instanceSlot sessionSlot arenaSlot request result slotOut).2.Custody := by
  obtain ⟨hslot, hnot⟩ := Classical.not_imp.1 hnot
  push Not at hnot
  obtain ⟨inst, session, arena, hinst, hsession, harena, hready⟩ := hnot
  have hgiven := given_of_not_ready hready
  rw [Option.isSome_map] at hgiven
  have hpresent : (request.isSome && result.isSome && slotOut) = true := by
    rw [hgiven.1, hgiven.2, hslot]
    rfl
  obtain ⟨hok, hnull⟩ := pollBatch_of_not_ready hready
  obtain ⟨slot, hfree⟩ := h.custody.exists_free
  obtain ⟨hrange, _⟩ := slotFree_spec hfree
  intro hcustody
  rw [pfwPollBatch, withHandle, hinst] at hcustody
  dsimp only at hcustody
  rw [withHandle, hsession] at hcustody
  dsimp only at hcustody
  rw [withHandle, harena] at hcustody
  dsimp only at hcustody
  rw [withPointers, if_pos hpresent, pfwCreate, bridgedPoll, if_pos hok, hnull, pfwHandleStore,
    if_neg (by rw [hslot]; decide), hfree] at hcustody
  refine not_live_nullHandle (hcustody.handles.live slot nullHandle ?_)
  dsimp only
  rw [slotGet_update hrange, update_self]

theorem Sound.lost (h : Sound s) (hnot : ¬c.Meets s) : ¬(pfwStep s c).Custody := by
  cases c with
  | instanceCreate slotOut => exact h.lost_instance hnot
  | pollBatch instanceSlot sessionSlot arenaSlot request result slotOut => exact h.lost_poll hnot
  | _ => exact absurd trivial hnot

end

theorem sound_initial : Sound {} where
  custody := by
    constructor
    · constructor
      · rintro handle ⟨i, hi, _⟩
        cases hi
      · intro slot handle hget
        rw [slotGet] at hget
        split_ifs at hget
    · constructor
      · intro arena harena
        cases harena
      · intro slot arena hget
        rw [slotGet] at hget
        split_ifs at hget
  numbered arena harena := by cases harena
  distinct := nodup_nil

/-- **Custody**: over any calls, every live resource is in exactly one slot, every slot
holds a live resource, and a call that fails leaves nothing behind, if and only if every
call meets the condition. -/
theorem custody_iff (calls : List PfwCall) :
    ((∀ front back, calls = front ++ back → (run pfwStep {} front).Custody) ∧
      ∀ front c back, calls = front ++ c :: back →
        FailsUnmoved (run pfwStep {} front) (c.answer (run pfwStep {} front))) ↔
      Along pfwStep (fun s c => c.Meets s) {} calls := by
  have hkept : ∀ s c, Sound s → PfwCall.Meets s c → Sound (pfwStep s c) :=
    fun s c h hmeets => (h.kept hmeets).sound
  have hlost : ∀ s c, Sound s → ¬PfwCall.Meets s c → ¬(pfwStep s c).Custody :=
    fun s c h hnot => h.lost hnot
  have hthroughout := throughout_iff (fun s (h : Sound s) => h.custody) hkept hlost
    sound_initial calls
  refine ⟨fun h => hthroughout.1 h.1, fun hmeets => ⟨hthroughout.2 hmeets, ?_⟩⟩
  intro front c back hsplit
  subst hsplit
  obtain ⟨hfront, hc, _⟩ := along_append.1 hmeets
  exact ((hfront.invariant hkept sound_initial).kept hc).failed

/-- An instance that is asked for without a slot is in none. -/
theorem instance_without_slot : ¬(run pfwStep {} [.instanceCreate false]).Custody := by
  have hnot : ¬PfwCall.Meets {} (.instanceCreate false) := by
    rintro (hslot | hfull)
    · cases hslot
    · have hfree : freeSlot Runtime.initial = some 0 := by decide +kernel
      rw [show ({} : Shim).runtime = Runtime.initial from rfl, hfree] at hfull
      cases hfull
  exact sound_initial.lost hnot

end PooFlow.Wasm
