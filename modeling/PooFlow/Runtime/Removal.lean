import PooFlow.Runtime.Discipline
import PooFlow.Runtime.Inflight

/-! How a delivered event leaves its queue: a submission accepts it and the acknowledgement of its
lease marks it. -/

namespace PooFlow

open Foundation PendingEvent

variable {σ : Type}

/-- The arena in slot `a` is the one that the lease in slot `l` was polled from. -/
structure HomeOf (b : Table) (l a : Fin maxResources) : Prop where
  arena : b.Lives a .arena
  parentId : (b.entry l).parentId = slotId a
  generation : (b.entry a).arenaGeneration = (b.entry l).epoch
  instanceId : (b.entry a).instanceId = (b.entry l).instanceId

/-- **Home invariant**: the arena of a live lease stays as it was polled. -/
def Homed (b : Table) : Prop := ∀ l, b.Lives l .lease → ∃ a, HomeOf b l a

section

variable {b b' : Table}

theorem Homed.frame (h : Homed b)
    (hleases : ∀ l, b'.Lives l .lease → b.Lives l .lease ∧
      (b'.entry l).parentId = (b.entry l).parentId ∧ (b'.entry l).epoch = (b.entry l).epoch ∧
      (b'.entry l).instanceId = (b.entry l).instanceId)
    (harenas : ∀ l a, b.Lives l .lease → HomeOf b l a → b'.Lives a .arena ∧
      (b'.entry a).arenaGeneration = (b.entry a).arenaGeneration ∧
      (b'.entry a).instanceId = (b.entry a).instanceId) : Homed b' := by
  intro l hl
  obtain ⟨hold, hparent, hepoch, hinstance⟩ := hleases l hl
  obtain ⟨a, hhome⟩ := h l hold
  obtain ⟨harena, hgeneration, hsame⟩ := harenas l a hold hhome
  exact ⟨a, harena, hparent.trans hhome.parentId,
    hgeneration.trans (hhome.generation.trans hepoch.symm),
    hsame.trans (hhome.instanceId.trans hinstance.symm)⟩

variable {i : Fin maxResources}

/-- One entry is replaced, which is neither a lease nor the arena of one. -/
theorem Homed.replace (h : Homed b) (hentry : ∀ j, j ≠ i → b'.entry j = b.entry j)
    (hnew : ¬b'.Lives i .lease)
    (hunused : ∀ l, b.Lives l .lease → (b.entry l).parentId ≠ slotId i) : Homed b' := by
  refine h.frame (fun l hl => ?_) fun l a hl hhome => ?_
  · have hne : l ≠ i := by
      rintro rfl
      exact hnew hl
    rw [Table.Lives, hentry l hne] at hl
    rw [hentry l hne]
    exact ⟨hl, rfl, rfl, rfl⟩
  · have hne : a ≠ i := by
      rintro rfl
      exact hunused l hl hhome.parentId
    rw [Table.Lives, hentry a hne]
    exact ⟨hhome.arena, rfl, rfl⟩

/-- One entry changes in what no lease depends on. -/
theorem Homed.set (h : Homed b) {r : Resource} (halive : r.alive = (b.entry i).alive)
    (hkind : r.kind = (b.entry i).kind) (hinstance : r.instanceId = (b.entry i).instanceId)
    (hparent : r.parentId = (b.entry i).parentId) (hepoch : r.epoch = (b.entry i).epoch)
    (hgeneration : r.arenaGeneration = (b.entry i).arenaGeneration) : Homed (b.set i r) := by
  have hentry : ∀ j, ((b.set i r).entry j).alive = (b.entry j).alive ∧
      ((b.set i r).entry j).kind = (b.entry j).kind ∧
      ((b.set i r).entry j).instanceId = (b.entry j).instanceId ∧
      ((b.set i r).entry j).parentId = (b.entry j).parentId ∧
      ((b.set i r).entry j).epoch = (b.entry j).epoch ∧
      ((b.set i r).entry j).arenaGeneration = (b.entry j).arenaGeneration := by
    intro j
    by_cases hj : j = i
    · subst hj
      rw [b.set_self]
      exact ⟨halive, hkind, hinstance, hparent, hepoch, hgeneration⟩
    · rw [b.set_of_ne hj]
      exact ⟨rfl, rfl, rfl, rfl, rfl, rfl⟩
  refine h.frame (fun l hl => ?_) fun l a _ hhome => ?_
  · obtain ⟨halive, hkind, hinstance, hparent, hepoch, _⟩ := hentry l
    exact ⟨⟨halive.symm.trans hl.1, hkind.symm.trans hl.2⟩, hparent, hepoch, hinstance⟩
  · obtain ⟨halive, hkind, hinstance, _, _, hgeneration⟩ := hentry a
    exact ⟨⟨halive.trans hhome.arena.1, hkind.trans hhome.arena.2⟩, hgeneration, hinstance⟩

theorem Homed.polled (h : Homed b) {s a l : Fin maxResources} {instanceId : ℕ}
    (harena : b.Lives a .arena) (hinstance : (b.entry a).instanceId = instanceId)
    (hfree : (b.entry l).alive = false) : Homed (b.poll s a l instanceId) := by
  have hne : ∀ a', b.Lives a' .arena → a' ≠ l := fun _ ha => ha.ne_of_dead hfree
  intro j hj
  by_cases hjl : j = l
  · subst hjl
    refine ⟨a, ?_, ?_, ?_, ?_⟩
    · exact (b.poll_lives_of_ne s a instanceId (hne a harena)).2 harena
    · rw [b.poll_lease]
      rfl
    · rw [b.poll_lease, b.poll_of_ne s a instanceId (hne a harena)]
      rfl
    · rw [b.poll_lease, b.poll_of_ne s a instanceId (hne a harena)]
      exact hinstance
  · obtain ⟨a', hhome⟩ := h j ((b.poll_lives_of_ne s a instanceId hjl).1 hj)
    have ha' := hne a' hhome.arena
    refine ⟨a', (b.poll_lives_of_ne s a instanceId ha').2 hhome.arena, ?_, ?_, ?_⟩
    · rw [b.poll_of_ne s a instanceId hjl]
      exact hhome.parentId
    · rw [b.poll_of_ne s a instanceId hjl, b.poll_of_ne s a instanceId ha']
      exact hhome.generation
    · rw [b.poll_of_ne s a instanceId hjl, b.poll_of_ne s a instanceId ha']
      exact hhome.instanceId

theorem Homed.acknowledged (h : Homed b) {s a l : Fin maxResources} (hlease : b.Lives l .lease) :
    Homed (b.acknowledge s a l) := by
  refine h.frame (fun l' hl' => ?_) fun l' a' _ hhome => ?_
  · obtain ⟨hne, hl'⟩ := b.acknowledge_lives s a |>.mp hl'
    rw [b.acknowledge_of_ne s a hne]
    exact ⟨hl', rfl, rfl, rfl⟩
  · have hne := hhome.arena.ne hlease (by decide)
    refine ⟨(b.acknowledge_lives s a).2 ⟨hne, hhome.arena⟩, ?_⟩
    rw [b.acknowledge_of_ne s a hne]
    exact ⟨rfl, rfl⟩

/-- **Every move keeps the invariant**: what frees an arena finds it idle. -/
theorem Homed.move {frees : Table → Fin maxResources → Prop}
    {presents : Table → Fin maxResources → Fin maxResources → Prop} {new : Option Handle}
    (hmove : TableMove frees presents b b' new) (hinflight : Inflight b) (h : Homed b) :
    Homed b' := by
  cases hmove with
  | quiet hquiet =>
    refine h.frame (fun l hl => ?_) fun l a _ hhome => ?_
    · have hold : b.Lives l .lease :=
        ⟨(hquiet l).alive.symm.trans hl.1, (hquiet l).kind.symm.trans hl.2⟩
      obtain ⟨hparent, _, hepoch, _⟩ := (hquiet l).lease hold.2
      exact ⟨hold, hparent, hepoch, (hquiet l).instanceId⟩
    · exact ⟨⟨(hquiet a).alive.trans hhome.arena.1, (hquiet a).kind.trans hhome.arena.2⟩,
        (hquiet a).arenaGeneration, (hquiet a).instanceId⟩
  | @allocated i instanceId kind entry hfree hkind hdresses =>
    refine h.replace (i := i) (fun j hj => Function.update_of_ne hj _ _) ?_ fun l hl => ?_
    · intro hl
      have hnew := hl.2
      dsimp only at hnew
      rw [Function.update_self, hdresses.kind] at hnew
      exact hkind hnew
    · obtain ⟨a, hhome⟩ := h l hl
      rw [hhome.parentId, Ne, slotId_inj]
      exact hhome.arena.ne_of_dead hfree
  | @released i kind r hlives hkind hidle hreleased hfrees =>
    refine h.replace (i := i) (fun j hj => b.set_of_ne hj r) ?_ fun l hl hparent => ?_
    · intro hl
      have halive := hl.1
      rw [b.set_self] at halive
      rcases hreleased with rfl | rfl <;> cases halive
    · obtain ⟨a, hhome⟩ := h l hl
      obtain rfl : a = i := slotId_inj.1 (hhome.parentId.symm.trans hparent)
      exact hinflight.unheld hhome.arena (hidle (hlives.2.symm.trans hhome.arena.2)) hl hparent
  | @recycled i generation hlives hidle hfrees =>
    refine h.replace (i := i) (fun j hj => b.set_of_ne hj _) ?_ fun l hl =>
      hinflight.unheld hlives hidle hl
    intro hl
    have hkind := hl.2
    rw [b.set_self] at hkind
    exact absurd (hlives.2.symm.trans hkind) (by decide)
  | published hsession harena hinstance hcheck => exact h.set rfl rfl rfl rfl rfl rfl
  | polled instanceId hsession harena hinstance hfree hready =>
    exact h.polled harena hinstance hfree
  | acknowledged hsession harena hlease houtstanding hparent hpresents =>
    exact h.acknowledged hlease

end

/-- What lives has not been released. -/
def Unreleased (r : Resource) : Prop := r.alive = true → r.released = false

theorem unreleased_step {t : Tracked σ} {i : Fin maxResources} (c : Call σ)
    (h : Unreleased (t.runtime.resources i)) : Unreleased ((step t c).runtime.resources i) := by
  have hstep := entry_step i t c (Call.works_of_forall (fun _ _ _ => trivial) t c :
    c.Works (fun _ _ _ => True) t)
  generalize (step t c).runtime.resources i = r' at hstep ⊢
  cases hstep with
  | renewed hfree hdresses => exact hdresses.released
  | moved hmoves =>
    refine hmoves.invariant (I := Unreleased) (fun r r' hmove hr => ?_) h
    cases hmove with
    | released | releasedArena | settled => intro halive; cases halive
    | _ => exact hr

/-- **One call submits the event, the next acknowledges its lease**: both succeed, and no
unacknowledged event of this sequence is left in the queue. -/
structure Removes (rt : Runtime) (s l : Fin maxResources) (e : PendingEvent)
    (inst session lease : Handle) (request : SubmitRequest) : Prop where
  resolvesSession : resolve rt inst session .session = .ok s
  resolvesLease : resolve rt inst lease .lease = .ok l
  submits : (submitBatch rt inst session (some request) (some {})).status = .ok
  acknowledges : (batchAck (submitBatch rt inst session (some request) (some {})).runtime inst
    session lease).status = .ok
  removed : ∀ e' ∈ ((batchAck (submitBatch rt inst session (some request) (some {})).runtime inst
    session lease).runtime.resources s).queue.pending, e'.sequence = e.sequence →
      e'.acknowledged = true

section

variable {q : EventQueue} {e : PendingEvent} {header : EventHeader}

theorem index_eq_of_sequence (h : Discipline q) {i j : ℕ} {e' : PendingEvent}
    (hi : q.pending[i]? = some e) (hj : q.pending[j]? = some e')
    (hsequence : e'.sequence = e.sequence) : j = i := by
  have hkey : ∀ {k : ℕ} {x : PendingEvent}, q.pending[k]? = some x →
      (sequencesOf q.pending)[k]? = some x.sequence := by
    intro k x hk
    rw [sequencesOf, List.getElem?_map, hk]
    rfl
  have hbound := BinarySearch.lowerBound_eq h.sorted (hkey hj)
  rw [hsequence] at hbound
  exact hbound.symm.trans (BinarySearch.lowerBound_eq h.sorted (hkey hi))

theorem submitStart_met (h : Discipline q) {i : ℕ} (hi : q.pending[i]? = some e)
    (hheader : header.sequence = e.sequence) :
    advance q.pending e.sequence (q.submitStart [header]).index = i ∧
      (q.submitStart [header]).met header = some e := by
  have hkey : (sequencesOf q.pending)[i]? = some header.sequence := by
    rw [sequencesOf, List.getElem?_map, hi, hheader]
    rfl
  have hstart : (q.submitStart [header]).index = i := BinarySearch.lowerBound_eq h.sorted hkey
  have hdrop : q.pending.drop i = e :: q.pending.drop (i + 1) := by
    obtain ⟨hlt, rfl⟩ := List.getElem?_eq_some_iff.1 hi
    exact List.drop_eq_getElem_cons hlt
  have hadvance : advance q.pending e.sequence (q.submitStart [header]).index = i := by
    rw [hstart]
    simp [advance, hdrop]
  refine ⟨hadvance, ?_⟩
  have hat : (q.submitStart [header]).pending[advance (q.submitStart [header]).pending
      header.sequence (q.submitStart [header]).index]? = some e := by
    rw [hheader]
    exact (congrArg (q.pending[·]?) hadvance).trans hi
  rw [SubmitProgress.met, hat]
  exact Option.filter_eq_some_iff.2 ⟨rfl, by simp [PendingEvent.sequence, hheader]⟩

/-- A header that names a delivered event by sequence and correlation is accepted. -/
theorem submit_accepts (h : Discipline q) (he : e ∈ q.pending) (hpolled : e.polled = true)
    (hheader : header.sequence = e.sequence)
    (hcorrelation : e.header.correlationIdentity = header.correlationIdentity) :
    ∀ e' ∈ (q.submit e.arenaId e.arenaGeneration [header]).pending,
      e'.sequence = e.sequence → e'.accepted = true ∧ SameEvent e e' := by
  intro e' he' hsequence
  obtain ⟨i, hi⟩ := List.getElem?_of_mem he
  obtain ⟨hadvance, hmet⟩ := submitStart_met h hi hheader
  obtain ⟨e₀, he₀, hsame⟩ := forall₂_mem_right (submit_events q _ _ _) he'
  obtain rfl : e₀ = e :=
    h.tidy.eq_of_sequence he₀ he (hsame.accepts_same.1.sequence.symm.trans hsequence)
  refine ⟨?_, hsame.accepts_same.1⟩
  rcases hsame with rfl | ⟨_, _, rfl⟩
  · -- the event has not changed, so it was accepted before
    by_contra hunaccepted
    have hstatus : itemStatus e'.arenaId e'.arenaGeneration header
        ((q.submitStart [header]).met header) = .ok := by
      simp [hmet, itemStatus, hpolled, hunaccepted, hcorrelation]
    have hpending : (q.submit e'.arenaId e'.arenaGeneration [header]).pending =
        q.pending.modify i (fun e => { e with accepted := true }) := by
      rw [← hadvance, ← hheader]
      exact SubmitProgress.item_pending_of_ok hstatus
    obtain ⟨j, hj⟩ := List.getElem?_of_mem he'
    rw [hpending, List.getElem?_modify, Option.map_eq_map, Option.map_eq_some_iff] at hj
    obtain ⟨x, hx, hmodified⟩ := hj
    split at hmodified
    · exact hunaccepted (congrArg accepted hmodified.symm)
    · next hij =>
      subst hmodified
      exact hij (index_eq_of_sequence h hi hx rfl).symm
  · rfl

theorem acknowledge_submitted (h : Discipline q) (he : e ∈ q.pending) (hpolled : e.polled = true)
    (hheader : header.sequence = e.sequence)
    (hcorrelation : e.header.correlationIdentity = header.correlationIdentity) {first last : ℕ}
    (hfirst : first ≤ e.sequence) (hlast : e.sequence ≤ last) :
    ∀ e' ∈ (EventQueue.acknowledge
        { q with pending := (q.submit e.arenaId e.arenaGeneration [header]).pending } e.arenaId first
          last).pending, e'.sequence = e.sequence → e'.acknowledged = true := by
  intro e' he' hsequence
  obtain ⟨consumed, hpending, _, _, _⟩ := acknowledge_events
    { q with pending := (q.submit e.arenaId e.arenaGeneration [header]).pending } e.arenaId first
      last
  rw [hpending] at he'
  obtain ⟨x, hx, rfl⟩ := List.mem_map.1 he'
  rw [(acknowledge_same _ _ _ x).1.sequence] at hsequence
  obtain ⟨haccepted, hsame⟩ := submit_accepts h he hpolled hheader hcorrelation x
    (List.mem_of_mem_drop hx) hsequence
  unfold acknowledge
  split
  · rfl
  · next hunmarked =>
    by_contra hunacknowledged
    refine hunmarked ⟨haccepted, by simpa using hunacknowledged, hsame.arenaId, ?_, ?_⟩
    · rw [hsequence]
      exact hfirst
    · rw [hsequence]
      exact hlast

end

section

variable {rt : Runtime} {i : Fin maxResources} {inst : Handle} {kind : Kind}

theorem resolve_handleOf (halive : (rt.resources i).alive = true)
    (hunreleased : Unreleased (rt.resources i)) (hkind : (rt.resources i).kind = kind)
    (hinstance : inst.instanceId = (rt.resources i).instanceId) :
    resolve rt inst (handleOf rt i) kind = .ok i :=
  resolve_eq_ok.2 ⟨hinstance.symm, hkind, rfl, rfl, hunreleased halive, halive, hinstance.symm⟩

/-- A submission of the event alone, without its payload. -/
def submissionOf (arena : Handle) (e : PendingEvent) : SubmitRequest where
  arena := arena
  arenaGeneration := e.arenaGeneration
  headers := some fun _ =>
    { layoutVersion := layoutVersion
      sequence := e.sequence
      correlationIdentity := e.header.correlationIdentity }
  itemCount := 1
  itemStatusCapacity := 1
  acceptedBitmapBytes := 1

/-- Such a submission passes every check. -/
theorem submitAdmission_submissionOf {session arena : Handle} {e : PendingEvent}
    {s a : Fin maxResources} (hsession : resolve rt inst session .session = .ok s)
    (harena : resolve rt inst arena .arena = .ok a)
    (hgeneration : (rt.resources a).arenaGeneration = e.arenaGeneration) :
    submitAdmission rt inst session (some (submissionOf arena e)) (some {}) =
      .ok ⟨s, a, submissionOf arena e, {}⟩ := by
  have hbound : (submissionOf arena e).itemCount ≤ sizeMax / (submissionOf arena e).headerStride :=
    show 1 ≤ sizeMax / sizeof .eventHeader by decide
  have hbitmap : bitmapRequired (submissionOf arena e).itemCount ≤ 1 :=
    show bitmapRequired 1 ≤ 1 by decide
  have hcheck : checkSubmit (rt.resources a).arenaCapacity none (submissionOf arena e).items =
      .ok () := by
    simp [submissionOf, SubmitRequest.items, viewHeaders, checkSubmit, sliceInBounds, bind_eq_ok]
  simp only [submitAdmission, bind_eq_ok, guardElse_eq_ok, presentElse_eq_ok, pure_eq_ok]
  exact ⟨s, hsession, _, rfl, {}, rfl, (), ⟨rfl, rfl, rfl, rfl, rfl, hbound, fun _ => rfl,
    le_refl 1, fun _ => rfl, hbitmap, fun _ => rfl⟩, a,
    resolveArena_eq_ok.2 ⟨harena, hgeneration⟩, (), hcheck, rfl⟩

/-- The event in the queue of the session in slot `s` is delivered under the lease in slot
`l`, polled from the arena in slot `a`. -/
structure DeliveredUnder (b : Table) (s l a : Fin maxResources) (e : PendingEvent) : Prop where
  session : b.Lives s .session
  lease : b.Lives l .lease
  home : HomeOf b l a
  outstanding : (b.entry l).outstanding = slotId s
  sameInstance : (b.entry l).instanceId = (b.entry s).instanceId
  held : (b.entry l).sequence ≤ (b.entry a).inflightCount
  pending : e ∈ (b.entry s).queue.pending
  polled : e.polled = true
  arenaId : (b.entry l).parentId = e.arenaId
  arenaGeneration : (b.entry l).epoch = e.arenaGeneration
  first_le : (b.entry l).leaseFirstSequence ≤ e.sequence
  le_last : e.sequence ≤ (b.entry l).leaseLastSequence

variable {t : Tracked σ} {s l a : Fin maxResources} {e : PendingEvent}

theorem DeliveredUnder.distinct (h : DeliveredUnder t.table s l a e) : s ≠ l ∧ s ≠ a :=
  ⟨h.session.ne h.lease (by decide), h.session.ne h.home.arena (by decide)⟩

/-- A submission takes nothing from the acknowledgement of the lease. -/
theorem DeliveredUnder.ackAdmission_submitted (h : DeliveredUnder t.table s l a e)
    {session lease : Handle} (hsession : resolve t.runtime inst session .session = .ok s)
    (hlease : resolve t.runtime inst lease .lease = .ok l) (pending : List PendingEvent) :
    ackAdmission (t.runtime.modify s (Resource.submitted pending)) inst session lease =
      .ok ⟨s, l, a⟩ := by
  obtain ⟨hsl, hsa⟩ := h.distinct
  have hl : (t.runtime.modify s (Resource.submitted pending)).resources l =
      t.runtime.resources l := Runtime.modify_of_ne _ _ hsl.symm
  have ha : (t.runtime.modify s (Resource.submitted pending)).resources a =
      t.runtime.resources a := Runtime.modify_of_ne _ _ hsa.symm
  have hsessionAfter : resolve (t.runtime.modify s (Resource.submitted pending)) inst session
      .session = .ok s := by
    obtain ⟨hid, hkind, hslot, hrest⟩ := resolve_eq_ok.1 hsession
    refine resolve_eq_ok.2 ⟨hid, hkind, hslot, ?_⟩
    rw [Runtime.modify_self]
    exact hrest
  have hleaseAfter : resolve (t.runtime.modify s (Resource.submitted pending)) inst lease .lease =
      .ok l := by
    rw [resolve_eq_ok, hl]
    exact resolve_eq_ok.1 hlease
  simp only [ackAdmission, bind_eq_ok, guardElse_eq_ok, presentElse_eq_ok, exists_const,
    pure_eq_ok, slot_eq_some]
  refine ⟨s, hsessionAfter, l, hleaseAfter, ?_, a, ?_, ?_, ?_, rfl⟩
  · rw [hl, (resolve_eq_ok.1 hsession).2.2.1]
    exact h.outstanding
  · rw [hl]
    exact h.home.parentId
  · rw [ha]
    exact h.home.arena
  · rw [hl, ha]
    exact h.held

/-- **Removal**: every instance handle of the session does. -/
theorem DeliveredUnder.removes (h : DeliveredUnder t.table s l a e)
    (hqueue : Discipline (t.runtime.resources s).queue)
    (hunreleased : ∀ i, Unreleased (t.runtime.resources i))
    (hinst : inst.instanceId = (t.runtime.resources s).instanceId) :
    Removes t.runtime s l e inst (handleOf t.runtime s) (handleOf t.runtime l)
      (submissionOf (handleOf t.runtime a) e) := by
  obtain ⟨hsl, hsa⟩ := h.distinct
  have hinstLease : inst.instanceId = (t.runtime.resources l).instanceId :=
    hinst.trans h.sameInstance.symm
  have hsession : resolve t.runtime inst (handleOf t.runtime s) .session = .ok s :=
    resolve_handleOf h.session.1 (hunreleased s) h.session.2 hinst
  have hlease : resolve t.runtime inst (handleOf t.runtime l) .lease = .ok l :=
    resolve_handleOf h.lease.1 (hunreleased l) h.lease.2 hinstLease
  have harena : resolve t.runtime inst (handleOf t.runtime a) .arena = .ok a :=
    resolve_handleOf h.home.arena.1 (hunreleased a) h.home.arena.2
      (hinstLease.trans h.home.instanceId.symm)
  let request := submissionOf (handleOf t.runtime a) e
  let plan : BatchPlan SubmitRequest SubmitResult := ⟨s, a, request, {}⟩
  have hsubmits : submitBatch t.runtime inst (handleOf t.runtime s) (some request) (some {}) =
      plan.submit t.runtime := by
    rw [submitBatch, submitAdmission_submissionOf hsession harena
      (h.home.generation.trans h.arenaGeneration)]
    rfl
  have hacknowledges : batchAck (plan.submit t.runtime).runtime inst (handleOf t.runtime s)
      (handleOf t.runtime l) = AckPlan.acknowledge ⟨s, l, a⟩ (plan.submit t.runtime).runtime := by
    rw [batchAck, BatchPlan.submit_runtime, h.ackAdmission_submitted hsession hlease]
    rfl
  refine ⟨hsession, hlease, ?_, ?_, ?_⟩
  · rw [hsubmits]
    rfl
  · rw [hsubmits, hacknowledges]
    rfl
  · have hpending : (plan.submission t.runtime).pending =
        ((t.runtime.resources s).queue.submit e.arenaId e.arenaGeneration
          request.items).pending := by
      rw [← h.arenaId, h.home.parentId]
      rfl
    rw [hsubmits, hacknowledges, AckPlan.acknowledge_runtime, Runtime.modify_of_ne _ _ hsl,
      Runtime.modify_self, Runtime.modify_of_ne _ _ hsa, BatchPlan.submit_runtime,
      Runtime.modify_self, Runtime.modify_of_ne _ _ hsl.symm, hpending]
    show ∀ e' ∈ (EventQueue.acknowledge _ (t.runtime.resources l).parentId _ _).pending, _
    rw [show (t.runtime.resources l).parentId = _ from h.arenaId]
    exact acknowledge_submitted hqueue h.pending h.polled rfl rfl h.first_le h.le_last

end

end PooFlow
