import PooFlow.Runtime.Backing
import PooFlow.Runtime.Removal

namespace PooFlow

open Foundation List Tracked PendingEvent

variable {σ : Type}

/-- The lease in slot `l` lives, comes from a poll of the session that lives in
slot `s`, and has the event in its range. -/
structure CoversEvent (t : Tracked σ) (s l : Fin maxResources) (e : PendingEvent) : Prop where
  lives : t.table.Lives l .lease
  own : OwnLease t.table s l
  outstanding : (t.runtime.resources l).outstanding = slotId s
  sameInstance : (t.runtime.resources l).instanceId = (t.runtime.resources s).instanceId
  arena : (t.runtime.resources l).parentId = e.arenaId
  generation : (t.runtime.resources l).epoch = e.arenaGeneration
  first_le : (t.runtime.resources l).leaseFirstSequence ≤ e.sequence
  le_last : e.sequence ≤ (t.runtime.resources l).leaseLastSequence

def PendingEvent.Delivered (e : PendingEvent) : Prop :=
  e.polled = true ∧ e.acknowledged = false

instance (e : PendingEvent) : Decidable e.Delivered := inferInstanceAs (Decidable (_ ∧ _))

/-- **Nothing is lost**: every delivered event of a session that is not closed
is covered by a live lease, and with any handle of the session's instance a submission and
the acknowledgement of this lease remove it. -/
def Tracked.NothingLost (t : Tracked σ) : Prop :=
  ∀ s, (t.runtime.resources s).alive = true → (t.runtime.resources s).state ≠ .closed →
    ∀ e ∈ (t.runtime.resources s).queue.pending, e.Delivered →
      ∃ l, CoversEvent t s l e ∧
        ∀ inst : Handle, inst.instanceId = (t.runtime.resources s).instanceId →
          ∃ session lease request, Removes t.runtime s l e inst session lease request

/-- No handle of the call names what lives in its slot as something else. -/
def Call.NamesKinds (t : Tracked σ) (c : Call σ) : Prop :=
  ∀ h ∈ c.handles, ∀ i, resolve t.runtime h h h.kind = .ok i →
    (t.runtime.resources i).kind = h.kind

instance (t : Tracked σ) (c : Call σ) : Decidable (c.NamesKinds t) :=
  inferInstanceAs (Decidable (∀ h ∈ c.handles, ∀ i, _ = Except.ok i → _))

/-- An acknowledged lease has nothing left to accept in the session that it was
polled from. -/
def CoverWork (t : Tracked σ) (i : Fin maxResources) (r : Resource) : Work → Prop
  | .settle =>
    ∀ s, OwnLease t.table s i → (t.runtime.resources s).state ≠ .closed →
      ∀ e ∈ (t.runtime.resources s).queue.pending, e.Delivered → e.arenaId = r.parentId →
        r.leaseFirstSequence ≤ e.sequence → e.sequence ≤ r.leaseLastSequence →
        e.accepted = true
  | _ => True

instance (t : Tracked σ) (i : Fin maxResources) (r : Resource) (w : Work) :
    Decidable (CoverWork t i r w) :=
  match w with
  | .settle => inferInstanceAs (Decidable (∀ _, _ → _ → ∀ e ∈ _, _))
  | .named _ | .publish _ | .poll | .submit | .mediate | .reconcile | .acknowledge =>
    instDecidableTrue

/-- What keeps every delivered event covered. -/
def Call.KeepsEvents (t : Tracked σ) (c : Call σ) : Prop :=
  c.NamesKinds t ∧ c.Works (CoverWork t) t

instance (t : Tracked σ) (c : Call σ) : Decidable (c.KeepsEvents t) :=
  inferInstanceAs (Decidable (_ ∧ _))

section

variable {r r' : Resource}

def Unpolled (_ : Fin maxResources) (_ : Resource) : Work → Prop
  | .poll => False
  | _ => True

/-- What `r'` shows of delivered events, `r` has shown before. -/
structure Shows (r r' : Resource) : Prop where
  state : r'.state ≠ .closed → r.state ≠ .closed
  event : ∀ e' ∈ r'.queue.pending, e'.Delivered →
    ∃ e ∈ r.queue.pending, e.Delivered ∧ SameEvent e e'

theorem Shows.of_pending (hstate : r'.state ≠ .closed → r.state ≠ .closed)
    (hpending : ∀ e' ∈ r'.queue.pending, e' ∈ r.queue.pending) : Shows r r' where
  state := hstate
  event := fun e' he' hdelivered => ⟨e', hpending e' he', hdelivered, rfl, rfl, rfl⟩

theorem Shows.trans {a b c : Resource} (hab : Shows a b) (hbc : Shows b c) : Shows a c where
  state := fun h => hab.state (hbc.state h)
  event := by
    intro e'' he'' hdelivered
    obtain ⟨e', he', hdelivered', hsame'⟩ := hbc.event e'' he'' hdelivered
    obtain ⟨e, he, hdelivered, hsame⟩ := hab.event e' he' hdelivered'
    exact ⟨e, he, hdelivered, hsame'.header.trans hsame.header, hsame'.arenaId.trans hsame.arenaId,
      hsame'.arenaGeneration.trans hsame.arenaGeneration⟩

theorem EntryMove.shows {i : Fin maxResources} (hmove : EntryMove (Unpolled i) r r') :
    Shows r r' := by
  cases hmove with
  | restated outstanding hhalted hunclosed =>
    exact .of_pending (fun _ => hunclosed) fun _ => id
  | released | releasedArena | settled =>
    exact .of_pending id fun e' he' => by cases he'
  | polled arenaId arenaGeneration hallowed => exact hallowed.elim
  | published arenaId arenaGeneration =>
    refine ⟨id, fun e' he' hdelivered => ?_⟩
    rcases mem_append.1 he' with hold | hnew
    · exact ⟨e', hold, hdelivered, rfl, rfl, rfl⟩
    · obtain ⟨header, _, rfl⟩ := mem_map.1 hnew
      exact absurd hdelivered.1 (by simp [PendingEvent.published])
  | submitted arenaId arenaGeneration =>
    refine ⟨id, fun e' he' hdelivered => ?_⟩
    obtain ⟨e, he, hsame⟩ := forall₂_mem_right (submit_events r.queue _ _ _) he'
    obtain ⟨hsame, hpolled, hacknowledged⟩ := hsame.accepts_same
    exact ⟨e, he, ⟨hpolled ▸ hdelivered.1, hacknowledged ▸ hdelivered.2⟩, hsame⟩
  | acknowledged arenaId first last =>
    refine ⟨id, fun e' he' hdelivered => ?_⟩
    obtain ⟨consumed, hpending, _⟩ := acknowledge_events r.queue arenaId first last
    dsimp only at he'
    rw [hpending] at he'
    obtain ⟨e, he, rfl⟩ := mem_map.1 he'
    obtain ⟨hsame, hpolled, _⟩ := acknowledge_same arenaId first last e
    refine ⟨e, mem_of_mem_drop he, ⟨hpolled ▸ hdelivered.1, ?_⟩, hsame⟩
    have hunacknowledged := hdelivered.2
    unfold acknowledge at hunacknowledged
    split at hunacknowledged
    · cases hunacknowledged
    · exact hunacknowledged
  | _ => exact .of_pending id fun _ => id

/-- The work that leaves the lease in slot `l`. -/
def Spares (l i : Fin maxResources) (r : Resource) : Work → Prop
  | .named kind => r.kind = .lease → kind = .lease
  | .settle => i ≠ l
  | _ => True

structure LeaseKept (r r' : Resource) : Prop where
  alive : r.alive = true → r'.alive = true
  kind : r'.kind = r.kind
  parentId : r'.parentId = r.parentId
  epoch : r'.epoch = r.epoch
  outstanding : r'.outstanding = r.outstanding
  instanceId : r'.instanceId = r.instanceId
  first : r'.leaseFirstSequence = r.leaseFirstSequence
  last : r'.leaseLastSequence = r.leaseLastSequence

protected theorem LeaseKept.rfl : LeaseKept r r :=
  ⟨id, rfl, rfl, rfl, rfl, rfl, rfl, rfl⟩

theorem LeaseKept.trans {a b c : Resource} (hab : LeaseKept a b) (hbc : LeaseKept b c) :
    LeaseKept a c :=
  ⟨hbc.alive ∘ hab.alive, hbc.kind.trans hab.kind, hbc.parentId.trans hab.parentId,
    hbc.epoch.trans hab.epoch, hbc.outstanding.trans hab.outstanding,
    hbc.instanceId.trans hab.instanceId, hbc.first.trans hab.first, hbc.last.trans hab.last⟩

theorem EntryMove.leaseKept {l : Fin maxResources} (hmove : EntryMove (Spares l l) r r')
    (hlease : r.kind = .lease) : LeaseKept r r' := by
  cases hmove with
  | restated outstanding hhalted hunclosed hallowed => cases hallowed hlease
  | released hkind hallowed => exact absurd (hallowed hlease) hkind
  | releasedArena hallowed => cases hallowed hlease
  | recycled generation hallowed => cases hallowed hlease
  | settled hallowed => exact absurd rfl hallowed
  | _ => exact ⟨id, rfl, rfl, rfl, rfl, rfl, rfl, rfl⟩

theorem EntrySteps.leaseKept {l : Fin maxResources} (hsteps : EntrySteps (Spares l l) r r')
    (hlease : r.kind = .lease) : LeaseKept r r' := by
  refine hsteps.invariant (I := LeaseKept r) (fun a b hmove hkept => ?_) .rfl
  exact hkept.trans (hmove.leaseKept (hkept.kind.trans hlease))

end

section

variable {t : Tracked σ} {c : Call σ}

variable {l s : Fin maxResources} {e' : PendingEvent} {inst session : Handle}

theorem lineage_step (halive : (t.runtime.resources l).alive = true)
    (hkept : ((step t c).runtime.resources l).generation = (t.runtime.resources l).generation) :
    (step t c).table.lineage l = t.table.lineage l := by
  have hlife : (step t c).life l = c.log t l (t.life l) :=
    congrArg (c.log t l) (carry_of_same (t.life l) hkept)
  change ((step t c).life l).lineage = (t.life l).lineage
  rw [hlife]
  by_cases hc : c.IsLifecycle
  · rw [log_of_isLifecycle hc]
  by_cases hkeeps : c.KeepsAllocations
  · exact lineage_log hkeeps t l _
  cases c with
  | pollBatch inst session request result =>
    rcases pollBatch_cases t.runtime inst session request result with
      ⟨_, hnull⟩ | ⟨plan, l', hdelivers⟩
    · exact congrArg Life.lineage (logPoll_undelivered (t.life l) hnull)
    · have hne : l ≠ l' := by
        rintro rfl
        rw [hdelivers.free] at halive
        cases halive
      have hcarried := congrArg (fun life => (life.logPoll l t.life session request
        (pollBatch t.runtime inst session request result)).lineage)
        (carry_of_same (t.life l) hkept)
      have hlineage := hcarried.symm.trans (logPoll_delivered hdelivers l)
      exact hlineage.trans (Function.update_of_ne hne _ _)
  | _ => first | exact absurd trivial hc | exact absurd trivial hkeeps

variable {e : PendingEvent} {request : Option PollRequest} {result : Option PollResult}

theorem CoversEvent.step (h : CoversEvent t s l e) (hspares : c.Works (Spares l) t)
    (hsame : SameEvent e e') (hserial : ((step t c).life s).serial = (t.life s).serial) :
    CoversEvent (step t c) s l e' := by
  have hinstance : ((PooFlow.step t c).runtime.resources s).instanceId =
      (t.runtime.resources s).instanceId :=
    (moved_of_serial s (Call.works_of_forall (fun _ _ _ => trivial) t c :
      c.Works (fun _ _ _ => True) t) hserial).keeps.instanceId
  have hstep := entry_step l t c hspares
  have hkept : LeaseKept (t.runtime.resources l) ((PooFlow.step t c).runtime.resources l) ∧
      ((PooFlow.step t c).runtime.resources l).generation =
        (t.runtime.resources l).generation := by
    generalize (PooFlow.step t c).runtime.resources l = r' at hstep ⊢
    cases hstep with
    | renewed hfree hdresses =>
      have halive := h.lives.1
      change (t.runtime.resources l).alive = true at halive
      rw [hfree] at halive
      cases halive
    | moved hmoves => exact ⟨hmoves.leaseKept h.lives.2, hmoves.keeps.generation⟩
  obtain ⟨hlease, hgeneration⟩ := hkept
  refine ⟨⟨hlease.alive h.lives.1, hlease.kind.trans h.lives.2⟩, ?_,
    hlease.outstanding.trans h.outstanding,
    hlease.instanceId.trans (h.sameInstance.trans hinstance.symm), ?_, ?_, ?_, ?_⟩
  · have hown := h.own
    unfold OwnLease at hown ⊢
    rw [lineage_step h.lives.1 hgeneration, hown]
    exact congrArg (fun serial => some (s, serial)) hserial.symm
  · rw [hlease.parentId, h.arena, hsame.arenaId]
  · rw [hlease.epoch, h.generation, hsame.arenaGeneration]
  · rw [hlease.first, hsame.sequence]
    exact h.first_le
  · rw [hlease.last, hsame.sequence]
    exact h.le_last

theorem spares_or_settles (hkeeps : c.KeepsEvents t) (l : Fin maxResources) :
    c.Works (Spares l) t ∨
      ∃ inst session lease plan, c = .batchAck inst session lease ∧
        ackAdmission t.runtime inst session lease = .ok plan ∧ plan.lease = l := by
  cases c with
  | batchAck inst session lease =>
    rcases hadmission : ackAdmission t.runtime inst session lease with status | plan
    · left
      intro plan hplan
      rw [hadmission] at hplan
      cases hplan
    · by_cases hl : plan.lease = l
      · exact Or.inr ⟨inst, session, lease, plan, rfl, hadmission, hl⟩
      · left
        intro plan' hplan
        obtain rfl := Except.ok.inj (hadmission.symm.trans hplan)
        exact ⟨trivial, hl⟩
  | strictMediate =>
    exact Or.inl fun _ _ => ⟨trivial, fun _ =>
      AdapterProgram.works_of_submit (fun _ _ => trivial) _ _⟩
  | publishBatch | pollBatch | submitBatch | batchedFlush | sessionReconcileEvidence =>
    left
    simp [Call.Works, Spares]
  | _ =>
    exact Or.inl fun h hmem i hresolve hlease =>
      (hkeeps.1 h hmem i hresolve).symm.trans hlease

structure DeliveredBefore (t : Tracked σ) (c : Call σ) (s : Fin maxResources)
    (e e' : PendingEvent) : Prop where
  alive : (t.runtime.resources s).alive = true
  state : (t.runtime.resources s).state ≠ .closed
  pending : e ∈ (t.runtime.resources s).queue.pending
  delivered : e.Delivered
  same : SameEvent e e'
  serial : ((step t c).life s).serial = (t.life s).serial

theorem deliveredBefore_of_shows (halive : ((step t c).runtime.resources s).alive = true →
      (t.runtime.resources s).alive = true)
    (hgeneration : ((step t c).runtime.resources s).generation =
      (t.runtime.resources s).generation)
    (hshows : Shows (t.runtime.resources s) ((step t c).runtime.resources s))
    (hs : ((step t c).runtime.resources s).alive = true)
    (hstate : ((step t c).runtime.resources s).state ≠ .closed)
    (he' : e' ∈ ((step t c).runtime.resources s).queue.pending) (hdelivered : e'.Delivered) :
    ∃ e, DeliveredBefore t c s e e' := by
  obtain ⟨e, he, hdelivered, hsame⟩ := hshows.event e' he' hdelivered
  refine ⟨e, halive hs, hshows.state hstate, he, hdelivered, hsame, ?_⟩
  rw [serial_step, if_pos hgeneration]

section

variable (hc : ∀ inst session request result, c ≠ .pollBatch inst session request result)

include hc

theorem unpolled_works : c.Works Unpolled t := by
  cases c with
  | pollBatch inst session request result => exact absurd rfl (hc inst session request result)
  | strictMediate =>
    exact fun _ _ => ⟨trivial, fun _ => AdapterProgram.works_of_submit (fun _ _ => trivial) _ _⟩
  | _ => simp [Call.Works, Unpolled]

theorem deliveredBefore_of_unpolled (hs : ((step t c).runtime.resources s).alive = true)
    (hstate : ((step t c).runtime.resources s).state ≠ .closed)
    (he' : e' ∈ ((step t c).runtime.resources s).queue.pending) (hdelivered : e'.Delivered) :
    ∃ e, DeliveredBefore t c s e e' := by
  have hstep := entry_step s t c (unpolled_works hc)
  have hkept : ((step t c).runtime.resources s).generation =
        (t.runtime.resources s).generation ∧
      ((((step t c).runtime.resources s).alive = true →
        (t.runtime.resources s).alive = true)) ∧
      Shows (t.runtime.resources s) ((step t c).runtime.resources s) := by
    generalize (step t c).runtime.resources s = r' at hstep he' ⊢
    cases hstep with
    | renewed hfree hdresses =>
      rw [hdresses.pending] at he'
      cases he'
    | moved hmoves =>
      refine ⟨hmoves.keeps.generation, hmoves.alive, ?_⟩
      exact hmoves.invariant (fun a b hmove hshows => hshows.trans hmove.shows)
        (.of_pending id fun _ => id)
  exact deliveredBefore_of_shows hkept.2.1 hkept.1 hkept.2.2 hs hstate he' hdelivered

end

theorem covers_window_event {plan : BatchPlan PollRequest PollResult}
    (hdelivers : Delivers t.runtime inst session request plan l
      (pollBatch t.runtime inst session request result))
    (htidy : Tidy (t.runtime.resources plan.session).queue)
    (hserial : ((step t (.pollBatch inst session request result)).life plan.session).serial =
      (t.life plan.session).serial) {e₀ : PendingEvent}
    (he₀ : e₀ ∈ (t.runtime.resources plan.session).queue.window plan.request.arena.resourceId
      plan.request.arenaGeneration) (hsame : SameEvent e₀ e') :
    CoversEvent (step t (.pollBatch inst session request result)) plan.session l e' := by
  have hruntime : (step t (.pollBatch inst session request result)).runtime =
      (pollBatch t.runtime inst session request result).runtime := rfl
  obtain ⟨_, harena, hgeneration⟩ :=
    (t.runtime.resources plan.session).queue.mem_window _ _ he₀
  obtain ⟨a, _, z, _, hfirst, hlast, hends⟩ :=
    htidy.window_ends _ _ (ne_nil_of_mem he₀)
  have hlease := hdelivers.apply l
  rw [← hruntime, if_pos rfl] at hlease
  have hrange : ((step t (.pollBatch inst session request result)).runtime.resources
      l).leaseFirstSequence = a.sequence ∧
      ((step t (.pollBatch inst session request result)).runtime.resources
        l).leaseLastSequence = z.sequence := by
    rw [hlease]
    exact ⟨hfirst, hlast⟩
  have hsession := hdelivers.apply plan.session
  rw [← hruntime, if_neg hdelivers.session_ne] at hsession
  refine ⟨⟨?_, ?_⟩, ?_, ?_, ?_, ?_, ?_, ?_, ?_⟩
  · exact congrArg Resource.alive hlease
  · exact congrArg Resource.kind hlease
  · have hself := (logPoll_delivered hdelivers l).trans (Function.update_self ..)
    change (step t (.pollBatch inst session request result)).table.lineage l = _ at hself
    unfold OwnLease
    rw [hself]
    exact congrArg (fun serial => some (plan.session, serial)) hserial.symm
  · exact congrArg Resource.outstanding hlease
  · rw [hlease, hsession]
    exact (resolve_eq_ok.1 hdelivers.session_resolved).2.2.2.2.2.2.symm
  · exact (congrArg Resource.parentId hlease).trans (hsame.arenaId.trans harena).symm
  · exact (congrArg Resource.epoch hlease).trans (hsame.arenaGeneration.trans hgeneration).symm
  · rw [hrange.1, hsame.sequence]
    exact (hends e₀ he₀).1
  · rw [hrange.2, hsame.sequence]
    exact (hends e₀ he₀).2

theorem covers_or_deliveredBefore (htidy : ∀ i, Tidy (t.runtime.resources i).queue)
    (hs : ((step t (.pollBatch inst session request result)).runtime.resources s).alive = true)
    (hstate : ((step t (.pollBatch inst session request result)).runtime.resources s).state ≠
      .closed)
    (he' : e' ∈
      ((step t (.pollBatch inst session request result)).runtime.resources s).queue.pending)
    (hdelivered : e'.Delivered) :
    (∃ l, CoversEvent (step t (.pollBatch inst session request result)) s l e') ∨
      ∃ e, DeliveredBefore t (.pollBatch inst session request result) s e e' := by
  have hruntime : (step t (.pollBatch inst session request result)).runtime =
      (pollBatch t.runtime inst session request result).runtime := rfl
  rcases pollBatch_cases t.runtime inst session request result with
    ⟨heq, _⟩ | ⟨plan, l, hdelivers⟩
  · right
    have hentry : (step t (.pollBatch inst session request result)).runtime.resources s =
        t.runtime.resources s := by rw [hruntime, heq]
    rw [hentry] at he'
    refine ⟨e', hentry ▸ hs, hentry ▸ hstate, he', hdelivered, ⟨rfl, rfl, rfl⟩, ?_⟩
    rw [serial_step, if_pos (by rw [hentry])]
  have happly := hdelivers.apply s
  rw [← hruntime] at happly
  -- the slot of the new lease has no events
  have hsl : s ≠ l := by
    rintro rfl
    rw [happly, if_pos rfl] at he'
    rw [(dresses_lease plan t.runtime _ _ _).pending] at he'
    cases he'
  rw [if_neg hsl] at happly
  have hgeneration : ((step t (.pollBatch inst session request result)).runtime.resources
      s).generation = (t.runtime.resources s).generation := by rw [happly]
  have hserial : ((step t (.pollBatch inst session request result)).life s).serial =
      (t.life s).serial := by
    rw [serial_step, if_pos hgeneration]
  rw [happly] at hs hstate he'
  dsimp only at hs hstate he'
  have hbefore : e' ∈ (t.runtime.resources s).queue.pending →
      ∃ e, DeliveredBefore t (.pollBatch inst session request result) s e e' := fun he =>
    ⟨e', hs, hstate, he, hdelivered, ⟨rfl, rfl, rfl⟩, hserial⟩
  by_cases hsession : s = plan.session
  swap
  · rw [if_neg hsession] at he'
    exact Or.inr (hbefore he')
  rw [if_pos hsession] at he'
  rcases mem_append.1 he' with hin | hpost
  · rcases mem_append.1 hin with hpre | hwindow
    · -- outside the window nothing changes
      exact Or.inr (hbefore (mem_of_mem_take hpre))
    · left
      refine ⟨l, ?_⟩
      subst hsession
      obtain ⟨e₀, he₀, rfl⟩ := mem_map.1 hwindow
      exact covers_window_event hdelivers (htidy _) hserial he₀ ⟨rfl, rfl, rfl⟩
  · exact Or.inr (hbefore (mem_of_mem_drop hpost))

theorem unaccepted_of_settled {lease : Handle} {plan : AckPlan}
    (htidy : ∀ i, Tidy (t.runtime.resources i).queue)
    (hadmission : ackAdmission t.runtime inst session lease = .ok plan)
    (hbefore : DeliveredBefore t (.batchAck inst session lease) s e e')
    (hs : ((step t (.batchAck inst session lease)).runtime.resources s).alive = true)
    (hcovers : CoversEvent t s plan.lease e)
    (he' : e' ∈ ((step t (.batchAck inst session lease)).runtime.resources s).queue.pending)
    (hdelivered : e'.Delivered) : e.accepted = false := by
  obtain ⟨_, _, houtstanding, _⟩ := ackAdmission_ok hadmission
  obtain rfl : plan.session = s := slotId_inj.1 (houtstanding.symm.trans hcovers.outstanding)
  have hruntime : (step t (.batchAck inst session lease)).runtime =
      ((t.runtime.modify plan.arena (t.runtime.resources plan.lease).settleLease).modify
        plan.session (t.runtime.resources plan.lease).acknowledgeLease).modify plan.lease
          Resource.release := by
    change (batchAck t.runtime inst session lease).runtime = _
    rw [batchAck, hadmission]
    rfl
  have hne : plan.session ≠ plan.lease := by
    intro heq
    rw [hruntime, heq, Runtime.modify_self] at hs
    cases hs
  have hqueue : ((step t (.batchAck inst session lease)).runtime.resources plan.session).queue =
      (t.runtime.resources plan.session).queue.acknowledge
        (t.runtime.resources plan.lease).parentId
        (t.runtime.resources plan.lease).leaseFirstSequence
        (t.runtime.resources plan.lease).leaseLastSequence := by
    rw [hruntime, Runtime.modify_of_ne _ _ hne, Runtime.modify_self, Runtime.modify_apply]
    split
    · next harena => rw [← harena]; rfl
    · rfl
  obtain ⟨consumed, hpending, _⟩ := acknowledge_events (t.runtime.resources plan.session).queue
    (t.runtime.resources plan.lease).parentId
    (t.runtime.resources plan.lease).leaseFirstSequence
    (t.runtime.resources plan.lease).leaseLastSequence
  rw [hqueue, hpending] at he'
  obtain ⟨x, hx, rfl⟩ := mem_map.1 he'
  obtain rfl : x = e := by
    refine (htidy plan.session).eq_of_sequence (mem_of_mem_drop hx) hbefore.pending ?_
    exact (acknowledge_same _ _ _ x).1.sequence.symm.trans hbefore.same.sequence
  -- an accepted event would have been marked
  by_contra haccepted
  have hmarked := hdelivered.2
  rw [acknowledge, if_pos ⟨by simpa using haccepted, hbefore.delivered.2,
    hcovers.arena.symm, hcovers.first_le, hcovers.le_last⟩] at hmarked
  cases hmarked

def Tracked.Covered (t : Tracked σ) : Prop :=
  ∀ s, (t.runtime.resources s).alive = true → (t.runtime.resources s).state ≠ .closed →
    ∀ e ∈ (t.runtime.resources s).queue.pending, e.Delivered → ∃ l, CoversEvent t s l e

/-- **One call.** -/
theorem covered_step (htidy : ∀ i, Tidy (t.runtime.resources i).queue)
    (hkeeps : c.KeepsEvents t) (h : t.Covered) : (step t c).Covered := by
  intro s hs hstate e' he' hdelivered
  have hcases : (∃ l, CoversEvent (step t c) s l e') ∨ ∃ e, DeliveredBefore t c s e e' := by
    by_cases hc : ∀ inst session request result, c ≠ .pollBatch inst session request result
    · exact Or.inr (deliveredBefore_of_unpolled hc hs hstate he' hdelivered)
    · push Not at hc
      obtain ⟨inst, session, request, result, rfl⟩ := hc
      exact covers_or_deliveredBefore htidy hs hstate he' hdelivered
  rcases hcases with hnew | ⟨e, hbefore⟩
  · exact hnew
  obtain ⟨l, hcovers⟩ := h s hbefore.alive hbefore.state e hbefore.pending hbefore.delivered
  rcases spares_or_settles hkeeps l with hspares | ⟨inst, session, lease, plan, rfl, hadmission, rfl⟩
  · exact ⟨l, hcovers.step hspares hbefore.same hbefore.serial⟩
  · have haccepted := (hkeeps.2 plan hadmission).2 s hcovers.own hbefore.state e hbefore.pending
      hbefore.delivered hcovers.arena.symm hcovers.first_le hcovers.le_last
    have hunaccepted := unaccepted_of_settled htidy hadmission hbefore hs hcovers he' hdelivered
    rw [haccepted] at hunaccepted
    cases hunaccepted

end

theorem Call.NamesKinds.names {t : Tracked σ} {c : Call σ} (h : c.NamesKinds t) :
    ∀ handle ∈ c.handles, t.Names handle := by
  intro handle hmem inst kind i hresolve
  obtain ⟨hid, hkind, hslot, hgeneration, hreleased, halive, hentry⟩ := resolve_eq_ok.1 hresolve
  have hself : resolve t.runtime handle handle handle.kind = .ok i :=
    resolve_eq_ok.2 ⟨rfl, rfl, hslot, hgeneration, hreleased, halive, hentry.trans hid.symm⟩
  exact ⟨halive, (h handle hmem i hself).trans hkind⟩

/-- **Coverage invariant.** -/
structure Covering (t : Tracked σ) : Prop where
  discipline : ∀ i, Discipline (t.runtime.resources i).queue
  unreleased : ∀ i, Unreleased (t.runtime.resources i)
  inflight : Inflight t.table
  homed : Homed t.table
  covered : t.Covered

theorem covering_step {t : Tracked σ} {c : Call σ} (h : Covering t) (hkeeps : c.KeepsEvents t) :
    Covering (step t c) := by
  have hmove : TableMove (fun _ _ => True) (fun _ _ _ => True) t.table (step t c).table
      (c.answer t.runtime t.world).issued := by
    refine table_step hkeeps.1.names ?_ ?_
    · cases c <;> first | exact trivial | exact fun _ _ => trivial
    · cases c <;> first | exact trivial | exact fun _ _ => trivial
  exact ⟨discipline_step h.discipline, fun i => unreleased_step c (h.unreleased i),
    h.inflight.move hmove, h.homed.move hmove h.inflight,
    covered_step (fun i => (h.discipline i).tidy) hkeeps h.covered⟩

theorem covering_initial (world : σ) : Covering (initial world) where
  discipline := fun _ => .empty rfl fun _ => rfl
  unreleased := fun _ _ => rfl
  inflight := inflight_initial world
  homed := fun l hl => absurd hl.1 (by simp [initial, table, Runtime.initial])
  covered := fun _ _ _ e he => by cases he

/-- **Delivered events are not lost**, as long as handles say what they name and
leases are acknowledged with nothing left to accept. -/
theorem nothing_lost (world : σ) (calls : List (Call σ))
    (hruns : Along step (fun t c => c.KeepsEvents t) (Tracked.initial world) calls) :
    (run step (Tracked.initial world) calls).NothingLost := by
  have h := hruns.invariant (I := Covering) (fun _ _ h hkeeps => covering_step h hkeeps)
    (covering_initial world)
  intro s hs hstate e he hdelivered
  obtain ⟨l, hcovers⟩ := h.covered s hs hstate e he hdelivered
  refine ⟨l, hcovers, fun inst hinst => ?_⟩
  obtain ⟨a, hhome⟩ := h.homed l hcovers.lives
  have hsession : (run step (Tracked.initial world) calls).table.Lives s .session := by
    refine ⟨hs, ?_⟩
    by_contra hkind
    exact not_mem_nil (h.inflight.queues s hkind ▸ he)
  have hunder : DeliveredUnder (run step (Tracked.initial world) calls).table s l a e :=
    ⟨hsession, hcovers.lives, hhome, hcovers.outstanding, hcovers.sameInstance,
      h.inflight.held_le hhome.arena hcovers.lives hhome.parentId, he, hdelivered.1, hcovers.arena,
      hcovers.generation, hcovers.first_le, hcovers.le_last⟩
  exact ⟨_, _, _, hunder.removes (h.discipline s) h.unreleased hinst⟩

/-- Publish and poll two events, submit `count` of them, and acknowledge. -/
def halfSubmitted (count : ℕ) : List (Call Unit) :=
  let it : Installation := {}
  it.setUp ++ [it.publish 5 2, it.poll, it.submit 5 count, it.ack (Installation.lease 1),
    it.publish 7 1, it.poll]

theorem nothing_lost_submitted : (run step (Tracked.initial ()) (halfSubmitted 2)).NothingLost :=
  nothing_lost () (halfSubmitted 2) (by decide +kernel)

/-- **The condition is needed**: the second event has no lease any more. -/
theorem event_lost :
    ¬∀ calls : List (Call Unit), (run step (Tracked.initial ()) calls).NothingLost := by
  intro h
  have hlost := h (halfSubmitted 1) 3 (by decide +kernel) (by decide +kernel)
  have hevent : ∃ e ∈ ((run step (Tracked.initial ()) (halfSubmitted 1)).runtime.resources
      3).queue.pending, e.Delivered ∧ e.sequence = 6 ∧
      ∀ l, (run step (Tracked.initial ()) (halfSubmitted 1)).table.Lives l .lease →
        6 < ((run step (Tracked.initial ()) (halfSubmitted 1)).runtime.resources
          l).leaseFirstSequence := by decide +kernel
  generalize run step (Tracked.initial ()) (halfSubmitted 1) = t at hlost hevent
  obtain ⟨e, he, hdelivered, hsequence, hleases⟩ := hevent
  obtain ⟨l, hcovers, _⟩ := hlost e he hdelivered
  have hfirst := hcovers.first_le
  have habove := hleases l hcovers.lives
  omega

end PooFlow
