import PooFlow.Runtime.Discipline

namespace PooFlow

open Foundation List Tracked EventQueue PendingEvent

variable {σ : Type}

def EventQueue.headers (q : EventQueue) : List EventHeader := q.pending.map PendingEvent.header

section

variable {allowed : Resource → Work → Prop} {r r' : Resource}

theorem headers_of_events {q q' : EventQueue} {R : PendingEvent → PendingEvent → Prop}
    (hR : ∀ a b, R a b → b.header = a.header)
    (hevents : List.Forall₂ R q.pending q'.pending) : q'.headers = q.headers := by
  rw [headers, headers]
  generalize q.pending = before, q'.pending = after at hevents
  induction hevents with
  | nil => rfl
  | cons hab _ ih => rw [map_cons, map_cons, hR _ _ hab, ih]

theorem headers_poll (q : EventQueue) (arenaId arenaGeneration : ℕ) :
    (q.poll arenaId arenaGeneration).headers = q.headers :=
  headers_of_events (fun _ _ hab => hab.polls_same.1.header) (q.poll_events _ _)

theorem headers_submit (q : EventQueue) (arenaId arenaGeneration : ℕ) (headers : List EventHeader) :
    EventQueue.headers { q with pending := (q.submit arenaId arenaGeneration headers).pending } =
      q.headers :=
  headers_of_events (fun _ _ hab => hab.accepts_same.1.header) (submit_events _ _ _ _)

theorem headers_acknowledge (q : EventQueue) (arenaId first last : ℕ) :
    ∃ consumed, (q.acknowledge arenaId first last).headers = q.headers.drop consumed := by
  obtain ⟨consumed, hpending, _⟩ := acknowledge_events q arenaId first last
  refine ⟨consumed, ?_⟩
  rw [headers, headers, hpending, map_map, ← map_drop]
  exact map_congr_left fun e _ => acknowledge_header arenaId first last e

/-- Moves that acknowledge nothing only add events to an entry that lives on. -/
theorem EntrySteps.headers_append (hack : ∀ r, ¬allowed r .acknowledge)
    (h : EntrySteps allowed r r') (halive : r'.alive = true) :
    ∃ added, r'.queue.headers = r.queue.headers ++ added := by
  refine h.invariant (I := fun r' => r'.alive = true →
    ∃ added, r'.queue.headers = r.queue.headers ++ added) ?_ (fun _ => ⟨[], by simp⟩) halive
  intro a b hmove ih hb
  obtain ⟨added, hadded⟩ := ih (hmove.alive hb)
  cases hmove with
  | released | releasedArena | settled => cases hb
  | acknowledged arenaId first last hallowed => exact absurd hallowed (hack _)
  | published arenaId arenaGeneration hroom hcheck hallowed =>
    rename_i headers
    refine ⟨added ++ headers, ?_⟩
    rw [← append_assoc, ← hadded]
    simp [EventQueue.headers, EventQueue.publish, PendingEvent.published, Function.comp_def]
  | polled arenaId arenaGeneration hallowed =>
    exact ⟨added, (headers_poll _ _ _).trans hadded⟩
  | submitted arenaId arenaGeneration hcheck hallowed =>
    exact ⟨added, (headers_submit _ _ _ _).trans hadded⟩
  | _ => exact ⟨added, hadded⟩

/-- Moves that publish nothing only drop events at the front. -/
theorem EntrySteps.headers_drop (hpublish : ∀ r headers, ¬allowed r (.publish headers))
    (h : EntrySteps allowed r r') (halive : r'.alive = true) :
    ∃ consumed, r'.queue.headers = r.queue.headers.drop consumed := by
  refine h.invariant (I := fun r' => r'.alive = true →
    ∃ consumed, r'.queue.headers = r.queue.headers.drop consumed) ?_ (fun _ => ⟨0, rfl⟩) halive
  intro a b hmove ih hb
  obtain ⟨consumed, hconsumed⟩ := ih (hmove.alive hb)
  cases hmove with
  | released | releasedArena | settled => cases hb
  | published arenaId arenaGeneration hroom hcheck hallowed =>
    exact absurd hallowed (hpublish _ _)
  | polled arenaId arenaGeneration hallowed =>
    exact ⟨consumed, (headers_poll _ _ _).trans hconsumed⟩
  | submitted arenaId arenaGeneration hcheck hallowed =>
    exact ⟨consumed, (headers_submit _ _ _ _).trans hconsumed⟩
  | acknowledged arenaId first last hallowed =>
    obtain ⟨more, hmore⟩ := headers_acknowledge a.queue arenaId first last
    refine ⟨consumed + more, ?_⟩
    rw [← drop_drop, ← hconsumed]
    exact hmore
  | _ => exact ⟨consumed, hconsumed⟩

end

def SideBySide (q : EventQueue) (headers : List EventHeader) : Prop :=
  ∃ before after, q.headers = before ++ headers ++ after

variable {q q' : EventQueue} {headers : List EventHeader}

theorem Discipline.headers_nodup (h : Discipline q) : q.headers.Nodup := by
  have hsequences : (q.headers.map EventHeader.sequence).Pairwise (· < ·) := by
    have hsorted := h.sorted
    rw [sequencesOf] at hsorted
    rwa [headers, map_map]
  exact List.Nodup.of_map _ (hsequences.imp fun hlt => ne_of_lt hlt)

theorem SideBySide.drop {consumed : ℕ} (h : SideBySide q headers) (hnodup : q.headers.Nodup)
    (hdrop : q'.headers = q.headers.drop consumed) (hkept : ∀ x ∈ headers, x ∈ q'.headers) :
    SideBySide q' headers := by
  obtain ⟨before, after, heq⟩ := h
  cases headers with
  | nil => exact ⟨q'.headers, [], by simp⟩
  | cons x rest =>
    -- dropping past `before` would drop `x`, which stands in the queue once
    have hle : consumed ≤ before.length := by
      by_contra hgt
      have hgone : x ∈ q.headers.take consumed := by
        rw [heq, append_assoc, take_append]
        apply mem_append_right
        rw [show consumed - before.length = (consumed - before.length - 1) + 1 by omega]
        exact mem_cons_self
      have hstays : x ∈ q.headers.drop consumed := hdrop ▸ hkept x mem_cons_self
      exact disjoint_take_drop hnodup (le_refl consumed) hgone hstays
    refine ⟨before.drop consumed, after, ?_⟩
    rw [hdrop, heq, append_assoc, drop_append_of_le_length hle, append_assoc]

theorem SideBySide.append {added : List EventHeader} (h : SideBySide q headers)
    (happend : q'.headers = q.headers ++ added) : SideBySide q' headers := by
  obtain ⟨before, after, heq⟩ := h
  exact ⟨before, after ++ added, by rw [happend, heq, append_assoc _ after]⟩

section

variable {t : Tracked σ} {c : Call σ} {i : Fin maxResources}

def Unacknowledging (_ : Fin maxResources) (_ : Resource) : Work → Prop
  | .acknowledge => False
  | _ => True

def Unpublishing (_ : Fin maxResources) (_ : Resource) : Work → Prop
  | .publish _ => False
  | _ => True

theorem works_unacknowledging_or_unpublishing (t : Tracked σ) (c : Call σ) :
    c.Works Unacknowledging t ∨ c.Works Unpublishing t := by
  cases c with
  | batchAck => exact Or.inr fun _ _ => ⟨trivial, trivial⟩
  | strictMediate =>
    exact Or.inl fun _ _ => ⟨trivial, fun _ =>
      AdapterProgram.works_of_submit (fun _ _ => trivial) _ _⟩
  | _ => exact Or.inl (by simp [Call.Works, Unacknowledging])

variable {headers : List EventHeader} {calls : List (Call σ)}

/-- **One call** keeps headers side by side that it leaves in the queue. -/
theorem sideBySide_step (hdiscipline : Discipline (t.runtime.resources i).queue)
    (h : SideBySide (t.runtime.resources i).queue headers)
    (hsame : ((step t c).life i).serial = (t.life i).serial)
    (halive : ((step t c).runtime.resources i).alive = true)
    (hkept : ∀ x ∈ headers, x ∈ ((step t c).runtime.resources i).queue.headers) :
    SideBySide ((step t c).runtime.resources i).queue headers := by
  rcases works_unacknowledging_or_unpublishing t c with hworks | hworks
  · obtain ⟨added, hadded⟩ :=
      (moved_of_serial i hworks hsame).headers_append (fun _ => id) halive
    exact h.append hadded
  · obtain ⟨consumed, hconsumed⟩ :=
      (moved_of_serial i hworks hsame).headers_drop (fun _ _ => id) halive
    exact h.drop hdiscipline.headers_nodup hconsumed hkept

theorem dead_run (hsame : ((run step t calls).life i).serial = (t.life i).serial)
    (hdead : (t.runtime.resources i).alive = false) :
    ((run step t calls).runtime.resources i).alive = false := by
  refine life_invariant (fun _ _ _ => True) (I := fun r => r.alive = false) ?_
    (along_of_forall (fun t c => c.works_of_forall (fun _ _ _ => trivial) t) t calls) hsame hdead
  intro r r' hmove hr
  by_contra hne
  have halive := hmove.alive (by simpa using hne)
  rw [hr] at halive
  cases halive

/-- In every state from `t` on, the headers are those of pending events that
are not acknowledged. -/
def Unacknowledged (t : Tracked σ) (calls : List (Call σ)) (i : Fin maxResources)
    (headers : List EventHeader) : Prop :=
  ∀ front back, calls = front ++ back → ∀ x ∈ headers,
    ∃ e ∈ ((run step t front).runtime.resources i).queue.pending,
      e.header = x ∧ e.acknowledged = false

/-- **A run** keeps headers side by side as long as none is acknowledged. -/
theorem sideBySide_run (hdiscipline : ∀ i, Discipline (t.runtime.resources i).queue)
    (h : SideBySide (t.runtime.resources i).queue headers)
    (hsame : ((run step t calls).life i).serial = (t.life i).serial)
    (halive : ((run step t calls).runtime.resources i).alive = true)
    (hkept : Unacknowledged t calls i headers) :
    SideBySide ((run step t calls).runtime.resources i).queue headers := by
  induction calls generalizing t with
  | nil => exact h
  | cons c rest ih =>
    -- serial numbers only grow, so no step of the run started a new life
    have hafter := serial_le_run (step t c) rest i
    have hbefore := serial_le_run t [c] i
    rw [run_cons, run_nil] at hbefore
    rw [run_cons] at hsame halive ⊢
    have hfirst : ((step t c).life i).serial = (t.life i).serial := by omega
    have hrest : ((run step (step t c) rest).life i).serial = ((step t c).life i).serial :=
      hsame.trans hfirst.symm
    have hlives : ((step t c).runtime.resources i).alive = true := by
      by_contra hne
      have hdead := dead_run hrest (by simpa using hne)
      rw [halive] at hdead
      cases hdead
    refine ih (discipline_step hdiscipline) ?_ hrest halive ?_
    · refine sideBySide_step (hdiscipline i) h hfirst hlives fun x hx => ?_
      obtain ⟨e, he, heq, _⟩ := hkept [c] rest rfl x hx
      exact heq ▸ mem_map_of_mem he
    · rintro front back rfl x hx
      exact hkept (c :: front) back rfl x hx

end

/-- The poll that follows on `start` hands out the headers under the lease in
slot `l`. After the calls `later` session and lease are still the allocations
of the poll, and no event of the lease has been acknowledged. -/
structure Leased (start : Tracked σ) (poll : Call σ) (later : List (Call σ))
    (s l : Fin maxResources) (headers : List EventHeader) : Prop where
  polled : ∃ inst session request result written,
    poll = .pollBatch inst session request result ∧ session.resourceId = slotId s ∧
      (pollBatch start.runtime inst session request result).written = some written ∧
      written.lease = handleOf (step start poll).runtime l ∧
      headers = written.headers.take written.producedCount
  sameSession :
    ((run step (step start poll) later).life s).serial = ((step start poll).life s).serial
  sameLease :
    ((run step (step start poll) later).life l).serial = ((step start poll).life l).serial
  unacknowledged : Unacknowledged (step start poll) later s headers

variable {headers : List EventHeader}

variable {poll : Call σ} {later : List (Call σ)} {s l : Fin maxResources}

theorem Leased.delivers {start : Tracked σ} (h : Leased start poll later s l headers) :
    SideBySide ((step start poll).runtime.resources s).queue headers ∧
      (headers.head?.map EventHeader.sequence) =
        some ((step start poll).runtime.resources l).leaseFirstSequence ∧
      (headers.getLast?.map EventHeader.sequence) =
        some ((step start poll).runtime.resources l).leaseLastSequence := by
  obtain ⟨inst, session, request, result, written, rfl, hslot, hwritten, hlease, rfl⟩ := h.polled
  rcases pollBatch_cases start.runtime inst session request result with
    ⟨_, hnull⟩ | ⟨plan, l', hdelivers⟩
  · have hnone := hnull written hwritten
    rw [hlease] at hnone
    simp [handleOf, nullHandle, slotId] at hnone
  · obtain rfl := (resourceId_of_resolve hdelivers.session_resolved).1 hslot
    obtain rfl := Option.some.inj (hdelivers.written_eq.symm.trans hwritten)
    obtain rfl : l' = l := slotId_inj.1 (congrArg Handle.resourceId hlease)
    have htaken : (plan.delivered start.runtime
        (handleOf (start.runtime.allocate l' inst.instanceId .lease) l')).headers.take
          (plan.delivered start.runtime
            (handleOf (start.runtime.allocate l' inst.instanceId .lease) l')).producedCount =
        (plan.window start.runtime).map header := by
      rw [BatchPlan.delivered, take_of_length_le (by simp)]
    rw [htaken]
    have hsession := hdelivers.apply plan.session
    have hentry := hdelivers.apply l'
    rw [if_neg hdelivers.session_ne] at hsession
    rw [if_pos rfl] at hentry
    refine ⟨?_, ?_, ?_⟩
    · show SideBySide ((pollBatch start.runtime inst session request result).runtime.resources
        plan.session).queue _
      rw [hsession]
      dsimp only
      rw [if_pos rfl]
      have hsplit := congrArg (List.map header)
        ((start.runtime.resources plan.session).queue.window_split
          plan.request.arena.resourceId plan.request.arenaGeneration)
      rw [map_append, map_append] at hsplit
      exact ⟨_, _, (headers_poll _ _ _).trans hsplit⟩
    · show _ = some ((pollBatch start.runtime inst session request result).runtime.resources
        l').leaseFirstSequence
      rw [hentry]
      obtain ⟨e, rest, hwindow⟩ := exists_cons_of_ne_nil hdelivers.ready
      simp [BatchPlan.leaseEntry, BatchPlan.firstSequence, hwindow]
    · show _ = some ((pollBatch start.runtime inst session request result).runtime.resources
        l').leaseLastSequence
      rw [hentry]
      obtain ⟨front, e, hwindow⟩ := (eq_nil_or_concat _).resolve_left hdelivers.ready
      simp [BatchPlan.leaseEntry, BatchPlan.lastSequence, hwindow]

theorem EntryMove.ends {allowed : Resource → Work → Prop} {r r' : Resource}
    (h : EntryMove allowed r r') : r'.leaseFirstSequence = r.leaseFirstSequence ∧
      r'.leaseLastSequence = r.leaseLastSequence := by
  cases h <;> exact ⟨rfl, rfl⟩

theorem ends_run {t : Tracked σ} {calls : List (Call σ)} {i : Fin maxResources}
    (hsame : ((run step t calls).life i).serial = (t.life i).serial) :
    ((run step t calls).runtime.resources i).leaseFirstSequence =
        (t.runtime.resources i).leaseFirstSequence ∧
      ((run step t calls).runtime.resources i).leaseLastSequence =
        (t.runtime.resources i).leaseLastSequence := by
  refine life_invariant (fun _ _ _ => True)
    (I := fun r => r.leaseFirstSequence = (t.runtime.resources i).leaseFirstSequence ∧
      r.leaseLastSequence = (t.runtime.resources i).leaseLastSequence) ?_
    (along_of_forall (fun t c => c.works_of_forall (fun _ _ _ => trivial) t) t calls) hsame
    ⟨rfl, rfl⟩
  intro r r' hmove hr
  exact ⟨hmove.ends.1.trans hr.1, hmove.ends.2.trans hr.2⟩

/-- **The events of a lease stand side by side**, between the ends of the lease. -/
theorem leased_headers (world : σ) {front : List (Call σ)}
    (h : Leased (run step (initial world) front) poll later s l headers) :
    let t := run step (step (run step (initial world) front) poll) later
    (t.runtime.resources s).alive = true →
      Discipline (t.runtime.resources s).queue ∧
      SideBySide (t.runtime.resources s).queue headers ∧
      headers.head?.map EventHeader.sequence = some (t.runtime.resources l).leaseFirstSequence ∧
      headers.getLast?.map EventHeader.sequence =
        some (t.runtime.resources l).leaseLastSequence := by
  intro t halive
  have hpolled := discipline_step (c := poll) (discipline_run world front)
  obtain ⟨hside, hfirst, hlast⟩ := h.delivers
  obtain ⟨hfirstKept, hlastKept⟩ := ends_run h.sameLease
  have ht : t = run step (initial world) (front ++ poll :: later) := by
    rw [run_append, run_cons]
  refine ⟨ht ▸ discipline_run world _ s,
    sideBySide_run hpolled hside h.sameSession halive h.unacknowledged, ?_, ?_⟩
  · rw [hfirst, hfirstKept]
  · rw [hlast, hlastKept]

/-- **The range check** finds headers that stand side by side, and passes exactly
when their sequences are consecutive. -/
theorem checkRange_iff {q : EventQueue} {first last : ℕ}
    (hsorted : (sequencesOf q.pending).Pairwise (· < ·)) (hside : SideBySide q headers)
    (hfirst : headers.head?.map EventHeader.sequence = some first)
    (hlast : headers.getLast?.map EventHeader.sequence = some last) (hle : first ≤ last) :
    (checkRange q first last ↔ last - first + 1 = headers.length) ∧
      (q.headers.drop (pendingLowerBound q first)).take headers.length = headers := by
  obtain ⟨before, after, heq⟩ := hside
  have hsequences : sequencesOf q.pending = q.headers.map EventHeader.sequence := by
    rw [EventQueue.headers, map_map]
    rfl
  have hsome : 0 < headers.length := by
    cases headers with
    | nil => cases hfirst
    | cons x rest => exact Nat.succ_pos _
  have hatFirst : (sequencesOf q.pending)[before.length]? = some first := by
    rw [hsequences, heq, ← hfirst]
    simp [hsome, List.head?_eq_getElem?]
  have hatLast : (sequencesOf q.pending)[before.length + (headers.length - 1)]? = some last := by
    rw [hsequences, heq, ← hlast]
    have hlt : headers.length - 1 < headers.length := by omega
    simp [List.getElem?_append, hlt, List.getLast?_eq_getElem?]
  have hlowFirst := BinarySearch.lowerBound_eq hsorted hatFirst
  have hlowLast := BinarySearch.lowerBound_eq hsorted hatLast
  refine ⟨?_, ?_⟩
  · unfold checkRange pendingLowerBound
    rw [hlowFirst, hlowLast]
    constructor
    · rintro ⟨_, _, hdistance⟩
      omega
    · intro hcount
      exact ⟨hatFirst, hatLast, by omega⟩
  · rw [pendingLowerBound, hlowFirst, heq, append_assoc, drop_left, take_left]

/-- A request for the lease in slot `l` on the session in slot `s`, with the
lease's own arena, arena generation, bundle epoch and ends, that passes every
check before the one of the range. -/
structure Presents (rt : Runtime) (inst session : Handle) (request : StrictMediationRequest σ)
    (result : StrictMediationResult) (s l : Fin maxResources) : Prop where
  resolvesSession : resolve rt inst session .session = .ok s
  resolvesLease : resolve rt inst request.lease .lease = .ok l
  wellFormed : ∃ callbacks, mediationCallbacks request result = .ok callbacks ∧
    checkDurability (rt.resources s) request.durability callbacks.hasFlush = .ok ()
  binding : ∃ a, resolve rt inst request.arena .arena = .ok a ∧
    checkBinding (rt.resources s) (rt.resources l) (rt.resources a) session.resourceId request

section

variable {rt : Runtime} {inst session : Handle} {request : StrictMediationRequest σ}
  {result : StrictMediationResult} {s l : Fin maxResources}

theorem admitNonce_ne_internalInvariant {m : MediationState} {nonce : CompactId} :
    admitNonce m nonce ≠ .error .internalInvariant := by
  unfold admitNonce
  split
  · simp
  · simp
  · split <;> simp

/-- Of the checks of such a request only the one of the range fails with
INTERNAL_INVARIANT. -/
theorem Presents.admission (h : Presents rt inst session request result s l) :
    mediationAdmission rt inst session (some request) (some result) =
        .error .internalInvariant ↔
      ¬checkRange (rt.resources s).queue request.firstSequence request.lastSequence := by
  obtain ⟨callbacks, hcallbacks, hdurability⟩ := h.wellFormed
  obtain ⟨a, harena, hbinding⟩ := h.binding
  simp only [mediationAdmission, bind_eq_error, h.resolvesSession, presentElse, hcallbacks,
    hdurability, harena, h.resolvesLease, hbinding, guardElse_eq_error, guardElse_eq_ok,
    Except.ok.injEq, reduceCtorEq, false_or, exists_eq_left', pure_ne_error, and_true, and_false,
    exists_const, or_false, true_and, admitNonce_ne_internalInvariant]

theorem checkDurability_ne_error_ok {entry : Resource} {durability : Durability}
    {hasFlush : Bool} : checkDurability entry durability hasFlush ≠ .error .ok := by
  simp [checkDurability, bind_eq_error]

theorem mediationCallbacks_ne_error_ok : mediationCallbacks request result ≠ .error .ok := by
  simp [mediationCallbacks, bind_eq_error]

theorem admitNonce_ne_error_ok {m : MediationState} {nonce : CompactId} :
    admitNonce m nonce ≠ .error .ok := by
  unfold admitNonce
  split
  · simp
  · simp
  · split <;> simp

/-- No check of `strict_mediate` fails with status OK. -/
theorem mediationAdmission_ne_error_ok {request : Option (StrictMediationRequest σ)}
    {result : Option StrictMediationResult} :
    mediationAdmission rt inst session request result ≠ .error .ok := by
  simp [mediationAdmission, bind_eq_error, resolve_ne_error_ok, mediationCallbacks_ne_error_ok,
    checkDurability_ne_error_ok, admitNonce_ne_error_ok]

theorem mediationAdmission_callbacks {plan : MediationPlan σ}
    (h : mediationAdmission rt inst session (some request) (some result) = .ok plan) :
    ∃ callbacks, mediationCallbacks request result = .ok callbacks ∧
      plan.reserve = callbacks.reserve ∧ plan.execute = callbacks.execute := by
  simp only [mediationAdmission, bind_eq_ok, guardElse_eq_ok, presentElse_eq_ok, exists_const,
    pure_eq_ok, Option.some.injEq] at h
  obtain ⟨_, _, _, rfl, _, rfl, callbacks, hcallbacks, _, _, _, _, _, _, _, _, _, _, _, _, rfl⟩ := h
  exact ⟨callbacks, hcallbacks, rfl, rfl⟩

theorem Presents.status (h : Presents rt inst session request result s l) (world : σ)
    (hreserve : ∀ callbacks, mediationCallbacks request result = .ok callbacks →
      ∀ reservation world, (callbacks.reserve reservation world).1 ≠ .internalInvariant) :
    (strictMediate rt world inst session (some request) (some result)).status =
        .internalInvariant ↔
      ¬checkRange (rt.resources s).queue request.firstSequence request.lastSequence := by
  rw [← h.admission]
  rcases hadmission : mediationAdmission rt inst session (some request) (some result) with
    status | plan
  · rw [strictMediate, hadmission]
    exact ⟨fun hstatus => congrArg Except.error hstatus, Except.error.inj⟩
  · obtain ⟨callbacks, hcallbacks, hsame, _⟩ := mediationAdmission_callbacks hadmission
    have hanswer := hreserve callbacks hcallbacks (plan.reservation rt session) world
    rw [← hsame] at hanswer
    rw [strictMediate, hadmission]
    dsimp only
    split
    · simpa using hanswer
    · simp [MediationPlan.conclude]

theorem invocation_headers (world : σ) {headers : List EventHeader} {invocation : AdapterInvocation}
    (hsession : resolve rt inst session .session = .ok s)
    (hlease : resolve rt inst request.lease .lease = .ok l)
    (hdiscipline : Discipline (rt.resources s).queue)
    (hside : SideBySide (rt.resources s).queue headers)
    (hfirst : headers.head?.map EventHeader.sequence = some (rt.resources l).leaseFirstSequence)
    (hlast : headers.getLast?.map EventHeader.sequence = some (rt.resources l).leaseLastSequence)
    (h : (strictMediate rt world inst session (some request) (some result)).invocation =
      some invocation) :
    invocation.headers = headers ∧ invocation.itemCount = headers.length := by
  rcases strictMediate_cases rt world inst session (some request) (some result) with
    ⟨_, _, heq⟩ | ⟨plan, hadmission, _, heq⟩
  · rw [heq] at h
    cases h
  · rw [heq] at h
    obtain rfl := Option.some.inj h
    obtain ⟨hsession', hrequest, _, hlease', hbinding, hrange, _, _, hevent, _⟩ :=
      mediationAdmission_ok hadmission
    obtain rfl := Option.some.inj hrequest
    obtain rfl := Except.ok.inj (hsession.symm.trans hsession')
    obtain rfl := Except.ok.inj (hlease.symm.trans hlease')
    obtain ⟨_, _, _, _, _, hle, hfirst', hlast'⟩ := hbinding
    rw [hfirst'] at hfirst
    rw [hlast'] at hlast
    obtain ⟨hcheck, htaken⟩ := checkRange_iff hdiscipline.sorted hside hfirst hlast hle
    have hcount := hcheck.1 hrange
    refine ⟨?_, hcount⟩
    rw [MediationPlan.invocation]
    dsimp only
    rw [hevent, hcount, map_take, map_drop]
    exact htaken

end

/-- **Mediations of a lease**: while none of its events has been acknowledged, a
request with the lease's own values is refused with INTERNAL_INVARIANT exactly
when the sequences of the events are not consecutive; and what the adapter is
executed with are the events of the lease. -/
theorem mediation_accepts_iff (world : σ) {front later : List (Call σ)} {poll : Call σ}
    {s l : Fin maxResources} {headers : List EventHeader}
    (hleased : Leased (run step (Tracked.initial world) front) poll later s l headers)
    {inst session : Handle} {request : StrictMediationRequest σ} {result : StrictMediationResult}
    (hpresents : Presents (run step (step (run step (Tracked.initial world) front) poll)
      later).runtime inst session request result s l) :
    let t := run step (step (run step (Tracked.initial world) front) poll) later
    ((∀ callbacks, mediationCallbacks request result = .ok callbacks →
        ∀ reservation world, (callbacks.reserve reservation world).1 ≠ .internalInvariant) →
      ((strictMediate t.runtime t.world inst session (some request) (some result)).status ≠
          .internalInvariant ↔
        (t.runtime.resources l).leaseLastSequence - (t.runtime.resources l).leaseFirstSequence +
          1 = headers.length)) ∧
    ∀ invocation,
      (strictMediate t.runtime t.world inst session (some request) (some result)).invocation =
        some invocation →
      invocation.headers = headers ∧ invocation.itemCount = headers.length := by
  intro t
  have halive := (resolve_eq_ok.1 hpresents.resolvesSession).2.2.2.2.2.1
  obtain ⟨hdiscipline, hside, hfirst, hlast⟩ := leased_headers world hleased halive
  refine ⟨?_, ?_⟩
  · intro hreserve
    obtain ⟨_, _, _, _, _, _, _, hle, hfirst', hlast'⟩ := hpresents.binding
    rw [Ne, hpresents.status _ hreserve, not_not]
    have hcheck := (checkRange_iff hdiscipline.sorted hside hfirst hlast
      (by rw [hfirst', hlast']; exact hle)).1
    rw [← hfirst', ← hlast']
    exact hcheck
  · intro invocation
    exact invocation_headers _ hpresents.resolvesSession hpresents.resolvesLease hdiscipline
      hside hfirst hlast

/-- Publish the sequences `first` and `second`, poll both, and mediate the
lease. -/
def pairMediated (first second : ℕ) : List (Call Unit) × Call Unit × StrictMediationRequest Unit :=
  let it : Installation := {}
  (it.setUp ++ [it.publish first 1, it.publish second 1], it.poll,
    { durability := .strict
      arena := it.arena
      lease := Installation.lease 1
      arenaGeneration := it.arenaGeneration
      bundleEpoch := 7
      firstSequence := first
      lastSequence := second
      nonce := { low := 1 }
      semanticRoot := .filled 9
      beforeExecutionRoot := .zero
      adapter := some { execute := some fun _ => .done .ok { outcome := .committed } }
      evidence := some (Installation.sink (.filled 2)) })

def pairPublished (first second : ℕ) : Tracked Unit :=
  run step (Tracked.initial ()) (pairMediated first second).1

theorem leased_pair (first second : ℕ)
    (hpolled : (pollBatch (pairPublished first second).runtime ⟨1, 1, 1, .instance_⟩
        ⟨1, 4, 1, .session⟩
        (some {
          arena := ⟨1, 5, 1, .arena⟩
          arenaGeneration := 1
          headerCapacity := 8
          payloadCapacity := 128 })
        (some {})).written.map (fun r => (r.lease, r.headers.take r.producedCount)) =
      some (handleOf (step (pairPublished first second) (pairMediated first second).2.1).runtime 5,
        [Installation.header first, Installation.header second]))
    (hkept : ∀ x ∈ [Installation.header first, Installation.header second],
      ∃ e ∈ ((step (pairPublished first second)
        (pairMediated first second).2.1).runtime.resources 3).queue.pending,
        e.header = x ∧ e.acknowledged = false) :
    Leased (pairPublished first second) (pairMediated first second).2.1 [] 3 5
      [Installation.header first, Installation.header second] := by
  obtain ⟨written, hwritten, heq⟩ := Option.map_eq_some_iff.1 hpolled
  obtain ⟨hlease, hheaders⟩ := Prod.mk.inj heq
  refine ⟨⟨_, _, _, _, written, rfl, rfl, hwritten, hlease, hheaders.symm⟩, rfl, rfl, ?_⟩
  intro front back hnil
  obtain ⟨rfl, rfl⟩ := append_eq_nil_iff.1 hnil.symm
  rw [run_nil]
  exact hkept

theorem consecutive_pair_accepted :
    let t := run step (step (pairPublished 5 6) (pairMediated 5 6).2.1) []
    (strictMediate t.runtime t.world ⟨1, 1, 1, .instance_⟩ ⟨1, 4, 1, .session⟩
      (some (pairMediated 5 6).2.2) (some {})).status ≠ .internalInvariant := by
  have hleased := leased_pair 5 6 (by decide +kernel) (by decide +kernel)
  have hpresents : Presents (run step (step (pairPublished 5 6) (pairMediated 5 6).2.1) []).runtime
      ⟨1, 1, 1, .instance_⟩ ⟨1, 4, 1, .session⟩ (pairMediated 5 6).2.2 {} 3 5 :=
    ⟨by decide +kernel, by decide +kernel, ⟨_, rfl, by decide +kernel⟩,
      ⟨4, by decide +kernel, by decide +kernel⟩⟩
  refine ((mediation_accepts_iff () hleased hpresents).1 ?_).2 (by decide +kernel)
  intro callbacks hcallbacks reservation world
  obtain rfl := Except.ok.inj hcallbacks
  exact (by decide : Status.ok ≠ .internalInvariant)

/-- **The condition is needed**: the lease of events five and seven is refused. -/
theorem lease_with_gap_refused :
    ¬∀ (front later : List (Call Unit)) (poll : Call Unit) (s l : Fin maxResources)
      (headers : List EventHeader) (inst session : Handle)
      (request : StrictMediationRequest Unit) (result : StrictMediationResult),
      let t := run step (step (run step (Tracked.initial ()) front) poll) later
      Leased (run step (Tracked.initial ()) front) poll later s l headers →
      Presents t.runtime inst session request result s l →
      (t.runtime.resources s).state = .opened →
      (strictMediate t.runtime t.world inst session (some request) (some result)).status ≠
        .internalInvariant := by
  intro h
  have hleased := leased_pair 5 7 (by decide +kernel) (by decide +kernel)
  have hstatus := h (pairMediated 5 7).1 [] (pairMediated 5 7).2.1 3 5 _ ⟨1, 1, 1, .instance_⟩
    ⟨1, 4, 1, .session⟩ (pairMediated 5 7).2.2 {} hleased
    ⟨by decide +kernel, by decide +kernel, ⟨_, rfl, by decide +kernel⟩,
      ⟨4, by decide +kernel, by decide +kernel⟩⟩ (by decide +kernel)
  exact absurd hstatus (by decide +kernel)

end PooFlow
