import PooFlow.Runtime.EntryMoves
import PooFlow.Runtime.Ranges

namespace PooFlow

open Foundation List EventQueue PendingEvent

variable {σ : Type}

/-- **Queue discipline**: order, cursor, flags and room of a queue. -/
structure Discipline (q : EventQueue) : Prop where
  sorted : (sequencesOf q.pending).Pairwise (· < ·)
  polled_before : ∀ e ∈ q.pending.take q.pollCursor, e.polled = true
  unpolled_after : ∀ e ∈ q.pending.drop q.pollCursor, e.polled = false
  accepted_polled : ∀ e ∈ q.pending, e.accepted = true → e.polled = true
  acknowledged_accepted : ∀ e ∈ q.pending, e.acknowledged = true → e.accepted = true
  within_capacity : q.pending.length ≤ q.capacity
  cursor_within : 0 < q.capacity → q.pollCursor ≤ q.pending.length

def EventQueue.unhanded (q : EventQueue) : List EventHeader :=
  (q.pending.drop q.pollCursor).map PendingEvent.header

section

variable {q : EventQueue}

theorem Discipline.tidy (h : Discipline q) : Tidy q where
  sorted := h.sorted
  accepted_polled := h.accepted_polled
  acknowledged_polled := fun e he hacknowledged =>
    h.accepted_polled e he (h.acknowledged_accepted e he hacknowledged)

theorem Discipline.empty (hpending : q.pending = []) (hcursor : 0 < q.capacity → q.pollCursor = 0) :
    Discipline q where
  sorted := by rw [hpending]; exact List.Pairwise.nil
  polled_before := by simp [hpending]
  unpolled_after := by simp [hpending]
  accepted_polled := by simp [hpending]
  acknowledged_accepted := by simp [hpending]
  within_capacity := by simp [hpending]
  cursor_within := fun hcapacity => by rw [hcursor hcapacity]; exact Nat.zero_le _

theorem Discipline.untouched_after (h : Discipline q) {e : PendingEvent}
    (he : e ∈ q.pending.drop q.pollCursor) : e.accepted = false ∧ e.acknowledged = false := by
  have hunpolled := h.unpolled_after e he
  have hmem := mem_of_mem_drop he
  have haccepted : e.accepted = false := by
    by_contra hne
    have := h.accepted_polled e hmem (by simpa using hne)
    rw [hunpolled] at this
    cases this
  refine ⟨haccepted, ?_⟩
  by_contra hne
  have := h.acknowledged_accepted e hmem (by simpa using hne)
  rw [haccepted] at this
  cases this

variable {headers : List EventHeader}

theorem Discipline.cursor_of_room (h : Discipline q)
    (hroom : headers.length ≤ q.capacity - q.pending.length) (hsome : headers ≠ []) :
    q.pollCursor ≤ q.pending.length := by
  apply h.cursor_within
  have := length_pos_iff.2 hsome
  omega

theorem Discipline.publish (h : Discipline q) {arenaCapacity arenaId arenaGeneration : ℕ}
    (hroom : headers.length ≤ q.capacity - q.pending.length)
    (hcheck : checkPublish arenaCapacity q.lastSequence? headers = .ok ()) :
    Discipline (q.publish arenaId arenaGeneration headers) := by
  by_cases hnone : headers = []
  · subst hnone
    simpa [publish] using h
  have hcursor := h.cursor_of_room hroom hnone
  have htidy : Tidy (q.publish arenaId arenaGeneration headers) := h.tidy.publish hcheck
  refine ⟨htidy.sorted, ?_, ?_, htidy.accepted_polled, ?_, ?_, ?_⟩
  · intro e he
    rw [EventQueue.publish] at he
    dsimp only at he
    rw [take_append_of_le_length hcursor] at he
    exact h.polled_before e he
  · intro e he
    rw [EventQueue.publish] at he
    dsimp only at he
    rw [drop_append_of_le_length hcursor] at he
    rcases mem_append.1 he with hold | hnew
    · exact h.unpolled_after e hold
    · obtain ⟨header, _, rfl⟩ := mem_map.1 hnew
      rfl
  · intro e he hacknowledged
    rcases mem_append.1 he with hold | hnew
    · exact h.acknowledged_accepted e hold hacknowledged
    · obtain ⟨header, _, rfl⟩ := mem_map.1 hnew
      cases hacknowledged
  · have hcapacity := h.within_capacity
    simp only [EventQueue.publish, length_append, length_map]
    omega
  · intro _
    simp only [EventQueue.publish, length_append]
    omega

theorem Discipline.unhanded_publish (h : Discipline q) (arenaId arenaGeneration : ℕ)
    (hroom : headers.length ≤ q.capacity - q.pending.length) :
    (q.publish arenaId arenaGeneration headers).unhanded = q.unhanded ++ headers := by
  by_cases hnone : headers = []
  · subst hnone
    simp [EventQueue.publish, EventQueue.unhanded]
  · have hcursor := h.cursor_of_room hroom hnone
    simp only [EventQueue.publish, EventQueue.unhanded]
    rw [drop_append_of_le_length hcursor, map_append, map_map]
    congr 1
    exact map_id headers

variable (arenaId arenaGeneration : ℕ)

theorem window_prefix : q.window arenaId arenaGeneration <+: q.pending.drop q.pollCursor :=
  takeWhile_prefix _

theorem poll_split :
    (q.poll arenaId arenaGeneration).pending.take (q.poll arenaId arenaGeneration).pollCursor =
        q.pending.take q.pollCursor ++
          (q.window arenaId arenaGeneration).map (fun e : PendingEvent => { e with polled := true }) ∧
      (q.poll arenaId arenaGeneration).pending.drop (q.poll arenaId arenaGeneration).pollCursor =
        q.pending.drop (q.pollCursor + (q.window arenaId arenaGeneration).length) := by
  have hfront : (q.pending.take q.pollCursor ++
      (q.window arenaId arenaGeneration).map (fun e : PendingEvent =>
        { e with polled := true })).length =
        q.pollCursor + (q.window arenaId arenaGeneration).length ∨
      (q.window arenaId arenaGeneration = [] ∧ q.pending.length ≤ q.pollCursor) := by
    by_cases hcursor : q.pollCursor ≤ q.pending.length
    · left
      simp [hcursor]
    · right
      have hbeyond : q.pending.length ≤ q.pollCursor := by omega
      refine ⟨?_, hbeyond⟩
      rw [window, drop_eq_nil_of_le hbeyond]
      rfl
  rcases hfront with hlength | ⟨hwindow, hbeyond⟩
  · simp only [poll]
    rw [← hlength, take_left, drop_left]
    exact ⟨rfl, rfl⟩
  · have hnone : q.pending.drop q.pollCursor = [] := drop_eq_nil_of_le hbeyond
    simp [poll, hwindow, take_of_length_le hbeyond, hnone]

theorem poll_length : (q.poll arenaId arenaGeneration).pending.length = q.pending.length :=
  (q.poll_events arenaId arenaGeneration).length_eq.symm

theorem Discipline.poll (h : Discipline q) : Discipline (q.poll arenaId arenaGeneration) := by
  obtain ⟨hbefore, hafter⟩ := poll_split (q := q) arenaId arenaGeneration
  have htidy := h.tidy.poll arenaId arenaGeneration
  refine ⟨htidy.sorted, ?_, ?_, htidy.accepted_polled, ?_, ?_, ?_⟩
  · intro e he
    rw [hbefore] at he
    rcases mem_append.1 he with hold | hnew
    · exact h.polled_before e hold
    · obtain ⟨e₀, _, rfl⟩ := mem_map.1 hnew
      rfl
  · intro e he
    rw [hafter] at he
    exact h.unpolled_after e (drop_subset_drop_left _ (Nat.le_add_right _ _) he)
  · intro e he hacknowledged
    obtain ⟨e₀, he₀, hsame⟩ := forall₂_mem_right (q.poll_events arenaId arenaGeneration) he
    obtain ⟨_, haccepted, hack⟩ := hsame.polls_same
    rw [haccepted]
    exact h.acknowledged_accepted e₀ he₀ (hack ▸ hacknowledged)
  · rw [poll_length]
    exact h.within_capacity
  · intro hcapacity
    have hcursor := h.cursor_within hcapacity
    have hwindow := ( window_prefix (q := q) arenaId arenaGeneration).length_le
    rw [length_drop] at hwindow
    rw [poll_length]
    simp only [EventQueue.poll]
    omega

theorem unhanded_poll : q.unhanded = (q.window arenaId arenaGeneration).map PendingEvent.header ++
      (q.poll arenaId arenaGeneration).unhanded := by
  obtain ⟨rest, hrest⟩ := window_prefix (q := q) arenaId arenaGeneration
  have hafter := (poll_split (q := q) arenaId arenaGeneration).2
  rw [unhanded, unhanded, hafter, ← drop_drop, ← hrest, drop_left, map_append]

variable {arenaId arenaGeneration} {q' : EventQueue}

theorem Discipline.accepts (h : Discipline q)
    (hevents : List.Forall₂ (Restamped Accepts) q.pending q'.pending)
    (hcursor : q'.pollCursor = q.pollCursor) (hcapacity : q'.capacity = q.capacity) :
    Discipline q' := by
  have htidy := h.tidy.accepts hevents
  refine ⟨htidy.sorted, ?_, ?_, htidy.accepted_polled, ?_, ?_, ?_⟩
  · intro e he
    rw [hcursor] at he
    obtain ⟨e₀, he₀, hsame⟩ := forall₂_mem_right (forall₂_take q.pollCursor hevents) he
    rw [hsame.accepts_same.2.1]
    exact h.polled_before e₀ he₀
  · intro e he
    rw [hcursor] at he
    obtain ⟨e₀, he₀, hsame⟩ := forall₂_mem_right (forall₂_drop q.pollCursor hevents) he
    rw [hsame.accepts_same.2.1]
    exact h.unpolled_after e₀ he₀
  · intro e he hacknowledged
    obtain ⟨e₀, he₀, hsame⟩ := forall₂_mem_right hevents he
    rcases hsame with rfl | ⟨_, _, rfl⟩
    · exact h.acknowledged_accepted e he₀ hacknowledged
    · rfl
  · rw [hcapacity, ← hevents.length_eq]
    exact h.within_capacity
  · rw [hcapacity, hcursor, ← hevents.length_eq]
    exact h.cursor_within

theorem unhanded_of_events {R : PendingEvent → PendingEvent → Prop}
    (hR : ∀ a b, R a b → b.header = a.header)
    (hevents : List.Forall₂ R q.pending q'.pending) (hcursor : q'.pollCursor = q.pollCursor) :
    q'.unhanded = q.unhanded := by
  have hbehind := forall₂_drop q.pollCursor hevents
  rw [unhanded, unhanded, hcursor]
  generalize q.pending.drop q.pollCursor = before, q'.pending.drop q.pollCursor = after at hbehind
  induction hbehind with
  | nil => rfl
  | cons hab _ ih => rw [map_cons, map_cons, hR _ _ hab, ih]

theorem Discipline.consumed_le (h : Discipline q) {arenaId first last consumed : ℕ}
    (hlength : consumed ≤ q.pending.length) (hconsumed : ∀ e ∈ q.pending.take consumed,
      (e.acknowledge arenaId first last).acknowledged = true) : consumed ≤ q.pollCursor := by
  by_contra hbeyond
  have hat : q.pollCursor < q.pending.length := by omega
  have hbehind : q.pending[q.pollCursor] ∈ q.pending.drop q.pollCursor := by
    rw [drop_eq_getElem_cons hat]
    exact mem_cons_self
  have hbefore : q.pending[q.pollCursor] ∈ q.pending.take consumed := by
    rw [mem_take_iff_getElem]
    exact ⟨q.pollCursor, by omega, rfl⟩
  obtain ⟨haccepted, hunacknowledged⟩ := h.untouched_after hbehind
  have hmarked := hconsumed _ hbefore
  rw [PendingEvent.acknowledge, if_neg (by simp [haccepted]), hunacknowledged] at hmarked
  cases hmarked

theorem acknowledge_header (arenaId first last : ℕ) (e : PendingEvent) :
    (e.acknowledge arenaId first last).header = e.header :=
  (acknowledge_same arenaId first last e).1.header

theorem Discipline.acknowledge (h : Discipline q) (arenaId first last : ℕ) :
    Discipline (q.acknowledge arenaId first last) := by
  obtain ⟨consumed, hpending, hcursor, hlength, hconsumed⟩ :=
    acknowledge_events q arenaId first last
  have hle := h.consumed_le hlength hconsumed
  have htidy := h.tidy.acknowledge arenaId first last
  refine ⟨htidy.sorted, ?_, ?_, htidy.accepted_polled, ?_, ?_, ?_⟩
  · intro e he
    rw [hpending, hcursor, ← map_take] at he
    obtain ⟨e₀, he₀, rfl⟩ := mem_map.1 he
    rw [(acknowledge_same arenaId first last e₀).2.1]
    apply h.polled_before
    rw [← drop_take] at he₀
    exact mem_of_mem_drop he₀
  · intro e he
    rw [hpending, hcursor, ← map_drop, drop_drop, Nat.add_sub_cancel' hle] at he
    obtain ⟨e₀, he₀, rfl⟩ := mem_map.1 he
    rw [(acknowledge_same arenaId first last e₀).2.1]
    exact h.unpolled_after e₀ he₀
  · intro e he hacknowledged
    rw [hpending] at he
    obtain ⟨e₀, he₀, rfl⟩ := mem_map.1 he
    rw [(acknowledge_same arenaId first last e₀).2.2]
    unfold PendingEvent.acknowledge at hacknowledged
    split at hacknowledged
    · next hmarked => exact hmarked.1
    · exact h.acknowledged_accepted e₀ (mem_of_mem_drop he₀) hacknowledged
  · have hcapacity := h.within_capacity
    rw [hpending, length_map, length_drop]
    change _ ≤ q.capacity
    omega
  · intro hcapacity
    have hwithin := h.cursor_within hcapacity
    rw [hpending, hcursor, length_map, length_drop]
    omega

theorem Discipline.unhanded_acknowledge (h : Discipline q) (arenaId first last : ℕ) :
    (q.acknowledge arenaId first last).unhanded = q.unhanded := by
  obtain ⟨consumed, hpending, hcursor, hlength, hconsumed⟩ :=
    acknowledge_events q arenaId first last
  have hle := h.consumed_le hlength hconsumed
  rw [unhanded, unhanded, hpending, hcursor, ← map_drop,
    drop_drop, Nat.add_sub_cancel' hle, map_map]
  exact map_congr_left fun e _ => acknowledge_header arenaId first last e

variable {allowed : Resource → Work → Prop}

/-- **Every move keeps the discipline.** -/
theorem Discipline.move {r r' : Resource}
    (hmove : EntryMove allowed r r') (h : Discipline r.queue) : Discipline r'.queue := by
  cases hmove with
  | released | releasedArena | settled =>
    exact .empty rfl fun hcapacity => absurd hcapacity (lt_irrefl 0)
  | published arenaId arenaGeneration hroom hcheck hallowed => exact h.publish hroom hcheck
  | polled arenaId arenaGeneration hallowed => exact h.poll arenaId arenaGeneration
  | submitted arenaId arenaGeneration hcheck hallowed =>
    exact h.accepts (submit_events _ _ _ _) rfl rfl
  | acknowledged arenaId first last => exact h.acknowledge arenaId first last
  | _ => exact h

end

theorem discipline_step {t : Tracked σ} {c : Call σ}
    (h : ∀ i, Discipline (t.runtime.resources i).queue) (i : Fin maxResources) :
    Discipline ((step t c).runtime.resources i).queue := by
  have hstep := entry_step i t c (c.works_of_forall (fun _ _ _ => trivial) t)
  generalize (step t c).runtime.resources i = r' at hstep ⊢
  cases hstep with
  | renewed hfree hdresses => exact .empty hdresses.pending fun _ => hdresses.pollCursor
  | moved hmoves =>
    exact hmoves.invariant (I := fun r => Discipline r.queue) (fun _ _ => Discipline.move) (h i)

theorem discipline_run (world : σ) (calls : List (Call σ)) (i : Fin maxResources) :
    Discipline ((run step (Tracked.initial world) calls).runtime.resources i).queue :=
  run_invariant (I := fun t : Tracked σ => ∀ i, Discipline (t.runtime.resources i).queue)
    (fun _ _ => discipline_step) (fun _ => .empty rfl fun _ => rfl) calls i

structure Delivery where
  published : List EventHeader := []
  handedOut : List EventHeader := []

namespace Delivery

variable (i : Fin maxResources)

def carry (before after : Resource) (d : Delivery) : Delivery :=
  if after.generation = before.generation then d else {}

def logPublication (session : Handle) (request : Option PublishRequest)
    (o : Outcome PublishResult) (d : Delivery) : Delivery :=
  if o.status = .ok ∧ session.resourceId = slotId i then
    { d with published := d.published ++ request.elim [] PublishRequest.items }
  else d

/-- The events of a poll are the first `produced_count` of its buffer. -/
def logPoll (session : Handle) (o : Outcome PollResult) (d : Delivery) : Delivery :=
  if o.status = .ok ∧ session.resourceId = slotId i then
    { d with
      handedOut := d.handedOut ++ o.written.elim [] fun r => r.headers.take r.producedCount }
  else d

end Delivery

/-- What a call adds to the deliveries of slot `i`. -/
def Call.deliver (t : Tracked σ) (i : Fin maxResources) (d : Delivery) : Call σ → Delivery
  | .publishBatch inst session request result =>
    d.logPublication i session request
      (PooFlow.publishBatch t.runtime inst session request result)
  | .pollBatch inst session request result =>
    d.logPoll i session (PooFlow.pollBatch t.runtime inst session request result)
  | _ => d

structure Delivering (σ : Type) where
  state : Tracked σ
  delivery : Fin maxResources → Delivery := fun _ => {}

def deliveryStep (d : Delivering σ) (c : Call σ) : Delivering σ where
  state := step d.state c
  delivery := fun i => c.deliver d.state i
    ((d.delivery i).carry (d.state.runtime.resources i) ((step d.state c).runtime.resources i))

/-- **Delivery invariant**: what was handed out and what is behind the cursor
are the publications, until the queue is released. -/
def Delivered (q : EventQueue) (d : Delivery) : Prop :=
  d.handedOut ++ q.unhanded = d.published ∨
    q.pending = [] ∧ q.capacity = 0 ∧ d.handedOut <+: d.published

variable {q : EventQueue} {d : Delivery} {r : Resource}

section

variable (h : Delivered q d)

include h

theorem Delivered.prefix : d.handedOut <+: d.published := by
  rcases h with h | ⟨_, _, h⟩
  · exact ⟨_, h⟩
  · exact h

theorem Delivered.release (hpending : q'.pending = [])
    (hcapacity : q'.capacity = 0) : Delivered q' d :=
  Or.inr ⟨hpending, hcapacity, h.prefix⟩

theorem Delivered.keep (hunhanded : q'.unhanded = q.unhanded)
    (hcapacity : q'.capacity = q.capacity) (hpending : q.pending = [] → q'.pending = []) :
    Delivered q' d := by
  rcases h with h | ⟨hempty, hzero, h⟩
  · exact Or.inl (hunhanded ▸ h)
  · exact Or.inr ⟨hpending hempty, hcapacity.trans hzero, h⟩

theorem Delivered.publish (hdiscipline : Discipline q) (arenaId arenaGeneration : ℕ)
    {headers : List EventHeader} (hroom : headers.length ≤ q.capacity - q.pending.length) :
    Delivered (q.publish arenaId arenaGeneration headers)
      { d with published := d.published ++ headers } := by
  rcases h with h | ⟨hempty, hzero, h⟩
  · left
    dsimp only
    rw [hdiscipline.unhanded_publish arenaId arenaGeneration hroom, ← append_assoc, h]
  · have hnone : headers = [] := by
      rw [hzero, Nat.zero_sub] at hroom
      exact length_eq_zero_iff.1 (Nat.le_zero.1 hroom)
    subst hnone
    right
    simpa [EventQueue.publish, hempty, hzero] using h

theorem Delivered.poll (arenaId arenaGeneration : ℕ) : Delivered (q.poll arenaId arenaGeneration)
      { d with
        handedOut := d.handedOut ++
          (q.window arenaId arenaGeneration).map header } := by
  rcases h with h | ⟨hempty, hzero, h⟩
  · left
    dsimp only
    rw [append_assoc, ← unhanded_poll, h]
  · right
    simpa [EventQueue.poll, EventQueue.window, hempty, hzero] using h

end

theorem Delivered.move {r' : Resource}
    (hmove : EntryMove allowed r r') (hdiscipline : Discipline r.queue)
    (hpublish : ∀ r headers, ¬allowed r (.publish headers)) (hpoll : ∀ r, ¬allowed r .poll)
    (h : Delivered r.queue d) : Delivered r'.queue d := by
  cases hmove with
  | released | releasedArena | settled => exact h.release rfl rfl
  | published arenaId arenaGeneration hroom hcheck hallowed => exact absurd hallowed (hpublish _ _)
  | polled arenaId arenaGeneration hallowed => exact absurd hallowed (hpoll _)
  | submitted arenaId arenaGeneration hcheck hallowed =>
    have hevents := submit_events r.queue arenaId arenaGeneration
      (by assumption)
    refine h.keep (unhanded_of_events (fun a b hab => hab.accepts_same.1.header) hevents rfl)
      rfl fun hempty => ?_
    have hlength := hevents.length_eq
    rw [hempty] at hlength
    exact length_eq_zero_iff.1 hlength.symm
  | acknowledged arenaId first last =>
    refine h.keep (hdiscipline.unhanded_acknowledge arenaId first last) rfl fun hempty => ?_
    simp [EventQueue.acknowledge, hempty]
  | _ => exact h

structure Disciplined (r : Resource) (d : Delivery) : Prop where
  discipline : Discipline r.queue
  delivered : Delivered r.queue d

theorem Delivery.carry_of_same {before after : Resource} (d : Delivery)
    (h : after.generation = before.generation) : d.carry before after = d := if_pos h

/-- A new allocation has published nothing. -/
theorem disciplined_renewed {entry : Resource} {instanceId : ℕ} {kind : Kind}
    (hdresses : Dresses (r.fresh instanceId kind) entry) (d : Delivery) :
    Disciplined entry (d.carry r entry) := by
  refine ⟨.empty hdresses.pending fun _ => hdresses.pollCursor, ?_⟩
  rw [Delivery.carry, if_neg (hdresses.generation ▸ nextGeneration_ne _)]
  left
  simp [unhanded, hdresses.pending]

def Quietly (_ : Fin maxResources) (_ : Resource) : Work → Prop
  | .publish _ | .poll => False
  | _ => True

theorem disciplined_step {r' : Resource} {i : Fin maxResources} (hstep : EntryStep (Quietly i) r r')
    (h : Disciplined r d) : Disciplined r' (d.carry r r') := by
  cases hstep with
  | renewed hfree hdresses => exact disciplined_renewed hdresses d
  | moved hmoves =>
    rw [Delivery.carry_of_same d hmoves.keeps.generation]
    refine hmoves.invariant (I := fun r' => Disciplined r' d) (fun a b hmove hab => ?_) h
    exact ⟨hab.discipline.move hmove,
      hab.delivered.move hmove hab.discipline (fun _ _ => id) (fun _ => id)⟩

section

variable {t : Tracked σ} {d : Delivery} (i : Fin maxResources)

theorem disciplined_publish (inst session : Handle) (request : Option PublishRequest)
    (result : Option PublishResult) (h : Disciplined (t.runtime.resources i) d) :
    Disciplined ((publishBatch t.runtime inst session request result).runtime.resources i)
      (d.logPublication i session request
        (publishBatch t.runtime inst session request result)) := by
  rcases Outcome.ofAdmission_eq t.runtime (publishAdmission t.runtime inst session request result)
    (·.publish t.runtime) with ⟨status, herror, heq⟩ | ⟨plan, hadmission, heq⟩
  · have hne : status ≠ .ok := fun h => publishAdmission_ne_error_ok (h ▸ herror)
    rw [publishBatch, heq, Delivery.logPublication, if_neg (fun h => hne h.1)]
    exact h
  · obtain ⟨hsession, rfl, _, hroom, hcheck⟩ := publishAdmission_ok hadmission
    have hcount : plan.request.items.length ≤
        (t.runtime.resources plan.session).queue.capacity -
          (t.runtime.resources plan.session).queue.pending.length := by
      simpa [PublishRequest.items, viewHeaders] using hroom
    rw [publishBatch, heq]
    simp only [Delivery.logPublication, BatchPlan.publish, Outcome.accepted_status, true_and,
      resourceId_of_resolve hsession, Outcome.accepted_runtime, Runtime.modify_apply]
    split
    · next hi =>
      subst hi
      exact ⟨h.discipline.publish hcount hcheck, h.delivered.publish h.discipline _ _ hcount⟩
    · exact h

variable {inst session : Handle} {request : Option PollRequest} {result : Option PollResult}

theorem pollBatch_count {rt : Runtime} {r : PollResult}
    (hwritten : (pollBatch rt inst session request result).written = some r)
    (hnull : r.lease = nullHandle) : r.producedCount = 0 := by
  rcases hadmission : pollAdmission rt inst session request result with status | plan
  · rw [pollBatch, hadmission] at hwritten
    cases hwritten
  · rw [pollBatch, hadmission] at hwritten
    dsimp only [Outcome.ofAdmission, BatchPlan.poll] at hwritten
    split at hwritten
    · cases hwritten
      rfl
    · split at hwritten
      · cases hwritten
        rfl
      · cases hwritten
        simp [BatchPlan.delivered, handleOf, nullHandle, slotId] at hnull

theorem disciplined_poll (h : Disciplined (t.runtime.resources i) d) :
    Disciplined ((pollBatch t.runtime inst session request result).runtime.resources i)
      ((d.carry (t.runtime.resources i)
        ((pollBatch t.runtime inst session request result).runtime.resources i)).logPoll i session
          (pollBatch t.runtime inst session request result)) := by
  rcases pollBatch_cases t.runtime inst session request result with
    ⟨heq, hnull⟩ | ⟨plan, l, hdelivers⟩
  · have hnone : (pollBatch t.runtime inst session request result).written.elim []
        (fun r => r.headers.take r.producedCount) = [] := by
      cases hwritten : (pollBatch t.runtime inst session request result).written with
      | none => rfl
      | some r => simp [pollBatch_count hwritten (hnull r hwritten)]
    rw [heq, Delivery.carry_of_same d rfl, Delivery.logPoll, hnone, append_nil, ite_self]
    exact h
  · rw [hdelivers.apply i]
    have hnot : session.resourceId = slotId i ↔ i = plan.session :=
      resourceId_of_resolve hdelivers.session_resolved
    by_cases hil : i = l
    · have hne : i ≠ plan.session := hil ▸ hdelivers.session_ne.symm
      rw [if_pos hil, Delivery.logPoll, if_neg (fun h => hne (hnot.1 h.2))]
      subst hil
      exact disciplined_renewed (dresses_lease plan t.runtime _ _ _) d
    · rw [if_neg hil, Delivery.carry_of_same, Delivery.logPoll, hdelivers.status_eq,
        hdelivers.written_eq]
      swap
      · rfl
      refine ⟨?_, ?_⟩
      all_goals dsimp only
      all_goals by_cases his : i = plan.session
      · rw [if_pos his]
        exact h.discipline.poll _ _
      · rw [if_neg his]
        exact h.discipline
      · rw [if_pos his, if_pos ⟨rfl, hnot.2 his⟩]
        subst his
        have hheaders : (plan.delivered t.runtime
            (handleOf (t.runtime.allocate l inst.instanceId .lease) l)).headers.take
              (plan.window t.runtime).length =
            (plan.window t.runtime).map header := by
          rw [BatchPlan.delivered, take_of_length_le (by simp)]
        have hpoll := h.delivered.poll plan.request.arena.resourceId plan.request.arenaGeneration
        change Delivered _ { d with
          handedOut := d.handedOut ++ (plan.window t.runtime).map header } at hpoll
        rw [← hheaders] at hpoll
        exact hpoll
      · rw [if_neg his, if_neg (fun h => his (hnot.1 h.2))]
        exact h.delivered

end

/-- **One call.** -/
theorem disciplined_call {d : Delivering σ} (c : Call σ)
    (h : ∀ i, Disciplined (d.state.runtime.resources i) (d.delivery i)) (i : Fin maxResources) :
    Disciplined ((deliveryStep d c).state.runtime.resources i) ((deliveryStep d c).delivery i) := by
  by_cases hquiet : c.Works Quietly d.state ∧ ∀ life, c.deliver d.state i life = life
  · have hstep := disciplined_step (entry_step i d.state c hquiet.1) (h i)
    have hdelivery : (deliveryStep d c).delivery i = (d.delivery i).carry
      (d.state.runtime.resources i) ((step d.state c).runtime.resources i) := hquiet.2 _
    rw [hdelivery]
    exact hstep
  · cases c with
    | publishBatch inst session request result =>
      have hcarry : (d.delivery i).carry (d.state.runtime.resources i)
          ((publishBatch d.state.runtime inst session request result).runtime.resources i) =
            d.delivery i :=
        Delivery.carry_of_same _ (answer_keeps
          (c := .publishBatch inst session request result) trivial _ d.state.world i).generation
      have hpublish := disciplined_publish (t := d.state) i inst session request result (h i)
      rw [← hcarry] at hpublish
      exact hpublish
    | pollBatch inst session request result => exact disciplined_poll i (h i)
    | strictMediate =>
      refine absurd ⟨fun _ _ => ⟨trivial, fun _ => ?_⟩, fun _ => rfl⟩ hquiet
      exact AdapterProgram.works_of_submit (fun _ _ => trivial) _ _
    | _ => exact absurd ⟨by simp [Call.Works, Quietly], fun _ => rfl⟩ hquiet

theorem disciplined_initial (i : Fin maxResources) : Disciplined (Runtime.initial.resources i) {} :=
  ⟨.empty rfl fun _ => rfl, Or.inl rfl⟩

/-- **Queue discipline** of every session in every run, with any handles: the
invariant of its queue; and its polls have handed out a prefix of what was
published to it, which with the events behind the cursor is all of it as long
as the queue is allocated. -/
theorem queue_discipline (world : σ) (calls : List (Call σ)) (i : Fin maxResources) :
    let d := run deliveryStep ⟨.initial world, fun _ => {}⟩ calls
    let q := (d.state.runtime.resources i).queue
    Discipline q ∧ (d.delivery i).handedOut <+: (d.delivery i).published ∧
      (0 < q.capacity → (d.delivery i).handedOut ++ q.unhanded = (d.delivery i).published) := by
  intro d q
  have hall : ∀ j, Disciplined (d.state.runtime.resources j) (d.delivery j) :=
    run_invariant
      (I := fun d' : Delivering σ => ∀ j, Disciplined (d'.state.runtime.resources j) (d'.delivery j))
      (fun d' c h => disciplined_call c h) disciplined_initial calls
  have hinv := hall i
  refine ⟨hinv.discipline, hinv.delivered.prefix, fun hcapacity => ?_⟩
  rcases hinv.delivered with h | ⟨_, hzero, _⟩
  · exact h
  · exact absurd hzero (Nat.ne_of_gt hcapacity)

end PooFlow
