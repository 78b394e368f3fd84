import PooFlow.Runtime.Contiguity
import PooFlow.Shim.Roundtrip

namespace PooFlow.Shim

open Foundation List
open Option (some.inj some.injEq getD_some)
open Except (ok.inj ok.injEq)

variable {σ : Type}

def batch (arenaId arenaGeneration : ℕ) (polled accepted : Bool) (headers : List EventHeader) :
    List PendingEvent :=
  headers.map fun header => { header, arenaId, arenaGeneration, polled, accepted }

section

variable {arenaId arenaGeneration : ℕ} {polled accepted : Bool} {headers : List EventHeader}
  {q : EventQueue}

theorem batch_sequences : sequencesOf (batch arenaId arenaGeneration polled accepted headers) =
      headers.map EventHeader.sequence := by
  rw [sequencesOf, batch, map_map]
  rfl

theorem batch_length :
    (batch arenaId arenaGeneration polled accepted headers).length = headers.length :=
  length_map _

theorem batch_eq_nil : batch arenaId arenaGeneration polled accepted headers = [] ↔ headers = [] :=
  map_eq_nil_iff

section

variable (hpending : q.pending = batch arenaId arenaGeneration false false headers)
  (hcursor : q.pollCursor = 0)

include hpending hcursor

theorem window_batch : q.window arenaId arenaGeneration = q.pending := by
  rw [EventQueue.window, hcursor, drop_zero, takeWhile_eq_self_iff, hpending]
  intro e he
  obtain ⟨header, _, rfl⟩ := mem_map.1 he
  simp

theorem poll_batch :
    (q.poll arenaId arenaGeneration).pending = batch arenaId arenaGeneration true false headers ∧
      (q.poll arenaId arenaGeneration).pollCursor = headers.length := by
  have hwindow := window_batch hpending hcursor
  simp only [EventQueue.poll]
  rw [hwindow, hcursor, hpending, batch_length, Nat.zero_add]
  refine ⟨?_, rfl⟩
  have hrest : (batch arenaId arenaGeneration false false headers).drop headers.length = [] := by
    rw [← batch_length, drop_length]
  rw [hrest, take_zero, nil_append, append_nil, batch, map_map]
  rfl

end

theorem modify_at_length {f : PendingEvent → PendingEvent} (front rest : List PendingEvent)
    (e : PendingEvent) : (front ++ e :: rest).modify front.length f = front ++ f e :: rest := by
  induction front with
  | nil => rfl
  | cons x front ih => exact congrArg (x :: ·) ih

theorem items_batch (p : SubmitProgress) (front : List PendingEvent)
    (hpending : p.pending = front ++ batch arenaId arenaGeneration true false headers)
    (hindex : p.index = front.length) : (p.items arenaId arenaGeneration headers).pending =
      front ++ batch arenaId arenaGeneration true true headers := by
  induction headers generalizing p front with
  | nil => exact hpending
  | cons header rest ih =>
    have hdrop : p.pending.drop p.index =
        batch arenaId arenaGeneration true false (header :: rest) := by
      rw [hpending, hindex, drop_left]
    have hadvance : advance p.pending header.sequence p.index = front.length := by
      rw [advance, hdrop, hindex]
      simp [batch]
    have hat : p.pending[front.length]? =
        some { header, arenaId, arenaGeneration, polled := true } := by
      rw [hpending]
      simp [batch]
    have hmet : p.met header = some { header, arenaId, arenaGeneration, polled := true } := by
      rw [SubmitProgress.met, hadvance, hat]
      simp
    have hstatus : itemStatus arenaId arenaGeneration header (p.met header) = .ok := by
      rw [hmet]
      simp [itemStatus]
    have hmodified : (p.item arenaId arenaGeneration header).pending =
        (front ++ batch arenaId arenaGeneration true true [header]) ++
          batch arenaId arenaGeneration true false rest := by
      rw [SubmitProgress.item_pending_of_ok hstatus, hadvance, hpending, append_assoc]
      exact modify_at_length front _ _
    have hnext : (p.item arenaId arenaGeneration header).index =
        (front ++ batch arenaId arenaGeneration true true [header]).length := by
      simp [SubmitProgress.item, hmet, hadvance, batch]
    have hrest := ih (p.item arenaId arenaGeneration header) _ hmodified hnext
    rw [append_assoc] at hrest
    exact hrest

theorem submit_batch (hpending : q.pending = batch arenaId arenaGeneration true false headers)
    (hsorted : (headers.map EventHeader.sequence).Pairwise (· < ·)) :
    (q.submit arenaId arenaGeneration headers).pending =
      batch arenaId arenaGeneration true true headers := by
  refine items_batch (q.submitStart headers) [] hpending ?_
  cases headers with
  | nil => simp [EventQueue.submitStart, hpending, batch]
  | cons header rest =>
    refine BinarySearch.lowerBound_eq ?_ ?_
    · rw [hpending, batch_sequences]
      exact hsorted
    · rw [hpending, batch_sequences]
      rfl

theorem acknowledge_batch (first last : ℕ)
    (hpending : q.pending = batch arenaId arenaGeneration true accepted headers)
    (hcursor : q.pollCursor = headers.length)
    (hrange : ∀ header ∈ headers, first ≤ header.sequence ∧ header.sequence ≤ last) :
    (accepted = true → (q.acknowledge arenaId first last).pending = [] ∧
        (q.acknowledge arenaId first last).pollCursor = 0) ∧
      (accepted = false → (q.acknowledge arenaId first last).pending = q.pending) := by
  refine ⟨?_, ?_⟩
  · rintro rfl
    have htaken : ((q.pending.map (PendingEvent.acknowledge arenaId first last)).takeWhile
        (fun e => e.acknowledged)) =
          q.pending.map (PendingEvent.acknowledge arenaId first last) := by
      rw [takeWhile_eq_self_iff, hpending]
      intro e he
      obtain ⟨e₀, he₀, rfl⟩ := mem_map.1 he
      obtain ⟨header, hheader, rfl⟩ := mem_map.1 he₀
      have hwithin := hrange header hheader
      rw [PendingEvent.acknowledge, if_pos ⟨rfl, rfl, rfl, hwithin.1, hwithin.2⟩]
    simp only [EventQueue.acknowledge]
    rw [htaken, drop_length, length_map, hcursor, hpending, batch_length]
    exact ⟨rfl, Nat.sub_self _⟩
  · rintro rfl
    have hsame : q.pending.map (PendingEvent.acknowledge arenaId first last) = q.pending := by
      refine (map_congr_left fun e he => ?_).trans (map_id _)
      rw [hpending] at he
      obtain ⟨header, _, rfl⟩ := mem_map.1 he
      rw [PendingEvent.acknowledge, if_neg (by simp)]
      rfl
    have htaken : (q.pending.takeWhile (fun e => e.acknowledged)) = [] := by
      rw [hpending]
      cases headers with
      | nil => rfl
      | cons header rest => simp [batch]
    simp only [EventQueue.acknowledge]
    rw [hsame, htaken]
    rfl

end

/-- **A clean session**: the handles of the context name a session in slot `s`
and an arena in slot `a`; nothing is pending, leased or in flight. -/
structure Clean (context : Context) (s a : Fin maxResources) (rt : Runtime) : Prop where
  session : resolve rt context.instance_ context.session .session = .ok s
  arena : resolve rt context.instance_ context.arena .arena = .ok a
  sessionKind : (rt.resources s).kind = .session
  arenaKind : (rt.resources a).kind = .arena
  generation : (rt.resources a).arenaGeneration = context.arenaGeneration
  capacity : (rt.resources a).arenaCapacity = context.arenaCapacity
  pending : (rt.resources s).queue.pending = []
  cursor : (rt.resources s).queue.pollCursor = 0
  inflight : (rt.resources a).inflightCount = 0
  leases : ∀ l, (rt.resources l).alive = true → (rt.resources l).kind = .lease →
    (rt.resources l).outstanding ≠ slotId s

theorem Clean.distinct {context : Context} {s a : Fin maxResources} {rt : Runtime}
    (h : Clean context s a rt) : s ≠ a := by
  rintro rfl
  have hkind := h.sessionKind
  rw [h.arenaKind] at hkind
  cases hkind

namespace Arguments

variable (p : Arguments σ)

def headers : List EventHeader := viewHeaders (some p.events) p.eventCount

def firstSequence : ℕ := (p.headers.head?.map EventHeader.sequence).getD 0

def lastSequence : ℕ := (p.headers.getLast?.map EventHeader.sequence).getD 0

theorem headers_length : p.headers.length = p.eventCount := by
  simp [headers, viewHeaders]

theorem headers_eq_nil : p.headers = [] ↔ p.eventCount = 0 := by
  rw [← length_eq_zero_iff, headers_length]

def published (s : Fin maxResources) (rt : Runtime) : Runtime :=
  rt.modify s fun r =>
    { r with
      queue := r.queue.publish p.context.arena.resourceId p.context.arenaGeneration p.headers }

/-- **The batch is handed out** under the lease in slot `l`. -/
structure Handed (s a l : Fin maxResources) (lease : Handle) (accepted : Bool)
    (rt : Runtime) : Prop where
  session : resolve rt p.context.instance_ p.context.session .session = .ok s
  arena : resolve rt p.context.instance_ p.context.arena .arena = .ok a
  resolved : resolve rt p.context.instance_ lease .lease = .ok l
  sessionKind : (rt.resources s).kind = .session
  arenaKind : (rt.resources a).kind = .arena
  leaseKind : (rt.resources l).kind = .lease
  generation : (rt.resources a).arenaGeneration = p.context.arenaGeneration
  capacity : (rt.resources a).arenaCapacity = p.context.arenaCapacity
  parentId : (rt.resources l).parentId = slotId a
  epoch : (rt.resources l).epoch = p.context.arenaGeneration
  outstanding : (rt.resources l).outstanding = slotId s
  sequence : (rt.resources l).sequence = p.headers.length
  first : (rt.resources l).leaseFirstSequence = p.firstSequence
  last : (rt.resources l).leaseLastSequence = p.lastSequence
  pending : (rt.resources s).queue.pending =
    batch p.context.arena.resourceId p.context.arenaGeneration true accepted p.headers
  cursor : (rt.resources s).queue.pollCursor = p.headers.length
  inflight : (rt.resources a).inflightCount = p.headers.length
  leases : ∀ j, j ≠ l → (rt.resources j).alive = true → (rt.resources j).kind = .lease →
    (rt.resources j).outstanding ≠ slotId s

variable {p} {s a l : Fin maxResources} {lease : Handle} {accepted : Bool}
  {rt : Runtime}

/-- The session, the arena and the lease are resources of different kinds. -/
theorem Handed.distinct (h : p.Handed s a l lease accepted rt) : s ≠ a ∧ s ≠ l ∧ a ≠ l := by
  have hsession := h.sessionKind
  have harena := h.arenaKind
  have hlease := h.leaseKind
  refine ⟨?_, ?_, ?_⟩
  · rintro rfl
    rw [hsession] at harena
    cases harena
  · rintro rfl
    rw [hsession] at hlease
    cases hlease
  · rintro rfl
    rw [harena] at hlease
    cases hlease

end Arguments

section

variable {p : Arguments σ} {s a : Fin maxResources} {rt : Runtime}

/-- `publish_batch` refuses the batch or queues it. -/
theorem publish_cases (hclean : Clean p.context s a rt) :
    (∃ status, publishAdmission rt p.context.instance_ p.context.session
        (some p.publishRequest) (some {}) = .error status ∧ status ≠ .ok ∧
        (p.publish rt).status = status ∧ (p.publish rt).runtime = rt) ∨
      (∃ plan, publishAdmission rt p.context.instance_ p.context.session
        (some p.publishRequest) (some {}) = .ok plan) ∧
        (p.publish rt).status = .ok ∧ (p.publish rt).runtime = p.published s rt ∧
        checkPublish p.context.arenaCapacity none p.headers = .ok () := by
  rcases hadmission : publishAdmission rt p.context.instance_ p.context.session
    (some p.publishRequest) (some {}) with status | plan
  · left
    refine ⟨status, rfl, fun h => publishAdmission_ne_error_ok (h ▸ hadmission), ?_, ?_⟩
    · rw [Arguments.publish, publishBatch, hadmission]
      rfl
    · rw [Arguments.publish, publishBatch, hadmission]
      rfl
  · right
    obtain ⟨hsession, hrequest, harena, _, hcheck⟩ := publishAdmission_ok hadmission
    obtain rfl : plan.session = s := ok.inj (hsession.symm.trans hclean.session)
    have hrequest : plan.request = p.publishRequest := (some.inj hrequest).symm
    rw [hrequest] at harena hcheck
    obtain rfl : plan.arena = a :=
      ok.inj ((resolveArena_eq_ok.1 harena).1.symm.trans hclean.arena)
    have hnone : (rt.resources plan.session).queue.lastSequence? = none := by
      rw [EventQueue.lastSequence?, hclean.pending]
      rfl
    rw [hnone, hclean.capacity] at hcheck
    refine ⟨⟨plan, rfl⟩, ?_, ?_, hcheck⟩
    · rw [Arguments.publish, publishBatch, hadmission]
      rfl
    · rw [Arguments.publish, publishBatch, hadmission]
      exact (plan.publish_runtime rt).trans (by rw [hrequest]; rfl)

/-- A handle still resolves when its entry keeps what `resolve` reads. -/
theorem resolve_kept {rt rt' : Runtime} {inst handle : Handle} {kind : Kind}
    {i : Fin maxResources} (h : resolve rt inst handle kind = .ok i)
    (hgeneration : (rt'.resources i).generation = (rt.resources i).generation)
    (hreleased : (rt'.resources i).released = (rt.resources i).released)
    (halive : (rt'.resources i).alive = (rt.resources i).alive)
    (hinstance : (rt'.resources i).instanceId = (rt.resources i).instanceId) :
    resolve rt' inst handle kind = .ok i := by
  rw [resolve_eq_ok] at h ⊢
  rw [hgeneration, hreleased, halive, hinstance]
  exact h

theorem requiredPayload_le {events : List PendingEvent} {capacity : ℕ}
    (h : ∀ e ∈ events, e.header.payloadOffset + e.header.payloadLength ≤ capacity) :
    requiredPayload events ≤ capacity := by
  have hfold : ∀ required, required ≤ capacity →
      events.foldl (fun required e =>
        max required (e.header.payloadOffset + e.header.payloadLength)) required ≤ capacity := by
    induction events with
    | nil => exact fun _ hle => hle
    | cons e rest ih =>
      intro required hle
      have he := h e mem_cons_self
      exact ih (fun e' he' => h e' (mem_cons_of_mem _ he')) _ (max_le hle he)
  exact hfold 0 (Nat.zero_le _)

def Arguments.pollPlan (p : Arguments σ) (s a : Fin maxResources) :
    BatchPlan PollRequest PollResult where
  session := s
  arena := a
  request := p.pollRequest
  result := {}

theorem published_apply (i : Fin maxResources) : (p.published s rt).resources i =
      { rt.resources i with
        queue :=
          if i = s then (rt.resources i).queue.publish p.context.arena.resourceId
            p.context.arenaGeneration p.headers
          else (rt.resources i).queue } := by
  rw [Arguments.published, Runtime.modify_apply]
  by_cases his : i = s
  · subst his
    rw [if_pos rfl, if_pos rfl]
  · rw [if_neg his, if_neg his]

theorem pollAdmission_published (hclean : Clean p.context s a rt) :
    pollAdmission (p.published s rt) p.context.instance_ p.context.session
      (some p.pollRequest) (some {}) = .ok (p.pollPlan s a) := by
  have hsession : resolve (p.published s rt) p.context.instance_ p.context.session .session =
      .ok s := by
    refine resolve_kept hclean.session ?_ ?_ ?_ ?_
    all_goals rw [published_apply]
  have harena : resolveArena (p.published s rt) p.context.instance_ p.context.arena
      p.context.arenaGeneration = .ok a := by
    refine resolveArena_eq_ok.2 ⟨resolve_kept hclean.arena ?_ ?_ ?_ ?_, ?_⟩
    all_goals rw [published_apply]
    exact hclean.generation
  simp only [pollAdmission, hsession, presentElse, bind, Except.bind, guardElse,
    Arguments.pollRequest]
  rw [harena]
  simp [Arguments.pollPlan, Arguments.pollRequest]

theorem window_published (hclean : Clean p.context s a rt) :
    (p.pollPlan s a).window (p.published s rt) =
      batch p.context.arena.resourceId p.context.arenaGeneration false false p.headers := by
  have hqueue : ((p.published s rt).resources s).queue.pending =
      batch p.context.arena.resourceId p.context.arenaGeneration false false p.headers ∧
      ((p.published s rt).resources s).queue.pollCursor = 0 := by
    rw [published_apply]
    dsimp only
    rw [if_pos rfl, EventQueue.publish, hclean.pending]
    exact ⟨rfl, hclean.cursor⟩
  exact (window_batch hqueue.1 hqueue.2).trans hqueue.1

/-- The poll of a published batch only fails when no slot is free for its
lease. -/
theorem poll_cases (hclean : Clean p.context s a rt) (hsome : p.eventCount ≠ 0)
    (hcheck : checkPublish p.context.arenaCapacity none p.headers = .ok ()) :
    ((∀ i, (rt.resources i).alive = true) ∧ (p.poll (p.published s rt)).status ≠ .ok ∧
        (p.poll (p.published s rt)).runtime = p.published s rt) ∨
      ∃ l, Delivers (p.published s rt) p.context.instance_ p.context.session
        (some p.pollRequest) (p.pollPlan s a) l (p.poll (p.published s rt)) := by
  have hadmission := pollAdmission_published hclean
  have hwindow := window_published hclean
  have hlength : ((p.pollPlan s a).window (p.published s rt)).length = p.eventCount := by
    rw [hwindow, batch_length, p.headers_length]
  have hready : ¬((p.pollPlan s a).window (p.published s rt) = [] ∨
      ¬(p.pollPlan s a).Fits (p.published s rt)) := by
    rw [not_or, not_not]
    refine ⟨?_, le_of_eq hlength, ?_⟩
    · intro hnil
      rw [hnil] at hlength
      exact hsome hlength.symm
    · apply requiredPayload_le
      intro e he
      rw [hwindow] at he
      obtain ⟨header, hheader, rfl⟩ := mem_map.1 he
      obtain ⟨hoffset, hsize⟩ := (checkPublish_ok hcheck).1 header hheader
      change header.payloadOffset + header.payloadLength ≤ p.context.arenaCapacity
      omega
  have hpoll : p.poll (p.published s rt) =
      (p.pollPlan s a).poll (p.published s rt) p.context.instance_ p.context.session := by
    rw [Arguments.poll, pollBatch, hadmission]
    rfl
  rw [hpoll, BatchPlan.poll, if_neg hready]
  rcases hfree : freeSlot (p.published s rt) with _ | l
  · left
    have halloc : allocateResource (p.published s rt) p.context.instance_.instanceId .lease =
        .error .allocationFailure := by
      simp [allocateResource, hfree, presentElse, bind, Except.bind]
    rw [halloc]
    refine ⟨fun i => ?_, by simp, rfl⟩
    have hall := List.find?_eq_none.1 hfree i (mem_finRange i)
    rw [published_apply] at hall
    simpa using hall
  · right
    refine ⟨l, ?_⟩
    have halloc : allocateResource (p.published s rt) p.context.instance_.instanceId .lease =
        .ok (l, (p.published s rt).allocate l p.context.instance_.instanceId .lease) :=
      allocateResource_of_freeSlot _ _ hfree
    obtain ⟨hsession, hrequest, harena⟩ := pollAdmission_ok hadmission
    have hid := (resolve_eq_ok.1 hsession).2.2.1
    rw [halloc]
    exact ⟨hsession, hrequest, harena, (not_or.1 hready).1, freeSlot_dead hfree, rfl, rfl,
      by rw [Outcome.accepted_runtime, hid]⟩

section

variable {l : Fin maxResources} {o : Outcome PollResult}
  (hdelivers : Delivers (p.published s rt) p.context.instance_ p.context.session
    (some p.pollRequest) (p.pollPlan s a) l o)

include hdelivers

theorem written_of_delivers (hclean : Clean p.context s a rt) :
    ∃ polled, o.written = some polled ∧ polled.producedCount = p.eventCount ∧
      polled.headers = p.headers ∧ polled.firstSequence = p.firstSequence ∧
      polled.lastSequence = p.lastSequence ∧ polled.lease = handleOf o.runtime l := by
  have hwindow := window_published hclean
  have hheaders : ((p.pollPlan s a).window (p.published s rt)).map PendingEvent.header =
      p.headers := by
    rw [hwindow, batch, map_map]
    exact map_id _
  refine ⟨_, hdelivers.written_eq, ?_, ?_, ?_, ?_, ?_⟩
  · change ((p.pollPlan s a).window (p.published s rt)).length = p.eventCount
    rw [hwindow, batch_length, p.headers_length]
  · exact hheaders
  · change (((p.pollPlan s a).window (p.published s rt)).head?.map PendingEvent.sequence).getD 0 = _
    rw [Arguments.firstSequence, ← hheaders, List.head?_map, Option.map_map]
    rfl
  · change (((p.pollPlan s a).window (p.published s rt)).getLast?.map
      PendingEvent.sequence).getD 0 = _
    rw [Arguments.lastSequence, ← hheaders, List.getLast?_map, Option.map_map]
    rfl
  · change handleOf _ l = _
    rw [handleOf, handleOf, hdelivers.apply l, if_pos rfl, Runtime.allocate, Runtime.modify_self]
    rfl

theorem entry_of_delivers {i : Fin maxResources} (hil : i ≠ l) : o.runtime.resources i =
      { rt.resources i with
        queue :=
          if i = s then
            ((rt.resources i).queue.publish p.context.arena.resourceId
              p.context.arenaGeneration p.headers).poll p.context.arena.resourceId
                p.context.arenaGeneration
          else (rt.resources i).queue
        inflightCount :=
          if i = a then
            (rt.resources i).inflightCount + ((p.pollPlan s a).window (p.published s rt)).length
          else (rt.resources i).inflightCount } := by
  have hsession : (p.pollPlan s a).session = s := rfl
  rw [hdelivers.apply i, if_neg hil, published_apply, hsession]
  by_cases his : i = s
  · simp only [if_pos his]
    rfl
  · simp only [if_neg his]
    rfl

theorem session_of_delivers (hclean : Clean p.context s a rt) :
    ∃ q, o.runtime.resources s = { rt.resources s with queue := q } := by
  have hsa := hclean.distinct
  have hsl : s ≠ l := hdelivers.session_ne
  have hs := entry_of_delivers hdelivers hsl
  rw [if_neg hsa] at hs
  exact ⟨_, hs⟩

theorem lease_of_delivers : o.runtime.resources l =
      (p.pollPlan s a).leaseEntry (p.published s rt) (slotId s)
        ((rt.resources l).fresh p.context.instance_.instanceId .lease) := by
  rw [hdelivers.apply l, if_pos rfl, published_apply]
  rfl

/-- **A poll of a clean session's batch hands it out.** -/
theorem handed_of_delivers (hclean : Clean p.context s a rt) :
    p.Handed s a l (handleOf o.runtime l) false o.runtime := by
  have hsl : s ≠ l := hdelivers.session_ne
  have hal : a ≠ l := hdelivers.arena_ne
  have hsa := hclean.distinct
  have hs := entry_of_delivers hdelivers hsl
  have ha := entry_of_delivers hdelivers hal
  have hl := lease_of_delivers hdelivers
  have hlength : ((p.pollPlan s a).window (p.published s rt)).length = p.headers.length := by
    rw [window_published hclean, batch_length]
  have hsession := resolve_eq_ok.1 hclean.session
  have harenaId := (resolve_eq_ok.1 hclean.arena).2.2.1
  obtain ⟨polled, hwritten, _, _, hfirst, hlast, _⟩ := written_of_delivers hdelivers hclean
  have hpolled := hdelivers.written_eq.symm.trans hwritten
  rw [some.injEq] at hpolled
  have hpublished : ((rt.resources s).queue.publish p.context.arena.resourceId
      p.context.arenaGeneration p.headers).pending =
        batch p.context.arena.resourceId p.context.arenaGeneration false false p.headers := by
    rw [EventQueue.publish, hclean.pending]
    rfl
  have hqueue := poll_batch hpublished hclean.cursor
  rw [if_pos rfl, if_neg hsa] at hs
  rw [if_neg (Ne.symm hsa), if_pos rfl, hlength, hclean.inflight, Nat.zero_add] at ha
  refine {
    session := resolve_kept hclean.session (by rw [hs]) (by rw [hs]) (by rw [hs]) (by rw [hs])
    arena := resolve_kept hclean.arena (by rw [ha]) (by rw [ha]) (by rw [ha]) (by rw [ha])
    resolved := ?_
    sessionKind := by rw [hs]; exact hclean.sessionKind
    arenaKind := by rw [ha]; exact hclean.arenaKind
    leaseKind := by rw [hl]; rfl
    generation := by rw [ha]; exact hclean.generation
    capacity := by rw [ha]; exact hclean.capacity
    parentId := by rw [hl]; exact harenaId
    epoch := by rw [hl]; rfl
    outstanding := by rw [hl]; rfl
    sequence := by rw [hl]; exact hlength
    first := ?_
    last := ?_
    pending := by rw [hs]; exact hqueue.1
    cursor := by rw [hs]; exact hqueue.2
    inflight := by rw [ha]
    leases := ?_ }
  · rw [resolve_eq_ok, handleOf, hl]
    exact ⟨rfl, rfl, rfl, rfl, rfl, rfl, rfl⟩
  · rw [hl, ← hfirst, ← hpolled]
    rfl
  · rw [hl, ← hlast, ← hpolled]
    rfl
  · intro j hjl halive hkind
    rw [entry_of_delivers hdelivers hjl] at halive hkind ⊢
    exact hclean.leases j halive hkind

end

theorem sequence_between (hsorted : (p.headers.map EventHeader.sequence).Pairwise (· < ·))
    {header : EventHeader} (h : header ∈ p.headers) :
    p.firstSequence ≤ header.sequence ∧ header.sequence ≤ p.lastSequence := by
  constructor
  · unfold Arguments.firstSequence
    obtain ⟨x, rest, heq⟩ := exists_cons_of_ne_nil (ne_nil_of_mem h)
    rw [heq] at h hsorted ⊢
    rw [map_cons, pairwise_cons] at hsorted
    rcases mem_cons.1 h with rfl | hrest
    · exact le_refl _
    · exact le_of_lt (hsorted.1 _ (mem_map_of_mem hrest))
  · unfold Arguments.lastSequence
    obtain ⟨front, x, heq⟩ := (eq_nil_or_concat _).resolve_left (ne_nil_of_mem h)
    rw [heq, concat_eq_append] at h hsorted ⊢
    rw [map_append, pairwise_append] at hsorted
    rw [List.getLast?_append_of_ne_nil _ (cons_ne_nil _ _)]
    rcases mem_append.1 h with hfront | hlast
    · exact le_of_lt (hsorted.2.2 _ (mem_map_of_mem hfront) _ (by simp))
    · exact le_of_eq (congrArg EventHeader.sequence (mem_singleton.1 hlast))

section

variable {l : Fin maxResources} {lease : Handle} {accepted : Bool}

section

variable (h : p.Handed s a l lease accepted rt) {polled : PollResult}
  (hlease : polled.lease = lease)

include h polled hlease

theorem Arguments.Handed.acknowledged : (p.acknowledge polled rt).status = .ok ∧
      (p.acknowledge polled rt).runtime =
        ((rt.modify a (rt.resources l).settleLease).modify s
          (rt.resources l).acknowledgeLease).modify l Resource.release := by
  have hadmission : ackAdmission rt p.context.instance_ p.context.session polled.lease =
      .ok ⟨s, l, a⟩ := by
    have houtstanding : (rt.resources l).outstanding = p.context.session.resourceId :=
      h.outstanding.trans (resolve_eq_ok.1 h.session).2.2.1.symm
    have hslot : slot (rt.resources l).parentId = some a := slot_eq_some.2 h.parentId
    have halive := (resolve_eq_ok.1 h.arena).2.2.2.2.2.1
    have hcount : (rt.resources l).sequence ≤ (rt.resources a).inflightCount := by
      rw [h.sequence, h.inflight]
    rw [hlease]
    simp [ackAdmission, h.session, h.resolved, bind, Except.bind, guardElse, presentElse,
      houtstanding, hslot, halive, h.arenaKind, hcount, pure, Except.pure]
  rw [Arguments.acknowledge, batchAck, hadmission]
  exact ⟨rfl, rfl⟩

/-- **The acknowledgement** cleans the session after an accepted batch, and
leaves a batch that was not accepted in the queue. -/
theorem Arguments.Handed.acknowledge
    (hsorted : (p.headers.map EventHeader.sequence).Pairwise (· < ·)) :
    (accepted = true → Clean p.context s a (p.acknowledge polled rt).runtime) ∧
      (accepted = false → p.eventCount ≠ 0 →
        ((p.acknowledge polled rt).runtime.resources s).queue.pending ≠ []) := by
  obtain ⟨_, hruntime⟩ := h.acknowledged hlease
  obtain ⟨hsa, hsl, hal⟩ := h.distinct
  have hs : (p.acknowledge polled rt).runtime.resources s =
      (rt.resources l).acknowledgeLease (rt.resources s) := by
    rw [hruntime, Runtime.modify_of_ne _ _ hsl, Runtime.modify_self, Runtime.modify_of_ne _ _ hsa]
  have ha : (p.acknowledge polled rt).runtime.resources a =
      (rt.resources l).settleLease (rt.resources a) := by
    rw [hruntime, Runtime.modify_of_ne _ _ hal, Runtime.modify_of_ne _ _ (Ne.symm hsa),
      Runtime.modify_self]
  have hqueue := acknowledge_batch p.firstSequence p.lastSequence h.pending
    h.cursor fun header hheader => sequence_between hsorted hheader
  have harenaId := (resolve_eq_ok.1 h.arena).2.2.1
  have hacknowledged : ((rt.resources l).acknowledgeLease (rt.resources s)).queue =
      (rt.resources s).queue.acknowledge p.context.arena.resourceId p.firstSequence
        p.lastSequence := by
    rw [Resource.acknowledgeLease, h.parentId, h.first, h.last, harenaId]
  refine ⟨fun haccepted => ?_, fun haccepted hsome => ?_⟩
  · obtain ⟨hpending, hcursor⟩ := hqueue.1 haccepted
    refine {
      session := resolve_kept h.session (by rw [hs]; rfl) (by rw [hs]; rfl) (by rw [hs]; rfl)
        (by rw [hs]; rfl)
      arena := resolve_kept h.arena (by rw [ha]; rfl) (by rw [ha]; rfl) (by rw [ha]; rfl)
        (by rw [ha]; rfl)
      sessionKind := by rw [hs]; exact h.sessionKind
      arenaKind := by rw [ha]; exact h.arenaKind
      generation := by rw [ha]; exact h.generation
      capacity := by rw [ha]; exact h.capacity
      pending := by rw [hs, hacknowledged]; exact hpending
      cursor := by rw [hs, hacknowledged]; exact hcursor
      inflight := ?_
      leases := ?_ }
    · rw [ha, Resource.settleLease, h.inflight, h.sequence]
      exact Nat.sub_self _
    · intro j halive hkind
      rw [hruntime, Runtime.modify_apply] at halive hkind ⊢
      by_cases hjl : j = l
      · -- the lease itself was released
        rw [if_pos hjl] at halive
        cases halive
      rw [if_neg hjl] at halive hkind ⊢
      by_cases hjs : j = s
      · subst hjs
        rw [Runtime.modify_self, Runtime.modify_of_ne _ _ hsa] at halive hkind ⊢
        exact h.leases j hjl halive hkind
      rw [Runtime.modify_of_ne _ _ hjs] at halive hkind ⊢
      by_cases hja : j = a
      · subst hja
        rw [Runtime.modify_self] at halive hkind ⊢
        exact h.leases j hjl halive hkind
      rw [Runtime.modify_of_ne _ _ hja] at halive hkind ⊢
      exact h.leases j hjl halive hkind
  · rw [hs, hacknowledged, hqueue.2 haccepted, h.pending]
    exact mt batch_eq_nil.1 (mt p.headers_eq_nil.1 hsome)

end

end

/-- What the checks of `strict_mediate` ask of the arguments and the session
entry. -/
structure Arguments.Admits (p : Arguments σ) (entry : Resource) : Prop where
  durability : checkDurability entry p.mediation.durability true = .ok ()
  epoch : entry.epoch = p.mediation.bundleEpoch
  consecutive : p.lastSequence - p.firstSequence + 1 = p.eventCount
  root : entry.mediation.executionRoot = p.mediation.beforeExecutionRoot
  semanticRoot : entry.mediation.semanticRootBound = true →
    entry.mediation.semanticRoot = p.mediation.semanticRoot
  nonce : ∃ cell, admitNonce entry.mediation
    { high := p.mediation.nonceHigh, low := p.mediation.nonceLow } = .ok cell

def Arguments.reservation (p : Arguments σ) (entry : Resource) : Reservation where
  mediationSequence := entry.mediation.mediationSequence + 1
  firstSequence := p.firstSequence
  lastSequence := p.lastSequence
  nonceHigh := p.mediation.nonceHigh
  nonceLow := p.mediation.nonceLow
  semanticRoot := p.mediation.semanticRoot
  beforeExecutionRoot := p.mediation.beforeExecutionRoot

/-- The buffers of the caller hold what the submission writes. -/
def Arguments.Buffers (p : Arguments σ) : Prop :=
  p.eventCount ≤ p.itemStatusCapacity ∧ (p.eventCount ≠ 0 → p.hasItemStatuses = true) ∧
    bitmapRequired p.eventCount ≤ p.acceptedBitmapBytes ∧
    (bitmapRequired p.eventCount ≠ 0 → p.hasAcceptedBitmap = true)

structure Arguments.Polled (p : Arguments σ) (lease : Handle) (polled : PollResult) : Prop where
  lease : polled.lease = lease
  headers : polled.headers = p.headers
  first : polled.firstSequence = p.firstSequence
  last : polled.lastSequence = p.lastSequence

theorem mediationCallbacks_shim (polled : PollResult) :
    mediationCallbacks (p.mediationRequest polled) {} =
      .ok
        { execute := adapterExecute p.context (p.submitRequest polled) p.mediation
          reserve := evidenceReserve p.evidence
          finalize := evidenceFinalize p.evidence
          hasFlush := true } := by
  rfl

section

variable {l : Fin maxResources} {lease : Handle} {polled : PollResult}

section

variable (h : p.Handed s a l lease false rt) (hpolled : p.Polled lease polled)
  (hsome : p.eventCount ≠ 0) (hsorted : (p.headers.map EventHeader.sequence).Pairwise (· < ·))

include h hpolled hsome hsorted

theorem Arguments.Handed.range_iff :
    checkRange (rt.resources s).queue polled.firstSequence polled.lastSequence ↔
      p.lastSequence - p.firstSequence + 1 = p.eventCount := by
  have hne : p.headers ≠ [] := mt p.headers_eq_nil.1 hsome
  have hqueue : (rt.resources s).queue.headers = p.headers := by
    rw [EventQueue.headers, h.pending, batch, map_map]
    exact map_id _
  have hfirst : p.headers.head?.map EventHeader.sequence = some p.firstSequence := by
    rw [Arguments.firstSequence, List.head?_eq_some_head hne]
    rfl
  have hlast : p.headers.getLast?.map EventHeader.sequence = some p.lastSequence := by
    rw [Arguments.lastSequence, List.getLast?_eq_some_getLast hne]
    rfl
  have hle : p.firstSequence ≤ p.lastSequence := by
    obtain ⟨hfirst, hlast⟩ := sequence_between hsorted (head_mem hne)
    exact hfirst.trans hlast
  have hcheck := (checkRange_iff (q := (rt.resources s).queue)
    (by rw [h.pending, batch_sequences]; exact hsorted) ⟨[], [], by simp [hqueue]⟩ hfirst hlast
    hle).1
  rw [hpolled.first, hpolled.last, hcheck, p.headers_length]

theorem Arguments.Handed.admission_iff :
    (∃ plan, mediationAdmission rt p.context.instance_ p.context.session
      (some (p.mediationRequest polled)) (some {}) = .ok plan) ↔ p.Admits (rt.resources s) := by
  have hrange := h.range_iff hpolled hsome hsorted
  have hresolved : resolve rt p.context.instance_ polled.lease .lease = .ok l :=
    hpolled.lease ▸ h.resolved
  have hbinding : checkBinding (rt.resources s) (rt.resources l) (rt.resources a)
      p.context.session.resourceId (p.mediationRequest polled) ↔
        (rt.resources s).epoch = p.mediation.bundleEpoch := by
    have hsession := (resolve_eq_ok.1 h.session).2.2.1
    have harena := (resolve_eq_ok.1 h.arena).2.2.1
    obtain ⟨hfirst, hlast⟩ :=
      sequence_between hsorted (head_mem (mt p.headers_eq_nil.1 hsome))
    simp [checkBinding, Arguments.mediationRequest, h.generation, h.parentId, h.outstanding,
      h.epoch, h.first, h.last, hpolled.first, hpolled.last, hsession, harena, hfirst.trans hlast]
  simp only [mediationAdmission, bind_eq_ok, guardElse_eq_ok, presentElse_eq_ok, exists_const,
    pure_eq_ok, ok.injEq, some.injEq, exists_eq_left', h.session,
    mediationCallbacks_shim]
  constructor
  · rintro ⟨plan, _, hdurability, a', harena, l', hlease, hbound, hranged, hroot, hsemantic,
      cell, hnonce, _⟩
    obtain rfl := ok.inj (h.arena.symm.trans harena)
    obtain rfl := ok.inj (hresolved.symm.trans hlease)
    exact ⟨hdurability, hbinding.1 hbound, hrange.1 hranged, hroot, hsemantic, cell, hnonce⟩
  · intro hadmits
    obtain ⟨cell, hnonce⟩ := hadmits.nonce
    exact ⟨_, (), hadmits.durability, a, h.arena, l, hresolved, hbinding.2 hadmits.epoch,
      hrange.2 hadmits.consecutive, hadmits.root, hadmits.semanticRoot, cell, hnonce, rfl⟩

end

theorem Arguments.Handed.session_changed {accepted accepted' : Bool} {rt' : Runtime}
    (h : p.Handed s a l lease accepted rt) (hother : ∀ i, i ≠ s → rt'.resources i = rt.resources i)
    (hs : rt'.resources s =
      { rt.resources s with
        mediation := (rt'.resources s).mediation
        sequence := (rt'.resources s).sequence
        queue :=
          { (rt.resources s).queue with
            pending := batch p.context.arena.resourceId p.context.arenaGeneration true accepted'
              p.headers } }) :
    p.Handed s a l lease accepted' rt' := by
  obtain ⟨hsa, hsl, -⟩ := h.distinct
  have ha := hother a hsa.symm
  have hl := hother l hsl.symm
  refine {
    session := resolve_kept h.session (by rw [hs]) (by rw [hs]) (by rw [hs]) (by rw [hs])
    arena := resolve_kept h.arena (by rw [ha]) (by rw [ha]) (by rw [ha]) (by rw [ha])
    resolved := resolve_kept h.resolved (by rw [hl]) (by rw [hl]) (by rw [hl]) (by rw [hl])
    sessionKind := by rw [hs]; exact h.sessionKind
    arenaKind := ha ▸ h.arenaKind
    leaseKind := hl ▸ h.leaseKind
    generation := ha ▸ h.generation
    capacity := ha ▸ h.capacity
    parentId := hl ▸ h.parentId
    epoch := hl ▸ h.epoch
    outstanding := hl ▸ h.outstanding
    sequence := hl ▸ h.sequence
    first := hl ▸ h.first
    last := hl ▸ h.last
    pending := by rw [hs]
    cursor := by rw [hs]; exact h.cursor
    inflight := ha ▸ h.inflight
    leases := ?_ }
  intro j hjl halive hkind
  by_cases hjs : j = s
  · subst hjs
    rw [hs] at hkind
    exact absurd (h.sessionKind.symm.trans hkind) (by decide)
  · rw [hother j hjs] at halive hkind ⊢
    exact h.leases j hjl halive hkind

theorem checkSubmit_of_checkPublish {capacity : ℕ} {previous : Option ℕ}
    {headers : List EventHeader} (h : checkPublish capacity previous headers = .ok ()) :
    checkSubmit capacity previous headers = .ok () := by
  induction headers generalizing previous with
  | nil => rfl
  | cons header rest ih =>
    simp only [checkPublish, bind_eq_ok, guardElse_eq_ok, exists_const] at h
    obtain ⟨⟨hversion, hreserved⟩, hbounds, habove, hrest⟩ := h
    simp only [checkSubmit, bind_eq_ok, guardElse_eq_ok, exists_const]
    exact ⟨⟨habove, hversion, hreserved, hbounds⟩, ih hrest⟩

theorem submitRequest_items (hheaders : polled.headers = p.headers) :
    (p.submitRequest polled).items = p.headers := by
  refine map_congr_left fun i hi => ?_
  have hlt : i < p.eventCount := mem_range.1 hi
  have hat : polled.headers[i]? = some (p.events i) := by
    rw [hheaders, Arguments.headers, viewHeaders, List.getElem?_map, List.getElem?_range hlt]
    rfl
  change (polled.headers[i]?).getD (p.events i) = p.events i
  rw [hat]
  rfl

section

variable (h : p.Handed s a l lease false rt) (hpolled : p.Polled lease polled)
  (hcount : p.eventCount ≤ sizeMax / sizeof .eventHeader)
  (hcheck : checkPublish p.context.arenaCapacity none p.headers = .ok ())

include h hpolled hcount hcheck

/-- **The submission of the batch** is admitted when the buffers are large
enough. -/
theorem Arguments.Handed.submitted :
    (∃ plan, submitAdmission rt p.context.instance_ p.context.session
      (some (p.submitRequest polled)) (some {}) = .ok plan) ↔ p.Buffers := by
  have hitems := submitRequest_items hpolled.headers
  have harena : resolveArena rt p.context.instance_ p.context.arena p.context.arenaGeneration =
      .ok a := resolveArena_eq_ok.2 ⟨h.arena, h.generation⟩
  have hsubmit : checkSubmit (rt.resources a).arenaCapacity none (p.submitRequest polled).items =
      .ok () := by
    rw [hitems, h.capacity]
    exact checkSubmit_of_checkPublish hcheck
  simp only [submitAdmission, bind_eq_ok, guardElse_eq_ok, presentElse_eq_ok, exists_const,
    pure_eq_ok, ok.injEq, some.injEq, exists_eq_left', h.session]
  constructor
  · rintro ⟨plan, ⟨_, _, _, _, _, _, _, hcapacity, hstatuses, hbytes, hbitmap⟩, _⟩
    exact ⟨hcapacity, hstatuses, hbytes, hbitmap⟩
  · rintro ⟨hcapacity, hstatuses, hbytes, hbitmap⟩
    exact ⟨_, ⟨rfl, trivial, rfl, trivial, rfl, hcount, fun _ => rfl, hcapacity, hstatuses, hbytes,
      hbitmap⟩, a, harena, (), hsubmit, rfl⟩

theorem Arguments.Handed.adapted (invocation : AdapterInvocation)
    (hsize : invocation.structSize = sizeof .adapterInvocation) :
    ∃ accepted, (accepted = true ↔ p.Buffers) ∧
      p.Handed s a l lease accepted
        ((adapterExecute p.context (p.submitRequest polled) p.mediation invocation).run
          rt).runtime := by
  have hsubmitted := h.submitted hpolled hcount hcheck
  have hrun : ((adapterExecute p.context (p.submitRequest polled) p.mediation invocation).run
      rt).runtime = (submitBatch rt p.context.instance_ p.context.session
        (some (p.submitRequest polled)) (some {})).runtime := by
    rw [adapterExecute, if_neg (not_not.2 hsize), AdapterProgram.run]
    dsimp only
    split <;> rfl
  rw [hrun]
  rcases hadmission : submitAdmission rt p.context.instance_ p.context.session
    (some (p.submitRequest polled)) (some {}) with status | plan
  · refine ⟨false, ?_, ?_⟩
    · rw [← hsubmitted, hadmission]
      simp
    · rw [submitBatch, hadmission]
      exact h
  · refine ⟨true, ?_, ?_⟩
    · rw [← hsubmitted, hadmission]
      exact ⟨fun _ => ⟨plan, rfl⟩, fun _ => rfl⟩
    · obtain ⟨hsession, hrequest, _, _⟩ := submitAdmission_ok hadmission
      obtain rfl : plan.session = s := ok.inj (hsession.symm.trans h.session)
      have hrequest : plan.request = p.submitRequest polled := (some.inj hrequest).symm
      have hsorted := (checkPublish_ok hcheck).2.1
      have hpending : (plan.submission rt).pending = batch p.context.arena.resourceId
          p.context.arenaGeneration true true p.headers := by
        rw [BatchPlan.submission, hrequest, submitRequest_items hpolled.headers]
        exact submit_batch h.pending hsorted
      have hruntime : (submitBatch rt p.context.instance_ p.context.session
          (some (p.submitRequest polled)) (some {})).runtime =
            rt.modify plan.session (Resource.submitted (plan.submission rt).pending) := by
        rw [submitBatch, hadmission]
        rfl
      rw [hruntime]
      refine h.session_changed (fun i hi => Runtime.modify_of_ne _ _ hi) ?_
      rw [Runtime.modify_self, Resource.submitted, hpending]

end

abbrev Arguments.Reserves (p : Arguments σ) (entry : Resource) (world : σ) : Prop :=
  p.Admits entry ∧ (p.evidence.reserve (p.reservation entry) world).1 = .ok

theorem reserves_queue {entry : Resource} {q : EventQueue} {world : σ} :
    p.Reserves { entry with queue := q } world ↔ p.Reserves entry world :=
  and_congr_left fun _ =>
    ⟨fun h => ⟨h.durability, h.epoch, h.consecutive, h.root, h.semanticRoot, h.nonce⟩,
      fun h => ⟨h.durability, h.epoch, h.consecutive, h.root, h.semanticRoot, h.nonce⟩⟩

/-- **The mediation** either leaves table and batch as they are, or executes the
adapter. -/
theorem Arguments.Handed.mediated (h : p.Handed s a l lease false rt)
    (hpolled : p.Polled lease polled) (hsome : p.eventCount ≠ 0)
    (hcount : p.eventCount ≤ sizeMax / sizeof .eventHeader)
    (hcheck : checkPublish p.context.arenaCapacity none p.headers = .ok ()) (world : σ) :
    ((p.mediate polled rt world).status ≠ .ok ∧ (p.mediate polled rt world).runtime = rt ∧
        ¬p.Reserves (rt.resources s) world) ∨
      ((p.mediate polled rt world).status = .ok ∧
        (p.mediate polled rt world).invocation.isSome ∧ p.Reserves (rt.resources s) world ∧
        ∃ accepted, (accepted = true ↔ p.Buffers) ∧
          p.Handed s a l lease accepted (p.mediate polled rt world).runtime) := by
  have hsorted := (checkPublish_ok hcheck).2.1
  have hiff := h.admission_iff hpolled hsome hsorted
  rcases hadmission : mediationAdmission rt p.context.instance_ p.context.session
    (some (p.mediationRequest polled)) (some {}) with status | plan
  · left
    have hne : status ≠ .ok := fun heq => mediationAdmission_ne_error_ok (heq ▸ hadmission)
    -- refused before the evidence is reserved
    rw [Arguments.mediate, strictMediate, hadmission]
    refine ⟨hne, rfl, fun hboth => ?_⟩
    obtain ⟨plan, hplan⟩ := hiff.2 hboth.1
    rw [hadmission] at hplan
    cases hplan
  · have hadmits := hiff.1 ⟨plan, hadmission⟩
    obtain ⟨hsession, hrequest, _⟩ := mediationAdmission_ok hadmission
    obtain rfl : plan.session = s := ok.inj (hsession.symm.trans h.session)
    have hrequest : plan.request = p.mediationRequest polled := (some.inj hrequest).symm
    obtain ⟨callbacks, hcallbacks, hreserve, hexecute⟩ := mediationAdmission_callbacks hadmission
    obtain rfl := ok.inj ((mediationCallbacks_shim polled).symm.trans hcallbacks)
    have hanswer : plan.reserve (plan.reservation rt p.context.session) world =
        p.evidence.reserve (p.reservation (rt.resources plan.session)) world := by
      rw [hreserve]
      dsimp only
      rw [evidenceReserve, MediationPlan.reservation, hrequest]
      dsimp only [Arguments.mediationRequest]
      rw [hpolled.first, hpolled.last]
      rfl
    rw [Arguments.mediate, strictMediate, hadmission]
    dsimp only
    rw [hanswer]
    by_cases hreserved : (p.evidence.reserve (p.reservation (rt.resources plan.session))
      world).1 = .ok
    · right
      rw [if_neg (not_not.2 hreserved)]
      -- the adapter runs on the table with the reservation, and the conclusion follows it
      refine ⟨rfl, rfl, ⟨hadmits, hreserved⟩, ?_⟩
      have hbound : p.Handed plan.session a l lease false (plan.reserved rt) := by
        refine h.session_changed (fun i hi => Runtime.modify_of_ne _ _ hi) ?_
        rw [MediationPlan.reserved, Runtime.modify_self, ← h.pending]
      obtain ⟨accepted, haccepted, hadapted⟩ :=
        hbound.adapted hpolled hcount hcheck (plan.invocation rt) rfl
      refine ⟨accepted, haccepted, ?_⟩
      have hrun : plan.adapterRun rt = (adapterExecute p.context (p.submitRequest polled)
          p.mediation (plan.invocation rt)).run (plan.reserved rt) := by
        rw [MediationPlan.adapterRun, hexecute]
      rw [MediationPlan.conclude_runtime, hrun]
      refine hadapted.session_changed (fun i hi => Runtime.modify_of_ne _ _ hi) ?_
      rw [Runtime.modify_self, ← hadapted.pending]
    · left
      rw [if_pos hreserved]
      exact ⟨hreserved, rfl, fun hboth => hreserved hboth.2⟩

end

/-- What a roundtrip needs in a clean session: that it publishes nothing, that
`publish_batch` refuses it, or that every later check passes. -/
def Arguments.Clears (p : Arguments σ) (s : Fin maxResources) (rt : Runtime) (world : σ) : Prop :=
  p.eventCount = 0 ∨
    (∀ plan, publishAdmission rt p.context.instance_ p.context.session (some p.publishRequest)
      (some {}) ≠ .ok plan) ∨
    (∃ i, (rt.resources i).alive = false) ∧
      (p.Admits (rt.resources s) ∧
        (p.evidence.reserve (p.reservation (rt.resources s)) world).1 = .ok) ∧ p.Buffers

theorem published_empty (hnone : p.eventCount = 0) : p.published s rt = rt := by
  have hheaders : p.headers = [] := p.headers_eq_nil.2 hnone
  have hresources : (p.published s rt).resources = rt.resources := by
    funext i
    rw [published_apply, hheaders]
    by_cases his : i = s
    · simp [his, EventQueue.publish]
    · simp [his]
  calc p.published s rt = { rt with resources := (p.published s rt).resources } := rfl
    _ = rt := by rw [hresources]

/-- An answer that leaves the state as it is without an effect. -/
structure Answer.Inert (o : Answer σ) (rt : Runtime) (world : σ) : Prop where
  status : o.status ≠ .ok
  runtime : o.runtime = rt
  world : o.world = world
  executed : o.executed = false

/-- **A batch without events** fails in the mediation, for want of a lease. -/
theorem conclude_without_lease {polled : PollResult} (result : BatchResult) (world : σ)
    (hlease : polled.lease = nullHandle) : (p.conclude polled result rt world).Inert rt world := by
  have hresolve : ∀ {i}, resolve rt p.context.instance_ polled.lease .lease ≠ .ok i := by
    intro i h
    have hkind := (resolve_eq_ok.1 h).2.1
    rw [hlease] at hkind
    cases hkind
  have hmediate : ∃ status, status ≠ .ok ∧
      p.mediate polled rt world = { status, runtime := rt, world } := by
    rcases hadmission : mediationAdmission rt p.context.instance_ p.context.session
      (some (p.mediationRequest polled)) (some {}) with status | plan
    · refine ⟨status, fun heq => mediationAdmission_ne_error_ok (heq ▸ hadmission), ?_⟩
      rw [Arguments.mediate, strictMediate, hadmission]
    · obtain ⟨_, hrequest, _, hplan, _⟩ := mediationAdmission_ok hadmission
      rw [← some.inj hrequest] at hplan
      exact absurd hplan hresolve
  obtain ⟨status, hne, hmediate⟩ := hmediate
  have hacknowledge : (p.acknowledge polled rt).runtime = rt := by
    rcases hadmission : ackAdmission rt p.context.instance_ p.context.session polled.lease with
      status | plan
    · rw [Arguments.acknowledge, batchAck, hadmission]
      rfl
    · exact absurd (ackAdmission_ok hadmission).2.1 hresolve
  refine ⟨?_, ?_, ?_, ?_⟩
  · rw [Arguments.conclude, hmediate]
    dsimp only
    rw [if_pos hne]
    exact hne
  · rw [Arguments.conclude, hmediate]
    exact hacknowledge
  · rw [Arguments.conclude, hmediate]
  · rw [Arguments.conclude, hmediate]
    rfl

theorem poll_empty (hclean : Clean p.context s a rt) (hnone : p.eventCount = 0) :
    (p.poll rt).status = .ok ∧ (p.poll rt).runtime = rt ∧
      ∃ polled, (p.poll rt).written = some polled ∧ polled.producedCount = 0 ∧
        polled.lease = nullHandle := by
  have hadmission := pollAdmission_published hclean
  have hwindow := window_published hclean
  have hheaders : p.headers = [] := p.headers_eq_nil.2 hnone
  rw [published_empty hnone] at hadmission hwindow
  rw [hheaders] at hwindow
  change _ = [] at hwindow
  have hpoll : p.poll rt = .accepted rt ((p.pollPlan s a).sized rt) := by
    rw [Arguments.poll, pollBatch, hadmission]
    change (p.pollPlan s a).poll rt _ _ = _
    rw [BatchPlan.poll, if_pos (Or.inl hwindow)]
  rw [hpoll]
  exact ⟨rfl, rfl, _, rfl, rfl, rfl⟩

abbrev Arguments.Unpublished (p : Arguments σ) (rt : Runtime) : Prop :=
  p.eventCount = 0 ∨
    ∀ plan, publishAdmission rt p.context.instance_ p.context.session (some p.publishRequest)
      (some {}) ≠ .ok plan

theorem roundtrip_inert (hclean : Clean p.context s a rt) (world : σ) (h : p.Unpublished rt) :
    (p.roundtrip rt world).Inert rt world := by
  rcases publish_cases hclean with ⟨status, _, hne, hstatus, hruntime⟩ |
    ⟨⟨plan, hadmission⟩, hstatus, hruntime, _⟩
  · rw [Arguments.roundtrip]
    dsimp only
    rw [if_pos (hstatus ▸ hne)]
    exact ⟨hstatus ▸ hne, hruntime, rfl, rfl⟩
  · have hnone := h.resolve_right fun hrefused => hrefused plan hadmission
    obtain ⟨hpolled, hpollRuntime, polled, hwritten, hproduced, hlease⟩ := poll_empty hclean hnone
    rw [published_empty hnone] at hruntime
    rw [Arguments.roundtrip]
    dsimp only
    rw [if_neg (not_not.2 hstatus), hruntime, if_neg (not_not.2 hpolled), hwritten,
      hpollRuntime, getD_some, if_neg (not_not.2 (hproduced.trans hnone.symm))]
    exact conclude_without_lease _ world hlease

variable {plan : BatchPlan PublishRequest PublishResult}

theorem publishAdmission_count {inst session : Handle} {request : PublishRequest}
    {result : PublishResult}
    (h : publishAdmission rt inst session (some request) (some result) = .ok plan) :
    request.itemCount ≤ sizeMax / request.headerStride := by
  simp only [publishAdmission, bind_eq_ok, guardElse_eq_ok, presentElse_eq_ok, exists_const,
    pure_eq_ok, some.injEq] at h
  obtain ⟨_, _, _, rfl, _, rfl, ⟨_, _, _, _, _, hcount, _⟩, _⟩ := h
  exact hcount

/-- **A roundtrip that has published** its events cleans the session exactly
when every later check passes; otherwise events stay in the queue. -/
theorem roundtrip_published (hclean : Clean p.context s a rt) (world : σ) (hsome : p.eventCount ≠ 0)
    (hadmission : publishAdmission rt p.context.instance_ p.context.session (some p.publishRequest)
      (some {}) = .ok plan) :
    ((∃ i, (rt.resources i).alive = false) ∧
        p.Reserves (rt.resources s) world ∧ p.Buffers ∧
        (p.roundtrip rt world).status = .ok ∧ (p.roundtrip rt world).executed = true ∧
        Clean p.context s a (p.roundtrip rt world).runtime) ∨
      ¬((∃ i, (rt.resources i).alive = false) ∧ p.Reserves (rt.resources s) world ∧ p.Buffers) ∧
        ((p.roundtrip rt world).runtime.resources s).queue.pending ≠ [] := by
  rcases publish_cases hclean with ⟨status, hrefused, _⟩ | ⟨_, hstatus, hruntime, hcheck⟩
  · rw [hadmission] at hrefused
    cases hrefused
  have hsorted := (checkPublish_ok hcheck).2.1
  have hcount := publishAdmission_count hadmission
  rcases poll_cases hclean hsome hcheck with ⟨halive, hfailed, hpollRuntime⟩ | ⟨l, hdelivers⟩
  · -- no slot for the lease: the events stay behind the cursor
    right
    refine ⟨fun hall => ?_, ?_⟩
    · obtain ⟨i, hi⟩ := hall.1
      rw [halive i] at hi
      cases hi
    · rw [Arguments.roundtrip]
      dsimp only
      rw [if_neg (not_not.2 hstatus), hruntime, if_pos hfailed]
      change ((p.poll (p.published s rt)).runtime.resources s).queue.pending ≠ []
      rw [hpollRuntime, published_apply]
      dsimp only
      rw [if_pos rfl, EventQueue.publish, hclean.pending]
      exact mt batch_eq_nil.1 (mt p.headers_eq_nil.1 hsome)
  obtain ⟨polled, hwritten, hproduced, hheaders, hfirst, hlast, hlease⟩ :=
    written_of_delivers hdelivers hclean
  have hhanded := handed_of_delivers hdelivers hclean
  have hpolled : p.Polled (handleOf (p.poll (p.published s rt)).runtime l) polled :=
    ⟨hlease, hheaders, hfirst, hlast⟩
  obtain ⟨q, hentry⟩ := session_of_delivers hdelivers hclean
  have hanswer : ∃ result, p.roundtrip rt world =
      p.conclude polled result (p.poll (p.published s rt)).runtime world := by
    rw [Arguments.roundtrip]
    dsimp only
    rw [if_neg (not_not.2 hstatus), hruntime, if_neg (not_not.2 hdelivers.status_eq),
      hwritten, getD_some, if_neg (not_not.2 hproduced)]
    exact ⟨_, rfl⟩
  obtain ⟨result, hanswer⟩ := hanswer
  have hdead : ∃ i, (rt.resources i).alive = false := by
    have hfree := hdelivers.free
    rw [published_apply] at hfree
    exact ⟨l, hfree⟩
  have hmediated := hhanded.mediated hpolled hsome hcount hcheck world
  rw [hentry, reserves_queue, reserves_queue] at hmediated
  rw [hanswer]
  rcases hmediated with ⟨hfailed, hunchanged, hchecks⟩ | ⟨hok, hexecuted, hchecks, accepted, haccepted, hafter⟩
  · right
    refine ⟨fun hall => hchecks hall.2.1, ?_⟩
    have hleft := (hhanded.acknowledge hpolled.lease hsorted).2 rfl hsome
    rw [Arguments.conclude]
    dsimp only
    rw [hunchanged]
    exact hleft
  · obtain ⟨hcleaned, hleft⟩ := hafter.acknowledge hpolled.lease hsorted
    by_cases hbuffers : p.Buffers
    · left
      refine ⟨hdead, hchecks, hbuffers, ?_, hexecuted, hcleaned (haccepted.2 hbuffers)⟩
      rw [Arguments.conclude]
      dsimp only
      rw [if_neg (not_not.2 hok)]
      exact (hafter.acknowledged hpolled.lease).1
    · right
      refine ⟨fun hall => hbuffers hall.2.2, hleft ?_ hsome⟩
      by_contra hne
      exact hbuffers (haccepted.1 (by simpa using hne))

end

/-- What a roundtrip needs in the clean session in slot `s`. -/
def Roundtrip.Clears (context : Context) (s : Fin maxResources) (rt : Runtime) (world : σ)
    (r : Roundtrip σ) : Prop :=
  ∀ p, r.arguments (some context) = .ok p → p.Clears s rt world

variable {context : Context} {r : Roundtrip σ} {s a : Fin maxResources} {rt : Runtime}

theorem arguments_context {p : Arguments σ} (h : r.arguments (some context) = .ok p) :
    p.context = context := by
  simp only [Roundtrip.arguments, bind_eq_ok, guardElse_eq_ok, presentElse_eq_ok, exists_const,
    pure_eq_ok, some.injEq] at h
  obtain ⟨_, rfl, _, _, _, _, _, _, _, _, _, _, rfl⟩ := h
  rfl

/-- **One roundtrip** leaves the session clean exactly when it clears. -/
theorem roundtrip_clean_iff (hclean : Clean context s a rt) (world : σ) (r : Roundtrip σ) :
    Clean context s a (roundtrip (some context) r rt world).runtime ↔
      r.Clears context s rt world := by
  rcases hargs : r.arguments (some context) with status | p
  · rw [roundtrip, Roundtrip.Clears, hargs]
    exact ⟨fun _ p hp => (by cases hp), fun _ => hclean⟩
  obtain rfl := arguments_context hargs
  have hclears : r.Clears p.context s rt world ↔ p.Clears s rt world := by
    rw [Roundtrip.Clears, hargs]
    exact ⟨fun h => h p rfl, fun h p' hp => ok.inj hp ▸ h⟩
  rw [hclears, roundtrip, hargs]
  dsimp only
  by_cases hinert : p.Unpublished rt
  · rw [(roundtrip_inert hclean world hinert).runtime]
    exact iff_of_true hclean (or_assoc.1 (Or.inl hinert))
  · have hrest := hinert
    rw [not_or, not_forall] at hrest
    obtain ⟨hsome, plan, hadmission⟩ := hrest
    rw [Arguments.Clears, ← or_assoc, or_iff_right hinert]
    rcases roundtrip_published hclean world hsome (not_not.1 hadmission) with
      ⟨hdead, hchecks, hbuffers, _, _, hcleaned⟩ | ⟨hchecks, hleft⟩
    · exact iff_of_true hcleaned ⟨hdead, hchecks, hbuffers⟩
    · exact iff_of_false (fun h => hleft h.pending) hchecks

theorem roundtrip_failed (hclean : Clean context s a rt) (world : σ)
    (hclears : r.Clears context s rt world)
    (hfailed : (roundtrip (some context) r rt world).status ≠ .ok) :
    (roundtrip (some context) r rt world).runtime = rt ∧
      (roundtrip (some context) r rt world).world = world := by
  rcases hargs : r.arguments (some context) with status | p
  · rw [roundtrip, hargs]
    exact ⟨rfl, rfl⟩
  have hchecks : p.Clears s rt world := hclears p hargs
  obtain rfl := arguments_context hargs
  rw [roundtrip, hargs] at hfailed ⊢
  dsimp only at hfailed ⊢
  by_cases hinert : p.Unpublished rt
  · have h := roundtrip_inert hclean world hinert
    exact ⟨h.runtime, h.world⟩
  · have hrest := hinert
    rw [not_or, not_forall] at hrest
    obtain ⟨hsome, plan, hadmission⟩ := hrest
    rw [Arguments.Clears, ← or_assoc, or_iff_right hinert] at hchecks
    rcases roundtrip_published hclean world hsome (not_not.1 hadmission) with
      ⟨_, _, _, hok, _⟩ | ⟨hunchecked, _⟩
    · exact absurd hok hfailed
    · exact absurd hchecks hunchecked

structure State (σ : Type) where
  runtime : Runtime
  world : σ

def State.answer (context : Context) (t : State σ) (r : Roundtrip σ) : Answer σ :=
  roundtrip (some context) r t.runtime t.world

def step (context : Context) (t : State σ) (r : Roundtrip σ) : State σ :=
  ⟨(t.answer context r).runtime, (t.answer context r).world⟩

/-- Failed without an effect. -/
def Answer.Fruitless (o : Answer σ) : Prop := o.status ≠ .ok ∧ o.executed = false

instance (o : Answer σ) : Decidable o.Fruitless := inferInstanceAs (Decidable (_ ∧ _))

def fruitful (context : Context) : State σ → List (Roundtrip σ) → List (Roundtrip σ)
  | _, [] => []
  | t, r :: rest =>
    if (t.answer context r).Fruitless then fruitful context (step context t r) rest
    else r :: fruitful context (step context t r) rest

/-- **Failure isolation** of a run: after each of its roundtrips nothing is left
behind, and every roundtrip would be answered as it is if the ones that failed
without an effect had never been issued. -/
def Isolated (context : Context) (s a : Fin maxResources) (t : State σ)
    (rs : List (Roundtrip σ)) : Prop :=
  ∀ front back, rs = front ++ back →
    Clean context s a (run (step context) t front).runtime ∧
      ∀ r, (run (step context) t (fruitful context t front)).answer context r =
        (run (step context) t front).answer context r

section

variable {context : Context} {s a : Fin maxResources}

theorem along_of_clean {t : State σ} {rs : List (Roundtrip σ)}
    (h : ∀ front back, rs = front ++ back →
      Clean context s a (run (step context) t front).runtime) :
    Along (step context) (fun t r => r.Clears context s t.runtime t.world) t rs := by
  induction rs generalizing t with
  | nil => trivial
  | cons r rest ih =>
    refine ⟨(roundtrip_clean_iff (h [] (r :: rest) rfl) t.world r).1 (h [r] rest rfl), ?_⟩
    apply ih
    rintro front back rfl
    exact h (r :: front) back rfl

theorem clean_of_along {t : State σ} {rs : List (Roundtrip σ)}
    (hclean : Clean context s a t.runtime)
    (h : Along (step context) (fun t r => r.Clears context s t.runtime t.world) t rs) :
    Clean context s a (run (step context) t rs).runtime ∧
      run (step context) t (fruitful context t rs) = run (step context) t rs := by
  induction rs generalizing t with
  | nil => exact ⟨hclean, rfl⟩
  | cons r rest ih =>
    obtain ⟨hclears, hrest⟩ := h
    have hnext : Clean context s a (step context t r).runtime :=
      (roundtrip_clean_iff hclean t.world r).2 hclears
    obtain ⟨hcleaned, hsame⟩ := ih hnext hrest
    refine ⟨hcleaned, ?_⟩
    rw [fruitful]
    split
    · next hfruitless =>
      obtain ⟨hruntime, hworld⟩ := roundtrip_failed hclean t.world hclears hfruitless.1
      have hstep : step context t r = t := by
        calc step context t r = ⟨(t.answer context r).runtime, (t.answer context r).world⟩ := rfl
          _ = t := by
            rw [State.answer, hruntime, hworld]
      rw [hstep] at hsame
      rw [run_cons, hstep]
      exact hsame
    · rw [run_cons, run_cons]
      exact hsame

end

/-- **Roundtrips are isolated** exactly when each of them clears. -/
theorem roundtrips_isolated_iff {context : Context} {s a : Fin maxResources} {t : State σ}
    (hclean : Clean context s a t.runtime) (rs : List (Roundtrip σ)) : Isolated context s a t rs ↔
      Along (step context) (fun t r => r.Clears context s t.runtime t.world) t rs := by
  constructor
  · intro h
    exact along_of_clean fun front back heq => (h front back heq).1
  · rintro h front back rfl
    obtain ⟨hfront, _⟩ := along_append.1 h
    obtain ⟨hcleaned, hsame⟩ := clean_of_along hclean hfront
    exact ⟨hcleaned, fun r => by rw [hsame]⟩

def installed : Context where
  instance_ := ({} : Installation).instance_
  session := ({} : Installation).session
  arena := ({} : Installation).arena
  arenaCapacity := 128
  arenaGeneration := 1
  arenaAlive := true

def opened : State Unit :=
  ⟨(run PooFlow.step (Tracked.initial ()) ({} : Installation).setUp).runtime, ()⟩

/-- One event of the given layout version, with a reservation that answers
`reserved` and an adapter that commits. -/
def single (version sequence : ℕ) (reserved : Status) : Roundtrip Unit where
  events := some fun _ => { layoutVersion := version, sequence, payloadLength := 8 }
  eventCount := 1
  itemStatusCapacity := 1
  acceptedBitmapBytes := 1
  mediation := some
    { durability := .strict
      outcome := .committed
      bundleEpoch := 7
      nonceHigh := 0
      nonceLow := 1
      semanticRoot := .filled 9
      beforeExecutionRoot := .zero
      inputDigest := .zero
      observationDigest := .zero }
  evidenceReserve := some fun _ world => (reserved, world)
  evidenceFinalize := some fun _ world => ((.ok, { afterExecutionRoot := .filled 2 }), world)

theorem clean_opened : Clean installed 3 4 opened.runtime where
  session := by decide +kernel
  arena := by decide +kernel
  sessionKind := by decide +kernel
  arenaKind := by decide +kernel
  generation := by decide +kernel
  capacity := by decide +kernel
  pending := by decide +kernel
  cursor := by decide +kernel
  inflight := by decide +kernel
  leases := by decide +kernel

/-- A batch that `publish_batch` refuses, and one that goes through. -/
theorem isolated_after_refusal :
    Isolated installed 3 4 opened [single 0 5 .ok, single layoutVersion 5 .ok] := by
  refine (roundtrips_isolated_iff clean_opened _).2 ⟨?_, ?_, trivial⟩
  · intro p hp
    obtain rfl := Except.ok.inj hp
    exact Or.inr (Or.inl (by decide +kernel))
  · intro p hp
    obtain rfl := Except.ok.inj hp
    refine Or.inr (Or.inr ⟨⟨9, by decide +kernel⟩, ⟨⟨?_, ?_, ?_, ?_, ?_, ?_⟩, ?_⟩, ?_⟩)
    · decide +kernel
    · decide +kernel
    · decide +kernel
    · decide +kernel
    · decide +kernel
    · exact ⟨637, by decide +kernel⟩
    · decide +kernel
    · exact ⟨by decide, fun _ => rfl, by decide, fun _ => rfl⟩

/-- **The condition is needed**: a reservation that fails leaves its event in
the queue. -/
theorem event_left_behind : ¬∀ rs : List (Roundtrip Unit), Isolated installed 3 4 opened rs := by
  intro h
  obtain ⟨hclean, _⟩ := h _ [single layoutVersion 5 .outstandingWork] [] (append_nil _).symm
  have hpending : ((run (step installed) opened
      [single layoutVersion 5 .outstandingWork]).runtime.resources 3).queue.pending ≠ [] := by
    decide +kernel
  exact hpending hclean.pending

end PooFlow.Shim
