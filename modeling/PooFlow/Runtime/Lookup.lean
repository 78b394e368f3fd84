import PooFlow.Runtime.Discipline

namespace PooFlow

open Foundation List
open Option (map_some)

def EventQueue.lookup (q : EventQueue) (sequence : ℕ) : Option PendingEvent :=
  q.pending.find? (fun e => e.sequence = sequence)

def markAccepted (bitmap : List UInt8) (item : Status × ℕ) : List UInt8 :=
  if item.1 = .ok then bitmap.modify (item.2 / 8) (· ||| (1 <<< UInt8.ofNat (item.2 % 8)))
  else bitmap

def bitmapOf (statuses : List Status) (count : ℕ) : List UInt8 :=
  statuses.zipIdx.foldl markAccepted (List.replicate (bitmapRequired count) 0)

structure SubmittedItems where
  pending : List PendingEvent
  statuses : List Status
  bitmap : List UInt8
  acceptedCount : ℕ
  rejectedCount : ℕ

def SubmitProgress.submitted (p : SubmitProgress) : SubmittedItems where
  pending := p.pending
  statuses := p.statuses
  bitmap := p.bitmap
  acceptedCount := p.acceptedCount
  rejectedCount := p.rejectedCount

namespace EventQueue

variable (q : EventQueue) (arenaId arenaGeneration : ℕ)

def statusOf (header : EventHeader) : Status :=
  itemStatus arenaId arenaGeneration header (q.lookup header.sequence)

def acceptedBy (headers : List EventHeader) (e : PendingEvent) : PendingEvent :=
  if ∃ header ∈ headers, header.sequence = e.sequence ∧
      q.statusOf arenaId arenaGeneration header = .ok then { e with accepted := true }
  else e

def submitByLookup (headers : List EventHeader) : SubmittedItems :=
  let statuses := headers.map (q.statusOf arenaId arenaGeneration)
  { pending := q.pending.map (q.acceptedBy arenaId arenaGeneration headers)
    statuses
    bitmap := bitmapOf statuses headers.length
    acceptedCount := statuses.countP (· = .ok)
    rejectedCount := statuses.countP (· ≠ .ok) }

end EventQueue

/-- `submit_batch` with items looked up one by one. -/
def BatchPlan.submitByLookup (plan : BatchPlan SubmitRequest SubmitResult) (rt : Runtime) :
    Outcome SubmitResult :=
  let looked := (rt.resources plan.session).queue.submitByLookup plan.request.arena.resourceId
    plan.request.arenaGeneration plan.request.items
  .accepted (rt.modify plan.session (Resource.submitted looked.pending))
    { plan.result with
      acceptedCount := looked.acceptedCount
      rejectedCount := looked.rejectedCount
      acceptedWatermark := watermark looked.pending (rt.resources plan.session).sequence
      itemStatuses := looked.statuses
      acceptedBitmap := looked.bitmap }

def submitBatchByLookup (rt : Runtime) (instance_ session : Handle)
    (request : Option SubmitRequest) (result : Option SubmitResult) : Outcome SubmitResult :=
  .ofAdmission rt (submitAdmission rt instance_ session request result) (·.submitByLookup rt)

theorem advance_eq_scan (pending : List PendingEvent) (sequence index : ℕ) :
    advance pending sequence index =
      BinarySearch.scan PendingEvent.sequence pending sequence index := rfl

theorem bitmapOf_concat (statuses : List Status) (status : Status) (count : ℕ) :
    bitmapOf (statuses ++ [status]) count =
      markAccepted (bitmapOf statuses count) (status, statuses.length) := by
  rw [bitmapOf, zipIdx_append, foldl_append]
  simp [bitmapOf]

section

variable {q : EventQueue} {arenaId arenaGeneration : ℕ}

@[simp] theorem acceptedBy_sequence (headers : List EventHeader) (e : PendingEvent) :
    (q.acceptedBy arenaId arenaGeneration headers e).sequence = e.sequence := by
  unfold EventQueue.acceptedBy
  split <;> rfl

@[simp] theorem acceptedBy_nil (e : PendingEvent) :
    q.acceptedBy arenaId arenaGeneration [] e = e := by
  simp [EventQueue.acceptedBy]

variable {e : PendingEvent}

theorem acceptedBy_of_ne {headers : List EventHeader}
    (h : ∀ header ∈ headers, header.sequence ≠ e.sequence) :
    q.acceptedBy arenaId arenaGeneration headers e = e :=
  if_neg fun ⟨header, hheader, hsequence, _⟩ => h header hheader hsequence

theorem acceptedBy_concat (headers : List EventHeader) (header : EventHeader) (e : PendingEvent) :
    q.acceptedBy arenaId arenaGeneration (headers ++ [header]) e =
      if header.sequence = e.sequence ∧ q.statusOf arenaId arenaGeneration header = .ok then
        { q.acceptedBy arenaId arenaGeneration headers e with accepted := true }
      else q.acceptedBy arenaId arenaGeneration headers e := by
  unfold EventQueue.acceptedBy
  simp only [mem_append, mem_singleton, or_and_right, exists_or, exists_eq_left]
  by_cases hdone : ∃ done ∈ headers, done.sequence = e.sequence ∧
      q.statusOf arenaId arenaGeneration done = .ok
  · simp only [hdone, true_or, if_true]
    split <;> rfl
  · simp only [hdone, false_or, if_false]

variable (q arenaId arenaGeneration) in
/-- The merge after some items: it has done with them what their lookups say, and
its index has passed the events below those that are left. -/
structure Merged (count : ℕ) (done left : List EventHeader) (p : SubmitProgress) : Prop where
  pending : p.pending = q.pending.map (q.acceptedBy arenaId arenaGeneration done)
  statuses : p.statuses = done.map (q.statusOf arenaId arenaGeneration)
  bitmap : p.bitmap = bitmapOf p.statuses count
  acceptedCount : p.acceptedCount = p.statuses.countP (· = .ok)
  rejectedCount : p.rejectedCount = p.statuses.countP (· ≠ .ok)
  index_le : p.index ≤ q.pending.length
  passed : ∀ header ∈ left, ∀ e ∈ q.pending.take p.index, e.sequence < header.sequence

section

variable {count : ℕ} {done left : List EventHeader} {header : EventHeader} {p : SubmitProgress}

theorem Merged.advance_eq (h : Merged q arenaId arenaGeneration count done (header :: left) p) :
    advance p.pending header.sequence p.index =
      BinarySearch.scan PendingEvent.sequence q.pending header.sequence p.index := by
  rw [advance_eq_scan, h.pending, BinarySearch.scan_map (acceptedBy_sequence done)]

theorem Merged.at_scan (h : Merged q arenaId arenaGeneration count done (header :: left) p)
    (hsorted : (sequencesOf q.pending).Pairwise (· < ·))
    (hfound : q.lookup header.sequence = some e) :
    q.pending[advance p.pending header.sequence p.index]? = some e ∧
      e.sequence = header.sequence := by
  have hscan := BinarySearch.filter_getElem?_scan (pairwise_map.1 hsorted) h.index_le
    (h.passed header mem_cons_self)
  rw [h.advance_eq]
  obtain ⟨hat, hsequence⟩ := Option.filter_eq_some_iff.1 (hscan.trans hfound)
  exact ⟨hat, of_decide_eq_true hsequence⟩

theorem map_acceptedBy_concat (hsorted : (sequencesOf q.pending).Pairwise (· < ·)) {index : ℕ}
    (hat : q.pending[index]? = some e) (hsequence : e.sequence = header.sequence)
    (hok : q.statusOf arenaId arenaGeneration header = .ok) :
    (q.pending.map (q.acceptedBy arenaId arenaGeneration done)).modify index
        (fun e => { e with accepted := true }) =
      q.pending.map (q.acceptedBy arenaId arenaGeneration (done ++ [header])) := by
  apply ext_getElem?
  intro i
  rw [List.getElem?_modify, List.getElem?_map, List.getElem?_map]
  cases hi : q.pending[i]? with
  | none => simp
  | some other =>
    rw [map_some, map_some, Option.map_eq_map, map_some, acceptedBy_concat]
    by_cases hindex : index = i
    · subst hindex
      obtain rfl := Option.some.inj (hat.symm.trans hi)
      simp [hsequence, hok]
    · -- sequences are distinct, so no other event is accepted for it
      have hother : header.sequence ≠ other.sequence := by
        intro hsame
        have hnodup : (sequencesOf q.pending).Nodup := hsorted.imp Nat.ne_of_lt
        refine hindex ((List.getElem?_inj ?_ hnodup).1 ?_)
        · rw [sequencesOf, length_map]
          exact (List.getElem?_eq_some_iff.1 hat).1
        · rw [sequencesOf, List.getElem?_map, List.getElem?_map, hat, hi, map_some,
            map_some, hsequence, hsame]
      simp [hindex, hother]

section

variable (h : Merged q arenaId arenaGeneration count done (header :: left) p)
  (hsorted : (sequencesOf q.pending).Pairwise (· < ·))
  (hdone : ∀ earlier ∈ done, earlier.sequence < header.sequence)

include h hsorted hdone

/-- **The merge meets what a lookup finds.** -/
theorem Merged.met_eq : p.met header = q.lookup header.sequence := by
  have hscan := BinarySearch.filter_getElem?_scan (pairwise_map.1 hsorted) h.index_le
    (h.passed header mem_cons_self)
  rw [SubmitProgress.met, h.advance_eq, EventQueue.lookup, ← hscan, h.pending, List.getElem?_map]
  cases hat : q.pending[BinarySearch.scan PendingEvent.sequence q.pending header.sequence
      p.index]? with
  | none => rfl
  | some e =>
    by_cases hsequence : e.sequence = header.sequence
    · have hsame : q.acceptedBy arenaId arenaGeneration done e = e :=
        acceptedBy_of_ne fun earlier hearlier => by
          rw [hsequence]
          exact Nat.ne_of_lt (hdone earlier hearlier)
      simp [hsame]
    · simp [Option.filter, hsequence]

theorem Merged.status_eq : itemStatus arenaId arenaGeneration header (p.met header) =
      q.statusOf arenaId arenaGeneration header := by
  rw [h.met_eq hsorted hdone, EventQueue.statusOf]

theorem Merged.item_pending : (p.item arenaId arenaGeneration header).pending =
      q.pending.map (q.acceptedBy arenaId arenaGeneration (done ++ [header])) := by
  have hstatus := h.status_eq hsorted hdone
  by_cases hok : q.statusOf arenaId arenaGeneration header = .ok
  · rw [SubmitProgress.item_pending_of_ok (hstatus.trans hok), h.pending]
    -- an item with status OK has found its event
    cases hfound : q.lookup header.sequence with
    | none =>
      rw [EventQueue.statusOf, hfound] at hok
      cases hok
    | some e =>
      obtain ⟨hat, hsequence⟩ := h.at_scan hsorted hfound
      rw [h.pending] at hat
      exact map_acceptedBy_concat hsorted hat hsequence hok
  · rw [SubmitProgress.item_pending_of_ne (hstatus ▸ hok), h.pending]
    refine map_congr_left fun e _ => ?_
    rw [acceptedBy_concat, if_neg fun hsame => hok hsame.2]

theorem Merged.item_index : (p.item arenaId arenaGeneration header).index =
      if (q.lookup header.sequence).isSome then advance p.pending header.sequence p.index + 1
      else advance p.pending header.sequence p.index := by
  rw [← h.met_eq hsorted hdone]
  rfl

theorem Merged.item_passed : (p.item arenaId arenaGeneration header).index ≤ q.pending.length ∧
      ∀ e ∈ q.pending.take (p.item arenaId arenaGeneration header).index,
        e.sequence ≤ header.sequence := by
  obtain ⟨before, after, hsplit, hlength, hbefore, -⟩ :=
    BinarySearch.scan_split (f := PendingEvent.sequence) h.index_le
      (h.passed header mem_cons_self)
  rw [← h.advance_eq] at hlength
  have htake : q.pending.take (advance p.pending header.sequence p.index) = before := by
    rw [← hlength, hsplit, take_left]
  rw [h.item_index hsorted hdone]
  cases hfound : q.lookup header.sequence with
  | none =>
    rw [Option.isSome_none, if_neg Bool.false_ne_true, htake]
    refine ⟨?_, fun e he => (hbefore e he).le⟩
    rw [← hlength, hsplit, length_append]
    exact Nat.le_add_right _ _
  | some found =>
    obtain ⟨hat, hsequence⟩ := h.at_scan hsorted hfound
    rw [Option.isSome_some, if_pos rfl, take_add_one, hat, htake]
    refine ⟨(List.getElem?_eq_some_iff.1 hat).1, fun e he => ?_⟩
    rcases mem_append.1 he with hpassed | hmatched
    · exact (hbefore e hpassed).le
    · obtain rfl := mem_singleton.1 hmatched
      exact hsequence.le

end

/-- **One item.** -/
theorem Merged.item (h : Merged q arenaId arenaGeneration count done (header :: left) p)
    (hsorted : (sequencesOf q.pending).Pairwise (· < ·))
    (hheaders : ((done ++ header :: left).map EventHeader.sequence).Pairwise (· < ·)) :
    Merged q arenaId arenaGeneration count (done ++ [header]) left
      (p.item arenaId arenaGeneration header) := by
  rw [pairwise_map, pairwise_append] at hheaders
  obtain ⟨-, hleft, hacross⟩ := hheaders
  have hdone : ∀ earlier ∈ done, earlier.sequence < header.sequence := fun earlier hearlier =>
    hacross earlier hearlier header mem_cons_self
  have hstatus := h.status_eq hsorted hdone
  have hstatuses : (p.item arenaId arenaGeneration header).statuses =
      p.statuses ++ [q.statusOf arenaId arenaGeneration header] := by
    rw [SubmitProgress.item_statuses, hstatus]
  obtain ⟨hindex, hpassed⟩ := h.item_passed hsorted hdone
  refine ⟨h.item_pending hsorted hdone, ?_, ?_, ?_, ?_, hindex, ?_⟩
  · rw [hstatuses, h.statuses, map_append, map_singleton]
  · rw [hstatuses, bitmapOf_concat, ← h.bitmap]
    show (if _ then _ else _) = _
    rw [hstatus]
    rfl
  · rw [hstatuses, countP_append, ← h.acceptedCount]
    show (if _ then _ else _) = _
    rw [hstatus]
    by_cases hok : q.statusOf arenaId arenaGeneration header = .ok <;> simp [hok]
  · rw [hstatuses, countP_append, ← h.rejectedCount]
    show (if _ then _ else _) = _
    rw [hstatus]
    by_cases hok : q.statusOf arenaId arenaGeneration header = .ok <;> simp [hok]
  · intro later hlater e he
    exact (hpassed e he).trans_lt ((pairwise_cons.1 hleft).1 later hlater)

/-- **All items.** -/
theorem Merged.items (h : Merged q arenaId arenaGeneration count done left p)
    (hsorted : (sequencesOf q.pending).Pairwise (· < ·))
    (hheaders : ((done ++ left).map EventHeader.sequence).Pairwise (· < ·)) :
    Merged q arenaId arenaGeneration count (done ++ left) []
      (p.items arenaId arenaGeneration left) := by
  induction left generalizing done p with
  | nil =>
    rw [append_nil]
    exact h
  | cons header left ih =>
    rw [append_cons] at hheaders ⊢
    exact ih (h.item hsorted (by rwa [append_cons])) hheaders

end

section

variable (hsorted : (sequencesOf q.pending).Pairwise (· < ·)) {headers : List EventHeader}
  (hheaders : (headers.map EventHeader.sequence).Pairwise (· < ·))

include hsorted headers hheaders

theorem merged_start :
    Merged q arenaId arenaGeneration headers.length [] headers (q.submitStart headers) := by
  have hevents : q.pending = q.pending.map (q.acceptedBy arenaId arenaGeneration []) := by
    rw [map_congr_left fun e _ => acceptedBy_nil e, map_id']
  cases headers with
  | nil => exact ⟨hevents, rfl, rfl, rfl, rfl, le_rfl, fun _ h => absurd h not_mem_nil⟩
  | cons header rest =>
    have hspec := BinarySearch.lowerBound_spec hsorted header.sequence
    refine ⟨hevents, rfl, rfl, rfl, rfl, ?_, ?_⟩
    · have hle := hspec.le_length
      rwa [sequencesOf, length_map] at hle
    · intro later hlater e he
      obtain ⟨i, hi, hat⟩ := mem_take_iff_getElem.1 he
      -- the search has passed what is below the first item
      have hbelow : e.sequence < header.sequence := by
        refine hspec.below i e.sequence ?_ (lt_of_lt_of_le hi (Nat.min_le_left _ _))
        rw [sequencesOf, List.getElem?_map,
          List.getElem?_eq_getElem (lt_of_lt_of_le hi (Nat.min_le_right _ _)), hat]
        rfl
      rcases mem_cons.1 hlater with rfl | hrest
      · exact hbelow
      · exact hbelow.trans ((pairwise_cons.1 (pairwise_map.1 hheaders)).1 later hrest)

/-- **The merge of a sorted queue with sorted headers** does what the lookups do. -/
theorem submit_eq_lookup : (q.submit arenaId arenaGeneration headers).submitted =
      q.submitByLookup arenaId arenaGeneration headers := by
  have hstart : Merged q arenaId arenaGeneration headers.length [] headers
      (q.submitStart headers) := merged_start hsorted hheaders
  have h := hstart.items hsorted hheaders
  rw [nil_append] at h
  obtain ⟨hpending, hstatuses, hbitmap, haccepted, hrejected, -, -⟩ := h
  rw [hstatuses] at hbitmap haccepted hrejected
  rw [EventQueue.submit, SubmitProgress.submitted, hpending, hbitmap, haccepted, hrejected,
    hstatuses]
  rfl

end

end

theorem checkSubmit_sorted {arenaCapacity : ℕ} {previous : Option ℕ} {headers : List EventHeader}
    (h : checkSubmit arenaCapacity previous headers = .ok ()) :
    (headers.map EventHeader.sequence).Pairwise (· < ·) ∧
      ∀ p, previous = some p → ∀ header ∈ headers, p < header.sequence := by
  induction headers generalizing previous with
  | nil => simp
  | cons header rest ih =>
    simp only [checkSubmit, bind_eq_ok, guardElse_eq_ok, exists_const] at h
    obtain ⟨⟨hfirst, -⟩, hrest⟩ := h
    obtain ⟨hsorted, habove⟩ := ih hrest
    have habove := habove header.sequence rfl
    refine ⟨?_, ?_⟩
    · simpa using ⟨habove, by simpa using hsorted⟩
    · intro p hp other hother
      rcases mem_cons.1 hother with rfl | hmem
      · exact hfirst p hp
      · exact (hfirst p hp).trans (habove other hmem)

theorem submitBatch_eq_lookup {rt : Runtime}
    (hsorted : ∀ i, (sequencesOf (rt.resources i).queue.pending).Pairwise (· < ·))
    (inst session : Handle) (request : Option SubmitRequest) (result : Option SubmitResult) :
    submitBatch rt inst session request result =
      submitBatchByLookup rt inst session request result := by
  unfold submitBatch submitBatchByLookup
  cases hadmission : submitAdmission rt inst session request result with
  | error status => rfl
  | ok plan =>
    have hheaders := (checkSubmit_sorted (submitAdmission_ok hadmission).2.2.2).1
    have hsubmitted : (plan.submission rt).submitted =
        (rt.resources plan.session).queue.submitByLookup plan.request.arena.resourceId
          plan.request.arenaGeneration plan.request.items :=
      submit_eq_lookup (hsorted plan.session) hheaders
    show plan.submit rt = plan.submitByLookup rt
    rw [BatchPlan.submitByLookup, ← hsubmitted]
    rfl

variable {σ : Type}

/-- **The merge is a lookup of each item**, in every run and with any handles: for
sorted headers over the queue of any slot, and for whole calls. -/
theorem submit_batch_eq_lookup (world : σ) (calls : List (Call σ)) :
    let rt := (run step (Tracked.initial world) calls).runtime
    (∀ (i : Fin maxResources) (arenaId arenaGeneration : ℕ) (headers : List EventHeader),
      (headers.map EventHeader.sequence).Pairwise (· < ·) →
        ((rt.resources i).queue.submit arenaId arenaGeneration headers).submitted =
          (rt.resources i).queue.submitByLookup arenaId arenaGeneration headers) ∧
      ∀ (inst session : Handle) (request : Option SubmitRequest) (result : Option SubmitResult),
        submitBatch rt inst session request result =
          submitBatchByLookup rt inst session request result :=
  ⟨fun i _ _ _ hheaders => submit_eq_lookup (discipline_run world calls i).sorted hheaders,
    submitBatch_eq_lookup fun i => (discipline_run world calls i).sorted⟩

/-- Of four events that were polled, the second and the last are submitted, with
an event between them that is not pending. -/
def polledFour : List (Call Unit) :=
  let it : Installation := {}
  it.setUp ++ [it.publish 5 3, it.publish 9 1, it.poll]

theorem polledFour_lookup :
    let q := ((run step (Tracked.initial ()) polledFour).runtime.resources 3).queue
    let headers := [Installation.header 6, Installation.header 8, Installation.header 9]
    (q.submit 5 1 headers).submitted = q.submitByLookup 5 1 headers :=
  (submit_batch_eq_lookup () polledFour).1 3 5 1 _ (by decide)

end PooFlow
