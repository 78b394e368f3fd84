import PooFlow.Runtime.Batch

namespace PooFlow

open Foundation List PendingEvent

theorem checkPublish_ok {arenaCapacity : ℕ} {previous : Option ℕ} {headers : List EventHeader}
    (h : checkPublish arenaCapacity previous headers = .ok ()) :
    (∀ header ∈ headers, sliceInBounds header.payloadOffset header.payloadLength
      arenaCapacity) ∧
      (headers.map EventHeader.sequence).Pairwise (· < ·) ∧
      ∀ p, previous = some p → ∀ header ∈ headers, p < header.sequence := by
  induction headers generalizing previous with
  | nil => simp
  | cons header rest ih =>
    simp only [checkPublish, bind_eq_ok, guardElse_eq_ok, exists_const] at h
    obtain ⟨_, hbounds, hfirst, hrest⟩ := h
    obtain ⟨ihbounds, ihsorted, ihabove⟩ := ih hrest
    have habove := ihabove header.sequence rfl
    refine ⟨?_, ?_, ?_⟩
    · simpa using ⟨hbounds, ihbounds⟩
    · simpa using ⟨habove, by simpa using ihsorted⟩
    · intro p hp other hother
      rcases mem_cons.1 hother with rfl | hmem
      · exact hfirst p hp
      · exact lt_trans (hfirst p hp) (habove other hmem)

/-- An event with, possibly, one more flag set where `marks` allows it. -/
def Restamped (marks : PendingEvent → PendingEvent → Prop) (before after : PendingEvent) : Prop :=
  after = before ∨ marks before after

def Polls (before after : PendingEvent) : Prop :=
  before.polled = false ∧ after = { before with polled := true }

def Accepts (before after : PendingEvent) : Prop :=
  before.polled = true ∧ before.accepted = false ∧ after = { before with accepted := true }

/-- A change of flags: everything else of an event stays. -/
structure SameEvent (before after : PendingEvent) : Prop where
  header : after.header = before.header
  arenaId : after.arenaId = before.arenaId
  arenaGeneration : after.arenaGeneration = before.arenaGeneration

variable {before after : PendingEvent}

theorem SameEvent.sequence (h : SameEvent before after) : after.sequence = before.sequence := by
  rw [PendingEvent.sequence, h.header]

theorem Restamped.polls_same (h : Restamped Polls before after) :
    SameEvent before after ∧ after.accepted = before.accepted ∧
      after.acknowledged = before.acknowledged := by
  rcases h with rfl | ⟨_, rfl⟩ <;> exact ⟨⟨rfl, rfl, rfl⟩, rfl, rfl⟩

theorem Restamped.accepts_same (h : Restamped Accepts before after) :
    SameEvent before after ∧ after.polled = before.polled ∧
      after.acknowledged = before.acknowledged := by
  rcases h with rfl | ⟨_, _, rfl⟩ <;> exact ⟨⟨rfl, rfl, rfl⟩, rfl, rfl⟩

theorem Restamped.accepts_trans {a b c : PendingEvent} (hab : Restamped Accepts a b)
    (hbc : Restamped Accepts b c) : Restamped Accepts a c := by
  rcases hab with rfl | ⟨hpolled, haccepted, rfl⟩
  · exact hbc
  · rcases hbc with rfl | ⟨_, hagain, rfl⟩
    · exact Or.inr ⟨hpolled, haccepted, rfl⟩
    · cases hagain

theorem restamped_trans {xs ys zs : List PendingEvent}
    (hxy : List.Forall₂ (Restamped Accepts) xs ys) (hyz : List.Forall₂ (Restamped Accepts) ys zs) :
    List.Forall₂ (Restamped Accepts) xs zs := by
  induction hxy generalizing zs with
  | nil => exact hyz
  | cons hab _ ih =>
    cases hyz with
    | cons hbc htail => exact .cons (hab.accepts_trans hbc) (ih htail)

theorem forall₂_unstamped (marks : PendingEvent → PendingEvent → Prop)
    (events : List PendingEvent) : List.Forall₂ (Restamped marks) events events :=
  forall₂_same.2 fun _ _ => Or.inl rfl

theorem forall₂_sequences {R : PendingEvent → PendingEvent → Prop}
    (hR : ∀ a b, R a b → b.sequence = a.sequence) {xs ys : List PendingEvent}
    (h : List.Forall₂ R xs ys) : sequencesOf ys = sequencesOf xs := by
  induction h with
  | nil => rfl
  | cons hxy _ ih => simp only [sequencesOf, map_cons] at ih ⊢; rw [hR _ _ hxy, ih]

namespace EventQueue

variable (q : EventQueue) (arenaId arenaGeneration : ℕ)

theorem window_split :
    q.pending = q.pending.take q.pollCursor ++ q.window arenaId arenaGeneration ++
      q.pending.drop (q.pollCursor + (q.window arenaId arenaGeneration).length) := by
  have hprefix : q.window arenaId arenaGeneration <+: q.pending.drop q.pollCursor :=
    takeWhile_prefix _
  obtain ⟨rest, hrest⟩ := hprefix
  have hdrop : q.pending.drop (q.pollCursor + (q.window arenaId arenaGeneration).length) =
      rest := by
    rw [← drop_drop, ← hrest, drop_left]
  rw [hdrop, append_assoc, hrest, take_append_drop]

theorem mem_window {e : PendingEvent} (h : e ∈ q.window arenaId arenaGeneration) :
    e.polled = false ∧ e.arenaId = arenaId ∧ e.arenaGeneration = arenaGeneration := by
  have hall := mem_takeWhile_imp h
  simpa [and_assoc] using hall

theorem poll_events :
    List.Forall₂ (Restamped Polls) q.pending (q.poll arenaId arenaGeneration).pending := by
  have hwindow : List.Forall₂ (Restamped Polls) (q.window arenaId arenaGeneration)
      ((q.window arenaId arenaGeneration).map (fun e => { e with polled := true })) := by
    rw [forall₂_map_right_iff]
    apply forall₂_same.2
    intro e he
    exact Or.inr ⟨(q.mem_window arenaId arenaGeneration he).1, rfl⟩
  nth_rewrite 1 [q.window_split arenaId arenaGeneration]
  exact rel_append (rel_append (forall₂_unstamped _ _) hwindow)
    (forall₂_unstamped _ _)

end EventQueue

namespace SubmitProgress

variable {arenaId arenaGeneration : ℕ} {p : SubmitProgress} {header : EventHeader}

theorem item_accepts (h : itemStatus arenaId arenaGeneration header (p.met header) = .ok) :
    ∃ e, p.pending[advance p.pending header.sequence p.index]? = some e ∧
      e.sequence = header.sequence ∧ e.polled = true ∧ e.accepted = false ∧
      e.arenaId = arenaId ∧ e.arenaGeneration = arenaGeneration := by
  cases hmet : p.met header with
  | none =>
    rw [hmet] at h
    cases h
  | some e =>
    rw [hmet] at h
    obtain ⟨hat, hsequence⟩ := Option.filter_eq_some_iff.1 hmet
    simp only [itemStatus] at h
    split at h
    · cases h
    · next hmatch =>
      split at h
      · cases h
      · next haccepted =>
        refine ⟨e, hat, by simpa using hsequence, ?_⟩
        simp only [not_or, not_not, Bool.not_eq_false, ne_eq] at hmatch
        exact ⟨hmatch.1, by simpa using haccepted, hmatch.2.1, hmatch.2.2.1⟩

theorem item_statuses : (p.item arenaId arenaGeneration header).statuses =
      p.statuses ++ [itemStatus arenaId arenaGeneration header (p.met header)] := rfl

theorem item_pending_of_ok (h : itemStatus arenaId arenaGeneration header (p.met header) = .ok) :
    (p.item arenaId arenaGeneration header).pending =
      p.pending.modify (advance p.pending header.sequence p.index)
        (fun e => { e with accepted := true }) :=
  if_pos h

theorem item_pending_of_ne (h : itemStatus arenaId arenaGeneration header (p.met header) ≠ .ok) :
    (p.item arenaId arenaGeneration header).pending = p.pending :=
  if_neg h

theorem modify_events {events : List PendingEvent} {index : ℕ} {e : PendingEvent}
    (hat : events[index]? = some e) (hpolled : e.polled = true) (haccepted : e.accepted = false) :
    List.Forall₂ (Restamped Accepts) events
      (events.modify index (fun e => { e with accepted := true })) := by
  rw [forall₂_iff_get]
  refine ⟨by simp, ?_⟩
  intro i hi hi'
  simp only [get_eq_getElem, getElem_modify]
  split
  · next heq =>
    subst heq
    obtain ⟨_, hget⟩ := List.getElem?_eq_some_iff.1 hat
    rw [hget]
    exact Or.inr ⟨hpolled, haccepted, rfl⟩
  · exact Or.inl rfl

theorem item_events : List.Forall₂ (Restamped Accepts) p.pending
      (p.item arenaId arenaGeneration header).pending := by
  by_cases h : itemStatus arenaId arenaGeneration header (p.met header) = .ok
  · obtain ⟨e, hat, _, hpolled, haccepted, _⟩ := item_accepts h
    rw [item_pending_of_ok h]
    exact modify_events hat hpolled haccepted
  · rw [item_pending_of_ne h]
    exact forall₂_unstamped _ _

theorem items_events (headers : List EventHeader) : List.Forall₂ (Restamped Accepts) p.pending
      (p.items arenaId arenaGeneration headers).pending := by
  induction headers generalizing p with
  | nil => exact forall₂_unstamped _ _
  | cons header rest ih =>
    exact restamped_trans item_events (ih (p := p.item arenaId arenaGeneration header))

end SubmitProgress

variable (q : EventQueue) (arenaId first last : ℕ)

theorem submit_events (arenaGeneration : ℕ) (headers : List EventHeader) :
    List.Forall₂ (Restamped Accepts) q.pending
      (q.submit arenaId arenaGeneration headers).pending :=
  SubmitProgress.items_events (p := q.submitStart headers) headers

theorem acknowledge_same (e : PendingEvent) : SameEvent e (e.acknowledge arenaId first last) ∧
      (e.acknowledge arenaId first last).polled = e.polled ∧
      (e.acknowledge arenaId first last).accepted = e.accepted := by
  unfold acknowledge
  split <;> exact ⟨⟨rfl, rfl, rfl⟩, rfl, rfl⟩

theorem acknowledge_events : ∃ consumed, (q.acknowledge arenaId first last).pending =
      (q.pending.drop consumed).map (acknowledge arenaId first last) ∧
      (q.acknowledge arenaId first last).pollCursor = q.pollCursor - consumed ∧
      consumed ≤ q.pending.length ∧
      ∀ e ∈ q.pending.take consumed, (e.acknowledge arenaId first last).acknowledged = true := by
  let marked := q.pending.map (acknowledge arenaId first last)
  let taken := marked.takeWhile (fun e => e.acknowledged)
  refine ⟨taken.length, ?_, rfl, ?_, ?_⟩
  · rw [map_drop]
    rfl
  · have hle := (takeWhile_sublist (l := marked) (fun e => e.acknowledged)).length_le
    simpa [marked] using hle
  · intro e he
    have htake : (q.pending.take taken.length).map (acknowledge arenaId first last) =
        taken := by
      rw [map_take]
      exact (prefix_iff_eq_take.1 ( takeWhile_prefix _)).symm
    have hmem : e.acknowledge arenaId first last ∈ taken := by
      rw [← htake]
      exact mem_map_of_mem he
    exact mem_takeWhile_imp hmem

end PooFlow
