import PooFlow.Runtime.Mediation
import PooFlow.Runtime.QueueLemmas

namespace PooFlow

open Foundation List EventQueue PendingEvent

/-- **Queue invariant**: sequences increase, and only polled events are
accepted or acknowledged. -/
structure Tidy (q : EventQueue) : Prop where
  sorted : (sequencesOf q.pending).Pairwise (· < ·)
  accepted_polled : ∀ e ∈ q.pending, e.accepted = true → e.polled = true
  acknowledged_polled : ∀ e ∈ q.pending, e.acknowledged = true → e.polled = true

theorem Tidy.empty {q : EventQueue} (h : q.pending = []) : Tidy q := by
  refine ⟨?_, ?_, ?_⟩
  · rw [h]
    exact List.Pairwise.nil
  · simp [h]
  · simp [h]

/-- The range of a lease over arena `arenaId` at `arenaGeneration`. -/
structure LeaseRange where
  arenaId : ℕ
  arenaGeneration : ℕ
  first : ℕ
  last : ℕ

def Resource.range (lease : Resource) : LeaseRange :=
  ⟨lease.parentId, lease.epoch, lease.leaseFirstSequence, lease.leaseLastSequence⟩

/-- **Range invariant**: the queued events in the range are of the lease's
arena, the last one is queued and unacknowledged, and the cursor is past it. -/
structure Covers (q : EventQueue) (range : LeaseRange) : Prop where
  ordered : range.first ≤ range.last
  events : ∀ e ∈ q.pending, range.first ≤ e.sequence → e.sequence ≤ range.last →
    e.arenaId = range.arenaId ∧ e.arenaGeneration = range.arenaGeneration
  held : ∃ e ∈ q.pending, e.sequence = range.last ∧ e.acknowledged = false
  passed : ∀ sequence ∈ (sequencesOf q.pending).drop q.pollCursor, range.last < sequence

theorem mem_sequencesOf {events : List PendingEvent} {e : PendingEvent} (h : e ∈ events) :
    e.sequence ∈ sequencesOf events := mem_map_of_mem h

theorem forall₂_mem_left {α β : Type*} {R : α → β → Prop} {xs : List α} {ys : List β}
    (h : List.Forall₂ R xs ys) {x : α} (hx : x ∈ xs) : ∃ y ∈ ys, R x y :=
  forall₂_mem_right h.flip hx

section

variable {q q' : EventQueue} {range : LeaseRange}

variable {e : PendingEvent} {arenaCapacity : ℕ} {headers : List EventHeader}

theorem Tidy.eq_of_sequence (h : Tidy q) {e' : PendingEvent} (he : e ∈ q.pending)
    (he' : e' ∈ q.pending) (hsame : e.sequence = e'.sequence) : e = e' := by
  have hnodup : (sequencesOf q.pending).Nodup := h.sorted.imp (fun hlt => ne_of_lt hlt)
  exact inj_on_of_nodup_map hnodup he he' hsame

theorem Tidy.le_last (h : Tidy q) (he : e ∈ q.pending) :
    ∃ last, q.lastSequence? = some last ∧ e.sequence ≤ last := by
  rcases eq_nil_or_concat q.pending with hempty | ⟨front, final, hfinal⟩
  · rw [hempty] at he
    cases he
  · refine ⟨final.sequence, by simp [lastSequence?, hfinal], ?_⟩
    have hsorted := h.sorted
    rw [hfinal, concat_eq_append] at he hsorted
    rw [sequencesOf, map_append, pairwise_append] at hsorted
    rcases mem_append.1 he with hfront | hlast
    · exact le_of_lt (hsorted.2.2 _ (mem_sequencesOf hfront) _ (by simp))
    · exact le_of_eq (congrArg sequence (mem_singleton.1 hlast))

variable {R : PendingEvent → PendingEvent → Prop} {arenaId arenaGeneration : ℕ}

theorem Tidy.restamp (h : Tidy q) (hevents : List.Forall₂ R q.pending q'.pending)
    (hsequence : ∀ a b, R a b → b.sequence = a.sequence) (hflags : ∀ a ∈ q.pending, ∀ b, R a b →
      (b.accepted = true → b.polled = true) ∧ (b.acknowledged = true → b.polled = true)) :
    Tidy q' where
  sorted := by
    rw [forall₂_sequences hsequence hevents]
    exact h.sorted
  accepted_polled := by
    intro e he
    obtain ⟨e₀, he₀, hR⟩ := forall₂_mem_right hevents he
    exact (hflags e₀ he₀ e hR).1
  acknowledged_polled := by
    intro e he
    obtain ⟨e₀, he₀, hR⟩ := forall₂_mem_right hevents he
    exact (hflags e₀ he₀ e hR).2

theorem Covers.restamp (h : Covers q range) (hevents : List.Forall₂ R q.pending q'.pending)
    (hR : ∀ a b, R a b → SameEvent a b ∧ b.acknowledged = a.acknowledged)
    (hcursor : q.pollCursor ≤ q'.pollCursor) : Covers q' range where
  ordered := h.ordered
  events := by
    intro e he hfirst hlast
    obtain ⟨e₀, he₀, hsame⟩ := forall₂_mem_right hevents he
    obtain ⟨hsame, _⟩ := hR _ _ hsame
    rw [hsame.sequence] at hfirst hlast
    rw [hsame.arenaId, hsame.arenaGeneration]
    exact h.events e₀ he₀ hfirst hlast
  held := by
    obtain ⟨e, he, hlast, hunacknowledged⟩ := h.held
    obtain ⟨e', he', hsame⟩ := forall₂_mem_left hevents he
    obtain ⟨hsame, hacknowledged⟩ := hR _ _ hsame
    exact ⟨e', he', hsame.sequence.trans hlast, hacknowledged.trans hunacknowledged⟩
  passed := by
    intro sequence hmem
    rw [forall₂_sequences (fun a b hab => (hR a b hab).1.sequence) hevents] at hmem
    exact h.passed sequence (drop_subset_drop_left _ hcursor hmem)

theorem Tidy.accepts (h : Tidy q)
    (hevents : List.Forall₂ (Restamped Accepts) q.pending q'.pending) : Tidy q' := by
  refine h.restamp hevents (fun a b hab => hab.accepts_same.1.sequence) fun a ha b hab => ?_
  rcases hab with rfl | ⟨hpolled, _, rfl⟩
  · exact ⟨h.accepted_polled b ha, h.acknowledged_polled b ha⟩
  · exact ⟨fun _ => hpolled, fun _ => hpolled⟩

theorem Covers.accepts (h : Covers q range)
    (hevents : List.Forall₂ (Restamped Accepts) q.pending q'.pending)
    (hcursor : q'.pollCursor = q.pollCursor) : Covers q' range :=
  h.restamp hevents (fun _ _ hab => ⟨hab.accepts_same.1, hab.accepts_same.2.2⟩)
    (le_of_eq hcursor.symm)

theorem publish_sequences (q : EventQueue) (arenaId arenaGeneration : ℕ)
    (headers : List EventHeader) : sequencesOf (q.publish arenaId arenaGeneration headers).pending =
      sequencesOf q.pending ++ headers.map EventHeader.sequence := by
  simp [publish, sequencesOf, published, Function.comp_def]

section

variable (h : Tidy q) (hcheck : checkPublish arenaCapacity q.lastSequence? headers = .ok ())

include h hcheck

theorem Tidy.published_above (he : e ∈ q.pending) {header : EventHeader}
    (hheader : header ∈ headers) : e.sequence < header.sequence := by
  obtain ⟨last, hlast, hle⟩ := h.le_last he
  exact lt_of_le_of_lt hle ((checkPublish_ok hcheck).2.2 last hlast header hheader)

theorem Tidy.publish : Tidy (q.publish arenaId arenaGeneration headers) where
  sorted := by
    rw [publish_sequences, pairwise_append]
    refine ⟨h.sorted, (checkPublish_ok hcheck).2.1, ?_⟩
    intro s hs s' hs'
    obtain ⟨e, he, rfl⟩ := mem_map.1 hs
    obtain ⟨header, hheader, rfl⟩ := mem_map.1 hs'
    exact h.published_above hcheck he hheader
  accepted_polled := by
    intro e he
    rcases mem_append.1 he with hold | hnew
    · exact h.accepted_polled e hold
    · obtain ⟨header, _, rfl⟩ := mem_map.1 hnew
      intro haccepted
      cases haccepted
  acknowledged_polled := by
    intro e he
    rcases mem_append.1 he with hold | hnew
    · exact h.acknowledged_polled e hold
    · obtain ⟨header, _, rfl⟩ := mem_map.1 hnew
      intro hacknowledged
      cases hacknowledged

end

theorem Covers.publish (h : Covers q range) (htidy : Tidy q)
    (hcheck : checkPublish arenaCapacity q.lastSequence? headers = .ok ()) :
    Covers (q.publish arenaId arenaGeneration headers) range := by
  obtain ⟨final, hfinal, hlast, hunacknowledged⟩ := h.held
  -- the last event of the range keeps new ones above it
  have habove : ∀ header ∈ headers, range.last < header.sequence := fun header hheader =>
    hlast ▸ htidy.published_above hcheck hfinal hheader
  refine ⟨h.ordered, ?_, ⟨final, mem_append_left _ hfinal, hlast, hunacknowledged⟩, ?_⟩
  · intro e he hfirst hle
    rcases mem_append.1 he with hold | hnew
    · exact h.events e hold hfirst hle
    · obtain ⟨header, hheader, rfl⟩ := mem_map.1 hnew
      exact absurd hle (not_le.2 (habove header hheader))
  · intro sequence hmem
    rw [publish_sequences, drop_append] at hmem
    rcases mem_append.1 hmem with hold | hnew
    · exact h.passed sequence hold
    · obtain ⟨header, hheader, rfl⟩ := mem_map.1 (mem_of_mem_drop hnew)
      exact habove header hheader

variable (arenaId arenaGeneration : ℕ)

theorem Tidy.poll (h : Tidy q) : Tidy (q.poll arenaId arenaGeneration) := by
  refine h.restamp (q.poll_events arenaId arenaGeneration)
    (fun a b hab => hab.polls_same.1.sequence) fun a ha b hab => ?_
  rcases hab with rfl | ⟨_, rfl⟩
  · exact ⟨h.accepted_polled b ha, h.acknowledged_polled b ha⟩
  · exact ⟨fun _ => rfl, fun _ => rfl⟩

theorem Covers.poll (h : Covers q range) : Covers (q.poll arenaId arenaGeneration) range :=
  h.restamp (q.poll_events arenaId arenaGeneration)
    (fun _ _ hab => ⟨hab.polls_same.1, hab.polls_same.2.2⟩) (Nat.le_add_right _ _)

def EventQueue.windowRange (q : EventQueue) (arenaId arenaGeneration : ℕ) : LeaseRange where
  arenaId := arenaId
  arenaGeneration := arenaGeneration
  first := ((q.window arenaId arenaGeneration).head?.map PendingEvent.sequence).getD 0
  last := ((q.window arenaId arenaGeneration).getLast?.map PendingEvent.sequence).getD 0

theorem Covers.before_window (h : Covers q range) (hready : q.window arenaId arenaGeneration ≠ []) :
    range.last < (q.windowRange arenaId arenaGeneration).first := by
  obtain ⟨e, rest, hwindow⟩ := exists_cons_of_ne_nil hready
  have hmem : e ∈ q.pending.drop q.pollCursor := by
    have hprefix := takeWhile_prefix (l := q.pending.drop q.pollCursor) (fun e =>
      !e.polled && e.arenaId == arenaId && e.arenaGeneration == arenaGeneration)
    apply hprefix.subset
    change e ∈ q.window arenaId arenaGeneration
    rw [hwindow]
    exact mem_cons_self
  have hfirst : (q.windowRange arenaId arenaGeneration).first = e.sequence := by
    simp [windowRange, hwindow]
  rw [hfirst]
  apply h.passed
  rw [sequencesOf, ← map_drop]
  exact mem_map_of_mem hmem

theorem Tidy.window_ends (h : Tidy q) (hready : q.window arenaId arenaGeneration ≠ []) :
    ∃ a ∈ q.window arenaId arenaGeneration, ∃ z ∈ q.window arenaId arenaGeneration,
      (q.windowRange arenaId arenaGeneration).first = a.sequence ∧
      (q.windowRange arenaId arenaGeneration).last = z.sequence ∧
      ∀ e ∈ q.window arenaId arenaGeneration,
        a.sequence ≤ e.sequence ∧ e.sequence ≤ z.sequence := by
  have hsorted : (sequencesOf (q.window arenaId arenaGeneration)).Pairwise (· < ·) := by
    have hsublist : List.Sublist (q.window arenaId arenaGeneration) q.pending :=
      (takeWhile_sublist _).trans (drop_sublist _ _)
    exact h.sorted.sublist (hsublist.map _)
  obtain ⟨a, rest, hhead⟩ := exists_cons_of_ne_nil hready
  obtain ⟨front, z, hlast⟩ := (eq_nil_or_concat _).resolve_left hready
  rw [concat_eq_append] at hlast
  have hfirst : ∀ e ∈ q.window arenaId arenaGeneration, a.sequence ≤ e.sequence := by
    intro e he
    rw [hhead] at he hsorted
    rw [sequencesOf, map_cons, pairwise_cons] at hsorted
    rcases mem_cons.1 he with rfl | hrest
    · exact le_refl _
    · exact le_of_lt (hsorted.1 _ (mem_sequencesOf hrest))
  have hfinal : ∀ e ∈ q.window arenaId arenaGeneration, e.sequence ≤ z.sequence := by
    intro e he
    rw [hlast] at he hsorted
    rw [sequencesOf, map_append, pairwise_append] at hsorted
    rcases mem_append.1 he with hfront | hz
    · exact le_of_lt (hsorted.2.2 _ (mem_sequencesOf hfront) _ (by simp))
    · exact le_of_eq (congrArg sequence (mem_singleton.1 hz))
  refine ⟨a, by simp [hhead], z, by simp [hlast], ?_, ?_, fun e he => ⟨hfirst e he, hfinal e he⟩⟩
  · simp [windowRange, hhead]
  · simp [windowRange, hlast]

/-- **A poll covers the window it hands out.** -/
theorem covers_window (h : Tidy q) (hready : q.window arenaId arenaGeneration ≠ []) :
    Covers (q.poll arenaId arenaGeneration) (q.windowRange arenaId arenaGeneration) := by
  obtain ⟨a, ha, z, hz, hfirst, hlast, hends⟩ := h.window_ends arenaId arenaGeneration hready
  have hsplit := q.window_split arenaId arenaGeneration
  have hsorted := h.sorted
  rw [hsplit, sequencesOf, map_append, map_append, pairwise_append, pairwise_append] at hsorted
  obtain ⟨⟨_, _, hbefore⟩, _, hafter⟩ := hsorted
  refine ⟨?_, ?_, ?_, ?_⟩
  · rw [hfirst, hlast]
    exact (hends a ha).2
  · intro e he hge hle
    rw [hfirst] at hge
    rw [hlast] at hle
    rcases mem_append.1 he with hin | hpost
    · rcases mem_append.1 hin with hpre | hwindow
      · have hlt := hbefore _ (mem_sequencesOf hpre) _ (mem_sequencesOf ha)
        exact absurd hge (not_le.2 hlt)
      · obtain ⟨e₀, he₀, rfl⟩ := mem_map.1 hwindow
        exact (q.mem_window arenaId arenaGeneration he₀).2
    · have hlt := hafter _ (mem_append_right _ (mem_sequencesOf hz)) _
        (mem_sequencesOf hpost)
      exact absurd hle (not_le.2 hlt)
  · have hunpolled := (q.mem_window arenaId arenaGeneration hz).1
    have hmem : z ∈ q.pending := by
      rw [hsplit]
      exact mem_append_left _ (mem_append_right _ hz)
    refine ⟨{ z with polled := true }, ?_, hlast.symm, ?_⟩
    · exact mem_append_left _ (mem_append_right _ (mem_map_of_mem hz))
    · by_contra hacknowledged
      have hpolled := h.acknowledged_polled z hmem (by simpa using hacknowledged)
      rw [hunpolled] at hpolled
      cases hpolled
  · intro sequence hmem
    rw [forall₂_sequences (fun _ _ hab => hab.polls_same.1.sequence)
      (q.poll_events arenaId arenaGeneration), sequencesOf, ← map_drop] at hmem
    rw [hlast]
    exact hafter _ (mem_append_right _ (mem_sequencesOf hz)) _ hmem

theorem Tidy.acknowledge (h : Tidy q) (arenaId first last : ℕ) :
    Tidy (q.acknowledge arenaId first last) := by
  obtain ⟨consumed, hpending, _⟩ := acknowledge_events q arenaId first last
  have hmem : ∀ e ∈ (q.acknowledge arenaId first last).pending,
      ∃ e₀ ∈ q.pending, e = e₀.acknowledge arenaId first last := by
    intro e he
    rw [hpending] at he
    obtain ⟨e₀, he₀, rfl⟩ := mem_map.1 he
    exact ⟨e₀, mem_of_mem_drop he₀, rfl⟩
  refine ⟨?_, ?_, ?_⟩
  · have hsame : sequencesOf (q.acknowledge arenaId first last).pending =
        (sequencesOf q.pending).drop consumed := by
      rw [hpending, sequencesOf, sequencesOf, map_map, ← map_drop]
      exact map_congr_left fun e _ => (acknowledge_same arenaId first last e).1.sequence
    rw [hsame]
    exact h.sorted.sublist (drop_sublist _ _)
  · intro e he haccepted
    obtain ⟨e₀, he₀, rfl⟩ := hmem e he
    obtain ⟨_, hpolled, hsame⟩ := acknowledge_same arenaId first last e₀
    rw [hpolled]
    exact h.accepted_polled e₀ he₀ (hsame.symm.trans haccepted)
  · intro e he hacknowledged
    obtain ⟨e₀, he₀, rfl⟩ := hmem e he
    unfold PendingEvent.acknowledge at hacknowledged ⊢
    split at hacknowledged
    · next hmarked =>
      rw [if_pos hmarked]
      exact h.accepted_polled e₀ he₀ hmarked.1
    · next hmarked =>
      rw [if_neg hmarked]
      exact h.acknowledged_polled e₀ he₀ hacknowledged

/-- **An acknowledgement of another range leaves a covered range covered.** -/
theorem Covers.acknowledge (h : Covers q range) (arenaId : ℕ) {first last : ℕ}
    (hdisjoint : last < range.first ∨ range.last < first) :
    Covers (q.acknowledge arenaId first last) range := by
  obtain ⟨consumed, hpending, hcursor, _, hconsumed⟩ := acknowledge_events q arenaId first last
  refine ⟨h.ordered, ?_, ?_, ?_⟩
  · intro e he hge hle
    rw [hpending] at he
    obtain ⟨e₀, he₀, rfl⟩ := mem_map.1 he
    obtain ⟨hsame, _⟩ := acknowledge_same arenaId first last e₀
    rw [hsame.sequence] at hge hle
    rw [hsame.arenaId, hsame.arenaGeneration]
    exact h.events e₀ (mem_of_mem_drop he₀) hge hle
  · obtain ⟨final, hfinal, hlast, hunacknowledged⟩ := h.held
    have hordered := h.ordered
    have hsame : final.acknowledge arenaId first last = final := by
      refine if_neg fun hmarked => ?_
      obtain ⟨_, _, _, hfirst, hle⟩ := hmarked
      omega
    rw [← take_append_drop consumed q.pending] at hfinal
    rcases mem_append.1 hfinal with hgone | hstays
    · have hmarked := hconsumed final hgone
      rw [hsame, hunacknowledged] at hmarked
      cases hmarked
    · refine ⟨final, ?_, hlast, hunacknowledged⟩
      rw [hpending]
      exact mem_map.2 ⟨final, hstays, hsame⟩
  · intro sequence hmem
    rw [hpending, hcursor, sequencesOf, map_map] at hmem
    have hsequences : (q.pending.drop consumed).map
        (PendingEvent.sequence ∘ PendingEvent.acknowledge arenaId first last) =
          (sequencesOf q.pending).drop consumed := by
      rw [sequencesOf, ← map_drop]
      exact map_congr_left fun e _ => (acknowledge_same arenaId first last e).1.sequence
    rw [hsequences, drop_drop] at hmem
    exact h.passed sequence (drop_subset_drop_left _ (by omega) hmem)

end

theorem Tidy.handed_out {q : EventQueue} (h : Tidy q) {first last : ℕ} (hordered : first ≤ last)
    (hrange : checkRange q first last) {e : PendingEvent}
    (he : e ∈ (q.pending.drop (pendingLowerBound q first)).take (last - first + 1)) :
    e ∈ q.pending ∧ first ≤ e.sequence ∧ e.sequence ≤ last := by
  obtain ⟨hfirst, hlast, hcount⟩ := hrange
  obtain ⟨k, hk, rfl⟩ := getElem_of_mem he
  rw [length_take, length_drop] at hk
  rw [getElem_take, getElem_drop]
  have hat : (sequencesOf q.pending)[pendingLowerBound q first + k]? =
      some (q.pending.get ⟨pendingLowerBound q first + k, by omega⟩).sequence := by
    rw [sequencesOf, List.getElem?_map, List.getElem?_eq_getElem (by omega)]
    rfl
  refine ⟨getElem_mem _, ?_, ?_⟩
  · exact BinarySearch.getElem?_le_of_sorted h.sorted (by omega) hfirst hat
  · by_cases hsame : first = last
    · subst hsame
      exact BinarySearch.getElem?_le_of_sorted h.sorted (by omega) hat hlast
    · exact BinarySearch.getElem?_le_of_sorted h.sorted (by omega) hat hlast

end PooFlow
