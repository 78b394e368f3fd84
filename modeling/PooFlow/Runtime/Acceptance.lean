import PooFlow.Runtime.QueueLemmas
import PooFlow.Runtime.QueueMoves

namespace PooFlow

open Foundation List

variable {σ : Type}

def StartsAbove (v : QueueView) (headers : List EventHeader) : Prop :=
  v.queue.pending = [] →
    ∀ header, headers.head? = some header → ∀ s ∈ v.published, s < header.sequence

instance (v : QueueView) (headers : List EventHeader) : Decidable (StartsAbove v headers) :=
  inferInstanceAs (Decidable (_ → _))

/-- **Acceptance invariant**: the queue holds the most recent publications, and
what has been accepted and is still queued is marked. -/
structure Acceptance (v : QueueView) : Prop where
  published_sorted : v.published.Pairwise (· < ·)
  suffix : sequencesOf v.queue.pending <:+ v.published
  accepted_published : ∀ s ∈ v.accepted, s ∈ v.published
  marked : ∀ e ∈ v.queue.pending, e.sequence ∈ v.accepted → e.accepted = true
  accepted_nodup : v.accepted.Nodup

section

variable {v : QueueView}

theorem Acceptance.pending_sorted (h : Acceptance v) :
    (sequencesOf v.queue.pending).Pairwise (· < ·) :=
  h.published_sorted.sublist h.suffix.sublist

variable {queue : EventQueue} {arenaCapacity : ℕ} {headers : List EventHeader} {p : SubmitProgress}

theorem Acceptance.restamp (h : Acceptance v) {R : PendingEvent → PendingEvent → Prop}
    (hevents : List.Forall₂ R v.queue.pending queue.pending)
    (hR : ∀ a b, R a b → b.sequence = a.sequence ∧ b.accepted = a.accepted) :
    Acceptance { v with queue := queue } where
  published_sorted := h.published_sorted
  suffix := by
    rw [forall₂_sequences (fun a b hab => (hR a b hab).1) hevents]
    exact h.suffix
  accepted_published := h.accepted_published
  marked := by
    intro e he haccepted
    obtain ⟨e₀, he₀, hsame⟩ := forall₂_mem_right hevents he
    obtain ⟨hseq, hacc⟩ := hR _ _ hsame
    rw [hacc]
    exact h.marked e₀ he₀ (hseq ▸ haccepted)
  accepted_nodup := h.accepted_nodup

theorem Acceptance.drop (h : Acceptance v) (consumed : ℕ)
    (hqueue : queue.pending = v.queue.pending.drop consumed) :
    Acceptance { v with queue := queue } where
  published_sorted := h.published_sorted
  suffix := by
    have hdrop : sequencesOf queue.pending <:+ sequencesOf v.queue.pending := by
      rw [hqueue, sequencesOf, map_drop]
      exact drop_suffix _ _
    exact hdrop.trans h.suffix
  accepted_published := h.accepted_published
  marked := by
    intro e he
    exact h.marked e (mem_of_mem_drop (hqueue ▸ he))
  accepted_nodup := h.accepted_nodup

section

variable (h : Acceptance v)
  (hcheck : checkPublish arenaCapacity v.queue.lastSequence? headers = .ok ())
  (habove : StartsAbove v headers)

include h hcheck habove

theorem Acceptance.published_below {s : ℕ} (hs : s ∈ v.published) {header : EventHeader}
    (hheader : header ∈ headers) : s < header.sequence := by
  obtain ⟨_, hsorted, hprevious⟩ := checkPublish_ok hcheck
  rcases eq_nil_or_concat v.queue.pending with hempty | ⟨front, last, hlast⟩
  · -- the queue is empty: only the condition orders the two
    cases headers with
    | nil => cases hheader
    | cons first rest =>
      have hfirst := habove hempty first rfl s hs
      rcases mem_cons.1 hheader with rfl | hrest
      · exact hfirst
      · rw [map_cons, pairwise_cons] at hsorted
        exact lt_trans hfirst (hsorted.1 _ (mem_map_of_mem hrest))
  · -- the last queued sequence is the last published one
    have hqueued : v.queue.lastSequence? = some last.sequence := by
      simp [EventQueue.lastSequence?, hlast]
    apply lt_of_le_of_lt _ (hprevious _ hqueued header hheader)
    obtain ⟨gone, hgone⟩ := h.suffix
    have hpublished : v.published = (gone ++ sequencesOf front) ++ [last.sequence] := by
      rw [← hgone, hlast, sequencesOf, concat_eq_append, map_append, append_assoc]
      rfl
    have hordered := h.published_sorted
    rw [hpublished, pairwise_append] at hordered
    rw [hpublished, mem_append] at hs
    rcases hs with hs | hs
    · exact le_of_lt (hordered.2.2 s hs _ (mem_singleton_self _))
    · exact le_of_eq (mem_singleton.1 hs)

theorem Acceptance.publish {arenaId arenaGeneration : ℕ} : Acceptance
      { v with
        queue := v.queue.publish arenaId arenaGeneration headers
        published := v.published ++ headers.map EventHeader.sequence } := by
  have hsequences : sequencesOf (v.queue.publish arenaId arenaGeneration headers).pending =
      sequencesOf v.queue.pending ++ headers.map EventHeader.sequence := by
    simp [EventQueue.publish, sequencesOf, PendingEvent.published, Function.comp_def]
  have hbelow : ∀ s ∈ v.published, ∀ s' ∈ headers.map EventHeader.sequence, s < s' := by
    intro s hs s' hs'
    obtain ⟨header, hheader, rfl⟩ := mem_map.1 hs'
    exact h.published_below hcheck habove hs hheader
  refine ⟨?_, ?_, ?_, ?_, h.accepted_nodup⟩
  · exact pairwise_append.2 ⟨h.published_sorted, (checkPublish_ok hcheck).2.1, hbelow⟩
  · obtain ⟨gone, hgone⟩ := h.suffix
    exact ⟨gone, by rw [hsequences, ← hgone, append_assoc]⟩
  · intro s hs
    exact mem_append_left _ (h.accepted_published s hs)
  · intro e he haccepted
    rcases mem_append.1 he with hold | hnew
    · exact h.marked e hold haccepted
    · obtain ⟨header, hheader, rfl⟩ := mem_map.1 hnew
      have hlt := hbelow _ (h.accepted_published _ haccepted) _
        (mem_map_of_mem hheader)
      exact absurd hlt (lt_irrefl _)

end

/-- **Accepting an unmarked event.** Its sequence has not been accepted before,
since the event would be marked. -/
theorem Acceptance.accept (h : Acceptance v) {index : ℕ} {e : PendingEvent}
    (hat : v.queue.pending[index]? = some e) (haccepted : e.accepted = false) : Acceptance
      { v with
        queue := { v.queue with
          pending := v.queue.pending.modify index (fun e => { e with accepted := true }) }
        accepted := v.accepted ++ [e.sequence] } := by
  have hmem : e ∈ v.queue.pending := mem_of_getElem? hat
  have hpublished : e.sequence ∈ v.published :=
    h.suffix.subset (mem_map_of_mem hmem)
  have hnew : e.sequence ∉ v.accepted := by
    intro hold
    rw [h.marked e hmem hold] at haccepted
    cases haccepted
  have hsequences : sequencesOf
      (v.queue.pending.modify index (fun e => { e with accepted := true })) =
        sequencesOf v.queue.pending := by
    apply ext_getElem
    · simp [sequencesOf]
    · intro i _ _
      simp only [sequencesOf, getElem_map, getElem_modify]
      split <;> rfl
  refine ⟨h.published_sorted, hsequences ▸ h.suffix, ?_, ?_, ?_⟩
  · intro s hs
    rcases mem_append.1 hs with hold | hs
    · exact h.accepted_published s hold
    · exact mem_singleton.1 hs ▸ hpublished
  · intro e' he' hlogged
    obtain ⟨i, hi, rfl⟩ := getElem_of_mem he'
    simp only [length_modify] at hi
    simp only [getElem_modify] at hlogged ⊢
    split
    · rfl
    · next hne =>
      rw [if_neg hne] at hlogged
      rcases mem_append.1 hlogged with hold | hsame
      · exact h.marked _ (getElem_mem hi) hold
      · -- two places with one sequence are one place
        rw [mem_singleton] at hsame
        obtain ⟨hindex, hget⟩ := List.getElem?_eq_some_iff.1 hat
        have hinj := pairwise_iff_getElem.1 h.pending_sorted
        simp only [sequencesOf, getElem_map, length_map] at hinj
        rcases Nat.lt_or_gt_of_ne hne with hlt | hgt
        · have := hinj index i hindex hi hlt
          rw [hget, hsame] at this
          exact absurd this (lt_irrefl _)
        · have := hinj i index hi hindex hgt
          rw [hget, hsame] at this
          exact absurd this (lt_irrefl _)
  · rw [nodup_append]
    refine ⟨h.accepted_nodup, nodup_singleton _, ?_⟩
    intro a ha b hb hab
    rw [mem_singleton] at hb
    exact hnew (hb ▸ hab ▸ ha)

theorem acceptedOf_cons (header : EventHeader) (headers : List EventHeader) (status : Status)
    (statuses : List Status) : acceptedOf (header :: headers) (status :: statuses) =
      (if status = .ok then [header.sequence] else []) ++ acceptedOf headers statuses := by
  unfold acceptedOf
  by_cases h : status = .ok <;> simp [h]

/-- One turn of the submission loop. -/
theorem Acceptance.item (h : Acceptance v) {arenaId arenaGeneration : ℕ}
    (hp : p.pending = v.queue.pending) (header : EventHeader) : Acceptance
      { v with
        queue := { v.queue with pending := (p.item arenaId arenaGeneration header).pending }
        accepted := v.accepted ++
          if itemStatus arenaId arenaGeneration header (p.met header) = .ok then
            [header.sequence]
          else [] } := by
  by_cases hok : itemStatus arenaId arenaGeneration header (p.met header) = .ok
  · obtain ⟨e, hat, hsequence, _, haccepted, _⟩ := SubmitProgress.item_accepts hok
    rw [hp] at hat
    have haccept := h.accept hat haccepted
    rw [hsequence] at haccept
    rw [SubmitProgress.item_pending_of_ok hok, if_pos hok, hp]
    exact haccept
  · rw [SubmitProgress.item_pending_of_ne hok, if_neg hok, append_nil, hp]
    exact h

-- The loop appends one status for each header, so the log of the whole batch is
-- the log of its items in order.
theorem Acceptance.items (arenaId arenaGeneration : ℕ) (headers : List EventHeader) {v : QueueView}
    (h : Acceptance v) (hp : p.pending = v.queue.pending) :
    ∃ statuses, (p.items arenaId arenaGeneration headers).statuses = p.statuses ++ statuses ∧
      Acceptance
        { v with
          queue := { v.queue with
            pending := (p.items arenaId arenaGeneration headers).pending }
          accepted := v.accepted ++ acceptedOf headers statuses } := by
  induction headers generalizing p v with
  | nil =>
    refine ⟨[], (append_nil _).symm, ?_⟩
    simpa [SubmitProgress.items, acceptedOf, hp] using h
  | cons header rest ih =>
    obtain ⟨statuses, hstatuses, hrest⟩ := ih (p := p.item arenaId arenaGeneration header)
      (h.item hp header) rfl
    refine ⟨itemStatus arenaId arenaGeneration header (p.met header) :: statuses, ?_, ?_⟩
    · change ((p.item arenaId arenaGeneration header).items _ _ rest).statuses = _
      rw [hstatuses, SubmitProgress.item_statuses, append_assoc, singleton_append]
    · rw [acceptedOf_cons, ← append_assoc]
      exact hrest

theorem Acceptance.submit (h : Acceptance v) (arenaId arenaGeneration : ℕ)
    (headers : List EventHeader) : Acceptance
      { v with
        queue := { v.queue with
          pending := (v.queue.submit arenaId arenaGeneration headers).pending }
        accepted := v.accepted ++
          acceptedOf headers (v.queue.submit arenaId arenaGeneration headers).statuses } := by
  obtain ⟨statuses, hstatuses, hitems⟩ :=
    Acceptance.items arenaId arenaGeneration headers (p := v.queue.submitStart headers) h rfl
  have hall : (v.queue.submit arenaId arenaGeneration headers).statuses = statuses := hstatuses
  rw [hall]
  exact hitems

/-- **Every move keeps the invariant.** -/
theorem Acceptance.move {w : QueueView} (hmove : QueueMove StartsAbove v w)
    (h : Acceptance v) : Acceptance w := by
  cases hmove with
  | renew hpending hcursor =>
    refine ⟨List.Pairwise.nil, ?_, by simp, ?_, nodup_nil⟩
    · simp [hpending, sequencesOf]
    · simp [hpending]
  | release => exact h.drop v.queue.pending.length (by simp)
  | publish arenaId arenaGeneration hroom hcheck habove => exact h.publish hcheck habove
  | poll arenaId arenaGeneration =>
    exact h.restamp (v.queue.poll_events arenaId arenaGeneration) fun a b hab =>
      ⟨hab.polls_same.1.sequence, hab.polls_same.2.1⟩
  | submit arenaId arenaGeneration hcheck => exact h.submit arenaId arenaGeneration _
  | acknowledge arenaId first last =>
    obtain ⟨consumed, hpending, _⟩ := acknowledge_events v.queue arenaId first last
    have hmarked : Acceptance { v with queue := { v.queue with
        pending := v.queue.pending.map (PendingEvent.acknowledge arenaId first last) } } := by
      apply h.restamp (R := fun a b => b = a.acknowledge arenaId first last)
      · rw [forall₂_map_right_iff]
        exact forall₂_same.2 fun _ _ => rfl
      · rintro a _ rfl
        obtain ⟨hsame, _, haccepted⟩ := acknowledge_same arenaId first last a
        exact ⟨hsame.sequence, haccepted⟩
    exact hmarked.drop consumed (by rw [hpending, map_drop])

end

/-- **One call.** -/
theorem acceptance_step {t : Tracked σ} {c : Call σ} (hpublishes : c.Publishes StartsAbove t)
    (h : ∀ i, Acceptance (t.queueView i)) (i : Fin maxResources) :
    Acceptance ((step t c).queueView i) :=
  (queue_step i t c hpublishes).invariant (fun _ _ hmove hv => hv.move hmove) (h i)

theorem acceptance_initial (world : σ) (i : Fin maxResources) :
    Acceptance ((Tracked.initial world).queueView i) :=
  ⟨List.Pairwise.nil, suffix_refl _, by simp [Tracked.initial, Tracked.queueView, queueView],
    by simp [Tracked.initial, Tracked.queueView, queueView, Runtime.initial], nodup_nil⟩

/-- **Exactly-once acceptance**: in a run whose publications to an empty queue
start above all earlier ones, every session's publications are in strictly
increasing order and no sequence is accepted twice. -/
theorem accepted_once_of_startsAbove (world : σ) (calls : List (Call σ))
    (hruns : Along step (fun t c => c.Publishes StartsAbove t) (Tracked.initial world) calls)
    (i : Fin maxResources) :
    ((run step (Tracked.initial world) calls).life i).published.Pairwise (· < ·) ∧
      ((run step (Tracked.initial world) calls).life i).accepted.Nodup := by
  have hinv := hruns.invariant (I := fun t => ∀ i, Acceptance (t.queueView i))
    (fun t c h hc => acceptance_step hc h) (acceptance_initial world) i
  exact ⟨hinv.published_sorted, hinv.accepted_nodup⟩

def twoBatches (first second : ℕ) : List (Call Unit) :=
  let it : Installation := {}
  it.setUp ++ [it.publish first 1, it.poll, it.submit first 1, it.ack (Installation.lease 1),
    it.publish second 1, it.poll, it.submit second 1, it.ack (Installation.lease 2)]

theorem accepted_once_in_order :
    ((run step (Tracked.initial ()) (twoBatches 5 6)).life 3).published.Pairwise (· < ·) ∧
      ((run step (Tracked.initial ()) (twoBatches 5 6)).life 3).accepted.Nodup :=
  accepted_once_of_startsAbove () (twoBatches 5 6) (by decide +kernel) 3

/-- **The condition is needed**: sequence 5 is published and accepted twice. -/
theorem accepted_twice : ¬∀ (calls : List (Call Unit)) (i : Fin maxResources),
      ((run step (Tracked.initial ()) calls).life i).published.Pairwise (· < ·) ∧
        ((run step (Tracked.initial ()) calls).life i).accepted.Nodup := by
  intro h
  have hpublished : ((run step (Tracked.initial ()) (twoBatches 5 5)).life 3).published =
      [5, 5] := by decide +kernel
  have haccepted : ((run step (Tracked.initial ()) (twoBatches 5 5)).life 3).accepted =
      [5, 5] := by decide +kernel
  have hboth := h (twoBatches 5 5) 3
  rw [hpublished, haccepted] at hboth
  exact absurd hboth (by decide)

end PooFlow
