import PooFlow.Runtime.EntryMoves
import PooFlow.Runtime.Ranges

namespace PooFlow

open Foundation List EventQueue PendingEvent

variable {σ : Type}

def WatermarkSound (r : Resource) : Prop :=
  ∀ e ∈ r.queue.pending, e.sequence ≤ r.sequence → e.accepted = true

instance (r : Resource) : Decidable (WatermarkSound r) :=
  inferInstanceAs (Decidable (∀ e ∈ _, _))

def AboveWatermark (r : Resource) : Work → Prop
  | .publish headers =>
    r.queue.pending = [] → ∀ header ∈ headers.head?, r.sequence < header.sequence
  | _ => True


theorem foldl_max_cases (events : List PendingEvent) (mark : ℕ) :
    mark ≤ events.foldl (fun mark e => max mark e.sequence) mark ∧
      (events.foldl (fun mark e => max mark e.sequence) mark = mark ∨
        ∃ e ∈ events, events.foldl (fun mark e => max mark e.sequence) mark = e.sequence) := by
  induction events generalizing mark with
  | nil => exact ⟨le_refl _, Or.inl rfl⟩
  | cons e rest ih =>
    obtain ⟨hle, hcases⟩ := ih (max mark e.sequence)
    refine ⟨le_trans (le_max_left _ _) hle, ?_⟩
    rw [foldl_cons]
    rcases hcases with hsame | ⟨e', he', hmax⟩
    · rw [hsame]
      rcases max_choice mark e.sequence with hmark | hnew
      · exact Or.inl hmark
      · exact Or.inr ⟨e, mem_cons_self, hnew⟩
    · exact Or.inr ⟨e', mem_cons_of_mem _ he', hmax⟩

theorem le_watermark (pending : List PendingEvent) (sequence : ℕ) :
    sequence ≤ watermark pending sequence := (foldl_max_cases _ _).1

theorem watermark_cases (pending : List PendingEvent) (sequence : ℕ) :
    watermark pending sequence = sequence ∨
      ∃ e ∈ pending.takeWhile (fun e => e.accepted), watermark pending sequence = e.sequence :=
  (foldl_max_cases _ _).2

theorem accepted_of_le {events : List PendingEvent}
    (hsorted : (sequencesOf events).Pairwise (· < ·)) {e e' : PendingEvent}
    (he' : e' ∈ events.takeWhile (fun e => e.accepted)) (he : e ∈ events)
    (hle : e.sequence ≤ e'.sequence) : e.accepted = true := by
  have hsplit := takeWhile_append_dropWhile (p := fun e : PendingEvent => e.accepted)
    (l := events)
  rw [← hsplit] at he hsorted
  rcases mem_append.1 he with hbefore | hafter
  · exact mem_takeWhile_imp hbefore
  · rw [sequencesOf, map_append, pairwise_append] at hsorted
    have hlt := hsorted.2.2 _ (mem_sequencesOf he') _ (mem_sequencesOf hafter)
    omega

/-- **Watermark invariant**: sound, and not above the last event of the queue. -/
structure Watermark (r : Resource) : Prop where
  tidy : Tidy r.queue
  sound : WatermarkSound r
  below : ∀ last, r.queue.lastSequence? = some last → r.sequence ≤ last

variable {r r' : Resource} {t : Tracked σ} {c : Call σ} {i : Fin maxResources}

theorem Watermark.empty (h : r.queue.pending = []) : Watermark r where
  tidy := .empty h
  sound := by intro e he; rw [h] at he; cases he
  below := by intro last hlast; simp [lastSequence?, h] at hlast

section

variable (h : Watermark r)

include h

theorem Watermark.restamp (htidy : Tidy r'.queue) {R : PendingEvent → PendingEvent → Prop}
    (hevents : List.Forall₂ R r.queue.pending r'.queue.pending)
    (hR : ∀ a b, R a b → b.sequence = a.sequence ∧ (a.accepted = true → b.accepted = true))
    (hsequence : r'.sequence = r.sequence) : Watermark r' where
  tidy := htidy
  sound := by
    intro e he hle
    obtain ⟨e₀, he₀, hab⟩ := forall₂_mem_right hevents he
    obtain ⟨hsame, haccepted⟩ := hR _ _ hab
    rw [hsequence, hsame] at hle
    exact haccepted (h.sound e₀ he₀ hle)
  below := by
    intro last hlast
    have hsequences := forall₂_sequences (fun a b hab => (hR a b hab).1) hevents
    rw [lastSequence?, ← List.getLast?_map] at hlast
    change (sequencesOf r'.queue.pending).getLast? = some last at hlast
    rw [hsequences] at hlast
    rw [hsequence]
    apply h.below
    rw [lastSequence?, ← List.getLast?_map]
    exact hlast

theorem Watermark.below_published {arenaCapacity : ℕ} {headers : List EventHeader}
    (hcheck : checkPublish arenaCapacity r.queue.lastSequence? headers = .ok ())
    (habove : AboveWatermark r (.publish headers)) {header : EventHeader}
    (hheader : header ∈ headers) : r.sequence < header.sequence := by
  obtain ⟨_, hsorted, hprevious⟩ := checkPublish_ok hcheck
  cases hlast : r.queue.lastSequence? with
  | some last => exact lt_of_le_of_lt (h.below last hlast) (hprevious last hlast header hheader)
  | none =>
    -- nothing is queued: only the condition orders the two
    have hempty : r.queue.pending = [] := by
      simpa [lastSequence?] using hlast
    cases headers with
    | nil => cases hheader
    | cons first rest =>
      have hfirst := habove hempty first rfl
      rw [map_cons, pairwise_cons] at hsorted
      rcases mem_cons.1 hheader with rfl | hrest
      · exact hfirst
      · exact lt_trans hfirst (hsorted.1 _ (mem_map_of_mem hrest))

theorem Watermark.publish {arenaCapacity arenaId arenaGeneration : ℕ} {headers : List EventHeader}
    (hcheck : checkPublish arenaCapacity r.queue.lastSequence? headers = .ok ())
    (habove : AboveWatermark r (.publish headers)) :
    Watermark { r with queue := r.queue.publish arenaId arenaGeneration headers } where
  tidy := h.tidy.publish hcheck
  sound := by
    intro e he hle
    rcases mem_append.1 he with hold | hnew
    · exact h.sound e hold hle
    · obtain ⟨header, hheader, rfl⟩ := mem_map.1 hnew
      have habove := h.below_published hcheck habove hheader
      exact absurd hle (not_le_of_gt habove)
  below := by
    intro last hlast
    rcases eq_nil_or_concat headers with rfl | ⟨front, final, rfl⟩
    · apply h.below
      simpa [EventQueue.publish] using hlast
    · have hfinal : final.sequence = last := by
        simpa [EventQueue.publish, EventQueue.lastSequence?, PendingEvent.published] using hlast
      rw [← hfinal]
      exact le_of_lt (h.below_published hcheck habove (by simp))

theorem Watermark.submit {pending : List PendingEvent}
    (hevents : List.Forall₂ (Restamped Accepts) r.queue.pending pending) :
    Watermark (r.submitted pending) := by
  let r' : Resource := { r with queue := { r.queue with pending := pending } }
  have htidy : Tidy r'.queue := h.tidy.accepts hevents
  have hmarked : Watermark r' := by
    refine h.restamp htidy hevents (fun a b hab => ⟨hab.accepts_same.1.sequence, ?_⟩) rfl
    rcases hab with rfl | ⟨_, _, rfl⟩
    · exact id
    · exact fun _ => rfl
  refine ⟨htidy, ?_, ?_⟩
  · intro e he hle
    change e.sequence ≤ watermark pending r.sequence at hle
    rcases watermark_cases pending r.sequence with hsame | ⟨e', he', hmark⟩
    · rw [hsame] at hle
      exact hmarked.sound e he hle
    · rw [hmark] at hle
      exact accepted_of_le htidy.sorted he' he hle
  · intro last hlast
    change watermark pending r.sequence ≤ last
    rcases watermark_cases pending r.sequence with hsame | ⟨e', he', hmark⟩
    · rw [hsame]
      exact hmarked.below last hlast
    · rw [hmark]
      obtain ⟨last', hlast', hle⟩ := htidy.le_last
        ((takeWhile_sublist _).subset he' : e' ∈ r'.queue.pending)
      rw [Option.some.inj (hlast'.symm.trans hlast)] at hle
      exact hle

theorem Watermark.drop (htidy : Tidy r'.queue) {consumed : ℕ}
    (hpending : r'.queue.pending = r.queue.pending.drop consumed)
    (hsequence : r'.sequence = r.sequence) : Watermark r' where
  tidy := htidy
  sound := by
    intro e he hle
    rw [hpending] at he
    rw [hsequence] at hle
    exact h.sound e (mem_of_mem_drop he) hle
  below := by
    intro last hlast
    rw [hsequence]
    apply h.below
    rw [lastSequence?, hpending, List.getLast?_drop] at hlast
    split at hlast
    · cases hlast
    · exact hlast

theorem Watermark.acknowledge (arenaId first last : ℕ) :
    Watermark { r with queue := r.queue.acknowledge arenaId first last } := by
  obtain ⟨consumed, hpending, _⟩ := acknowledge_events r.queue arenaId first last
  let marked : EventQueue :=
    { r.queue with pending := r.queue.pending.map (PendingEvent.acknowledge arenaId first last) }
  have hevents : List.Forall₂ (fun a b => b = a.acknowledge arenaId first last)
      r.queue.pending marked.pending := by
    rw [forall₂_map_right_iff]
    exact forall₂_same.2 fun _ _ => rfl
  have htidy : Tidy marked := by
    refine h.tidy.restamp hevents ?_ ?_
    · rintro a _ rfl
      exact (acknowledge_same arenaId first last a).1.sequence
    · rintro a ha _ rfl
      obtain ⟨_, hpolled, haccepted⟩ := acknowledge_same arenaId first last a
      rw [hpolled, haccepted]
      refine ⟨h.tidy.accepted_polled a ha, fun hacknowledged => ?_⟩
      unfold PendingEvent.acknowledge at hacknowledged
      split at hacknowledged
      · next hmarked => exact h.tidy.accepted_polled a ha hmarked.1
      · exact h.tidy.acknowledged_polled a ha hacknowledged
  have hmarked : Watermark { r with queue := marked } := by
    refine h.restamp htidy hevents ?_ rfl
    rintro a _ rfl
    obtain ⟨hsame, _, haccepted⟩ := acknowledge_same arenaId first last a
    exact ⟨hsame.sequence, fun hacc => haccepted.trans hacc⟩
  have hdropped : (r.queue.acknowledge arenaId first last).pending = marked.pending.drop consumed := by
    rw [hpending, map_drop]
  exact hmarked.drop (h.tidy.acknowledge arenaId first last) hdropped rfl

end

/-- **Every move keeps the watermark sound.** -/
theorem Watermark.move (hmove : EntryMove AboveWatermark r r') (h : Watermark r) :
    Watermark r' := by
  cases hmove with
  | released | releasedArena | settled => exact .empty rfl
  | published arenaId arenaGeneration hroom hcheck habove => exact h.publish hcheck habove
  | polled arenaId arenaGeneration =>
    refine h.restamp (h.tidy.poll arenaId arenaGeneration)
      (r.queue.poll_events arenaId arenaGeneration) (fun a b hab => ?_) rfl
    exact ⟨hab.polls_same.1.sequence, fun hacc => hab.polls_same.2.1.trans hacc⟩
  | submitted arenaId arenaGeneration hcheck => exact h.submit (submit_events _ _ _ _)
  | acknowledged arenaId first last => exact h.acknowledge arenaId first last
  | reconciled huntouched => exact .empty huntouched.2.1
  | restated | recycled | counted | mediated | flushed | wiped =>
    exact ⟨h.tidy, h.sound, h.below⟩

def Call.PublishesAbove (t : Tracked σ) (c : Call σ) : Prop :=
  c.Works (fun _ => AboveWatermark) t

theorem watermark_step (hpublishes : c.PublishesAbove t)
    (h : ∀ i, Watermark (t.runtime.resources i)) (i : Fin maxResources) :
    Watermark ((step t c).runtime.resources i) := by
  have hstep := entry_step i t c hpublishes
  generalize (step t c).runtime.resources i = r' at hstep ⊢
  cases hstep with
  | renewed hfree hdresses => exact .empty hdresses.pending
  | moved hmoves => exact hmoves.invariant (fun _ _ hmove hr => hr.move hmove) (h i)

def SoundThroughout (t : Tracked σ) (calls : List (Call σ)) : Prop :=
  ∀ front back, calls = front ++ back → ∀ i, WatermarkSound ((run step t front).runtime.resources i)

theorem publishesAbove_of_sound (hsound : ∀ i, WatermarkSound ((step t c).runtime.resources i)) :
    c.PublishesAbove t := by
  cases c with
  | publishBatch inst session request result =>
    intro plan hadmission hempty header hheader
    by_contra hle
    rw [not_lt] at hle
    have hruntime : (step t (.publishBatch inst session request result)).runtime =
        (plan.publish t.runtime).runtime := by
      change (publishBatch t.runtime inst session request result).runtime = _
      rw [publishBatch, hadmission, Outcome.ofAdmission]
    have hentry := hsound plan.session
    rw [hruntime, BatchPlan.publish_runtime, Runtime.modify_self] at hentry
    have hmem : header ∈ plan.request.items := mem_of_head? hheader
    have haccepted := hentry
      (.published plan.request.arena.resourceId plan.request.arenaGeneration header)
      (mem_append_right _ (mem_map_of_mem hmem)) hle
    cases haccepted
  | strictMediate =>
    exact fun _ _ => ⟨trivial, fun _ => AdapterProgram.works_of_submit (fun _ _ => trivial) _ _⟩
  | _ => simp [Call.PublishesAbove, Call.Works, AboveWatermark]

theorem soundThroughout_iff (ht : ∀ i, Watermark (t.runtime.resources i)) (calls : List (Call σ)) :
    SoundThroughout t calls ↔ Along step (fun t c => c.PublishesAbove t) t calls :=
  throughout_iff (I := fun t : Tracked σ => ∀ i, Watermark (t.runtime.resources i))
    (P := fun t => ∀ i, WatermarkSound (t.runtime.resources i)) (fun _ h i => (h i).sound)
    (fun _ _ h hpublishes => watermark_step hpublishes h)
    (fun _ _ _ hnot hsound => hnot (publishesAbove_of_sound hsound)) ht calls

def Unreconciled (_ : Fin maxResources) (_ : Resource) : Work → Prop
  | .reconcile => False
  | _ => True

theorem works_of_not_reconciliation (hc : ¬c.IsReconciliation) (t : Tracked σ) :
    c.Works Unreconciled t := by
  cases c with
  | sessionReconcileEvidence => exact absurd trivial hc
  | strictMediate =>
    exact fun _ _ => ⟨trivial, fun _ => AdapterProgram.works_of_submit (fun _ _ => trivial) _ _⟩
  | _ => simp [Call.Works, Unreconciled]

theorem EntryMove.sequence_le (h : EntryMove (Unreconciled i) r r') : r.sequence ≤ r'.sequence := by
  cases h with
  | submitted arenaId arenaGeneration hcheck => exact le_watermark _ _
  | reconciled huntouched hload hallowed => exact hallowed.elim
  | _ => exact le_refl _

theorem sequence_le_step (hc : ¬c.IsReconciliation)
    (hsame : ((step t c).life i).serial = (t.life i).serial) :
    (t.runtime.resources i).sequence ≤ ((step t c).runtime.resources i).sequence := by
  have hstep := entry_step i t c (works_of_not_reconciliation hc t)
  rw [serial_step] at hsame
  generalize (step t c).runtime.resources i = r' at hstep hsame ⊢
  cases hstep with
  | renewed hfree hdresses =>
    rw [if_neg (hdresses.generation ▸ nextGeneration_ne _)] at hsame
    omega
  | moved hmoves =>
    exact hmoves.invariant (I := fun r' => (t.runtime.resources i).sequence ≤ r'.sequence)
      (fun _ _ hmove hle => le_trans hle hmove.sequence_le) (le_refl _)

theorem sequence_le_run {calls : List (Call σ)} (hcalls : ∀ c ∈ calls, ¬c.IsReconciliation)
    (hsame : ((run step t calls).life i).serial = (t.life i).serial) :
    (t.runtime.resources i).sequence ≤ ((run step t calls).runtime.resources i).sequence := by
  induction calls generalizing t with
  | nil => exact le_refl _
  | cons c rest ih =>
    -- serial numbers only grow, so no step of the run started a new life
    have hafter := serial_le_run (step t c) rest i
    have hbefore := serial_le_run t [c] i
    simp only [run_cons, run_nil] at hsame hbefore ⊢
    have hfirst := sequence_le_step (hcalls c mem_cons_self) (t := t) (i := i) (by omega)
    have hrest := ih (t := step t c) (fun c' hc' => hcalls c' (mem_cons_of_mem _ hc'))
      (by omega)
    exact le_trans hfirst hrest

theorem watermark_initial (world : σ) (i : Fin maxResources) :
    Watermark ((Tracked.initial world).runtime.resources i) := .empty rfl

/-- **Watermark soundness**: in a run every state is sound exactly when every
publication to an empty queue starts above the watermark; and in every run the
watermark of a session does not decrease but by a reconciliation. -/
theorem watermark_sound_iff (world : σ) (calls : List (Call σ)) :
    ((∀ front back, calls = front ++ back → ∀ i,
        WatermarkSound ((run step (Tracked.initial world) front).runtime.resources i)) ↔
      Along step (fun t c => c.PublishesAbove t) (Tracked.initial world) calls) ∧
    ∀ front back, calls = front ++ back → (∀ c ∈ back, ¬c.IsReconciliation) → ∀ i,
      ((run step (Tracked.initial world) calls).life i).serial =
          ((run step (Tracked.initial world) front).life i).serial →
        ((run step (Tracked.initial world) front).runtime.resources i).sequence ≤
          ((run step (Tracked.initial world) calls).runtime.resources i).sequence := by
  refine ⟨soundThroughout_iff (watermark_initial world) calls, ?_⟩
  rintro front back rfl hback i hsame
  rw [run_append] at hsame ⊢
  exact sequence_le_run hback hsame

def publishedBelow : List (Call Unit) :=
  let it : Installation := {}
  it.setUp.map (fun
    | .sessionOpen inst bundle _ hasOut memory =>
      .sessionOpen inst bundle (some { initialSequence := 10 }) hasOut memory
    | c => c) ++ [it.publish 5 1]

/-- **The condition is needed**: the event is pending below the watermark and
has not been accepted. -/
theorem watermark_unsound : ¬∀ (calls : List (Call Unit)) (i : Fin maxResources),
      WatermarkSound ((run step (Tracked.initial ()) calls).runtime.resources i) := by
  intro h
  exact absurd (h publishedBelow 3) (by decide +kernel)

end PooFlow
