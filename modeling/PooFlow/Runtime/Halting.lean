import PooFlow.Runtime.EntryMoves

namespace PooFlow

open Foundation

variable {σ : Type}

def Halted (r : Resource) : Prop := r.state = .cancelled ∨ r.state = .closed

instance (r : Resource) : Decidable (Halted r) := inferInstanceAs (Decidable (_ ∨ _))

/-- A cancellation or closing of slot `i` that returns OK. -/
def Call.Halts (rt : Runtime) (i : Fin maxResources) : Call σ → Prop
  | .sessionCancel inst session =>
    (PooFlow.sessionCancel rt inst session).status = .ok ∧ session.resourceId = slotId i
  | .sessionClose inst session disposition =>
    (PooFlow.sessionClose rt inst session disposition).status = .ok ∧
      session.resourceId = slotId i
  | _ => False

def WorksUnhalted (r : Resource) : Work → Prop
  | .publish _ | .poll | .submit | .mediate => ¬Halted r
  | _ => True

instance (r : Resource) (w : Work) : Decidable (WorksUnhalted r w) := by
  rcases w
  all_goals first
    | exact inferInstanceAs (Decidable (¬_))
    | exact instDecidableTrue

/-- The condition of a run: no batch work is admitted on a halted session. -/
def Call.RespectsHalt (t : Tracked σ) (c : Call σ) : Prop :=
  c.Works (fun _ => WorksUnhalted) t

instance (t : Tracked σ) (c : Call σ) : Decidable (c.RespectsHalt t) :=
  inferInstanceAs (Decidable (c.Works _ t))

/-- The five operations that may have an effect on an open session only. -/
def Call.IsBatchWork : Call σ → Prop
  | .publishBatch .. | .pollBatch .. | .submitBatch .. | .strictMediate .. | .batchedFlush .. =>
    True
  | _ => False

/-- **Nothing happens to a halted session**: as long as its allocation lasts,
watermark, mediation fields and executed nonces stay as they were when it was
halted, and a batch operation leaves its queue as it finds it. -/
def Inert (world : σ) (calls : List (Call σ)) : Prop :=
  ∀ front halt mid back i, calls = front ++ halt :: (mid ++ back) →
    let before := run step (Tracked.initial world) front
    let halted := step before halt
    let after := run step halted mid
    halt.Halts before.runtime i → (after.life i).serial = (before.life i).serial →
      (after.runtime.resources i).sequence = (halted.runtime.resources i).sequence ∧
      (after.runtime.resources i).mediation = (halted.runtime.resources i).mediation ∧
      (after.life i).executed = (halted.life i).executed ∧
      ∀ c rest, back = c :: rest → c.IsBatchWork →
        ((step after c).life i).serial = (before.life i).serial →
          ((step after c).runtime.resources i).queue = (after.runtime.resources i).queue

/-- **A move of a halted entry** leaves it halted, with its watermark and its
mediation fields. -/
theorem EntryMove.halted {r r' : Resource} (hmove : EntryMove WorksUnhalted r r') (h : Halted r) :
    Halted r' ∧ r'.sequence = r.sequence ∧ r'.mediation = r.mediation := by
  cases hmove with
  | restated outstanding hhalted hunclosed => exact ⟨hhalted, rfl, rfl⟩
  | published arenaId arenaGeneration hroom hcheck hallowed => exact absurd h hallowed
  | polled arenaId arenaGeneration hallowed => exact absurd h hallowed
  | submitted arenaId arenaGeneration hcheck hallowed => exact absurd h hallowed
  | mediated mediation hstate hallowed =>
    refine absurd ?_ hallowed
    unfold Halted at h ⊢
    rwa [← hstate]
  | flushed after hopened =>
    unfold Halted at h
    simp [hopened] at h
  | wiped huntouched =>
    unfold Halted at h
    simp [huntouched.1] at h
  | reconciled huntouched =>
    unfold Halted at h
    simp [huntouched.1] at h
  | _ => exact ⟨h, rfl, rfl⟩

theorem EntrySteps.halted {r r' : Resource} (hsteps : EntrySteps WorksUnhalted r r')
    (h : Halted r) : Halted r' ∧ r'.sequence = r.sequence ∧ r'.mediation = r.mediation := by
  refine hsteps.invariant
    (I := fun r' => Halted r' ∧ r'.sequence = r.sequence ∧ r'.mediation = r.mediation) ?_
    ⟨h, rfl, rfl⟩
  rintro a b hmove ⟨hhalted, hsequence, hmediation⟩
  obtain ⟨hhalted', hsequence', hmediation'⟩ := hmove.halted hhalted
  exact ⟨hhalted', hsequence'.trans hsequence, hmediation'.trans hmediation⟩

def BatchWorkUnhalted (r : Resource) : Work → Prop
  | .publish _ | .poll | .submit | .mediate => ¬Halted r
  | _ => False

theorem EntryMove.halted_queue {r r' : Resource} (hmove : EntryMove BatchWorkUnhalted r r')
    (h : Halted r) : Halted r' ∧ r'.queue = r.queue := by
  cases hmove with
  | restated outstanding hhalted hunclosed hallowed => exact hallowed.elim
  | released hkind hallowed => exact hallowed.elim
  | releasedArena hallowed => exact hallowed.elim
  | settled hallowed => exact hallowed.elim
  | acknowledged arenaId first last hallowed => exact hallowed.elim
  | published arenaId arenaGeneration hroom hcheck hallowed => exact absurd h hallowed
  | polled arenaId arenaGeneration hallowed => exact absurd h hallowed
  | submitted arenaId arenaGeneration hcheck hallowed => exact absurd h hallowed
  | _ => exact ⟨h, rfl⟩

theorem AdapterProgram.Works.mono {allowed allowed' : Fin maxResources → Resource → Work → Prop}
    (hmono : ∀ i r, allowed i r .submit → allowed' i r .submit) {program : AdapterProgram}
    {rt : Runtime} (h : program.Works allowed rt) : program.Works allowed' rt := by
  induction program generalizing rt with
  | done status result => trivial
  | submit inst session request result next ih =>
    exact ⟨fun plan hplan => hmono _ _ (h.1 plan hplan), ih _ _ h.2⟩

variable {t : Tracked σ}

theorem batchWork_of_respectsHalt {c : Call σ} (hc : c.IsBatchWork)
    (h : c.RespectsHalt t) : c.Works (fun _ => BatchWorkUnhalted) t := by
  cases c with
  | publishBatch => exact h
  | pollBatch => exact h
  | submitBatch => exact h
  | strictMediate inst session request result =>
    have hsubmit : ∀ (i : Fin maxResources) r,
        WorksUnhalted r .submit → BatchWorkUnhalted r .submit := fun _ _ h => h
    exact fun plan hplan => ⟨(h plan hplan).1, fun hreserved =>
      ((h plan hplan).2 hreserved).mono hsubmit⟩
  | batchedFlush => trivial
  | _ => exact hc.elim

section

variable {t : Tracked σ} {c : Call σ} {i : Fin maxResources}

variable {inst session : Handle}

variable {rt : Runtime} {request : Option (StrictMediationRequest σ)}

theorem sessionCancel_ok (h : (sessionCancel rt inst session).status = .ok) :
    ∃ j, resolve rt inst session .session = .ok j ∧
      (sessionCancel rt inst session).runtime =
        rt.modify j (fun r => { r with state := .cancelled }) := by
  unfold sessionCancel Outcome.ofAdmission at h ⊢
  split at h
  · next j hadmission =>
    simp only [bind_eq_ok, guardElse_eq_ok, exists_const, pure_eq_ok] at hadmission
    obtain ⟨_, hresolve, _, rfl⟩ := hadmission
    exact ⟨_, hresolve, rfl⟩
  · next status herror =>
    obtain rfl : status = .ok := h
    simp [bind_eq_error, resolve_ne_error_ok] at herror

theorem sessionClose_ok {disposition : ℕ}
    (h : (sessionClose rt inst session disposition).status = .ok) :
    ∃ j, resolve rt inst session .session = .ok j ∧
      (sessionClose rt inst session disposition).runtime =
        rt.modify j (fun r => { r with outstanding := 0, state := .closed }) := by
  unfold sessionClose Outcome.ofAdmission at h ⊢
  split at h
  · next j hadmission =>
    simp only [bind_eq_ok, guardElse_eq_ok, exists_const, pure_eq_ok] at hadmission
    obtain ⟨_, hresolve, _, _, rfl⟩ := hadmission
    exact ⟨_, hresolve, rfl⟩
  · next status herror =>
    obtain rfl : status = .ok := h
    simp [bind_eq_error, resolve_ne_error_ok] at herror

theorem halted_of_halts (h : c.Halts t.runtime i) : Halted ((step t c).runtime.resources i) ∧
      ((step t c).life i).serial = (t.life i).serial := by
  rw [serial_step]
  cases c with
  | sessionCancel inst session =>
    obtain ⟨j, hresolve, heq⟩ := sessionCancel_ok h.1
    obtain rfl := (resourceId_of_resolve hresolve).1 h.2
    have hentry : (step t (.sessionCancel inst session)).runtime.resources i =
        { t.runtime.resources i with state := .cancelled } := by
      refine (congrArg (fun rt => rt.resources i) heq).trans ?_
      exact Runtime.modify_self ..
    rw [hentry]
    exact ⟨Or.inl rfl, if_pos rfl⟩
  | sessionClose inst session disposition =>
    obtain ⟨j, hresolve, heq⟩ := sessionClose_ok h.1
    obtain rfl := (resourceId_of_resolve hresolve).1 h.2
    have hentry : (step t (.sessionClose inst session disposition)).runtime.resources i =
        { t.runtime.resources i with outstanding := 0, state := .closed } := by
      refine (congrArg (fun rt => rt.resources i) heq).trans ?_
      exact Runtime.modify_self ..
    rw [hentry]
    exact ⟨Or.inr rfl, if_pos rfl⟩
  | _ => exact h.elim

/-- What a mediation adds to the executed nonces of slot `i`. -/
theorem logMediation_executed {m : Mediated σ} (life : Life)
    (h : ¬(m.invocation.isSome ∧ session.resourceId = slotId i)) :
    (life.logMediation i session request m).executed = life.executed := by
  have hsubmissions : ∀ (submissions : List Submission) (life : Life),
      (submissions.foldl (Life.logSubmission i) life).executed = life.executed := by
    intro submissions
    induction submissions with
    | nil => exact fun _ => rfl
    | cons s rest ih =>
      intro life
      rw [List.foldl_cons, ih]
      unfold Life.logSubmission
      split <;> rfl
  unfold Life.logMediation
  rw [if_neg h]
  exact hsubmissions _ life

theorem mediate_admitted {result : Option StrictMediationResult}
    (h : (strictMediate t.runtime t.world inst session request result).invocation.isSome ∧
      session.resourceId = slotId i) :
    ∃ plan, mediationAdmission t.runtime inst session request result = .ok plan ∧
      plan.session = i := by
  rcases strictMediate_cases t.runtime t.world inst session request result with
    ⟨status, world', heq⟩ | ⟨plan, hadmission, _, heq⟩
  · rw [heq] at h
    cases h.1
  · have hresolve := (mediationAdmission_ok hadmission).1
    exact ⟨plan, hadmission, ((resourceId_of_resolve hresolve).1 h.2).symm⟩

/-- **The adapter is not executed for a halted session.** -/
theorem executed_step (hsame : ((step t c).life i).serial = (t.life i).serial)
    (hrespects : c.RespectsHalt t) (hhalted : Halted (t.runtime.resources i)) :
    ((step t c).life i).executed = (t.life i).executed := by
  have hcarry : (t.life i).carry (t.runtime.resources i) ((step t c).runtime.resources i) =
      t.life i := by
    rw [serial_step] at hsame
    unfold Life.carry
    split
    · rfl
    · next hne =>
      rw [if_neg hne] at hsame
      omega
  have hlife : (step t c).life i = c.log t i (t.life i) := congrArg (c.log t i) hcarry
  rw [hlife]
  cases c with
  | strictMediate inst session request result =>
    refine logMediation_executed _ fun hreached => ?_
    obtain ⟨plan, hadmission, hslot⟩ := mediate_admitted hreached
    exact (hrespects plan hadmission).1 (hslot.symm ▸ hhalted)
  | publishBatch =>
    simp only [Call.log, Life.logPublication]
    split <;> rfl
  | pollBatch =>
    simp only [Call.log, Life.logPoll]
    split <;> rfl
  | submitBatch =>
    simp only [Call.log, Life.logSubmission]
    split <;> rfl
  | batchedFlush =>
    simp only [Call.log, Life.logFlush]
    split
    · split <;> rfl
    · rfl
  | sessionReconcileEvidence =>
    simp only [Call.log, Life.logReconciliation]
    split
    · split <;> rfl
    · rfl
  | _ => rfl

end

theorem halted_run {calls : List (Call σ)} {i : Fin maxResources}
    (hruns : Along step Call.RespectsHalt t calls) (h : Halted (t.runtime.resources i))
    (hsame : ((run step t calls).life i).serial = (t.life i).serial) :
    Halted ((run step t calls).runtime.resources i) ∧
      ((run step t calls).runtime.resources i).sequence = (t.runtime.resources i).sequence ∧
      ((run step t calls).runtime.resources i).mediation = (t.runtime.resources i).mediation ∧
      ((run step t calls).life i).executed = (t.life i).executed := by
  induction calls generalizing t with
  | nil => exact ⟨h, rfl, rfl, rfl⟩
  | cons c rest ih =>
    -- serial numbers only grow, so the first step kept the life
    have hafter := serial_le_run (step t c) rest i
    have hbefore := serial_le_run t [c] i
    simp only [run_cons, run_nil] at hsame hbefore ⊢
    have hfirst : ((step t c).life i).serial = (t.life i).serial := by omega
    obtain ⟨hhalted, hsequence, hmediation⟩ := (moved_of_serial i hruns.1 hfirst).halted h
    have hexecuted := executed_step hfirst hruns.1 h
    obtain ⟨hhalted', hsequence', hmediation', hexecuted'⟩ :=
      ih hruns.2 hhalted (hsame.trans hfirst.symm)
    exact ⟨hhalted', hsequence'.trans hsequence, hmediation'.trans hmediation,
      hexecuted'.trans hexecuted⟩

theorem halted_queue_step {c : Call σ} {i : Fin maxResources}
    (hc : c.IsBatchWork) (hrespects : c.RespectsHalt t) (h : Halted (t.runtime.resources i))
    (hsame : ((step t c).life i).serial = (t.life i).serial) :
    ((step t c).runtime.resources i).queue = (t.runtime.resources i).queue := by
  have hmoves := moved_of_serial i (batchWork_of_respectsHalt hc hrespects) hsame
  have hkept := hmoves.invariant
    (I := fun r' => Halted r' ∧ r'.queue = (t.runtime.resources i).queue)
    (fun a b hmove hab => by
      obtain ⟨hhalted, hqueue⟩ := hmove.halted_queue hab.1
      exact ⟨hhalted, hqueue.trans hab.2⟩)
    ⟨h, rfl⟩
  exact hkept.2

/-- **Halted sessions are inert** in every run that admits no publication, poll,
submission or mediation on them. -/
theorem halted_inert (world : σ) (calls : List (Call σ))
    (hruns : Along step Call.RespectsHalt (Tracked.initial world) calls) : Inert world calls := by
  rintro front halt mid back i rfl
  intro before halted after hhalts hsame
  rw [along_append] at hruns
  obtain ⟨hhalt, hrest⟩ := hruns.2
  rw [along_append] at hrest
  obtain ⟨hstate, hserial⟩ := halted_of_halts hhalts
  obtain ⟨hhalted, hsequence, hmediation, hexecuted⟩ :=
    halted_run hrest.1 hstate (hsame.trans hserial.symm)
  refine ⟨hsequence, hmediation, hexecuted, ?_⟩
  rintro c rest rfl hc hkept
  exact halted_queue_step hc hrest.2.1 hhalted (hkept.trans hsame.symm)

def cancelledBatch : List (Call Unit) :=
  let it : Installation := {}
  it.setUp ++ [it.publish 5 1, it.poll, .sessionCancel it.instance_ it.session,
    it.flush .zero (.filled 2), it.ack (Installation.lease 1)]

theorem cancelled_batch_inert : Inert () cancelledBatch :=
  halted_inert () cancelledBatch (by decide +kernel)

def cancelledMediation : List (Call Unit) × Call Unit × List (Call Unit) :=
  let it : Installation := {}
  (it.setUp ++ [it.publish 5 1, it.poll], .sessionCancel it.instance_ it.session,
    [it.mediate (Installation.lease 1) .strict 1 5 .zero (.filled 2)])

/-- **The condition is needed**: a cancelled session executes its adapter. -/
theorem cancelled_session_mediates : ¬∀ calls : List (Call Unit), Inert () calls := by
  intro h
  have hinert := h (cancelledMediation.1 ++ cancelledMediation.2.1 ::
    (cancelledMediation.2.2 ++ [])) cancelledMediation.1 cancelledMediation.2.1
      cancelledMediation.2.2 [] 3 rfl
      ⟨by decide +kernel, by decide +kernel⟩ (by decide +kernel)
  exact absurd hinert.2.2.1 (by decide +kernel)

end PooFlow
