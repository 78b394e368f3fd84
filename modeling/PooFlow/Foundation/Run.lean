import Mathlib.Data.List.Basic

/-! A run is a list of actions carried out by a deterministic step function. A step may give events,
or a link of a chain. -/

namespace PooFlow.Foundation

open List

section

variable {ρ : Type*}

/-- The transitions lead from `start` to `finish`, each from where the one
before it ended. -/
def Linked (start : ρ) : List (ρ × ρ) → ρ → Prop
  | [], finish => start = finish
  | (before, after) :: rest, finish => start = before ∧ Linked after rest finish

@[simp] theorem linked_nil {start finish : ρ} : Linked start [] finish ↔ start = finish :=
  Iff.rfl

theorem linked_append {start finish : ρ} {front back : List (ρ × ρ)} :
    Linked start (front ++ back) finish ↔
      ∃ middle, Linked start front middle ∧ Linked middle back finish := by
  induction front generalizing start with
  | nil => simp [Linked]
  | cons link rest ih =>
    simp only [cons_append, Linked, ih]
    constructor
    · rintro ⟨hstart, middle, hfront, hback⟩
      exact ⟨middle, ⟨hstart, hfront⟩, hback⟩
    · rintro ⟨middle, ⟨hstart, hfront⟩, hback⟩
      exact ⟨hstart, middle, hfront, hback⟩

theorem Linked.extend {start middle : ρ} {log : List (ρ × ρ)} (h : Linked start log middle)
    (finish : ρ) : Linked start (log ++ [(middle, finish)]) finish :=
  linked_append.2 ⟨middle, h, rfl, rfl⟩

end

variable {State Action Event : Type*}

def run (step : State → Action → State) (s : State) (actions : List Action) : State :=
  actions.foldl step s

/-- Every action of the run meets `p` in the state it starts from. -/
def Along (step : State → Action → State) (p : State → Action → Prop) : State → List Action → Prop
  | _, [] => True
  | s, a :: rest => p s a ∧ Along step p (step s a) rest

instance Along.decidable {step : State → Action → State} {p : State → Action → Prop}
    [∀ s a, Decidable (p s a)] : ∀ s actions, Decidable (Along step p s actions)
  | _, [] => isTrue trivial
  | s, a :: rest =>
    have : Decidable (Along step p (step s a) rest) := Along.decidable (step s a) rest
    inferInstanceAs (Decidable (_ ∧ _))

section

variable {step : State → Action → State} {p q : State → Action → Prop} (s : State)

@[simp] theorem run_nil : run step s [] = s := rfl

@[simp] theorem run_cons (a : Action) (rest : List Action) :
    run step s (a :: rest) = run step (step s a) rest := rfl

theorem run_append (front back : List Action) :
    run step s (front ++ back) = run step (run step s front) back :=
  foldl_append

@[simp] theorem run_concat (front : List Action) (a : Action) :
    run step s (front ++ [a]) = step (run step s front) a := by
  rw [run_append, run_cons, run_nil]

variable {s : State} {I : State → Prop}

theorem along_of_forall (hp : ∀ s a, p s a) (s : State) (actions : List Action) :
    Along step p s actions := by
  induction actions generalizing s with
  | nil => trivial
  | cons a rest ih => exact ⟨hp s a, ih _⟩

theorem along_append {front back : List Action} : Along step p s (front ++ back) ↔
      Along step p s front ∧ Along step p (run step s front) back := by
  induction front generalizing s with
  | nil => simp [Along]
  | cons a rest ih => simp only [cons_append, Along, ih, run_cons, and_assoc]

theorem Along.at {front back : List Action} {a : Action} (h : Along step p s (front ++ a :: back)) :
    p (run step s front) a :=
  (along_append.1 h).2.1

variable {actions : List Action}

/-- **Invariant rule**: what holds first, and is kept by every step that meets
the run's condition, holds after the run. -/
theorem Along.invariant (hstep : ∀ s a, I s → p s a → I (step s a))
    (h : Along step p s actions) (hs : I s) : I (run step s actions) := by
  induction actions generalizing s with
  | nil => exact hs
  | cons a rest ih => exact ih h.2 (hstep s a hs h.1)

/-- **Unconditional invariant rule**: the run's steps carry no condition. -/
theorem run_invariant (hstep : ∀ s a, I s → I (step s a)) (hs : I s) (actions : List Action) :
    I (run step s actions) := by
  induction actions generalizing s with
  | nil => exact hs
  | cons a rest ih => exact ih (hstep s a hs)

/-- **Exact condition rule**: when the condition keeps an invariant that implies
`P`, and a step against it ends in a state without `P`, then `P` holds of every
state of a run exactly when every step meets the condition. -/
theorem throughout_iff {P : State → Prop} (hgood : ∀ s, I s → P s)
    (hstep : ∀ s a, I s → p s a → I (step s a)) (hbad : ∀ s a, I s → ¬p s a → ¬P (step s a))
    (hs : I s) (actions : List Action) :
    (∀ front back, actions = front ++ back → P (run step s front)) ↔ Along step p s actions := by
  induction actions generalizing s with
  | nil =>
    refine ⟨fun _ => trivial, fun _ front back hsplit => ?_⟩
    obtain ⟨rfl, _⟩ := append_eq_nil_iff.1 hsplit.symm
    exact hgood s hs
  | cons a rest ih =>
    constructor
    · intro hall
      have hp : p s a := by
        by_contra hnot
        exact hbad s a hs hnot (hall [a] rest rfl)
      refine ⟨hp, (ih (hstep s a hs hp)).1 ?_⟩
      intro front back hsplit
      exact hall (a :: front) back (by rw [hsplit, cons_append])
    · rintro ⟨hp, hrest⟩ front back hsplit
      cases front with
      | nil => exact hgood s hs
      | cons a' front =>
        obtain ⟨rfl, htail⟩ := List.cons.inj (hsplit.trans cons_append)
        exact (ih (hstep s a hs hp)).2 hrest front back htail

end

def observed (act : State → Action → State × List Event) : State → List Action → List Event
  | _, [] => []
  | s, a :: rest => (act s a).2 ++ observed act (act s a).1 rest

section

theorem along_of_at {step : State → Action → State} {q : State → Action → Prop} {s : State}
    (h : ∀ front a back, actions = front ++ a :: back → q (run step s front) a) :
    Along step q s actions := by
  induction actions generalizing s with
  | nil => trivial
  | cons a rest ih =>
    refine ⟨h [] a rest rfl, ih fun front b back hsplit => ?_⟩
    exact h (a :: front) b back (by rw [hsplit, cons_append])

/-- **Projection rule**: a view that follows the actions of one kind, and that no other action
changes, shows the run of the actions of that kind. -/
theorem run_filter {step : State → Action → State} (view : State → State) (mine : Action → Prop)
    [DecidablePred mine] (hmine : ∀ s a, mine a → view (step s a) = step (view s) a)
    (hother : ∀ s a, ¬mine a → view (step s a) = view s) (s : State) (actions : List Action) :
    view (run step s actions) = run step (view s) (actions.filter (mine ·)) := by
  induction actions generalizing s with
  | nil => rfl
  | cons a rest ih =>
    rw [run_cons, ih]
    by_cases ha : mine a
    · rw [filter_cons_of_pos (by simpa using ha), run_cons, hmine s a ha]
    · rw [filter_cons_of_neg (by simpa using ha), hother s a ha]

variable {act : State → Action → State × List Event} {p : Event → Bool}

/-- **At most once**: the event happens only while the mark is down, and puts it up, and
the mark stays up in every step without a reset. -/
theorem observed_once {I mark : State → Prop} {reset : Event → Prop}
    (hkeep : ∀ s a, I s → I (act s a).1)
    (hmark : ∀ s a, I s → (∀ e ∈ (act s a).2, ¬reset e) → mark s → mark (act s a).1)
    (hfirst : ∀ s a, I s → (act s a).2.countP p = 0 ∨
      ((act s a).2.countP p = 1 ∧ ¬mark s ∧ mark (act s a).1)) {s : State} (hs : I s)
    (hreset : ∀ e ∈ observed act s actions, ¬reset e) :
    (observed act s actions).countP p ≤ 1 ∧
      (mark s → (observed act s actions).countP p = 0) := by
  induction actions generalizing s with
  | nil => exact ⟨Nat.zero_le 1, fun _ => rfl⟩
  | cons a rest ih =>
    rw [observed] at hreset ⊢
    have hhere : ∀ e ∈ (act s a).2, ¬reset e := fun e he =>
      hreset e (mem_append_left _ he)
    obtain ⟨hlater, hnever⟩ := ih (hkeep s a hs) fun e he => hreset e (mem_append_right _ he)
    rw [countP_append]
    rcases hfirst s a hs with hzero | ⟨hone, hdown, hup⟩
    · rw [hzero, Nat.zero_add]
      exact ⟨hlater, fun hup => hnever (hmark s a hs hhere hup)⟩
    · rw [hone, hnever hup]
      exact ⟨Nat.le_refl 1, fun hup => absurd hup hdown⟩

end

end PooFlow.Foundation
