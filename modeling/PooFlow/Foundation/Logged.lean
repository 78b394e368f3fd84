import Mathlib.Data.List.Basic

namespace PooFlow.Foundation

def Logged (ε κ β : Type) := List ε → Except κ β × List ε

namespace Logged

variable {ε κ β γ : Type}

def run (computation : Logged ε κ β) (log : List ε) : Except κ β × List ε := computation log

def bind (first : Logged ε κ β) (next : β → Logged ε κ γ) : Logged ε κ γ := fun log =>
  match first log with
  | (.error condition, events) => (.error condition, events)
  | (.ok value, events) =>
    ((next value (log ++ events)).1, events ++ (next value (log ++ events)).2)

instance : Monad (Logged ε κ) where
  pure value := fun _ => (.ok value, [])
  bind := bind

def throw (condition : κ) : Logged ε κ β := fun _ => (.error condition, [])

def emit (event : ε) : Logged ε κ Unit := fun _ => (.ok (), [event])

def lift (result : Except κ β) : Logged ε κ β := fun _ => (result, [])

def answer (respond : List ε → Except κ β) : Logged ε κ β := fun log => (respond log, [])

def within (wrap : List ε → Except κ β → ε) (computation : Logged ε κ β) : Logged ε κ β := fun log =>
  ((computation log).1, [wrap (computation log).2 (computation log).1])

def catching (computation : Logged ε κ β) (handler : κ → Option β) : Logged ε κ β := fun log =>
  match computation log with
  | (.ok value, events) => (.ok value, events)
  | (.error condition, events) =>
    match handler condition with
    | some value => (.ok value, events)
    | none => (.error condition, events)

/-- What holds of the added events and the result, whatever was logged before. -/
def Obeys (computation : Logged ε κ β) (P : List ε → Except κ β → Prop) : Prop :=
  ∀ log, P (computation.run log).2 (computation.run log).1

variable {computation : Logged ε κ β} {P : List ε → Except κ β → Prop} {first : Logged ε κ β}
  {next : β → Logged ε κ γ} {R : List ε → Except κ γ → Prop}

theorem Obeys.mono {Q : List ε → Except κ β → Prop} (h : computation.Obeys P)
    (himp : ∀ events result, P events result → Q events result) : computation.Obeys Q :=
  fun log => himp _ _ (h log)

theorem run_lift (result : Except κ β) (log : List ε) : ((lift result).run log).1 = result := rfl

theorem run_pure (value : β) (log : List ε) :
    ((pure value : Logged ε κ β).run log).1 = .ok value := rfl

@[simp] theorem obeys_pure {value : β} : (pure value : Logged ε κ β).Obeys P ↔ P [] (.ok value) :=
  ⟨fun h => h [], fun h _ => h⟩

@[simp] theorem obeys_throw {condition : κ} :
    (throw condition : Logged ε κ β).Obeys P ↔ P [] (.error condition) :=
  ⟨fun h => h [], fun h _ => h⟩

@[simp] theorem obeys_lift {result : Except κ β} :
    (lift result : Logged ε κ β).Obeys P ↔ P [] result :=
  ⟨fun h => h [], fun h _ => h⟩

/-- **The rule for a sequence.** -/
theorem Obeys.bind (hfirst : first.Obeys P)
    (herror : ∀ events condition, P events (.error condition) → R events (.error condition))
    (hnext : ∀ events value, P events (.ok value) →
      (next value).Obeys fun later result => R (events ++ later) result) :
    (first >>= next).Obeys R := by
  intro log
  have hP := hfirst log
  change R (Logged.bind first next log).2 (Logged.bind first next log).1
  rw [Logged.bind]
  rw [Logged.run] at hP
  rcases hrun : first log with ⟨condition | value, events⟩
  · rw [hrun] at hP
    exact herror events condition hP
  · rw [hrun] at hP
    exact hnext events value hP (log ++ events)

theorem obeys_lift_bind {result : Except κ β}
    (herror : ∀ condition, result = .error condition → R [] (.error condition))
    (hnext : ∀ value, result = .ok value → (next value).Obeys R) :
    (lift result >>= next).Obeys R := by
  refine Obeys.bind (obeys_lift.2 ⟨rfl, rfl⟩ :
    (lift result : Logged ε κ β).Obeys fun events returned => events = [] ∧ returned = result) ?_ ?_
  · rintro events condition ⟨rfl, rfl⟩
    exact herror condition rfl
  · rintro events value ⟨rfl, rfl⟩
    exact hnext value rfl

theorem obeys_answer_bind (hfirst : first.Obeys fun events _ => events = [])
    (herror : ∀ condition, R [] (.error condition)) (hnext : ∀ value, (next value).Obeys R) :
    (first >>= next).Obeys R := by
  refine Obeys.bind hfirst ?_ ?_
  · rintro events condition rfl
    exact herror condition
  · rintro events value rfl
    exact hnext value

variable {R : List ε → Except κ β → Prop}

theorem Obeys.within {wrap : List ε → Except κ β → ε} (h : computation.Obeys P)
    (hwrap : ∀ events result, P events result → R [wrap events result] result) :
    (computation.within wrap).Obeys R :=
  fun log => hwrap _ _ (h log)

theorem Obeys.catching {handler : κ → Option β}
    (h : computation.Obeys P) (hok : ∀ events value, P events (.ok value) → R events (.ok value))
    (hcaught : ∀ events condition value, P events (.error condition) →
      handler condition = some value → R events (.ok value))
    (hraised : ∀ events condition, P events (.error condition) → handler condition = none →
      R events (.error condition)) : (computation.catching handler).Obeys R := by
  intro log
  have hP := h log
  rw [Logged.run] at hP ⊢
  rw [Logged.catching]
  rcases hrun : computation log with ⟨condition | value, events⟩
  · rw [hrun] at hP
    dsimp only
    cases hhandler : handler condition with
    | some value => exact hcaught events condition value hP hhandler
    | none => exact hraised events condition hP hhandler
  · rw [hrun] at hP
    exact hok events value hP

theorem run_catching_fst (computation : Logged ε κ β) (handler : κ → Option β) (log : List ε) :
    ((computation.catching handler).run log).1 =
      (computation.run log).1.tryCatch fun condition =>
        (handler condition).elim (.error condition) .ok := by
  rw [Logged.run, Logged.run, Logged.catching]
  rcases computation log with ⟨condition | value, events⟩
  · dsimp only [Except.tryCatch]
    cases handler condition <;> rfl
  · rfl

/-- The result of a sequence. -/
theorem run_bind_fst (log : List ε) : ((first >>= next).run log).1 =
      (first.run log).1.bind fun value => ((next value).run (log ++ (first.run log).2)).1 := by
  change (Logged.bind first next log).1 = _
  rw [Logged.bind, Logged.run]
  rcases first log with ⟨condition | value, events⟩ <;> rfl

end Logged

end PooFlow.Foundation
