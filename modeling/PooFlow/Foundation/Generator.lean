import Mathlib.Order.Basic

namespace PooFlow.Foundation

universe u

structure Generated (α : Type*) (ε : Type*) (β : Type u) where
  yielded : List α
  ended : Except ε β

namespace Generated

variable {α ε : Type*} {β γ : Type u}

def yield (a : α) : Generated α ε PUnit := ⟨[a], .ok ⟨⟩⟩

def yieldAll (values : List α) : Generated α ε PUnit := ⟨values, .ok ⟨⟩⟩

def silently (x : Except ε β) : Generated α ε β := ⟨[], x⟩

/-- The values of `x` handed on through `f`. -/
def through {α' : Type*} (x : Generated α ε β) (f : α → List α') : Generated α' ε β :=
  ⟨x.yielded.flatMap f, x.ended⟩

def collected (x : Generated α ε β) : Generated α ε β :=
  match x.ended with
  | .ok b => ⟨x.yielded, .ok b⟩
  | .error e => ⟨[], .error e⟩

protected def bind (x : Generated α ε β) (f : β → Generated α ε γ) : Generated α ε γ :=
  match x.ended with
  | .ok b => ⟨x.yielded ++ (f b).yielded, (f b).ended⟩
  | .error e => ⟨x.yielded, .error e⟩

instance : Monad (Generated α ε) where
  pure b := ⟨[], .ok b⟩
  bind := Generated.bind

variable (b : β) (a : α) (values : List α) (x : Generated α ε β) (f : β → Generated α ε γ)

@[simp] theorem ended_pure : (pure b : Generated α ε β).ended = .ok b := rfl

@[simp] theorem yielded_pure : (pure b : Generated α ε β).yielded = [] := rfl

@[simp] theorem ended_silently (x : Except ε β) : (silently x : Generated α ε β).ended = x := rfl

@[simp] theorem ended_yield : (yield a : Generated α ε PUnit).ended = .ok ⟨⟩ := rfl

@[simp] theorem ended_yieldAll : (yieldAll values : Generated α ε PUnit).ended = .ok ⟨⟩ := rfl

/-- Draining a chain drains its parts in order. -/
@[simp] theorem ended_bind : (x >>= f).ended = x.ended >>= fun b => (f b).ended := by
  show (Generated.bind x f).ended = _
  rw [Generated.bind]
  cases x.ended <;> rfl

@[simp] theorem silently_ok_bind : silently (.ok b) >>= f = f b := rfl

@[simp] theorem yieldAll_bind (f : PUnit → Generated α ε γ) :
    yieldAll values >>= f = ⟨values ++ (f ⟨⟩).yielded, (f ⟨⟩).ended⟩ := rfl

theorem bind_of_ok {x : Generated α ε β} {b : β} (h : x.ended = .ok b) (f : β → Generated α ε γ) :
    x >>= f = ⟨x.yielded ++ (f b).yielded, (f b).ended⟩ := by
  show Generated.bind x f = _
  rw [Generated.bind, h]

theorem bind_of_error {x : Generated α ε β} {e : ε} (h : x.ended = .error e)
    (f : β → Generated α ε γ) : x >>= f = ⟨x.yielded, .error e⟩ := by
  show Generated.bind x f = _
  rw [Generated.bind, h]

@[simp] theorem ended_through {α' : Type*} (f : α → List α') : (x.through f).ended = x.ended := rfl

@[simp] theorem ended_collected : x.collected.ended = x.ended := by
  rw [collected]
  cases x.ended <;> rfl

theorem yielded_collected_of_ok {x : Generated α ε β} {b : β} (h : x.ended = .ok b) :
    x.collected.yielded = x.yielded := by
  rw [collected, h]

theorem collected_eq {α β : Type u} (x : Generated α ε β) : x.collected = (do
      let completed ← silently (x.ended.map fun b => (x.yielded, b))
      yieldAll completed.1
      pure completed.2) := by
  rcases x with ⟨yielded, _ | b⟩
  · rfl
  · show (⟨yielded, .ok b⟩ : Generated α ε β) = ⟨yielded ++ [], .ok b⟩
    rw [List.append_nil]

section

variable {S : Type u} {ρ : Type*} [WellFoundedRelation ρ]

/-- Every completed round lowers the rank. -/
def Descends (busy : S → Bool) (step : S → Generated α ε S) (rank : S → ρ) : Prop :=
  ∀ s s', busy s = true → (step s).ended = .ok s' →
    WellFoundedRelation.rel (rank s') (rank s)

/-- `while busy: step`. -/
def whileLoop (busy : S → Bool) (step : S → Generated α ε S) (rank : S → ρ)
    (descends : Descends busy step rank) (s : S) : Generated α ε S :=
  if _hbusy : busy s = true then
    match _hstep : (step s).ended with
    | .ok s' =>
      let rest := whileLoop busy step rank descends s'
      ⟨(step s).yielded ++ rest.yielded, rest.ended⟩
    | .error e => ⟨(step s).yielded, .error e⟩
  else pure s
termination_by rank s
decreasing_by exact descends s s' _hbusy _hstep

variable {busy : S → Bool} {step : S → Generated α ε S} {rank : S → ρ}
  {descends : Descends busy step rank}

theorem whileLoop_eq (s : S) : whileLoop busy step rank descends s =
      if busy s then step s >>= whileLoop busy step rank descends else pure s := by
  rw [whileLoop]
  by_cases hbusy : busy s = true
  · rw [dif_pos hbusy, if_pos hbusy]
    split
    · rename_i s' hstep
      rw [bind_of_ok hstep]
    · rename_i e hstep
      rw [bind_of_error hstep]
  · rw [dif_neg hbusy, if_neg hbusy]

variable {s : S}

theorem whileLoop_idle (h : busy s = false) : whileLoop busy step rank descends s = pure s := by
  rw [whileLoop_eq, h]
  rfl

theorem whileLoop_busy (h : busy s = true) :
    whileLoop busy step rank descends s = step s >>= whileLoop busy step rank descends := by
  rw [whileLoop_eq, if_pos h]

/-- **Rule of the loop**: what holds where the loop stops, where a round fails,
and before a round when it holds after it, holds of every state. -/
theorem whileLoop_induction (descends : Descends busy step rank) {P : S → Prop}
    (idle : ∀ s, busy s = false → P s)
    (fails : ∀ s e, busy s = true → (step s).ended = .error e → P s)
    (round : ∀ s s', busy s = true → (step s).ended = .ok s' → P s' → P s) (s : S) : P s := by
  cases hbusy : busy s with
  | false => exact idle s hbusy
  | true =>
    cases hstep : (step s).ended with
    | error e => exact fails s e hbusy hstep
    | ok s' => exact round s s' hbusy hstep (whileLoop_induction descends idle fails round s')
termination_by rank s
decreasing_by exact descends s s' hbusy hstep

/-- **Invariant rule of the loop.** -/
theorem whileLoop_invariant (descends : Descends busy step rank) {I : S → Prop}
    (hstep : ∀ s s', I s → busy s = true → (step s).ended = .ok s' → I s') {s' : S} (hs : I s)
    (h : (whileLoop busy step rank descends s).ended = .ok s') : I s' ∧ busy s' = false := by
  induction s using whileLoop_induction descends with
  | idle s hidle =>
    rw [whileLoop_idle hidle] at h
    cases h
    exact ⟨hs, hidle⟩
  | fails s e hbusy he =>
    rw [whileLoop_busy hbusy, ended_bind, he] at h
    cases h
  | round s t hbusy ht ih =>
    rw [whileLoop_busy hbusy, ended_bind, ht] at h
    exact ih (hstep s t hs hbusy ht) h

theorem whileLoop_error (descends : Descends busy step rank) {I : S → Prop}
    (hstep : ∀ s s', I s → busy s = true → (step s).ended = .ok s' → I s') {e : ε}
    (hs : I s) (h : (whileLoop busy step rank descends s).ended = .error e) :
    ∃ t, I t ∧ busy t = true ∧ (step t).ended = .error e := by
  induction s using whileLoop_induction descends with
  | idle s hidle =>
    rw [whileLoop_idle hidle] at h
    cases h
  | fails s e' hbusy he =>
    rw [whileLoop_busy hbusy, ended_bind, he] at h
    cases h
    exact ⟨s, hs, hbusy, he⟩
  | round s t hbusy ht ih =>
    rw [whileLoop_busy hbusy, ended_bind, ht] at h
    exact ih (hstep s t hs hbusy ht) h

theorem whileLoop_yielded (descends : Descends busy step rank) {p : α → Prop}
    (hstep : ∀ s, ∀ a ∈ (step s).yielded, p a) (s : S) :
    ∀ a ∈ (whileLoop busy step rank descends s).yielded, p a := by
  induction s using whileLoop_induction descends with
  | idle s hidle => simp [whileLoop_idle hidle]
  | fails s e hbusy he =>
    rw [whileLoop_busy hbusy, bind_of_error he]
    exact hstep s
  | round s t hbusy ht ih =>
    rw [whileLoop_busy hbusy, bind_of_ok ht]
    intro a ha
    rcases List.mem_append.1 ha with ha | ha
    · exact hstep s a ha
    · exact ih a ha

/-- The loop unrolled for at most `n` rounds. -/
def unrolled (busy : S → Bool) (step : S → Generated α ε S) : ℕ → S → Option (Except ε S)
  | 0, s => if busy s then none else some (.ok s)
  | n + 1, s =>
    if busy s then
      match (step s).ended with
      | .ok s' => unrolled busy step n s'
      | .error e => some (.error e)
    else some (.ok s)

/-- A loop that ends within `n` rounds is computed by its unrolling. -/
theorem whileLoop_of_unrolled (descends : Descends busy step rank) {n : ℕ}
    {x : Except ε S} (h : unrolled busy step n s = some x) :
    (whileLoop busy step rank descends s).ended = x := by
  induction n generalizing s with
  | zero =>
    rw [unrolled] at h
    split at h
    · cases h
    · rename_i hidle
      rw [whileLoop_idle (by simpa using hidle)]
      exact Option.some.inj h
  | succ n ih =>
    rw [unrolled] at h
    split at h
    · rename_i hbusy
      rw [whileLoop_busy hbusy, ended_bind]
      split at h
      · rename_i s' hs'
        rw [hs']
        exact ih h
      · rename_i e he
        rw [he]
        exact Option.some.inj h
    · rename_i hidle
      rw [whileLoop_idle (by simpa using hidle)]
      exact Option.some.inj h

theorem whileLoop_congr {step' : S → Generated α ε S} (descends : Descends busy step rank)
    (descends' : Descends busy step' rank) (h : ∀ s, step s = step' s) (s : S) :
    whileLoop busy step rank descends s = whileLoop busy step' rank descends' s := by
  obtain rfl : step = step' := funext h
  rfl

theorem whileLoop_collected (descends : Descends busy step rank)
    (descends' : Descends busy (fun s => (step s).collected) rank) {s' : S}
    (h : (whileLoop busy step rank descends s).ended = .ok s') :
    whileLoop busy (fun s => (step s).collected) rank descends' s =
      whileLoop busy step rank descends s := by
  induction s using whileLoop_induction descends with
  | idle s hs => rw [whileLoop_idle hs, whileLoop_idle hs]
  | fails s e hs he =>
    rw [whileLoop_busy hs, ended_bind, he] at h
    cases h
  | round s t hs ht ih =>
    rw [whileLoop_busy hs, ended_bind, ht] at h
    have hcollected : (step s).collected.ended = .ok t := (ended_collected _).trans ht
    rw [whileLoop_busy hs, whileLoop_busy hs, bind_of_ok hcollected, bind_of_ok ht, ih h,
      yielded_collected_of_ok ht]

end

end Generated

section

variable {ε ε' : Type*} {S T : Type u}

/-- Both computations return related results or fail with related errors. -/
inductive Ends (E : ε → ε' → Prop) (R : S → T → Prop) : Except ε S → Except ε' T → Prop
  | ok {s t} : R s t → Ends E R (.ok s) (.ok t)
  | error {e e'} : E e e' → Ends E R (.error e) (.error e')

variable {E : ε → ε' → Prop} {R : S → T → Prop} {S' T' : Type u} {R' : S' → T' → Prop}

theorem Ends.bind {x : Except ε S} {y : Except ε' T} (h : Ends E R x y)
    {f : S → Except ε S'} {g : T → Except ε' T'} (hfg : ∀ s t, R s t → Ends E R' (f s) (g t)) :
    Ends E R' (x >>= f) (y >>= g) := by
  cases h with
  | ok hst => exact hfg _ _ hst
  | error he => exact .error he

theorem ends_eq {x y : Except ε S} : Ends (· = ·) (· = ·) x y ↔ x = y := by
  constructor
  · rintro (rfl | rfl) <;> rfl
  · rintro rfl
    cases x with
    | ok s => exact .ok rfl
    | error e => exact .error rfl

variable {α α' ρ ρ' : Type*} [WellFoundedRelation ρ] [WellFoundedRelation ρ']
  {busy : S → Bool} {step : S → Generated α ε S} {rank : S → ρ}
  {busy' : T → Bool} {step' : T → Generated α' ε' T} {rank' : T → ρ'}

/-- **Simulation rule of the loop**: rounds that end alike make loops that end alike. -/
theorem Generated.whileLoop_ends (descends : Generated.Descends busy step rank)
    (descends' : Generated.Descends busy' step' rank') (hbusy : ∀ s t, R s t → busy s = busy' t)
    (hstep : ∀ s t, R s t → busy s = true → Ends E R (step s).ended (step' t).ended)
    {t : T} (hst : R s t) : Ends E R (whileLoop busy step rank descends s).ended
      (whileLoop busy' step' rank' descends' t).ended := by
  induction s using whileLoop_induction descends generalizing t with
  | idle s hs =>
    rw [whileLoop_idle hs, whileLoop_idle ((hbusy s t hst).symm.trans hs)]
    exact .ok hst
  | fails s e hs he =>
    have hround := hstep s t hst hs
    rw [whileLoop_busy hs, whileLoop_busy ((hbusy s t hst).symm.trans hs), ended_bind, ended_bind]
    rw [he] at hround ⊢
    generalize (step' t).ended = y at hround ⊢
    cases hround with
    | error hee => exact .error hee
  | round s s' hs hs' ih =>
    have hround := hstep s t hst hs
    rw [whileLoop_busy hs, whileLoop_busy ((hbusy s t hst).symm.trans hs), ended_bind, ended_bind]
    rw [hs'] at hround ⊢
    generalize (step' t).ended = y at hround ⊢
    cases hround with
    | ok hst' => exact ih hst'

end

end PooFlow.Foundation
