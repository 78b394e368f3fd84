import Mathlib.Data.List.Forall2

namespace PooFlow.Foundation

open List

universe u v

variable {ε : Type u} {α β : Type v}

/-- Pass when `p` holds, otherwise leave with `e`. -/
def guardElse (p : Prop) [Decidable p] (e : ε) : Except ε Unit :=
  if p then .ok () else .error e

def presentElse (value : Option α) (e : ε) : Except ε α :=
  match value with
  | some a => .ok a
  | none => .error e

variable {p : Prop} {e : ε} {a : α} {f : α → Except ε β} {x : Except ε α}

@[simp] theorem guardElse_eq_ok [Decidable p] {u : Unit} : guardElse p e = .ok u ↔ p := by
  unfold guardElse
  split <;> simp_all

variable {value : Option α} {b : β} {e' : ε}

@[simp] theorem presentElse_eq_ok : presentElse value e = .ok a ↔ value = some a := by
  cases value <;> simp [presentElse]

theorem guardElse_of [Decidable p] (h : p) : guardElse p e = .ok () :=
  if_pos h

theorem ok_bind : (Except.ok a >>= f) = f a := rfl

@[simp] theorem pure_eq_ok {a b : α} : (pure a : Except ε α) = .ok b ↔ a = b :=
  ⟨fun h => Except.ok.inj h, congrArg _⟩

@[simp] theorem pure_ne_error : (pure a : Except ε α) ≠ .error e := nofun

@[simp] theorem fmap_eq_ok {f : α → β} {b : β} : f <$> x = .ok b ↔ ∃ a, x = .ok a ∧ f a = b := by
  cases x <;> simp [Functor.map, Except.map]

@[simp] theorem fmap_eq_error {f : α → β} : f <$> x = .error e ↔ x = .error e := by
  cases x <;> simp [Functor.map, Except.map]

/-- A chain succeeds exactly when its first part does and its continuation
does from there. -/
theorem bind_eq_ok : (x >>= f) = .ok b ↔ ∃ a, x = .ok a ∧ f a = .ok b := by
  cases x <;> simp [bind, Except.bind]

theorem then_eq_ok {γ : Type} {x : Except ε Unit} {f : Unit → Except ε γ} {b : γ} :
    (x >>= f) = .ok b ↔ x = .ok () ∧ f () = .ok b := by
  rw [bind_eq_ok]
  exact ⟨fun ⟨_, h⟩ => h, fun h => ⟨(), h⟩⟩

theorem map_eq_ok {f : α → β} : x.map f = .ok b ↔ ∃ a, x = .ok a ∧ f a = b := by
  cases x <;> simp [Except.map]

theorem map_eq_error {f : α → β} : x.map f = .error e ↔ x = .error e := by
  cases x <;> simp [Except.map]

theorem mapError_ok {ε' : Type u} {f : ε → ε'} : (.ok a : Except ε α).mapError f = .ok a := rfl

theorem mapError_eq_ok {ε' : Type u} {f : ε → ε'} : x.mapError f = .ok a ↔ x = .ok a := by
  cases x with
  | ok b => simp [mapError_ok]
  | error e => exact ⟨nofun, nofun⟩

/-- What holds of every successful result can be decided by running the chain. -/
instance decidableForallOk {x : Except ε α} {p : α → Prop} [DecidablePred p] :
    Decidable (∀ a, x = .ok a → p a) :=
  match x with
  | .ok a => decidable_of_iff (p a) (by simp)
  | .error _ => isTrue (by simp)

/-- Whether a chain succeeds can be decided by running it. -/
instance decidableExistsOk {x : Except ε α} : Decidable (∃ a, x = .ok a) :=
  match x with
  | .ok a => isTrue ⟨a, rfl⟩
  | .error _ => isFalse nofun

/-- So can what holds of its result. -/
instance decidableExistsOkAnd {x : Except ε α} {p : α → Prop} [DecidablePred p] :
    Decidable (∃ a, x = .ok a ∧ p a) :=
  match x with
  | .ok a => decidable_of_iff (p a) (by simp)
  | .error _ => isFalse nofun

@[simp] theorem guardElse_eq_error [Decidable p] : guardElse p e = .error e' ↔ ¬p ∧ e = e' := by
  unfold guardElse
  split <;> simp_all

@[simp] theorem presentElse_eq_error : presentElse value e = .error e' ↔ value = none ∧ e = e' := by
  cases value <;> simp [presentElse]

theorem exists_bind_ok (hx : x = .ok a) (hf : ∃ b, f a = .ok b) : ∃ b, (x >>= f) = .ok b := by
  obtain ⟨b, hb⟩ := hf
  exact ⟨b, bind_eq_ok.2 ⟨a, hx, hb⟩⟩

theorem bind_eq_error : (x >>= f) = .error e ↔ x = .error e ∨ ∃ a, x = .ok a ∧ f a = .error e := by
  cases x <;> simp [bind, Except.bind]

section

variable {α : Type*} {f : α → Except ε β} {as : List α} {bs : List β}

theorem forall₂_mem_right {β : Type*} {R : α → β → Prop} {bs : List β}
    (h : List.Forall₂ R as bs) {b : β} (hb : b ∈ bs) : ∃ a ∈ as, R a b := by
  induction h with
  | nil => exact absurd hb not_mem_nil
  | cons hfirst _ ih =>
    rcases mem_cons.1 hb with rfl | hrest
    · exact ⟨_, mem_cons_self, hfirst⟩
    · obtain ⟨a, ha, hR⟩ := ih hrest
      exact ⟨a, mem_cons_of_mem _ ha, hR⟩

theorem forall₂_of_mapM (h : as.mapM f = .ok bs) : List.Forall₂ (fun a b => f a = .ok b) as bs := by
  induction as generalizing bs with
  | nil =>
    cases h
    exact .nil
  | cons a as ih =>
    rw [mapM_cons] at h
    obtain ⟨b, hb, h⟩ := bind_eq_ok.1 h
    obtain ⟨rest, hrest, h⟩ := bind_eq_ok.1 h
    cases h
    exact .cons hb (ih hrest)

theorem mem_of_mapM (h : as.mapM f = .ok bs) : b ∈ bs ↔ ∃ a ∈ as, f a = .ok b := by
  refine ⟨forall₂_mem_right (forall₂_of_mapM h), fun ⟨a, ha, hb⟩ => ?_⟩
  obtain ⟨b', hmem, hb'⟩ := forall₂_mem_right (forall₂_of_mapM h).flip ha
  obtain rfl := Except.ok.inj (hb.symm.trans hb')
  exact hmem

theorem mapM_eq_error (h : as.mapM f = .error e) : ∃ a ∈ as, f a = .error e := by
  induction as with
  | nil => cases h
  | cons a as ih =>
    rw [mapM_cons] at h
    rcases bind_eq_error.1 h with hfirst | ⟨b, -, h⟩
    · exact ⟨a, mem_cons_self, hfirst⟩
    · rcases bind_eq_error.1 h with hrest | ⟨_, -, h⟩
      · obtain ⟨a', ha', herror⟩ := ih hrest
        exact ⟨a', mem_cons_of_mem _ ha', herror⟩
      · cases h

theorem foldlM_eq_error {f : β → α → Except ε β} (h : as.foldlM f b = .error e) :
    ∃ a ∈ as, ∃ b, f b a = .error e := by
  induction as generalizing b with
  | nil => cases h
  | cons a as ih =>
    rw [foldlM_cons] at h
    rcases bind_eq_error.1 h with hfirst | ⟨b', -, h⟩
    · exact ⟨a, mem_cons_self, b, hfirst⟩
    · obtain ⟨a', ha', herror⟩ := ih h
      exact ⟨a', mem_cons_of_mem _ ha', herror⟩

end

end PooFlow.Foundation
