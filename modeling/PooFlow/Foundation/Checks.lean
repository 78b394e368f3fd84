import Mathlib.Data.List.Forall2

/-! Checks that raise (`none`) or answer, and stop at the first answer that decides. -/

namespace PooFlow.Foundation

open List

universe u

variable {α : Type u} {values : List α}

/-- Each value is read, as far as those before it pass. -/
def Stepwise (passes reads : α → Prop) : List α → Prop
  | [] => True
  | value :: values => reads value ∧ (passes value → Stepwise passes reads values)

theorem Stepwise.imp {passes reads reads' : α → Prop} (h : Stepwise passes reads values)
    (himp : ∀ value ∈ values, reads value → reads' value) : Stepwise passes reads' values := by
  induction values with
  | nil => trivial
  | cons value values ih =>
    exact ⟨himp value (by simp) h.1, fun hpass =>
      ih (h.2 hpass) fun value hvalue => himp value (by simp [hvalue])⟩

theorem Stepwise.forall_iff {p q : α → Prop} (h : Stepwise p (fun value => p value ↔ q value) values) :
    (∀ value ∈ values, p value) ↔ ∀ value ∈ values, q value := by
  induction values with
  | nil => simp
  | cons value values ih =>
    simp only [forall_mem_cons, ← h.1]
    exact and_congr_right fun hp => ih (h.2 hp)

theorem Stepwise.forall_zipIdx_iff {p : α → Prop} {q : α × ℕ → Prop} (n : ℕ)
    (h : Stepwise p (fun value => ∀ index, p value ↔ q (value, index)) values) :
    (∀ value ∈ values, p value) ↔ ∀ pair ∈ values.zipIdx n, q pair := by
  induction values generalizing n with
  | nil => simp
  | cons value values ih =>
    simp only [zipIdx_cons, forall_mem_cons, ← h.1 n]
    exact and_congr_right fun hp => ih (n + 1) (h.2 hp)

theorem allM_eq_true {f : α → Option Bool} :
    values.allM f = some true ↔ ∀ value ∈ values, f value = some true := by
  induction values with
  | nil => simp
  | cons value values ih =>
    cases hf : f value with
    | none => simp [hf]
    | some b => cases b <;> simp [hf, ih]

theorem allM_congr {f g : α → Option Bool} (heq : ∀ value ∈ values, f value = g value) :
    values.allM f = values.allM g := by
  induction values with
  | nil => rfl
  | cons value values ih =>
    simp only [allM_cons, heq value (by simp), ih fun value h => heq value (by simp [h])]

theorem allM_filter {f : α → Option Bool} {p : α → Bool}
    (hskip : ∀ value ∈ values, p value = false → f value = some true) :
    values.allM f = (values.filter p).allM f := by
  induction values with
  | nil => rfl
  | cons value values ih =>
    have hrest := ih fun value hvalue => hskip value (by simp [hvalue])
    cases hp : p value with
    | true => rw [filter_cons_of_pos hp, allM_cons, allM_cons, hrest]
    | false =>
      rw [filter_cons_of_neg (by simp [hp]), allM_cons, hskip value (by simp) hp, hrest]
      rfl

/-- Checks that answer where the checks of other values do. -/
theorem allM_of_forall₂ {f : α → Option Bool} {checks : List (Option Bool)}
    (h : List.Forall₂ (fun value check => ∀ b, f value = some b → check = some b) values checks)
    {b : Bool} (hb : values.allM f = some b) : checks.allM id = some b := by
  induction h with
  | nil => exact hb
  | @cons value check values checks hcheck _ ih =>
    rw [allM_cons] at hb ⊢
    cases hfirst : f value with
    | none => simp [hfirst] at hb
    | some first =>
      rw [id, hcheck first hfirst]
      cases first with
      | false => simpa [hfirst] using hb
      | true => simpa using ih (by simpa [hfirst] using hb)

/-- Both checks answer, and answer alike. -/
def Agree (first second : Option Bool) : Prop := ∃ b, first = some b ∧ second = some b

section

variable {first second first' second' : Option Bool}

theorem Agree.and (h : Agree first second) (h' : second = some true → Agree first' second') :
    Agree (do if ← first then first' else return false)
      (do if ← second then second' else return false) := by
  obtain ⟨b, rfl, rfl⟩ := h
  cases b with
  | false => exact ⟨false, by simp⟩
  | true => simpa using h' (by simp)

theorem Agree.or (h : Agree first second) (h' : second = some false → Agree first' second') :
    Agree (do if ← first then return true else first')
      (do if ← second then return true else second') := by
  obtain ⟨b, rfl, rfl⟩ := h
  cases b with
  | false => simpa using h' (by simp)
  | true => exact ⟨true, by simp⟩

theorem Agree.allM {f g : α → Option Bool}
    (h : Stepwise (fun value => g value = some true) (fun value => Agree (f value) (g value))
      values) : Agree (values.allM f) (values.allM g) := by
  induction values with
  | nil => exact ⟨true, by simp⟩
  | cons value values ih =>
    simp only [allM_cons]
    exact h.1.and fun hpass => ih (h.2 hpass)

end

/-- A check answers whether a condition holds. -/
def Decides (check : Option Bool) (condition : Prop) : Prop :=
  ∃ b, check = some b ∧ (b = true ↔ condition)

section

variable {check first second : Option Bool} {p q : Prop}

theorem Decides.congr (h : Decides check p) (hiff : p ↔ q) : Decides check q := by
  obtain ⟨b, hb, hp⟩ := h
  exact ⟨b, hb, hp.trans hiff⟩

theorem Decides.and (hfirst : Decides first p) (hsecond : p → Decides second q) :
    Decides (do if ← first then second else return false) (p ∧ q) := by
  obtain ⟨b, rfl, hp⟩ := hfirst
  cases b with
  | false => exact ⟨false, by simp, by simp [← hp]⟩
  | true =>
    obtain ⟨c, rfl, hq⟩ := hsecond (hp.1 rfl)
    exact ⟨c, by simp, by simp [← hp, hq]⟩

theorem Decides.or (hfirst : Decides first p) (hsecond : ¬p → Decides second q) :
    Decides (do if ← first then return true else second) (p ∨ q) := by
  obtain ⟨b, rfl, hp⟩ := hfirst
  cases b with
  | true => exact ⟨true, by simp, by simp [← hp]⟩
  | false =>
    obtain ⟨c, rfl, hq⟩ := hsecond fun h => Bool.false_ne_true (hp.2 h)
    exact ⟨c, by simp, by simp [← hp, hq]⟩

theorem Decides.allM {f : α → Option Bool} {p : α → Prop}
    (h : Stepwise p (fun value => Decides (f value) (p value)) values) :
    Decides (values.allM f) (∀ value ∈ values, p value) := by
  induction values with
  | nil => exact ⟨true, by simp⟩
  | cons value values ih =>
    simp only [allM_cons, forall_mem_cons]
    exact h.1.and fun hpass => ih (h.2 hpass)

end

end PooFlow.Foundation
