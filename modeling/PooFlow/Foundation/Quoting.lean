import PooFlow.Foundation.Guard

namespace PooFlow.Foundation

open List

universe u v

variable {α : Type u} {ε : Type v} [DecidableEq α]

/-- The text with `new` in the place of every `old`. -/
def substitute (old : α) (new : List α) (text : List α) : List α :=
  text.flatMap fun symbol => if symbol = old then new else [symbol]

theorem substitute_flatMap (old : α) (new text : List α) (spell : α → List α) :
    substitute old new (text.flatMap spell) =
      text.flatMap fun symbol => substitute old new (spell symbol) :=
  flatMap_assoc

theorem substitute_nil (old : α) (new : List α) : substitute old new [] = [] := rfl

theorem substitute_cons_of_ne {old symbol : α} (h : symbol ≠ old) (new text : List α) :
    substitute old new (symbol :: text) = symbol :: substitute old new text := by
  rw [substitute, flatMap_cons, if_neg h]
  rfl

structure Quoting (α : Type u) where
  quote : α
  escape : α
  letter : α → Option α
  /-- The symbol that a letter behind the escape stands for. -/
  meant : α → α
  escape_ne_quote : escape ≠ quote
  quote_escaped : (letter quote).isSome
  escape_escaped : (letter escape).isSome
  meant_letter : ∀ symbol, ∀ written ∈ letter symbol, meant written = symbol

namespace Quoting

def spell (Q : Quoting α) (symbol : α) : List α :=
  match Q.letter symbol with
  | some written => [Q.escape, written]
  | none => [symbol]

def body (Q : Quoting α) (string : List α) : List α := string.flatMap Q.spell

def read (Q : Quoting α) (openString openEscape : ε) : List α → Except ε (List α × List α)
  | [] => .error openString
  | symbol :: rest =>
    if symbol = Q.quote then .ok ([], rest)
    else if symbol ≠ Q.escape then do
      let (string, rest) ← Q.read openString openEscape rest
      return (symbol :: string, rest)
    else match rest with
      | [] => .error openEscape
      | written :: rest => do
        let (string, rest) ← Q.read openString openEscape rest
        return (Q.meant written :: string, rest)

variable (Q : Quoting α) (openString openEscape : ε)

theorem read_quote (rest : List α) :
    Q.read openString openEscape (Q.quote :: rest) = .ok ([], rest) := by
  rw [read.eq_def]
  exact if_pos rfl

theorem read_spell (symbol : α) (rest : List α) :
    Q.read openString openEscape (Q.spell symbol ++ rest) = do
      let (string, rest) ← Q.read openString openEscape rest
      return (symbol :: string, rest) := by
  unfold spell
  cases hletter : Q.letter symbol with
  | some written =>
    have hmeant : Q.meant written = symbol := Q.meant_letter symbol written hletter
    show Q.read openString openEscape (Q.escape :: written :: rest) = _
    rw [read.eq_def]
    simp only [Q.escape_ne_quote, if_false, ne_eq, not_true_eq_false, hmeant]
  | none =>
    have hquote : symbol ≠ Q.quote := by
      rintro rfl
      exact absurd Q.quote_escaped (by simp [hletter])
    have hescape : symbol ≠ Q.escape := by
      rintro rfl
      exact absurd Q.escape_escaped (by simp [hletter])
    show Q.read openString openEscape (symbol :: rest) = _
    rw [read.eq_def]
    simp only [hquote, if_false, ne_eq, hescape, not_false_eq_true, if_true]

/-- **What was written is read back**, up to the closing quote. -/
theorem read_body (string rest : List α) :
    Q.read openString openEscape (Q.body string ++ Q.quote :: rest) = .ok (string, rest) := by
  induction string with
  | nil => exact Q.read_quote openString openEscape rest
  | cons symbol string ih =>
    rw [body, flatMap_cons, append_assoc, read_spell]
    change (Q.read openString openEscape (Q.body string ++ Q.quote :: rest) >>= _) = _
    rw [ih]
    rfl

end Quoting

end PooFlow.Foundation
