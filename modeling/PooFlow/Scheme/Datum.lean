import Mathlib.Data.List.TakeWhile
import PooFlow.Foundation.Quoting

/-! `_scheme_datum.py`. Strings are code points, lone surrogates included; `str.isspace`,
`str.isdigit` and `unicodedata.decimal` are those of Unicode 14. `str` and `int` keep
`sys.get_int_max_str_digits()`, where 0 is no limit. Source and index are the text that is left;
every text has enough fuel, and the stack is deep enough. -/

namespace PooFlow.Scheme

open Foundation List

section

abbrev CodePoint := Fin 0x110000

abbrev Text := List CodePoint

def point (c : Char) : CodePoint := Fin.ofNat 0x110000 c.toNat

def text (string : String) : Text := string.toList.map point

/-- The first and the last code points of the ranges of `str.isspace`. -/
def spaceRanges : List (ℕ × ℕ) :=
  [(0x9, 0xd), (0x1c, 0x20), (0x85, 0x85), (0xa0, 0xa0), (0x1680, 0x1680), (0x2000, 0x200a),
    (0x2028, 0x2029), (0x202f, 0x202f), (0x205f, 0x205f), (0x3000, 0x3000)]

def decimalZeros : List ℕ :=
  [0x30, 0x660, 0x6f0, 0x7c0, 0x966, 0x9e6, 0xa66, 0xae6, 0xb66, 0xbe6, 0xc66, 0xce6, 0xd66,
    0xde6, 0xe50, 0xed0, 0xf20, 0x1040, 0x1090, 0x17e0, 0x1810, 0x1946, 0x19d0, 0x1a80, 0x1a90,
    0x1b50, 0x1bb0, 0x1c40, 0x1c50, 0xa620, 0xa8d0, 0xa900, 0xa9d0, 0xa9f0, 0xaa50, 0xabf0,
    0xff10, 0x104a0, 0x10d30, 0x11066, 0x110f0, 0x11136, 0x111d0, 0x112f0, 0x11450, 0x114d0,
    0x11650, 0x116c0, 0x11730, 0x118e0, 0x11950, 0x11c50, 0x11d50, 0x11da0, 0x16a60, 0x16ac0,
    0x16b50, 0x1d7ce, 0x1d7d8, 0x1d7e2, 0x1d7ec, 0x1d7f6, 0x1e140, 0x1e2f0, 0x1e950, 0x1fbf0]

def otherDigitRanges : List (ℕ × ℕ) :=
  [(0xb2, 0xb3), (0xb9, 0xb9), (0x1369, 0x1371), (0x19da, 0x19da), (0x2070, 0x2070), (0x2074,
    0x2079), (0x2080, 0x2089), (0x2460, 0x2468), (0x2474, 0x247c), (0x2488, 0x2490), (0x24ea,
    0x24ea), (0x24f5, 0x24fd), (0x24ff, 0x24ff), (0x2776, 0x277e), (0x2780, 0x2788), (0x278a,
    0x2792), (0x10a40, 0x10a43), (0x10e60, 0x10e68), (0x11052, 0x1105a), (0x1f100, 0x1f10a)]

def inRanges (ranges : List (ℕ × ℕ)) (c : CodePoint) : Bool :=
  ranges.any fun range => range.1 ≤ c.val ∧ c.val ≤ range.2

/-- `str.isspace`, of one code point. -/
def isSpace (c : CodePoint) : Bool := inRanges spaceRanges c

def decimal (c : CodePoint) : Option ℕ :=
  (decimalZeros.find? fun first => first ≤ c.val ∧ c.val ≤ first + 9).map fun first => c.val - first

/-- `str.isdigit`, of one code point. -/
def isDigit (c : CodePoint) : Bool := (decimal c).isSome || inRanges otherDigitRanges c

/-- `str.isdigit`. -/
def isDigits (string : Text) : Bool := !string.isEmpty && string.all isDigit

inductive IntError where
  /-- "invalid literal for int() with base 10" -/
  | invalidLiteral (token : Text)
  /-- "Exceeds the limit for integer string conversion" -/
  | tooManyDigits

def WithinLimit (maxDigits : ℕ) (digits : Text) : Prop :=
  maxDigits = 0 ∨ digits.length ≤ maxDigits

instance (maxDigits : ℕ) (digits : Text) : Decidable (WithinLimit maxDigits digits) :=
  inferInstanceAs (Decidable (_ ∨ _))

def digitsOf (n : ℕ) : Text := (Nat.toDigits 10 n).map point

/-- `str`, of an integer. -/
def strOf (maxDigits : ℕ) (value : ℤ) : Except IntError Text := do
  let digits := digitsOf value.natAbs
  guardElse (WithinLimit maxDigits digits) .tooManyDigits
  return if value < 0 then point '-' :: digits else digits

def unsigned : Text → Bool × Text
  | [] => (false, [])
  | c :: rest =>
    if c = point '-' then (true, rest)
    else if c = point '+' then (false, rest)
    else (false, c :: rest)

/-- `int`, of a token without white space and underscores. -/
def intOf (maxDigits : ℕ) (token : Text) : Except IntError ℤ := do
  let (negative, literal) := unsigned token
  let digits := literal.takeWhile fun c => (decimal c).isSome
  guardElse (WithinLimit maxDigits digits) .tooManyDigits
  guardElse (digits ≠ [] ∧ digits.length = literal.length) (.invalidLiteral token)
  let magnitude : ℕ := (digits.filterMap decimal).foldl (fun value digit => 10 * value + digit) 0
  return if negative then -(magnitude : ℤ) else (magnitude : ℤ)

theorem point_digit {c : Char} (h : c.isDigit = true) :
    (point c).val = c.toNat ∧ 48 ≤ c.toNat ∧ c.toNat ≤ 57 := by
  have hbounds : 48 ≤ c.toNat ∧ c.toNat ≤ 57 := Char.isDigit_iff_toNat.1 h
  exact ⟨Nat.mod_eq_of_lt (by omega), hbounds⟩

theorem decimal_point {c : Char} (h : c.isDigit = true) :
    decimal (point c) = some (c.toNat - '0'.toNat) := by
  obtain ⟨hval, hbounds⟩ := point_digit h
  have hfound : (decimalZeros.find? fun first => first ≤ c.toNat ∧ c.toNat ≤ first + 9) =
      some 0x30 := List.find?_cons_of_pos (decide_eq_true hbounds)
  rw [decimal, hval, hfound]
  rfl

variable {n : ℕ} {c : CodePoint}

theorem exists_digit (h : c ∈ digitsOf n) :
    ∃ digit : Char, digit.isDigit = true ∧ point digit = c := by
  obtain ⟨digit, hdigit, hpoint⟩ := mem_map.1 h
  exact ⟨digit, Nat.isDigit_of_mem_toDigits (by decide) (by decide) hdigit, hpoint⟩

theorem digit_bounds (h : c ∈ digitsOf n) : 48 ≤ c.val ∧ c.val ≤ 57 := by
  obtain ⟨digit, hdigit, rfl⟩ := exists_digit h
  rw [(point_digit hdigit).1]
  exact (point_digit hdigit).2

theorem digitsOf_ne_nil (n : ℕ) : digitsOf n ≠ [] := fun h =>
  Nat.toDigits_ne_nil (map_eq_nil_iff.1 h)

theorem isSome_decimal (h : c ∈ digitsOf n) : (decimal c).isSome := by
  obtain ⟨digit, hdigit, rfl⟩ := exists_digit h
  rw [decimal_point hdigit]
  rfl

theorem foldl_digitsOf (n : ℕ) :
    ((digitsOf n).filterMap decimal).foldl (fun value digit => 10 * value + digit) 0 = n := by
  have hdecimals : (digitsOf n).filterMap decimal =
      (Nat.toDigits 10 n).map fun c => c.toNat - '0'.toNat := by
    rw [digitsOf, filterMap_map]
    refine filterMap_eq_map_iff_forall_eq_some.2 fun c hc => ?_
    exact decimal_point (Nat.isDigit_of_mem_toDigits (by decide) (by decide) hc)
  rw [hdecimals, foldl_map]
  exact Nat.ofDigitChars_toDigits (by decide) (by decide)

theorem unsigned_digitsOf (n : ℕ) : unsigned (digitsOf n) = (false, digitsOf n) := by
  cases hdigits : digitsOf n with
  | nil => exact absurd hdigits (digitsOf_ne_nil n)
  | cons c rest =>
    have hbounds : 48 ≤ c.val ∧ c.val ≤ 57 := digit_bounds (hdigits ▸ mem_cons_self)
    have hne : ∀ c' : Char, c'.toNat < 48 → c ≠ point c' := by
      rintro c' hlt rfl
      have hval : (point c').val = c'.toNat := Nat.mod_eq_of_lt (by omega)
      omega
    rw [unsigned, if_neg (hne '-' (by decide)), if_neg (hne '+' (by decide))]

theorem strOf_eq_ok {maxDigits : ℕ} {value : ℤ} {token : Text} :
    strOf maxDigits value = .ok token ↔ WithinLimit maxDigits (digitsOf value.natAbs) ∧
      token = if value < 0 then point '-' :: digitsOf value.natAbs else digitsOf value.natAbs := by
  simp only [strOf, bind_eq_ok, guardElse_eq_ok, exists_const, pure_eq_ok]
  exact and_congr_right fun _ => eq_comm

/-- **The token of an integer is that integer.** -/
theorem intOf_strOf {maxDigits : ℕ} {value : ℤ} {token : Text}
    (h : strOf maxDigits value = .ok token) : intOf maxDigits token = .ok value := by
  obtain ⟨hlimit, rfl⟩ := strOf_eq_ok.1 h
  have hunsigned : unsigned (if value < 0 then point '-' :: digitsOf value.natAbs
      else digitsOf value.natAbs) = (decide (value < 0), digitsOf value.natAbs) := by
    split_ifs with hneg
    · simp [unsigned, hneg]
    · rw [unsigned_digitsOf, decide_eq_false hneg]
  have htake : (digitsOf value.natAbs).takeWhile (fun c => (decimal c).isSome) =
      digitsOf value.natAbs := takeWhile_eq_self_iff.2 fun c hc => isSome_decimal hc
  simp only [intOf, hunsigned, htake, foldl_digitsOf, guardElse_of hlimit, ok_bind]
  rw [guardElse_of ⟨digitsOf_ne_nil _, trivial⟩, ok_bind]
  refine congrArg Except.ok ?_
  by_cases hneg : value < 0
  · simp only [hneg, decide_true, if_true]
    omega
  · simp only [hneg, decide_false, Bool.false_eq_true, if_false]
    omega

end

/-- A value of Python; `other` is of a type that no datum is written for. -/
inductive Value where
  | bool (value : Bool)
  | int (value : ℤ)
  | str (value : Text)
  | tuple (items : List Value)
  | list (items : List Value)
  | other (typeName : String)

/-- `isinstance(value, tuple)`. -/
def Value.isTuple : Value → Bool
  | .tuple _ => true
  | _ => false

inductive WriteError where
  | type (message : String)
  | int (error : IntError)

def escapeSchemeString (value : Text) : Text :=
  substitute (point '\n') [point '\\', point 'n']
    (substitute (point '"') [point '\\', point '"']
      (substitute (point '\\') [point '\\', point '\\'] value))

/-- `"(" + " ".join(…) + ")"`. -/
def parenthesized (items : List Text) : Text :=
  point '(' :: ([point ' '].intercalate items ++ [point ')'])

mutual

def writeSchemeDatum (maxDigits : ℕ) : Value → Except WriteError Text
  | .bool true => .ok (text "#t")
  | .bool false => .ok (text "#f")
  | .int value => (strOf maxDigits value).mapError .int
  | .str value => .ok (point '"' :: (escapeSchemeString value ++ [point '"']))
  | .tuple items => (writeItems maxDigits items).map parenthesized
  | .list items => (writeItems maxDigits items).map parenthesized
  | .other typeName => .error (.type ("unsupported Scheme datum value: " ++ typeName))

def writeItems (maxDigits : ℕ) : List Value → Except WriteError (List Text)
  | [] => .ok []
  | item :: items => do
    let written ← writeSchemeDatum maxDigits item
    let rest ← writeItems maxDigits items
    return written :: rest

end

inductive ReadError where
  | value (message : String)
  | int (error : IntError)
  | outOfFuel

def skipSpace (source : Text) : Text := source.dropWhile isSpace

def peek (source : Text) : Except ReadError CodePoint :=
  presentElse source.head? (.value "unexpected end of Scheme load projection")

def peekNext (source : Text) : Option CodePoint := source.tail.head?

def consume (expected : Char) (source : Text) : Except ReadError Text := do
  let ch ← peek source
  guardElse (ch = point expected) (.value ("expected Scheme token: " ++ expected.toString))
  return source.tail

def dotToken (source : Text) : Bool :=
  source.head? = some (point '.') && (peekNext source).all fun ch => isSpace ch || ch = point ')'

def schemeQuoting : Quoting CodePoint where
  quote := point '"'
  escape := point '\\'
  letter := fun ch =>
    if ch = point '\n' then some (point 'n')
    else if ch = point '"' ∨ ch = point '\\' then some ch
    else none
  meant := fun escaped => if escaped = point 'n' then point '\n' else escaped
  escape_ne_quote := by decide
  quote_escaped := by decide
  escape_escaped := by decide
  meant_letter := by
    intro ch written hletter
    split_ifs at hletter with hline hself
    · obtain rfl := Option.some.inj hletter
      rw [if_pos rfl, hline]
    · obtain rfl := Option.some.inj hletter
      rw [if_neg]
      rintro rfl
      exact absurd hself (by decide)
    · cases hletter

/-- `_string`: what was read, and the text that is left. -/
def string (source : Text) : Except ReadError (Value × Text) := do
  let source ← consume '"' source
  let (value, source) ← schemeQuoting.read (.value "unterminated Scheme string")
    (.value "unterminated Scheme string escape") source
  return (.str value, source)

def inToken (ch : CodePoint) : Bool := !(isSpace ch || ch = point '(' || ch = point ')')

def tokenValue (maxDigits : ℕ) (token : Text) : Except ReadError Value :=
  if token = text "#t" then .ok (.bool true)
  else if token = text "#f" then .ok (.bool false)
  else if isDigits (token.dropWhile fun ch => ch = point '+' || ch = point '-') then
    ((intOf maxDigits token).mapError .int).map .int
  else .ok (.str token)

def atom (maxDigits : ℕ) (source : Text) : Except ReadError (Value × Text) := do
  let token := source.takeWhile inToken
  guardElse (token ≠ []) (.value "expected Scheme datum")
  let value ← tokenValue maxDigits token
  return (value, source.dropWhile inToken)

def dotted (items : List Value) (cdr : Value) : Value :=
  items.foldr (fun item result => .tuple [item, result]) cdr

mutual

def datum (maxDigits : ℕ) : ℕ → Text → Except ReadError (Value × Text)
  | 0, _ => .error .outOfFuel
  | fuel + 1, source => do
    let source := skipSpace source
    let ch ← peek source
    if ch = point '(' then list maxDigits fuel source
    else if ch = point '"' then string source
    else if ch = point '#' ∧ peekNext source = some (point '(') then
      list maxDigits fuel source.tail
    else atom maxDigits source

def list (maxDigits : ℕ) : ℕ → Text → Except ReadError (Value × Text)
  | 0, _ => .error .outOfFuel
  | fuel + 1, source => do
    let source ← consume '(' source
    listItems maxDigits fuel [] source

/-- The loop of `_list`, with the items that were read. -/
def listItems (maxDigits : ℕ) : ℕ → List Value → Text → Except ReadError (Value × Text)
  | 0, _, _ => .error .outOfFuel
  | fuel + 1, items, source => do
    let source := skipSpace source
    let ch ← peek source
    if ch = point ')' then return (.tuple items, source.tail)
    else if dotToken source then do
      guardElse (items.isEmpty = false) (.value "dotted Scheme pair is missing head")
      let (cdr, source) ← datum maxDigits fuel source.tail
      let source ← consume ')' (skipSpace source)
      return (dotted items cdr, source)
    else do
      let (item, source) ← datum maxDigits fuel source
      listItems maxDigits fuel (items ++ [item]) source

end

def fuelOf (source : Text) : ℕ := 3 * source.length + 3

def parse (maxDigits : ℕ) (source : Text) : Except ReadError Value := do
  let (value, rest) ← datum maxDigits (fuelOf source) source
  guardElse (skipSpace rest = []) (.value "unexpected trailing data in Scheme load projection")
  return value

def parseSchemeDatum (maxDigits : ℕ) (source : Text) : Except ReadError Value := do
  let value ← parse maxDigits source
  guardElse (value.isTuple = true)
    (.value "Scheme load projection did not return a row sequence")
  return value

theorem consume_eq_ok {expected : Char} {source rest : Text} :
    consume expected source = .ok rest ↔ source = point expected :: rest := by
  cases source <;> simp [consume, peek, presentElse, ok_bind, bind_eq_ok]

end PooFlow.Scheme
