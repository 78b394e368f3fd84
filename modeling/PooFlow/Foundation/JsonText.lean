import PooFlow.Foundation.Json
import PooFlow.Foundation.JsonTree

namespace PooFlow.Foundation

open List

namespace JsonTree

mutual

def Distinct : JsonTree → Prop
  | .array items => DistinctItems items
  | .object fields => (fields.map Prod.fst).Nodup ∧ DistinctFields fields
  | _ => True

def DistinctItems : List JsonTree → Prop
  | [] => True
  | item :: items => Distinct item ∧ DistinctItems items

def DistinctFields : List (String × JsonTree) → Prop
  | [] => True
  | (_, value) :: fields => Distinct value ∧ DistinctFields fields

end

mutual

theorem Canonical.distinct : ∀ {tree : JsonTree}, tree.Canonical → tree.Distinct
  | .array items, h => by
    rw [Canonical] at h
    rw [Distinct]
    exact distinctItems_of_canonical h
  | .object fields, h => by
    rw [Canonical] at h
    rw [Distinct]
    exact ⟨h.1.imp fun hlt => hlt.ne, distinctFields_of_canonical h.2⟩
  | .null, _ | .bool _, _ | .number _, _ | .string _, _ => by simp [Distinct]

theorem distinctItems_of_canonical : ∀ {items : List JsonTree}, CanonicalItems items →
    DistinctItems items
  | [], _ => by simp [DistinctItems]
  | item :: items, h => by
    rw [CanonicalItems] at h
    rw [DistinctItems]
    exact ⟨h.1.distinct, distinctItems_of_canonical h.2⟩

theorem distinctFields_of_canonical : ∀ {fields : List (String × JsonTree)},
    CanonicalFields fields → DistinctFields fields
  | [], _ => by simp [DistinctFields]
  | (_, value) :: fields, h => by
    rw [CanonicalFields] at h
    rw [DistinctFields]
    exact ⟨h.1.distinct, distinctFields_of_canonical h.2⟩

end

end JsonTree

namespace JsonText

open Json

def escape (c : Char) : List Char :=
  match shortEscape c with
  | some letter => ['\\', letter]
  | none => if c.toNat < 0x20 then codeUnit c.toNat else [c]

def quote (text : String) : List Char := '"' :: (text.toList.flatMap escape ++ ['"'])

def renderNumber (value : ℤ) : List Char :=
  if value < 0 then '-' :: Nat.toDigits 10 value.natAbs else Nat.toDigits 10 value.natAbs

mutual

def render : JsonTree → List Char
  | .null => ['n', 'u', 'l', 'l']
  | .bool true => ['t', 'r', 'u', 'e']
  | .bool false => ['f', 'a', 'l', 's', 'e']
  | .number value => renderNumber value
  | .string value => quote value
  | .array [] => ['[', ']']
  | .array (item :: items) => '[' :: (render item ++ (renderRest items ++ [']']))
  | .object [] => ['{', '}']
  | .object ((key, value) :: fields) =>
    '{' :: (quote key ++ ':' :: (render value ++ (renderMore fields ++ ['}'])))

def renderRest : List JsonTree → List Char
  | [] => []
  | item :: items => ',' :: (render item ++ renderRest items)

def renderMore : List (String × JsonTree) → List Char
  | [] => []
  | (key, value) :: fields => ',' :: (quote key ++ ':' :: (render value ++ renderMore fields))

end

def isSpace (c : Char) : Bool := c = ' ' || c = '\t' || c = '\n' || c = '\r'

def skip (text : List Char) : List Char := text.dropWhile isSpace

def readString : ℕ → List Char → Option (List Char × List Char)
  | 0, _ => none
  | fuel + 1, text =>
    if text.head? = some '"' then some ([], text.tail)
    else do
      -- control characters stand in strings only escaped
      guard (¬text.head?.any (fun c => c.toNat < 0x20))
      let (c, rest) ← unescape text
      let (string, rest) ← readString fuel rest
      some (c :: string, rest)

def readQuoted (text : List Char) : Option (String × List Char) :=
  match skip text with
  | '"' :: rest => (readString text.length rest).map fun read => (String.ofList read.1, read.2)
  | _ => none

def readDigits (text : List Char) : Option (ℕ × List Char) :=
  let digits := text.takeWhile Char.isDigit
  let rest := text.dropWhile Char.isDigit
  if digits = [] ∨ digits.head? = some '0' ∧ digits.length ≠ 1 ∨
      rest.head? = some '.' ∨ rest.head? = some 'e' ∨ rest.head? = some 'E' then none
  else some (Nat.ofDigitChars 10 digits 0, rest)

def readNumber : List Char → Option (ℤ × List Char)
  | '-' :: rest => (readDigits rest).map fun read => (-(read.1 : ℤ), read.2)
  | text => (readDigits text).map fun read => ((read.1 : ℤ), read.2)

def expect (c : Char) (text : List Char) : Option (List Char) :=
  match skip text with
  | first :: rest => if first = c then some rest else none
  | [] => none

mutual

def readValue : ℕ → List Char → Option (JsonTree × List Char)
  | 0, _ => none
  | fuel + 1, text =>
    match skip text with
    | 'n' :: 'u' :: 'l' :: 'l' :: rest => some (.null, rest)
    | 't' :: 'r' :: 'u' :: 'e' :: rest => some (.bool true, rest)
    | 'f' :: 'a' :: 'l' :: 's' :: 'e' :: rest => some (.bool false, rest)
    | '"' :: rest => (readQuoted ('"' :: rest)).map fun read => (.string read.1, read.2)
    | '[' :: rest =>
      match expect ']' rest with
      | some rest => some (.array [], rest)
      | none => do
        let (item, rest) ← readValue fuel rest
        let (items, rest) ← readRest fuel rest
        some (.array (item :: items), rest)
    | '{' :: rest =>
      match expect '}' rest with
      | some rest => some (.object [], rest)
      | none => do
        let (key, rest) ← readQuoted rest
        let (value, rest) ← readValue fuel (← expect ':' rest)
        let (fields, rest) ← readMore fuel rest
        guard (key ∉ fields.map Prod.fst)
        some (.object ((key, value) :: fields), rest)
    | rest => (readNumber rest).map fun read => (.number read.1, read.2)

def readRest : ℕ → List Char → Option (List JsonTree × List Char)
  | 0, _ => none
  | fuel + 1, text =>
    match expect ']' text with
    | some rest => some ([], rest)
    | none => do
      let (item, rest) ← readValue fuel (← expect ',' text)
      let (items, rest) ← readRest fuel rest
      some (item :: items, rest)

def readMore : ℕ → List Char → Option (List (String × JsonTree) × List Char)
  | 0, _ => none
  | fuel + 1, text =>
    match expect '}' text with
    | some rest => some ([], rest)
    | none => do
      let (key, rest) ← readQuoted (← expect ',' text)
      let (value, rest) ← readValue fuel (← expect ':' rest)
      let (fields, rest) ← readMore fuel rest
      guard (key ∉ fields.map Prod.fst)
      some ((key, value) :: fields, rest)

end

def parse (text : List Char) : Option JsonTree := do
  let (value, rest) ← readValue (text.length + 1) text
  guard (skip rest = [])
  some value

theorem unescape_escape (c : Char) (rest : List Char) :
    unescape (escape c ++ rest) = some (c, rest) := by
  unfold escape
  split
  · next letter hshort => exact unescape_short hshort rest
  · next hshort =>
    split_ifs with hcontrol
    · exact unescape_codeUnit (Nat.lt_trans hcontrol (by decide)) rest
    · exact unescape_raw hshort rest

theorem escape_head (c : Char) :
    ∃ first rest, escape c = first :: rest ∧ first ≠ '"' ∧ ¬first.toNat < 0x20 := by
  unfold escape
  split
  · exact ⟨_, _, rfl, by decide, by decide⟩
  · next hshort =>
    split_ifs with hcontrol
    · exact ⟨_, _, rfl, by decide, by decide⟩
    · refine ⟨_, _, rfl, ?_, hcontrol⟩
      rintro rfl
      exact absurd hshort (by decide)

theorem readString_quoted (string rest : List Char) {fuel : ℕ} (hfuel : string.length < fuel) :
    readString fuel (string.flatMap escape ++ '"' :: rest) = some (string, rest) := by
  induction string generalizing fuel with
  | nil =>
    obtain ⟨fuel, rfl⟩ := Nat.exists_eq_add_one.2 hfuel
    rfl
  | cons c string ih =>
    obtain ⟨fuel, rfl⟩ := Nat.exists_eq_add_one.2 (Nat.zero_lt_of_lt hfuel)
    obtain ⟨first, tail, hescape, hfirst, hcontrol⟩ := escape_head c
    have hhead : ((c :: string).flatMap escape ++ '"' :: rest).head? = some first := by
      simp [hescape]
    have hquote : ((c :: string).flatMap escape ++ '"' :: rest).head? ≠ some '"' := by
      rw [hhead]
      simpa using hfirst
    rw [readString, if_neg hquote, hhead, flatMap_cons, append_assoc, unescape_escape]
    simp [hcontrol, ih (Nat.lt_of_succ_lt_succ hfuel)]

theorem readQuoted_quote (text : String) (rest : List Char) :
    readQuoted (quote text ++ rest) = some (text, rest) := by
  have hlength := length_le_flatMap text.toList fun c => by
    obtain ⟨first, rest, hescape, -⟩ := escape_head c
    exact hescape ▸ cons_ne_nil first rest
  have hskip : skip (quote text ++ rest) =
      '"' :: (text.toList.flatMap escape ++ '"' :: rest) := by
    simp [skip, quote, isSpace]
  rw [readQuoted, hskip]
  simp only
  rw [readString_quoted _ _ (by simp only [quote, length_append, length_cons]; omega)]
  simp

variable {first : Char} {rest : List Char} {c : Char}

theorem skip_of_head (h : isSpace first = false) : skip (first :: rest) = first :: rest := by
  simp [skip, h]

theorem expect_self (h : isSpace c = false) : expect c (c :: rest) = some rest := by
  simp [expect, skip_of_head h]

theorem expect_of_ne (h : isSpace first = false) (hne : first ≠ c) :
    expect c (first :: rest) = none := by
  simp [expect, skip_of_head h, hne]

/-- What may stand behind a value in a longer text. -/
def Stops (rest : List Char) : Prop := ∀ c ∈ rest.head?, c = ',' ∨ c = ']' ∨ c = '}'

theorem stops_nil : Stops [] := by simp [Stops]

theorem stops_cons {c : Char} {rest : List Char} (h : c = ',' ∨ c = ']' ∨ c = '}') :
    Stops (c :: rest) := by
  simpa [Stops] using h

/-- Only 0 is written with a leading zero. -/
theorem head_toDigits {n : ℕ} (h : 0 < n) : (Nat.toDigits 10 n).head? ≠ some '0' := by
  induction n using Nat.strongRecOn with
  | ind n ih =>
    by_cases hlt : n < 10
    · rw [Nat.toDigits_of_lt_base hlt]
      interval_cases n <;> decide
    · rw [Nat.toDigits_of_base_le (by decide) (by omega), List.head?_append_of_ne_nil _
        Nat.toDigits_ne_nil]
      exact ih (n / 10) (by omega) (by omega)

theorem readDigits_toDigits (n : ℕ) (hrest : Stops rest) :
    readDigits (Nat.toDigits 10 n ++ rest) = some (n, rest) := by
  have hdigits : ∀ c ∈ Nat.toDigits 10 n, c.isDigit = true := fun c hc =>
    Nat.isDigit_of_mem_toDigits (by decide) (by decide) hc
  have hstop : rest.takeWhile Char.isDigit = [] ∧ rest.dropWhile Char.isDigit = rest := by
    cases rest with
    | nil => simp
    | cons c rest =>
      obtain rfl | rfl | rfl := hrest c rfl <;> simp [Char.isDigit]
  have hpoint : ∀ c : Char, c ≠ ',' → c ≠ ']' → c ≠ '}' → rest.head? ≠ some c := by
    intro c h1 h2 h3 h
    rcases hrest c (by simp [h]) with h | h | h <;> contradiction
  rw [readDigits, takeWhile_append_of_pos hdigits, dropWhile_append_of_pos hdigits,
    hstop.1, hstop.2, append_nil, if_neg, Nat.ofDigitChars_toDigits (by decide) (by decide)]
  rintro (h | ⟨h0, h1⟩ | h | h | h)
  · exact Nat.toDigits_ne_nil h
  · rcases Nat.eq_zero_or_pos n with rfl | hn
    · exact h1 (by rw [Nat.toDigits_zero, length_singleton])
    · exact head_toDigits hn h0
  · exact hpoint '.' (by decide) (by decide) (by decide) h
  · exact hpoint 'e' (by decide) (by decide) (by decide) h
  · exact hpoint 'E' (by decide) (by decide) (by decide) h

theorem renderNumber_head (value : ℤ) : ∃ first tail, renderNumber value = first :: tail ∧
    (first = '-' ∨ first.isDigit = true) := by
  unfold renderNumber
  split_ifs
  · exact ⟨_, _, rfl, .inl rfl⟩
  · cases hdigits : Nat.toDigits 10 value.natAbs with
    | nil => exact absurd hdigits Nat.toDigits_ne_nil
    | cons first tail =>
      refine ⟨first, tail, rfl, .inr ?_⟩
      exact Nat.isDigit_of_mem_toDigits (b := 10) (by decide) (by decide)
        (hdigits ▸ mem_cons_self)

theorem readNumber_renderNumber (value : ℤ) (hrest : Stops rest) :
    readNumber (renderNumber value ++ rest) = some (value, rest) := by
  unfold renderNumber
  split_ifs with hneg
  · rw [cons_append, readNumber, readDigits_toDigits _ hrest]
    simp only [Option.map_some, Option.some.injEq, Prod.mk.injEq, and_true]
    omega
  · cases hdigits : Nat.toDigits 10 value.natAbs with
    | nil => exact absurd hdigits Nat.toDigits_ne_nil
    | cons first tail =>
      have hdigit : first.isDigit = true :=
        Nat.isDigit_of_mem_toDigits (b := 10) (by decide) (by decide)
          (hdigits ▸ mem_cons_self)
      have hminus : first ≠ '-' := by
        rintro rfl
        exact absurd hdigit (by decide)
      rw [cons_append, readNumber, ← cons_append, ← hdigits, readDigits_toDigits _ hrest]
      · simp only [Option.map_some, Option.some.injEq, Prod.mk.injEq, and_true]
        omega
      · intro tail' heq
        exact hminus (List.cons.inj heq).1

theorem render_head (value : JsonTree) : ∃ first tail, render value = first :: tail ∧
    isSpace first = false ∧ first ≠ ']' ∧ first ≠ '}' := by
  cases value with
  | number value =>
    obtain ⟨first, tail, htext, hfirst⟩ := renderNumber_head value
    refine ⟨first, tail, htext, ?_⟩
    rcases hfirst with rfl | hdigit
    · decide
    · refine ⟨?_, ?_, ?_⟩
      · simp only [isSpace, Bool.or_eq_false_iff, decide_eq_false_iff_not]
        refine ⟨⟨⟨?_, ?_⟩, ?_⟩, ?_⟩ <;> rintro rfl <;> exact absurd hdigit (by decide)
      · rintro rfl
        exact absurd hdigit (by decide)
      · rintro rfl
        exact absurd hdigit (by decide)
  | null => exact ⟨_, _, rfl, by decide⟩
  | bool value => cases value <;> exact ⟨_, _, rfl, by decide⟩
  | string value => exact ⟨_, _, rfl, by decide⟩
  | array items => cases items <;> exact ⟨_, _, rfl, by decide⟩
  | object fields => rcases fields with _ | ⟨⟨_, _⟩, _⟩ <;> exact ⟨_, _, rfl, by decide⟩

theorem readValue_number {fuel : ℕ} {tail : List Char} (hfirst : first = '-' ∨ first.isDigit = true)
    : readValue (fuel + 1) (first :: tail) =
      (readNumber (first :: tail)).map fun read => (.number read.1, read.2) := by
  have hne : ∀ c : Char, c ≠ '-' → c.isDigit = false → first ≠ c := by
    rintro c hc hdigit rfl
    rcases hfirst with h | h
    · exact hc h
    · exact absurd h (by simp [hdigit])
  have hspace : isSpace first = false := by
    simp only [isSpace, Bool.or_eq_false_iff, decide_eq_false_iff_not]
    exact ⟨⟨⟨hne _ (by decide) (by decide), hne _ (by decide) (by decide)⟩,
      hne _ (by decide) (by decide)⟩, hne _ (by decide) (by decide)⟩
  rw [readValue, skip_of_head hspace]
  split
  all_goals first
    | rfl
    | rename_i heq
      exact absurd (List.cons.inj heq).1 (hne _ (by decide) (by decide))

theorem expect_render_none (value : JsonTree) {c : Char} (hc : c = ']' ∨ c = '}')
    {rest : List Char} : expect c (render value ++ rest) = none := by
  obtain ⟨first, tail, htext, hspace, hbracket, hbrace⟩ := render_head value
  rw [htext, cons_append]
  refine expect_of_ne hspace ?_
  rcases hc with rfl | rfl
  · exact hbracket
  · exact hbrace

theorem expect_quote_none (key : String) (hc : '"' ≠ c) : expect c (quote key ++ rest) = none :=
  expect_of_ne (by decide) hc

theorem stops_renderRest (items : List JsonTree) (rest : List Char) :
    Stops (renderRest items ++ ']' :: rest) := by
  cases items with
  | nil => exact stops_cons (.inr (.inl rfl))
  | cons => exact stops_cons (.inl rfl)

theorem stops_renderMore (fields : List (String × JsonTree)) (rest : List Char) :
    Stops (renderMore fields ++ '}' :: rest) := by
  rcases fields with _ | ⟨⟨_, _⟩, _⟩
  · exact stops_cons (.inr (.inr rfl))
  · exact stops_cons (.inl rfl)

mutual

theorem readValue_render : ∀ (value : JsonTree), value.Distinct → ∀ {fuel : ℕ} {rest : List Char},
    (render value).length < fuel → Stops rest →
    readValue fuel (render value ++ rest) = some (value, rest) := by
  intro value hvalue fuel rest hfuel hrest
  -- every rendering has a character, so a step of fuel is there
  obtain ⟨fuel, rfl⟩ := Nat.exists_eq_add_one.2 (Nat.zero_lt_of_lt hfuel)
  cases value with
  | null => rfl
  | bool value => cases value <;> rfl
  | number value =>
    obtain ⟨first, tail, htext, hfirst⟩ := renderNumber_head value
    have hread := readNumber_renderNumber value hrest
    rw [htext] at hread
    rw [render, htext, cons_append, readValue_number hfirst, ← cons_append, hread]
    rfl
  | string value =>
    have htext : quote value ++ rest = '"' :: (value.toList.flatMap escape ++ '"' :: rest) := by
      simp [quote]
    have hread := readQuoted_quote value rest
    rw [htext] at hread
    rw [render, htext, readValue, skip_of_head (by decide)]
    simp only [hread, Option.map_some]
  | array items =>
    cases items with
    | nil => rfl
    | cons item items =>
      rw [JsonTree.Distinct, JsonTree.DistinctItems] at hvalue
      rw [render] at hfuel
      simp only [length_cons, length_append] at hfuel
      have hitem : readValue fuel (render item ++ (renderRest items ++ ']' :: rest)) =
        some (item, renderRest items ++ ']' :: rest) :=
        readValue_render item hvalue.1 (by omega) (stops_renderRest items rest)
      have hitems : readRest fuel (renderRest items ++ ']' :: rest) = some (items, rest) :=
        readRest_render items hvalue.2 (by omega)
      have htext : render (.array (item :: items)) ++ rest =
          '[' :: (render item ++ (renderRest items ++ ']' :: rest)) := by
        simp [render]
      rw [htext, readValue, skip_of_head (by decide)]
      simp only [expect_render_none item (.inl rfl), hitem, hitems, Option.bind_eq_bind,
        Option.bind_some]
  | object fields =>
    cases fields with
    | nil => rfl
    | cons field fields =>
      obtain ⟨key, value⟩ := field
      rw [JsonTree.Distinct, JsonTree.DistinctFields] at hvalue
      obtain ⟨hkeys, hvalue, hfields⟩ := hvalue
      obtain ⟨hkey, hkeys⟩ := nodup_cons.1 hkeys
      rw [render] at hfuel
      simp only [length_cons, length_append] at hfuel
      have hmember : readValue fuel (render value ++ (renderMore fields ++ '}' :: rest)) =
        some (value, renderMore fields ++ '}' :: rest) :=
        readValue_render value hvalue (by omega) (stops_renderMore fields rest)
      have hmembers : readMore fuel (renderMore fields ++ '}' :: rest) = some (fields, rest) :=
        readMore_render fields hfields hkeys (by omega)
      have htext : render (.object ((key, value) :: fields)) ++ rest =
          '{' :: (quote key ++ ':' :: (render value ++ (renderMore fields ++ '}' :: rest))) := by
        simp [render]
      rw [htext, readValue, skip_of_head (by decide)]
      simp only [expect_quote_none key (by decide : '"' ≠ '}'), readQuoted_quote,
        expect_self (by decide : isSpace ':' = false), hmember, hmembers, Option.bind_eq_bind,
        Option.bind_some, hkey, not_false_eq_true, guard_true, Option.pure_def]

theorem readRest_render : ∀ (items : List JsonTree), JsonTree.DistinctItems items →
    ∀ {fuel : ℕ} {rest : List Char}, (renderRest items).length < fuel →
    readRest fuel (renderRest items ++ ']' :: rest) = some (items, rest)
  | [], _, fuel, rest, hfuel => by
    obtain ⟨fuel, rfl⟩ := Nat.exists_eq_add_one.2 (Nat.zero_lt_of_lt hfuel)
    rfl
  | item :: items, hitems, fuel, rest, hfuel => by
    obtain ⟨fuel, rfl⟩ := Nat.exists_eq_add_one.2 (Nat.zero_lt_of_lt hfuel)
    rw [JsonTree.DistinctItems] at hitems
    rw [renderRest] at hfuel
    simp only [length_cons, length_append] at hfuel
    have hitem : readValue fuel (render item ++ (renderRest items ++ ']' :: rest)) =
      some (item, renderRest items ++ ']' :: rest) :=
      readValue_render item hitems.1 (by omega) (stops_renderRest items rest)
    have hrest : readRest fuel (renderRest items ++ ']' :: rest) = some (items, rest) :=
      readRest_render items hitems.2 (by omega)
    have htext : renderRest (item :: items) ++ ']' :: rest =
        ',' :: (render item ++ (renderRest items ++ ']' :: rest)) := by
      simp [renderRest]
    rw [htext, readRest, expect_of_ne (by decide) (by decide), expect_self (by decide)]
    simp only [hitem, hrest, Option.bind_eq_bind, Option.bind_some]

theorem readMore_render : ∀ (fields : List (String × JsonTree)), JsonTree.DistinctFields fields →
    (fields.map Prod.fst).Nodup → ∀ {fuel : ℕ} {rest : List Char},
    (renderMore fields).length < fuel →
    readMore fuel (renderMore fields ++ '}' :: rest) = some (fields, rest)
  | [], _, _, fuel, rest, hfuel => by
    obtain ⟨fuel, rfl⟩ := Nat.exists_eq_add_one.2 (Nat.zero_lt_of_lt hfuel)
    rfl
  | (key, value) :: fields, hfields, hkeys, fuel, rest, hfuel => by
    obtain ⟨fuel, rfl⟩ := Nat.exists_eq_add_one.2 (Nat.zero_lt_of_lt hfuel)
    rw [JsonTree.DistinctFields] at hfields
    obtain ⟨hkey, hkeys⟩ := nodup_cons.1 hkeys
    rw [renderMore] at hfuel
    simp only [length_cons, length_append] at hfuel
    have hmember : readValue fuel (render value ++ (renderMore fields ++ '}' :: rest)) =
      some (value, renderMore fields ++ '}' :: rest) :=
      readValue_render value hfields.1 (by omega) (stops_renderMore fields rest)
    have hmembers : readMore fuel (renderMore fields ++ '}' :: rest) = some (fields, rest) :=
      readMore_render fields hfields.2 hkeys (by omega)
    have htext : renderMore ((key, value) :: fields) ++ '}' :: rest =
        ',' :: (quote key ++ ':' :: (render value ++ (renderMore fields ++ '}' :: rest))) := by
      simp [renderMore]
    rw [htext, readMore, expect_of_ne (by decide) (by decide), expect_self (by decide)]
    simp only [readQuoted_quote, expect_self (by decide : isSpace ':' = false), hmember, hmembers,
      Option.bind_eq_bind, Option.bind_some, hkey, not_false_eq_true, guard_true, Option.pure_def]

end

/-- **What was written is read back.** -/
theorem parse_render {value : JsonTree} (h : value.Distinct) : parse (render value) = some value := by
  have hread : readValue ((render value).length + 1) (render value ++ []) = some (value, []) :=
    readValue_render value h (Nat.lt_succ_self _) stops_nil
  rw [append_nil] at hread
  rw [parse, hread]
  rfl

theorem nul_notMem_quote (text : String) : '\x00' ∉ quote text := by
  have hunit : ∀ n < 0x20, '\x00' ∉ codeUnit n := by decide
  have hescape : ∀ c ∈ text.toList, '\x00' ∉ escape c := by
    intro c _
    unfold escape
    split
    · rename_i letter hletter
      rw [shortEscape] at hletter
      split_ifs at hletter <;> cases hletter <;> decide
    · split_ifs with hcontrol
      · exact hunit _ hcontrol
      · rintro hmem
        rw [← mem_singleton.1 hmem] at hcontrol
        exact hcontrol (by decide)
  simp only [quote, mem_cons, mem_append, mem_flatMap, not_or, not_exists, not_and,
    not_mem_nil, not_false_iff, and_true]
  exact ⟨by decide, hescape, by decide⟩

mutual

theorem nul_notMem_render : ∀ value : JsonTree, '\x00' ∉ render value
  | .null | .bool true | .bool false | .array [] | .object [] => by simp [render]
  | .number value => by
    have hdigits : '\x00' ∉ Nat.toDigits 10 value.natAbs := fun hmem => absurd
      (Nat.isDigit_of_mem_toDigits (b := 10) (by decide) (by decide) hmem) (by decide)
    rw [render, renderNumber]
    split_ifs <;> simp [hdigits]
  | .string text => by
    rw [render]
    exact nul_notMem_quote text
  | .array (item :: items) => by
    simp [render, nul_notMem_render item, nul_notMem_renderRest items]
  | .object ((key, value) :: fields) => by
    simp [render, nul_notMem_quote key, nul_notMem_render value, nul_notMem_renderMore fields]

theorem nul_notMem_renderRest : ∀ items : List JsonTree, '\x00' ∉ renderRest items
  | [] => not_mem_nil
  | item :: items => by
    simp [renderRest, nul_notMem_render item, nul_notMem_renderRest items]

theorem nul_notMem_renderMore : ∀ fields : List (String × JsonTree), '\x00' ∉ renderMore fields
  | [] => not_mem_nil
  | (key, value) :: fields => by
    simp [renderMore, nul_notMem_quote key, nul_notMem_render value, nul_notMem_renderMore fields]

end

end JsonText

end PooFlow.Foundation
