import PooFlow.Foundation.Hex

namespace PooFlow.Foundation.Json

open List

def shortEscape (c : Char) : Option Char :=
  if c = '"' then some '"'
  else if c = '\\' then some '\\'
  else if c = '\n' then some 'n'
  else if c = '\r' then some 'r'
  else if c = '\t' then some 't'
  else if c = '\x08' then some 'b'
  else if c = '\x0c' then some 'f'
  else none

def codeUnit (unit : ℕ) : List Char := '\\' :: 'u' :: Hex.digits 4 unit

def escape (c : Char) : List Char :=
  match shortEscape c with
  | some letter => ['\\', letter]
  | none =>
    if ' ' ≤ c ∧ c ≤ '~' then [c]
    else if c.toNat < 0x10000 then codeUnit c.toNat
    else
      codeUnit (0xd800 + (c.toNat - 0x10000) / 0x400) ++
        codeUnit (0xdc00 + (c.toNat - 0x10000) % 0x400)

def quote (text : List Char) : List Char := '"' :: (text.flatMap escape ++ ['"'])

def items (texts : List (List Char)) : List Char := [','].intercalate (texts.map quote)

def dumps (texts : List (List Char)) : List Char := '[' :: (items texts ++ [']'])

theorem items_singleton (text : List Char) : items [text] = quote text := by
  simp [items]

theorem items_cons_cons (text next : List Char) (texts : List (List Char)) :
    items (text :: next :: texts) = quote text ++ ',' :: items (next :: texts) := by
  simp [items, intercalate_cons_cons]

def shortUnescape (letter : Char) : Option Char :=
  if letter = '"' then some '"'
  else if letter = '\\' then some '\\'
  else if letter = 'n' then some '\n'
  else if letter = 'r' then some '\r'
  else if letter = 't' then some '\t'
  else if letter = 'b' then some '\x08'
  else if letter = 'f' then some '\x0c'
  else none

def readUnit : List Char → Option (ℕ × List Char)
  | '\\' :: 'u' :: a :: b :: c :: d :: rest => (Hex.read [a, b, c, d]).map (·, rest)
  | _ => none

def unescape (text : List Char) : Option (Char × List Char) :=
  match readUnit text with
  | some (unit, rest) =>
    if 0xd800 ≤ unit ∧ unit < 0xdc00 then
      (readUnit rest).map fun low =>
        (Char.ofNat (0x10000 + (unit - 0xd800) * 0x400 + (low.1 - 0xdc00)), low.2)
    else some (Char.ofNat unit, rest)
  | none =>
    match text with
    | '\\' :: letter :: rest => (shortUnescape letter).map (·, rest)
    | c :: rest => some (c, rest)
    | [] => none

def readString : ℕ → List Char → Option (List Char × List Char)
  | 0, _ => none
  | fuel + 1, text =>
    if text.head? = some '"' then some ([], text.tail)
    else do
      let (c, rest) ← unescape text
      let (string, rest) ← readString fuel rest
      some (c :: string, rest)

def readItems : ℕ → List Char → Option (List (List Char))
  | 0, _ => none
  | fuel + 1, text => do
    guard (text.head? = some '"')
    let (string, rest) ← readString text.length text.tail
    if rest.head? = some ',' then do
      let strings ← readItems fuel rest.tail
      some (string :: strings)
    else some [string]

def loads (text : List Char) : Option (List (List Char)) :=
  if text = ['[', ']'] then some [] else readItems text.length text.tail

theorem readUnit_codeUnit {unit : ℕ} (h : unit < 0x10000) (rest : List Char) :
    readUnit (codeUnit unit ++ rest) = some (unit, rest) := by
  have hread := Hex.read_digits (by decide : 4 ≠ 0) h
  obtain ⟨a, b, c, d, hdigits⟩ : ∃ a b c d, Hex.digits 4 unit = [a, b, c, d] :=
    ⟨_, _, _, _, rfl⟩
  rw [hdigits] at hread
  rw [codeUnit, hdigits]
  simp [readUnit, hread]

theorem readUnit_of_ne {c : Char} (hc : c ≠ '\\') (rest : List Char) :
    readUnit (c :: rest) = none := by
  rw [readUnit]
  intro _ _ _ _ _ heq
  injection heq with hhead
  exact absurd hhead hc

theorem readUnit_short {letter : Char} (hletter : letter ≠ 'u') (rest : List Char) :
    readUnit ('\\' :: letter :: rest) = none := by
  rw [readUnit]
  intro _ _ _ _ _ heq
  injection heq with _ htail
  injection htail with hhead
  exact absurd hhead hletter

theorem shortUnescape_of_shortEscape {c letter : Char} (h : shortEscape c = some letter) :
    shortUnescape letter = some c ∧ letter ≠ 'u' := by
  unfold shortEscape at h
  split_ifs at h with h1 h2 h3 h4 h5 h6 h7
  all_goals
    obtain rfl := Option.some.inj h
    subst c
    decide

theorem unescape_short {c letter : Char} (h : shortEscape c = some letter) (rest : List Char) :
    unescape ('\\' :: letter :: rest) = some (c, rest) := by
  obtain ⟨hspelled, hletter⟩ := shortUnescape_of_shortEscape h
  simp [unescape, readUnit_short hletter, hspelled]

theorem unescape_raw {c : Char} (h : shortEscape c = none) (rest : List Char) :
    unescape (c :: rest) = some (c, rest) := by
  have hbackslash : c ≠ '\\' := by
    rintro rfl
    exact absurd h (by decide)
  rw [unescape, readUnit_of_ne hbackslash]
  exact fun _ _ hhead => absurd hhead hbackslash

theorem unescape_codeUnit {c : Char} (h : c.toNat < 0x10000) (rest : List Char) :
    unescape (codeUnit c.toNat ++ rest) = some (c, rest) := by
  have hscalar : ¬(0xd800 ≤ c.toNat ∧ c.toNat < 0xdc00) := by
    rintro ⟨hlow, hhigh⟩
    rcases c.valid with hvalid | hvalid
    · exact absurd (show c.toNat < 0xd800 from hvalid) (by omega)
    · exact absurd (show 0xdfff < c.toNat from hvalid.1) (by omega)
  rw [unescape.eq_def, readUnit_codeUnit h]
  simp only [hscalar, if_false, Char.ofNat_toNat]

theorem unescape_escape (c : Char) (rest : List Char) :
    unescape (escape c ++ rest) = some (c, rest) := by
  unfold escape
  split
  · next letter hshort => exact unescape_short hshort rest
  · next hshort =>
    split_ifs with hprintable hplane
    · exact unescape_raw hshort rest
    · exact unescape_codeUnit hplane rest
    · have hbound : c.toNat < 0x110000 := by
        rcases c.valid with hvalid | hvalid
        · exact Nat.lt_trans (show c.toNat < 0xd800 from hvalid) (by decide)
        · exact show c.toNat < 0x110000 from hvalid.2
      -- two surrogates, of which the first tells that a second follows
      have hhigh : 0xd800 + (c.toNat - 0x10000) / 0x400 < 0xdc00 := by omega
      have hlow : 0xdc00 + (c.toNat - 0x10000) % 0x400 < 0x10000 := by omega
      rw [unescape.eq_def, append_assoc, readUnit_codeUnit (by omega)]
      simp only [hhigh, Nat.le_add_right, true_and, if_true, readUnit_codeUnit hlow,
        Option.map_some]
      have hcombined : 0x10000 + (0xd800 + (c.toNat - 0x10000) / 0x400 - 0xd800) * 0x400 +
          (0xdc00 + (c.toNat - 0x10000) % 0x400 - 0xdc00) = c.toNat := by omega
      rw [hcombined, Char.ofNat_toNat]

theorem escape_head (c : Char) : ∃ first rest, escape c = first :: rest ∧ first ≠ '"' := by
  unfold escape
  split
  · exact ⟨_, _, rfl, by decide⟩
  · next hshort =>
    split_ifs
    · refine ⟨_, _, rfl, ?_⟩
      rintro rfl
      exact absurd hshort (by decide)
    · exact ⟨_, _, rfl, by decide⟩
    · exact ⟨_, _, rfl, by decide⟩

variable (string : List Char) (strings : List (List Char))

theorem readString_quoted (rest : List Char) {fuel : ℕ} (hfuel : string.length < fuel) :
    readString fuel (string.flatMap escape ++ '"' :: rest) = some (string, rest) := by
  induction string generalizing fuel with
  | nil =>
    obtain ⟨fuel, rfl⟩ := Nat.exists_eq_add_one.2 hfuel
    rfl
  | cons c string ih =>
    obtain ⟨fuel, rfl⟩ := Nat.exists_eq_add_one.2 (Nat.zero_lt_of_lt hfuel)
    obtain ⟨first, tail, hescape, hfirst⟩ := escape_head c
    have hhead : ((c :: string).flatMap escape ++ '"' :: rest).head? ≠ some '"' := by
      simp [hescape, hfirst]
    rw [readString, if_neg hhead, flatMap_cons, append_assoc, unescape_escape]
    simp only [Option.bind_eq_bind, Option.bind_some]
    rw [ih (Nat.lt_of_succ_lt_succ hfuel)]
    rfl

theorem length_le_flatMap {spelling : Char → List Char} (h : ∀ c, spelling c ≠ []) :
    string.length ≤ (string.flatMap spelling).length := by
  induction string with
  | nil => exact Nat.le_refl _
  | cons c string ih =>
    have hone := length_pos_iff.2 (h c)
    rw [flatMap_cons, length_append, length_cons]
    omega

theorem readString_quote (rest : List Char) :
    readString (quote string ++ rest).length (quote string ++ rest).tail = some (string, rest) := by
  have hlength := length_le_flatMap string fun c => by
    obtain ⟨first, rest, hescape, -⟩ := escape_head c
    exact hescape ▸ cons_ne_nil first rest
  have htail : (quote string ++ rest).tail = string.flatMap escape ++ '"' :: rest := by
    simp [quote]
  rw [htail]
  refine readString_quoted string rest ?_
  simp only [quote, length_append, length_cons]
  omega

theorem readItems_items {strings : List (List Char)} (hstrings : strings ≠ []) {fuel : ℕ}
    (hfuel : strings.length ≤ fuel) : readItems fuel (items strings ++ [']']) = some strings := by
  induction strings generalizing fuel with
  | nil => exact absurd rfl hstrings
  | cons string strings ih =>
    obtain ⟨fuel, rfl⟩ := Nat.exists_eq_succ_of_ne_zero
      (Nat.ne_of_gt (Nat.lt_of_lt_of_le (Nat.succ_pos _) hfuel))
    have hquote : ∀ rest : List Char, (quote string ++ rest).head? = some '"' := fun _ => rfl
    cases strings with
    | nil =>
      rw [items_singleton, readItems, readString_quote, hquote]
      rfl
    | cons next strings =>
      rw [items_cons_cons, append_assoc, cons_append, readItems, readString_quote, hquote]
      simp [ih (cons_ne_nil _ _) (Nat.le_of_succ_le_succ hfuel), guard]

theorem length_le_items : strings.length ≤ (items strings).length := by
  induction strings with
  | nil => exact Nat.le_refl _
  | cons string strings ih =>
    cases strings with
    | nil => simp [items, quote]
    | cons next strings =>
      rw [items_cons_cons, length_append, length_cons, length_cons]
      exact Nat.le_trans (Nat.succ_le_succ ih) (Nat.le_add_left _ _)

/-- **What was written is read back.** -/
theorem loads_dumps : loads (dumps strings) = some strings := by
  cases strings with
  | nil => rfl
  | cons string strings =>
    have hne : dumps (string :: strings) ≠ ['[', ']'] := by
      have hlength := length_le_items (string :: strings)
      intro heq
      have := congrArg List.length heq
      simp only [dumps, length_cons, length_append, length_nil] at this hlength
      omega
    rw [loads, if_neg hne]
    refine readItems_items (cons_ne_nil _ _) ?_
    have hlength := length_le_items (string :: strings)
    simp only [dumps, length_cons, length_append] at hlength ⊢
    omega

/-- **The text of a longer list** goes on with a comma. -/
theorem dumps_append (more : List (List Char)) (hstrings : strings ≠ []) (hmore : more ≠ []) :
    ∃ rest, dumps (strings ++ more) = (dumps strings).dropLast ++ ',' :: rest := by
  refine ⟨items more ++ [']'], ?_⟩
  have hitems : items (strings ++ more) = items strings ++ ',' :: items more := by
    induction strings with
    | nil => exact absurd rfl hstrings
    | cons string strings ih =>
      cases strings with
      | nil =>
        obtain ⟨next, more, rfl⟩ := exists_cons_of_ne_nil hmore
        rw [singleton_append, items_cons_cons, items_singleton]
      | cons next strings =>
        have hrest := ih (cons_ne_nil _ _)
        rw [cons_append, cons_append, items_cons_cons, items_cons_cons,
          append_assoc, cons_append, ← hrest]
        rfl
  have hdrop : (dumps strings).dropLast = '[' :: items strings := by
    rw [dumps, ← cons_append, dropLast_concat]
  rw [hdrop, dumps, hitems]
  simp

end PooFlow.Foundation.Json
