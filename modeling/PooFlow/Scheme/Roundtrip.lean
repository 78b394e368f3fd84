import PooFlow.Scheme.Datum

namespace PooFlow.Scheme

open Foundation List Bool

namespace Value

mutual

/-- Built by nesting tuples over strings, integers and booleans. -/
def Built : Value → Prop
  | .tuple items => BuiltItems items
  | .list _ => False
  | .other _ => False
  | _ => True

def BuiltItems : List Value → Prop
  | [] => True
  | item :: items => Built item ∧ BuiltItems items

end

mutual

def asTuples : Value → Value
  | .tuple items => .tuple (asTuplesItems items)
  | .list items => .tuple (asTuplesItems items)
  | .bool value => .bool value
  | .int value => .int value
  | .str value => .str value
  | .other typeName => .other typeName

def asTuplesItems : List Value → List Value
  | [] => []
  | item :: items => asTuples item :: asTuplesItems items

end

mutual

theorem asTuples_of_built : ∀ {value : Value}, value.Built → value.asTuples = value
  | .tuple items, h => by
    rw [Built] at h
    rw [asTuples, asTuplesItems_of_built h]
  | .bool _, _ | .int _, _ | .str _, _ => by rw [asTuples]
  | .list _, h | .other _, h => by simp [Built] at h

theorem asTuplesItems_of_built : ∀ {items : List Value}, BuiltItems items →
    asTuplesItems items = items
  | [], _ => by rw [asTuplesItems]
  | item :: items, h => by
    rw [BuiltItems] at h
    rw [asTuplesItems, asTuples_of_built h.1, asTuplesItems_of_built h.2]

end

end Value

theorem escapeSchemeString_eq (value : Text) :
    escapeSchemeString value = schemeQuoting.body value := by
  show substitute _ _ (substitute _ _ (value.flatMap _)) = _
  rw [substitute_flatMap, substitute_flatMap, Quoting.body]
  congr 1
  funext ch
  by_cases hbackslash : ch = point '\\'
  · subst hbackslash
    decide
  by_cases hquote : ch = point '"'
  · subst hquote
    decide
  by_cases hline : ch = point '\n'
  · subst hline
    decide
  have hletter : schemeQuoting.letter ch = none := by
    simp [schemeQuoting, hbackslash, hquote, hline]
  rw [Quoting.spell, hletter, if_neg hbackslash, substitute_cons_of_ne hquote, substitute_nil,
    substitute_cons_of_ne hline, substitute_nil]

/-- What may stand behind a datum in a longer text. -/
def Stops (rest : Text) : Prop := ∀ ch ∈ rest.head?, inToken ch = false

theorem stops_nil : Stops [] := nofun

theorem stops_cons {ch : CodePoint} {rest : Text} (h : inToken ch = false) :
    Stops (ch :: rest) := by
  intro first hfirst
  rwa [← Option.some.inj hfirst]

theorem isSpace_eq_false {c : CodePoint} (h : 0x21 ≤ c.val ∧ c.val < 0x80) : isSpace c = false := by
  simp only [isSpace, inRanges, spaceRanges, any_cons, any_nil, Bool.or_false,
    Bool.or_eq_false_iff, decide_eq_false_iff_not]
  omega

section

variable {maxDigits fuel : ℕ} {rest : Text}

variable {token : Text} {value : ℤ}

theorem atom_token (htoken : ∀ ch ∈ token, inToken ch = true) (hne : token ≠ [])
    (hrest : Stops rest) : atom maxDigits (token ++ rest) =
      (tokenValue maxDigits token).map fun value => (value, rest) := by
  have hstop : rest.takeWhile inToken = [] ∧ rest.dropWhile inToken = rest := by
    cases rest with
    | nil => exact ⟨rfl, rfl⟩
    | cons ch rest =>
      have hch : inToken ch = false := hrest ch rfl
      simp [hch]
  rw [atom, takeWhile_append_of_pos htoken, dropWhile_append_of_pos htoken, hstop.1,
    hstop.2, append_nil, guardElse_of hne]
  cases tokenValue maxDigits token <;> rfl

variable {first : CodePoint}

theorem skipSpace_of_head (h : isSpace first = false) :
    skipSpace (first :: rest) = first :: rest := by
  simp [skipSpace, h]

theorem datum_atom (hspace : isSpace first = false)
    (hopen : first ≠ point '(') (hquote : first ≠ point '"')
    (hvector : ¬(first = point '#' ∧ rest.head? = some (point '('))) :
    datum maxDigits (fuel + 1) (first :: rest) = atom maxDigits (first :: rest) := by
  rw [datum, skipSpace_of_head hspace]
  show (if first = point '(' then _ else if first = point '"' then _
    else if first = point '#' ∧ rest.head? = some (point '(') then _ else _) = _
  rw [if_neg hopen, if_neg hquote, if_neg hvector]

theorem datum_open : datum maxDigits (fuel + 2) (point '(' :: rest) =
    listItems maxDigits fuel [] rest := by
  rw [datum, skipSpace_of_head (by decide)]
  show list maxDigits (fuel + 1) (point '(' :: rest) = _
  rw [list]
  rfl

theorem datum_quote : datum maxDigits (fuel + 1) (point '"' :: rest) =
    string (point '"' :: rest) := by
  rw [datum, skipSpace_of_head (by decide)]
  rfl

theorem strOf_token (h : strOf maxDigits value = .ok token) :
    ∃ first tail, token = first :: tail ∧ ∀ ch ∈ first :: tail,
      ch = point '-' ∨ 48 ≤ ch.val ∧ ch.val ≤ 57 := by
  obtain ⟨_, htoken⟩ := strOf_eq_ok.1 h
  have hall : ∀ ch ∈ token, ch = point '-' ∨ 48 ≤ ch.val ∧ ch.val ≤ 57 := by
    intro ch hch
    rw [htoken] at hch
    split_ifs at hch
    · exact (mem_cons.1 hch).imp_right digit_bounds
    · exact .inr (digit_bounds hch)
  cases hcases : token with
  | nil =>
    rw [hcases] at htoken
    split_ifs at htoken
    exact absurd htoken.symm (digitsOf_ne_nil _)
  | cons first tail => exact ⟨first, tail, rfl, hcases ▸ hall⟩

theorem numeral_facts {ch : CodePoint} (h : ch = point '-' ∨ 48 ≤ ch.val ∧ ch.val ≤ 57) :
    isSpace ch = false ∧ inToken ch = true ∧ ch ≠ point '(' ∧ ch ≠ point ')' ∧ ch ≠ point '"' ∧
      ch ≠ point '#' ∧ ch ≠ point '.' := by
  obtain rfl | hbounds := h
  · decide
  have hspace : isSpace ch = false := isSpace_eq_false (by omega)
  have hne : ∀ c : Char, c.toNat < 48 → ch ≠ point c := by
    rintro c hlt rfl
    have hval : (point c).val = c.toNat := Nat.mod_eq_of_lt (by omega)
    omega
  have hopen := hne '(' (by decide)
  have hclose := hne ')' (by decide)
  refine ⟨hspace, ?_, hopen, hclose, hne '"' (by decide), hne '#' (by decide), hne '.' (by decide)⟩
  simp [inToken, hspace, hopen, hclose]

theorem tokenValue_strOf (h : strOf maxDigits value = .ok token) :
    tokenValue maxDigits token = .ok (.int value) := by
  obtain ⟨first, tail, htoken, hall⟩ := strOf_token h
  have hhash : ∀ string : Text, token ≠ point '#' :: string := by
    intro string hsame
    obtain ⟨_, _, _, _, _, hne, _⟩ := numeral_facts (hall first mem_cons_self)
    exact hne (List.cons.inj (htoken.symm.trans hsame)).1
  have hdigits : token.dropWhile (fun ch => ch = point '+' || ch = point '-') =
      digitsOf value.natAbs := by
    have hstay : (digitsOf value.natAbs).dropWhile (fun ch => ch = point '+' || ch = point '-') =
        digitsOf value.natAbs := by
      refine dropWhile_eq_self_iff.2 fun hpos => ?_
      have hbounds := digit_bounds (getElem_mem hpos)
      simp only [or_eq_true, decide_eq_true_eq]
      rintro (hsign | hsign) <;> rw [hsign] at hbounds <;> exact absurd hbounds (by decide)
    obtain ⟨_, rfl⟩ := strOf_eq_ok.1 h
    split_ifs
    · exact (dropWhile_cons_of_pos (by decide)).trans hstay
    · exact hstay
  have hisDigits : isDigits (digitsOf value.natAbs) = true := by
    rw [isDigits, and_eq_true, all_eq_true]
    refine ⟨by simp [digitsOf_ne_nil], fun ch hch => ?_⟩
    rw [isDigit, isSome_decimal hch, Bool.true_or]
  have htrue : token ≠ text "#t" := hhash [point 't']
  have hfalse : token ≠ text "#f" := hhash [point 'f']
  rw [tokenValue, if_neg htrue, if_neg hfalse, hdigits, if_pos hisDigits, intOf_strOf h]
  rfl

theorem datum_int (h : strOf maxDigits value = .ok token) (hrest : Stops rest) :
    datum maxDigits (fuel + 1) (token ++ rest) = .ok (.int value, rest) := by
  obtain ⟨first, tail, htoken, hall⟩ := strOf_token h
  obtain ⟨hspace, _, hopen, _, hquote, hhash, _⟩ := numeral_facts (hall first mem_cons_self)
  have hatom : atom maxDigits (token ++ rest) = .ok (.int value, rest) := by
    rw [atom_token _ _ hrest, tokenValue_strOf h]
    · rfl
    · exact fun ch hch => (numeral_facts (hall ch (htoken ▸ hch))).2.1
    · exact htoken ▸ cons_ne_nil first tail
  rw [htoken, cons_append] at hatom ⊢
  rw [datum_atom hspace hopen hquote fun hvector => hhash hvector.1]
  exact hatom

theorem datum_bool {letter : CodePoint} {value : Bool} (hletter : inToken letter = true)
    (hvalue : tokenValue maxDigits [point '#', letter] = .ok (.bool value)) (hrest : Stops rest) :
    datum maxDigits (fuel + 1) (point '#' :: letter :: rest) = .ok (.bool value, rest) := by
  have htoken : ∀ ch ∈ [point '#', letter], inToken ch = true := by
    intro ch hch
    obtain rfl | hch := mem_cons.1 hch
    · decide
    · rwa [mem_singleton.1 hch]
  have hopen : letter ≠ point '(' := by
    rintro rfl
    exact absurd hletter (by decide)
  rw [datum_atom (by decide) (by decide) (by decide)]
  · show atom maxDigits ([point '#', letter] ++ rest) = _
    rw [atom_token htoken (cons_ne_nil _ _) hrest, hvalue]
    rfl
  · exact fun hvector => hopen (Option.some.inj hvector.2)

theorem datum_str (value : Text) :
    datum maxDigits (fuel + 1) (point '"' :: (escapeSchemeString value ++ [point '"']) ++ rest) =
      .ok (.str value, rest) := by
  rw [cons_append, datum_quote, string, consume_eq_ok.2 rfl, ok_bind, append_assoc,
    escapeSchemeString_eq]
  show (schemeQuoting.read _ _ (schemeQuoting.body value ++ schemeQuoting.quote :: rest) >>= _) = _
  rw [Quoting.read_body]
  rfl

theorem listItems_close (items : List Value) :
    listItems maxDigits (fuel + 1) items (point ')' :: rest) = .ok (.tuple items, rest) := by
  rw [listItems, skipSpace_of_head (by decide)]
  rfl

theorem listItems_space (items : List Value) :
    listItems maxDigits fuel items (point ' ' :: rest) = listItems maxDigits fuel items rest := by
  cases fuel with
  | zero => rfl
  | succ fuel =>
    have hskip : skipSpace (point ' ' :: rest) = skipSpace rest :=
      dropWhile_cons_of_pos (by decide)
    rw [listItems, listItems, hskip]

theorem listItems_item {items : List Value} (hspace : isSpace first = false)
    (hclose : first ≠ point ')') (hdot : first ≠ point '.') :
    listItems maxDigits (fuel + 1) items (first :: rest) =
      datum maxDigits fuel (first :: rest) >>= fun read =>
        listItems maxDigits fuel (items ++ [read.1]) read.2 := by
  have hno : dotToken (first :: rest) = false := by
    simp [dotToken, hdot]
  rw [listItems, skipSpace_of_head hspace]
  show (if first = point ')' then _ else if dotToken (first :: rest) = true then _ else _) = _
  rw [if_neg hclose, hno]
  rfl

theorem written_head {value : Value} {written : Text}
    (h : writeSchemeDatum maxDigits value = .ok written) : ∃ first tail,
    written = first :: tail ∧ isSpace first = false ∧ first ≠ point ')' ∧ first ≠ point '.' := by
  cases value with
  | bool value =>
    cases value <;> rw [writeSchemeDatum] at h <;> cases h <;> exact ⟨_, _, rfl, by decide⟩
  | int value =>
    rw [writeSchemeDatum, mapError_eq_ok] at h
    obtain ⟨first, tail, htoken, hall⟩ := strOf_token h
    obtain ⟨hspace, _, _, hclose, _, _, hdot⟩ := numeral_facts (hall first mem_cons_self)
    exact ⟨first, tail, htoken, hspace, hclose, hdot⟩
  | str value =>
    rw [writeSchemeDatum] at h
    cases h
    exact ⟨_, _, rfl, by decide⟩
  | tuple items | list items =>
    rw [writeSchemeDatum, map_eq_ok] at h
    obtain ⟨texts, _, rfl⟩ := h
    exact ⟨_, _, rfl, by decide⟩
  | other typeName =>
    rw [writeSchemeDatum] at h
    cases h

theorem intercalate_cons_cons (first second : Text) (rest : List Text) :
    [point ' '].intercalate (first :: second :: rest) =
      first ++ point ' ' :: [point ' '].intercalate (second :: rest) := by
  simp [List.intercalate]

mutual

/-- **A written value is read back** from any longer text. -/
theorem datum_written : ∀ (value : Value) {written : Text},
    writeSchemeDatum maxDigits value = .ok written → ∀ {fuel : ℕ} {rest : Text},
    3 * written.length + 3 ≤ fuel → Stops rest →
    datum maxDigits fuel (written ++ rest) = .ok (value.asTuples, rest) := by
  intro value written hwritten fuel rest hfuel hrest
  obtain ⟨fuel, rfl⟩ : ∃ less, fuel = less + 1 := ⟨fuel - 1, by omega⟩
  cases value with
  | bool value =>
    rw [Value.asTuples]
    cases value <;> rw [writeSchemeDatum] at hwritten <;> cases hwritten
    · exact datum_bool (by decide) rfl hrest
    · exact datum_bool (by decide) rfl hrest
  | int value =>
    rw [Value.asTuples]
    rw [writeSchemeDatum, mapError_eq_ok] at hwritten
    exact datum_int hwritten hrest
  | str value =>
    rw [Value.asTuples]
    rw [writeSchemeDatum] at hwritten
    cases hwritten
    exact datum_str value
  | tuple items | list items =>
    rw [Value.asTuples]
    rw [writeSchemeDatum, map_eq_ok] at hwritten
    obtain ⟨texts, hitems, rfl⟩ := hwritten
    exact parenthesized_written items hitems hfuel
  | other typeName =>
    rw [writeSchemeDatum] at hwritten
    cases hwritten

theorem parenthesized_written : ∀ (items : List Value) {texts : List Text},
    writeItems maxDigits items = .ok texts → ∀ {fuel : ℕ} {rest : Text},
    3 * (parenthesized texts).length + 3 ≤ fuel + 1 →
    datum maxDigits (fuel + 1) (parenthesized texts ++ rest) =
      .ok (.tuple (Value.asTuplesItems items), rest) := by
  intro items texts hitems fuel rest hfuel
  simp only [parenthesized, length_cons, length_append] at hfuel
  obtain ⟨fuel, rfl⟩ : ∃ less, fuel = less + 1 := ⟨fuel - 1, by omega⟩
  have htext : parenthesized texts ++ rest =
      point '(' :: ([point ' '].intercalate texts ++ point ')' :: rest) := by
    simp [parenthesized]
  rw [htext, datum_open]
  exact listItems_written items hitems [] (by omega)

theorem listItems_written : ∀ (items : List Value) {texts : List Text},
    writeItems maxDigits items = .ok texts → ∀ (before : List Value) {fuel : ℕ} {rest : Text},
    3 * ([point ' '].intercalate texts).length + 4 ≤ fuel →
    listItems maxDigits fuel before ([point ' '].intercalate texts ++ point ')' :: rest) =
      .ok (.tuple (before ++ Value.asTuplesItems items), rest)
  | [], texts, hitems, before, fuel, rest, hfuel => by
    obtain ⟨fuel, rfl⟩ : ∃ less, fuel = less + 1 := ⟨fuel - 1, by omega⟩
    rw [writeItems] at hitems
    cases hitems
    rw [Value.asTuplesItems, append_nil]
    exact listItems_close before
  | item :: items, texts, hitems, before, fuel, rest, hfuel => by
    obtain ⟨fuel, rfl⟩ : ∃ less, fuel = less + 1 := ⟨fuel - 1, by omega⟩
    rw [writeItems] at hitems
    obtain ⟨written, hwritten, hitems⟩ := bind_eq_ok.1 hitems
    obtain ⟨others, hothers, hsame⟩ := bind_eq_ok.1 hitems
    cases hsame
    -- behind the item stands a space or what closes the list
    obtain ⟨behind, htext, hstops, hlength, hnext⟩ : ∃ behind : Text,
        [point ' '].intercalate (written :: others) ++ point ')' :: rest = written ++ behind ∧
          Stops behind ∧
          written.length + ([point ' '].intercalate others).length ≤
            ([point ' '].intercalate (written :: others)).length ∧
          listItems maxDigits fuel (before ++ [item.asTuples]) behind =
            listItems maxDigits fuel (before ++ [item.asTuples])
              ([point ' '].intercalate others ++ point ')' :: rest) := by
      cases others with
      | nil =>
        exact ⟨point ')' :: rest, by simp [List.intercalate], stops_cons (by decide),
          by simp [List.intercalate], rfl⟩
      | cons second others =>
        refine ⟨point ' ' :: ([point ' '].intercalate (second :: others) ++ point ')' :: rest),
          ?_, stops_cons (by decide), ?_, listItems_space _⟩
        · rw [intercalate_cons_cons, append_assoc, cons_append]
        · rw [intercalate_cons_cons, length_append, length_cons]
          omega
    obtain ⟨first, tail, hfirst, hspace, hclose, hdot⟩ := written_head hwritten
    have hpos : 0 < written.length := hfirst ▸ Nat.zero_lt_succ _
    have hitem : datum maxDigits fuel (written ++ behind) = .ok (item.asTuples, behind) :=
      datum_written item hwritten (by omega) hstops
    rw [hfirst, cons_append] at hitem
    rw [htext, hfirst, cons_append, listItems_item hspace hclose hdot, hitem, ok_bind]
    show listItems maxDigits fuel (before ++ [item.asTuples]) behind = _
    rw [hnext, listItems_written items hothers _ (by omega), Value.asTuplesItems, append_assoc]
    rfl

end

end

/-- **A built value is read back.** The parser reads the text of a value that was built by
nesting tuples over strings, integers and booleans as this value, to the end of the text;
`parse_scheme_datum` returns it if it is a tuple, and has no row sequence otherwise. -/
theorem scheme_datum_round_trip (maxDigits : ℕ) {value : Value} {written : Text}
    (hbuilt : value.Built) (hwritten : writeSchemeDatum maxDigits value = .ok written) :
    datum maxDigits (fuelOf written) written = .ok (value, []) ∧
      parse maxDigits written = .ok value ∧
      parseSchemeDatum maxDigits written = if value.isTuple then .ok value
        else .error (.value "Scheme load projection did not return a row sequence") := by
  have hdatum : datum maxDigits (fuelOf written) (written ++ []) = .ok (value.asTuples, []) :=
    datum_written value hwritten le_rfl stops_nil
  rw [append_nil, Value.asTuples_of_built hbuilt] at hdatum
  have hparse : parse maxDigits written = .ok value := by
    rw [parse, hdatum]
    rfl
  refine ⟨hdatum, hparse, ?_⟩
  rw [parseSchemeDatum, hparse, ok_bind, guardElse]
  split_ifs <;> rfl

/-- A row with a quote, a backslash, a line feed and a lone surrogate. -/
theorem row_round_trip :
    datum 4300 (fuelOf (text "(\"\\\"\\\\\\n" ++ 0xd800 :: text "\" (-12 #t) ())"))
        (text "(\"\\\"\\\\\\n" ++ 0xd800 :: text "\" (-12 #t) ())") =
      .ok (.tuple [.str (text "\"\\\n" ++ [0xd800]), .tuple [.int (-12), .bool true], .tuple []],
        []) ∧
      parse 4300 (text "(\"\\\"\\\\\\n" ++ 0xd800 :: text "\" (-12 #t) ())") =
        .ok (.tuple
          [.str (text "\"\\\n" ++ [0xd800]), .tuple [.int (-12), .bool true], .tuple []]) ∧
      parseSchemeDatum 4300 (text "(\"\\\"\\\\\\n" ++ 0xd800 :: text "\" (-12 #t) ())") =
        .ok (.tuple
          [.str (text "\"\\\n" ++ [0xd800]), .tuple [.int (-12), .bool true], .tuple []]) :=
  @scheme_datum_round_trip 4300
    (.tuple [.str (text "\"\\\n" ++ [0xd800]), .tuple [.int (-12), .bool true], .tuple []]) _
    (by simp [Value.Built, Value.BuiltItems]) rfl

/-- A string is written, and read back, but it is no sequence of rows. -/
theorem bare_string_rejected : (Value.str (text "a")).Built ∧
    writeSchemeDatum 4300 (.str (text "a")) = .ok (text "\"a\"") ∧
    parse 4300 (text "\"a\"") = .ok (.str (text "a")) ∧
    parseSchemeDatum 4300 (text "\"a\"") =
      .error (.value "Scheme load projection did not return a row sequence") :=
  ⟨by simp [Value.Built], rfl, rfl, rfl⟩

end PooFlow.Scheme
