import Mathlib.Order.Lattice
import Mathlib.Data.List.GetD
import Mathlib.Data.List.TakeWhile

namespace PooFlow.Foundation.BinarySearch

open List

variable {κ : Type*} [LinearOrder κ]

/-- Search `[left, right)`; each round at least drops the middle. -/
def narrow (keys : List κ) (key : κ) : ℕ → ℕ → ℕ → ℕ
  | 0, left, _ => left
  | fuel + 1, left, right =>
    if left < right then
      match keys[left + (right - left) / 2]? with
      | some observed =>
        if observed < key then narrow keys key fuel (left + (right - left) / 2 + 1) right
        else if key < observed then narrow keys key fuel left (left + (right - left) / 2)
        else left + (right - left) / 2
      | none => left
    else left

def lowerBound (keys : List κ) (key : κ) : ℕ :=
  narrow keys key keys.length 0 keys.length

/-- `position` splits the keys into the smaller ones and the others. -/
structure Splits (keys : List κ) (key : κ) (position : ℕ) : Prop where
  le_length : position ≤ keys.length
  below : ∀ i observed, keys[i]? = some observed → i < position → observed < key
  above : ∀ i observed, keys[i]? = some observed → position ≤ i → key ≤ observed

section

variable {keys : List κ} {key : κ}

theorem getElem?_lt_of_sorted (hsorted : keys.Pairwise (· < ·)) {i j : ℕ} {a b : κ}
    (hij : i < j) (ha : keys[i]? = some a) (hb : keys[j]? = some b) : a < b := by
  obtain ⟨hi, rfl⟩ := List.getElem?_eq_some_iff.1 ha
  obtain ⟨hj, rfl⟩ := List.getElem?_eq_some_iff.1 hb
  exact pairwise_iff_getElem.1 hsorted i j hi hj hij

theorem getElem?_le_of_sorted (hsorted : keys.Pairwise (· < ·)) {i j : ℕ} {a b : κ}
    (hij : i ≤ j) (ha : keys[i]? = some a) (hb : keys[j]? = some b) : a ≤ b := by
  rcases Nat.lt_or_eq_of_le hij with hlt | rfl
  · exact le_of_lt (getElem?_lt_of_sorted hsorted hlt ha hb)
  · exact le_of_eq (Option.some.inj (ha.symm.trans hb))

-- The invariant: everything left of `left` is smaller, nothing from `right` on is.
section

variable (hsorted : keys.Pairwise (· < ·))

include hsorted

theorem narrow_splits (fuel left right : ℕ) (hfuel : right - left ≤ fuel) (hle : left ≤ right)
    (hright : right ≤ keys.length)
    (hbelow : ∀ i observed, keys[i]? = some observed → i < left → observed < key)
    (habove : ∀ i observed, keys[i]? = some observed → right ≤ i → key ≤ observed) :
    Splits keys key (narrow keys key fuel left right) := by
  fun_induction narrow keys key fuel left right with
  | case1 left right =>
    have heq : right = left := by omega
    subst heq
    exact ⟨hright, hbelow, habove⟩
  | case2 fuel left right hlt observed hmiddle hless ih =>
    apply ih (by omega) (by omega) hright _ habove
    intro i other hother hi
    exact lt_of_le_of_lt (getElem?_le_of_sorted hsorted (by omega) hother hmiddle) hless
  | case3 fuel left right hlt observed hmiddle hless hgreater ih =>
    apply ih (by omega) (by omega) (by omega) hbelow
    intro i other hother hi
    exact le_of_lt (lt_of_lt_of_le hgreater
      (getElem?_le_of_sorted hsorted hi hmiddle hother))
  | case4 fuel left right hlt observed hmiddle hless hgreater =>
    have hkey : observed = key := le_antisymm (not_lt.1 hgreater) (not_lt.1 hless)
    subst hkey
    refine ⟨by omega, ?_, ?_⟩
    · intro i other hother hi
      exact getElem?_lt_of_sorted hsorted hi hother hmiddle
    · intro i other hother hi
      exact getElem?_le_of_sorted hsorted hi hmiddle hother
  | case5 fuel left right hlt hmiddle =>
    have := List.getElem?_eq_none_iff.1 hmiddle
    omega
  | case6 fuel left right hlt =>
    have heq : right = left := by omega
    subst heq
    exact ⟨hright, hbelow, habove⟩

theorem lowerBound_spec (key : κ) : Splits keys key (lowerBound keys key) := by
  apply narrow_splits hsorted _ _ _ (by omega) (by omega) le_rfl
  · intro i observed _ hi
    omega
  · intro i observed hobserved hi
    have hlt := (List.getElem?_eq_some_iff.1 hobserved).1
    omega

theorem getElem?_lowerBound : keys[lowerBound keys key]? = some key ↔ key ∈ keys := by
  have hspec := lowerBound_spec hsorted key
  constructor
  · intro h
    exact mem_of_getElem? h
  · intro hmem
    obtain ⟨i, hi⟩ := List.getElem?_of_mem hmem
    have hle : lowerBound keys key ≤ i := by
      by_contra hgt
      exact lt_irrefl key (hspec.below i key hi (by omega))
    rcases Nat.lt_or_eq_of_le hle with hlt | heq
    · have hbound : lowerBound keys key < keys.length :=
        lt_trans hlt (List.getElem?_eq_some_iff.1 hi).1
      have hat := List.getElem?_eq_getElem hbound
      have hge := hspec.above _ _ hat le_rfl
      have hless := getElem?_lt_of_sorted hsorted hlt hat hi
      exact absurd hless (not_lt.2 hge)
    · rwa [heq]

theorem lowerBound_eq {i : ℕ} (h : keys[i]? = some key) : lowerBound keys key = i := by
  have hat : keys[lowerBound keys key]? = some key :=
    (getElem?_lowerBound hsorted).2 (mem_of_getElem? h)
  rcases Nat.lt_trichotomy (lowerBound keys key) i with hlt | heq | hgt
  · exact absurd (getElem?_lt_of_sorted hsorted hlt hat h) (lt_irrefl key)
  · exact heq
  · exact absurd (getElem?_lt_of_sorted hsorted hgt h hat) (lt_irrefl key)

end

end

section

variable {β : Type*} {f : β → κ} {values : List β} {key : κ} {index : ℕ}

def scan (f : β → κ) (values : List β) (key : κ) (index : ℕ) : ℕ :=
  index + ((values.drop index).takeWhile (fun value => f value < key)).length

theorem scan_map {g : β → β} (hg : ∀ value, f (g value) = f value) :
    scan f (values.map g) key index = scan f values key index := by
  have hsame : (fun value => decide (f value < key)) ∘ g = fun value => decide (f value < key) := by
    funext value
    simp [hg]
  rw [scan, scan, ← map_drop, takeWhile_map, length_map, hsame]

theorem scan_split (hle : index ≤ values.length)
    (hpassed : ∀ value ∈ values.take index, f value < key) :
    ∃ before after, values = before ++ after ∧ before.length = scan f values key index ∧
      (∀ value ∈ before, f value < key) ∧ ∀ value ∈ after.head?, key ≤ f value := by
  refine ⟨values.take index ++ (values.drop index).takeWhile (fun value => f value < key),
    (values.drop index).dropWhile (fun value => f value < key), ?_, ?_, ?_, ?_⟩
  · rw [append_assoc, takeWhile_append_dropWhile, take_append_drop]
  · rw [length_append, length_take, Nat.min_eq_left hle, scan]
  · intro value hvalue
    rcases mem_append.1 hvalue with htaken | hscanned
    · exact hpassed value htaken
    · have hsmaller := mem_takeWhile_imp hscanned
      simpa using hsmaller
  · intro value hvalue
    have hstop := List.head?_dropWhile_not (fun value => decide (f value < key))
      (values.drop index)
    rw [Option.mem_def.1 hvalue] at hstop
    exact not_lt.1 (of_decide_eq_false hstop)

/-- **A scan finds what a linear search finds**, if nothing before it has the key. -/
theorem filter_getElem?_scan (hsorted : values.Pairwise fun a b => f a < f b)
    (hle : index ≤ values.length) (hpassed : ∀ value ∈ values.take index, f value < key) :
    (values[scan f values key index]?).filter (fun value => f value = key) =
      values.find? (fun value => f value = key) := by
  obtain ⟨before, after, rfl, hlength, hbefore, hafter⟩ := scan_split hle hpassed
  have hnone : before.find? (fun value => f value = key) = none := by
    rw [List.find?_eq_none]
    intro value hvalue
    simpa using ne_of_lt (hbefore value hvalue)
  rw [← hlength, List.getElem?_append_right le_rfl, Nat.sub_self, List.find?_append, hnone,
    Option.none_or]
  cases after with
  | nil => rfl
  | cons value after =>
    have hlater := (pairwise_cons.1 (pairwise_append.1 hsorted).2.1).1
    by_cases hvalue : f value = key
    · simp [hvalue]
    · -- the first value that is left is greater, and so are those after it
      have hgreater : key < f value := lt_of_le_of_ne (hafter value rfl) (Ne.symm hvalue)
      have hrest : after.find? (fun value => f value = key) = none := by
        rw [List.find?_eq_none]
        intro later hmem
        simpa using ne_of_gt (hgreater.trans (hlater later hmem))
      simp [hvalue, hrest]

end

end PooFlow.Foundation.BinarySearch
