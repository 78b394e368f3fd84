import Mathlib.Data.Set.Function

namespace PooFlow.Foundation.HashTree

open List Option

variable {α : Type*}

def neighbours : List α → List (α × α)
  | [] => []
  | [last] => [(last, last)]
  | left :: right :: rest => (left, right) :: neighbours rest

theorem length_neighbours (level : List α) :
    (neighbours level).length = (level.length + 1) / 2 := by
  induction level using neighbours.induct with
  | case1 => simp [neighbours]
  | case2 last => simp [neighbours]
  | case3 left right rest ih =>
    simp only [neighbours, length_cons, ih]
    omega

theorem getElem?_neighbours {level : List α} {i : ℕ} {pair : α × α}
    (h : (neighbours level)[i]? = some pair) :
    level[2 * i]? = some pair.1 ∧ level[min (2 * i + 1) (level.length - 1)]? = some pair.2 := by
  induction level using neighbours.induct generalizing i with
  | case1 => simp [neighbours] at h
  | case2 last =>
    cases i with
    | zero =>
      obtain rfl : (last, last) = pair := by simpa [neighbours] using h
      exact ⟨rfl, rfl⟩
    | succ i => simp [neighbours] at h
  | case3 left right rest ih =>
    cases i with
    | zero =>
      obtain rfl : (left, right) = pair := by simpa [neighbours] using h
      exact ⟨rfl, by simp⟩
    | succ i =>
      have hrest : (neighbours rest)[i]? = some pair := by simpa [neighbours] using h
      obtain ⟨hfirst, hsecond⟩ := ih hrest
      have hi : i < (neighbours rest).length := (List.getElem?_eq_some_iff.1 hrest).1
      rw [length_neighbours] at hi
      have hlength : 1 ≤ rest.length := by omega
      have hindex : min (2 * (i + 1) + 1) ((left :: right :: rest).length - 1) =
          min (2 * i + 1) (rest.length - 1) + 2 := by
        simp only [length_cons]
        omega
      rw [hindex]
      exact ⟨hfirst, hsecond⟩

inductive Side where
  | left | right

structure Step (α : Type*) where
  side : Side
  sibling : α

def siblingSide (i : ℕ) : Side := if i % 2 = 0 then .right else .left

/-- The position of the sibling, in a level of `count` digests. -/
def siblingIndex (count i : ℕ) : ℕ := if i % 2 = 0 then min (i + 1) (count - 1) else i - 1

theorem siblingIndex_lt {count i : ℕ} (hi : i < count) : siblingIndex count i < count := by
  unfold siblingIndex
  split <;> omega

def Step.pair (step : Step α) (current : α) : α × α :=
  match step.side with
  | .left => (step.sibling, current)
  | .right => (current, step.sibling)

section

variable (join : α → α → α)

def joinPair (pair : α × α) : α := join pair.1 pair.2

def joinPairs (level : List α) : List α := (neighbours level).map (joinPair join)

theorem length_joinPairs (level : List α) :
    (joinPairs join level).length = (level.length + 1) / 2 := by
  rw [joinPairs, length_map, length_neighbours]

inductive Root : List α → α → Prop
  | single (root : α) : Root [root] root
  | next {level : List α} {root : α} (hlevel : 1 < level.length)
      (hroot : Root (joinPairs join level) root) : Root level root

inductive Joined : List α → α × α → Prop
  | here {level : List α} {pair : α × α} (hlevel : 1 < level.length)
      (hpair : pair ∈ neighbours level) : Joined level pair
  | above {level : List α} {pair : α × α} (hlevel : 1 < level.length)
      (hpair : Joined (joinPairs join level) pair) : Joined level pair

def climb : α → List (Step α) → α
  | current, [] => current
  | current, step :: steps => climb (joinPair join (step.pair current)) steps

def climbed : α → List (Step α) → List (α × α)
  | _, [] => []
  | current, step :: steps =>
    step.pair current :: climbed (joinPair join (step.pair current)) steps

theorem climb_append (current : α) (front back : List (Step α)) :
    climb join current (front ++ back) = climb join (climb join current front) back := by
  induction front generalizing current with
  | nil => rfl
  | cons step front ih => exact ih _

theorem climbed_append (current : α) (front back : List (Step α)) :
    climbed join current (front ++ back) =
      climbed join current front ++ climbed join (climb join current front) back := by
  induction front generalizing current with
  | nil => rfl
  | cons step front ih => exact congrArg (_ :: ·) (ih _)

inductive Path : List α → ℕ → List (Step α) → α → Prop
  | single (root : α) : Path [root] 0 [] root
  | next {level : List α} {i : ℕ} {sibling : α} {steps : List (Step α)} {root : α}
      (hlevel : 1 < level.length) (hi : i < level.length)
      (hsibling : level[siblingIndex level.length i]? = some sibling)
      (hpath : Path (joinPairs join level) (i / 2) steps root) :
      Path level i (⟨siblingSide i, sibling⟩ :: steps) root

variable {join}

section

variable {level : List α} {i : ℕ}

include level i

variable {steps : List (Step α)}

theorem Path.unique {steps' : List (Step α)} {root root' : α}
    (h : Path join level i steps root) (h' : Path join level i steps' root') : steps = steps' := by
  induction h generalizing steps' with
  | single root =>
    cases h' with
    | single => rfl
    | next hlevel _ _ _ => simp at hlevel
  | next hlevel _ hsibling _ ih =>
    cases h' with
    | single => simp at hlevel
    | next _ _ hsibling' hpath =>
      rw [ih hpath, some.inj (hsibling.symm.trans hsibling')]

theorem Path.root {root : α} (h : Path join level i steps root) : Root join level root := by
  induction h with
  | single root => exact .single root
  | next hlevel _ _ _ ih => exact .next hlevel ih

theorem pair_mem_neighbours {current sibling : α} (hcurrent : level[i]? = some current)
    (hsibling : level[siblingIndex level.length i]? = some sibling) :
    (neighbours level)[i / 2]? = some ((Step.mk (siblingSide i) sibling).pair current) := by
  have hi : i < level.length := (List.getElem?_eq_some_iff.1 hcurrent).1
  have hhalf : i / 2 < (neighbours level).length := by
    rw [length_neighbours]
    omega
  obtain ⟨pair, hpair⟩ : ∃ pair, (neighbours level)[i / 2]? = some pair :=
    ⟨_, List.getElem?_eq_getElem hhalf⟩
  obtain ⟨hfirst, hsecond⟩ := getElem?_neighbours hpair
  rw [hpair]
  by_cases heven : i % 2 = 0
  · rw [show 2 * (i / 2) = i by omega, hcurrent] at hfirst
    rw [siblingIndex, if_pos heven, show i = 2 * (i / 2) by omega, hsecond] at hsibling
    simp only [siblingSide, if_pos heven, Step.pair]
    rw [some.inj hfirst, ← some.inj hsibling]
  · rw [siblingIndex, if_neg heven, show i - 1 = 2 * (i / 2) by omega, hfirst] at hsibling
    rw [show min (2 * (i / 2) + 1) (level.length - 1) = i by omega, hcurrent] at hsecond
    simp only [siblingSide, if_neg heven, Step.pair]
    rw [some.inj hsecond, ← some.inj hsibling]

theorem getElem?_joinPairs {pair : α × α} (h : (neighbours level)[i]? = some pair) :
    (joinPairs join level)[i]? = some (joinPair join pair) := by
  rw [joinPairs, List.getElem?_map, h]
  rfl

end

section

variable {level : List α} {i : ℕ} {steps : List (Step α)} {root current : α}
  (h : Path join level i steps root) (hcurrent : level[i]? = some current)

include level i steps root current h hcurrent

/-- **Completeness**: the path of a leaf leads from the leaf to the root. -/
theorem Path.climb_eq : climb join current steps = root := by
  induction h generalizing current with
  | single root => exact (some.inj hcurrent).symm
  | next _ _ hsibling _ ih =>
    exact ih (getElem?_joinPairs (pair_mem_neighbours hcurrent hsibling))

theorem Path.climbed_joined : ∀ pair ∈ climbed join current steps, Joined join level pair := by
  induction h generalizing current with
  | single root => simp [climbed]
  | next hlevel _ hsibling _ ih =>
    have hpair := pair_mem_neighbours hcurrent hsibling
    intro pair hmem
    rcases mem_cons.1 hmem with rfl | hrest
    · exact .here hlevel (mem_of_getElem? hpair)
    · exact .above hlevel (ih (getElem?_joinPairs hpair) pair hrest)

end

/-- Steps that agree with the path of a position: the siblings are those of the
path and stand on the same side. At the last digest of an odd level, which is
joined with itself, the side is left open. -/
inductive Retraced : ℕ → ℕ → List (Step α) → List (Step α) → Prop
  | nil : Retraced 1 0 [] []
  | cons {count i : ℕ} {step made : Step α} {steps path : List (Step α)}
      (hsibling : step.sibling = made.sibling)
      (hside : step.side = made.side ∨ i % 2 = 0 ∧ i + 1 = count)
      (hrest : Retraced ((count + 1) / 2) (i / 2) steps path) :
      Retraced count i (step :: steps) (made :: path)

theorem Step.retraced {level : List α} {i : ℕ} {step : Step α} {current : α}
    (h : (neighbours level)[i]? = some (step.pair current)) :
    ∃ j sibling, j / 2 = i ∧ level[j]? = some current ∧
      level[siblingIndex level.length j]? = some sibling ∧ step.sibling = sibling ∧
      (step.side = siblingSide j ∨ j % 2 = 0 ∧ j + 1 = level.length) := by
  have hi : i < (neighbours level).length := (List.getElem?_eq_some_iff.1 h).1
  rw [length_neighbours] at hi
  obtain ⟨hfirst, hsecond⟩ := getElem?_neighbours h
  obtain ⟨side, sibling⟩ := step
  cases side with
  | right =>
    refine ⟨2 * i, sibling, by omega, hfirst, ?_, rfl, .inl ?_⟩
    · rw [siblingIndex, if_pos (by omega)]
      exact hsecond
    · rw [siblingSide, if_pos (by omega)]
  | left =>
    by_cases hpaired : 2 * i + 1 < level.length
    · rw [show min (2 * i + 1) (level.length - 1) = 2 * i + 1 by omega] at hsecond
      refine ⟨2 * i + 1, sibling, by omega, hsecond, ?_, rfl, .inl ?_⟩
      · rw [siblingIndex, if_neg (by omega)]
        exact hfirst
      · rw [siblingSide, if_neg (by omega)]
    · -- the last digest of an odd level is its own sibling
      have hlast : min (2 * i + 1) (level.length - 1) = 2 * i := by omega
      rw [hlast] at hsecond
      refine ⟨2 * i, sibling, by omega, hsecond, ?_, rfl, .inr (by omega)⟩
      rw [siblingIndex, if_pos (by omega), hlast]
      exact hfirst

theorem climb_fresh {pairs : Set (α × α)} {start : α}
    (hclimbed : ∀ pair ∈ climbed join start steps, pair ∈ pairs) :
    steps = [] ∨ ∃ front last pair, steps = front ++ [last] ∧ pair ∈ pairs ∧
      pair = last.pair (climb join start front) ∧ climb join start steps = joinPair join pair := by
  rcases steps.eq_nil_or_concat with hnil | ⟨front, last, rfl⟩
  · exact .inl hnil
  · refine .inr ⟨front, last, _, concat_eq_append, hclimbed _ ?_, rfl, ?_⟩
    · rw [concat_eq_append, climbed_append]
      exact mem_append_right _ mem_cons_self
    · rw [concat_eq_append, climb_append]
      rfl

section

variable {pairs : Set (α × α)} {level : List α} {root start : α} {steps : List (Step α)}
  (h : Root join level root) (hroot : climb join start steps = root)
  (hinjective : Set.InjOn (joinPair join) pairs)
  (hjoined : ∀ pair, Joined join level pair → pair ∈ pairs)
  (hclimbed : ∀ pair ∈ climbed join start steps, pair ∈ pairs)
  (hstart : ∀ pair ∈ pairs, joinPair join pair ≠ start)

include pairs level root start steps h hroot hinjective hjoined hclimbed hstart

/-- **Soundness, from a level up**: steps that lead to the root end with the path
of a digest of the level, to which the steps before them lead. -/
theorem Root.ends_retraced :
    ∃ i front back path, steps = front ++ back ∧ level[i]? = some (climb join start front) ∧
      Path join level i path root ∧ Retraced level.length i back path := by
  induction h with
  | single root =>
    exact ⟨0, steps, [], [], (append_nil _).symm, congrArg some hroot.symm, .single _, .nil⟩
  | @next level root hlevel hnext ih =>
    obtain ⟨i, front, back, path, rfl, hcurrent, hpath, hretraced⟩ :=
      ih hroot (fun pair hpair => hjoined pair (.above hlevel hpair))
    have hi : i < (neighbours level).length := by
      have := (List.getElem?_eq_some_iff.1 hcurrent).1
      rwa [joinPairs, length_map] at this
    have htree : (neighbours level)[i]? = some ((neighbours level)[i]) :=
      List.getElem?_eq_getElem hi
    have htreePair : (neighbours level)[i] ∈ pairs :=
      hjoined _ (.here hlevel (getElem_mem hi))
    have hvalue : joinPair join (neighbours level)[i] = climb join start front :=
      some.inj ((getElem?_joinPairs htree).symm.trans hcurrent)
    have hfront : ∀ pair ∈ climbed join start front, pair ∈ pairs := by
      intro pair hpair
      apply hclimbed
      rw [climbed_append]
      exact mem_append_left _ hpair
    rcases climb_fresh hfront with rfl | ⟨front, last, pair, rfl, hpair, hmade, hlast⟩
    · exact absurd hvalue (hstart _ htreePair)
    · -- the pair of the last step is the pair of the tree
      obtain rfl : (neighbours level)[i] = pair :=
        hinjective htreePair hpair (hvalue.trans hlast)
      rw [hmade] at htree
      obtain ⟨j, sibling, rfl, hj, hsibling, hsame, hside⟩ := Step.retraced htree
      refine ⟨j, front, last :: back, _, by simp, hj,
        .next hlevel (List.getElem?_eq_some_iff.1 hj).1 hsibling hpath, .cons hsame hside ?_⟩
      rwa [length_joinPairs] at hretraced

/-- **Soundness**: steps that lead from a digest to the root of a level are the
path of a place of the level where the digest stands, when the joined pairs do
not collide and neither the digest nor the level was joined from them. -/
theorem Root.retraced (hlevel : ∀ pair ∈ pairs, joinPair join pair ∉ level) :
    ∃ i path, level[i]? = some start ∧ Path join level i path root ∧
      Retraced level.length i steps path := by
  obtain ⟨i, front, back, path, rfl, hcurrent, hpath, hretraced⟩ :=
    h.ends_retraced hroot hinjective hjoined hclimbed hstart
  have hfront : ∀ pair ∈ climbed join start front, pair ∈ pairs := by
    intro pair hpair
    apply hclimbed
    rw [climbed_append]
    exact mem_append_left _ hpair
  rcases climb_fresh hfront with rfl | ⟨_, _, pair, _, hpair, _, hlast⟩
  · exact ⟨i, path, hcurrent, hpath, hretraced⟩
  · rw [hlast] at hcurrent
    exact absurd (mem_of_getElem? hcurrent) (hlevel pair hpair)

end

end

end PooFlow.Foundation.HashTree
