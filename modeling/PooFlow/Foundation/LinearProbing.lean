import Mathlib.Data.Finset.Card

namespace PooFlow.Foundation.LinearProbing

open Function Option

variable {κ : Type*} [DecidableEq κ]

inductive Probe where
  | found (cell : ℕ)
  | vacant (cell : ℕ)
  | full

/-- Look at no more than `probes` cells, from `cell` on. -/
def probe (cells : ℕ → Option κ) (capacity : ℕ) (key : κ) : ℕ → ℕ → Probe
  | 0, _ => .full
  | probes + 1, cell =>
    match cells cell with
    | none => .vacant cell
    | some stored =>
      if stored = key then .found cell
      else probe cells capacity key probes ((cell + 1) % capacity)

/-- Search the whole table for `key`, whose home cell is `home`. -/
def search (cells : ℕ → Option κ) (capacity home : ℕ) (key : κ) : Probe :=
  probe cells capacity key capacity (home % capacity)

def Holds (cells : ℕ → Option κ) (capacity : ℕ) (key : κ) : Prop :=
  ∃ cell < capacity, cells cell = some key

def used (cells : ℕ → Option κ) (capacity : ℕ) : ℕ :=
  ((Finset.range capacity).filter (fun cell => (cells cell).isSome)).card

/-- Cells `0, …, d - 1` on the walk from `home` hold keys other than `key`. -/
def PassedOver (cells : ℕ → Option κ) (capacity home : ℕ) (key : κ) (d : ℕ) : Prop :=
  ∀ e < d, ∃ other, other ≠ key ∧ cells ((home + e) % capacity) = some other

/-- What a search says about the cells it has looked at. -/
def Explains (cells : ℕ → Option κ) (capacity home : ℕ) (key : κ) : Probe → Prop
  | .found cell => cell < capacity ∧ cells cell = some key
  | .vacant cell => ∃ d < capacity, cell = (home + d) % capacity ∧ cells cell = none ∧
      PassedOver cells capacity home key d
  | .full => PassedOver cells capacity home key capacity

variable {cells : ℕ → Option κ}

omit [DecidableEq κ] in
theorem PassedOver.extend {capacity home d : ℕ} {key other : κ}
    (h : PassedOver cells capacity home key d) (hne : other ≠ key)
    (hcell : cells ((home + d) % capacity) = some other) :
    PassedOver cells capacity home key (d + 1) := by
  intro e he
  rcases Nat.lt_succ_iff_lt_or_eq.1 he with hlt | rfl
  · exact h e hlt
  · exact ⟨other, hne, hcell⟩

-- The walk is at offset `d` with `capacity - d` probes left; the offset, not
-- the cell number, is what the induction counts.
theorem probe_explains {capacity home : ℕ} {key : κ} :
    ∀ (probes d : ℕ), d + probes = capacity → PassedOver cells capacity home key d →
      Explains cells capacity home key
        (probe cells capacity key probes ((home + d) % capacity)) := by
  intro probes
  induction probes with
  | zero =>
    intro d hd hpassed
    rw [Nat.add_zero] at hd
    subst hd
    exact hpassed
  | succ probes ih =>
    intro d hd hpassed
    have hcap : 0 < capacity := by omega
    rw [probe]
    split
    · next hcell => exact ⟨d, by omega, rfl, hcell, hpassed⟩
    · next stored hcell =>
      split
      · next heq => exact ⟨Nat.mod_lt _ hcap, heq ▸ hcell⟩
      · next hne =>
        rw [Nat.mod_add_mod, Nat.add_assoc]
        exact ih (d + 1) (by omega) (hpassed.extend hne hcell)

theorem search_explains (cells : ℕ → Option κ) (capacity home : ℕ) (key : κ) :
    Explains cells capacity home key (search cells capacity home key) := by
  have hstart : PassedOver cells capacity home key 0 :=
    fun e he => absurd he (Nat.not_lt_zero e)
  have h := probe_explains capacity 0 (Nat.zero_add capacity) hstart
  simpa [search] using h

/-- **Table invariant**: every stored key is reached from its home cell across
occupied cells only, and no key is stored twice. -/
structure Sound (cells : ℕ → Option κ) (capacity : ℕ) (home : κ → ℕ) : Prop where
  reachable : ∀ {cell key}, cell < capacity → cells cell = some key →
    ∃ d < capacity, cell = (home key + d) % capacity ∧
      ∀ e < d, cells ((home key + e) % capacity) ≠ none
  distinct : ∀ {i j key}, i < capacity → j < capacity →
    cells i = some key → cells j = some key → i = j

omit [DecidableEq κ] in
theorem Sound.empty (capacity : ℕ) (home : κ → ℕ) :
    Sound (fun _ => (none : Option κ)) capacity home where
  reachable := fun _ hstored => by cases hstored
  distinct := fun _ _ hstored => by cases hstored

section

variable {cells : ℕ → Option κ} {capacity : ℕ} {home : κ → ℕ} {key : κ}

omit [DecidableEq κ] in
theorem Sound.not_holds_of_vacant (h : Sound cells capacity home) {d : ℕ}
    (hvacant : cells ((home key + d) % capacity) = none)
    (hpassed : PassedOver cells capacity (home key) key d) : ¬Holds cells capacity key := by
  rintro ⟨cell, hcell, hstored⟩
  obtain ⟨d', _, hd', hfilled⟩ := h.reachable hcell hstored
  rcases Nat.lt_trichotomy d d' with hlt | heq | hgt
  · exact hfilled d hlt hvacant
  · rw [heq, ← hd', hstored] at hvacant
    cases hvacant
  · obtain ⟨other, hne, hother⟩ := hpassed d' hgt
    rw [← hd', hstored] at hother
    exact hne (some.inj hother).symm

omit [DecidableEq κ] in
theorem Sound.not_holds_of_full (h : Sound cells capacity home)
    (hpassed : PassedOver cells capacity (home key) key capacity) : ¬Holds cells capacity key := by
  rintro ⟨cell, hcell, hstored⟩
  obtain ⟨d, hd, hcelld, _⟩ := h.reachable hcell hstored
  obtain ⟨other, hne, hother⟩ := hpassed d hd
  rw [← hcelld, hstored] at hother
  exact hne (some.inj hother).symm

/-- **A search finds exactly the stored keys.** -/
theorem Sound.search_found_iff (h : Sound cells capacity home) :
    (∃ cell, search cells capacity (home key) key = .found cell) ↔
      Holds cells capacity key := by
  have hexp := search_explains cells capacity (home key) key
  constructor
  · rintro ⟨cell, hfound⟩
    rw [hfound] at hexp
    exact ⟨cell, hexp⟩
  · intro hholds
    match hres : search cells capacity (home key) key with
    | .found cell => exact ⟨cell, rfl⟩
    | .vacant cell =>
      rw [hres] at hexp
      obtain ⟨d, _, hcell, hnone, hpassed⟩ := hexp
      exact absurd hholds (h.not_holds_of_vacant (hcell ▸ hnone) hpassed)
    | .full =>
      rw [hres] at hexp
      exact absurd hholds (h.not_holds_of_full hexp)

variable {cell : ℕ}

theorem search_vacant_spec (h : search cells capacity (home key) key = .vacant cell) :
    cell < capacity ∧ cells cell = none := by
  have hexp := search_explains cells capacity (home key) key
  rw [h] at hexp
  obtain ⟨d, hd, hcell, hnone, _⟩ := hexp
  exact ⟨hcell ▸ Nat.mod_lt _ (by omega), hnone⟩

/-- **Filling the vacant cell keeps soundness.** The other keys' walks only
gain occupied cells. -/
theorem Sound.insert (h : Sound cells capacity home)
    (hsearch : search cells capacity (home key) key = .vacant cell) :
    Sound (update cells cell (some key)) capacity home := by
  have hexp := search_explains cells capacity (home key) key
  rw [hsearch] at hexp
  obtain ⟨d, hd, hcell, hnone, hpassed⟩ := hexp
  have habsent : ¬Holds cells capacity key :=
    h.not_holds_of_vacant (hcell ▸ hnone) hpassed
  have hstays : ∀ j, cells j ≠ none → update cells cell (some key) j ≠ none := by
    intro j hj
    by_cases hjc : j = cell
    · simp [hjc]
    · simpa [update_of_ne hjc] using hj
  constructor
  · intro j stored hj hstored
    by_cases hjc : j = cell
    · rw [hjc, update_self] at hstored
      obtain rfl := some.inj hstored
      refine ⟨d, hd, hjc.trans hcell, fun e he => hstays _ ?_⟩
      obtain ⟨other, _, hother⟩ := hpassed e he
      simp [hother]
    · rw [update_of_ne hjc] at hstored
      obtain ⟨d', hd', hjd', hfilled⟩ := h.reachable hj hstored
      exact ⟨d', hd', hjd', fun e he => hstays _ (hfilled e he)⟩
  · intro i j stored hi hj histored hjstored
    by_cases hic : i = cell <;> by_cases hjc : j = cell
    · rw [hic, hjc]
    · rw [hic, update_self] at histored
      rw [update_of_ne hjc] at hjstored
      exact absurd ⟨j, hj, hjstored.trans histored.symm⟩ habsent
    · rw [hjc, update_self] at hjstored
      rw [update_of_ne hic] at histored
      exact absurd ⟨i, hi, histored.trans hjstored.symm⟩ habsent
    · rw [update_of_ne hic] at histored
      rw [update_of_ne hjc] at hjstored
      exact h.distinct hi hj histored hjstored

omit [DecidableEq κ] in
theorem holds_insert_iff (hcell : cell < capacity) (hnone : cells cell = none) {stored : κ} :
    Holds (update cells cell (some key)) capacity stored ↔
      stored = key ∨ Holds cells capacity stored := by
  constructor
  · rintro ⟨j, hj, hstored⟩
    by_cases hjc : j = cell
    · rw [hjc, update_self] at hstored
      exact Or.inl (some.inj hstored).symm
    · rw [update_of_ne hjc] at hstored
      exact Or.inr ⟨j, hj, hstored⟩
  · rintro (rfl | ⟨j, hj, hstored⟩)
    · exact ⟨cell, hcell, update_self ..⟩
    · refine ⟨j, hj, ?_⟩
      rw [update_of_ne, hstored]
      rintro rfl
      rw [hnone] at hstored
      cases hstored

omit [DecidableEq κ] in
theorem used_insert (hcell : cell < capacity) (hnone : cells cell = none) :
    used (update cells cell (some key)) capacity = used cells capacity + 1 := by
  have hsplit : (Finset.range capacity).filter
      (fun j => (update cells cell (some key) j).isSome) =
      insert cell ((Finset.range capacity).filter (fun j => (cells j).isSome)) := by
    ext j
    by_cases hjc : j = cell
    · simp [hjc, hcell]
    · simp [hjc]
  rw [used, hsplit, Finset.card_insert_of_notMem (by simp [hnone]), used]

theorem exists_offset {start : ℕ} (hcell : cell < capacity) :
    ∃ d < capacity, (start + d) % capacity = cell := by
  have hstart : start % capacity < capacity := Nat.mod_lt _ (by omega)
  by_cases hle : start % capacity ≤ cell
  · refine ⟨cell - start % capacity, by omega, ?_⟩
    rw [← Nat.mod_add_mod, show start % capacity + (cell - start % capacity) = cell by omega,
      Nat.mod_eq_of_lt hcell]
  · refine ⟨cell + capacity - start % capacity, by omega, ?_⟩
    rw [← Nat.mod_add_mod,
      show start % capacity + (cell + capacity - start % capacity) = cell + capacity by omega,
      Nat.add_mod_right, Nat.mod_eq_of_lt hcell]

/-- A search gives up only on a table with no empty cell. -/
theorem used_eq_of_full (h : search cells capacity (home key) key = .full) :
    used cells capacity = capacity := by
  have hexp := search_explains cells capacity (home key) key
  rw [h] at hexp
  have hall : ∀ j < capacity, (cells j).isSome := by
    intro j hj
    have hoffset : ∃ d < capacity, (home key + d) % capacity = j := exists_offset hj
    obtain ⟨d, hd, hmeets⟩ := hoffset
    obtain ⟨other, _, hother⟩ := hexp d hd
    rw [hmeets] at hother
    simp [hother]
  rw [used, Finset.filter_true_of_mem (by simpa using hall), Finset.card_range]

end

end PooFlow.Foundation.LinearProbing
