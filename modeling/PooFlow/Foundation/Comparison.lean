import PooFlow.Foundation.Sorting

namespace PooFlow.Foundation

open List

variable {α β κ : Type} [LinearOrder κ] [DecidableEq β] {key : α → κ} {row : α → β}

def Ascending (key : α → κ) (rows : List α) : Prop := rows.Pairwise fun a b => key a < key b

structure Differences (κ : Type) where
  added : List κ
  removed : List κ
  changed : List κ

def differencesFrom (key : α → κ) (row : α → β) : List α → List α → Differences κ → Differences κ
  | [], [], found => ⟨found.added.reverse, found.removed.reverse, found.changed.reverse⟩
  | [], b :: new, found =>
    differencesFrom key row [] new { found with added := key b :: found.added }
  | a :: old, [], found =>
    differencesFrom key row old [] { found with removed := key a :: found.removed }
  | a :: old, b :: new, found =>
    if key a < key b then
      differencesFrom key row old (b :: new) { found with removed := key a :: found.removed }
    else if key b < key a then
      differencesFrom key row (a :: old) new { found with added := key b :: found.added }
    else
      differencesFrom key row old new
        (if row a = row b then found else { found with changed := key a :: found.changed })
termination_by old new => old.length + new.length

def onlyKeys (key : α → κ) (rows others : List α) : List κ :=
  (rows.map key).filter (· ∉ others.map key)

def changedKeys (key : α → κ) (row : α → β) (old new : List α) : List κ :=
  (old.filter fun a => ∃ b ∈ new, key b = key a ∧ row a ≠ row b).map key

def differencesOf (key : α → κ) (row : α → β) (old new : List α) : Differences κ :=
  ⟨onlyKeys key new old, onlyKeys key old new, changedKeys key row old new⟩

namespace Ascending

variable {rows others : List α} {a b : α}

theorem tail (h : Ascending key (a :: rows)) : Ascending key rows := (pairwise_cons.1 h).2

theorem not_mem (h : Ascending key rows) (hbelow : ∀ b ∈ rows.head?, key a < key b) :
    key a ∉ rows.map key := by
  cases rows with
  | nil => exact not_mem_nil
  | cons b rest =>
    have hfirst : key a < key b := hbelow b rfl
    intro hmem
    obtain ⟨c, hc, hsame⟩ := mem_map.1 hmem
    apply (mem_cons.1 hc).elim
    · rintro rfl
      exact hfirst.ne' hsame
    · intro hc
      exact (hfirst.trans ((pairwise_cons.1 h).1 c hc)).ne' hsame

theorem head_not_mem (h : Ascending key (a :: rows)) : key a ∉ rows.map key := by
  intro hmem
  obtain ⟨c, hc, hsame⟩ := mem_map.1 hmem
  exact ((pairwise_cons.1 h).1 c hc).ne' hsame

section

variable (h : Ascending key rows)

include h

theorem inj (ha : a ∈ rows) (hb : b ∈ rows) (hkey : key a = key b) : a = b := by
  have hdistinct : (rows.map key).Nodup := by
    rw [List.Nodup, pairwise_map]
    exact h.imp fun hlt => hlt.ne
  exact inj_on_of_nodup_map hdistinct ha hb hkey

theorem keys : (rows.map key).Pairwise (· < ·) :=
  pairwise_map.2 h

theorem nodup : rows.Nodup := by
  refine List.Pairwise.imp (fun hlt heq => ?_) h
  exact hlt.ne (congrArg key heq)

theorem ext (h' : Ascending key others) (hmem : ∀ a, a ∈ rows ↔ a ∈ others) : rows = others := by
  have hperm : rows.Perm others := (perm_ext_iff_of_nodup h.nodup h'.nodup).2 hmem
  exact hperm.eq_of_pairwise (fun a b _ _ hab hba => absurd hab hba.asymm) h h'

theorem sortOn_eq : sortOn key rows = rows := by
  refine List.Pairwise.insertionSort_eq ?_
  exact List.Pairwise.imp le_of_lt h

end

end Ascending

def between (key : α → κ) (lower upper : κ) (rows : List α) : List α :=
  rows.filter fun a => lower ≤ key a ∧ key a ≤ upper

section

variable {rows : List α} {a : α} {lower upper : κ}

theorem mem_between : a ∈ between key lower upper rows ↔
    a ∈ rows ∧ lower ≤ key a ∧ key a ≤ upper := by
  rw [between, mem_filter, decide_eq_true_eq]

/-- **A range is split at a row**, which both parts have. -/
theorem Ascending.between_split (h : Ascending key rows) (ha : a ∈ rows)
    (hlower : lower ≤ key a) (hupper : key a ≤ upper) :
    ∃ front back, between key lower upper rows = front ++ a :: back ∧
      between key lower (key a) rows = front ++ [a] ∧
      between key (key a) upper rows = a :: back := by
  obtain ⟨before, after, rfl⟩ := append_of_mem ha
  obtain ⟨_, htail, hbefore⟩ := pairwise_append.1 h
  have hafter := (pairwise_cons.1 htail).1
  have hbelow : ∀ b ∈ before, key b < key a := fun b hb => hbefore b hb a mem_cons_self
  refine ⟨between key lower upper before, between key lower upper after, ?_, ?_, ?_⟩
  · rw [between, filter_append, filter_cons_of_pos (by simp [hlower, hupper])]
    rfl
  · rw [between, filter_append, filter_cons_of_pos (by simp [hlower])]
    have hnone : (after.filter fun b => lower ≤ key b ∧ key b ≤ key a) = [] := by
      refine filter_eq_nil_iff.2 fun b hb => ?_
      simp [hafter b hb]
    rw [hnone, between]
    congr 1
    refine filter_congr fun b hb => ?_
    simp [(hbelow b hb).le, (hbelow b hb).le.trans hupper]
  · rw [between, filter_append, filter_cons_of_pos (by simp [hupper])]
    have hnone : (before.filter fun b => key a ≤ key b ∧ key b ≤ upper) = [] := by
      refine filter_eq_nil_iff.2 fun b hb => ?_
      simp [hbelow b hb]
    rw [hnone, nil_append, between]
    congr 1
    refine filter_congr fun b hb => ?_
    simp [(hafter b hb).le, hlower.trans (hafter b hb).le]

end

section

variable {old new : List α} {a b : α}

theorem onlyKeys_cons_of_not_mem (h : key a ∉ new.map key) :
    onlyKeys key (a :: old) new = key a :: onlyKeys key old new := by
  simp only [onlyKeys, map_cons]
  exact filter_cons_of_pos (by simpa using h)

theorem onlyKeys_cons_of_mem (h : key a ∈ new.map key) :
    onlyKeys key (a :: old) new = onlyKeys key old new := by
  simp only [onlyKeys, map_cons]
  exact filter_cons_of_neg (by simpa using h)

theorem onlyKeys_skip (h : key a ∉ old.map key) :
    onlyKeys key old (a :: new) = onlyKeys key old new := by
  refine filter_congr fun k hk => ?_
  have hne : k ≠ key a := fun heq => h (heq ▸ hk)
  simp [hne]

theorem changedKeys_cons_of_not_mem (h : key a ∉ new.map key) :
    changedKeys key row (a :: old) new = changedKeys key row old new := by
  rw [changedKeys, filter_cons_of_neg]
  · rfl
  · rw [decide_eq_true_eq]
    rintro ⟨b, hb, hkey, _⟩
    exact h (hkey ▸ mem_map_of_mem hb)

theorem changedKeys_skip (h : key b ∉ old.map key) :
    changedKeys key row old (b :: new) = changedKeys key row old new := by
  have hfilter : (old.filter fun a => ∃ c ∈ b :: new, key c = key a ∧ row a ≠ row c) =
      old.filter fun a => ∃ c ∈ new, key c = key a ∧ row a ≠ row c := by
    refine filter_congr fun a ha => ?_
    have hne : key b ≠ key a := fun heq => h (heq ▸ mem_map_of_mem ha)
    simp [hne]
  rw [changedKeys, hfilter, changedKeys]

theorem changedKeys_cons_cons (hkey : key a = key b) (hold : key a ∉ old.map key)
    (hnew : key b ∉ new.map key) : changedKeys key row (a :: old) (b :: new) =
      if row a = row b then changedKeys key row old new
      else key a :: changedKeys key row old new := by
  have hskip : changedKeys key row old (b :: new) = changedKeys key row old new :=
    changedKeys_skip (hkey ▸ hold)
  rw [← hskip]
  by_cases hrow : row a = row b
  · rw [if_pos hrow, changedKeys, filter_cons_of_neg]
    · rfl
    · rw [decide_eq_true_eq]
      rintro ⟨c, hc, hsame, hdiffers⟩
      apply (mem_cons.1 hc).elim
      · rintro rfl
        exact hdiffers hrow
      · intro hc
        exact hnew (hkey ▸ hsame ▸ mem_map_of_mem hc)
  · rw [if_neg hrow, changedKeys, filter_cons_of_pos]
    · rfl
    · rw [decide_eq_true_eq]
      exact ⟨b, mem_cons_self, hkey.symm, hrow⟩

/-- **What the walk finds**, after what was found before. -/
theorem differencesFrom_eq (hold : Ascending key old) (hnew : Ascending key new)
    (found : Differences κ) : differencesFrom key row old new found =
      ⟨found.added.reverse ++ onlyKeys key new old, found.removed.reverse ++ onlyKeys key old new,
        found.changed.reverse ++ changedKeys key row old new⟩ := by
  induction old, new, found using differencesFrom.induct key row with
  | case1 found => simp [differencesFrom, onlyKeys, changedKeys]
  | case2 found b new ih =>
    rw [differencesFrom, ih hold hnew.tail, onlyKeys_cons_of_not_mem not_mem_nil]
    simp [onlyKeys, changedKeys]
  | case3 found a old ih =>
    rw [differencesFrom, ih hold.tail hnew, onlyKeys_cons_of_not_mem not_mem_nil]
    simp [onlyKeys, changedKeys]
  | case4 a old b new found hlt ih =>
    -- the row is in the old list only
    have habsent : key a ∉ (b :: new).map key :=
      hnew.not_mem fun c hc => by rwa [← Option.some.inj hc]
    rw [differencesFrom, if_pos hlt, ih hold.tail hnew, onlyKeys_cons_of_not_mem habsent,
      changedKeys_cons_of_not_mem habsent, onlyKeys_skip habsent]
    simp
  | case5 a old b new found hle hlt ih =>
    -- the row is in the new list only
    have habsent : key b ∉ (a :: old).map key :=
      hold.not_mem fun c hc => by rwa [← Option.some.inj hc]
    rw [differencesFrom, if_neg hle, if_pos hlt, ih hold hnew.tail,
      onlyKeys_cons_of_not_mem habsent, changedKeys_skip habsent, onlyKeys_skip habsent]
    simp
  | case6 a old b new found hle hge ih =>
    simp only [dite_eq_ite] at ih
    have hkey : key a = key b := le_antisymm (not_lt.1 hge) (not_lt.1 hle)
    rw [differencesFrom, if_neg hle, if_neg hge, ih hold.tail hnew.tail,
      onlyKeys_cons_of_mem (hkey ▸ mem_cons_self), onlyKeys_cons_of_mem (hkey ▸ mem_cons_self),
      onlyKeys_skip (hkey ▸ hnew.head_not_mem), onlyKeys_skip (hkey ▸ hold.head_not_mem),
      changedKeys_cons_cons hkey hold.head_not_mem hnew.head_not_mem]
    by_cases hrow : row a = row b
    · rw [if_pos hrow, if_pos hrow]
    · rw [if_neg hrow, if_neg hrow]
      simp

theorem differencesFrom_nil (hold : Ascending key old) (hnew : Ascending key new) :
    differencesFrom key row old new ⟨[], [], []⟩ = differencesOf key row old new :=
  differencesFrom_eq hold hnew _

theorem mem_onlyKeys {k : κ} : k ∈ onlyKeys key old new ↔ k ∈ old.map key ∧ k ∉ new.map key := by
  rw [onlyKeys, mem_filter, decide_eq_true_eq]

theorem mem_changedKeys {k : κ} : k ∈ changedKeys key row old new ↔
      ∃ a ∈ old, ∃ b ∈ new, key a = k ∧ key b = k ∧ row a ≠ row b := by
  simp only [changedKeys, mem_map, mem_filter, decide_eq_true_eq]
  constructor
  · rintro ⟨a, ⟨ha, b, hb, hkey, hrow⟩, rfl⟩
    exact ⟨a, ha, b, hb, rfl, hkey, hrow⟩
  · rintro ⟨a, ha, b, hb, rfl, hkey, hrow⟩
    exact ⟨a, ⟨ha, b, hb, hkey, hrow⟩, rfl⟩

theorem pairwise_onlyKeys (h : Ascending key old) : (onlyKeys key old new).Pairwise (· < ·) :=
  h.keys.filter _

theorem pairwise_changedKeys (h : Ascending key old) :
    (changedKeys key row old new).Pairwise (· < ·) :=
  pairwise_map.2 (h.filter _)

/-- **Exchanged lists** exchange what was added and what was removed. -/
theorem differences_swap (hold : Ascending key old) (hnew : Ascending key new) :
    differencesOf key row new old =
      ⟨(differencesOf key row old new).removed, (differencesOf key row old new).added,
        (differencesOf key row old new).changed⟩ := by
  have hchanged : changedKeys key row new old = changedKeys key row old new := by
    have hleft : Ascending id (changedKeys key row new old) := pairwise_changedKeys hnew
    have hright : Ascending id (changedKeys key row old new) := pairwise_changedKeys hold
    apply hleft.ext hright
    intro k
    rw [mem_changedKeys, mem_changedKeys]
    constructor
    · rintro ⟨a, ha, b, hb, hak, hbk, hrow⟩
      exact ⟨b, hb, a, ha, hbk, hak, hrow.symm⟩
    · rintro ⟨a, ha, b, hb, hak, hbk, hrow⟩
      exact ⟨b, hb, a, ha, hbk, hak, hrow.symm⟩
  rw [differencesOf, hchanged, differencesOf]

end

section

variable {old new : List α}

def patch (key : α → κ) (differences : Differences κ) (old new : List α) : List α :=
  sortOn key
    ((old.filter fun a => key a ∉ differences.removed ∧ key a ∉ differences.changed) ++
      new.filter fun b => key b ∈ differences.added ∨ key b ∈ differences.changed)

section

variable (hrow : Function.Injective row) (hold : Ascending key old) (hnew : Ascending key new)

include hrow hold hnew

theorem kept_iff {a : α} (ha : a ∈ old) :
    (key a ∉ onlyKeys key old new ∧ key a ∉ changedKeys key row old new) ↔ a ∈ new := by
  rw [mem_onlyKeys, mem_changedKeys]
  constructor
  · rintro ⟨hremoved, hchanged⟩
    have hpresent : key a ∈ new.map key := by
      by_contra habsent
      exact hremoved ⟨mem_map_of_mem ha, habsent⟩
    obtain ⟨b, hb, hkey⟩ := mem_map.1 hpresent
    have hsame : row a = row b := by
      by_contra hdiffers
      exact hchanged ⟨a, ha, b, hb, rfl, hkey, hdiffers⟩
    rwa [hrow hsame]
  · intro hmem
    refine ⟨fun hremoved => hremoved.2 (mem_map_of_mem hmem), ?_⟩
    rintro ⟨b, hb, c, hc, hbkey, hckey, hdiffers⟩
    rw [hold.inj hb ha hbkey, hnew.inj hc hmem hckey] at hdiffers
    exact hdiffers rfl

theorem taken_iff {b : α} (hb : b ∈ new) :
    (key b ∈ onlyKeys key new old ∨ key b ∈ changedKeys key row old new) ↔ b ∉ old := by
  have hchanged : key b ∈ changedKeys key row old new ↔ key b ∈ changedKeys key row new old := by
    have hswap : differencesOf key row new old = _ := differences_swap hold hnew
    rw [show changedKeys key row new old = changedKeys key row old new from
      congrArg Differences.changed hswap]
  rw [hchanged, ← kept_iff hrow hnew hold hb]
  tauto

/-- **The differences lead from one list to the other.** -/
theorem patch_eq : patch key (differencesOf key row old new) old new = new := by
  have hperm : ((old.filter fun a => key a ∉ (differencesOf key row old new).removed ∧
        key a ∉ (differencesOf key row old new).changed) ++
      new.filter fun b => key b ∈ (differencesOf key row old new).added ∨
        key b ∈ (differencesOf key row old new).changed).Perm new := by
    refine (perm_ext_iff_of_nodup ?_ hnew.nodup).2 fun a => ?_
    · rw [nodup_append]
      refine ⟨hold.nodup.filter _, hnew.nodup.filter _, fun a ha b hb heq => ?_⟩
      rw [mem_filter, decide_eq_true_eq] at ha hb
      exact (taken_iff hrow hold hnew hb.1).1 hb.2 (heq ▸ ha.1)
    · rw [mem_append, mem_filter, mem_filter, decide_eq_true_eq, decide_eq_true_eq]
      constructor
      · rintro (⟨ha, hkept⟩ | ⟨ha, _⟩)
        · exact (kept_iff hrow hold hnew ha).1 hkept
        · exact ha
      · intro ha
        by_cases hmem : a ∈ old
        · exact .inl ⟨hmem, (kept_iff hrow hold hnew hmem).2 ha⟩
        · exact .inr ⟨ha, (taken_iff hrow hold hnew ha).2 hmem⟩
  rw [patch, ← sortOn_congr hperm.symm fun a ha b hb => hnew.inj ha hb, hnew.sortOn_eq]

end

end

end PooFlow.Foundation
