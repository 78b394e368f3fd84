import Mathlib.Data.List.Nodup

namespace PooFlow.Foundation

open List

variable {α κ : Type*} [DecidableEq κ] (key : α → κ)

def firstOfKey : List α → List α
  | [] => []
  | a :: rest => a :: (firstOfKey rest).filter (key · ≠ key a)

variable (values : List α)

theorem firstOfKey_sublist : (firstOfKey key values).Sublist values := by
  induction values with
  | nil => exact .slnil
  | cons a rest ih => exact (filter_sublist.trans ih).cons_cons a

theorem nodup_firstOfKey : ((firstOfKey key values).map key).Nodup := by
  induction values with
  | nil => exact nodup_nil
  | cons a rest ih =>
    rw [firstOfKey, map_cons, nodup_cons]
    refine ⟨?_, (filter_sublist.map key).nodup ih⟩
    rintro hmem
    obtain ⟨b, hb, hkey⟩ := mem_map.1 hmem
    exact of_decide_eq_true (mem_filter.1 hb).2 hkey

variable {values : List α}

theorem mem_map_firstOfKey {k : κ} : k ∈ (firstOfKey key values).map key ↔ k ∈ values.map key := by
  induction values with
  | nil => rfl
  | cons a rest ih =>
    rw [firstOfKey, map_cons, map_cons, mem_cons, mem_cons, ← ih]
    by_cases hkey : k = key a
    · simp [hkey]
    · rw [or_iff_right hkey, or_iff_right hkey, mem_map, mem_map]
      constructor
      · rintro ⟨b, hb, rfl⟩
        exact ⟨b, mem_of_mem_filter hb, rfl⟩
      · rintro ⟨b, hb, rfl⟩
        exact ⟨b, mem_filter.2 ⟨hb, decide_eq_true hkey⟩, rfl⟩

theorem firstOfKey_concat (a : α) : firstOfKey key (values ++ [a]) =
      if key a ∈ values.map key then firstOfKey key values else firstOfKey key values ++ [a] := by
  induction values with
  | nil => rfl
  | cons b rest ih =>
    rw [cons_append, firstOfKey, ih, firstOfKey, map_cons]
    by_cases hrest : key a ∈ rest.map key
    · rw [if_pos hrest, if_pos (mem_cons_of_mem _ hrest)]
    · rw [if_neg hrest, filter_append]
      by_cases hfirst : key a = key b
      · rw [if_pos (hfirst ▸ mem_cons_self),
          filter_cons_of_neg (by simpa using hfirst), filter_nil, append_nil]
      · rw [if_neg fun hmem => (mem_cons.1 hmem).elim hfirst hrest,
          filter_cons_of_pos (by simpa using hfirst), filter_nil, cons_append]

def groupsOf (values : List α) : List (List α) :=
  (firstOfKey key values).map fun first => values.filter (key · = key first)

variable {key}

theorem head?_filter_firstOfKey {first : α} (hfirst : first ∈ firstOfKey key values) :
    (values.filter (key · = key first)).head? = some first := by
  induction values with
  | nil => cases hfirst
  | cons a rest ih =>
    rw [firstOfKey, mem_cons, mem_filter, decide_eq_true_iff] at hfirst
    rcases hfirst with rfl | ⟨hfirst, hkey⟩
    · rw [filter_cons_of_pos (by simp)]
      rfl
    · rw [filter_cons_of_neg (by simpa using Ne.symm hkey)]
      exact ih hfirst

theorem heads_groupsOf : (groupsOf key values).filterMap List.head? = firstOfKey key values := by
  rw [groupsOf, filterMap_map]
  refine (filterMap_congr fun first hfirst => ?_).trans filterMap_some
  exact head?_filter_firstOfKey hfirst

theorem mem_groupsOf {group : List α} : group ∈ groupsOf key values ↔
      ∃ first ∈ values, group = values.filter (key · = key first) := by
  rw [groupsOf, mem_map]
  constructor
  · rintro ⟨first, hfirst, rfl⟩
    exact ⟨first, (firstOfKey_sublist key values).mem hfirst, rfl⟩
  · rintro ⟨first, hfirst, rfl⟩
    obtain ⟨leader, hleader, hkey⟩ :=
      mem_map.1 ((mem_map_firstOfKey key).2 (mem_map_of_mem hfirst))
    exact ⟨leader, hleader, by rw [hkey]⟩

/-- **Every value is in one group.** -/
theorem perm_flatten_groupsOf (hnodup : values.Nodup) :
    (groupsOf key values).flatten.Perm values := by
  refine (perm_ext_iff_of_nodup ?_ hnodup).2 fun a => ?_
  · rw [nodup_flatten]
    constructor
    · intro group hgroup
      obtain ⟨first, _, rfl⟩ := mem_groupsOf.1 hgroup
      exact hnodup.filter _
    · rw [groupsOf, pairwise_map]
      have hkeys := nodup_firstOfKey key values
      rw [List.Nodup, pairwise_map] at hkeys
      refine hkeys.imp fun hne a ha ha' => hne ?_
      rw [mem_filter, decide_eq_true_iff] at ha ha'
      exact ha.2.symm.trans ha'.2
  · rw [mem_flatten]
    constructor
    · rintro ⟨group, hgroup, ha⟩
      obtain ⟨first, _, rfl⟩ := mem_groupsOf.1 hgroup
      exact mem_of_mem_filter ha
    · intro ha
      exact ⟨_, mem_groupsOf.2 ⟨a, ha, rfl⟩, mem_filter.2 ⟨ha, decide_eq_true rfl⟩⟩

end PooFlow.Foundation
