import PooFlow.Axle.Written
import Mathlib.Data.List.Pairwise

namespace PooFlow.Axle

open Foundation List
open Prod (fst)

section

variable {ranged front rest kept : List (LeanSourceRange × List String)}
  {inner : LeanSourceRange × List String} {range other : LeanSourceRange}

/-- No other range reaches beyond the range at both ends. -/
def Outermost (ranged : List (LeanSourceRange × List String)) (range : LeanSourceRange) : Prop :=
  ∀ other ∈ ranged, rangeContains other.1 range → rangeContains range other.1

/-- Two outermost ranges, of which the second begins in the first and ends behind it. -/
def PartiallyOverlap (ranged : List (LeanSourceRange × List String)) : Prop :=
  ∃ outer ∈ ranged, ∃ inner ∈ ranged, Outermost ranged outer.1 ∧ Outermost ranged inner.1 ∧
    rangeKey outer.1 < rangeKey inner.1 ∧ rangeKey inner.1 < rangeEndKey outer.1 ∧
    rangeEndKey outer.1 < rangeEndKey inner.1

/-- **A laminar cover**: outermost ranges in their order, which cover all of them. A range
leaves its names in the first that it lies in. -/
structure LaminarCover (ranged kept : List (LeanSourceRange × List String)) : Prop where
  maximal : ∀ range ∈ kept.map Prod.fst, range ∈ ranged.map Prod.fst ∧ Outermost ranged range
  ordered : (kept.map Prod.fst).Pairwise fun range next =>
    rangeEndKey range ≤ rangeKey next ∧ ¬rangeContains range next
  covered : ∀ inner ∈ ranged, ∃ range ∈ kept.map Prod.fst, rangeContains range inner.1
  named : ∀ index outer, kept[index]? = some outer → ∀ name, name ∈ outer.2 ↔
    ∃ inner ∈ ranged, name ∈ inner.2 ∧
      (kept.map Prod.fst).findIdx? (rangeContains · inner.1) = some index

theorem rangeContains_iff : rangeContains range other = true ↔
    rangeKey range ≤ rangeKey other ∧ rangeEndKey other ≤ rangeEndKey range := by
  simp [rangeContains]

theorem rangeContains_trans {outer : LeanSourceRange} (h : rangeContains outer range)
    (h' : rangeContains range other) : rangeContains outer other := by
  rw [rangeContains_iff] at *
  exact ⟨h.1.trans h'.1, h'.2.trans h.2⟩

/-- A later range reaches beyond an earlier one at the end only. -/
theorem contains_of_order (h : rangeOrder range ≤ rangeOrder other) :
    rangeKey range ≤ rangeKey other ∧
      (rangeKey other ≤ rangeKey range → rangeContains range other) := by
  rw [rangeContains_iff]
  simp only [rangeOrder, rangeKey, rangeEndKey, Prod.Lex.toLex_le_toLex] at *
  omega

theorem Outermost.append (h : Outermost front range)
    (horder : ∀ later ∈ rest, rangeOrder range ≤ rangeOrder later.1) :
    Outermost (front ++ rest) range := by
  intro other hmem hcontains
  rcases mem_append.1 hmem with hmem | hmem
  · exact h other hmem hcontains
  · exact (contains_of_order (horder other hmem)).2 (rangeContains_iff.1 hcontains).1

theorem LaminarCover.disjoint {next : LeanSourceRange} (h : LaminarCover ranged kept)
    (hrange : range ∈ kept.map fst) (hnext : next ∈ kept.map fst) (hne : range ≠ next) :
    rangeEndKey range ≤ rangeKey next ∨ rangeEndKey next ≤ rangeKey range := by
  have hsymm : Std.Symm fun a b : LeanSourceRange =>
      rangeEndKey a ≤ rangeKey b ∨ rangeEndKey b ≤ rangeKey a := ⟨fun _ _ => Or.symm⟩
  have hapart : (kept.map fst).Pairwise fun a b =>
      rangeEndKey a ≤ rangeKey b ∨ rangeEndKey b ≤ rangeKey a :=
    h.ordered.imp fun hlt => .inl hlt.1
  exact hapart.forall hrange hnext hne

theorem LaminarCover.found (h : LaminarCover ranged kept) (hinner : inner ∈ ranged) :
    ∃ index < kept.length, (kept.map fst).findIdx? (rangeContains · inner.1) = some index := by
  have hfound := List.findIdx?_eq_some_of_exists (h.covered inner hinner)
  exact ⟨_, by simpa using (List.findIdx?_eq_some_iff_findIdx_eq.1 hfound).1, hfound⟩

theorem exists_mem_snoc {α : Type} {values : List α} {last : α} {p : α → Prop} :
    (∃ value ∈ values ++ [last], p value) ↔ (∃ value ∈ values, p value) ∨ p last := by
  simp only [mem_append, mem_singleton, or_and_right, exists_or, exists_eq_left]

/-- A range that lies in a kept one leaves its names there. -/
theorem LaminarCover.contain (h : LaminarCover front kept) {index : ℕ}
    (hfound : (kept.map fst).findIdx? (rangeContains · inner.1) = some index)
    (hearlier : ∀ range ∈ kept.map fst, rangeOrder range ≤ rangeOrder inner.1) :
    LaminarCover (front ++ [inner])
      (kept.modify index fun outer => (outer.1, outer.2 ++ inner.2)) := by
  have hranges : (kept.modify index fun outer => (outer.1, outer.2 ++ inner.2)).map fst =
      kept.map fst := by
    refine ext_getElem? fun j => ?_
    rw [List.getElem?_map, List.getElem?_modify, List.getElem?_map]
    cases kept[j]? with
    | none => rfl
    | some outer => split <;> rfl
  refine ⟨?_, hranges ▸ h.ordered, ?_, ?_⟩
  · rw [hranges]
    intro range hrange
    rw [map_append, mem_append]
    exact ⟨.inl (h.maximal range hrange).1, (h.maximal range hrange).2.append
      (forall_mem_singleton.2 (hearlier range hrange))⟩
  · rw [hranges, forall_mem_append, forall_mem_singleton]
    obtain ⟨hindex, hcontains, -⟩ := List.findIdx?_eq_some_iff_getElem.1 hfound
    exact ⟨h.covered, _, getElem_mem hindex, hcontains⟩
  · intro j outer houter name
    rw [List.getElem?_modify] at houter
    cases hold : kept[j]? with
    | none => simp [hold] at houter
    | some old =>
      rw [hranges, exists_mem_snoc, ← h.named j old hold name, hfound, Option.some_inj]
      by_cases hj : index = j
      · obtain rfl : (old.1, old.2 ++ inner.2) = outer := by simpa [hold, hj] using houter
        rw [mem_append, and_iff_left hj]
      · obtain rfl : old = outer := by simpa [hold, hj] using houter
        rw [or_iff_left fun hnamed => hj hnamed.2]

theorem LaminarCover.extend (h : LaminarCover front kept) (houtermost : Outermost front inner.1)
    (hfree : ∀ range ∈ kept.map fst, ¬rangeContains range inner.1)
    (hroom : ∀ range ∈ kept.map fst, rangeEndKey range ≤ rangeKey inner.1)
    (hearlier : ∀ range ∈ kept.map fst, rangeOrder range ≤ rangeOrder inner.1) :
    LaminarCover (front ++ [inner]) (kept ++ [inner]) := by
  have hself : rangeContains inner.1 inner.1 := rangeContains_iff.2 ⟨le_rfl, le_rfl⟩
  refine ⟨?_, ?_, ?_, ?_⟩
  · intro range hrange
    rw [map_append, mem_append] at hrange ⊢
    rcases hrange with hrange | hrange
    · exact ⟨.inl (h.maximal range hrange).1, (h.maximal range hrange).2.append
        (forall_mem_singleton.2 (hearlier range hrange))⟩
    · obtain rfl := mem_singleton.1 hrange
      exact ⟨.inr hrange, houtermost.append (forall_mem_singleton.2 le_rfl)⟩
  · rw [map_append, pairwise_append]
    refine ⟨h.ordered, pairwise_singleton _ _, fun range hrange next hnext => ?_⟩
    obtain rfl := mem_singleton.1 hnext
    exact ⟨hroom range hrange, hfree range hrange⟩
  · rw [map_append, forall_mem_append, forall_mem_singleton]
    refine ⟨fun earlier hmem => ?_, inner.1, by simp, hself⟩
    obtain ⟨range, hrange, hcontains⟩ := h.covered earlier hmem
    exact ⟨range, mem_append_left _ hrange, hcontains⟩
  · have hnone : (kept.map fst).findIdx? (rangeContains · inner.1) = none :=
      List.findIdx?_eq_none_iff.2 (by simpa using hfree)
    intro index outer houter name
    have hkeeps : (∃ earlier ∈ front, name ∈ earlier.2 ∧
        ((kept ++ [inner]).map fst).findIdx? (rangeContains · earlier.1) = some index) ↔
        ∃ earlier ∈ front, name ∈ earlier.2 ∧
          (kept.map fst).findIdx? (rangeContains · earlier.1) = some index := by
      refine exists_congr fun earlier => and_congr_right fun hmem => ?_
      obtain ⟨found, -, hfound⟩ := h.found hmem
      rw [map_append, List.findIdx?_append, hfound, Option.some_or]
    have hlast : ((kept ++ [inner]).map fst).findIdx? (rangeContains · inner.1) =
        some kept.length := by
      rw [map_append, List.findIdx?_append, hnone, Option.none_or, map_singleton,
        List.findIdx?_singleton, if_pos hself, Option.map_some, length_map, Nat.zero_add]
    rw [exists_mem_snoc, hkeeps, hlast, Option.some_inj]
    rcases lt_or_ge index kept.length with hindex | hindex
    · rw [List.getElem?_append_left hindex] at houter
      rw [h.named index outer houter name, or_iff_left fun hnamed => hindex.ne' hnamed.2]
    · rw [List.getElem?_append_right hindex, List.getElem?_singleton] at houter
      obtain ⟨hlength, rfl⟩ : index ≤ kept.length ∧ inner = outer := by
        simpa [Nat.sub_eq_zero_iff_le] using houter
      rw [and_iff_left (le_antisymm hindex hlength), or_iff_right_iff_imp.2]
      rintro ⟨earlier, hmem, -, hfound⟩
      obtain ⟨found, hlt, hfound'⟩ := h.found hmem
      rw [hfound', Option.some_inj] at hfound
      omega

/-- **One range of the sweep** is taken in, or it reaches out of a kept range. -/
theorem LaminarCover.step (h : LaminarCover front kept)
    (hsorted : ∀ earlier ∈ front, rangeOrder earlier.1 ≤ rangeOrder inner.1) :
    (∃ kept', coalesceOne kept inner = .ok kept' ∧ LaminarCover (front ++ [inner]) kept') ∨
      (∃ error, coalesceOne kept inner = .error error) ∧ Outermost front inner.1 ∧
        ∃ range ∈ kept.map fst, rangeKey range < rangeKey inner.1 ∧
          rangeKey inner.1 < rangeEndKey range ∧ rangeEndKey range < rangeEndKey inner.1 := by
  have hearlier : ∀ range ∈ kept.map fst, rangeOrder range ≤ rangeOrder inner.1 := by
    intro range hrange
    obtain ⟨earlier, hmem, rfl⟩ := mem_map.1 (h.maximal range hrange).1
    exact hsorted earlier hmem
  have hsame : kept.findIdx? (fun existing => rangeContains existing.1 inner.1) =
      (kept.map fst).findIdx? (rangeContains · inner.1) := by
    rw [List.findIdx?_map]
    rfl
  rw [coalesceOne, hsame]
  cases hfound : (kept.map fst).findIdx? (rangeContains · inner.1) with
  | some index => exact .inl ⟨_, rfl, h.contain hfound hearlier⟩
  | none =>
    have hfree : ∀ range ∈ kept.map fst, ¬rangeContains range inner.1 := by
      simpa using List.findIdx?_eq_none_iff.1 hfound
    have houtermost : Outermost front inner.1 := by
      intro other hother hcontains
      obtain ⟨range, hrange, hcovers⟩ := h.covered other hother
      exact absurd (rangeContains_trans hcovers hcontains) (hfree range hrange)
    by_cases hroom : kept.all fun existing => rangeEndKey existing.1 ≤ rangeKey inner.1
    · have hbehind : ∀ range ∈ kept.map fst, rangeEndKey range ≤ rangeKey inner.1 := by
        simpa using hroom
      exact .inl ⟨_, then_eq_ok.2 ⟨guardElse_of hroom, rfl⟩,
        h.extend houtermost hfree hbehind hearlier⟩
    · obtain ⟨existing, hmem, hreach⟩ : ∃ existing ∈ kept,
          rangeKey inner.1 < rangeEndKey existing.1 := by simpa using hroom
      have hrange : existing.1 ∈ kept.map fst := mem_map_of_mem hmem
      obtain ⟨hstart, hcontains⟩ := contains_of_order (hearlier _ hrange)
      have hbefore : rangeKey existing.1 < rangeKey inner.1 :=
        lt_of_not_ge fun hle => hfree _ hrange (hcontains hle)
      refine .inr ⟨⟨_, bind_eq_error.2 (.inl (guardElse_eq_error.2 ⟨hroom, rfl⟩))⟩,
        houtermost, existing.1, hrange, hbefore, hreach, lt_of_not_ge fun hle => ?_⟩
      exact hfree _ hrange (rangeContains_iff.2 ⟨hstart, hle⟩)

/-- **The sweep** over the rest of the ranges. -/
theorem LaminarCover.run (h : LaminarCover front kept)
    (hsorted : (front ++ rest).Pairwise fun range next =>
      rangeOrder range.1 ≤ rangeOrder next.1) :
    (∃ kept', rest.foldlM coalesceOne kept = .ok kept' ∧ LaminarCover (front ++ rest) kept') ∨
      (∃ error, rest.foldlM coalesceOne kept = .error error) ∧
        PartiallyOverlap (front ++ rest) := by
  induction rest generalizing front kept with
  | nil => exact .inl ⟨kept, rfl, by rwa [append_nil]⟩
  | cons inner rest ih =>
    obtain ⟨-, hlater, hfront⟩ := pairwise_append.1 hsorted
    rw [foldlM_cons]
    rcases h.step fun earlier hmem => hfront earlier hmem inner mem_cons_self with
      ⟨kept', hone, hkept'⟩ | ⟨⟨error, hone⟩, hinner, range, hrange, hoverlap⟩
    · rw [hone, ok_bind, append_cons]
      exact ih hkept' (append_cons .. ▸ hsorted)
    · refine .inr ⟨⟨error, by rw [hone]; rfl⟩, ?_⟩
      obtain ⟨hmem, houtermost⟩ := h.maximal range hrange
      obtain ⟨outer, houter, rfl⟩ := mem_map.1 hmem
      refine ⟨outer, mem_append_left _ houter, inner, mem_append_right _ mem_cons_self,
        houtermost.append (hfront outer houter), hinner.append ?_, hoverlap⟩
      exact forall_mem_cons.2 ⟨le_rfl, (pairwise_cons.1 hlater).1⟩

theorem LaminarCover.not_overlap (h : LaminarCover ranged kept) : ¬PartiallyOverlap ranged := by
  rintro ⟨outer, houter, inner, hinner, hfirst, hsecond, hstart, hreach, hend⟩
  have hkey : ∀ entry ∈ ranged, Outermost ranged entry.1 → ∃ range ∈ kept.map fst,
      rangeKey range = rangeKey entry.1 ∧ rangeEndKey range = rangeEndKey entry.1 := by
    intro entry hentry houtermost
    obtain ⟨range, hrange, hcontains⟩ := h.covered entry hentry
    obtain ⟨other, hother, rfl⟩ := mem_map.1 (h.maximal range hrange).1
    have hback := rangeContains_iff.1 (houtermost other hother hcontains)
    rw [rangeContains_iff] at hcontains
    exact ⟨_, hrange, le_antisymm hcontains.1 hback.1, le_antisymm hback.2 hcontains.2⟩
  obtain ⟨range, hrange, hrange₁, hrange₂⟩ := hkey outer houter hfirst
  obtain ⟨next, hnext, hnext₁, hnext₂⟩ := hkey inner hinner hsecond
  rw [← hrange₁, ← hnext₁] at hstart
  rw [← hrange₂, ← hnext₁] at hreach
  rw [← hrange₂, ← hnext₂] at hend
  rcases h.disjoint hrange hnext (fun heq => hstart.ne (congrArg rangeKey heq)) with hle | hle
  · exact hreach.not_ge hle
  · exact (hstart.trans (hreach.trans hend)).not_ge hle

/-- The kept ranges of the sorted ones, without their repeated names. -/
theorem LaminarCover.tidy (h : LaminarCover (sortOn (rangeOrder ·.1) ranged) kept) :
    LaminarCover ranged (kept.map fun existing => (existing.1, existing.2.eraseDups)) := by
  have hranges : (kept.map fun existing => (existing.1, existing.2.eraseDups)).map fst =
      kept.map fst := map_map
  refine ⟨fun range hrange => ?_, hranges ▸ h.ordered, fun inner hinner => ?_, ?_⟩
  · obtain ⟨hmem, houtermost⟩ := h.maximal range (hranges ▸ hrange)
    exact ⟨((perm_sortOn _ ranged).map fst).mem_iff.1 hmem,
      fun other hother => houtermost other (mem_sortOn.2 hother)⟩
  · exact hranges ▸ h.covered inner (mem_sortOn.2 hinner)
  · intro index outer houter name
    rw [List.getElem?_map, Option.map_eq_some_iff] at houter
    obtain ⟨old, hold, rfl⟩ := houter
    rw [hranges, mem_eraseDups, h.named index old hold name]
    simp only [mem_sortOn]

theorem nodup_eraseDups (names : List String) : names.eraseDups.Nodup := by
  induction names using List.reverseRecOn with
  | nil => exact nodup_nil
  | append_singleton names name ih =>
    rw [eraseDups_append]
    by_cases hmem : name ∈ names
    · simpa [List.removeAll, hmem] using ih
    · have hkept : ([name].removeAll names).eraseDups = [name] := by
        rw [show [name].removeAll names = [name] by simp [List.removeAll, hmem]]
        rfl
      rw [hkept]
      exact List.Nodup.append ih (nodup_singleton name) (by simpa using hmem)

/-- **Coalescing** leaves with its error, or covers the ranges. -/
theorem coalesceSourceRanges_cases (ranged : List (LeanSourceRange × List String)) :
    (∃ kept, coalesceSourceRanges ranged = .ok kept ∧ LaminarCover ranged kept ∧
      ∀ outer ∈ kept, outer.2.Nodup) ∨
      (∃ error, coalesceSourceRanges ranged = .error error) ∧ PartiallyOverlap ranged := by
  have hempty : LaminarCover [] [] := ⟨by simp, List.Pairwise.nil, by simp, by simp⟩
  have hrun := @LaminarCover.run [] (sortOn (rangeOrder ·.1) ranged) [] hempty
    (pairwise_sortOn _ ranged)
  rw [nil_append] at hrun
  rw [coalesceSourceRanges]
  rcases hrun with ⟨kept, hkept, hcover⟩ | ⟨⟨error, herror⟩, hoverlap⟩
  · refine .inl ⟨_, by rw [hkept]; rfl, hcover.tidy, ?_⟩
    rw [forall_mem_map]
    exact fun existing _ => nodup_eraseDups existing.2
  · refine .inr ⟨⟨error, by rw [herror]; rfl⟩, ?_⟩
    simpa [PartiallyOverlap, Outermost] using hoverlap

theorem coalesceSourceRanges_ok (h : coalesceSourceRanges ranged = .ok kept) :
    LaminarCover ranged kept ∧ ∀ outer ∈ kept, outer.2.Nodup := by
  rcases coalesceSourceRanges_cases ranged with ⟨kept', hkept, hcover⟩ | ⟨⟨error, herror⟩, -⟩
  · obtain rfl := Except.ok.inj (hkept.symm.trans h)
    exact hcover
  · cases herror.symm.trans h

/-- **The first kept range that covers a kept one** is itself. -/
theorem LaminarCover.findIdx_self (h : LaminarCover ranged kept) {index : ℕ}
    {outer : LeanSourceRange × List String} (houter : kept[index]? = some outer) :
    (kept.map fst).findIdx? (rangeContains · outer.1) = some index := by
  obtain ⟨hindex, rfl⟩ := List.getElem?_eq_some_iff.1 houter
  rw [List.findIdx?_eq_some_iff_getElem]
  refine ⟨by simpa using hindex, by simp [rangeContains_iff], fun earlier hearlier => ?_⟩
  have hfresh := pairwise_iff_getElem.1 h.ordered earlier index
    (by simpa using hearlier.trans hindex) (by simpa using hindex) hearlier
  simpa using hfresh.2

/-- A range in two kept ones is empty and lies between them. -/
theorem LaminarCover.exactly_one (h : LaminarCover ranged kept) (hinner : inner ∈ ranged) :
    (∃! range, range ∈ kept.map fst ∧ rangeContains range inner.1) ∨
      ∃ range ∈ kept.map fst, ∃ next ∈ kept.map fst,
        rangeEndKey inner.1 ≤ rangeEndKey range ∧ rangeEndKey range ≤ rangeKey next ∧
          rangeKey next ≤ rangeKey inner.1 := by
  obtain ⟨range, hrange, hcontains⟩ := h.covered inner hinner
  by_cases halone : ∀ next ∈ kept.map fst, rangeContains next inner.1 → next = range
  · exact .inl ⟨range, ⟨hrange, hcontains⟩, fun next hnext => halone next hnext.1 hnext.2⟩
  · push Not at halone
    obtain ⟨next, hnext, hcovers, hne⟩ := halone
    rw [rangeContains_iff] at hcontains hcovers
    rcases h.disjoint hnext hrange hne with hle | hle
    · exact .inr ⟨next, hnext, range, hrange, hcovers.2, hle, hcontains.1⟩
    · exact .inr ⟨range, hrange, next, hnext, hcontains.2, hle, hcovers.1⟩

end

section

variable {declarations declared : List LeanDeclaration}
  {ranged kept : List (LeanSourceRange × List String)} {outer : LeanSourceRange × List String}

theorem exists_appendUnder {α : Type} [DecidableEq α] {key other : α} {value name : String}
    {entries : List (α × List String)} :
    (∃ entry ∈ appendUnder key value entries, entry.1 = other ∧ name ∈ entry.2) ↔
      (∃ entry ∈ entries, entry.1 = other ∧ name ∈ entry.2) ∨ key = other ∧ value = name := by
  induction entries with
  | nil => simp [appendUnder, eq_comm]
  | cons entry entries ih =>
    rw [appendUnder]
    split_ifs with hkey
    · subst hkey
      simp only [exists_mem_cons_iff, mem_append, mem_singleton,
        @eq_comm _ value name, and_or_left, or_right_comm]
    · rw [exists_mem_cons_iff, ih, exists_mem_cons_iff, or_assoc]

theorem appendUnder_inhabited {α : Type} [DecidableEq α] {key : α} {value : String}
    {entries : List (α × List String)} (h : ∀ entry ∈ entries, entry.2 ≠ []) :
    ∀ entry ∈ appendUnder key value entries, entry.2 ≠ [] := by
  induction entries with
  | nil => simp [appendUnder]
  | cons entry entries ih =>
    obtain ⟨hentry, hentries⟩ := forall_mem_cons.1 h
    rw [appendUnder]
    split_ifs with hkey
    · exact forall_mem_cons.2 ⟨by simp, hentries⟩
    · exact forall_mem_cons.2 ⟨hentry, ih hentries⟩

structure RangedBy (declarations : List LeanDeclaration)
    (ranged : List (LeanSourceRange × List String)) : Prop where
  listed : ∀ range name, (∃ entry ∈ ranged, entry.1 = range ∧ name ∈ entry.2) ↔
    ∃ declaration ∈ declarations, declaration.sourceRange = some range ∧ declaration.name = name
  inhabited : ∀ entry ∈ ranged, entry.2 ≠ []

theorem rangedDeclarations_ok (h : rangedDeclarations declarations = .ok ranged) :
    RangedBy declarations ranged := by
  induction declarations using List.reverseRecOn generalizing ranged with
  | nil =>
    cases h
    exact ⟨by simp, by simp⟩
  | append_singleton declarations declaration ih =>
    rw [rangedDeclarations, foldlM_append] at h
    obtain ⟨before, hbefore, h⟩ := bind_eq_ok.1 h
    rw [foldlM_cons] at h
    obtain ⟨after, hafter, h⟩ := bind_eq_ok.1 h
    cases h
    obtain ⟨range, hrange, hafter⟩ := bind_eq_ok.1 hafter
    cases hafter
    rw [presentElse_eq_ok] at hrange
    obtain ⟨hlisted, hinhabited⟩ := ih hbefore
    refine ⟨fun other name => ?_, appendUnder_inhabited hinhabited⟩
    rw [exists_appendUnder, hlisted, exists_mem_snoc, hrange, Option.some_inj]

/-- **A kept range has an anchor**: its own declarations leave their names there. -/
theorem aliasesOfRange_ok (hranged : RangedBy declarations ranged)
    (hcover : LaminarCover ranged kept) (houter : outer ∈ kept)
    (hdeclared : ∀ declaration ∈ declarations, declaration ∈ declared) :
    ∃ anchor, aliasesOfRange declared outer = .ok (outer.2.map fun name => (name, anchor)) := by
  obtain ⟨index, hindex⟩ := mem_iff_getElem?.mp houter
  obtain ⟨hrange, -⟩ := hcover.maximal _ (mem_map_of_mem houter)
  obtain ⟨entry, hentry, hsame⟩ := mem_map.1 hrange
  obtain ⟨name, hname⟩ := exists_mem_of_ne_nil _ (hranged.inhabited entry hentry)
  obtain ⟨declaration, hmem, hdeclaration, rfl⟩ :=
    (hranged.listed _ _).1 ⟨entry, hentry, hsame, hname⟩
  have hkept : declaration.name ∈ outer.2 := (hcover.named index outer hindex _).2
    ⟨entry, hentry, hname, hsame ▸ hcover.findIdx_self hindex⟩
  have hfilter : declaration.name ∈ outer.2.filter fun name => declared.any fun declaration =>
      declaration.name = name && declaration.sourceRange = some outer.1 :=
    mem_filter.2 ⟨hkept, any_eq_true.2
      ⟨declaration, hdeclared declaration hmem, by simp [hdeclaration]⟩⟩
  rw [aliasesOfRange]
  cases hanchor : anchorOf (outer.2.filter fun name => declared.any fun declaration =>
      declaration.name = name && declaration.sourceRange = some outer.1) with
  | none =>
    rw [anchorOf, List.head?_eq_none_iff] at hanchor
    exact absurd (hanchor ▸ mem_sortOn.2 hfilter) not_mem_nil
  | some anchor => exact ⟨anchor, rfl⟩

theorem coalesceSourceRanges_error {error : EmitError}
    (h : coalesceSourceRanges ranged = .error error) :
    error.code = "partially-overlapping-source-ranges" := by
  rcases bind_eq_error.1 h with h | ⟨_, -, h⟩
  · obtain ⟨inner, -, kept, h⟩ := foldlM_eq_error h
    rw [coalesceOne] at h
    split at h
    · cases h
    · rcases bind_eq_error.1 h with h | ⟨_, -, h⟩
      · exact (guardElse_eq_error.1 h).2 ▸ rfl
      · cases h
  · cases h

def aliasesOfModule (declared declarations : List LeanDeclaration) :
    Except EmitError (List (List (String × String))) := do
  let ranged ← rangedDeclarations declarations
  let coalesced ← coalesceSourceRanges ranged
  coalesced.mapM (aliasesOfRange declared)

theorem aliasesOfModule_error {shown : List String}
    (hdeclared : ∀ declaration ∈ declarations, declaration ∈ declared) :
    aliasesOfModule declared declarations ≠ .error ⟨"source-declaration-anchor-missing", shown⟩ := by
  intro h
  rcases bind_eq_error.1 h with h | ⟨ranged, hranged, h⟩
  · obtain ⟨declaration, -, before, h⟩ := foldlM_eq_error h
    rcases bind_eq_error.1 h with h | ⟨_, -, h⟩
    · simp at h
    · cases h
  rcases bind_eq_error.1 h with h | ⟨kept, hkept, h⟩
  · simpa using coalesceSourceRanges_error h
  obtain ⟨outer, houter, h⟩ := mapM_eq_error h
  obtain ⟨anchor, hanchor⟩ := aliasesOfRange_ok (rangedDeclarations_ok hranged)
    (coalesceSourceRanges_ok hkept).1 houter hdeclared
  cases hanchor.symm.trans h

theorem aliasesOfModule_total {aliases : List (List (String × String))}
    {declaration : LeanDeclaration} (h : aliasesOfModule declared declarations = .ok aliases)
    (hdeclared : ∀ declaration ∈ declarations, declaration ∈ declared)
    (hmem : declaration ∈ declarations) (hrange : declaration.sourceRange ≠ none) :
    declaration.name ∈ aliases.flatten.map fst := by
  obtain ⟨ranged, hranged, h⟩ := bind_eq_ok.1 h
  obtain ⟨kept, hkept, h⟩ := bind_eq_ok.1 h
  have hranged := rangedDeclarations_ok hranged
  have hcover := (coalesceSourceRanges_ok hkept).1
  obtain ⟨range, hrange⟩ := Option.ne_none_iff_exists'.1 hrange
  obtain ⟨entry, hentry, -, hname⟩ := (hranged.listed _ _).2 ⟨declaration, hmem, hrange, rfl⟩
  obtain ⟨index, hindex, hfound⟩ := hcover.found hentry
  have houter := List.getElem?_eq_getElem hindex
  obtain ⟨anchor, hanchor⟩ :=
    aliasesOfRange_ok hranged hcover (getElem_mem hindex) hdeclared
  refine mem_map.2 ⟨(declaration.name, anchor), mem_flatten.2
    ⟨_, (mem_of_mapM h).2 ⟨_, getElem_mem hindex, hanchor⟩, ?_⟩, rfl⟩
  exact mem_map.2 ⟨_, (hcover.named index _ houter _).2
    ⟨entry, hentry, hname, hfound⟩, rfl⟩

/-- **Coalesced source ranges** are a laminar cover, unless outermost ranges partially overlap.
A range that lies in two of them is empty and stands between them. Under a cover, each
declaration has an alias. -/
theorem coalesced_laminar : (∀ ranged, ((∃ error, coalesceSourceRanges ranged = .error error) ↔
      PartiallyOverlap ranged) ∧
      ∀ kept, coalesceSourceRanges ranged = .ok kept → LaminarCover ranged kept ∧
        (∀ outer ∈ kept, outer.2.Nodup) ∧ ∀ inner ∈ ranged,
          (∃! range, range ∈ kept.map Prod.fst ∧ rangeContains range inner.1) ∨
            ∃ range ∈ kept.map Prod.fst, ∃ next ∈ kept.map Prod.fst,
              rangeEndKey inner.1 ≤ rangeEndKey range ∧ rangeEndKey range ≤ rangeKey next ∧
                rangeKey next ≤ rangeKey inner.1) ∧
    ∀ closure : LeanDeclarationClosure, (∀ shown, sourceDeclarationAliases closure ≠
        .error ⟨"source-declaration-anchor-missing", shown⟩) ∧
      ∀ aliases, sourceDeclarationAliases closure = .ok aliases →
        ∀ declaration ∈ closure.declarations, declaration.name ∈ aliases.map Prod.fst := by
  refine ⟨fun ranged => ⟨⟨fun ⟨error, herror⟩ => ?_, fun hoverlap => ?_⟩, fun kept hkept => ?_⟩,
    fun closure => ⟨fun shown h => ?_, fun aliases h declaration hmem => ?_⟩⟩
  · rcases coalesceSourceRanges_cases ranged with ⟨kept, hkept, -⟩ | ⟨-, hoverlap⟩
    · cases hkept.symm.trans herror
    · exact hoverlap
  · rcases coalesceSourceRanges_cases ranged with ⟨kept, -, hcover, -⟩ | ⟨herror, -⟩
    · exact absurd hoverlap hcover.not_overlap
    · exact herror
  · obtain ⟨hcover, hnodup⟩ := coalesceSourceRanges_ok hkept
    exact ⟨hcover, hnodup, fun inner hinner => hcover.exactly_one hinner⟩
  · rcases bind_eq_error.1 h with h | ⟨_, -, h⟩
    · simp at h
    rcases bind_eq_error.1 h with h | ⟨_, -, h⟩
    · obtain ⟨moduleName, -, h⟩ := mapM_eq_error h
      exact aliasesOfModule_error (fun _ => mem_of_mem_filter) h
    · cases h
  · obtain ⟨hmissing, h⟩ := then_eq_ok.1 h
    obtain ⟨modules, hmodules, h⟩ := bind_eq_ok.1 h
    cases h
    obtain ⟨pairs, hpairs, hmodule⟩ := forall₂_mem_right (forall₂_of_mapM hmodules).flip
      (mem_eraseDups.2 (mem_map_of_mem hmem))
    have hrange : declaration.sourceRange ≠ none := fun hnone =>
      filter_eq_nil_iff.1 (guardElse_eq_ok.1 hmissing) declaration hmem (by simp [hnone])
    have htotal := aliasesOfModule_total hmodule (fun _ => mem_of_mem_filter)
      (mem_filter.2 ⟨hmem, by simp⟩) hrange
    obtain ⟨pair, hpair, hname⟩ := mem_map.1 htotal
    rw [flatten_flatten]
    exact mem_map.2 ⟨pair, mem_flatten.2
      ⟨_, mem_map_of_mem hpairs, hpair⟩, hname⟩

/-- The empty range at column 1 ends the range before it and begins the one behind it. -/
theorem empty_range_in_two : ¬∀ ranged kept, (∀ inner ∈ ranged, inner.1.check = .ok ()) →
    coalesceSourceRanges ranged = .ok kept → ∀ inner ∈ ranged,
      ∃! range, range ∈ kept.map Prod.fst ∧ rangeContains range inner.1 := by
  intro h
  obtain ⟨range, -, hunique⟩ := h
    [(⟨1, 0, 0, 1, 1, 1⟩, ["a"]), (⟨1, 1, 1, 1, 2, 2⟩, ["b"]), (⟨1, 1, 1, 1, 1, 1⟩, ["c"])]
    [(⟨1, 0, 0, 1, 1, 1⟩, ["a", "c"]), (⟨1, 1, 1, 1, 2, 2⟩, ["b"])]
    (by decide) (by decide) (⟨1, 1, 1, 1, 1, 1⟩, ["c"]) (by decide)
  have hfirst := hunique ⟨1, 0, 0, 1, 1, 1⟩ (by decide)
  have hsecond := hunique ⟨1, 1, 1, 1, 2, 2⟩ (by decide)
  exact absurd (hfirst.trans hsecond.symm) (by decide)

end

end PooFlow.Axle
