import Mathlib.Data.List.Nodup
import Mathlib.Order.Nat

namespace PooFlow.Foundation

open List

variable {ν ι : Type*} (key : ν → ι) (links : ν → List ι) (rank : ι → ℕ)

/-- The chain of `nodes` from the identities `previous` to the identities `terminal`, with
ranks from `lower` on and below `upper`. -/
structure Succession (previous : List ι) (lower : ℕ) (nodes : List ν) (terminal : List ι)
    (upper : ℕ) : Prop where
  ordered : nodes.Pairwise fun node other => rank (key node) < rank (key other)
  above : ∀ node ∈ nodes, lower ≤ rank (key node)
  below : ∀ node ∈ nodes, rank (key node) < upper
  next : lower ≤ upper
  earlier : ∀ node ∈ nodes, ∀ id ∈ links node, rank id < rank (key node)
  known : ∀ node ∈ nodes, ∀ id ∈ links node, id ∈ previous ∨ ∃ other ∈ nodes, key other = id
  needs : nodes ≠ [] → ∀ id ∈ previous, ∃ node ∈ nodes, id ∈ links node
  needed : ∀ node ∈ nodes, key node ∈ terminal ∨ ∃ other ∈ nodes, key node ∈ links other
  terminal : nodes = [] ∧ terminal = previous ∨
    ∃ last ∈ nodes, terminal = [key last] ∧ ∀ node ∈ nodes, rank (key node) ≤ rank (key last)

variable {key links rank} {previous middle terminal : List ι} {lower between upper : ℕ}
  {nodes first second : List ν}

theorem Succession.nil (previous : List ι) (lower : ℕ) :
    Succession key links rank previous lower [] previous lower :=
  ⟨.nil, forall_mem_nil _, forall_mem_nil _, le_rfl, forall_mem_nil _,
    forall_mem_nil _, fun h => absurd rfl h, forall_mem_nil _, .inl ⟨rfl, rfl⟩⟩

theorem Succession.terminal_lt (h : Succession key links rank previous lower nodes terminal upper)
    (hnodes : nodes ≠ []) : terminal.Nodup ∧ ∀ id ∈ terminal, rank id < upper := by
  rcases h.terminal with ⟨hnil, -⟩ | ⟨last, hlast, hterminal, -⟩
  · exact absurd hnil hnodes
  · rw [hterminal]
    exact ⟨nodup_singleton _, forall_mem_singleton.2 (h.below last hlast)⟩

/-- **A chain goes on where another ends.** -/
theorem Succession.append (hfirst : Succession key links rank previous lower first middle between)
    (hnodes : first ≠ []) (hsecond : Succession key links rank middle between second terminal upper) :
    Succession key links rank previous lower (first ++ second) terminal upper where
  ordered := pairwise_append.2 ⟨hfirst.ordered, hsecond.ordered, fun node hnode other hother =>
    (hfirst.below node hnode).trans_le (hsecond.above other hother)⟩
  above := forall_mem_append.2
    ⟨hfirst.above, fun node hnode => hfirst.next.trans (hsecond.above node hnode)⟩
  below := forall_mem_append.2
    ⟨fun node hnode => (hfirst.below node hnode).trans_le hsecond.next, hsecond.below⟩
  next := hfirst.next.trans hsecond.next
  earlier := forall_mem_append.2 ⟨hfirst.earlier, hsecond.earlier⟩
  known := by
    refine forall_mem_append.2 ⟨fun node hnode id hid => ?_, fun node hnode id hid => ?_⟩
    · exact (hfirst.known node hnode id hid).imp_right fun ⟨other, hother, heq⟩ =>
        ⟨other, mem_append_left _ hother, heq⟩
    · rcases hsecond.known node hnode id hid with hmiddle | ⟨other, hother, heq⟩
      · rcases hfirst.terminal with ⟨hnil, -⟩ | ⟨last, hlast, hterminal, -⟩
        · exact absurd hnil hnodes
        · rw [hterminal, mem_singleton] at hmiddle
          exact .inr ⟨last, mem_append_left _ hlast, hmiddle.symm⟩
      · exact .inr ⟨other, mem_append_right _ hother, heq⟩
  needs := fun _ id hid => by
    obtain ⟨node, hnode, hneeds⟩ := hfirst.needs hnodes id hid
    exact ⟨node, mem_append_left _ hnode, hneeds⟩
  needed := by
    refine forall_mem_append.2 ⟨fun node hnode => ?_, fun node hnode => ?_⟩
    · rcases hfirst.needed node hnode with hterminal | ⟨other, hother, hneeds⟩
      · -- the last node of the first part is needed by the second part, unless that is empty
        by_cases hempty : second = []
        · rcases hsecond.terminal with ⟨-, hsame⟩ | ⟨last, hlast, -⟩
          · exact .inl (hsame ▸ hterminal)
          · rw [hempty] at hlast
            cases hlast
        · obtain ⟨other, hother, hneeds⟩ := hsecond.needs hempty (key node) hterminal
          exact .inr ⟨other, mem_append_right _ hother, hneeds⟩
      · exact .inr ⟨other, mem_append_left _ hother, hneeds⟩
    · rcases hsecond.needed node hnode with hterminal | ⟨other, hother, hneeds⟩
      · exact .inl hterminal
      · exact .inr ⟨other, mem_append_right _ hother, hneeds⟩
  terminal := by
    rcases hsecond.terminal with ⟨hempty, hsame⟩ | ⟨last, hlast, hterminal, hmax⟩
    · rcases hfirst.terminal with ⟨hnil, -⟩ | ⟨last, hlast, hterminal, hmax⟩
      · exact absurd hnil hnodes
      · refine .inr ⟨last, mem_append_left _ hlast, hsame.trans hterminal, ?_⟩
        rw [hempty, append_nil]
        exact hmax
    · refine .inr ⟨last, mem_append_right _ hlast, hterminal, forall_mem_append.2
        ⟨fun node hnode => ?_, hmax⟩⟩
      exact ((hfirst.below node hnode).trans_le (hsecond.above last hlast)).le

theorem Succession.precedes (h : Succession key links rank [] lower nodes terminal upper) {node : ν}
    (hnodes : nodes = first ++ node :: second) {id : ι} (hid : id ∈ links node) :
    ∃ other ∈ first, key other = id := by
  subst hnodes
  have hnode : node ∈ first ++ node :: second := by simp
  obtain ⟨other, hother, rfl⟩ := (h.known node hnode id hid).resolve_left not_mem_nil
  have hlt := h.earlier node hnode _ hid
  have hordered := (pairwise_append.1 h.ordered).2.1
  rcases mem_append.1 hother with hfirst | hsecond
  · exact ⟨other, hfirst, rfl⟩
  · rcases mem_cons.1 hsecond with rfl | hsecond
    · exact absurd hlt (lt_irrefl _)
    · exact absurd hlt ((pairwise_cons.1 hordered).1 other hsecond).asymm

/-- **A chain from nothing ends in one node**, or has none. -/
theorem Succession.last_unneeded {unneeded : ν → Bool}
    (h : Succession key links rank [] lower nodes terminal upper)
    (hunneeded : ∀ node, unneeded node = true ↔ ¬∃ other ∈ nodes, key node ∈ links other) :
    (nodes.filter unneeded).map key = terminal := by
  rcases h.terminal with ⟨hnil, hterminal⟩ | ⟨last, hlast, hterminal, hmax⟩
  · rw [hnil, hterminal]
    rfl
  · have hdistinct : (nodes.map key).Nodup :=
      pairwise_map.2 (h.ordered.imp fun hlt heq => absurd (heq ▸ hlt) (lt_irrefl _))
    rw [hterminal, ← perm_singleton, perm_ext_iff_of_nodup
      (hdistinct.sublist (filter_sublist.map _)) (nodup_singleton _)]
    intro id
    simp only [mem_map, mem_filter, hunneeded, mem_singleton]
    constructor
    · rintro ⟨node, ⟨hnode, hnone⟩, rfl⟩
      rcases h.needed node hnode with hlisted | hneeded
      · rwa [hterminal, mem_singleton] at hlisted
      · exact absurd hneeded hnone
    · rintro rfl
      refine ⟨last, ⟨hlast, ?_⟩, rfl⟩
      rintro ⟨node, hnode, hneeds⟩
      exact absurd (hmax node hnode) (not_le.2 (h.earlier node hnode _ hneeds))

end PooFlow.Foundation
