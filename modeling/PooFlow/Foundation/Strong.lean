import Mathlib.Data.List.Chain
import Mathlib.Data.List.Count
import Mathlib.Tactic.Ring

namespace PooFlow.Foundation

open List Relation

section

variable {α ε : Type*} (source target : ε → α) (edges : List ε)

def Leads (a b : α) : Prop := ∃ edge ∈ edges, source edge = a ∧ target edge = b

open Classical in
noncomputable def edgesAhead (a : α) : ℕ :=
  edges.countP fun edge => Relation.ReflTransGen (Leads source target edges) a (source edge)

variable {source target edges}

theorem edgesAhead_le (a : α) : edgesAhead source target edges a ≤ edges.length :=
  countP_le_length

/-- A value that only one of two predicates has makes a difference to their counts. -/
theorem countP_lt_of_imp {p q : ε → Bool} (himp : ∀ a, p a → q a) {a : ε} {values : List ε}
    (ha : a ∈ values) (hq : q a = true) (hp : p a = false) : values.countP p < values.countP q := by
  obtain ⟨front, back, rfl⟩ := append_of_mem ha
  rw [countP_append, countP_append, countP_cons_of_pos hq, countP_cons_of_neg (by simp [hp])]
  have hfront := countP_mono_left (l := front) fun b _ => himp b
  have hback := countP_mono_left (l := back) fun b _ => himp b
  omega

/-- **Each edge leaves fewer edges ahead**, if no node leads back to itself. -/
theorem edgesAhead_lt (hacyclic : ∀ a, ¬TransGen (Leads source target edges) a a)
    {edge : ε} (hedge : edge ∈ edges) : edgesAhead source target edges (target edge) <
      edgesAhead source target edges (source edge) := by
  have hleads : Leads source target edges (source edge) (target edge) := ⟨edge, hedge, rfl, rfl⟩
  classical
  refine countP_lt_of_imp (fun ahead hahead => ?_) hedge ?_ ?_
  · exact decide_eq_true (.head hleads (of_decide_eq_true hahead))
  · exact decide_eq_true .refl
  · exact decide_eq_false fun hback => hacyclic _ (.head' hleads hback)

end

variable {α ι : Type*} {R : α → α → Prop}

/-- Each value leads to the other. -/
def Strong (R : α → α → Prop) (a b : α) : Prop :=
  Relation.ReflTransGen R a b ∧ Relation.ReflTransGen R b a

theorem Strong.refl (a : α) : Strong R a a := ⟨.refl, .refl⟩

theorem Strong.symm {a b : α} (h : Strong R a b) : Strong R b a := ⟨h.2, h.1⟩

theorem Strong.trans {a b c : α} (hab : Strong R a b) (hbc : Strong R b c) : Strong R a c :=
  ⟨hab.1.trans hbc.1, hbc.2.trans hab.2⟩

theorem mem_of_reflTransGen {S : α → Prop} (hclosed : ∀ a b, S a → R a b → S b) {a b : α}
    (ha : S a) (hpath : ReflTransGen R a b) : S b := by
  induction hpath with
  | refl => exact ha
  | tail _ hstep ih => exact hclosed _ _ ih hstep

/-- A value lies on a cycle when it leads to itself, or to another value and back. -/
theorem transGen_self_iff {a : α} :
    TransGen R a a ↔ R a a ∨ ∃ b, b ≠ a ∧ Strong R a b := by
  constructor
  · intro hcycle
    obtain ⟨b, hstep, hback⟩ := TransGen.head'_iff.1 hcycle
    by_cases hself : b = a
    · subst hself
      exact .inl hstep
    · exact .inr ⟨b, hself, .single hstep, hback⟩
  · rintro (hstep | ⟨b, hother, hthere, hback⟩)
    · exact .single hstep
    · rcases Relation.reflTransGen_iff_eq_or_transGen.1 hthere with rfl | hthere
      · exact absurd rfl hother
      · exact hthere.trans_left hback

/-- The values of a cycle, in their order, lead to one another. -/
theorem exists_isChain_of_transGen {a b : α} (hpath : TransGen R a b) :
    ∃ inner : List α, (a :: (inner ++ [b])).IsChain R ∧
      ∀ c ∈ inner, ReflTransGen R a c ∧ ReflTransGen R c b := by
  induction hpath using TransGen.head_induction_on with
  | single hstep =>
    exact ⟨[], isChain_cons_cons.2 ⟨hstep, isChain_singleton _⟩, fun c hc => absurd hc not_mem_nil⟩
  | @head a c hstep hrest ih =>
    obtain ⟨inner, hchain, hinner⟩ := ih
    refine ⟨c :: inner, isChain_cons_cons.2 ⟨hstep, hchain⟩, fun d hd => ?_⟩
    rcases mem_cons.1 hd with rfl | hd
    · exact ⟨.single hstep, hrest.to_reflTransGen⟩
    · exact ⟨.head hstep (hinner d hd).1, (hinner d hd).2⟩

/-- **The relation between classes has no cycle**, where values have the same index when
they are strongly connected. -/
theorem quotient_acyclic {P : α → Prop} {index : α → ι} (hR : ∀ a b, R a b → P a ∧ P b)
    (hindex : ∀ a b, P a → P b → (index a = index b ↔ Strong R a b)) (i : ι) :
    ¬TransGen (fun i j => i ≠ j ∧ ∃ a b, R a b ∧ index a = i ∧ index b = j) i i := by
  -- a path between classes is one between any of their values
  have hlift : ∀ {i j : ι},
      TransGen (fun i j => i ≠ j ∧ ∃ a b, R a b ∧ index a = i ∧ index b = j) i j →
      ∀ a b, P a → P b → index a = i → index b = j → ReflTransGen R a b := by
    intro i j hpath
    induction hpath with
    | single hstep =>
      rintro a b ha hb rfl rfl
      obtain ⟨-, c, d, hcd, hc, hd⟩ := hstep
      obtain ⟨hPc, hPd⟩ := hR c d hcd
      exact (((hindex a c ha hPc).1 hc.symm).1.tail hcd).trans ((hindex d b hPd hb).1 hd).1
    | tail _ hstep ih =>
      rintro a b ha hb hai rfl
      obtain ⟨-, c, d, hcd, hc, hd⟩ := hstep
      obtain ⟨hPc, hPd⟩ := hR c d hcd
      exact ((ih a c ha hPc hai hc).tail hcd).trans ((hindex d b hPd hb).1 hd).1
  intro hcycle
  obtain ⟨j, ⟨hne, a, b, hab, rfl, rfl⟩, hback⟩ := TransGen.head'_iff.1 hcycle
  obtain ⟨ha, hb⟩ := hR a b hab
  rcases Relation.reflTransGen_iff_eq_or_transGen.1 hback with heq | hback
  · exact hne heq
  · exact hne ((hindex a b ha hb).2 ⟨.single hab, hlift hback b a hb ha rfl rfl⟩)

end PooFlow.Foundation
