import PooFlow.Temporal.Events

namespace PooFlow.Temporal

open Foundation List

def Unavailable (eventGraph : CausalEventGraph) (asOfPosition : ℕ) (id : String) : Prop :=
  (∀ event ∈ eventGraph.events, event.identity ≠ id) ∨
    ∃ event ∈ eventGraph.events, event.identity = id ∧
      (event.committed = false ∨ asOfPosition < event.position)

/-- A cut holds the committed events up to its position, it misses their unavailable
parents, and it holds all their ancestors when it misses none. -/
structure ExactCut (eventGraph : CausalEventGraph) (asOfPosition : ℕ) (cut : CausalCut) : Prop where
  holds : ∀ event, event ∈ cut.events ↔
    event ∈ eventGraph.events ∧ event.committed = true ∧ event.position ≤ asOfPosition
  missing : ∀ parent, parent ∈ cut.missingParentIdentities ↔
    (∃ event ∈ cut.events, parent ∈ event.causalParentIdentities) ∧
      Unavailable eventGraph asOfPosition parent
  once : cut.missingParentIdentities.Nodup
  closed : cut.missingParentIdentities = [] → ∀ event ∈ cut.events, ∀ ancestor,
    Relation.TransGen (ParentOf eventGraph.events) ancestor event.identity →
      ∃ source ∈ cut.events, source.identity = ancestor

variable {subject : String} {events : List CausalEvent}

theorem indexEvents_of {index : List CausalEvent}
    (hsubject : ∀ event ∈ events, event.subject = subject)
    (hparents : ∀ event ∈ events, event.causalParentIdentities.Nodup)
    (hdistinct : ((events.reverse ++ index).map CausalEvent.identity).Nodup) :
    indexEvents subject events index = .ok (events.reverse ++ index) := by
  induction events generalizing index with
  | nil => rfl
  | cons event events ih =>
    rw [reverse_cons, append_assoc] at hdistinct ⊢
    have hnew : ∀ known ∈ index, known.identity ≠ event.identity := by
      intro known hknown hsame
      rw [map_append, nodup_append] at hdistinct
      have hindex := (nodup_cons.1 hdistinct.2.1).1
      exact hindex (hsame ▸ mem_map_of_mem hknown)
    rw [indexEvents, guardElse_of (hsubject event mem_cons_self), ok_bind,
      guardElse_of (hparents event mem_cons_self), ok_bind, guardElse_of hnew, ok_bind]
    exact ih (fun other hother => hsubject other (mem_cons_of_mem _ hother))
      (fun other hother => hparents other (mem_cons_of_mem _ hother)) hdistinct

theorem causalEventsAnalyze_of (htext : Text subject) (hevents : events ≠ [])
    (hshape : ∀ event ∈ events, event.Shape) (hsubject : ∀ event ∈ events, event.subject = subject)
    (hdistinct : (events.map CausalEvent.identity).Nodup) :
    ∃ analysis, causalEventsAnalyze subject events = .ok analysis := by
  rw [causalEventsAnalyze, guardElse_of ⟨htext, hevents, hshape⟩, ok_bind,
    indexEvents_of hsubject (fun event hevent => (hshape event hevent).2.2.2.2.2.1) ?_]
  · exact ⟨_, rfl⟩
  · rwa [append_nil, map_reverse, nodup_reverse]

theorem Analyzes.shape_inventory {analysis : Analysis} (h : Analyzes subject events analysis)
    {identity : String} (hidentity : Text identity) (hsubject : Text subject)
    (hevents : events ≠ []) :
    CausalInventory.Shape ⟨identity, subject, analysis.ordered, analysis.eventIndex,
      analysis.missing, analysis.violations⟩ := by
  have hperm : analysis.ordered.Perm events := h.ordered ▸ perm_sortEvents events
  have hindex : (analysis.eventIndex.map CausalEvent.identity).Nodup := by
    rw [h.index, map_reverse, nodup_reverse]
    exact h.distinct
  refine ⟨hidentity, hsubject, fun hnil => hevents (hperm.symm.trans (.of_eq hnil)).eq_nil, ?_,
    ?_, ?_, ?_, ?_, ?_⟩
  · exact fun event hevent => h.shape event (hperm.mem_iff.1 hevent)
  · exact fun event hevent => h.subject event (hperm.mem_iff.1 hevent)
  · exact (hperm.map _).nodup_iff.2 h.distinct
  · intro event hevent
    rw [eventAt_eq_some hindex, h.index, mem_reverse]
    exact ⟨hperm.mem_iff.1 hevent, rfl⟩
  · intro parent hparent
    obtain ⟨⟨event, hevent, hmem⟩, _⟩ := (h.missing parent).1 hparent
    exact (h.shape event hevent).2.2.2.2.1 parent hmem
  · intro violation hviolation
    obtain ⟨event, hevent, parent, hparent, _, _, rfl⟩ := (h.violations violation).1 hviolation
    exact ⟨(h.shape parent hparent).1, (h.shape event hevent).1⟩

section

variable {sha256 : Bytes → Digest} {write : Datum → String} {eventGraph : CausalEventGraph}
  {asOfPosition : ℕ} {cut : CausalCut}

variable {event : CausalEvent} {id : String}

theorem mem_committedEvents : event ∈ committedEvents eventGraph asOfPosition ↔
      event ∈ eventGraph.events ∧ event.committed = true ∧ event.position ≤ asOfPosition := by
  rw [committedEvents, mem_filter, decide_eq_true_eq]

/-- **A graph has a cut** where it has a committed event. -/
theorem causalCut_exists : (∃ cut, causalCut sha256 write eventGraph asOfPosition = .ok cut) ↔
      eventGraph.Shape ∧ ∃ event ∈ eventGraph.events,
        event.committed = true ∧ event.position ≤ asOfPosition := by
  have hsome : committedEvents eventGraph asOfPosition ≠ [] ↔
      ∃ event ∈ eventGraph.events, event.committed = true ∧ event.position ≤ asOfPosition := by
    rw [← isEmpty_eq_false_iff, isEmpty_eq_false_iff_exists_mem]
    exact exists_congr fun event => mem_committedEvents
  rw [← hsome]
  constructor
  · rintro ⟨cut, hcut⟩
    rw [causalCut] at hcut
    simp only [bind_eq_ok, guardElse_eq_ok, exists_const] at hcut
    exact ⟨hcut.1, hcut.2.1⟩
  · rintro ⟨hshape, hcommitted⟩
    have hgraph : ∀ event ∈ committedEvents eventGraph asOfPosition, event ∈ eventGraph.events :=
      fun event hevent => (mem_committedEvents.1 hevent).1
    obtain ⟨analysis, hanalysis⟩ := causalEventsAnalyze_of hshape.2.1 hcommitted
      (fun event hevent => hshape.2.2.2.1 event (hgraph event hevent))
      (fun event hevent => hshape.2.2.2.2.1 event (hgraph event hevent))
      (hshape.2.2.2.2.2.1.sublist (filter_sublist.map _))
    have hanalyzes := causalEventsAnalyze_ok hanalysis
    rw [causalCut, guardElse_of hshape, ok_bind, guardElse_of hcommitted, ok_bind, hanalysis,
      ok_bind]
    dsimp only
    refine exists_bind_ok (guardElse_of
      ⟨hanalyzes.shape_inventory (text_digest _) hshape.2.1 hcommitted, hshape.1, ?_⟩) ⟨_, rfl⟩
    intro event hevent
    exact (mem_committedEvents.1 ((perm_committedEvents hanalyzes).mem_iff.1 hevent)).2

section

variable (hcut : causalCut sha256 write eventGraph asOfPosition = .ok cut)

include hcut

theorem mem_cut_events : event ∈ cut.events ↔
      event ∈ eventGraph.events ∧ event.committed = true ∧ event.position ≤ asOfPosition := by
  obtain ⟨analysis, hanalyzes, _, hevents, _⟩ := causalCut_ok hcut
  rw [hevents, (perm_committedEvents hanalyzes).mem_iff, mem_committedEvents]

theorem mem_cut_missing : id ∈ cut.missingParentIdentities ↔
      (∃ child ∈ cut.events, id ∈ child.causalParentIdentities) ∧
        ∀ event ∈ cut.events, event.identity ≠ id := by
  obtain ⟨analysis, hanalyzes, _, hevents, _, hmissing, _⟩ := causalCut_ok hcut
  have hmem : ∀ event, event ∈ cut.events ↔ event ∈ committedEvents eventGraph asOfPosition :=
    fun event => hevents ▸ (perm_committedEvents hanalyzes).mem_iff
  simp only [hmissing, hanalyzes.missing, hmem]

theorem unavailable_iff :
    Unavailable eventGraph asOfPosition id ↔ ∀ event ∈ cut.events, event.identity ≠ id := by
  have hshape : eventGraph.Shape := (causalCut_exists.1 ⟨cut, hcut⟩).1
  have hsame : ∀ event ∈ eventGraph.events, ∀ other ∈ eventGraph.events,
      event.identity = other.identity → event = other := fun event hevent other hother =>
    inj_on_of_nodup_map hshape.2.2.2.2.2.1 hevent hother
  constructor
  · rintro (habsent | ⟨found, hfound, rfl, hlate⟩) event hevent hidentity
    · exact habsent event ((mem_cut_events hcut).1 hevent).1 hidentity
    · obtain ⟨hgraph, hcommitted, hposition⟩ := (mem_cut_events hcut).1 hevent
      obtain rfl := hsame event hgraph found hfound hidentity
      apply hlate.elim
      · intro huncommitted
        rw [hcommitted] at huncommitted
        cases huncommitted
      · intro hlater
        omega
  · intro hnone
    by_cases hpresent : ∃ event ∈ eventGraph.events, event.identity = id
    · obtain ⟨event, hevent, hidentity⟩ := hpresent
      refine .inr ⟨event, hevent, hidentity, ?_⟩
      by_contra havailable
      push Not at havailable
      refine hnone event ((mem_cut_events hcut).2 ⟨hevent, ?_, havailable.2⟩) hidentity
      exact (Bool.not_eq_false _).mp havailable.1
    · exact .inl fun event hevent hidentity => hpresent ⟨event, hevent, hidentity⟩

theorem parent_mem_cut (hclosed : cut.missingParentIdentities = []) (hevent : event ∈ cut.events)
    {parent : String} (hparent : ParentOf eventGraph.events parent event.identity) :
    ∃ source ∈ cut.events, source.identity = parent := by
  have hshape : eventGraph.Shape := (causalCut_exists.1 ⟨cut, hcut⟩).1
  obtain ⟨child, hchild, hidentity, hmem⟩ := hparent
  obtain rfl : child = event := inj_on_of_nodup_map hshape.2.2.2.2.2.1 hchild
    ((mem_cut_events hcut).1 hevent).1 hidentity
  by_contra hnone
  have hlisted : parent ∈ cut.missingParentIdentities :=
    (mem_cut_missing hcut).2 ⟨⟨child, hevent, hmem⟩,
      fun other hother hsame => hnone ⟨other, hother, hsame⟩⟩
  rw [hclosed] at hlisted
  cases hlisted

theorem causalCut_exact : ExactCut eventGraph asOfPosition cut := by
  refine ⟨fun event => mem_cut_events hcut, fun parent => ?_, ?_, ?_⟩
  · rw [mem_cut_missing hcut, unavailable_iff hcut]
  · obtain ⟨analysis, hanalyzes, _, _, _, hmissing, _⟩ := causalCut_ok hcut
    rw [hmissing]
    exact hanalyzes.missing_nodup
  · intro hclosed event hevent ancestor hpath
    -- from the event back to the ancestor, one parent at a time
    induction hpath using Relation.TransGen.head_induction_on with
    | single hparent => exact parent_mem_cut hcut hclosed hevent hparent
    | head hparent _ ih =>
      obtain ⟨source, hsource, rfl⟩ := ih
      exact parent_mem_cut hcut hclosed hsource hparent

end

end

/-- **Causal cuts are exact, closed and monotone.** -/
theorem causal_cut_exact (sha256 : Bytes → Digest) (write : Datum → String)
    (eventGraph : CausalEventGraph) :
    (∀ asOfPosition, (∃ cut, causalCut sha256 write eventGraph asOfPosition = .ok cut) ↔
      eventGraph.Shape ∧ ∃ event ∈ eventGraph.events,
        event.committed = true ∧ event.position ≤ asOfPosition) ∧
    (∀ asOfPosition cut, causalCut sha256 write eventGraph asOfPosition = .ok cut →
      ExactCut eventGraph asOfPosition cut) ∧
    ∀ earlier later cut cut', earlier ≤ later →
      causalCut sha256 write eventGraph earlier = .ok cut →
      causalCut sha256 write eventGraph later = .ok cut' →
        ∀ event ∈ cut.events, event ∈ cut'.events := by
  refine ⟨fun _ => causalCut_exists, fun _ _ => causalCut_exact, ?_⟩
  intro earlier later cut cut' hle hcut hcut' event hevent
  obtain ⟨hgraph, hcommitted, hposition⟩ := (mem_cut_events hcut).1 hevent
  exact (mem_cut_events hcut').2 ⟨hgraph, hcommitted, hposition.trans hle⟩

theorem release_cuts_exact : ∃ graph cut cut',
    causalEventGraph checksum writeDatum "release" releaseEvents = .ok graph ∧
      causalCut checksum writeDatum graph 1 = .ok cut ∧
      causalCut checksum writeDatum graph 2 = .ok cut' ∧
      ExactCut graph 2 cut' ∧ ∀ event ∈ cut.events, event ∈ cut'.events := by
  obtain ⟨graph, hgraph, ⟨cut, hcut⟩, cut', hcut'⟩ : ∃ graph,
      causalEventGraph checksum writeDatum "release" releaseEvents = .ok graph ∧
        (∃ cut, causalCut checksum writeDatum graph 1 = .ok cut) ∧
          ∃ cut, causalCut checksum writeDatum graph 2 = .ok cut := by decide +kernel
  obtain ⟨_, hexact, hgrows⟩ := causal_cut_exact checksum writeDatum graph
  exact ⟨graph, cut, cut', hgraph, hcut, hcut', hexact 2 cut' hcut',
    hgrows 1 2 cut cut' (by omega) hcut hcut'⟩

end PooFlow.Temporal
