import PooFlow.Temporal.Revisions

/-! `truth-maintenance/types.ss` and `funs.ss`: the index of derivations and the plan of the
conclusions that a change of evidence reaches. -/

namespace PooFlow.Temporal

open Foundation List
open Except (ok.inj)

structure Derivation where
  identity : String
  cutDigest : String
  projectionDigest : String
  policyIdentity : String
  subjectPremises : List String
  conclusionPremises : List String

def Derivation.Shape (value : Derivation) : Prop :=
  (∀ text ∈ [value.identity, value.cutDigest, value.projectionDigest, value.policyIdentity],
    Text text) ∧
  (∀ text ∈ value.subjectPremises, Text text) ∧ ∀ text ∈ value.conclusionPremises, Text text

instance : DecidablePred Derivation.Shape := fun _ => inferInstanceAs (Decidable (_ ∧ _ ∧ _))

structure DependencyIndex where
  identity : String
  semanticDigest : String
  cutDigest : String
  projectionDigest : String
  inventoryComplete : Bool
  derivations : List Derivation

def DependencyIndex.Shape (value : DependencyIndex) : Prop :=
  (∀ text ∈ [value.identity, value.semanticDigest, value.cutDigest, value.projectionDigest],
    Text text) ∧
  ∀ derivation ∈ value.derivations, derivation.Shape

instance : DecidablePred DependencyIndex.Shape := fun _ => inferInstanceAs (Decidable (_ ∧ _))

inductive PlanTrigger where
  | premiseDelta | validTimeReprojection

inductive PlanStatus where
  | scopedComplete | partialInventory

structure InvalidationPlan where
  indexIdentity : String
  indexDigest : String
  previousCutDigest : String
  revisedCutDigest : String
  previousProjectionDigest : String
  revisedProjectionDigest : String
  changedSubjectIdentities : List String
  affectedConclusionIdentities : List String
  scheduledForReevaluationIdentities : List String
  inventoryComplete : Bool
  trigger : PlanTrigger
  status : PlanStatus

def InvalidationPlan.Shape (value : InvalidationPlan) : Prop :=
  (∀ text ∈ [value.indexIdentity, value.indexDigest, value.previousCutDigest,
    value.revisedCutDigest, value.previousProjectionDigest, value.revisedProjectionDigest],
    Text text) ∧
  ∀ texts ∈ [value.changedSubjectIdentities, value.affectedConclusionIdentities,
    value.scheduledForReevaluationIdentities], ∀ text ∈ texts, Text text

instance : DecidablePred InvalidationPlan.Shape := fun _ => inferInstanceAs (Decidable (_ ∧ _))

def subjectChildren (derivations : List Derivation) : String → List String :=
  collect (derivations.flatMap fun entry =>
    entry.subjectPremises.map fun subject => (subject, entry.identity))

def conclusionChildren (derivations : List Derivation) : String → List String :=
  collect (derivations.flatMap fun entry =>
    entry.conclusionPremises.map fun parent => (parent, entry.identity))

variable {subject : String} {derivations : List Derivation}

theorem mem_subjectChildren {id : String} : id ∈ subjectChildren derivations subject ↔
      ∃ entry ∈ derivations, entry.identity = id ∧ subject ∈ entry.subjectPremises := by
  simp only [subjectChildren, mem_collect, mem_flatMap, mem_map, Prod.mk.injEq]
  constructor
  · rintro ⟨entry, hentry, _, hpremise, rfl, rfl⟩
    exact ⟨entry, hentry, rfl, hpremise⟩
  · rintro ⟨entry, hentry, rfl, hpremise⟩
    exact ⟨entry, hentry, subject, hpremise, rfl, rfl⟩

theorem mem_conclusionChildren {parent id : String} : id ∈ conclusionChildren derivations parent ↔
      ∃ entry ∈ derivations, entry.identity = id ∧ parent ∈ entry.conclusionPremises := by
  simp only [conclusionChildren, mem_collect, mem_flatMap, mem_map, Prod.mk.injEq]
  constructor
  · rintro ⟨entry, hentry, _, hpremise, rfl, rfl⟩
    exact ⟨entry, hentry, rfl, hpremise⟩
  · rintro ⟨entry, hentry, rfl, hpremise⟩
    exact ⟨entry, hentry, parent, hpremise, rfl, rfl⟩

def reverseGraph (derivations : List Derivation) : Network String where
  nodes := derivations.map Derivation.identity
  children := conclusionChildren derivations
  closed := by
    intro parent child hchild
    obtain ⟨entry, hentry, rfl, _⟩ := mem_conclusionChildren.1 hchild
    exact mem_map.2 ⟨entry, hentry, rfl⟩

/-- `initial`: the conclusions with a changed subject among their premises. -/
def initialFront (derivations : List Derivation) (changed : List String) :
    List (reverseGraph derivations).Node :=
  changed.flatMap fun subject =>
    (subjectChildren derivations subject).pmap Subtype.mk fun _ hid => by
      obtain ⟨entry, hentry, rfl, _⟩ := mem_subjectChildren.1 hid
      exact mem_map.2 ⟨entry, hentry, rfl⟩

/-- The loop of `poo-flow-temporal-reverse-dependency-plan`. -/
def affectedConclusions (derivations : List Derivation) (changed : List String) : List String :=
  (reverseGraph derivations).search (initialFront derivations changed) [] []

/-- `poo-flow-temporal-invalidation-plan-value`. -/
def invalidationPlan (indexIdentity indexDigest oldCut newCut oldProjection newProjection : String)
    (changed affected : List String) (complete : Bool) (trigger : PlanTrigger) :
    Except Condition InvalidationPlan := do
  let plan : InvalidationPlan := {
    indexIdentity, indexDigest
    previousCutDigest := oldCut
    revisedCutDigest := newCut
    previousProjectionDigest := oldProjection
    revisedProjectionDigest := newProjection
    changedSubjectIdentities := changed
    affectedConclusionIdentities := affected
    scheduledForReevaluationIdentities := affected
    inventoryComplete := complete
    trigger
    status := if complete then .scopedComplete else .partialInventory }
  guardElse plan.Shape .invalid
  return plan

def reverseDependencyPlan (index : DependencyIndex)
    (revisedCutDigest revisedProjectionDigest : String) (changed : List String) :
    Except Condition InvalidationPlan := do
  guardElse (index.Shape ∧ Text revisedCutDigest ∧ Text revisedProjectionDigest ∧
      (∀ subject ∈ changed, Text subject) ∧ changed.Nodup)
    (raise "invalid temporal invalidation input" [])
  guardElse (¬(changed ≠ [] ∧ index.cutDigest = revisedCutDigest ∧
      index.projectionDigest = revisedProjectionDigest))
    (raise "changed premises require a revised cut or projection" [])
  let affected := affectedConclusions index.derivations changed
  invalidationPlan index.identity index.semanticDigest index.cutDigest revisedCutDigest
    index.projectionDigest revisedProjectionDigest (sortTexts changed) (sortTexts affected)
    index.inventoryComplete .premiseDelta

/-- `revision-subject`: the subject of the last revision with the identity. -/
def revisionSubject (revisions : List EvidenceRevision) (id : String) : Option String :=
  (revisions.reverse.find? fun revision => revision.identity = id).map
    EvidenceRevision.subjectIdentity

/-- `record!`: the visible revisions with their subjects. -/
def recordSnapshot (revisions : List EvidenceRevision) (snapshot : EvidenceSnapshot) :
    Except Condition (List (String × String)) := do
  guardElse snapshot.visibleRevisionIdentities.Nodup
    (raise "duplicate visible revision in temporal cut" [])
  snapshot.visibleRevisionIdentities.mapM fun id => do
    let subject ← presentElse (revisionSubject revisions id)
      (raise "temporal cut references an unknown revision" [id])
    return (subject, id)

def changedSubjects (before after : List (String × String)) : List String :=
  (deleteDuplicates ((before ++ after).map Prod.fst).reverse).filter fun subject =>
    sortTexts (collect before subject) ≠ sortTexts (collect after subject)

section

variable (sha256 : Bytes → Digest) (write : Datum → String)

def reverseDependencyPlanFromCuts (index : DependencyIndex) (journal : EvidenceJournal)
    (previousAsOf revisedAsOf : Instant) (validAt : Option Instant) :
    Except Condition InvalidationPlan := do
  guardElse (index.Shape ∧ journal.Shape) (raise "invalid temporal evidence journal or index" [])
  let previous ← evidenceAsOf sha256 write journal previousAsOf validAt
  let revised ← evidenceAsOf sha256 write journal revisedAsOf validAt
  guardElse (index.cutDigest = previous.cutDigest ∧
      index.projectionDigest = previous.projectionDigest)
    (raise "temporal dependency index differs from the replayed prior query" [])
  let before ← recordSnapshot journal.revisions previous
  let after ← recordSnapshot journal.revisions revised
  reverseDependencyPlan index revised.cutDigest revised.projectionDigest
    (changedSubjects before after)

end

def RestsOn (derivations : List Derivation) (conclusion parent : String) : Prop :=
  ∃ entry ∈ derivations, entry.identity = conclusion ∧ parent ∈ entry.conclusionPremises

variable {derivations : List Derivation} {changed : List String} {revisions : List EvidenceRevision}

theorem leads_iff {parent child : String} :
    (reverseGraph derivations).Leads parent child ↔ RestsOn derivations child parent :=
  mem_conclusionChildren

theorem mem_initialFront {node : (reverseGraph derivations).Node} :
    node ∈ initialFront derivations changed ↔
      ∃ entry ∈ derivations, entry.identity = node.1 ∧
        ∃ subject ∈ entry.subjectPremises, subject ∈ changed := by
  simp only [initialFront, mem_flatMap, mem_pmap]
  constructor
  · rintro ⟨subject, hsubject, id, hid, rfl⟩
    obtain ⟨entry, hentry, hidentity, hpremise⟩ := mem_subjectChildren.1 hid
    exact ⟨entry, hentry, hidentity, subject, hpremise, hsubject⟩
  · rintro ⟨entry, hentry, hidentity, subject, hpremise, hsubject⟩
    exact ⟨subject, hsubject, node.1,
      mem_subjectChildren.2 ⟨entry, hentry, hidentity, hpremise⟩, rfl⟩

/-- **A plan holds what rests on a changed subject.** -/
theorem mem_affected {id : String} : id ∈ affectedConclusions derivations changed ↔
      ∃ entry ∈ derivations, (∃ subject ∈ entry.subjectPremises, subject ∈ changed) ∧
        Relation.ReflTransGen (RestsOn derivations) id entry.identity := by
  have hswap : ∀ {a b : String}, Relation.ReflTransGen (reverseGraph derivations).Leads a b ↔
        Relation.ReflTransGen (RestsOn derivations) b a := by
    intro a b
    have hreversed : Function.swap (reverseGraph derivations).Leads = RestsOn derivations :=
      funext₂ fun _ _ => propext leads_iff
    rw [← Relation.reflTransGen_swap, hreversed]
  rw [affectedConclusions, Network.mem_search]
  constructor
  · rintro ⟨start, hstart, hpath⟩
    obtain ⟨entry, hentry, hidentity, hchanged⟩ := mem_initialFront.1 hstart
    refine ⟨entry, hentry, hchanged, ?_⟩
    rw [hidentity]
    exact hswap.1 hpath
  · rintro ⟨entry, hentry, hchanged, hpath⟩
    exact ⟨⟨entry.identity, mem_map.2 ⟨entry, hentry, rfl⟩⟩,
      mem_initialFront.2 ⟨entry, hentry, rfl, hchanged⟩, hswap.2 hpath⟩

theorem nodup_affected (derivations : List Derivation) (changed : List String) :
    (affectedConclusions derivations changed).Nodup :=
  (reverseGraph derivations).nodup_search nodup_nil

variable {index : DependencyIndex}

/-- **What a plan says** about the changed subjects. -/
theorem reverseDependencyPlan_ok {revisedCut revisedProjection : String} {plan : InvalidationPlan}
    (h : reverseDependencyPlan index revisedCut revisedProjection changed = .ok plan) :
    plan.affectedConclusionIdentities = sortTexts (affectedConclusions index.derivations changed) := by
  rw [reverseDependencyPlan] at h
  simp only [bind_eq_ok] at h
  obtain ⟨_, _, _, _, h⟩ := h
  rw [invalidationPlan] at h
  simp only [bind_eq_ok] at h
  obtain ⟨_, _, hplan⟩ := h
  obtain rfl := ok.inj hplan
  rfl

theorem revisionSubject_eq (h : Ordered revisions) {revision : EvidenceRevision}
    (hmem : revision ∈ revisions) :
    revisionSubject revisions revision.identity = some revision.subjectIdentity := by
  rw [revisionSubject]
  cases hfound : revisions.reverse.find? fun known => known.identity = revision.identity with
  | none =>
    have hall := List.find?_eq_none.1 hfound revision (mem_reverse.2 hmem)
    simp at hall
  | some known =>
    have hknown := mem_reverse.1 (mem_of_find?_eq_some hfound)
    have hidentity : known.identity = revision.identity := by simpa using List.find?_some hfound
    rw [h.eq_of_identity hknown hmem hidentity]
    rfl

theorem recordSnapshot_ok {visible : List EvidenceRevision} (h : Ordered revisions)
    (hvisible : visible ⊆ revisions) {snapshot : EvidenceSnapshot}
    {entries : List (String × String)}
    (hsnapshot : snapshot.visibleRevisionIdentities = visible.map EvidenceRevision.identity)
    (hrecord : recordSnapshot revisions snapshot = .ok entries) :
    entries = visible.map fun revision => (revision.subjectIdentity, revision.identity) := by
  rw [recordSnapshot, hsnapshot] at hrecord
  obtain ⟨_, -, hmap⟩ := bind_eq_ok.1 hrecord
  clear hsnapshot hrecord
  induction visible generalizing entries with
  | nil => exact (ok.inj hmap).symm
  | cons revision visible ih =>
    rw [map_cons, mapM_cons, revisionSubject_eq h (hvisible mem_cons_self)] at hmap
    obtain ⟨first, hfirst, hmap⟩ := bind_eq_ok.1 hmap
    obtain ⟨rest, hrest, hmap⟩ := bind_eq_ok.1 hmap
    obtain rfl := ok.inj hmap
    obtain rfl := ok.inj hfirst
    rw [ih (fun later hlater => hvisible (mem_cons_of_mem _ hlater)) hrest]
    rfl

theorem collect_visible (visible : List EvidenceRevision) (subject : String) :
    collect (visible.map fun revision => (revision.subjectIdentity, revision.identity)) subject =
      ((ofSubject visible subject).map EvidenceRevision.identity).reverse := by
  rw [collect_eq, filter_map, map_map]
  rfl

theorem ofSubject_eq_iff (h : Ordered revisions) (asOf asOf' : Instant) (subject : String) :
    sortTexts ((ofSubject (visibleRevisions revisions asOf) subject).map
          EvidenceRevision.identity).reverse =
        sortTexts ((ofSubject (visibleRevisions revisions asOf') subject).map
          EvidenceRevision.identity).reverse ↔
      ofSubject (visibleRevisions revisions asOf) subject =
        ofSubject (visibleRevisions revisions asOf') subject := by
  constructor
  · intro hsorted
    have hperm := sortTexts_eq_iff.1 hsorted
    rw [ofSubject, ofSubject, visibleRevisions, visibleRevisions, filter_filter, filter_filter]
    refine filter_congr fun revision hrevision => ?_
    by_cases hsubject : revision.subjectIdentity = subject
    · -- identities are distinct, so an identity is listed when its revision is visible
      have hmem : ∀ instant, revision.identity ∈ ((ofSubject (visibleRevisions revisions instant)
          subject).map EvidenceRevision.identity).reverse ↔
          revision.admissionInstant.coordinate ≤ instant.coordinate := by
        intro instant
        simp only [mem_reverse, mem_map, ofSubject, visibleRevisions, mem_filter, decide_eq_true_eq]
        constructor
        · rintro ⟨other, ⟨⟨hother, hcoordinate⟩, _⟩, hidentity⟩
          rwa [← h.eq_of_identity hother hrevision hidentity]
        · intro hcoordinate
          exact ⟨revision, ⟨⟨hrevision, hcoordinate⟩, hsubject⟩, rfl⟩
      have hsame := (hmem asOf).symm.trans ((hperm.mem_iff).trans (hmem asOf'))
      simp only [hsame]
    · simp [hsubject]
  · intro hsame
    rw [hsame]

theorem mem_changedSubjects (h : Ordered revisions) {asOf asOf' : Instant} :
    subject ∈ changedSubjects
        ((visibleRevisions revisions asOf).map fun revision =>
          (revision.subjectIdentity, revision.identity))
        ((visibleRevisions revisions asOf').map fun revision =>
          (revision.subjectIdentity, revision.identity)) ↔
      ofSubject (visibleRevisions revisions asOf) subject ≠
        ofSubject (visibleRevisions revisions asOf') subject := by
  have hvisible : ∀ instant revision,
      revision ∈ ofSubject (visibleRevisions revisions instant) subject →
        ∃ known ∈ visibleRevisions revisions instant, known.subjectIdentity = subject := by
    intro instant revision hrevision
    obtain ⟨hmem, hsubject⟩ := mem_filter.1 hrevision
    exact ⟨revision, hmem, of_decide_eq_true hsubject⟩
  simp only [changedSubjects, mem_filter, mem_deleteDuplicates, mem_reverse,
    decide_eq_true_eq, collect_visible, Ne, ofSubject_eq_iff h]
  refine and_iff_right_of_imp fun hdiffers => ?_
  simp only [map_append, mem_append, map_map, mem_map, Function.comp_apply]
  by_contra hnone
  obtain ⟨hbefore, hafter⟩ := not_or.1 hnone
  apply hdiffers
  rw [eq_nil_iff_forall_not_mem.2 fun revision hrevision =>
      hbefore (hvisible asOf revision hrevision),
    eq_nil_iff_forall_not_mem.2 fun revision hrevision =>
      hafter (hvisible asOf' revision hrevision)]

structure SameStanding (journal : EvidenceJournal) (previousAsOf revisedAsOf : Instant)
    (previous revised : EvidenceSnapshot) (subject : String) : Prop where
  listed : ∀ bucket, bucket ≠ .active →
    (subject ∈ previous.bucket bucket ↔ subject ∈ revised.bucket bucket)
  active : ∀ revision ∈ journal.revisions, revision.subjectIdentity = subject →
    (revision.identity ∈ previous.bucket .active ↔ revision.identity ∈ revised.bucket .active)
  heads : heads (visibleRevisions journal.revisions previousAsOf) subject =
    heads (visibleRevisions journal.revisions revisedAsOf) subject

theorem placed_congr (h : Ordered revisions) {asOf asOf' : Instant} (validAt : Option Instant)
    (hsame : ofSubject (visibleRevisions revisions asOf) subject =
      ofSubject (visibleRevisions revisions asOf') subject) (placed : Bucket × String) :
    subject ∈ visibleSubjects (visibleRevisions revisions asOf) ∧
        place (visibleRevisions revisions asOf) validAt subject = .ok placed ↔
      subject ∈ visibleSubjects (visibleRevisions revisions asOf') ∧
        place (visibleRevisions revisions asOf') validAt subject = .ok placed := by
  have hseen : ∀ instant, subject ∈ visibleSubjects (visibleRevisions revisions instant) ↔
      ofSubject (visibleRevisions revisions instant) subject ≠ [] := by
    intro instant
    rw [mem_visibleSubjects, ofSubject, Ne, filter_eq_nil_iff]
    simp
  rw [hseen, hseen, hsame, place_congr (heads_congr h (visibleRevisions_subset _ _)
    (visibleRevisions_subset _ _) hsame)]

section

variable {sha256 : Bytes → Digest} {write : Datum → String}

variable {journal : EvidenceJournal} {previousAsOf revisedAsOf : Instant} {validAt : Option Instant}
  {previous revised : EvidenceSnapshot}

/-- **A subject that is not changed stands alike** in both snapshots. -/
theorem sameStanding
    (hprevious : evidenceAsOf sha256 write journal previousAsOf validAt = .ok previous)
    (hrevised : evidenceAsOf sha256 write journal revisedAsOf validAt = .ok revised)
    (hsame : ofSubject (visibleRevisions journal.revisions previousAsOf) subject =
      ofSubject (visibleRevisions journal.revisions revisedAsOf) subject) :
    SameStanding journal previousAsOf revisedAsOf previous revised subject := by
  obtain ⟨hordered, _, hbefore⟩ := evidenceAsOf_ok hprevious
  obtain ⟨_, _, hafter⟩ := evidenceAsOf_ok hrevised
  refine ⟨?_, ?_, heads_congr hordered (visibleRevisions_subset _ _) (visibleRevisions_subset _ _)
    hsame⟩
  · intro bucket hbucket
    rw [hbefore, hafter, mem_bucket hbucket, mem_bucket hbucket]
    exact placed_congr hordered validAt hsame _
  · rintro revision hmem rfl
    rw [hbefore, hafter, mem_active hordered hmem, mem_active hordered hmem]
    exact placed_congr hordered validAt hsame _

/-- **Plans from cuts are sound and minimal.** A plan holds, once each, the
conclusions that rest on a derivation with a subject of which other revisions
are visible at the two cuts; every subject on which another conclusion rests
stands alike in the two snapshots. -/
theorem plan_from_cuts_exact {index : DependencyIndex} {journal : EvidenceJournal}
    {previousAsOf revisedAsOf : Instant} {validAt : Option Instant} {plan : InvalidationPlan}
    (h : reverseDependencyPlanFromCuts sha256 write index journal previousAsOf revisedAsOf
      validAt = .ok plan) :
    plan.affectedConclusionIdentities.Nodup ∧
      (∀ id, id ∈ plan.affectedConclusionIdentities ↔
        ∃ entry ∈ index.derivations,
          (∃ subject ∈ entry.subjectPremises,
            ofSubject (visibleRevisions journal.revisions previousAsOf) subject ≠
              ofSubject (visibleRevisions journal.revisions revisedAsOf) subject) ∧
          Relation.ReflTransGen (RestsOn index.derivations) id entry.identity) ∧
      ∃ previous revised, evidenceAsOf sha256 write journal previousAsOf validAt = .ok previous ∧
        evidenceAsOf sha256 write journal revisedAsOf validAt = .ok revised ∧
        ∀ entry ∈ index.derivations, entry.identity ∉ plan.affectedConclusionIdentities →
          ∀ source ∈ index.derivations,
            Relation.ReflTransGen (RestsOn index.derivations) entry.identity source.identity →
            ∀ subject ∈ source.subjectPremises,
              SameStanding journal previousAsOf revisedAsOf previous revised subject := by
  rw [reverseDependencyPlanFromCuts] at h
  simp only [bind_eq_ok] at h
  obtain ⟨_, _, previous, hprevious, revised, hrevised, _, _, before, hbefore, after, hafter,
    hplan⟩ := h
  -- both snapshots are parts of the same ordered journal
  obtain ⟨hordered, hvisible, _⟩ := evidenceAsOf_ok hprevious
  obtain ⟨_, hvisible', _⟩ := evidenceAsOf_ok hrevised
  obtain rfl := recordSnapshot_ok hordered (visibleRevisions_subset _ _) hvisible hbefore
  obtain rfl := recordSnapshot_ok hordered (visibleRevisions_subset _ _) hvisible' hafter
  simp only [reverseDependencyPlan_ok hplan, nodup_sortTexts, mem_sortTexts, mem_affected,
    mem_changedSubjects hordered]
  refine ⟨nodup_affected _ _, fun _ => trivial, previous, revised, hprevious, hrevised, ?_⟩
  intro entry _ hunaffected source hsource hpath subject hsubject
  apply sameStanding hprevious hrevised
  by_contra hdiffers
  exact hunaffected ⟨source, hsource, ⟨subject, hsubject, hdiffers⟩, hpath⟩

theorem reverseDependencyPlanFromCuts_eq
    {before after : List (String × String)} (hshape : index.Shape ∧ journal.Shape)
    (hprevious : evidenceAsOf sha256 write journal previousAsOf validAt = .ok previous)
    (hrevised : evidenceAsOf sha256 write journal revisedAsOf validAt = .ok revised)
    (hindex : index.cutDigest = previous.cutDigest ∧
      index.projectionDigest = previous.projectionDigest)
    (hbefore : recordSnapshot journal.revisions previous = .ok before)
    (hafter : recordSnapshot journal.revisions revised = .ok after) :
    reverseDependencyPlanFromCuts sha256 write index journal previousAsOf revisedAsOf validAt =
      reverseDependencyPlan index revised.cutDigest revised.projectionDigest
        (changedSubjects before after) := by
  rw [reverseDependencyPlanFromCuts, (guardElse_eq_ok (u := ())).2 hshape, hprevious, hrevised]
  simp only [bind, Except.bind, (guardElse_eq_ok (u := ())).2 hindex, hbefore, hafter]

end

theorem reverseDependencyPlan_accepts
    {revisedCut revisedProjection : String} {changed : List String} (hindex : index.Shape)
    (hcut : Text revisedCut) (hprojection : Text revisedProjection)
    (hchanged : ∀ subject ∈ changed, Text subject) (hnodup : changed.Nodup)
    (hrevised : ¬(changed ≠ [] ∧ index.cutDigest = revisedCut ∧
      index.projectionDigest = revisedProjection)) :
    ∃ plan, reverseDependencyPlan index revisedCut revisedProjection changed = .ok plan := by
  have hknown : ∀ id ∈ affectedConclusions index.derivations changed, Text id := by
    intro id hid
    obtain ⟨entry, hentry, _, hpath⟩ := mem_affected.1 hid
    rcases Relation.ReflTransGen.cases_head hpath with rfl | ⟨_, ⟨first, hfirst, rfl, _⟩, _⟩
    · exact (hindex.2 entry hentry).1 _ mem_cons_self
    · exact (hindex.2 first hfirst).1 _ mem_cons_self
  have htexts := hindex.1
  simp only [forall_mem_cons, not_mem_nil, false_imp_iff, implies_true, and_true] at htexts
  obtain ⟨hidentity, hsemantic, hold, holdProjection⟩ := htexts
  refine ⟨_, bind_eq_ok.2 ⟨(), guardElse_eq_ok.2 ⟨hindex, hcut, hprojection, hchanged, hnodup⟩,
    bind_eq_ok.2 ⟨(), guardElse_eq_ok.2 hrevised, bind_eq_ok.2 ⟨(), guardElse_eq_ok.2 ?_, rfl⟩⟩⟩⟩
  refine ⟨by simp [hidentity, hsemantic, hold, holdProjection, hcut, hprojection], ?_⟩
  simpa using ⟨hchanged, hknown⟩

def clinicIndex (snapshot : EvidenceSnapshot) : DependencyIndex where
  identity := "index"
  semanticDigest := "sha256:index"
  cutDigest := snapshot.cutDigest
  projectionDigest := snapshot.projectionDigest
  inventoryComplete := true
  derivations :=
    [⟨"alert", snapshot.cutDigest, snapshot.projectionDigest, "policy", [], ["dose"]⟩,
      ⟨"dose", snapshot.cutDigest, snapshot.projectionDigest, "policy", ["prescription"], ["alert"]⟩,
      ⟨"release", snapshot.cutDigest, snapshot.projectionDigest, "policy", ["deployment"], []⟩]

/-- What the plan for the correction is made from. -/
theorem clinic_recorded : ∃ previous, clinicSnapshot 15 = .ok previous ∧
    ∃ revised, clinicSnapshot 25 = .ok revised ∧
      recordSnapshot clinicRevisions previous =
        .ok [("deployment", "o1"), ("prescription", "r1")] ∧
      recordSnapshot clinicRevisions revised =
        .ok [("deployment", "o1"), ("prescription", "r1"), ("prescription", "r2")] ∧
      ((clinicIndex previous).Shape ∧ clinicJournal.Shape) ∧
      (Text revised.cutDigest ∧ Text revised.projectionDigest) ∧
      previous.cutDigest ≠ revised.cutDigest := by
  decide +kernel

/-- The plan for the correction of the prescription, with a cycle of conclusions. -/
theorem clinic_plan_exact : ∃ (index : DependencyIndex) (plan : InvalidationPlan),
    reverseDependencyPlanFromCuts checksum writeDatum index clinicJournal
        (ledgerInstant "cut" "txn" 15) (ledgerInstant "cut" "txn" 25) none = .ok plan ∧
      plan.affectedConclusionIdentities.Nodup := by
  obtain ⟨previous, hprevious, revised, hrevised, hbefore, hafter, hshape, ⟨hcut, hprojection⟩,
    hother⟩ := clinic_recorded
  obtain ⟨plan, hplan⟩ : ∃ plan, reverseDependencyPlan (clinicIndex previous) revised.cutDigest
      revised.projectionDigest (changedSubjects [("deployment", "o1"), ("prescription", "r1")]
        [("deployment", "o1"), ("prescription", "r1"), ("prescription", "r2")]) = .ok plan :=
    reverseDependencyPlan_accepts hshape.1 hcut hprojection (by decide +kernel)
      (by decide +kernel) fun hsame => hother hsame.2.1
  have hcuts := reverseDependencyPlanFromCuts_eq hshape hprevious hrevised ⟨rfl, rfl⟩ hbefore hafter
  exact ⟨_, plan, hcuts.trans hplan, (plan_from_cuts_exact (hcuts.trans hplan)).1⟩

end PooFlow.Temporal
