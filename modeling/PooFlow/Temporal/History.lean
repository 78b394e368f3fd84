import Mathlib.Data.Finset.Max
import PooFlow.Foundation.Keyed
import PooFlow.Temporal.Revisions

namespace PooFlow.Temporal

open Foundation List

variable {revisions : List EvidenceRevision}

theorem Ordered.ascending_sort (h : Ordered revisions) :
    (sortRevisions revisions).Pairwise fun revision revision' =>
      revision.identity < revision'.identity := by
  have hsorted := pairwise_insertionSort (fun revision revision' : EvidenceRevision =>
    revision.identity ≤ revision'.identity) revisions
  have hdistinct := pairwise_map.1
    (((perm_sortRevisions revisions).map EvidenceRevision.identity).nodup_iff.2 h.distinct)
  exact (hsorted.and hdistinct).imp fun ⟨hle, hne⟩ => lt_of_le_of_ne hle hne

variable {asOf : Instant}

theorem visibleRevisions_later {later revisions' : List EvidenceRevision}
    (h : Ordered revisions) (h' : Ordered revisions') (hperm : revisions'.Perm (revisions ++ later))
    (hlater : ∀ revision ∈ later, asOf.coordinate < revision.admissionInstant.coordinate) :
    visibleRevisions (sortRevisions revisions') asOf =
      visibleRevisions (sortRevisions revisions) asOf := by
  refine Keyed.eq_of_sorted EvidenceRevision.identity (h'.ascending_sort.filter _)
    (h.ascending_sort.filter _) fun revision => ?_
  simp only [visibleRevisions, mem_filter, decide_eq_true_eq,
    (perm_sortRevisions _).mem_iff, hperm.mem_iff, mem_append]
  refine and_congr_left fun hvisible => or_iff_left fun hmem => ?_
  have := hlater revision hmem
  omega

section

variable {sha256 : Bytes → Digest} {write : Datum → String}

theorem sortRevisions_sort (h : Ordered revisions) :
    sortRevisions (sortRevisions revisions) = sortRevisions revisions :=
  Keyed.eq_of_sorted EvidenceRevision.identity
    (h.perm (perm_sortRevisions revisions).symm).ascending_sort h.ascending_sort fun _ =>
      (perm_sortRevisions _).mem_iff

theorem Acceptable.reconstructed {identityValue domainValue : String}
    (h : Acceptable identityValue domainValue revisions) :
    evidenceJournal sha256 write identityValue domainValue (sortRevisions revisions) =
      .ok (journalOf sha256 write identityValue domainValue revisions) := by
  refine evidenceJournal_eq_ok.2 ⟨h.perm (perm_sortRevisions revisions).symm, ?_⟩
  rw [journalOf, journalOf, sortRevisions_sort h.ordered]

end

def EvidenceSnapshot.past (snapshot : EvidenceSnapshot) : EvidenceSnapshot :=
  { snapshot with journalDigest := "", futureRevisionIdentities := [] }

section

variable {sha256 : Bytes → Digest} {write : Datum → String}

variable {snapshot snapshot' : EvidenceSnapshot} {identityValue domainValue : String}
  {revisions : List EvidenceRevision} {α β : Type}

theorem EvidenceSnapshot.shape_iff (hdigest : Text snapshot.journalDigest)
    (hdigest' : Text snapshot'.journalDigest)
    (hfuture : ∀ text ∈ snapshot.futureRevisionIdentities, Text text)
    (hfuture' : ∀ text ∈ snapshot'.futureRevisionIdentities, Text text)
    (hpast : snapshot.past = snapshot'.past) : snapshot.Shape ↔ snapshot'.Shape := by
  have hshape : ∀ snapshot : EvidenceSnapshot, Text snapshot.journalDigest →
      (∀ text ∈ snapshot.futureRevisionIdentities, Text text) →
      (snapshot.Shape ↔ { snapshot.past with journalDigest := "digest" }.Shape) := by
    intro snapshot hdigest hfuture
    have htext : Text "digest" := by decide
    simp only [EvidenceSnapshot.Shape, EvidenceSnapshot.past, forall_mem_cons, hdigest,
      htext, iff_true_intro hfuture, not_mem_nil, false_imp_iff, implies_true, true_and, and_true]
  rw [hshape snapshot hdigest hfuture, hshape snapshot' hdigest' hfuture', hpast]

theorem Acceptable.future_text (h : Acceptable identityValue domainValue revisions) (asOf : Instant)
    : ∀ text ∈ (futureRevisions (sortRevisions revisions) asOf).map EvidenceRevision.identity,
      Text text := by
  intro text htext
  obtain ⟨revision, hrevision, rfl⟩ := mem_map.1 htext
  have hmem := (perm_sortRevisions revisions).mem_iff.1 (mem_filter.1 hrevision).1
  exact (h.inventory.2.2 revision hmem).1

theorem EvidenceSnapshot.checked_past (hdigest : Text snapshot.journalDigest)
    (hdigest' : Text snapshot'.journalDigest)
    (hfuture : ∀ text ∈ snapshot.futureRevisionIdentities, Text text)
    (hfuture' : ∀ text ∈ snapshot'.futureRevisionIdentities, Text text)
    (hpast : snapshot.past = snapshot'.past) :
    (guardElse snapshot.Shape Condition.invalid >>= fun _ => pure snapshot).map past =
      (guardElse snapshot'.Shape Condition.invalid >>= fun _ => pure snapshot').map past := by
  have hshape := shape_iff hdigest hdigest' hfuture hfuture' hpast
  by_cases hchecked : snapshot.Shape
  · rw [guardElse_of hchecked, guardElse_of (hshape.1 hchecked)]
    exact congrArg Except.ok hpast
  · rw [guardElse, guardElse, if_neg hchecked, if_neg fun h => hchecked (hshape.2 h)]
    rfl

theorem map_bind_congr {γ : Type} {x : Except Condition α} {f g : α → Except Condition β}
    {p : β → γ} (h : ∀ a, (f a).map p = (g a).map p) : (x >>= f).map p = (x >>= g).map p := by
  cases x with
  | error e => rfl
  | ok a => exact h a

theorem map_guard_congr {p q : Prop} [Decidable p] [Decidable q] {e : Condition}
    {f g : Unit → Except Condition α} {k : α → β} (hp : p) (hq : q)
    (h : (f ()).map k = (g ()).map k) :
    (guardElse p e >>= f).map k = (guardElse q e >>= g).map k := by
  rw [guardElse_of hp, guardElse_of hq]
  exact h

/-- **Later revisions leave a snapshot as it was**, and a query that fails fails
with the same condition. -/
theorem evidenceAsOf_later {later revisions' : List EvidenceRevision}
    (h : Acceptable identityValue domainValue revisions)
    (h' : Acceptable identityValue domainValue revisions')
    (hperm : revisions'.Perm (revisions ++ later))
    (hlater : ∀ revision ∈ later, asOf.coordinate < revision.admissionInstant.coordinate)
    (validAt : Option Instant) :
    (evidenceAsOf sha256 write (journalOf sha256 write identityValue domainValue revisions') asOf
        validAt).map EvidenceSnapshot.past =
      (evidenceAsOf sha256 write (journalOf sha256 write identityValue domainValue revisions) asOf
        validAt).map EvidenceSnapshot.past := by
  have hvisible := visibleRevisions_later h.ordered h'.ordered hperm hlater
  have hquery : ∀ {p : Prop}, (journalOf sha256 write identityValue domainValue revisions').Shape ∧ p ↔
      (journalOf sha256 write identityValue domainValue revisions).Shape ∧ p :=
    fun {_} => and_congr_left fun _ => iff_of_true h'.journal_shape h.journal_shape
  rw [evidenceAsOf, evidenceAsOf]
  simp only [hquery]
  simp only [journalOf]
  rw [h.reconstructed, h'.reconstructed]
  simp only [hvisible]
  refine map_bind_congr fun _ => ?_
  rw [ok_bind, ok_bind]
  refine map_guard_congr rfl rfl ?_
  refine map_bind_congr fun placed => ?_
  exact EvidenceSnapshot.checked_past (text_digest _) (text_digest _) (h'.future_text asOf)
    (h.future_text asOf) rfl

end

/-- **A visible subject has a head**: the revision that was admitted last. -/
theorem heads_ne_nil (h : Ordered revisions)
    {revision : EvidenceRevision} (hvisible : revision ∈ visibleRevisions revisions asOf) :
    heads (visibleRevisions revisions asOf) revision.subjectIdentity ≠ [] := by
  have hsubset := visibleRevisions_subset revisions asOf
  have hmem : ∀ known, known ∈ (ofSubject (visibleRevisions revisions asOf)
      revision.subjectIdentity).toFinset ↔
      known ∈ visibleRevisions revisions asOf ∧
        known.subjectIdentity = revision.subjectIdentity := by
    simp [ofSubject]
  obtain ⟨last, hlast, hmax⟩ := Finset.exists_max_image _
    (fun known : EvidenceRevision => known.admissionInstant.coordinate)
    ⟨revision, (hmem revision).2 ⟨hvisible, rfl⟩⟩
  obtain ⟨hknown, hsubject⟩ := (hmem last).1 hlast
  refine ne_nil_of_mem (a := last) (mem_filter.2 ⟨?_, decide_eq_true fun hlater => ?_⟩)
  · rw [visibleBySubject_eq, mem_reverse, ← mem_toFinset]
    exact hlast
  · obtain ⟨later, hmemLater, hpredecessor⟩ :=
      (mem_superseded_iff h hsubset (hsubset hknown)).1 hlater
    rw [hsubject, ← mem_toFinset] at hmemLater
    -- what supersedes the last revision would have been admitted after it
    obtain ⟨predecessor, hpredecessorMem, hidentity, hprecedes⟩ :=
      h.precedes later (hsubset ((hmem later).1 hmemLater).1) _ hpredecessor
    obtain rfl := h.eq_of_identity hpredecessorMem (hsubset hknown) hidentity
    exact absurd hprecedes.2.2 (not_lt.2 (hmax later hmemLater))

def Stands (visible : List EvidenceRevision) (snapshot : EvidenceSnapshot) (subject : String)
    (bucket : Bucket) : Prop :=
  match bucket with
  | .active => ∃ head ∈ heads visible subject, head.identity ∈ snapshot.bucket .active
  | bucket => subject ∈ snapshot.bucket bucket

section

variable {sha256 : Bytes → Digest} {write : Datum → String}

variable {journal : EvidenceJournal} {asOf : Instant} {validAt : Option Instant}
  {snapshot : EvidenceSnapshot} {subject : String}

section

variable (h : evidenceAsOf sha256 write journal asOf validAt = .ok snapshot)
  (hsubject : subject ∈ visibleSubjects (visibleRevisions journal.revisions asOf))

include h hsubject

theorem stands_iff (bucket : Bucket) :
    Stands (visibleRevisions journal.revisions asOf) snapshot subject bucket ↔
      ∃ text, place (visibleRevisions journal.revisions asOf) validAt subject =
        .ok (bucket, text) := by
  obtain ⟨hordered, _, hlists⟩ := evidenceAsOf_ok h
  have hother : ∀ bucket ≠ .active, subject ∈ snapshot.bucket bucket ↔
      ∃ text, place (visibleRevisions journal.revisions asOf) validAt subject =
        .ok (bucket, text) := by
    intro bucket hbucket
    rw [hlists, mem_bucket hbucket, and_iff_right hsubject]
    refine ⟨fun hplace => ⟨_, hplace⟩, fun ⟨text, hplace⟩ => ?_⟩
    rcases place_ok hplace with ⟨_, rfl⟩ | ⟨hactive, _⟩
    · exact hplace
    · exact absurd hactive hbucket
  cases bucket with
  | active =>
    constructor
    · rintro ⟨head, hhead, hlisted⟩
      obtain ⟨hvisible, rfl⟩ := mem_heads hhead
      rw [hlists, mem_active hordered (visibleRevisions_subset _ _ hvisible)] at hlisted
      exact ⟨_, hlisted.2⟩
    · rintro ⟨text, hplace⟩
      rcases place_ok hplace with ⟨hnot, _⟩ | ⟨_, head, hheads, rfl⟩
      · exact absurd rfl hnot
      · refine ⟨head, hheads ▸ mem_singleton_self head, ?_⟩
        exact (hlists _ _).2 ⟨subject, hsubject, hplace⟩
  | _ => exact hother _ (by decide)

/-- **A visible subject stands in one list.** -/
theorem stands_in_one :
    ∃! bucket, Stands (visibleRevisions journal.revisions asOf) snapshot subject bucket := by
  obtain ⟨⟨bucket, text⟩, hplace⟩ := evidenceAsOf_placed h hsubject
  refine ⟨bucket, (stands_iff h hsubject bucket).2 ⟨text, hplace⟩, fun other hother => ?_⟩
  obtain ⟨text', hplace'⟩ := (stands_iff h hsubject other).1 hother
  exact congrArg Prod.fst (Except.ok.inj (hplace'.symm.trans hplace))

end

/-- **The history of evidence is immutable.** Revisions that are admitted after an
instant leave the snapshot at that instant as it was, but for the digest of the
journal and the revisions that are still to come; and in every snapshot, a subject
of which a revision is visible has a head and stands in one list. -/
theorem evidence_history_immutable (sha256 : Bytes → Digest) (write : Datum → String) :
    (∀ {identityValue domainValue : String} {revisions later revisions' : List EvidenceRevision}
        {journal journal' : EvidenceJournal} {asOf : Instant} (validAt : Option Instant),
      evidenceJournal sha256 write identityValue domainValue revisions = .ok journal →
      evidenceJournal sha256 write identityValue domainValue revisions' = .ok journal' →
      revisions'.Perm (revisions ++ later) →
      (∀ revision ∈ later, asOf.coordinate < revision.admissionInstant.coordinate) →
      (evidenceAsOf sha256 write journal' asOf validAt).map EvidenceSnapshot.past =
        (evidenceAsOf sha256 write journal asOf validAt).map EvidenceSnapshot.past) ∧
    ∀ {journal : EvidenceJournal} {asOf : Instant} {validAt : Option Instant}
        {snapshot : EvidenceSnapshot},
      evidenceAsOf sha256 write journal asOf validAt = .ok snapshot →
      ∀ revision ∈ visibleRevisions journal.revisions asOf,
        heads (visibleRevisions journal.revisions asOf) revision.subjectIdentity ≠ [] ∧
        ∃! bucket, Stands (visibleRevisions journal.revisions asOf) snapshot
          revision.subjectIdentity bucket := by
  constructor
  · intro identityValue domainValue revisions later revisions' journal journal' asOf validAt h h'
      hperm hlater
    obtain ⟨haccepted, rfl⟩ := evidenceJournal_eq_ok.1 h
    obtain ⟨haccepted', rfl⟩ := evidenceJournal_eq_ok.1 h'
    exact evidenceAsOf_later haccepted haccepted' hperm hlater validAt
  · intro journal asOf validAt snapshot h revision hvisible
    exact ⟨heads_ne_nil (evidenceAsOf_ok h).1 hvisible,
      stands_in_one h (mem_visibleSubjects.2 ⟨revision, hvisible, rfl⟩)⟩

end

/-- The correction of the prescription is admitted after the cut. -/
theorem clinic_history :
    (evidenceAsOf checksum writeDatum (journalOf checksum writeDatum "journal" "txn" clinicRevisions)
        (ledgerInstant "cut" "txn" 15) none).map EvidenceSnapshot.past =
      (evidenceAsOf checksum writeDatum (journalOf checksum writeDatum "journal" "txn"
        [deploymentAsserted, prescriptionAsserted]) (ledgerInstant "cut" "txn" 15) none).map
        EvidenceSnapshot.past ∧
    ∃ snapshot, evidenceAsOf checksum writeDatum clinicJournal (ledgerInstant "cut" "txn" 15) none =
        .ok snapshot ∧
      ∃! bucket, Stands (visibleRevisions clinicRevisions (ledgerInstant "cut" "txn" 15)) snapshot
        "prescription" bucket := by
  obtain ⟨hlater, hstands⟩ := evidence_history_immutable checksum writeDatum
  have hrecorded : Acceptable "journal" "txn" clinicRevisions := by
    refine ⟨by decide, by decide, by decide, ?_⟩
    simp [clinicRevisions, deploymentAsserted, prescriptionAsserted, prescriptionCorrected,
      EvidenceRevision.Precedes, ledgerInstant]
  have hasserted : Acceptable "journal" "txn" [deploymentAsserted, prescriptionAsserted] := by
    refine ⟨by decide, by decide, by decide, ?_⟩
    simp [deploymentAsserted, prescriptionAsserted]
  refine ⟨hlater none (evidenceJournal_eq_ok.2 ⟨hasserted, rfl⟩)
    (evidenceJournal_eq_ok.2 ⟨hrecorded, rfl⟩) (.refl _) (by decide), ?_⟩
  obtain ⟨snapshot, hcut⟩ : ∃ snapshot, clinicSnapshot 15 = .ok snapshot := by decide +kernel
  exact ⟨snapshot, hcut, (hstands hcut prescriptionAsserted (by decide)).2⟩

end PooFlow.Temporal
