import PooFlow.Foundation.Worklist
import PooFlow.Temporal.Types

/-! `revisions/funs.ss`: journals of immutable revisions and their projection at an instant of
admission. -/

namespace PooFlow.Temporal

open Foundation List
open Except (ok.inj)

def intervalRow (interval : Option Interval) : Datum :=
  .orFalse (interval.map fun interval =>
    .list [.text interval.identity, instantRow interval.start, instantRow interval.finish,
      .boolean interval.startClosed, .boolean interval.endClosed])

def revisionRow (revision : EvidenceRevision) : Datum :=
  .list [.text revision.identity, .text revision.subjectIdentity, .symbol revision.operation.symbol,
    .orFalse (revision.predecessorIdentity.map .text), instantRow revision.admissionInstant,
    intervalRow revision.validInterval, .orFalse (revision.contentIdentity.map .text)]

/-- The first loop of `poo-flow-temporal-evidence-journal`: the index by identity. -/
def indexRevisions (domainValue : String) :
    List EvidenceRevision → List EvidenceRevision → Except Condition (List EvidenceRevision)
  | [], index => .ok index
  | revision :: revisions, index => do
    guardElse (∀ known ∈ index, known.identity ≠ revision.identity)
      (raise "duplicate temporal evidence revision" [revision.identity])
    guardElse (revision.admissionInstant.domainIdentity = domainValue)
      (raise "revision admission clock differs from journal" [revision.identity])
    indexRevisions domainValue revisions (revision :: index)

/-- What the second loop asks of a predecessor. -/
def EvidenceRevision.Precedes (predecessor revision : EvidenceRevision) : Prop :=
  predecessor.subjectIdentity = revision.subjectIdentity ∧ predecessor.operation ≠ .retract ∧
    predecessor.admissionInstant.coordinate < revision.admissionInstant.coordinate

instance (predecessor revision : EvidenceRevision) : Decidable (predecessor.Precedes revision) :=
  inferInstanceAs (Decidable (_ ∧ _ ∧ _))

/-- The second loop of `poo-flow-temporal-evidence-journal`. -/
def checkPredecessor (index : List EvidenceRevision) (revision : EvidenceRevision) :
    Except Condition Unit :=
  match revision.predecessorIdentity with
  | none => .ok ()
  | some predecessorId =>
    guardElse
      (Given (·.Precedes revision) (index.find? fun known => known.identity = predecessorId))
      (raise "invalid temporal evidence predecessor" [predecessorId])

/-- `(list-sort revision<? revisions)`. -/
def sortRevisions (revisions : List EvidenceRevision) : List EvidenceRevision :=
  revisions.insertionSort (·.identity ≤ ·.identity)

section

variable (sha256 : Bytes → Digest) (write : Datum → String)

def evidenceJournal (identityValue domainValue : String) (revisions : List EvidenceRevision) :
    Except Condition EvidenceJournal := do
  guardElse (Text identityValue ∧ Text domainValue ∧ ∀ revision ∈ revisions, revision.Shape)
    (raise "invalid temporal evidence journal inventory" [])
  let index ← indexRevisions domainValue revisions []
  revisions.forM (checkPredecessor index)
  let canonical := sortRevisions revisions
  let semanticDigest := digest sha256 write (.list [
    .symbol "poo-flow.temporal-evidence-journal.v1", .text identityValue, .text domainValue,
    .list (canonical.map revisionRow)])
  let journal : EvidenceJournal := ⟨identityValue, semanticDigest, domainValue, canonical⟩
  guardElse journal.Shape .invalid
  return journal

end

def visibleRevisions (revisions : List EvidenceRevision) (asOf : Instant) : List EvidenceRevision :=
  revisions.filter fun revision => revision.admissionInstant.coordinate ≤ asOf.coordinate

def futureRevisions (revisions : List EvidenceRevision) (asOf : Instant) : List EvidenceRevision :=
  revisions.filter fun revision => asOf.coordinate < revision.admissionInstant.coordinate

def visibleBySubject (visible : List EvidenceRevision) : String → List EvidenceRevision :=
  collect (visible.map fun revision => (revision.subjectIdentity, revision))

/-- The keys of `superseded`. -/
def superseded (visible : List EvidenceRevision) : List String :=
  visible.filterMap EvidenceRevision.predecessorIdentity

def heads (visible : List EvidenceRevision) (subject : String) : List EvidenceRevision :=
  (visibleBySubject visible subject).filter fun revision =>
    revision.identity ∉ superseded visible

/-- `subjects`, sorted and without duplicates. -/
def visibleSubjects (visible : List EvidenceRevision) : List String :=
  sortTexts (deleteDuplicates (visible.map EvidenceRevision.subjectIdentity).reverse)

inductive Bucket where
  | active | retracted | conflicted | outside | uncertain | incomparable
deriving DecidableEq

/-- `membership`: a head is valid where no instant is asked for. -/
def membershipOf (head : EvidenceRevision) (validAt : Option Instant) :
    Except Condition Membership :=
  match validAt with
  | some instant => intervalContains head.validInterval instant
  | none => .ok .inside

def place (visible : List EvidenceRevision) (validAt : Option Instant) (subject : String) :
    Except Condition (Bucket × String) :=
  match heads visible subject with
  | [head] =>
    if head.operation = .retract then .ok (.retracted, subject)
    else do
      match ← membershipOf head validAt with
      | .inside => return (.active, head.identity)
      | .outside => return (.outside, subject)
      | .incomparable => return (.incomparable, subject)
      | .unknown => return (.uncertain, subject)
  | _ => .ok (.conflicted, subject)

section

variable (sha256 : Bytes → Digest) (write : Datum → String)

def evidenceAsOf (journal : EvidenceJournal) (asOf : Instant) (validAt : Option Instant) :
    Except Condition EvidenceSnapshot := do
  guardElse (journal.Shape ∧ asOf.Shape ∧ asOf.modality = "observed" ∧
      asOf.domainIdentity = journal.admissionDomainIdentity ∧ ∀ instant ∈ validAt, instant.Shape)
    (raise "invalid temporal evidence as-of query" [])
  -- the journal is built again from its revisions, to compare the digests
  let canonical ← evidenceJournal sha256 write journal.identity journal.admissionDomainIdentity
    journal.revisions
  guardElse (journal.semanticDigest = canonical.semanticDigest)
    (raise "temporal evidence journal digest differs from its revisions" [])
  let visible := visibleRevisions journal.revisions asOf
  let future := futureRevisions journal.revisions asOf
  let buckets := collect (← (visibleSubjects visible).mapM (place visible validAt))
  -- the cut covers what is visible, the projection what each subject came to
  let cutDigest := digest sha256 write (.list [.symbol "poo-flow.temporal-evidence-cut.v1",
    .text journal.identity, instantRow asOf, .list (visible.map revisionRow)])
  let validAtDigest := validAt.map fun instant => digest sha256 write (instantRow instant)
  let active := sortTexts (buckets .active)
  let retracted := sortTexts (buckets .retracted)
  let conflicted := sortTexts (buckets .conflicted)
  let outside := sortTexts (buckets .outside)
  let uncertain := sortTexts (buckets .uncertain)
  let incomparable := sortTexts (buckets .incomparable)
  let projectionDigest := digest sha256 write (.list [
    .symbol "poo-flow.temporal-evidence-projection.v1", .text cutDigest,
    .orFalse (validAtDigest.map .text), .texts active, .texts retracted, .texts conflicted,
    .texts outside, .texts uncertain, .texts incomparable])
  let snapshot : EvidenceSnapshot := {
    journalDigest := journal.semanticDigest
    cutDigest, projectionDigest
    asOfInstantIdentity := asOf.identity
    validAtInstantIdentity := validAt.map Instant.identity
    validAtInstantDigest := validAtDigest
    activeRevisionIdentities := active
    retractedSubjectIdentities := retracted
    conflictedSubjectIdentities := conflicted
    outsideValidSubjectIdentities := outside
    uncertainSubjectIdentities := uncertain
    incomparableSubjectIdentities := incomparable
    visibleRevisionIdentities := visible.map EvidenceRevision.identity
    futureRevisionIdentities := future.map EvidenceRevision.identity }
  guardElse snapshot.Shape .invalid
  return snapshot

def EvidenceSnapshot.bucket (snapshot : EvidenceSnapshot) : Bucket → List String
  | .active => snapshot.activeRevisionIdentities
  | .retracted => snapshot.retractedSubjectIdentities
  | .conflicted => snapshot.conflictedSubjectIdentities
  | .outside => snapshot.outsideValidSubjectIdentities
  | .uncertain => snapshot.uncertainSubjectIdentities
  | .incomparable => snapshot.incomparableSubjectIdentities

end

structure Ordered (revisions : List EvidenceRevision) : Prop where
  distinct : (revisions.map EvidenceRevision.identity).Nodup
  precedes : ∀ revision ∈ revisions, ∀ predecessorId ∈ revision.predecessorIdentity,
    ∃ predecessor ∈ revisions, predecessor.identity = predecessorId ∧
      predecessor.Precedes revision

variable {revisions : List EvidenceRevision} {revision : EvidenceRevision} {domainValue : String}
  {index revisions' : List EvidenceRevision}

theorem Ordered.eq_of_identity (h : Ordered revisions) {revision' : EvidenceRevision}
    (hmem : revision ∈ revisions) (hmem' : revision' ∈ revisions)
    (hidentity : revision.identity = revision'.identity) : revision = revision' :=
  inj_on_of_nodup_map h.distinct hmem hmem' hidentity

theorem indexRevisions_eq_ok {index' : List EvidenceRevision}
    (hindex : (index.map EvidenceRevision.identity).Nodup) :
    indexRevisions domainValue revisions index = .ok index' ↔
      ((revisions.reverse ++ index).map EvidenceRevision.identity).Nodup ∧
        (∀ revision ∈ revisions, revision.admissionInstant.domainIdentity = domainValue) ∧
        index' = revisions.reverse ++ index := by
  induction revisions generalizing index with
  | nil =>
    rw [indexRevisions, Except.ok.injEq]
    simp [hindex, eq_comm]
  | cons revision revisions ih =>
    have hnew : (∀ known ∈ index, known.identity ≠ revision.identity) ↔
        ((revision :: index).map EvidenceRevision.identity).Nodup := by
      rw [map_cons, nodup_cons, and_iff_left hindex, mem_map, not_exists]
      exact forall_congr' fun known => not_and.symm
    simp only [indexRevisions, bind_eq_ok, guardElse_eq_ok, exists_const, hnew,
      forall_mem_cons, reverse_cons, append_assoc, singleton_append]
    constructor
    · rintro ⟨hnodup, hdomain, hrest⟩
      obtain ⟨hdistinct, hdomains, rfl⟩ := (ih hnodup).1 hrest
      exact ⟨hdistinct, ⟨hdomain, hdomains⟩, rfl⟩
    · rintro ⟨hdistinct, ⟨hdomain, hdomains⟩, rfl⟩
      have hnodup : ((revision :: index).map EvidenceRevision.identity).Nodup :=
        hdistinct.sublist ((sublist_append_right _ _).map _)
      exact ⟨hnodup, hdomain, (ih hnodup).2 ⟨hdistinct, hdomains, rfl⟩⟩

theorem checkPredecessor_eq_ok (hindex : (index.map EvidenceRevision.identity).Nodup) :
    checkPredecessor index revision = .ok () ↔
      ∀ predecessorId ∈ revision.predecessorIdentity,
        ∃ predecessor ∈ index, predecessor.identity = predecessorId ∧
          predecessor.Precedes revision := by
  rw [checkPredecessor]
  cases revision.predecessorIdentity with
  | none => simp
  | some predecessorId =>
    rw [guardElse_eq_ok]
    constructor
    · rintro ⟨predecessor, hfound, hprecedes⟩ id ⟨⟩
      exact ⟨predecessor, mem_of_find?_eq_some hfound, by simpa using List.find?_some hfound,
        hprecedes⟩
    · intro h
      obtain ⟨predecessor, hmem, rfl, hprecedes⟩ := h _ rfl
      obtain ⟨found, hfound⟩ : ∃ found, index.find? (fun known =>
          known.identity = predecessor.identity) = some found :=
        Option.isSome_iff_exists.1 (List.find?_isSome.2 ⟨predecessor, hmem, by simp⟩)
      have hsame : found = predecessor := inj_on_of_nodup_map hindex
        (mem_of_find?_eq_some hfound) hmem (by simpa using List.find?_some hfound)
      exact ⟨predecessor, hsame ▸ hfound, hprecedes⟩

/-- What the constructor asks for. -/
structure Acceptable (identityValue domainValue : String) (revisions : List EvidenceRevision) :
    Prop where
  inventory : Text identityValue ∧ Text domainValue ∧ ∀ revision ∈ revisions, revision.Shape
  admitted : ∀ revision ∈ revisions, revision.admissionInstant.domainIdentity = domainValue
  ordered : Ordered revisions

theorem Ordered.perm (h : Ordered revisions) (hperm : revisions.Perm revisions') :
    Ordered revisions' where
  distinct := (hperm.map _).nodup_iff.1 h.distinct
  precedes revision hmem predecessorId hpredecessor := by
    obtain ⟨predecessor, hknown, hprecedes⟩ :=
      h.precedes revision (hperm.mem_iff.2 hmem) predecessorId hpredecessor
    exact ⟨predecessor, hperm.mem_iff.1 hknown, hprecedes⟩

variable {identityValue : String}

theorem Acceptable.perm
    (h : Acceptable identityValue domainValue revisions) (hperm : revisions.Perm revisions') :
    Acceptable identityValue domainValue revisions' where
  inventory := ⟨h.inventory.1, h.inventory.2.1, fun revision hmem =>
    h.inventory.2.2 revision (hperm.mem_iff.2 hmem)⟩
  admitted revision hmem := h.admitted revision (hperm.mem_iff.2 hmem)
  ordered := h.ordered.perm hperm

theorem perm_sortRevisions (revisions : List EvidenceRevision) :
    (sortRevisions revisions).Perm revisions :=
  perm_insertionSort _ _

section

variable (sha256 : Bytes → Digest) (write : Datum → String)

def journalOf (identityValue domainValue : String) (revisions : List EvidenceRevision) :
    EvidenceJournal where
  identity := identityValue
  semanticDigest := digest sha256 write (.list [
    .symbol "poo-flow.temporal-evidence-journal.v1", .text identityValue, .text domainValue,
    .list ((sortRevisions revisions).map revisionRow)])
  admissionDomainIdentity := domainValue
  revisions := sortRevisions revisions

variable {sha256 write} {revisions : List EvidenceRevision}

theorem Acceptable.journal_shape {domainValue : String}
    (h : Acceptable identityValue domainValue revisions) :
    (journalOf sha256 write identityValue domainValue revisions).Shape := by
  refine ⟨?_, fun revision hmem => h.inventory.2.2 revision ((perm_sortRevisions _).mem_iff.1 hmem)⟩
  simp only [journalOf, forall_mem_cons, not_mem_nil, false_imp_iff, implies_true, and_true]
  exact ⟨h.inventory.1, text_digest _, h.inventory.2.1⟩

variable {journal : EvidenceJournal}

/-- **The constructor of a journal** checks its revisions and sorts them. -/
theorem evidenceJournal_eq_ok {domainValue : String} :
    evidenceJournal sha256 write identityValue domainValue revisions = .ok journal ↔
      Acceptable identityValue domainValue revisions ∧
        journal = journalOf sha256 write identityValue domainValue revisions := by
  simp only [evidenceJournal, bind_eq_ok, guardElse_eq_ok, exists_const]
  constructor
  · rintro ⟨hinventory, index, hindex, ⟨⟩, hpredecessors, _, hjournal⟩
    obtain ⟨hdistinct, hadmitted, rfl⟩ := (indexRevisions_eq_ok (by simp)).1 hindex
    rw [append_nil] at hdistinct hpredecessors
    have hordered : Ordered revisions.reverse := by
      refine ⟨hdistinct, fun revision hrevision => ?_⟩
      exact (checkPredecessor_eq_ok hdistinct).1
        (forM_eq_ok.1 hpredecessors revision (mem_reverse.1 hrevision))
    exact ⟨⟨hinventory, hadmitted, hordered.perm (reverse_perm _)⟩, (ok.inj hjournal).symm⟩
  · rintro ⟨h, rfl⟩
    have hordered := h.ordered.perm (reverse_perm revisions).symm
    refine ⟨h.inventory, revisions.reverse, ?_, ⟨⟩, ?_, h.journal_shape, rfl⟩
    · refine (indexRevisions_eq_ok (by simp)).2 ⟨?_, h.admitted, ?_⟩
      · rw [append_nil]
        exact hordered.distinct
      · rw [append_nil]
    · refine forM_eq_ok.2 fun revision hrevision =>
        (checkPredecessor_eq_ok hordered.distinct).2 ?_
      exact hordered.precedes revision (mem_reverse.2 hrevision)

variable {asOf : Instant} {validAt : Option Instant} {snapshot : EvidenceSnapshot}

/-- **The lists of a snapshot** hold what is put there for the visible subjects. -/
theorem evidenceAsOf_ok (h : evidenceAsOf sha256 write journal asOf validAt = .ok snapshot) :
    Ordered journal.revisions ∧
      snapshot.visibleRevisionIdentities =
        (visibleRevisions journal.revisions asOf).map EvidenceRevision.identity ∧
      ∀ bucket text, text ∈ snapshot.bucket bucket ↔
        ∃ subject ∈ visibleSubjects (visibleRevisions journal.revisions asOf),
          place (visibleRevisions journal.revisions asOf) validAt subject = .ok (bucket, text) := by
  rw [evidenceAsOf] at h
  simp only [bind_eq_ok] at h
  obtain ⟨_, _, canonical, hcanonical, _, _, placed, hplaced, ⟨⟩, _, hsnapshot⟩ := h
  obtain rfl := ok.inj hsnapshot
  refine ⟨(evidenceJournal_eq_ok.1 hcanonical).1.ordered, rfl, ?_⟩
  intro bucket text
  have hmem : text ∈ sortTexts (collect placed bucket) ↔
      ∃ subject ∈ visibleSubjects (visibleRevisions journal.revisions asOf),
        place (visibleRevisions journal.revisions asOf) validAt subject = .ok (bucket, text) := by
    rw [mem_sortTexts, mem_collect, mem_of_mapM hplaced]
  cases bucket <;> exact hmem

theorem evidenceAsOf_placed (h : evidenceAsOf sha256 write journal asOf validAt = .ok snapshot)
    {subject : String}
    (hsubject : subject ∈ visibleSubjects (visibleRevisions journal.revisions asOf)) :
    ∃ placed, place (visibleRevisions journal.revisions asOf) validAt subject = .ok placed := by
  rw [evidenceAsOf] at h
  simp only [bind_eq_ok] at h
  obtain ⟨_, _, _, _, _, _, placed, hplaced, _⟩ := h
  obtain ⟨entry, -, hentry⟩ := forall₂_mem_right (forall₂_of_mapM hplaced).flip hsubject
  exact ⟨entry, hentry⟩

end

variable {visible : List EvidenceRevision} {subject : String} {revision : EvidenceRevision}
  {revisions : List EvidenceRevision} {validAt : Option Instant}

theorem mem_visibleSubjects : subject ∈ visibleSubjects visible ↔
      ∃ revision ∈ visible, revision.subjectIdentity = subject := by
  simp [visibleSubjects]

def ofSubject (visible : List EvidenceRevision) (subject : String) : List EvidenceRevision :=
  visible.filter fun revision => revision.subjectIdentity = subject

theorem visibleBySubject_eq (visible : List EvidenceRevision) (subject : String) :
    visibleBySubject visible subject = (ofSubject visible subject).reverse := by
  rw [visibleBySubject, collect_eq, filter_map, map_map]
  exact congrArg List.reverse (map_id _)

theorem mem_heads (h : revision ∈ heads visible subject) :
    revision ∈ visible ∧ revision.subjectIdentity = subject := by
  rw [heads, visibleBySubject_eq] at h
  simpa [ofSubject] using (mem_filter.1 h).1

theorem mem_superseded_iff (h : Ordered revisions) (hvisible : visible ⊆ revisions)
    (hmem : revision ∈ revisions) : revision.identity ∈ superseded visible ↔
      ∃ later ∈ ofSubject visible revision.subjectIdentity,
        later.predecessorIdentity = some revision.identity := by
  simp only [superseded, mem_filterMap, ofSubject, mem_filter, decide_eq_true_eq]
  constructor
  · rintro ⟨later, hlater, hpredecessor⟩
    obtain ⟨predecessor, hknown, hidentity, hprecedes⟩ :=
      h.precedes later (hvisible hlater) _ hpredecessor
    obtain rfl := h.eq_of_identity hknown hmem hidentity
    exact ⟨later, ⟨hlater, hprecedes.1.symm⟩, hpredecessor⟩
  · rintro ⟨later, ⟨hlater, _⟩, hpredecessor⟩
    exact ⟨later, hlater, hpredecessor⟩

variable {visible' : List EvidenceRevision} {bucket : Bucket}

/-- **Heads depend on the visible revisions of their subject alone.** -/
theorem heads_congr (h : Ordered revisions) (hvisible : visible ⊆ revisions)
    (hvisible' : visible' ⊆ revisions)
    (hsame : ofSubject visible subject = ofSubject visible' subject) :
    heads visible subject = heads visible' subject := by
  rw [heads, heads, visibleBySubject_eq, visibleBySubject_eq, hsame]
  refine filter_congr fun revision hrevision => ?_
  obtain ⟨hmem, hsubject⟩ : revision ∈ visible' ∧ revision.subjectIdentity = subject := by
    simpa [ofSubject] using hrevision
  have hiff : revision.identity ∈ superseded visible ↔ revision.identity ∈ superseded visible' := by
    rw [mem_superseded_iff h hvisible (hvisible' hmem),
      mem_superseded_iff h hvisible' (hvisible' hmem), hsubject, hsame]
  simp only [hiff]

theorem place_congr (h : heads visible subject = heads visible' subject) (validAt : Option Instant)
    : place visible validAt subject = place visible' validAt subject := by
  rw [place, place, h]

theorem place_ok {text : String} (h : place visible validAt subject = .ok (bucket, text)) :
    bucket ≠ .active ∧ text = subject ∨
      bucket = .active ∧ ∃ head, heads visible subject = [head] ∧ text = head.identity := by
  rw [place] at h
  split at h
  · next head hheads =>
    split at h
    · obtain ⟨rfl, rfl⟩ := Prod.mk.inj (ok.inj h)
      exact .inl ⟨by decide, rfl⟩
    · obtain ⟨membership, _, h⟩ := bind_eq_ok.1 h
      cases membership with
      | inside =>
        obtain ⟨rfl, rfl⟩ := Prod.mk.inj (ok.inj h)
        exact .inr ⟨rfl, head, hheads, rfl⟩
      | outside | incomparable | unknown =>
        obtain ⟨rfl, rfl⟩ := Prod.mk.inj (ok.inj h)
        exact .inl ⟨by decide, rfl⟩
  · obtain ⟨rfl, rfl⟩ := Prod.mk.inj (ok.inj h)
    exact .inl ⟨by decide, rfl⟩

theorem visibleRevisions_subset (revisions : List EvidenceRevision) (asOf : Instant) :
    visibleRevisions revisions asOf ⊆ revisions :=
  filter_subset_self _

theorem mem_bucket (hbucket : bucket ≠ .active) :
    (∃ other ∈ visibleSubjects visible, place visible validAt other = .ok (bucket, subject)) ↔
      subject ∈ visibleSubjects visible ∧ place visible validAt subject = .ok (bucket, subject) := by
  constructor
  · rintro ⟨other, hother, hplace⟩
    rcases place_ok hplace with ⟨_, rfl⟩ | ⟨hactive, _⟩
    · exact ⟨hother, hplace⟩
    · exact absurd hactive hbucket
  · rintro ⟨hsubject, hplace⟩
    exact ⟨subject, hsubject, hplace⟩

theorem mem_active (h : Ordered revisions) {asOf : Instant} (hmem : revision ∈ revisions) :
    (∃ subject ∈ visibleSubjects (visibleRevisions revisions asOf),
        place (visibleRevisions revisions asOf) validAt subject =
          .ok (.active, revision.identity)) ↔
      revision.subjectIdentity ∈ visibleSubjects (visibleRevisions revisions asOf) ∧
        place (visibleRevisions revisions asOf) validAt revision.subjectIdentity =
          .ok (.active, revision.identity) := by
  constructor
  · rintro ⟨subject, hsubject, hplace⟩
    rcases place_ok hplace with ⟨hother, _⟩ | ⟨_, head, hheads, hidentity⟩
    · exact absurd rfl hother
    · obtain ⟨hvisible, hhead⟩ := mem_heads (hheads ▸ mem_singleton_self head)
      obtain rfl := h.eq_of_identity hmem (visibleRevisions_subset _ _ hvisible) hidentity
      rw [hhead]
      exact ⟨hsubject, hplace⟩
  · rintro ⟨hsubject, hplace⟩
    exact ⟨_, hsubject, hplace⟩

def ledgerInstant (identity domain : String) (coordinate : ℕ) : Instant :=
  ⟨identity, domain, coordinate, "ledger", "observed"⟩

def validity : Interval :=
  ⟨"validity", ledgerInstant "start" "valid" 1, ledgerInstant "end" "valid" 10, true, false⟩

def deploymentAsserted : EvidenceRevision :=
  ⟨"o1", "deployment", .assert, none, ledgerInstant "admit-o" "txn" 10, some validity, some "new"⟩

def prescriptionAsserted : EvidenceRevision :=
  ⟨"r1", "prescription", .assert, none, ledgerInstant "admit-1" "txn" 10, some validity, some "old"⟩

def prescriptionCorrected : EvidenceRevision :=
  ⟨"r2", "prescription", .correct, some "r1", ledgerInstant "admit-2" "txn" 20, some validity,
    some "new"⟩

def clinicRevisions : List EvidenceRevision :=
  [deploymentAsserted, prescriptionAsserted, prescriptionCorrected]

def clinicJournal : EvidenceJournal where
  identity := "journal"
  semanticDigest := digest checksum writeDatum (.list [
    .symbol "poo-flow.temporal-evidence-journal.v1", .text "journal", .text "txn",
    .list (clinicRevisions.map revisionRow)])
  admissionDomainIdentity := "txn"
  revisions := clinicRevisions

def clinicSnapshot (coordinate : ℕ) : Except Condition EvidenceSnapshot :=
  evidenceAsOf checksum writeDatum clinicJournal (ledgerInstant "cut" "txn" coordinate) none

end PooFlow.Temporal
