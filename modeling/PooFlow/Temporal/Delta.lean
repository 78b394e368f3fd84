import PooFlow.Temporal.Series

namespace PooFlow.Temporal

open Foundation TrajectorySample

inductive DeltaStatus where
  | unchanged | identityOnly | scopeChange | sampleChange | sampleAndScopeChange
deriving DecidableEq

def DeltaStatus.symbol : DeltaStatus → String
  | .unchanged => "unchanged"
  | .identityOnly => "identity-only"
  | .scopeChange => "scope-change"
  | .sampleChange => "sample-change"
  | .sampleAndScopeChange => "sample-and-scope-change"

structure TrajectoryDelta where
  identity : String
  semanticDigest : String
  previousSeries : TrajectorySeries
  revisedSeries : TrajectorySeries
  previousSeriesDigest : String
  revisedSeriesDigest : String
  previousCutDigest : String
  revisedCutDigest : String
  previousProjectionDigest : String
  revisedProjectionDigest : String
  addedCoordinates : List ℕ
  removedCoordinates : List ℕ
  changedCoordinates : List ℕ
  status : DeltaStatus
deriving DecidableEq

namespace TrajectoryDelta

def Shape (value : TrajectoryDelta) : Prop :=
  (∀ text ∈ [value.identity, value.semanticDigest, value.previousSeriesDigest,
    value.revisedSeriesDigest, value.previousCutDigest, value.revisedCutDigest,
    value.previousProjectionDigest, value.revisedProjectionDigest], Text text) ∧
  value.previousSeries.Shape ∧ value.revisedSeries.Shape

instance : DecidablePred Shape := fun _ => inferInstanceAs (Decidable (_ ∧ _ ∧ _))

def datum (delta : TrajectoryDelta) : Datum :=
  .list [.symbol "poo-flow.temporal-causality.trajectory-delta.v1", .text delta.identity,
    .text delta.previousSeriesDigest, .text delta.revisedSeriesDigest,
    .list (delta.addedCoordinates.map .integer), .list (delta.removedCoordinates.map .integer),
    .list (delta.changedCoordinates.map .integer), .symbol delta.status.symbol]

end TrajectoryDelta

def TrajectorySeries.SameContext (previous revised : TrajectorySeries) : Prop :=
  previous.subjectIdentity = revised.subjectIdentity ∧
    previous.scenarioIdentity = revised.scenarioIdentity ∧
    previous.outcomeIdentity = revised.outcomeIdentity ∧
    previous.unitIdentity = revised.unitIdentity ∧
    previous.timeDomainIdentity = revised.timeDomainIdentity ∧
    previous.modality = revised.modality

instance (previous revised : TrajectorySeries) : Decidable (previous.SameContext revised) :=
  inferInstanceAs (Decidable (_ ∧ _ ∧ _ ∧ _ ∧ _ ∧ _))

def coordinateDifferences (oldSamples newSamples : List TrajectorySample) : Differences ℕ :=
  differencesFrom TrajectorySample.coordinate TrajectorySample.row oldSamples newSamples ⟨[], [], []⟩

def deltaStatus (previous revised : TrajectorySeries) (differences : Differences ℕ) : DeltaStatus :=
  let sampleChange := differences.added ≠ [] ∨ differences.removed ≠ [] ∨ differences.changed ≠ []
  let scopeChange := previous.sourceCutDigest ≠ revised.sourceCutDigest ∨
    previous.sourceProjectionDigest ≠ revised.sourceProjectionDigest
  if sampleChange ∧ scopeChange then .sampleAndScopeChange
  else if sampleChange then .sampleChange
  else if scopeChange then .scopeChange
  else if previous.semanticDigest = revised.semanticDigest then .unchanged
  else .identityOnly

section

variable (sha256 : Bytes → Digest) (write : Datum → String)

def deltaValue (identity : String) (previous revised : TrajectorySeries) : TrajectoryDelta :=
  let differences := coordinateDifferences previous.samples revised.samples
  let delta : TrajectoryDelta :=
    { identity := identity
      semanticDigest := ""
      previousSeries := previous
      revisedSeries := revised
      previousSeriesDigest := previous.semanticDigest
      revisedSeriesDigest := revised.semanticDigest
      previousCutDigest := previous.sourceCutDigest
      revisedCutDigest := revised.sourceCutDigest
      previousProjectionDigest := previous.sourceProjectionDigest
      revisedProjectionDigest := revised.sourceProjectionDigest
      addedCoordinates := differences.added
      removedCoordinates := differences.removed
      changedCoordinates := differences.changed
      status := deltaStatus previous revised differences }
  { delta with semanticDigest := digest sha256 write delta.datum }

def trajectoryDelta (identity : String) (previous revised : TrajectorySeries) :
    Except Condition TrajectoryDelta := do
  guardElse (Text identity ∧ previous.Shape ∧ revised.Shape ∧ previous.SameContext revised)
    (raise "trajectory delta requires one series context" [])
  let previous ← trajectoryReplay sha256 write previous
  let revised ← trajectoryReplay sha256 write revised
  guardElse (previous.identity = revised.identity →
      previous.semanticDigest = revised.semanticDigest)
    (raise "trajectory identity cannot name two different versions" [])
  let delta := deltaValue sha256 write identity previous revised
  guardElse delta.Shape .invalid
  return delta

end

structure Comparable (sha256 : Bytes → Digest) (write : Datum → String) (identity : String)
    (previous revised : TrajectorySeries) : Prop where
  text : Text identity
  context : previous.SameContext revised
  old : Replayable sha256 write previous
  new : Replayable sha256 write revised
  versions : previous.identity = revised.identity →
    previous.semanticDigest = revised.semanticDigest

section

variable {sha256 : Bytes → Digest} {write : Datum → String} {identity : String}
  {previous revised : TrajectorySeries} {delta : TrajectoryDelta}

theorem shape_deltaValue (htext : Text identity) (hprevious : previous.Shape)
    (hrevised : revised.Shape) : (deltaValue sha256 write identity previous revised).Shape := by
  refine ⟨?_, hprevious, hrevised⟩
  have hp := hprevious.1
  have hr := hrevised.1
  simp only [List.forall_mem_cons] at hp hr ⊢
  exact ⟨htext, text_digest _, hp.2.1, hr.2.1, hp.2.2.2.2.2.2.1, hr.2.2.2.2.2.2.1,
    hp.2.2.2.2.2.2.2.1, hr.2.2.2.2.2.2.2.1, List.forall_mem_nil _⟩

/-- **Which series are compared**, and to what delta. -/
theorem trajectoryDelta_eq_ok : trajectoryDelta sha256 write identity previous revised = .ok delta ↔
      Comparable sha256 write identity previous revised ∧
        delta = deltaValue sha256 write identity previous.replayed revised.replayed := by
  rw [trajectoryDelta]
  simp only [bind_eq_ok, guardElse_eq_ok, exists_const, pure_eq_ok, trajectoryReplay_eq_ok]
  constructor
  · rintro ⟨⟨htext, _, _, hcontext⟩, _, ⟨hprevious, rfl⟩, _, ⟨hrevised, rfl⟩, hversions, _, rfl⟩
    exact ⟨⟨htext, hcontext, hprevious, hrevised, hversions⟩, rfl⟩
  · rintro ⟨h, rfl⟩
    exact ⟨⟨h.text, h.old.shape, h.new.shape, h.context⟩, _, ⟨h.old, rfl⟩, _, ⟨h.new, rfl⟩,
      h.versions, shape_deltaValue h.text (shape_replayed h.old.shape) (shape_replayed h.new.shape),
      rfl⟩

theorem Comparable.swap (h : Comparable sha256 write identity previous revised) :
    Comparable sha256 write identity revised previous := by
  obtain ⟨hsubject, hscenario, houtcome, hunit, hdomain, hmodality⟩ := h.context
  refine ⟨h.text, ?_, h.new, h.old, fun hsame => (h.versions hsame.symm).symm⟩
  exact ⟨hsubject.symm, hscenario.symm, houtcome.symm, hunit.symm, hdomain.symm, hmodality.symm⟩

theorem Comparable.differences (h : Comparable sha256 write identity previous revised) :
    coordinateDifferences previous.replayed.samples revised.replayed.samples =
      differencesOf coordinate row previous.replayed.samples
        revised.replayed.samples :=
  differencesFrom_nil h.old.ascending h.new.ascending

end

def applyDelta (delta : TrajectoryDelta) (samples revised : List TrajectorySample) :
    List TrajectorySample :=
  patch TrajectorySample.coordinate
    ⟨delta.addedCoordinates, delta.removedCoordinates, delta.changedCoordinates⟩ samples revised

/-- The coordinates that only the revised series has, that only the previous one has, and
at which the rows of both differ, each list strictly increasing. -/
structure ExactDelta (previous revised : TrajectorySeries) (delta : TrajectoryDelta) : Prop where
  added : delta.addedCoordinates.Pairwise (· < ·) ∧ ∀ coordinate,
    coordinate ∈ delta.addedCoordinates ↔
      coordinate ∈ revised.coordinates ∧ coordinate ∉ previous.coordinates
  removed : delta.removedCoordinates.Pairwise (· < ·) ∧ ∀ coordinate,
    coordinate ∈ delta.removedCoordinates ↔
      coordinate ∈ previous.coordinates ∧ coordinate ∉ revised.coordinates
  changed : delta.changedCoordinates.Pairwise (· < ·) ∧ ∀ coordinate,
    coordinate ∈ delta.changedCoordinates ↔
      ∃ old ∈ previous.samples, ∃ new ∈ revised.samples, old.coordinate = coordinate ∧
        new.coordinate = coordinate ∧ old.row ≠ new.row
  previousSamples : delta.previousSeries.samples.Perm previous.samples
  revisedSamples : delta.revisedSeries.samples.Perm revised.samples
  applies : applyDelta delta delta.previousSeries.samples delta.revisedSeries.samples =
    delta.revisedSeries.samples

section

variable {sha256 : Bytes → Digest} {write : Datum → String} {identity : String}
  {previous revised : TrajectorySeries} {delta : TrajectoryDelta}

theorem exactDelta (h : trajectoryDelta sha256 write identity previous revised = .ok delta) :
    ExactDelta previous revised delta := by
  obtain ⟨hcomparable, rfl⟩ := trajectoryDelta_eq_ok.1 h
  have hold := hcomparable.old.ascending
  have hnew := hcomparable.new.ascending
  have hdifferences := hcomparable.differences
  have hprevious : previous.replayed.samples.Perm previous.samples := perm_sortOn _ _
  have hrevised : revised.replayed.samples.Perm revised.samples := perm_sortOn _ _
  have honly : ∀ series others : TrajectorySeries, ∀ coordinate,
      coordinate ∈ onlyKeys TrajectorySample.coordinate series.replayed.samples
        others.replayed.samples ↔
      coordinate ∈ series.coordinates ∧ coordinate ∉ others.coordinates := by
    intro series others coordinate
    rw [mem_onlyKeys, ← series.mem_coordinates, ← others.mem_coordinates]
    rfl
  refine ⟨⟨?_, fun coordinate => ?_⟩, ⟨?_, fun coordinate => ?_⟩, ⟨?_, fun coordinate => ?_⟩,
    hprevious, hrevised, ?_⟩
  · rw [deltaValue, hdifferences]
    exact pairwise_onlyKeys hnew
  · rw [deltaValue, hdifferences]
    exact honly revised previous coordinate
  · rw [deltaValue, hdifferences]
    exact pairwise_onlyKeys hold
  · rw [deltaValue, hdifferences]
    exact honly previous revised coordinate
  · rw [deltaValue, hdifferences]
    exact pairwise_changedKeys hold
  · rw [deltaValue, hdifferences]
    show coordinate ∈ changedKeys _ _ _ _ ↔ _
    simp only [mem_changedKeys, hprevious.mem_iff, hrevised.mem_iff]
  · rw [applyDelta, deltaValue, hdifferences]
    exact patch_eq row_injective hold hnew

/-- **Trajectory deltas are exact and antisymmetric.** -/
theorem trajectory_delta_exact
    (h : trajectoryDelta sha256 write identity previous revised = .ok delta) :
    ExactDelta previous revised delta ∧
      ∃ delta', trajectoryDelta sha256 write identity revised previous = .ok delta' ∧
        delta'.addedCoordinates = delta.removedCoordinates ∧
        delta'.removedCoordinates = delta.addedCoordinates ∧
        delta'.changedCoordinates = delta.changedCoordinates := by
  refine ⟨exactDelta h, ?_⟩
  obtain ⟨hcomparable, rfl⟩ := trajectoryDelta_eq_ok.1 h
  refine ⟨_, trajectoryDelta_eq_ok.2 ⟨hcomparable.swap, rfl⟩, ?_⟩
  have hswap : differencesOf TrajectorySample.coordinate TrajectorySample.row _ _ = _ :=
    differences_swap hcomparable.old.ascending hcomparable.new.ascending
  rw [deltaValue, deltaValue, hcomparable.differences, hcomparable.swap.differences, hswap]
  exact ⟨rfl, rfl, rfl⟩

def doseSample (identity : String) (coordinate : ℕ) (outcome : ℚ) : TrajectorySample :=
  ⟨⟨identity, "clinic-clock", coordinate, "ledger", "observed"⟩, outcome⟩

def doseSeries (identity : String) (samples : List TrajectorySample) : TrajectorySeries :=
  let series : TrajectorySeries :=
    ⟨identity, "", "patient", "treatment", "dose", "milligram", "cut", "projection",
      "clinic-clock", .observed, samples⟩
  { series with semanticDigest := digest checksum writeDatum series.datum }

def doseBefore : TrajectorySeries :=
  doseSeries "before" [doseSample "morning" 1 2, doseSample "noon" 2 3, doseSample "night" 4 (1 / 2)]

def doseAfter : TrajectorySeries :=
  doseSeries "after" [doseSample "morning" 1 2, doseSample "noon" 2 5, doseSample "evening" 3 1]

theorem dose_delta_exact : ∃ delta,
    trajectoryDelta checksum writeDatum "dose" doseBefore doseAfter = .ok delta ∧
      ExactDelta doseBefore doseAfter delta := by
  have hcomparable : Comparable checksum writeDatum "dose" doseBefore doseAfter :=
    ⟨by decide, by decide +kernel, by decide +kernel, by decide +kernel, by decide +kernel⟩
  have hdelta := trajectoryDelta_eq_ok.2 ⟨hcomparable, rfl⟩
  exact ⟨_, hdelta, (trajectory_delta_exact hdelta).1⟩

end

end PooFlow.Temporal
