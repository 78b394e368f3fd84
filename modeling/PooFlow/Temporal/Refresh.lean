import PooFlow.Temporal.Contrast
import PooFlow.Temporal.Delta

namespace PooFlow.Temporal

open Foundation

inductive RefreshAction where
  | reused | recomputed | blocked
deriving DecidableEq

def RefreshAction.symbol : RefreshAction → String
  | .reused => "reused"
  | .recomputed => "recomputed"
  | .blocked => "blocked"

inductive RefreshReason where
  | unchanged | sourceVersion | scopeMismatch | gridMismatch
deriving DecidableEq

def RefreshReason.symbol : RefreshReason → String
  | .unchanged => "unchanged"
  | .sourceVersion => "source-version"
  | .scopeMismatch => "scope-mismatch"
  | .gridMismatch => "grid-mismatch"

structure ImpactRefresh where
  identity : String
  semanticDigest : String
  previousContrast : ImpactContrast
  revisedContrast : Option ImpactContrast
  leftDeltaDigest : String
  rightDeltaDigest : String
  revisedLeftSeriesDigest : String
  revisedRightSeriesDigest : String
  action : RefreshAction
  reason : RefreshReason
deriving DecidableEq

def ImpactRefresh.Shape (value : ImpactRefresh) : Prop :=
  (∀ text ∈ [value.identity, value.semanticDigest, value.leftDeltaDigest, value.rightDeltaDigest,
    value.revisedLeftSeriesDigest, value.revisedRightSeriesDigest], Text text) ∧
  value.previousContrast.Shape ∧
  (value.revisedContrast = none ∨ Given ImpactContrast.Shape value.revisedContrast)

instance : DecidablePred ImpactRefresh.Shape := fun _ => inferInstanceAs (Decidable (_ ∧ _ ∧ _))

/-- What was found of two deltas: `unchanged?`, `scope-compatible?` and `grid-compatible?`. -/
structure RefreshChecks where
  unchanged : Bool
  scopeCompatible : Bool
  gridCompatible : Bool

def refreshChecks (left right : TrajectoryDelta) : RefreshChecks :=
  { unchanged := left.status = .unchanged ∧ right.status = .unchanged
    scopeCompatible := left.revisedSeries.SameScope right.revisedSeries
    gridCompatible := left.revisedSeries.coordinates = right.revisedSeries.coordinates }

/-- The `action` of a refresh. -/
def RefreshChecks.action (checks : RefreshChecks) : RefreshAction :=
  if checks.unchanged then .reused
  else if !checks.scopeCompatible then .blocked
  else if !checks.gridCompatible then .blocked
  else .recomputed

/-- The `reason` of a refresh. -/
def RefreshChecks.reason (checks : RefreshChecks) : RefreshReason :=
  if checks.unchanged then .unchanged
  else if !checks.scopeCompatible then .scopeMismatch
  else if !checks.gridCompatible then .gridMismatch
  else .sourceVersion

section

variable (sha256 : Bytes → Digest) (write : Datum → String)

def revisedContrast (identity : String) (canonicalPrevious : ImpactContrast)
    (left right : TrajectorySeries) : RefreshAction → Except Condition (Option ImpactContrast)
  | .reused => return some canonicalPrevious
  | .recomputed => do
    let contrast ← impactContrast sha256 write (identity ++ "/contrast") left right
    return some contrast
  | .blocked => return none

def refreshValue (identity : String) (canonicalPrevious : ImpactContrast)
    (revised : Option ImpactContrast) (left right : TrajectoryDelta) : ImpactRefresh :=
  let action := (refreshChecks left right).action
  let reason := (refreshChecks left right).reason
  { identity := identity
    semanticDigest := digest sha256 write
      (.list [.symbol "poo-flow.temporal-causality.impact-refresh.v1", .text identity,
        .text canonicalPrevious.semanticDigest, .text left.semanticDigest,
        .text right.semanticDigest, .text left.revisedSeries.semanticDigest,
        .text right.revisedSeries.semanticDigest, .symbol action.symbol, .symbol reason.symbol,
        .orFalse (revised.map fun contrast => .text contrast.semanticDigest)])
    previousContrast := canonicalPrevious
    revisedContrast := revised
    leftDeltaDigest := left.semanticDigest
    rightDeltaDigest := right.semanticDigest
    revisedLeftSeriesDigest := left.revisedSeries.semanticDigest
    revisedRightSeriesDigest := right.revisedSeries.semanticDigest
    action := action
    reason := reason }

def impactRefresh (identity : String) (previous : ImpactContrast)
    (leftDelta rightDelta : TrajectoryDelta) : Except Condition ImpactRefresh := do
  guardElse (Text identity ∧ previous.Shape ∧ leftDelta.Shape ∧ rightDelta.Shape)
    (raise "invalid impact refresh input" [])
  let left ← trajectoryDelta sha256 write leftDelta.identity leftDelta.previousSeries
    leftDelta.revisedSeries
  let right ← trajectoryDelta sha256 write rightDelta.identity rightDelta.previousSeries
    rightDelta.revisedSeries
  let canonicalPrevious ← impactContrast sha256 write previous.identity left.previousSeries
    right.previousSeries
  guardElse (leftDelta.semanticDigest = left.semanticDigest ∧
      rightDelta.semanticDigest = right.semanticDigest ∧
      previous.semanticDigest = canonicalPrevious.semanticDigest ∧
      previous.leftSeriesDigest = left.previousSeries.semanticDigest ∧
      previous.rightSeriesDigest = right.previousSeries.semanticDigest)
    (raise "impact refresh source digests do not match" [])
  let revised ← revisedContrast sha256 write identity canonicalPrevious left.revisedSeries
    right.revisedSeries (refreshChecks left right).action
  let refresh := refreshValue sha256 write identity canonicalPrevious revised left right
  guardElse refresh.Shape .invalid
  return refresh

end

section

variable {sha256 : Bytes → Digest} {write : Datum → String} {identity : String}
  {previous revised : TrajectorySeries}

theorem deltaStatus_eq_unchanged {differences : Differences ℕ}
    (h : deltaStatus previous revised differences = .unchanged) :
    (differences = ⟨[], [], []⟩) ∧ previous.sourceCutDigest = revised.sourceCutDigest ∧
      previous.sourceProjectionDigest = revised.sourceProjectionDigest ∧
      previous.semanticDigest = revised.semanticDigest := by
  obtain ⟨added, removed, changed⟩ := differences
  simp only [deltaStatus] at h
  split at h
  · cases h
  · rename_i hboth
    split at h
    · cases h
    · rename_i hsamples
      split at h
      · cases h
      · rename_i hscope
        split at h
        · rename_i hdigest
          simp only [not_or, not_not] at hsamples hscope
          obtain ⟨rfl, rfl, rfl⟩ := hsamples
          exact ⟨rfl, hscope.1, hscope.2, hdigest⟩
        · cases h

/-- **An unchanged series** is replayed to the series before, but for its identity. -/
theorem Comparable.replayed_of_unchanged (h : Comparable sha256 write identity previous revised)
    (hstatus : (deltaValue sha256 write identity previous.replayed revised.replayed).status =
      .unchanged) :
    revised.replayed = { previous.replayed with identity := revised.identity } := by
  obtain ⟨hdifferences, hcut, hprojection, hdigest⟩ := deltaStatus_eq_unchanged hstatus
  obtain ⟨hsubject, hscenario, houtcome, hunit, _, hmodality⟩ := h.context
  have hsamples : previous.replayed.samples = revised.replayed.samples := by
    have hpatch := patch_eq TrajectorySample.row_injective h.old.ascending h.new.ascending
    rw [← h.differences, hdifferences, patch] at hpatch
    simpa [h.old.ascending.sortOn_eq] using hpatch
  have hdomain : previous.replayed.timeDomainIdentity = revised.replayed.timeDomainIdentity :=
    congrArg clockDomain hsamples
  calc revised.replayed
      = { revised with
          timeDomainIdentity := revised.replayed.timeDomainIdentity
          samples := revised.replayed.samples } := rfl
    _ = { previous.replayed with identity := revised.identity } := by
        rw [← hdomain, ← hsamples]
        simp only [TrajectorySeries.mk.injEq, true_and, and_true]
        exact ⟨hdigest.symm, hsubject.symm, hscenario.symm, houtcome.symm, hunit.symm, hcut.symm,
          hprojection.symm, hmodality.symm⟩

theorem contrastable_replayed_iff {left right : TrajectorySeries} (htext : Text identity)
    (hleft : Replayable sha256 write left) (hright : Replayable sha256 write right) :
    Contrastable sha256 write identity left.replayed right.replayed ↔
      left.replayed.SameScope right.replayed ∧
        left.replayed.coordinates = right.replayed.coordinates := by
  constructor
  · intro h
    have hgrid := h.grid
    rw [replayed_replayed, replayed_replayed] at hgrid
    exact ⟨h.scope, hgrid⟩
  · rintro ⟨hscope, hgrid⟩
    refine ⟨htext, hscope, hleft.replayed, hright.replayed, ?_⟩
    rw [replayed_replayed, replayed_replayed]
    exact hgrid

end

section

variable {left right : TrajectoryDelta}

theorem action_of_unchanged (h : left.status = .unchanged ∧ right.status = .unchanged) :
    (refreshChecks left right).action = .reused := by
  simp [RefreshChecks.action, refreshChecks, h]

theorem action_of_compatible (h : ¬(left.status = .unchanged ∧ right.status = .unchanged))
    (hscope : left.revisedSeries.SameScope right.revisedSeries)
    (hgrid : left.revisedSeries.coordinates = right.revisedSeries.coordinates) :
    (refreshChecks left right).action = .recomputed := by
  simp [RefreshChecks.action, refreshChecks, h, hscope, hgrid]

theorem action_of_incompatible (h : ¬(left.status = .unchanged ∧ right.status = .unchanged))
    (hmismatch : ¬(left.revisedSeries.SameScope right.revisedSeries ∧
      left.revisedSeries.coordinates = right.revisedSeries.coordinates)) :
    (refreshChecks left right).action = .blocked := by
  rw [not_and] at hmismatch
  by_cases hscope : left.revisedSeries.SameScope right.revisedSeries
  · simp [RefreshChecks.action, refreshChecks, h, hscope, hmismatch hscope]
  · simp [RefreshChecks.action, refreshChecks, h, hscope]

end

def ImpactContrast.SameResult (contrast contrast' : ImpactContrast) : Prop :=
  contrast.points = contrast'.points ∧ contrast.status = contrast'.status ∧
    contrast.leftSeriesDigest = contrast'.leftSeriesDigest ∧
    contrast.rightSeriesDigest = contrast'.rightSeriesDigest ∧
    contrast.sourceCutDigest = contrast'.sourceCutDigest ∧
    contrast.sourceProjectionDigest = contrast'.sourceProjectionDigest ∧
    contrast.subjectIdentity = contrast'.subjectIdentity ∧
    contrast.outcomeIdentity = contrast'.outcomeIdentity ∧
    contrast.unitIdentity = contrast'.unitIdentity ∧
    contrast.timeDomainIdentity = contrast'.timeDomainIdentity

/-- A refresh that agrees with the direct contrast of two series: it is blocked exactly when
they are not contrasted, and has the result of their contrast otherwise. -/
structure Refreshes (sha256 : Bytes → Digest) (write : Datum → String)
    (left right : TrajectorySeries) (refresh : ImpactRefresh) : Prop where
  blocked : ∀ name, Text name → (refresh.action = .blocked ↔
    ¬∃ contrast, impactContrast sha256 write name left right = .ok contrast)
  held : refresh.revisedContrast = none ↔ refresh.action = .blocked
  agrees : ∀ revised ∈ refresh.revisedContrast, ∀ name contrast,
    impactContrast sha256 write name left right = .ok contrast → revised.SameResult contrast

section

variable {sha256 : Bytes → Digest} {write : Datum → String} {identity : String}
  {previous : ImpactContrast} {leftDelta rightDelta : TrajectoryDelta} {refresh : ImpactRefresh}
  {left right : TrajectorySeries}

theorem refreshes_of_made {name : String} (haction : refresh.action ≠ .blocked)
    (hrevised : refresh.revisedContrast = some (contrastOf sha256 write name left right))
    (hcontrastable : ∀ name, Text name → Contrastable sha256 write name left right) :
    Refreshes sha256 write left right refresh := by
  refine ⟨fun name hname => ?_, ?_, ?_⟩
  · refine ⟨fun hblocked => absurd hblocked haction, fun hrejected => absurd ?_ hrejected⟩
    exact ⟨_, impactContrast_eq_ok.2 ⟨hcontrastable name hname, rfl⟩⟩
  · rw [hrevised]
    exact ⟨nofun, fun hblocked => absurd hblocked haction⟩
  · intro revised hmem name' contrast hcontrast
    rw [hrevised, Option.mem_some_iff] at hmem
    obtain ⟨_, rfl⟩ := impactContrast_eq_ok.1 hcontrast
    rw [← hmem]
    exact ⟨rfl, rfl, rfl, rfl, rfl, rfl, rfl, rfl, rfl, rfl⟩

theorem refreshes_of_blocked (haction : refresh.action = .blocked)
    (hrevised : refresh.revisedContrast = none)
    (hrejected : ∀ name, ¬Contrastable sha256 write name left right) :
    Refreshes sha256 write left right refresh := by
  refine ⟨fun name _ => ?_, ?_, ?_⟩
  · refine ⟨fun _ ⟨contrast, hcontrast⟩ => ?_, fun _ => haction⟩
    exact hrejected name (impactContrast_eq_ok.1 hcontrast).1
  · exact ⟨fun _ => haction, fun _ => hrevised⟩
  · rw [hrevised]
    exact fun revised hmem => absurd hmem (Option.not_mem_none revised)

theorem refreshes_replayed
    (h : impactRefresh sha256 write identity previous leftDelta rightDelta = .ok refresh) :
    Refreshes sha256 write leftDelta.revisedSeries.replayed rightDelta.revisedSeries.replayed
      refresh := by
  rw [impactRefresh] at h
  simp only [bind_eq_ok, guardElse_eq_ok, exists_const, pure_eq_ok, trajectoryDelta_eq_ok,
    impactContrast_eq_ok] at h
  obtain ⟨_, left, ⟨hleft, hleftValue⟩, right, ⟨hright, hrightValue⟩, canonical,
    ⟨hprevious, rfl⟩, _, revised, hrevised, _, rfl⟩ := h
  have hdirect := fun name (hname : Text name) =>
    contrastable_replayed_iff hname hleft.new hright.new
  subst hleftValue hrightValue
  by_cases hunchanged : (deltaValue sha256 write leftDelta.identity
        leftDelta.previousSeries.replayed leftDelta.revisedSeries.replayed).status = .unchanged ∧
      (deltaValue sha256 write rightDelta.identity rightDelta.previousSeries.replayed
        rightDelta.revisedSeries.replayed).status = .unchanged
  · have haction := action_of_unchanged hunchanged
    rw [haction] at hrevised
    have hl := hleft.replayed_of_unchanged hunchanged.1
    have hr := hright.replayed_of_unchanged hunchanged.2
    -- the series before were contrasted, and these have the same slots
    have hbefore := (contrastable_replayed_iff hprevious.text hleft.old hright.old).1 hprevious
    have hsame : contrastOf sha256 write previous.identity leftDelta.previousSeries.replayed
          rightDelta.previousSeries.replayed =
        contrastOf sha256 write previous.identity leftDelta.revisedSeries.replayed
          rightDelta.revisedSeries.replayed := by
      rw [hl, hr]
      rfl
    refine refreshes_of_made (fun hblocked => by cases haction.symm.trans hblocked)
      ((Except.ok.inj hrevised).symm.trans (congrArg some hsame))
      fun name hname => (hdirect name hname).2 ?_
    rw [hl, hr]
    exact hbefore
  · by_cases hcompatible : leftDelta.revisedSeries.replayed.SameScope
        rightDelta.revisedSeries.replayed ∧
        leftDelta.revisedSeries.replayed.coordinates = rightDelta.revisedSeries.replayed.coordinates
    · have haction := action_of_compatible hunchanged hcompatible.1 hcompatible.2
      rw [haction] at hrevised
      obtain ⟨contrast, hcontrast, hmade⟩ := bind_eq_ok.1 hrevised
      obtain ⟨_, rfl⟩ := impactContrast_eq_ok.1 hcontrast
      exact refreshes_of_made (fun hblocked => by cases haction.symm.trans hblocked)
        (Except.ok.inj hmade).symm fun name hname => (hdirect name hname).2 hcompatible
    · have haction := action_of_incompatible hunchanged hcompatible
      rw [haction] at hrevised
      refine refreshes_of_blocked haction (Except.ok.inj hrevised).symm
        fun name hcontrastable => ?_
      exact hcompatible ((hdirect name hcontrastable.text).1 hcontrastable)

theorem replayed_of_trajectoryDelta {name : String} {delta : TrajectoryDelta}
    (h : trajectoryDelta sha256 write name left right = .ok delta) :
    delta.revisedSeries.replayed = delta.revisedSeries := by
  obtain ⟨_, rfl⟩ := trajectoryDelta_eq_ok.1 h
  exact replayed_replayed

/-- **A refresh agrees with the direct contrast** of the two revised series as they are
replayed, which are those that the deltas hold when the delta constructor made them. -/
theorem impact_refresh_exact
    (h : impactRefresh sha256 write identity previous leftDelta rightDelta = .ok refresh) :
    Refreshes sha256 write leftDelta.revisedSeries.replayed rightDelta.revisedSeries.replayed
      refresh ∧
    ((∃ name left left', trajectoryDelta sha256 write name left left' = .ok leftDelta) →
      (∃ name right right', trajectoryDelta sha256 write name right right' = .ok rightDelta) →
      Refreshes sha256 write leftDelta.revisedSeries rightDelta.revisedSeries refresh) := by
  refine ⟨refreshes_replayed h, ?_⟩
  rintro ⟨_, _, _, hleft⟩ ⟨_, _, _, hright⟩
  rw [← replayed_of_trajectoryDelta hleft, ← replayed_of_trajectoryDelta hright]
  exact refreshes_replayed h

end

def domainDelta (identity domain : String) (previous revised : TrajectorySeries) :
    TrajectoryDelta :=
  { deltaValue checksum writeDatum identity previous revised with
    previousSeries := { previous with timeDomainIdentity := domain }
    revisedSeries := { revised with timeDomainIdentity := domain } }

def revisedDose : TrajectorySeries :=
  doseTrajectory "revised" "treatment" .predicted [1, 2, 4, 6]

def correctedDose : TrajectorySeries :=
  doseTrajectory "corrected" "baseline" .observed [1, 2, 3, 5]

def doseContrast : ImpactContrast :=
  contrastOf checksum writeDatum "contrast" predictedDose observedDose

def doseRefresh : ImpactRefresh :=
  let left := deltaValue checksum writeDatum "left" predictedDose revisedDose
  let right := deltaValue checksum writeDatum "right" observedDose correctedDose
  refreshValue checksum writeDatum "refresh" doseContrast
    (some (contrastOf checksum writeDatum "refresh/contrast" revisedDose correctedDose)) left right

theorem dose_refresh_exact : impactRefresh checksum writeDatum "refresh" doseContrast
      (deltaValue checksum writeDatum "left" predictedDose revisedDose)
      (deltaValue checksum writeDatum "right" observedDose correctedDose) = .ok doseRefresh ∧
    Refreshes checksum writeDatum revisedDose correctedDose doseRefresh ∧
    doseRefresh.action = .recomputed := by
  have hrefresh : impactRefresh checksum writeDatum "refresh" doseContrast
      (deltaValue checksum writeDatum "left" predictedDose revisedDose)
      (deltaValue checksum writeDatum "right" observedDose correctedDose) = .ok doseRefresh := by
    decide +kernel
  have hleft : trajectoryDelta checksum writeDatum "left" predictedDose revisedDose =
      .ok (deltaValue checksum writeDatum "left" predictedDose revisedDose) := by decide +kernel
  have hright : trajectoryDelta checksum writeDatum "right" observedDose correctedDose =
      .ok (deltaValue checksum writeDatum "right" observedDose correctedDose) := by decide +kernel
  exact ⟨hrefresh, (impact_refresh_exact hrefresh).2 ⟨_, _, _, hleft⟩ ⟨_, _, _, hright⟩,
    by decide +kernel⟩

/-- Deltas are recomputed from the samples of their series, but a direct contrast reads the
clock domain that a series holds: here it is rejected and the refresh is not blocked. -/
theorem refresh_past_domain : impactRefresh checksum writeDatum "refresh" doseContrast
      (domainDelta "left" "other-clock" predictedDose revisedDose)
      (domainDelta "right" "clinic-clock" observedDose correctedDose) = .ok doseRefresh ∧
    doseRefresh.action = .recomputed ∧
    ∀ name contrast, impactContrast checksum writeDatum name
      (domainDelta "left" "other-clock" predictedDose revisedDose).revisedSeries
      (domainDelta "right" "clinic-clock" observedDose correctedDose).revisedSeries ≠
        .ok contrast := by
  refine ⟨by decide +kernel, by decide +kernel, fun name contrast h => ?_⟩
  have hdomain := (impactContrast_eq_ok.1 h).1.scope.2.2.2.2.2
  exact absurd hdomain (by decide)

end PooFlow.Temporal
