import Mathlib.Tactic.Ring
import PooFlow.Temporal.Series

namespace PooFlow.Temporal

open Foundation List TrajectorySample

structure ContrastPoint where
  coordinate : ℕ
  leftInstantIdentity : String
  rightInstantIdentity : String
  levelDelta : ℚ
  rateDelta : Option ℚ
deriving DecidableEq

namespace ContrastPoint

def Shape (value : ContrastPoint) : Prop :=
  Text value.leftInstantIdentity ∧ Text value.rightInstantIdentity

instance : DecidablePred Shape := fun _ => inferInstanceAs (Decidable (_ ∧ _))

def datum (point : ContrastPoint) : Datum :=
  .list [.integer point.coordinate, .text point.leftInstantIdentity,
    .text point.rightInstantIdentity, .number point.levelDelta,
    .orFalse (point.rateDelta.map .number)]

def exchanged (point : ContrastPoint) : ContrastPoint :=
  { point with
    leftInstantIdentity := point.rightInstantIdentity
    rightInstantIdentity := point.leftInstantIdentity
    levelDelta := -point.levelDelta
    rateDelta := point.rateDelta.map fun rate => -rate }

end ContrastPoint

def contrastPointValue (coordinate : ℕ) (leftInstant rightInstant : String) (levelDelta : ℚ)
    (rateDelta : Option ℚ) : Except Condition ContrastPoint := do
  let point : ContrastPoint := ⟨coordinate, leftInstant, rightInstant, levelDelta, rateDelta⟩
  guardElse point.Shape .invalid
  return point

inductive ContrastStatus where
  | descriptiveContrast | candidateContrast
deriving DecidableEq

def ContrastStatus.symbol : ContrastStatus → String
  | .descriptiveContrast => "descriptive-contrast"
  | .candidateContrast => "candidate-contrast"

structure ImpactContrast where
  identity : String
  semanticDigest : String
  leftSeriesDigest : String
  rightSeriesDigest : String
  sourceCutDigest : String
  sourceProjectionDigest : String
  subjectIdentity : String
  outcomeIdentity : String
  unitIdentity : String
  timeDomainIdentity : String
  status : ContrastStatus
  points : List ContrastPoint
deriving DecidableEq

namespace ImpactContrast

def Shape (value : ImpactContrast) : Prop :=
  (∀ text ∈ [value.identity, value.semanticDigest, value.leftSeriesDigest, value.rightSeriesDigest,
    value.sourceCutDigest, value.sourceProjectionDigest, value.subjectIdentity,
    value.outcomeIdentity, value.unitIdentity, value.timeDomainIdentity], Text text) ∧
  2 ≤ value.points.length ∧ ∀ point ∈ value.points, point.Shape

instance : DecidablePred Shape := fun _ => inferInstanceAs (Decidable (_ ∧ _ ∧ _))

def datum (contrast : ImpactContrast) : Datum :=
  .list [.symbol "poo-flow.temporal-causality.impact-contrast.v1", .text contrast.identity,
    .text contrast.leftSeriesDigest, .text contrast.rightSeriesDigest,
    .symbol contrast.status.symbol, .list (contrast.points.map ContrastPoint.datum)]

end ImpactContrast

def TrajectorySeries.SameScope (left right : TrajectorySeries) : Prop :=
  left.subjectIdentity = right.subjectIdentity ∧ left.outcomeIdentity = right.outcomeIdentity ∧
    left.unitIdentity = right.unitIdentity ∧ left.sourceCutDigest = right.sourceCutDigest ∧
    left.sourceProjectionDigest = right.sourceProjectionDigest ∧
    left.timeDomainIdentity = right.timeDomainIdentity

instance (left right : TrajectorySeries) : Decidable (left.SameScope right) :=
  inferInstanceAs (Decidable (_ ∧ _ ∧ _ ∧ _ ∧ _ ∧ _))

theorem TrajectorySeries.SameScope.swap {left right : TrajectorySeries}
    (h : left.SameScope right) : right.SameScope left := by
  obtain ⟨hsubject, houtcome, hunit, hcut, hprojection, hdomain⟩ := h
  exact ⟨hsubject.symm, houtcome.symm, hunit.symm, hcut.symm, hprojection.symm, hdomain.symm⟩

/-- The `rate-delta` of a point, after the coordinate and the level delta of the point before. -/
def rateDelta (previous : Option (ℕ × ℚ)) (coordinate : ℕ) (levelDelta : ℚ) :
    Except Condition (Option ℚ) :=
  match previous with
  | none => return none
  | some (previousCoordinate, previousDelta) => do
    let rate ← divide (levelDelta - previousDelta) ((coordinate : ℚ) - previousCoordinate)
    return some rate

/-- The loop of `poo-flow-temporal-impact-contrast`. -/
def contrastLoop : List TrajectorySample → List TrajectorySample → Option (ℕ × ℚ) →
    List ContrastPoint → Except Condition (List ContrastPoint)
  | [], _, _, reversePoints => return reversePoints.reverse
  | _ :: _, [], _, _ => .error .wrongType
  | left :: lefts, right :: rights, previous, reversePoints => do
    let levelDelta := left.outcome - right.outcome
    let rate ← rateDelta previous left.coordinate levelDelta
    let point ← contrastPointValue left.coordinate left.instant.identity right.instant.identity
      levelDelta rate
    contrastLoop lefts rights (some (left.coordinate, levelDelta)) (point :: reversePoints)

inductive PrefixStatus where
  | consistent | diverged | unobserved
deriving DecidableEq

def PrefixStatus.symbol : PrefixStatus → String
  | .consistent => "consistent"
  | .diverged => "diverged"
  | .unobserved => "unobserved"

/-- The `prefix-status` of the points before the onset. -/
def prefixStatus (points : List ContrastPoint) : PrefixStatus :=
  if points = [] then .unobserved
  else if ∀ point ∈ points, point.levelDelta = 0 then .consistent
  else .diverged

def areaLoop (previous : ContrastPoint) : List ContrastPoint → ℚ → ℚ
  | [], total => total
  | current :: rest, total =>
    areaLoop current rest (total + (previous.levelDelta + current.levelDelta) / 2 *
      ((current.coordinate : ℚ) - previous.coordinate))

/-- The `area` of a window. -/
def windowArea : List ContrastPoint → Except Condition ℚ
  | [] => .error .wrongType
  | first :: rest => return areaLoop first rest 0

structure WindowAudit where
  identity : String
  semanticDigest : String
  contrastDigest : String
  interventionIdentity : String
  onsetInstantIdentity : String
  endInstantIdentity : String
  sourceCutDigest : String
  sourceProjectionDigest : String
  subjectIdentity : String
  outcomeIdentity : String
  unitIdentity : String
  timeDomainIdentity : String
  prefixStatus : PrefixStatus
  prefixObservedCount : ℕ
  windowPoints : List ContrastPoint
  cumulativeDelta : ℚ
  meanDelta : ℚ

def WindowAudit.Shape (value : WindowAudit) : Prop :=
  (∀ text ∈ [value.identity, value.semanticDigest, value.contrastDigest,
    value.interventionIdentity, value.onsetInstantIdentity, value.endInstantIdentity,
    value.sourceCutDigest, value.sourceProjectionDigest, value.subjectIdentity,
    value.outcomeIdentity, value.unitIdentity, value.timeDomainIdentity], Text text) ∧
  2 ≤ value.windowPoints.length ∧ ∀ point ∈ value.windowPoints, point.Shape

instance : DecidablePred WindowAudit.Shape := fun _ => inferInstanceAs (Decidable (_ ∧ _ ∧ _))

section

variable (sha256 : Bytes → Digest) (write : Datum → String)

def contrastValue (identity : String) (left right : TrajectorySeries)
    (points : List ContrastPoint) : ImpactContrast :=
  let contrast : ImpactContrast :=
    { identity := identity
      semanticDigest := ""
      leftSeriesDigest := left.semanticDigest
      rightSeriesDigest := right.semanticDigest
      sourceCutDigest := left.sourceCutDigest
      sourceProjectionDigest := left.sourceProjectionDigest
      subjectIdentity := left.subjectIdentity
      outcomeIdentity := left.outcomeIdentity
      unitIdentity := left.unitIdentity
      timeDomainIdentity := left.timeDomainIdentity
      status :=
        if left.modality = .observed ∧ right.modality = .observed then .descriptiveContrast
        else .candidateContrast
      points := points }
  { contrast with semanticDigest := digest sha256 write contrast.datum }

def impactContrast (identity : String) (left right : TrajectorySeries) :
    Except Condition ImpactContrast := do
  guardElse (Text identity ∧ left.Shape ∧ right.Shape ∧ left.SameScope right)
    (raise "trajectory contrast requires one subject, outcome, unit and evidence scope" [])
  let left ← trajectoryReplay sha256 write left
  let right ← trajectoryReplay sha256 write right
  guardElse (left.coordinates = right.coordinates)
    (raise "trajectory contrast requires an aligned time grid" [])
  let points ← contrastLoop left.samples right.samples none []
  let contrast := contrastValue sha256 write identity left right points
  guardElse contrast.Shape .invalid
  return contrast

def auditValue (identity intervention : String) (onset finish : Instant)
    (contrast : ImpactContrast) (before window : List ContrastPoint) (area mean : ℚ) :
    WindowAudit :=
  { identity := identity
    semanticDigest := digest sha256 write
      (.list [.symbol "poo-flow.temporal-causality.intervention-window.v1", .text identity,
        .text intervention, .text contrast.semanticDigest, instantRow onset, instantRow finish,
        .symbol (prefixStatus before).symbol, .integer before.length, .number area, .number mean])
    contrastDigest := contrast.semanticDigest
    interventionIdentity := intervention
    onsetInstantIdentity := onset.identity
    endInstantIdentity := finish.identity
    sourceCutDigest := contrast.sourceCutDigest
    sourceProjectionDigest := contrast.sourceProjectionDigest
    subjectIdentity := contrast.subjectIdentity
    outcomeIdentity := contrast.outcomeIdentity
    unitIdentity := contrast.unitIdentity
    timeDomainIdentity := contrast.timeDomainIdentity
    prefixStatus := prefixStatus before
    prefixObservedCount := before.length
    windowPoints := window
    cumulativeDelta := area
    meanDelta := mean }

def windowAudit (identity intervention : String) (left right : TrajectorySeries)
    (onset finish : Instant) : Except Condition WindowAudit := do
  guardElse (Text identity ∧ Text intervention ∧ onset.Shape ∧ finish.Shape ∧ left.Shape ∧
      right.Shape ∧ left.modality ∈ [.predicted, .counterfactual] ∧ right.modality = .observed ∧
      onset.domainIdentity = left.timeDomainIdentity ∧
      finish.domainIdentity = left.timeDomainIdentity ∧ onset.coordinate < finish.coordinate)
    (raise "invalid candidate intervention window" [])
  let contrast ← impactContrast sha256 write (identity ++ "/contrast") left right
  let points := contrast.points
  let coordinates := points.map ContrastPoint.coordinate
  let before := points.filter fun point => point.coordinate < onset.coordinate
  let window := points.filter fun point =>
    onset.coordinate ≤ point.coordinate ∧ point.coordinate ≤ finish.coordinate
  guardElse (onset.coordinate ∈ coordinates ∧ finish.coordinate ∈ coordinates ∧
      2 ≤ window.length)
    (raise "intervention window endpoints must occur on the observed grid" [])
  let area ← windowArea window
  let mean ← divide area ((finish.coordinate : ℚ) - onset.coordinate)
  let audit := auditValue sha256 write identity intervention onset finish contrast before window
    area mean
  guardElse audit.Shape .invalid
  return audit

end

def pointAfter (previous : Option (ℕ × ℚ)) (left right : TrajectorySample) : ContrastPoint :=
  { coordinate := left.coordinate
    leftInstantIdentity := left.instant.identity
    rightInstantIdentity := right.instant.identity
    levelDelta := left.outcome - right.outcome
    rateDelta := previous.map fun before =>
      (left.outcome - right.outcome - before.2) / ((left.coordinate : ℚ) - before.1) }

def pointsAfter : Option (ℕ × ℚ) → List TrajectorySample → List TrajectorySample →
    List ContrastPoint
  | previous, left :: lefts, right :: rights =>
    pointAfter previous left right ::
      pointsAfter (some (left.coordinate, left.outcome - right.outcome)) lefts rights
  | _, _, _ => []

section

variable {lefts rights : List TrajectorySample} {previous : Option (ℕ × ℚ)}

theorem coordinates_pointsAfter (hlength : lefts.length = rights.length) :
    (pointsAfter previous lefts rights).map ContrastPoint.coordinate =
      lefts.map coordinate := by
  induction lefts generalizing rights previous with
  | nil => rfl
  | cons left lefts ih =>
    cases rights with
    | nil => simp at hlength
    | cons right rights =>
      simp only [pointsAfter, map_cons, pointAfter]
      rw [ih (Nat.succ.inj hlength)]

theorem shape_pointsAfter (hlefts : ∀ left ∈ lefts, left.Shape)
    (hrights : ∀ right ∈ rights, right.Shape) :
    ∀ point ∈ pointsAfter previous lefts rights, point.Shape := by
  induction lefts generalizing rights previous with
  | nil => exact forall_mem_nil _
  | cons left lefts ih =>
    cases rights with
    | nil => exact forall_mem_nil _
    | cons right rights =>
      rw [forall_mem_cons] at hlefts hrights
      rw [pointsAfter, forall_mem_cons]
      exact ⟨⟨hlefts.1.1, hrights.1.1⟩, ih hlefts.2 hrights.2⟩

theorem rateDelta_eq {coordinate : ℕ} (levelDelta : ℚ)
    (hbelow : ∀ before ∈ previous, before.1 < coordinate) :
    rateDelta previous coordinate levelDelta =
      .ok (previous.map fun before =>
        (levelDelta - before.2) / ((coordinate : ℚ) - before.1)) := by
  cases previous with
  | none => rfl
  | some before =>
    have hlt : before.1 < coordinate := hbelow before rfl
    have hne : (coordinate : ℚ) - before.1 ≠ 0 := sub_ne_zero.2 (Nat.cast_injective.ne hlt.ne')
    rw [rateDelta, divide_of_ne hne]
    rfl

theorem contrastPointValue_eq {left right : TrajectorySample} (hleft : left.Shape)
    (hright : right.Shape) (hbelow : ∀ before ∈ previous, before.1 < left.coordinate) :
    (do
      let rate ← rateDelta previous left.coordinate (left.outcome - right.outcome)
      contrastPointValue left.coordinate left.instant.identity right.instant.identity
        (left.outcome - right.outcome) rate) = .ok (pointAfter previous left right) := by
  have hpoint : (pointAfter previous left right).Shape := ⟨hleft.1, hright.1⟩
  rw [rateDelta_eq _ hbelow, ok_bind, contrastPointValue]
  exact bind_eq_ok.2 ⟨_, guardElse_of hpoint, rfl⟩

/-- **The loop never divides by zero** over ascending samples. -/
theorem contrastLoop_eq {reversePoints : List ContrastPoint}
    (hascending : Ascending coordinate lefts)
    (hbelow : ∀ before ∈ previous, ∀ left ∈ lefts, before.1 < left.coordinate)
    (hlength : lefts.length = rights.length)
    (hlefts : ∀ left ∈ lefts, left.Shape) (hrights : ∀ right ∈ rights, right.Shape) :
    contrastLoop lefts rights previous reversePoints =
      .ok (reversePoints.reverse ++ pointsAfter previous lefts rights) := by
  induction lefts generalizing rights previous reversePoints with
  | nil => simp [contrastLoop, pointsAfter]
  | cons left lefts ih =>
    cases rights with
    | nil => simp at hlength
    | cons right rights =>
      rw [forall_mem_cons] at hlefts hrights
      have hpoint := contrastPointValue_eq hlefts.1 hrights.1 fun before hbefore =>
        hbelow before hbefore left mem_cons_self
      have hnext : ∀ before ∈ some (left.coordinate, left.outcome - right.outcome),
          ∀ next ∈ lefts, before.1 < next.coordinate := by
        rintro _ ⟨⟩
        exact (pairwise_cons.1 hascending).1
      rw [contrastLoop, ← bind_assoc, hpoint, ok_bind, ih hascending.tail hnext (Nat.succ.inj hlength) hlefts.2 hrights.2, pointsAfter,
        reverse_cons, append_assoc]
      rfl

/-- **Exchanged samples** negate the deltas. -/
theorem pointsAfter_exchange
    (hgrid : lefts.map coordinate = rights.map coordinate) :
    pointsAfter (previous.map fun before => (before.1, -before.2)) rights lefts =
      (pointsAfter previous lefts rights).map ContrastPoint.exchanged := by
  induction lefts generalizing rights previous with
  | nil =>
    rw [map_nil, eq_comm, map_eq_nil_iff] at hgrid
    rw [hgrid]
    rfl
  | cons left lefts ih =>
    cases rights with
    | nil => simp at hgrid
    | cons right rights =>
      simp only [map_cons, List.cons.injEq] at hgrid
      obtain ⟨hcoordinate, htail⟩ := hgrid
      have hnext : pointsAfter (some (right.coordinate, right.outcome - left.outcome)) rights lefts =
          (pointsAfter (some (left.coordinate, left.outcome - right.outcome)) lefts rights).map
            ContrastPoint.exchanged := by
        rw [← ih htail, Option.map_some, neg_sub, hcoordinate]
      rw [pointsAfter, pointsAfter, map_cons, hnext]
      congr 1
      cases previous with
      | none => simp [pointAfter, ContrastPoint.exchanged, hcoordinate]
      | some before =>
        simp only [pointAfter, ContrastPoint.exchanged, hcoordinate, Option.map_some, neg_sub]
        congr 2
        rw [← neg_div]
        congr 1
        ring

end

structure Contrastable (sha256 : Bytes → Digest) (write : Datum → String) (identity : String)
    (left right : TrajectorySeries) : Prop where
  text : Text identity
  scope : left.SameScope right
  leftReplayable : Replayable sha256 write left
  rightReplayable : Replayable sha256 write right
  grid : left.replayed.coordinates = right.replayed.coordinates

def contrastOf (sha256 : Bytes → Digest) (write : Datum → String) (identity : String)
    (left right : TrajectorySeries) : ImpactContrast :=
  contrastValue sha256 write identity left.replayed right.replayed
    (pointsAfter none left.replayed.samples right.replayed.samples)

section

variable {sha256 : Bytes → Digest} {write : Datum → String} {identity : String}
  {left right : TrajectorySeries} {contrast : ImpactContrast}

theorem length_eq_of_grid (hgrid : left.coordinates = right.coordinates) :
    left.samples.length = right.samples.length := by
  have hlength := congrArg List.length hgrid
  rwa [TrajectorySeries.coordinates, TrajectorySeries.coordinates, length_map,
    length_map] at hlength

theorem Contrastable.swap (h : Contrastable sha256 write identity left right) :
    Contrastable sha256 write identity right left :=
  ⟨h.text, h.scope.swap, h.rightReplayable, h.leftReplayable, h.grid.symm⟩

theorem contrastLoop_replayed (hleft : Replayable sha256 write left)
    (hright : Replayable sha256 write right)
    (hgrid : left.replayed.coordinates = right.replayed.coordinates) :
    contrastLoop left.replayed.samples right.replayed.samples none [] =
      .ok (pointsAfter none left.replayed.samples right.replayed.samples) := by
  rw [contrastLoop_eq hleft.ascending _ (length_eq_of_grid hgrid) (shape_replayed hleft.shape).2.2
    (shape_replayed hright.shape).2.2]
  · rfl
  · exact fun before hbefore => absurd hbefore (Option.not_mem_none before)

theorem Contrastable.coordinates (h : Contrastable sha256 write identity left right) :
    (contrastOf sha256 write identity left right).points.map ContrastPoint.coordinate =
      left.replayed.coordinates :=
  coordinates_pointsAfter (length_eq_of_grid h.grid)

theorem Contrastable.shape (h : Contrastable sha256 write identity left right) :
    (contrastOf sha256 write identity left right).Shape := by
  have hleft := shape_replayed h.leftReplayable.shape
  have hright := shape_replayed h.rightReplayable.shape
  have hl := hleft.1
  have hr := hright.1
  simp only [forall_mem_cons] at hl hr
  refine ⟨?_, ?_, shape_pointsAfter hleft.2.2 hright.2.2⟩
  · simp only [contrastOf, contrastValue, forall_mem_cons]
    exact ⟨h.text, text_digest _, hl.2.1, hr.2.1, hl.2.2.2.2.2.2.1, hl.2.2.2.2.2.2.2.1, hl.2.2.1,
      hl.2.2.2.2.1, hl.2.2.2.2.2.1, hl.2.2.2.2.2.2.2.2.1, forall_mem_nil _⟩
  · have hlength := congrArg List.length h.coordinates
    rw [length_map, TrajectorySeries.coordinates, length_map] at hlength
    rw [hlength]
    exact hleft.2.1

/-- **Which series are contrasted**, and to what contrast. -/
theorem impactContrast_eq_ok : impactContrast sha256 write identity left right = .ok contrast ↔
      Contrastable sha256 write identity left right ∧
        contrast = contrastOf sha256 write identity left right := by
  rw [impactContrast]
  simp only [bind_eq_ok, guardElse_eq_ok, exists_const, pure_eq_ok, trajectoryReplay_eq_ok]
  constructor
  · rintro ⟨⟨htext, _, _, hscope⟩, _, ⟨hleft, rfl⟩, _, ⟨hright, rfl⟩, hgrid, points, hpoints, _,
      rfl⟩
    refine ⟨⟨htext, hscope, hleft, hright, hgrid⟩, ?_⟩
    rw [contrastLoop_replayed hleft hright hgrid, Except.ok.injEq] at hpoints
    rw [contrastOf, hpoints]
  · rintro ⟨h, rfl⟩
    exact ⟨⟨h.text, h.leftReplayable.shape, h.rightReplayable.shape, h.scope⟩, _, ⟨h.leftReplayable, rfl⟩, _, ⟨h.rightReplayable, rfl⟩,
      h.grid, _, contrastLoop_replayed h.leftReplayable h.rightReplayable h.grid, h.shape, rfl⟩

theorem trajectoryReplay_ne_divideByZero {series : TrajectorySeries} :
    trajectoryReplay sha256 write series ≠ .error .divideByZero := by
  simp [trajectoryReplay, trajectorySeries, bind_eq_error, raise]

theorem impactContrast_ne_divideByZero :
    impactContrast sha256 write identity left right ≠ .error .divideByZero := by
  intro h
  rw [impactContrast] at h
  simp only [bind_eq_error, guardElse_eq_error, guardElse_eq_ok, trajectoryReplay_eq_ok, raise,
    trajectoryReplay_ne_divideByZero, reduceCtorEq, and_false, false_or] at h
  obtain ⟨_, _, _, ⟨hleft, rfl⟩, _, ⟨hright, rfl⟩, _, hgrid, hloop⟩ := h
  rw [contrastLoop_replayed hleft hright hgrid] at hloop
  simp at hloop

end

def trapezoid (previous current : ContrastPoint) : ℚ :=
  (previous.levelDelta + current.levelDelta) / 2 *
    ((current.coordinate : ℚ) - previous.coordinate)

def area : List ContrastPoint → ℚ
  | previous :: current :: rest => trapezoid previous current + area (current :: rest)
  | _ => 0

theorem areaLoop_eq (previous : ContrastPoint) (rest : List ContrastPoint) (total : ℚ) :
    areaLoop previous rest total = total + area (previous :: rest) := by
  induction rest generalizing previous total with
  | nil => simp [areaLoop, area]
  | cons current rest ih => rw [areaLoop, ih, area, trapezoid, add_assoc]

/-- **Areas add up** at a point that two windows share. -/
theorem area_append (front back : List ContrastPoint) (point : ContrastPoint) :
    area (front ++ point :: back) = area (front ++ [point]) + area (point :: back) := by
  induction front with
  | nil => simp [area]
  | cons first front ih =>
    cases front with
    | nil => simp only [cons_append, nil_append, area, add_zero]
    | cons second front =>
      simp only [cons_append] at ih
      simp only [cons_append, area, ih, add_assoc]

theorem windowArea_eq {window : List ContrastPoint} (h : 2 ≤ window.length) :
    windowArea window = .ok (area window) := by
  cases window with
  | nil => simp at h
  | cons first rest =>
    rw [windowArea, areaLoop_eq, zero_add]
    rfl

def windowOf (onset finish : Instant) (points : List ContrastPoint) : List ContrastPoint :=
  between ContrastPoint.coordinate onset.coordinate finish.coordinate points

def prefixOf (onset : Instant) (points : List ContrastPoint) : List ContrastPoint :=
  points.filter fun point => point.coordinate < onset.coordinate

variable {points : List ContrastPoint}

theorem length_windowOf {onset finish : Instant}
    (honset : onset.coordinate ∈ points.map ContrastPoint.coordinate)
    (hfinish : finish.coordinate ∈ points.map ContrastPoint.coordinate)
    (hlt : onset.coordinate < finish.coordinate) : 2 ≤ (windowOf onset finish points).length := by
  obtain ⟨first, hfirst, honset⟩ := mem_map.1 honset
  obtain ⟨last, hlast, hfinish⟩ := mem_map.1 hfinish
  have hne : first ≠ last := by
    rintro rfl
    omega
  have hsub : [first, last].Subperm (windowOf onset finish points) := by
    refine subperm_of_subset (by simp [hne]) ?_
    simp only [cons_subset, nil_subset, and_true]
    exact ⟨mem_between.2 ⟨hfirst, by omega, by omega⟩, mem_between.2 ⟨hlast, by omega, by omega⟩⟩
  exact hsub.length_le

theorem prefixStatus_eq_consistent : prefixStatus points = .consistent ↔
      (∃ point, point ∈ points) ∧ ∀ point ∈ points, point.levelDelta = 0 := by
  rw [prefixStatus]
  by_cases hempty : points = []
  · simp [hempty]
  · by_cases hzero : ∀ point ∈ points, point.levelDelta = 0
    · rw [if_neg hempty, if_pos hzero]
      exact ⟨fun _ => ⟨exists_mem_of_ne_nil _ hempty, hzero⟩, fun _ => rfl⟩
    · rw [if_neg hempty, if_neg hzero]
      exact ⟨nofun, fun h => absurd h.2 hzero⟩

structure Auditable (sha256 : Bytes → Digest) (write : Datum → String)
    (identity intervention : String) (left right : TrajectorySeries) (onset finish : Instant) :
    Prop where
  texts : Text identity ∧ Text intervention
  instants : onset.Shape ∧ finish.Shape
  modality : left.modality ∈ [.predicted, .counterfactual] ∧ right.modality = .observed
  domain : onset.domainIdentity = left.timeDomainIdentity ∧
    finish.domainIdentity = left.timeDomainIdentity
  order : onset.coordinate < finish.coordinate
  contrast : Contrastable sha256 write (identity ++ "/contrast") left right
  grid : onset.coordinate ∈ left.coordinates ∧ finish.coordinate ∈ left.coordinates

def auditOf (sha256 : Bytes → Digest) (write : Datum → String) (identity intervention : String)
    (left right : TrajectorySeries) (onset finish : Instant) : WindowAudit :=
  let contrast := contrastOf sha256 write (identity ++ "/contrast") left right
  let window := windowOf onset finish contrast.points
  auditValue sha256 write identity intervention onset finish contrast
    (prefixOf onset contrast.points) window (area window)
    (area window / ((finish.coordinate : ℚ) - onset.coordinate))

section

variable {sha256 : Bytes → Digest} {write : Datum → String} {identity intervention : String}
  {left right : TrajectorySeries} {onset middle finish : Instant} {audit : WindowAudit}

theorem length_ne_zero (h : onset.coordinate < finish.coordinate) :
    (finish.coordinate : ℚ) - onset.coordinate ≠ 0 :=
  sub_ne_zero.2 (Nat.cast_injective.ne h.ne')

theorem Contrastable.mem_coordinates (h : Contrastable sha256 write identity left right)
    (coordinate : ℕ) : coordinate ∈ (contrastOf sha256 write identity left right).points.map
        ContrastPoint.coordinate ↔ coordinate ∈ left.coordinates := by
  rw [h.coordinates, left.mem_coordinates]

theorem Contrastable.ascending (h : Contrastable sha256 write identity left right) :
    Ascending ContrastPoint.coordinate (contrastOf sha256 write identity left right).points := by
  have hkeys := h.leftReplayable.ascending.keys
  rw [← TrajectorySeries.coordinates, ← h.coordinates] at hkeys
  exact pairwise_map.1 hkeys

theorem shape_auditValue {contrast : ImpactContrast} {before window : List ContrastPoint}
    {total mean : ℚ} (hcontrast : contrast.Shape) (htexts : Text identity ∧ Text intervention)
    (hinstants : onset.Shape ∧ finish.Shape) (hlength : 2 ≤ window.length)
    (hwindow : ∀ point ∈ window, point ∈ contrast.points) :
    (auditValue sha256 write identity intervention onset finish contrast before window total
      mean).Shape := by
  have hc := hcontrast.1
  simp only [forall_mem_cons] at hc
  refine ⟨?_, hlength, fun point hpoint => hcontrast.2.2 point (hwindow point hpoint)⟩
  simp only [auditValue, forall_mem_cons]
  exact ⟨htexts.1, text_digest _, hc.2.1, htexts.2, hinstants.1.1, hinstants.2.1,
    hc.2.2.2.2.1, hc.2.2.2.2.2.1, hc.2.2.2.2.2.2.1, hc.2.2.2.2.2.2.2.1, hc.2.2.2.2.2.2.2.2.1,
    hc.2.2.2.2.2.2.2.2.2.1, forall_mem_nil _⟩

/-- **Which windows are audited**, and to what audit. -/
theorem windowAudit_eq_ok :
    windowAudit sha256 write identity intervention left right onset finish = .ok audit ↔
      Auditable sha256 write identity intervention left right onset finish ∧
        audit = auditOf sha256 write identity intervention left right onset finish := by
  rw [windowAudit]
  simp only [bind_eq_ok, guardElse_eq_ok, exists_const, pure_eq_ok, impactContrast_eq_ok]
  constructor
  · rintro ⟨⟨hidentity, hintervention, honset, hfinish, _, _, hleft, hright, hstart, hend, hlt⟩,
      _, ⟨hcontrast, rfl⟩, ⟨hmemOnset, hmemFinish, hlength⟩, total, htotal, mean, hmean, _, rfl⟩
    refine ⟨⟨⟨hidentity, hintervention⟩, ⟨honset, hfinish⟩, ⟨hleft, hright⟩, ⟨hstart, hend⟩, hlt,
      hcontrast, (hcontrast.mem_coordinates _).1 hmemOnset,
      (hcontrast.mem_coordinates _).1 hmemFinish⟩, ?_⟩
    rw [windowArea_eq hlength, Except.ok.injEq] at htotal
    rw [divide_of_ne (length_ne_zero hlt), Except.ok.injEq] at hmean
    rw [auditOf, ← hmean, ← htotal]
    rfl
  · rintro ⟨h, rfl⟩
    have honset := (h.contrast.mem_coordinates _).2 h.grid.1
    have hfinish := (h.contrast.mem_coordinates _).2 h.grid.2
    have hlength := length_windowOf honset hfinish h.order
    refine ⟨⟨h.texts.1, h.texts.2, h.instants.1, h.instants.2, h.contrast.leftReplayable.shape,
      h.contrast.rightReplayable.shape, h.modality.1, h.modality.2, h.domain.1, h.domain.2,
      h.order⟩, _, ⟨h.contrast, rfl⟩, ⟨honset, hfinish, hlength⟩, _, windowArea_eq hlength, _,
      divide_of_ne (length_ne_zero h.order), ?_, rfl⟩
    exact shape_auditValue h.contrast.shape h.texts h.instants hlength fun point hpoint =>
      (mem_between.1 hpoint).1

theorem windowAudit_ne_divideByZero :
    windowAudit sha256 write identity intervention left right onset finish ≠
      .error .divideByZero := by
  intro h
  rw [windowAudit] at h
  simp only [bind_eq_error, guardElse_eq_error, guardElse_eq_ok, impactContrast_ne_divideByZero,
    raise, reduceCtorEq, and_false, false_or] at h
  obtain ⟨_, hguard, contrast, _, _, ⟨_, _, hlength⟩, harea | ⟨total, _, hmean⟩⟩ := h
  · rw [windowArea_eq hlength] at harea
    cases harea
  · rw [divide_of_ne (length_ne_zero hguard.2.2.2.2.2.2.2.2.2.2)] at hmean
    simp at hmean

theorem Auditable.split (h : Auditable sha256 write identity intervention left right onset finish)
    {name name' : String} (hname : Text name) (hname' : Text name') (hmiddle : middle.Shape)
    (hdomain : middle.domainIdentity = left.timeDomainIdentity)
    (hafter : onset.coordinate < middle.coordinate)
    (hbefore : middle.coordinate < finish.coordinate)
    (hgrid : middle.coordinate ∈ left.coordinates) :
    Auditable sha256 write name intervention left right onset middle ∧
      Auditable sha256 write name' intervention left right middle finish := by
  have hcontrast : ∀ text : String, Contrastable sha256 write (text ++ "/contrast") left right := by
    intro text
    refine ⟨?_, h.contrast.scope, h.contrast.leftReplayable, h.contrast.rightReplayable,
      h.contrast.grid⟩
    intro hempty
    exact absurd (String.append_eq_empty_iff.1 hempty).2 (by decide)
  exact ⟨⟨⟨hname, h.texts.2⟩, ⟨h.instants.1, hmiddle⟩, h.modality, ⟨h.domain.1, hdomain⟩, hafter,
      hcontrast name, h.grid.1, hgrid⟩,
    ⟨⟨hname', h.texts.2⟩, ⟨hmiddle, h.instants.2⟩, h.modality, ⟨hdomain, h.domain.2⟩, hbefore,
      hcontrast name', hgrid, h.grid.2⟩⟩

end

/-- What is asked of the audit of a window: its area is that of the trapezoids between its
points and adds up at each point strictly inside it, its prefix is consistent when there are
points before the onset, all of them without a delta, and its mean is the area over its
length. -/
structure ExactWindow (sha256 : Bytes → Digest) (write : Datum → String) (intervention : String)
    (left right : TrajectorySeries) (onset finish : Instant) (points : List ContrastPoint)
    (audit : WindowAudit) : Prop where
  trapezoids : audit.cumulativeDelta = area (windowOf onset finish points)
  split : ∀ (name name' : String) (middle : Instant), Text name → Text name' → middle.Shape →
    middle.domainIdentity = left.timeDomainIdentity → onset.coordinate < middle.coordinate →
    middle.coordinate < finish.coordinate →
    middle.coordinate ∈ points.map ContrastPoint.coordinate →
    ∃ before after,
      windowAudit sha256 write name intervention left right onset middle = .ok before ∧
      windowAudit sha256 write name' intervention left right middle finish = .ok after ∧
      audit.cumulativeDelta = before.cumulativeDelta + after.cumulativeDelta
  consistent : audit.prefixStatus = .consistent ↔
    (∃ point ∈ points, point.coordinate < onset.coordinate) ∧
      ∀ point ∈ points, point.coordinate < onset.coordinate → point.levelDelta = 0
  mean : audit.meanDelta * ((finish.coordinate : ℚ) - onset.coordinate) = audit.cumulativeDelta

section

variable {sha256 : Bytes → Digest} {write : Datum → String} {identity intervention : String}
  {left right : TrajectorySeries} {onset finish : Instant} {contrast : ImpactContrast}
  {audit : WindowAudit}

theorem impactContrast_swap (h : impactContrast sha256 write identity left right = .ok contrast) :
    ∃ contrast', impactContrast sha256 write identity right left = .ok contrast' ∧
      contrast'.points = contrast.points.map ContrastPoint.exchanged := by
  obtain ⟨hcontrastable, rfl⟩ := impactContrast_eq_ok.1 h
  refine ⟨_, impactContrast_eq_ok.2 ⟨hcontrastable.swap, rfl⟩, ?_⟩
  exact @pointsAfter_exchange _ _ none hcontrastable.grid

theorem exactWindow
    (h : windowAudit sha256 write identity intervention left right onset finish = .ok audit)
    (hcontrast : impactContrast sha256 write (identity ++ "/contrast") left right =
      .ok contrast) :
    ExactWindow sha256 write intervention left right onset finish contrast.points audit := by
  obtain ⟨hauditable, rfl⟩ := windowAudit_eq_ok.1 h
  obtain ⟨hcontrastable, rfl⟩ := impactContrast_eq_ok.1 hcontrast
  refine ⟨rfl, ?_, ?_, div_mul_cancel₀ _ (length_ne_zero hauditable.order)⟩
  · intro name name' middle hname hname' hshape hdomain hafter hbefore hgrid
    obtain ⟨hfront, hback⟩ := hauditable.split hname hname' hshape hdomain hafter hbefore
      ((hcontrastable.mem_coordinates _).1 hgrid)
    refine ⟨_, _, windowAudit_eq_ok.2 ⟨hfront, rfl⟩, windowAudit_eq_ok.2 ⟨hback, rfl⟩, ?_⟩
    -- the three windows are ranges of the points of one contrast
    obtain ⟨point, hpoint, hcoordinate⟩ := mem_map.1 hgrid
    obtain ⟨front, back, hwhole, hfirst, hsecond⟩ := hcontrastable.ascending.between_split hpoint
      (hcoordinate ▸ hafter.le) (hcoordinate ▸ hbefore.le)
    have hsum := area_append front back point
    rw [← hwhole, ← hfirst, ← hsecond, hcoordinate] at hsum
    exact hsum
  · show prefixStatus (prefixOf onset _) = .consistent ↔ _
    simp only [prefixStatus_eq_consistent, prefixOf, mem_filter, decide_eq_true_eq, and_imp]

/-- **Contrasts are antisymmetric and windows additive**, and neither divides by zero. -/
theorem impact_contrast_exact (sha256 : Bytes → Digest) (write : Datum → String) :
    (∀ identity left right,
      impactContrast sha256 write identity left right ≠ .error .divideByZero) ∧
    (∀ identity left right contrast,
      impactContrast sha256 write identity left right = .ok contrast →
      ∃ contrast', impactContrast sha256 write identity right left = .ok contrast' ∧
        contrast'.points = contrast.points.map ContrastPoint.exchanged) ∧
    (∀ identity intervention left right onset finish,
      windowAudit sha256 write identity intervention left right onset finish ≠
        .error .divideByZero) ∧
    ∀ identity intervention left right onset finish audit,
      windowAudit sha256 write identity intervention left right onset finish = .ok audit →
      ∃ contrast,
        impactContrast sha256 write (identity ++ "/contrast") left right = .ok contrast ∧
        ExactWindow sha256 write intervention left right onset finish contrast.points audit := by
  refine ⟨fun _ _ _ => impactContrast_ne_divideByZero, fun _ _ _ _ => impactContrast_swap,
    fun _ _ _ _ _ _ => windowAudit_ne_divideByZero, ?_⟩
  intro identity intervention left right onset finish audit h
  have hcontrastable := (windowAudit_eq_ok.1 h).1.contrast
  have hcontrast := impactContrast_eq_ok.2 ⟨hcontrastable, rfl⟩
  exact ⟨_, hcontrast, exactWindow h hcontrast⟩

end

def doseTrajectory (identity scenario : String) (modality : SeriesModality) (outcomes : List ℚ) :
    TrajectorySeries :=
  let samples := outcomes.mapIdx fun i outcome =>
    ⟨⟨identity ++ "-" ++ toString i, "clinic-clock", 2 * i, "ledger", "observed"⟩, outcome⟩
  let series : TrajectorySeries :=
    ⟨identity, "", "patient", scenario, "dose", "milligram", "cut", "projection",
      "clinic-clock", modality, samples⟩
  { series with semanticDigest := digest checksum writeDatum series.datum }

def predictedDose : TrajectorySeries :=
  doseTrajectory "predicted" "treatment" .predicted [1, 2, 7 / 2, 5]

def observedDose : TrajectorySeries :=
  doseTrajectory "observed" "baseline" .observed [1, 2, 3, 4]

def clinicInstant (coordinate : ℕ) : Instant :=
  ⟨"clinic-" ++ toString coordinate, "clinic-clock", coordinate, "ledger", "observed"⟩

/-- The window from the second of the measurements to the last. -/
theorem auditable_dose : Auditable checksum writeDatum "audit" "treatment" predictedDose
    observedDose (clinicInstant 2) (clinicInstant 6) :=
  ⟨by decide, by decide +kernel, by decide, by decide, by decide,
    ⟨by decide, by decide, by decide +kernel, by decide +kernel, by decide +kernel⟩, by decide⟩

theorem dose_contrast_exact : ∃ contrast audit,
    impactContrast checksum writeDatum "audit/contrast" predictedDose observedDose =
      .ok contrast ∧
    windowAudit checksum writeDatum "audit" "treatment" predictedDose observedDose
      (clinicInstant 2) (clinicInstant 6) = .ok audit ∧
    ExactWindow checksum writeDatum "treatment" predictedDose observedDose (clinicInstant 2)
      (clinicInstant 6) contrast.points audit ∧
    audit.cumulativeDelta = 2 ∧ audit.prefixStatus = .consistent := by
  have haudit := windowAudit_eq_ok.2 ⟨auditable_dose, rfl⟩
  obtain ⟨contrast, hcontrast, hexact⟩ :=
    (impact_contrast_exact checksum writeDatum).2.2.2 _ _ _ _ _ _ _ haudit
  exact ⟨contrast, _, hcontrast, haudit, hexact, by decide +kernel, by decide +kernel⟩

end PooFlow.Temporal
