import PooFlow.Foundation.Comparison
import PooFlow.Temporal.Types

namespace PooFlow.Temporal

open Foundation List

structure TrajectorySample where
  instant : Instant
  outcome : ℚ
deriving DecidableEq

namespace TrajectorySample

def Shape (value : TrajectorySample) : Prop := value.instant.Shape

instance : DecidablePred Shape := fun value => inferInstanceAs (Decidable value.instant.Shape)

def coordinate (sample : TrajectorySample) : ℕ := sample.instant.coordinate

def row (sample : TrajectorySample) : String × String × ℕ × String × String × ℚ :=
  (sample.instant.identity, sample.instant.domainIdentity, sample.instant.coordinate,
    sample.instant.provenanceIdentity, sample.instant.modality, sample.outcome)

theorem row_injective : Function.Injective row := by
  rintro ⟨⟨_, _, _, _, _⟩, _⟩ ⟨⟨_, _, _, _, _⟩, _⟩ h
  simp only [row, Prod.mk.injEq] at h
  obtain ⟨rfl, rfl, rfl, rfl, rfl, rfl⟩ := h
  rfl

def datum (sample : TrajectorySample) : Datum :=
  .list [.text sample.instant.identity, .text sample.instant.domainIdentity,
    .integer sample.instant.coordinate, .text sample.instant.provenanceIdentity,
    .symbol sample.instant.modality, .number sample.outcome]

end TrajectorySample

inductive SeriesModality where
  | observed | predicted | counterfactual
deriving DecidableEq

def SeriesModality.symbol : SeriesModality → String
  | .observed => "observed"
  | .predicted => "predicted"
  | .counterfactual => "counterfactual"

structure TrajectorySeries where
  identity : String
  semanticDigest : String
  subjectIdentity : String
  scenarioIdentity : String
  outcomeIdentity : String
  unitIdentity : String
  sourceCutDigest : String
  sourceProjectionDigest : String
  timeDomainIdentity : String
  modality : SeriesModality
  samples : List TrajectorySample
deriving DecidableEq

namespace TrajectorySeries

def Shape (value : TrajectorySeries) : Prop :=
  (∀ text ∈ [value.identity, value.semanticDigest, value.subjectIdentity, value.scenarioIdentity,
    value.outcomeIdentity, value.unitIdentity, value.sourceCutDigest, value.sourceProjectionDigest,
    value.timeDomainIdentity], Text text) ∧
  2 ≤ value.samples.length ∧ ∀ sample ∈ value.samples, sample.Shape

instance : DecidablePred Shape := fun _ => inferInstanceAs (Decidable (_ ∧ _ ∧ _))

def coordinates (series : TrajectorySeries) : List ℕ :=
  series.samples.map TrajectorySample.coordinate

def datum (series : TrajectorySeries) : Datum :=
  .list [.symbol "poo-flow.temporal-causality.trajectory-series.v1", .text series.identity,
    .text series.subjectIdentity, .text series.scenarioIdentity, .text series.outcomeIdentity,
    .text series.unitIdentity, .text series.sourceCutDigest, .text series.sourceProjectionDigest,
    .text series.timeDomainIdentity, .symbol series.modality.symbol,
    .list (series.samples.map TrajectorySample.datum)]

end TrajectorySeries

def clockDomain : List TrajectorySample → String
  | [] => ""
  | sample :: _ => sample.instant.domainIdentity

structure OneClock (samples : List TrajectorySample) : Prop where
  positions : (samples.map TrajectorySample.coordinate).Nodup
  instants : (samples.map fun sample => sample.instant.identity).Nodup
  domain : ∀ sample ∈ samples, sample.instant.domainIdentity = clockDomain samples

instance : DecidablePred OneClock := fun samples =>
  decidable_of_iff
    ((samples.map TrajectorySample.coordinate).Nodup ∧
      (samples.map fun sample => sample.instant.identity).Nodup ∧
      ∀ sample ∈ samples, sample.instant.domainIdentity = clockDomain samples)
    ⟨fun h => ⟨h.1, h.2.1, h.2.2⟩, fun h => ⟨h.positions, h.instants, h.domain⟩⟩

section

variable (sha256 : Bytes → Digest) (write : Datum → String)

def trajectorySeries (identity subject scenario outcome unit cut projection : String)
    (modality : SeriesModality) (samples : List TrajectorySample) :
    Except Condition TrajectorySeries := do
  guardElse ((∀ text ∈ [identity, subject, scenario, outcome, unit, cut, projection], Text text) ∧
      2 ≤ samples.length ∧ ∀ sample ∈ samples, sample.Shape)
    (raise "invalid temporal trajectory series" [])
  let ordered := sortOn TrajectorySample.coordinate samples
  guardElse (OneClock ordered)
    (raise "trajectory samples require one clock domain and unique times" [])
  let series : TrajectorySeries :=
    ⟨identity, "", subject, scenario, outcome, unit, cut, projection, clockDomain ordered,
      modality, ordered⟩
  let series := { series with semanticDigest := digest sha256 write series.datum }
  guardElse series.Shape .invalid
  return series

def trajectoryReplay (series : TrajectorySeries) : Except Condition TrajectorySeries := do
  guardElse series.Shape (raise "invalid temporal trajectory series" [])
  let canonical ← trajectorySeries sha256 write series.identity series.subjectIdentity
    series.scenarioIdentity series.outcomeIdentity series.unitIdentity series.sourceCutDigest
    series.sourceProjectionDigest series.modality series.samples
  guardElse (series.semanticDigest = canonical.semanticDigest)
    (raise "trajectory series digest differs from its samples" [])
  return canonical

end

/-- The series that a replay makes: the slots are kept, but for the order of the samples
and the clock domain, which is theirs. -/
def TrajectorySeries.replayed (series : TrajectorySeries) : TrajectorySeries :=
  { series with
    timeDomainIdentity := clockDomain (sortOn TrajectorySample.coordinate series.samples)
    samples := sortOn TrajectorySample.coordinate series.samples }

structure Replayable (sha256 : Bytes → Digest) (write : Datum → String)
    (series : TrajectorySeries) : Prop where
  shape : series.Shape
  clock : OneClock series.replayed.samples
  digest : series.semanticDigest = digest sha256 write series.replayed.datum

section

variable {sha256 : Bytes → Digest} {write : Datum → String} {series canonical : TrajectorySeries}

instance : Decidable (Replayable sha256 write series) :=
  decidable_of_iff
    (series.Shape ∧ OneClock series.replayed.samples ∧
      series.semanticDigest = Temporal.digest sha256 write series.replayed.datum)
    ⟨fun h => ⟨h.1, h.2.1, h.2.2⟩, fun h => ⟨h.shape, h.clock, h.digest⟩⟩

theorem text_clockDomain {samples : List TrajectorySample} (hlength : 2 ≤ samples.length)
    (hshape : ∀ sample ∈ samples, sample.Shape) : Text (clockDomain samples) := by
  cases samples with
  | nil => simp at hlength
  | cons sample samples => exact (hshape sample mem_cons_self).2.1

theorem shape_replayed (h : series.Shape) : series.replayed.Shape := by
  have hperm : series.replayed.samples.Perm series.samples := perm_sortOn _ _
  have hlength : 2 ≤ series.replayed.samples.length := hperm.length_eq ▸ h.2.1
  have hsamples : ∀ sample ∈ series.replayed.samples, sample.Shape :=
    fun sample hsample => h.2.2 sample (hperm.mem_iff.1 hsample)
  refine ⟨?_, hlength, hsamples⟩
  have htexts := h.1
  simp only [forall_mem_cons] at htexts ⊢
  exact ⟨htexts.1, htexts.2.1, htexts.2.2.1, htexts.2.2.2.1, htexts.2.2.2.2.1,
    htexts.2.2.2.2.2.1, htexts.2.2.2.2.2.2.1, htexts.2.2.2.2.2.2.2.1,
    text_clockDomain hlength hsamples, forall_mem_nil _⟩

/-- **Which series are replayed**, and to what. -/
theorem trajectoryReplay_eq_ok : trajectoryReplay sha256 write series = .ok canonical ↔
      Replayable sha256 write series ∧ canonical = series.replayed := by
  rw [trajectoryReplay, trajectorySeries]
  simp only [bind_eq_ok, guardElse_eq_ok, exists_const, pure_eq_ok]
  constructor
  · rintro ⟨hshape, made, ⟨_, hclock, _, rfl⟩, hdigest, rfl⟩
    refine ⟨⟨hshape, hclock, hdigest⟩, ?_⟩
    rw [TrajectorySeries.replayed, hdigest]
  · rintro ⟨hreplayable, rfl⟩
    have hshape := hreplayable.shape
    have htexts := hshape.1
    simp only [forall_mem_cons] at htexts
    refine ⟨hshape, series.replayed, ⟨⟨?_, hshape.2⟩, hreplayable.clock, ?_, ?_⟩, rfl, rfl⟩
    · simp only [forall_mem_cons]
      exact ⟨htexts.1, htexts.2.2.1, htexts.2.2.2.1, htexts.2.2.2.2.1, htexts.2.2.2.2.2.1,
        htexts.2.2.2.2.2.2.1, htexts.2.2.2.2.2.2.2.1, forall_mem_nil _⟩
    · have hmade := shape_replayed hshape
      rw [TrajectorySeries.replayed, hreplayable.digest] at hmade
      exact hmade
    · rw [TrajectorySeries.replayed, hreplayable.digest]
      rfl

theorem replayed_replayed : series.replayed.replayed = series.replayed := by
  simp only [TrajectorySeries.replayed, sortOn_sortOn]

theorem TrajectorySeries.mem_coordinates (series : TrajectorySeries) (coordinate : ℕ) :
    coordinate ∈ series.replayed.coordinates ↔ coordinate ∈ series.coordinates :=
  ((perm_sortOn TrajectorySample.coordinate series.samples).map _).mem_iff

namespace Replayable

theorem replayed (h : Replayable sha256 write series) :
    Replayable sha256 write series.replayed := by
  refine ⟨shape_replayed h.shape, ?_, ?_⟩
  · rw [replayed_replayed]
    exact h.clock
  · rw [replayed_replayed]
    exact h.digest

theorem ascending (h : Replayable sha256 write series) :
    Ascending TrajectorySample.coordinate series.replayed.samples := by
  have hsorted := pairwise_sortOn TrajectorySample.coordinate series.samples
  have hdistinct : series.replayed.samples.Pairwise fun a b => a.coordinate ≠ b.coordinate :=
    pairwise_map.1 h.clock.positions
  exact (hsorted.and hdistinct).imp fun hab => lt_of_le_of_ne hab.1 hab.2

end Replayable

end

end PooFlow.Temporal
