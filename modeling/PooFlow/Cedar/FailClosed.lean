import PooFlow.Cedar.Authority
import PooFlow.Cedar.Session

namespace PooFlow.Cedar

open Foundation

section

variable (crypto : Crypto) (fromSlice : List UInt8 → Except String RuntimeReply)
  {cedar : CedarPolicy} (authority : Authority cedar) (proposal : Proposal)
  (surroundings : Surroundings)

/-- The call asks the engines about a prepared request. -/
structure Reached (prepared : PreparedRequest) : Prop where
  live : authority.ensureLive = .ok ()
  budget : (authority.sweep surroundings.sweep).pending.rows.length < maxPending
  prepared : authority.snapshot.prepare crypto.sha256 proposal = .ok prepared

/-- The client takes the reply for two witnesses. -/
def Accepted (prepared : PreparedRequest) (rust lean : RuntimeWitness) : Prop :=
  (authority.runtime.evaluate crypto.sha256 fromSlice surroundings.transport prepared.protobuf).2 =
    .ok (rust, lean)

/-- The random source, the clock and the signatures work. -/
def Concludes (prepared : PreparedRequest) (rust lean : RuntimeWitness) : Prop :=
  ∃ concluded, authority.conclude crypto proposal prepared rust lean surroundings = .ok concluded

structure Allowed (rust lean : RuntimeWitness) : Prop where
  rustValid : rust.outcome.Valid "cedar-rust" cedarVersion
  leanValid : lean.outcome.Valid "cedar-lean" leanRevision
  rustAllows : rust.outcome.decision = "allow"
  leanAllows : lean.outcome.decision = "allow"

/-- **Failing closed**: a grant is returned only on a reply whose witnesses are
allowed; any other reply leads to a denial, or to an error after which nothing is
pending. -/
structure FailsClosed : Prop where
  grant : ∀ result grant, (authority.issue crypto fromSlice proposal surroundings).2 = .ok result →
    result.grant = some grant → ∃ prepared rust lean,
      Reached crypto authority proposal surroundings prepared ∧
        Accepted crypto fromSlice authority surroundings prepared rust lean ∧ Allowed rust lean
  closed : ∀ prepared, Reached crypto authority proposal surroundings prepared →
    (∀ rust lean, Accepted crypto fromSlice authority surroundings prepared rust lean →
      ¬Allowed rust lean) →
    (∃ result, (authority.issue crypto fromSlice proposal surroundings).2 = .ok result ∧
        result.status = "denied" ∧ result.grant = none) ∨
      (∃ error, (authority.issue crypto fromSlice proposal surroundings).2 = .error error) ∧
        (authority.issue crypto fromSlice proposal surroundings).1.pending = .empty

/-- The replies on which the call fails closed: those that the client refuses, and
witnesses that are allowed or decide `deny`; where the random source, the clock or
the signatures do not work, nothing else may be pending. -/
def ClosedReply : Prop :=
  ∀ prepared rust lean, Reached crypto authority proposal surroundings prepared →
    Accepted crypto fromSlice authority surroundings prepared rust lean →
    Allowed rust lean ∨
      Concludes crypto authority proposal surroundings prepared rust lean ∧
        rust.outcome.decision = "deny" ∨
      ¬Concludes crypto authority proposal surroundings prepared rust lean ∧
        (authority.sweep surroundings.sweep).pending = .empty

end

section

variable {crypto : Crypto} {fromSlice : List UInt8 → Except String RuntimeReply}
  {cedar : CedarPolicy} {authority : Authority cedar} {proposal : Proposal}
  {surroundings : Surroundings} {prepared : PreparedRequest}

theorem reached_of_ok {result : AuthorizationResult}
    (h : (authority.issue crypto fromSlice proposal surroundings).2 = .ok result) :
    ∃ prepared, Reached crypto authority proposal surroundings prepared := by
  unfold Authority.issue at h
  split at h
  · cases h
  · next hlive =>
    simp only at h
    split_ifs at h with hbudget
    split at h
    · cases h
    · next prepared hprepared => exact ⟨prepared, hlive, Nat.lt_of_not_le hbudget, hprepared⟩

/-- A call that asks the engines. -/
theorem issue_of_reached (h : Reached crypto authority proposal surroundings prepared) :
    (∃ error, (authority.runtime.evaluate crypto.sha256 fromSlice surroundings.transport
          prepared.protobuf).2 = .error error ∧
        (authority.issue crypto fromSlice proposal surroundings).2 = .error error ∧
        (authority.issue crypto fromSlice proposal surroundings).1.pending = .empty) ∨
      ∃ rust lean, Accepted crypto fromSlice authority surroundings prepared rust lean ∧
        (authority.issue crypto fromSlice proposal surroundings).2 =
          (authority.conclude crypto proposal prepared rust lean surroundings).map Prod.fst ∧
        (¬Concludes crypto authority proposal surroundings prepared rust lean →
          (authority.issue crypto fromSlice proposal surroundings).1.pending =
            (authority.sweep surroundings.sweep).pending) := by
  have hprepared : (authority.sweep surroundings.sweep).snapshot.prepare crypto.sha256 proposal =
      .ok prepared := h.prepared
  rcases hexec : authority.runtime.evaluate crypto.sha256 fromSlice surroundings.transport
    prepared.protobuf with ⟨runtime, execution⟩
  have hexec' : (authority.sweep surroundings.sweep).runtime.evaluate crypto.sha256 fromSlice
      surroundings.transport prepared.protobuf = (runtime, execution) := hexec
  rw [Authority.issue, h.live]
  simp only [Nat.not_le.2 h.budget, if_false, hprepared, hexec']
  cases execution with
  | error error => exact .inl ⟨error, rfl, rfl, rfl⟩
  | ok engines =>
    obtain ⟨rust, lean⟩ := engines
    refine .inr ⟨rust, lean, by rw [Accepted, hexec], ?_⟩
    have hsame : ∀ runtime, Authority.conclude crypto
        { authority.sweep surroundings.sweep with runtime := runtime } proposal prepared rust lean
        surroundings = authority.conclude crypto proposal prepared rust lean surroundings :=
      fun _ => rfl
    simp only [hsame, Concludes]
    rcases hconclude : authority.conclude crypto proposal prepared rust lean surroundings with
      error | ⟨result, _ | ⟨grantId, entry⟩⟩
    · exact ⟨rfl, fun _ => rfl⟩
    · exact ⟨rfl, fun hnot => absurd ⟨_, rfl⟩ hnot⟩
    · exact ⟨rfl, fun hnot => absurd ⟨_, rfl⟩ hnot⟩

theorem Accepted.unique {rust lean rust' lean' : RuntimeWitness}
    (h : Accepted crypto fromSlice authority surroundings prepared rust lean)
    (h' : Accepted crypto fromSlice authority surroundings prepared rust' lean') :
    rust = rust' ∧ lean = lean' :=
  Prod.mk.inj (Except.ok.inj (h.symm.trans h'))

theorem Reached.unique {prepared' : PreparedRequest}
    (h : Reached crypto authority proposal surroundings prepared)
    (h' : Reached crypto authority proposal surroundings prepared') : prepared = prepared' :=
  Except.ok.inj (h.prepared.symm.trans h'.prepared)

/-- **When a call fails closed.** -/
theorem failsClosed_iff (crypto : Crypto) (fromSlice : List UInt8 → Except String RuntimeReply)
    {cedar : CedarPolicy} (authority : Authority cedar) (proposal : Proposal)
    (surroundings : Surroundings) : FailsClosed crypto fromSlice authority proposal surroundings ↔
      ClosedReply crypto fromSlice authority proposal surroundings := by
  constructor
  · intro h prepared rust lean hreached haccepted
    by_cases hallowed : Allowed rust lean
    · exact .inl hallowed
    refine .inr ?_
    obtain ⟨error, herror, -⟩ | ⟨rust', lean', haccepted', hresult, hpending⟩ :=
      issue_of_reached hreached
    · rw [Accepted, herror] at haccepted
      cases haccepted
    obtain ⟨rfl, rfl⟩ := haccepted.unique haccepted'
    have hclosed := h.closed prepared hreached fun rust' lean' haccepted' => by
      obtain ⟨rfl, rfl⟩ := haccepted.unique haccepted'
      exact hallowed
    by_cases hconcludes : Concludes crypto authority proposal surroundings prepared rust lean
    · obtain ⟨⟨result, entry⟩, hconclude⟩ := hconcludes
      refine .inl ⟨⟨_, hconclude⟩, ?_⟩
      rw [hconclude] at hresult
      obtain ⟨hdeny, -⟩ | ⟨grant, pending, -, -, hgrant, -⟩ :=
        Authority.conclude_eq hreached.prepared hconclude
      · exact hdeny
      · -- a grant that the claim of the call does not admit
        obtain ⟨prepared', rust', lean', hreached', haccepted', hallowed'⟩ :=
          h.grant result grant hresult hgrant
        obtain rfl := hreached.unique hreached'
        obtain ⟨rfl, rfl⟩ := haccepted.unique haccepted'
        exact absurd hallowed' hallowed
    · refine .inr ⟨hconcludes, ?_⟩
      rcases hclosed with ⟨result, hok, -⟩ | ⟨-, hempty⟩
      · obtain ⟨concluded, hconclude, -⟩ := map_eq_ok.1 (hresult.symm.trans hok)
        exact absurd ⟨concluded, hconclude⟩ hconcludes
      · rw [← hpending hconcludes, hempty]
  · intro h
    refine ⟨fun result grant hok hgrant => ?_, fun prepared hreached hnone => ?_⟩
    · obtain ⟨prepared, hreached⟩ := reached_of_ok hok
      obtain ⟨error, -, herror, -⟩ | ⟨rust, lean, haccepted, hresult, -⟩ :=
        issue_of_reached hreached
      · rw [herror] at hok
        cases hok
      obtain ⟨⟨result', entry⟩, hconclude, rfl⟩ := map_eq_ok.1 (hresult.symm.trans hok)
      obtain hallowed | ⟨-, hdeny⟩ | ⟨hnot, -⟩ := h prepared rust lean hreached haccepted
      · exact ⟨prepared, rust, lean, hreached, haccepted, hallowed⟩
      · obtain ⟨-, -, hnone, -⟩ | ⟨_, _, hnodeny, -⟩ :=
          Authority.conclude_eq hreached.prepared hconclude
        · exact absurd (hnone.symm.trans hgrant) nofun
        · exact absurd hdeny hnodeny
      · exact absurd ⟨_, hconclude⟩ hnot
    · obtain ⟨error, -, herror, hempty⟩ | ⟨rust, lean, haccepted, hresult, hpending⟩ :=
        issue_of_reached hreached
      · exact .inr ⟨⟨error, herror⟩, hempty⟩
      obtain hallowed | ⟨⟨⟨result, entry⟩, hconclude⟩, hdeny⟩ | ⟨hnot, hempty⟩ :=
        h prepared rust lean hreached haccepted
      · exact absurd hallowed (hnone rust lean haccepted)
      · rw [hconclude] at hresult
        obtain ⟨-, hstatus, hgrant, -⟩ | ⟨_, _, hnodeny, -⟩ :=
          Authority.conclude_eq hreached.prepared hconclude
        · exact .inl ⟨result, hresult, hstatus, hgrant⟩
        · exact absurd hdeny hnodeny
      · refine .inr ⟨?_, (hpending hnot).trans hempty⟩
        rcases hconclude : authority.conclude crypto proposal prepared rust lean surroundings with
          error | concluded
        · exact ⟨error, by rw [hresult, hconclude]; rfl⟩
        · exact absurd ⟨concluded, hconclude⟩ hnot

end

def demoCedar : CedarPolicy where
  EntityUid := String
  Schema := Unit
  Context := CanonicalTree
  Request := String × String × String × CanonicalTree
  PolicySet := Unit
  Entities := Unit
  parseUid text := if text = "" then .error "unexpected end of input" else .ok text
  uidText := id
  contextFromJson context _ _ := .ok context
  contextToJson := .ok
  newRequest principal action resource context _ := .ok (principal, action, resource, context)
  encodeRequest _ _ _ := [0x0a, 0x00]

def demoCrypto : Crypto where
  sha256 bytes := List.replicate 32 (UInt8.ofNat bytes.length)
  verifyingKey := List.replicate 32 1
  sign _ := List.replicate 64 2
  validKey _ := true
  verifyStrict _ _ signature := signature = List.replicate 64 2

def demoDigest : String :=
  "sha256:e3b0c44298fc1c149afbf4c8996fb92427ae41e4649b934ca495991b7852b855"

def demoAuthority : Authority demoCedar where
  snapshot := {
    bootstrap := {
      provenance := ⟨"composition", ["profile"], "d", "d", "d", true, ["proof"]⟩
      authorityId := "authority"
      runtimeContextId := "context"
      runtimeGeneration := 1
      bundleEpoch := 1
      runtimeBundleDigest := "d"
      profileBundleDigest := "d"
      independentBundleDigest := "d"
      capabilityContractDigest := "d"
      policyRevision := 1
      revocationEpoch := 0 }
    schema := ()
    policies := ()
    entities := ()
    capabilities := Keyed.empty.put "Action::\"read\"" (1, false)
    policyDigest := "d"
    entityDigest := "d"
    schemaDigest := "d" }
  runtime := ⟨[], demoHello, 0⟩
  authorityInstance := "00"
  deployment := ⟨"d", 5000⟩
  pending := .empty
  suspended := none
  closed := false

def demoProposal : Proposal where
  schemaId := "poo-flow.cedar-authorization-request.v1"
  principal := "User::\"ann\""
  action := "Action::\"read\""
  resource := "File::\"plan\""
  context := ⟨.object [], by simp [JsonTree.canonical_object, FieldsSorted]⟩
  intentDigest := demoDigest
  handoff := ⟨1, "00", demoDigest, demoDigest, demoDigest, demoDigest⟩

def demoWitness (engine component revision decision : String) : RuntimeWitness :=
  ⟨engine, component, 3, ⟨outcomeSchema, engine, revision, decision, ["p0"], []⟩⟩

/-- The reply of a host whose engines decide `decision`. -/
def demoReply (crypto : Crypto) (decision : String) : RuntimeReply where
  schemaId := replySchema
  generation := "00"
  sequence := 1
  inputArtifactDigest := rawDigest crypto.sha256 [0x0a, 0x00]
  rust := some (demoWitness "cedar-rust" "sha256:01" cedarVersion decision)
  lean := some (demoWitness "cedar-lean" "sha256:02" leanRevision decision)
  error := none

def demoFrame (crypto : Crypto) (decision : String) : List UInt8 :=
  bigEndian 4 (toVec (demoReply crypto decision).toSerde).length ++
    toVec (demoReply crypto decision).toSerde

def demoSurroundings (crypto : Crypto) (decision : String) : Surroundings where
  sweep _ := 0
  transport := ⟨demoFrame crypto decision, none⟩
  entropy := .ok ⟨List.replicate 16 7, rfl⟩
  systemTime := .ok 1000
  now := 10

variable {prepared : PreparedRequest}

theorem demo_accepted {decision : String} (hprotobuf : prepared.protobuf = [0x0a, 0x00])
    (hlength : textSize (JsonText.render (demoReply demoCrypto decision).toSerde) ≤ maxFrameBytes) :
    Accepted demoCrypto replyFromSlice demoAuthority (demoSurroundings demoCrypto decision) prepared
      (demoWitness "cedar-rust" "sha256:01" cedarVersion decision)
      (demoWitness "cedar-lean" "sha256:02" leanRevision decision) := by
  have hframe : writeFrame (toVec (demoReply demoCrypto decision).toSerde) = .ok (demoFrame demoCrypto decision) :=
    then_eq_ok.2 ⟨guardElse_eq_ok.2 (length_toVec _ ▸ hlength), rfl⟩
  have hvalid : (demoReply demoCrypto decision).validate demoCrypto.sha256 demoHello 1 [0x0a, 0x00] =
      .ok (.inl (demoWitness "cedar-rust" "sha256:01" cedarVersion decision,
        demoWitness "cedar-lean" "sha256:02" leanRevision decision)) :=
    RuntimeReply.validate_eq_ok.2 ⟨⟨rfl, rfl, rfl, rfl⟩, rfl, rfl, rfl,
      ⟨rfl, rfl, rfl, rfl, rfl, rfl, rfl⟩⟩
  rw [Accepted, hprotobuf]
  exact congrArg Prod.snd (@evaluate_of_reply _ _ reads_replyFromSlice demoAuthority.runtime _ _ _ _
    rfl (by decide) (by decide) hframe (show (1 : ℕ) < 2 ^ 64 by decide) hvalid)

/-- The digest of so many bytes. -/
def demoHashed (length : ℕ) : String := rawDigest demoCrypto.sha256 (List.replicate length 0)

def demoPrepared : PreparedRequest where
  subject := subjectOf demoAuthority.snapshot (demoHashed 46)
  policyInputDigest := demoHashed 215
  protobuf := [0x0a, 0x00]
  eventKind := 1
  action := "Action::\"read\""

theorem demo_prepared :
    demoAuthority.snapshot.prepare demoCrypto.sha256 demoProposal = .ok demoPrepared := by
  decide +kernel

theorem demo_concludes : Concludes demoCrypto demoAuthority demoProposal
    (demoSurroundings demoCrypto "maybe") demoPrepared
    (demoWitness "cedar-rust" "sha256:01" cedarVersion "maybe")
    (demoWitness "cedar-lean" "sha256:02" leanRevision "maybe") := by
  unfold Concludes
  decide +kernel

/-- **A grant for outcomes that decide neither way.** -/
theorem undecided_granted : ¬FailsClosed demoCrypto replyFromSlice demoAuthority demoProposal
    (demoSurroundings demoCrypto "maybe") := by
  have hreached : Reached demoCrypto demoAuthority demoProposal (demoSurroundings demoCrypto "maybe")
      demoPrepared := ⟨rfl, Nat.zero_lt_succ _, demo_prepared⟩
  have haccepted := @demo_accepted demoPrepared "maybe" rfl (by decide +kernel)
  rw [failsClosed_iff]
  intro h
  obtain hallowed | ⟨-, hdeny⟩ | ⟨hnot, -⟩ := h _ _ _ hreached haccepted
  · exact absurd hallowed.rustAllows (by decide)
  · exact absurd hdeny (by decide)
  · exact hnot demo_concludes

end PooFlow.Cedar
