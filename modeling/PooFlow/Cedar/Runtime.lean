import PooFlow.Cedar.Canonical

/-! `wire.rs` and `runtime.rs`: outcomes, replies, framing and the client. `fromSlice` is the reader
of `serde_json` with the derived `Deserialize`. -/

namespace PooFlow.Cedar

open Foundation List
open Except (ok.inj)

def cedarVersion : String := "4.12.0"

def leanRevision : String := "e9fa9c1e6b636f29b0897d8706bd7aa5eaf06f9a"

def outcomeSchema : String := "poo-flow.cedar-engine-outcome.v1"

structure Outcome where
  schemaId : String
  engineId : String
  semanticRevision : String
  decision : String
  determiningPolicies : List String
  erroringPolicies : List String

def sortIds (ids : List String) : List String := ids.insertionSort (· ≤ ·)

def checkIds (ids : List String) : Except Error (List String) := do
  let ids := sortIds ids
  guardElse ((∀ pair ∈ ids.zip ids.tail, pair.1 ≠ pair.2) ∧ ∀ id ∈ ids, id ≠ "")
    ⟨"engine-outcome-malformed", "duplicate or empty policy identity"⟩
  return ids

/-- `Outcome::validate`, with the outcome it leaves. -/
def Outcome.validate (outcome : Outcome) (engineId revision : String) : Except Error Outcome := do
  guardElse (outcome.schemaId = outcomeSchema ∧ outcome.engineId = engineId ∧
    outcome.semanticRevision = revision) ⟨"engine-identity-mismatch", engineId⟩
  guardElse (outcome.decision = "allow" ∨ outcome.decision = "deny")
    ⟨"engine-outcome-malformed", "unknown decision"⟩
  let determining ← checkIds outcome.determiningPolicies
  let erroring ← checkIds outcome.erroringPolicies
  guardElse (∀ id ∈ determining, id ∉ erroring)
    ⟨"engine-outcome-malformed", "determining and erroring identities overlap"⟩
  guardElse (outcome.decision = "allow" → determining ≠ [])
    ⟨"engine-outcome-malformed", "allow requires an explicit determining policy"⟩
  return { outcome with determiningPolicies := determining, erroringPolicies := erroring }

def Outcome.AgreesWith (outcome other : Outcome) : Prop :=
  outcome.decision = other.decision ∧ outcome.determiningPolicies = other.determiningPolicies ∧
    outcome.erroringPolicies = other.erroringPolicies

instance (outcome other : Outcome) : Decidable (outcome.AgreesWith other) :=
  inferInstanceAs (Decidable (_ ∧ _ ∧ _))

structure Outcome.Valid (outcome : Outcome) (engineId revision : String) : Prop where
  schema : outcome.schemaId = outcomeSchema
  engine : outcome.engineId = engineId
  revision : outcome.semanticRevision = revision
  decision : outcome.decision = "allow" ∨ outcome.decision = "deny"
  determining : outcome.determiningPolicies.Nodup ∧ "" ∉ outcome.determiningPolicies
  erroring : outcome.erroringPolicies.Nodup ∧ "" ∉ outcome.erroringPolicies
  disjoint : ∀ id ∈ outcome.determiningPolicies, id ∉ outcome.erroringPolicies
  allow : outcome.decision = "allow" → outcome.determiningPolicies ≠ []

theorem mem_sortIds {ids : List String} {id : String} : id ∈ sortIds ids ↔ id ∈ ids :=
  (perm_insertionSort _ ids).mem_iff

theorem sortIds_pairwise (ids : List String) : (sortIds ids).Pairwise (· ≤ ·) :=
  pairwise_insertionSort _ ids

theorem nodup_iff_of_sorted {ids : List String} (hsorted : ids.Pairwise (· ≤ ·)) :
    (∀ pair ∈ ids.zip ids.tail, pair.1 ≠ pair.2) ↔ ids.Nodup := by
  induction ids with
  | nil => simp
  | cons first ids ih =>
    obtain ⟨hfirst, hsorted⟩ := pairwise_cons.1 hsorted
    cases ids with
    | nil => simp
    | cons second ids =>
      rw [nodup_cons, ← ih hsorted]
      simp only [tail_cons, zip_cons_cons, forall_mem_cons]
      refine and_congr_left fun hrest => ⟨fun hne hmem => ?_, fun hmem heq => hmem ?_⟩
      · -- the next one stands between the first and its copy
        have hle : second ≤ first := by
          rcases mem_cons.1 hmem with rfl | hmem
          · exact le_rfl
          · exact (pairwise_cons.1 hsorted).1 first hmem
        exact hne (le_antisymm (hfirst second mem_cons_self) hle)
      · exact mem_cons.2 (.inl heq)

theorem checkIds_eq_ok {ids ids' : List String} :
    checkIds ids = .ok ids' ↔ (ids.Nodup ∧ "" ∉ ids) ∧ ids' = sortIds ids := by
  have hempty : (∀ id ∈ sortIds ids, id ≠ "") ↔ "" ∉ ids := by
    simp only [mem_sortIds]
    exact ⟨fun h hmem => h "" hmem rfl, fun h id hmem heq => h (heq ▸ hmem)⟩
  have hnodup : (sortIds ids).Nodup ↔ ids.Nodup := (perm_insertionSort _ ids).nodup_iff
  constructor
  · intro h
    obtain ⟨hguard, h⟩ := then_eq_ok.1 h
    obtain ⟨hpairs, hne⟩ := guardElse_eq_ok.1 hguard
    exact ⟨⟨hnodup.1 ((nodup_iff_of_sorted (sortIds_pairwise ids)).1 hpairs), hempty.1 hne⟩,
      (ok.inj h).symm⟩
  · rintro ⟨⟨hids, hne⟩, rfl⟩
    exact then_eq_ok.2 ⟨guardElse_eq_ok.2
      ⟨(nodup_iff_of_sorted (sortIds_pairwise ids)).2 (hnodup.2 hids), hempty.2 hne⟩, rfl⟩

def replySchema : String := "poo-flow.cedar-runtime-reply.v1"

structure RuntimeHello where
  schemaId : String
  generation : String
  timeoutMs : ℕ
  runtimeArtifactDigest : String
  rustComponentDigest : String
  leanComponentDigest : String

structure RuntimeWitness where
  engineId : String
  componentDigest : String
  elapsedMs : UInt64
  outcome : Outcome

structure RuntimeReply where
  schemaId : String
  generation : String
  sequence : ℕ
  inputArtifactDigest : String
  rust : Option RuntimeWitness
  lean : Option RuntimeWitness
  error : Option Error

section

variable (sha256 : List UInt8 → List UInt8) (fromSlice : List UInt8 → Except String RuntimeReply)

/-- `RuntimeReply::validate`, with the branch of `evaluate` that follows it. -/
def RuntimeReply.validate (reply : RuntimeReply) (hello : RuntimeHello) (sequence : ℕ)
    (input : List UInt8) : Except Error (RuntimeWitness × RuntimeWitness ⊕ Error) := do
  guardElse (reply.schemaId = replySchema ∧ reply.generation = hello.generation ∧
      reply.sequence = sequence ∧ reply.inputArtifactDigest = rawDigest sha256 input)
    ⟨"cedar-runtime-reply-identity-mismatch",
      "schema, generation, sequence, or input digest differs"⟩
  match reply.rust, reply.lean, reply.error with
  | some rust, some lean, none =>
    guardElse (rust.engineId = "cedar-rust" ∧ lean.engineId = "cedar-lean" ∧
        rust.componentDigest = hello.rustComponentDigest ∧
        lean.componentDigest = hello.leanComponentDigest ∧ rust.outcome.AgreesWith lean.outcome)
      ⟨"cedar-runtime-witness-mismatch", "engine identity, artifact, or outcome differs"⟩
    return .inl (rust, lean)
  | none, none, some error => return .inr error
  | _, _, _ => .error ⟨"cedar-runtime-reply-malformed",
      "reply must contain two witnesses or one error"⟩

/-- `canonical::parse` of a reply. -/
def parseReply (bytes : List UInt8) : Except Error RuntimeReply := do
  guardElse (bytes.length ≤ maxProjectionBytes) ⟨"projection-too-large", "maximum is 1 MiB"⟩
  (fromSlice bytes).mapError fun detail => ⟨"projection-invalid", detail⟩

def maxFrameBytes : ℕ := maxProjectionBytes

/-- `write_frame`, on a stream that takes all bytes. -/
def writeFrame (bytes : List UInt8) : Except Error (List UInt8) := do
  guardElse (bytes.length ≤ maxFrameBytes)
    ⟨"cedar-runtime-frame-too-large", "frame exceeds 1 MiB"⟩
  return bigEndian 4 bytes.length ++ bytes

/-- `read_frame`, on the bytes of a stream up to its end: a frame and the bytes
behind it, or nothing at the end. -/
def readFrame (stream : List UInt8) : Except Error (Option (List UInt8 × List UInt8)) := do
  if stream = [] then return none
  guardElse (4 ≤ stream.length) ⟨"cedar-runtime-frame-truncated", "failed to fill whole buffer"⟩
  let length := ofBigEndian (stream.take 4)
  guardElse (length ≤ maxFrameBytes) ⟨"cedar-runtime-frame-too-large", "frame exceeds 1 MiB"⟩
  guardElse (4 + length ≤ stream.length)
    ⟨"cedar-runtime-frame-truncated", "failed to fill whole buffer"⟩
  return some ((stream.drop 4).take length, stream.drop (4 + length))

/-- `RuntimeClient`: the bytes of the host that are not read yet, the handshake
and the number of requests. -/
structure RuntimeClient where
  unread : List UInt8
  hello : RuntimeHello
  sequence : ℕ

/-- What the stream does during a request: the bytes that arrive, or a failure
of the transport. -/
structure Transport where
  incoming : List UInt8
  failure : Option Error

def RuntimeClient.readReply (client : RuntimeClient) (transport : Transport) :
    Except Error (RuntimeReply × List UInt8) := do
  if let some failure := transport.failure then .error failure
  let (bytes, unread) ← presentElse (← readFrame (client.unread ++ transport.incoming))
    ⟨"cedar-runtime-reply-missing", "host closed before its reply"⟩
  return (← parseReply fromSlice bytes, unread)

/-- `RuntimeClient::evaluate`: the client after the request, and what it returns. -/
def RuntimeClient.evaluate (client : RuntimeClient) (transport : Transport) (input : List UInt8) :
    RuntimeClient × Except Error (RuntimeWitness × RuntimeWitness) :=
  if client.sequence + 1 < 2 ^ 64 then
    let client := { client with sequence := client.sequence + 1 }
    match writeFrame input with
    | .error error => (client, .error error)
    | .ok _ =>
      match client.readReply fromSlice transport with
      | .error error => (client, .error error)
      | .ok (reply, unread) =>
        let client := { client with unread := unread }
        match reply.validate sha256 client.hello client.sequence input with
        | .ok (.inl witnesses) => (client, .ok witnesses)
        | .ok (.inr error) => (client, .error error)
        | .error error => (client, .error error)
  else (client, .error ⟨"cedar-runtime-sequence-exhausted", "u64 sequence exhausted"⟩)

end

section

variable {sha256 : List UInt8 → List UInt8} {fromSlice : List UInt8 → Except String RuntimeReply}

structure RuntimeReply.Answers (reply : RuntimeReply) (sha256 : List UInt8 → List UInt8)
    (hello : RuntimeHello) (sequence : ℕ) (input : List UInt8) : Prop where
  schema : reply.schemaId = replySchema
  generation : reply.generation = hello.generation
  sequence : reply.sequence = sequence
  input : reply.inputArtifactDigest = rawDigest sha256 input

structure Attested (hello : RuntimeHello) (rust lean : RuntimeWitness) : Prop where
  rustEngine : rust.engineId = "cedar-rust"
  leanEngine : lean.engineId = "cedar-lean"
  rustComponent : rust.componentDigest = hello.rustComponentDigest
  leanComponent : lean.componentDigest = hello.leanComponentDigest
  agrees : rust.outcome.AgreesWith lean.outcome

/-- **The replies that the client accepts.** -/
theorem RuntimeReply.validate_eq_ok {reply : RuntimeReply} {hello : RuntimeHello} {sequence : ℕ}
    {input : List UInt8} {rust lean : RuntimeWitness} :
    reply.validate sha256 hello sequence input = .ok (.inl (rust, lean)) ↔
      reply.Answers sha256 hello sequence input ∧ reply.rust = some rust ∧
        reply.lean = some lean ∧ reply.error = none ∧ Attested hello rust lean := by
  rw [RuntimeReply.validate, then_eq_ok, guardElse_eq_ok]
  constructor
  · rintro ⟨⟨hschema, hgeneration, hsequence, hinput⟩, h⟩
    refine ⟨⟨hschema, hgeneration, hsequence, hinput⟩, ?_⟩
    split at h
    · obtain ⟨hguard, h⟩ := then_eq_ok.1 h
      obtain ⟨h1, h2, h3, h4, h5⟩ := guardElse_eq_ok.1 hguard
      obtain ⟨rfl, rfl⟩ := Prod.mk.inj (Sum.inl.inj (ok.inj h))
      exact ⟨‹_›, ‹_›, ‹_›, h1, h2, h3, h4, h5⟩
    · cases ok.inj h
    · cases h
  · rintro ⟨hanswers, hrust, hlean, herror, hattested⟩
    refine ⟨⟨hanswers.schema, hanswers.generation, hanswers.sequence, hanswers.input⟩, ?_⟩
    rw [hrust, hlean, herror]
    exact then_eq_ok.2 ⟨guardElse_eq_ok.2 ⟨hattested.rustEngine, hattested.leanEngine,
      hattested.rustComponent, hattested.leanComponent, hattested.agrees⟩, rfl⟩

theorem readFrame_writeFrame {bytes frame rest : List UInt8} (h : writeFrame bytes = .ok frame) :
    readFrame (frame ++ rest) = .ok (some (bytes, rest)) := by
  obtain ⟨hguard, h⟩ := then_eq_ok.1 h
  have hlength : bytes.length ≤ maxFrameBytes := guardElse_eq_ok.1 hguard
  obtain rfl := ok.inj h
  have hfit : bytes.length < 256 ^ 4 := by
    simp only [maxFrameBytes, maxProjectionBytes] at hlength
    omega
  have htake : (bigEndian 4 bytes.length ++ bytes ++ rest).take 4 = bigEndian 4 bytes.length := by
    rw [append_assoc, take_left' (by simp)]
  have hdrop : (bigEndian 4 bytes.length ++ bytes ++ rest).drop 4 = bytes ++ rest := by
    rw [append_assoc, drop_left' (by simp)]
  rw [readFrame, if_neg (by simp [← length_eq_zero_iff])]
  simp only [htake, ofBigEndian_of_lt hfit, hdrop]
  rw [guardElse_of (by simp), ok_bind, guardElse_of hlength, ok_bind, guardElse_of (by simp), ok_bind,
    take_left, ← drop_drop, hdrop, drop_left]
  rfl

end

end PooFlow.Cedar
