import PooFlow.Cedar.Runtime
import PooFlow.Foundation.JsonText
import PooFlow.Foundation.Run

/-! `aot_host.rs`: the loop that serves one client, run against the client. `debugText` is the
`Debug` text of an outcome. -/

namespace PooFlow.Cedar

open Foundation List Option JsonText

/-- The members of `Error`, in the order of the derived `Serialize`. -/
def Error.toSerde (error : Error) : JsonTree :=
  .object [("code", .string error.code), ("detail", .string error.detail)]

def Outcome.toSerde (outcome : Outcome) : JsonTree :=
  .object [("schema_id", .string outcome.schemaId), ("engine_id", .string outcome.engineId),
    ("semantic_revision", .string outcome.semanticRevision),
    ("decision", .string outcome.decision),
    ("determining_policies", .array (outcome.determiningPolicies.map .string)),
    ("erroring_policies", .array (outcome.erroringPolicies.map .string))]

def RuntimeWitness.toSerde (witness : RuntimeWitness) : JsonTree :=
  .object [("engine_id", .string witness.engineId),
    ("component_digest", .string witness.componentDigest),
    ("elapsed_ms", .number witness.elapsedMs.toNat), ("outcome", witness.outcome.toSerde)]

def optionSerde {α : Type} (toSerde : α → JsonTree) : Option α → JsonTree
  | some value => toSerde value
  | none => .null

def RuntimeReply.toSerde (reply : RuntimeReply) : JsonTree :=
  .object [("schema_id", .string reply.schemaId), ("generation", .string reply.generation),
    ("sequence", .number reply.sequence),
    ("input_artifact_digest", .string reply.inputArtifactDigest),
    ("rust", optionSerde RuntimeWitness.toSerde reply.rust),
    ("lean", optionSerde RuntimeWitness.toSerde reply.lean),
    ("error", optionSerde Error.toSerde reply.error)]

def toVec (tree : JsonTree) : List UInt8 := asBytes (String.ofList (JsonText.render tree))

/-- What `serde_json` promises of a reader: it reads what `to_vec` wrote. The
sequence of a reply is a `u64`. -/
def Reads (fromSlice : List UInt8 → Except String RuntimeReply) : Prop :=
  ∀ reply : RuntimeReply, reply.sequence < 2 ^ 64 → fromSlice (toVec reply.toSerde) = .ok reply

structure WorkerReply where
  outcome : Option Outcome
  error : Option Error

def WorkerReply.toSerde (reply : WorkerReply) : JsonTree :=
  .object [("outcome", optionSerde Outcome.toSerde reply.outcome),
    ("error", optionSerde Error.toSerde reply.error)]

structure WorkerExecution where
  outcome : Outcome
  elapsedMs : UInt64

/-- What became of a worker: a failure before its output was read as a reply, or
the reply and the time it took. -/
abbrev WorkerRun := Except Error (WorkerReply × UInt64)

def identityOf (mode : String) : String × String :=
  if mode = "__rust-worker" then ("cedar-rust", cedarVersion) else ("cedar-lean", leanRevision)

def runWorker (mode : String) (run : WorkerRun) : Except Error WorkerExecution := do
  let (reply, elapsedMs) ← run
  match reply.outcome, reply.error with
  | some outcome, none =>
    return ⟨← outcome.validate (identityOf mode).1 (identityOf mode).2, elapsedMs⟩
  | none, some error => .error error
  | _, _ => .error ⟨"cedar-engine-malformed-projection", mode⟩

/-- What the host meets on one input: the admission of the input, up to its
temporary file, and the two workers. -/
structure HostRun where
  admission : Except Error Unit
  rust : WorkerRun
  lean : WorkerRun

/-- The host of a session: the bytes it has not read, the requests it served, and
whether the session goes on. -/
structure Host where
  unread : List UInt8
  hello : RuntimeHello
  sequence : ℕ
  live : Bool

section

variable (sha256 : List UInt8 → List UInt8) (debugText : Outcome → String)

def runEngines (run : HostRun) : Except Error (WorkerExecution × WorkerExecution) := do
  run.admission
  let rust ← runWorker "__rust-worker" run.rust
  let lean ← runWorker "__lean-worker" run.lean
  guardElse (rust.outcome.AgreesWith lean.outcome) ⟨"cedar-engine-disagreement",
    "rust=" ++ debugText rust.outcome ++ "; lean=" ++ debugText lean.outcome⟩
  return (rust, lean)

def witnesses (hello : RuntimeHello) (rust lean : WorkerExecution) :
    RuntimeWitness × RuntimeWitness :=
  (⟨"cedar-rust", hello.rustComponentDigest, rust.elapsedMs, rust.outcome⟩,
    ⟨"cedar-lean", hello.leanComponentDigest, lean.elapsedMs, lean.outcome⟩)

def runResult (hello : RuntimeHello) (run : HostRun) :
    Except Error (RuntimeWitness × RuntimeWitness) :=
  (runEngines debugText run).map fun engines => witnesses hello engines.1 engines.2

def evaluate (hello : RuntimeHello) (sequence : ℕ) (bytes : List UInt8) (run : HostRun) :
    RuntimeReply :=
  match runResult debugText hello run with
  | .ok (rust, lean) => ⟨replySchema, hello.generation, sequence, rawDigest sha256 bytes,
      some rust, some lean, none⟩
  | .error error => ⟨replySchema, hello.generation, sequence, rawDigest sha256 bytes,
      none, none, some error⟩

/-- One turn of `serve_session`: the host after it, and the bytes it wrote. -/
def Host.serve (host : Host) (incoming : List UInt8) (run : HostRun) : Host × List UInt8 :=
  let ended := { host with live := false }
  if host.live = false then (host, [])
  else match readFrame (host.unread ++ incoming) with
    | .ok (some (bytes, unread)) =>
      if host.sequence + 1 < 2 ^ 64 then
        let reply := evaluate sha256 debugText host.hello (host.sequence + 1) bytes run
        match writeFrame (toVec reply.toSerde) with
        | .ok frame =>
          ({ host with unread := unread, sequence := host.sequence + 1 }, frame)
        | .error _ => (ended, [])
      else (ended, [])
    | _ => (ended, [])

end

structure Session where
  client : RuntimeClient
  host : Host

structure Request where
  input : List UInt8
  run : HostRun

section

variable (sha256 : List UInt8 → List UInt8) (debugText : Outcome → String)
  (fromSlice : List UInt8 → Except String RuntimeReply)

/-- The bytes that `RuntimeClient::evaluate` sends. -/
def RuntimeClient.sends (client : RuntimeClient) (input : List UInt8) : List UInt8 :=
  if client.sequence + 1 < 2 ^ 64 then
    match writeFrame input with
    | .ok frame => frame
    | .error _ => []
  else []

def Session.turn (session : Session) (request : Request) : Host × List UInt8 :=
  let sent := session.client.sends request.input
  if sent = [] then (session.host, [])
  else session.host.serve sha256 debugText sent request.run

def Session.reply (session : Session) (request : Request) :
    RuntimeClient × Except Error (RuntimeWitness × RuntimeWitness) :=
  session.client.evaluate sha256 fromSlice
    ⟨(session.turn sha256 debugText request).2, none⟩ request.input

def Session.exchange (session : Session) (request : Request) : Session where
  client := (session.reply sha256 debugText fromSlice request).1
  host := (session.turn sha256 debugText request).1

def Session.hostReply (session : Session) (request : Request) : RuntimeReply :=
  evaluate sha256 debugText session.host.hello (session.host.sequence + 1) request.input request.run

/-- **The request is served and answered**: the host writes one reply and goes on,
the reply passes the validation of the client, and the client returns what the
engines came to. -/
structure InStep (session : Session) (request : Request) : Prop where
  served : ∃ frame,
    writeFrame (toVec (session.hostReply sha256 debugText request).toSerde) = .ok frame ∧
      (session.turn sha256 debugText request).2 = frame
  valid : ∃ accepted, (session.hostReply sha256 debugText request).validate sha256
    session.client.hello (session.client.sequence + 1) request.input = .ok accepted
  returned : (session.reply sha256 debugText fromSlice request).2 =
    runResult debugText session.host.hello request.run
  live : (session.exchange sha256 debugText fromSlice request).host.live = true

def Fits (session : Session) (request : Request) : Prop :=
  session.client.sequence + 1 < 2 ^ 64 ∧
    (toVec (session.hostReply sha256 debugText request).toSerde).length ≤ maxFrameBytes

/-- Both ends have read everything, and count alike. -/
structure Synced (session : Session) : Prop where
  client : session.client.unread = []
  host : session.host.unread = []
  hello : session.client.hello = session.host.hello
  sequence : session.client.sequence = session.host.sequence
  live : session.host.live = true

end

section

variable {sha256 : List UInt8 → List UInt8} {debugText : Outcome → String}
  {fromSlice : List UInt8 → Except String RuntimeReply}

theorem writeFrame_eq {bytes frame : List UInt8} (h : writeFrame bytes = .ok frame) :
    bytes.length ≤ maxFrameBytes ∧ frame ≠ [] := by
  obtain ⟨hguard, h⟩ := then_eq_ok.1 h
  refine ⟨guardElse_eq_ok.1 hguard, ?_⟩
  rw [← Except.ok.inj h, ← length_pos_iff]
  simp

theorem writeFrame_of_le {bytes : List UInt8} (h : bytes.length ≤ maxFrameBytes) :
    ∃ frame, writeFrame bytes = .ok frame :=
  ⟨_, then_eq_ok.2 ⟨guardElse_eq_ok.2 h, rfl⟩⟩

theorem runResult_agrees {hello : RuntimeHello} {run : HostRun} {rust lean : RuntimeWitness}
    (h : runResult debugText hello run = .ok (rust, lean)) : Attested hello rust lean := by
  obtain ⟨⟨rust', lean'⟩, hengines, heq⟩ := map_eq_ok.1 h
  obtain ⟨rfl, rfl⟩ := Prod.mk.inj heq
  obtain ⟨-, hengines⟩ := then_eq_ok.1 hengines
  obtain ⟨_, -, hengines⟩ := bind_eq_ok.1 hengines
  obtain ⟨_, -, hengines⟩ := bind_eq_ok.1 hengines
  obtain ⟨hagrees, hengines⟩ := then_eq_ok.1 hengines
  obtain ⟨rfl, rfl⟩ := Prod.mk.inj (Except.ok.inj hengines)
  exact ⟨rfl, rfl, rfl, rfl, guardElse_eq_ok.1 hagrees⟩

def carried {α : Type} : Except Error α → α ⊕ Error
  | .ok value => .inl value
  | .error error => .inr error

theorem elim_carried {α : Type} (result : Except Error α) :
    (carried result).elim .ok .error = result := by
  cases result <;> rfl

theorem validate_evaluate (hello : RuntimeHello) (sequence : ℕ) (input : List UInt8)
    (run : HostRun) :
    (evaluate sha256 debugText hello sequence input run).validate sha256 hello sequence input =
      .ok (carried (runResult debugText hello run)) := by
  unfold evaluate
  cases hrun : runResult debugText hello run with
  | ok engines =>
    obtain ⟨rust, lean⟩ := engines
    exact RuntimeReply.validate_eq_ok.2
      ⟨⟨rfl, rfl, rfl, rfl⟩, rfl, rfl, rfl, runResult_agrees hrun⟩
  | error error =>
    rw [RuntimeReply.validate, guardElse_of ⟨rfl, rfl, rfl, rfl⟩]
    rfl

theorem sequence_evaluate (hello : RuntimeHello) (sequence : ℕ) (input : List UInt8)
    (run : HostRun) : (evaluate sha256 debugText hello sequence input run).sequence = sequence := by
  unfold evaluate
  split <;> rfl

variable {session : Session} {request : Request}

theorem turn_of_fits (hsynced : Synced session) (hinput : request.input.length ≤ maxFrameBytes)
    (hfits : Fits sha256 debugText session request) : ∃ frame,
      writeFrame (toVec (session.hostReply sha256 debugText request).toSerde) = .ok frame ∧
        session.turn sha256 debugText request =
          ({ session.host with unread := [], sequence := session.host.sequence + 1 }, frame) := by
  obtain ⟨hroom, hfit⟩ := hfits
  obtain ⟨sent, hsent⟩ := writeFrame_of_le hinput
  obtain ⟨frame, hframe⟩ := writeFrame_of_le hfit
  have hread : readFrame (session.host.unread ++ sent) = .ok (some (request.input, [])) := by
    have := @readFrame_writeFrame _ _ [] hsent
    rw [append_nil] at this
    rw [hsynced.host, nil_append, this]
  refine ⟨frame, hframe, ?_⟩
  rw [Session.hostReply] at hframe
  rw [Session.turn, RuntimeClient.sends, if_pos hroom, hsent]
  simp only [(writeFrame_eq hsent).2, if_false, Host.serve, hsynced.live, Bool.true_eq_false,
    hread, hsynced.sequence ▸ hroom, if_true, hframe]

theorem evaluate_of_reply (hserde : Reads fromSlice) {client : RuntimeClient} {reply : RuntimeReply}
    {frame input : List UInt8} {accepted : RuntimeWitness × RuntimeWitness ⊕ Error}
    (hclient : client.unread = []) (hroom : client.sequence + 1 < 2 ^ 64)
    (hinput : input.length ≤ maxFrameBytes) (hframe : writeFrame (toVec reply.toSerde) = .ok frame)
    (hreply : reply.sequence < 2 ^ 64)
    (hvalid : reply.validate sha256 client.hello (client.sequence + 1) input = .ok accepted) :
    client.evaluate sha256 fromSlice ⟨frame, none⟩ input =
      ({ client with unread := [], sequence := client.sequence + 1 },
        accepted.elim .ok .error) := by
  obtain ⟨sent, hsent⟩ := writeFrame_of_le hinput
  have hparse : parseReply fromSlice (toVec reply.toSerde) = .ok reply := by
    rw [parseReply, guardElse_of (show _ ≤ maxProjectionBytes from (writeFrame_eq hframe).1),
      ok_bind, hserde reply hreply]
    rfl
  have hread : RuntimeClient.readReply fromSlice
      { client with sequence := client.sequence + 1 } ⟨frame, none⟩ = .ok (reply, []) := by
    have := @readFrame_writeFrame _ _ [] hframe
    rw [append_nil] at this
    rw [RuntimeClient.readReply, hclient, nil_append, this]
    simp only [presentElse, ok_bind, hparse]
    rfl
  rw [RuntimeClient.evaluate, if_pos hroom]
  simp only [hsent, hread, hvalid]
  cases accepted <;> rfl

section

variable (hserde : Reads fromSlice) (hsynced : Synced session)
  (hinput : request.input.length ≤ maxFrameBytes)

include hserde hsynced hinput

theorem reply_of_fits (hfits : Fits sha256 debugText session request) :
    session.reply sha256 debugText fromSlice request =
      ({ session.client with unread := [], sequence := session.client.sequence + 1 },
        runResult debugText session.host.hello request.run) := by
  obtain ⟨frame, hframe, hturn⟩ := turn_of_fits hsynced hinput hfits
  have hroom : (session.hostReply sha256 debugText request).sequence < 2 ^ 64 := by
    rw [Session.hostReply, sequence_evaluate, ← hsynced.sequence]
    exact hfits.1
  have hvalid : (session.hostReply sha256 debugText request).validate sha256 session.client.hello
      (session.client.sequence + 1) request.input =
      .ok (carried (runResult debugText session.host.hello request.run)) := by
    rw [Session.hostReply, hsynced.hello, hsynced.sequence, validate_evaluate]
  rw [Session.reply, hturn, evaluate_of_reply hserde hsynced.client hfits.1 hinput hframe hroom
    hvalid, elim_carried]

/-- **One request**: it is served and answered exactly when its reply fits. -/
theorem inStep_iff :
    InStep sha256 debugText fromSlice session request ↔ Fits sha256 debugText session request := by
  constructor
  · intro h
    obtain ⟨frame, hframe, hturn⟩ := h.served
    obtain ⟨hfit, hne⟩ := writeFrame_eq hframe
    refine ⟨?_, hfit⟩
    by_contra hroom
    refine hne (hturn.symm.trans ?_)
    rw [Session.turn, RuntimeClient.sends, if_neg hroom]
    rfl
  · intro h
    obtain ⟨frame, hframe, hturn⟩ := turn_of_fits hsynced hinput h
    refine ⟨⟨frame, hframe, by rw [hturn]⟩, ?_, ?_, ?_⟩
    · rw [Session.hostReply, hsynced.hello, hsynced.sequence]
      exact ⟨_, validate_evaluate _ _ _ _⟩
    · rw [reply_of_fits hserde hsynced hinput h]
    · rw [Session.exchange, hturn]
      exact hsynced.live

theorem Synced.exchange (hfits : Fits sha256 debugText session request) :
    Synced (session.exchange sha256 debugText fromSlice request) := by
  obtain ⟨frame, hframe, hturn⟩ := turn_of_fits hsynced hinput hfits
  rw [Session.exchange, hturn, reply_of_fits hserde hsynced hinput hfits]
  exact ⟨rfl, rfl, hsynced.hello, congrArg (· + 1) hsynced.sequence, hsynced.live⟩

end

/-- **Whole sessions**: every request is served and answered exactly when the
reply of each fits a frame. -/
theorem session_in_step_iff
    (hserde : Reads fromSlice) (hello : RuntimeHello) (requests : List Request)
    (hinputs : ∀ request ∈ requests, request.input.length ≤ maxFrameBytes) :
    Along (Session.exchange sha256 debugText fromSlice) (InStep sha256 debugText fromSlice)
        ⟨⟨[], hello, 0⟩, ⟨[], hello, 0, true⟩⟩ requests ↔
      Along (Session.exchange sha256 debugText fromSlice) (Fits sha256 debugText)
        ⟨⟨[], hello, 0⟩, ⟨[], hello, 0, true⟩⟩ requests := by
  have hstart : Synced ⟨⟨[], hello, 0⟩, ⟨[], hello, 0, true⟩⟩ := ⟨rfl, rfl, rfl, rfl, rfl⟩
  generalize (⟨⟨[], hello, 0⟩, ⟨[], hello, 0, true⟩⟩ : Session) = session at hstart ⊢
  induction requests generalizing session with
  | nil => exact Iff.rfl
  | cons request requests ih =>
    have hinput := hinputs request mem_cons_self
    have hrest := fun other hother => hinputs other (mem_cons_of_mem _ hother)
    have hstep := @inStep_iff sha256 debugText fromSlice _ _ hserde hstart hinput
    constructor
    · rintro ⟨hfirst, hmore⟩
      have hfits := hstep.1 hfirst
      exact ⟨hfits, (ih hrest _ (hstart.exchange hserde hinput hfits)).1 hmore⟩
    · rintro ⟨hfits, hmore⟩
      exact ⟨hstep.2 hfits, (ih hrest _ (hstart.exchange hserde hinput hfits)).2 hmore⟩

end

def ofBytes (bytes : List UInt8) : Option String := String.fromUTF8? ⟨bytes.toArray⟩

theorem ofBytes_asBytes (text : String) : ofBytes (asBytes text) = some text := by
  have hbytes : (⟨(asBytes text).toArray⟩ : ByteArray) = text.toUTF8 := by simp [asBytes]
  rw [ofBytes, hbytes]
  simp only [String.fromUTF8?, String.toUTF8_eq_toByteArray, text.isValidUTF8, dite_true]
  rfl

/-- The member `key` of an object whose members are all among `names`. -/
def memberOf (names : List String) (key : String) : JsonTree → Option JsonTree
  | .object fields =>
    if ∀ field ∈ fields, field.1 ∈ names then (fields.find? (·.1 = key)).map (·.2) else none
  | _ => none

def readText : JsonTree → Option String
  | .string text => some text
  | _ => none

def readU64 : JsonTree → Option ℕ
  | .number (.ofNat value) => if value < 2 ^ 64 then some value else none
  | _ => none

def readTexts : JsonTree → Option (List String)
  | .array items => items.mapM readText
  | _ => none

def readOption {α : Type} (read : JsonTree → Option α) : Option JsonTree → Option (Option α)
  | none | some .null => some none
  | some tree => (read tree).map some

def errorNames : List String := ["code", "detail"]

def outcomeNames : List String :=
  ["schema_id", "engine_id", "semantic_revision", "decision", "determining_policies",
    "erroring_policies"]

def witnessNames : List String := ["engine_id", "component_digest", "elapsed_ms", "outcome"]

def replyNames : List String :=
  ["schema_id", "generation", "sequence", "input_artifact_digest", "rust", "lean", "error"]

def readError (tree : JsonTree) : Option Error := do
  return ⟨← readText (← memberOf errorNames "code" tree),
    ← readText (← memberOf errorNames "detail" tree)⟩

def readOutcome (tree : JsonTree) : Option Outcome := do
  return ⟨← readText (← memberOf outcomeNames "schema_id" tree),
    ← readText (← memberOf outcomeNames "engine_id" tree),
    ← readText (← memberOf outcomeNames "semantic_revision" tree),
    ← readText (← memberOf outcomeNames "decision" tree),
    ← readTexts (← memberOf outcomeNames "determining_policies" tree),
    ← readTexts (← memberOf outcomeNames "erroring_policies" tree)⟩

def witnessOf (engine component elapsed outcome : Option JsonTree) : Option RuntimeWitness := do
  return ⟨← readText (← engine), ← readText (← component), UInt64.ofNat (← readU64 (← elapsed)),
    ← readOutcome (← outcome)⟩

def readWitness (tree : JsonTree) : Option RuntimeWitness :=
  witnessOf (memberOf witnessNames "engine_id" tree)
    (memberOf witnessNames "component_digest" tree) (memberOf witnessNames "elapsed_ms" tree)
    (memberOf witnessNames "outcome" tree)

def replyOf (schema generation sequence input rust lean error : Option JsonTree) :
    Option RuntimeReply := do
  return ⟨← readText (← schema), ← readText (← generation), ← readU64 (← sequence),
    ← readText (← input), ← readOption readWitness rust, ← readOption readWitness lean,
    ← readOption readError error⟩

def readReply (tree : JsonTree) : Option RuntimeReply :=
  replyOf (memberOf replyNames "schema_id" tree) (memberOf replyNames "generation" tree)
    (memberOf replyNames "sequence" tree) (memberOf replyNames "input_artifact_digest" tree)
    (memberOf replyNames "rust" tree) (memberOf replyNames "lean" tree)
    (memberOf replyNames "error" tree)

/-- A reader of replies, as `from_slice` with the derived `Deserialize` is one. -/
def replyFromSlice (bytes : List UInt8) : Except String RuntimeReply :=
  match (ofBytes bytes).bind (fun text => (JsonText.parse text.toList).bind readReply) with
  | some reply => .ok reply
  | none => .error "not a reply"

theorem readTexts_map (texts : List String) :
    readTexts (.array (texts.map .string)) = some texts := by
  rw [readTexts]
  induction texts with
  | nil => rfl
  | cons text texts ih =>
    rw [map_cons, mapM_cons, ih]
    rfl

theorem readError_toSerde (error : Error) : readError error.toSerde = some error := rfl

theorem readOutcome_toSerde (outcome : Outcome) : readOutcome outcome.toSerde = some outcome := by
  have hread : readOutcome outcome.toSerde =
      (readTexts (.array (outcome.determiningPolicies.map .string))).bind fun determining =>
        (readTexts (.array (outcome.erroringPolicies.map .string))).bind fun erroring =>
          some ⟨outcome.schemaId, outcome.engineId, outcome.semanticRevision, outcome.decision,
            determining, erroring⟩ := rfl
  rw [hread, readTexts_map, readTexts_map]
  rfl

theorem readU64_toNat (value : UInt64) : readU64 (.number value.toNat) = some value.toNat :=
  if_pos value.toNat_lt

theorem readWitness_toSerde (witness : RuntimeWitness) :
    readWitness witness.toSerde = some witness := by
  have hengine : memberOf witnessNames "engine_id" witness.toSerde =
      some (.string witness.engineId) := rfl
  have hcomponent : memberOf witnessNames "component_digest" witness.toSerde =
      some (.string witness.componentDigest) := rfl
  have helapsed : memberOf witnessNames "elapsed_ms" witness.toSerde =
      some (.number witness.elapsedMs.toNat) := rfl
  have houtcome : memberOf witnessNames "outcome" witness.toSerde =
      some witness.outcome.toSerde := rfl
  rw [readWitness, hengine, hcomponent, helapsed, houtcome, witnessOf]
  simp only [Option.bind_eq_bind, Option.bind_some, readText, readU64_toNat, readOutcome_toSerde,
    Option.pure_def, UInt64.ofNat_toNat]

theorem readOption_toSerde {α : Type} {read : JsonTree → Option α} {toSerde : α → JsonTree}
    (hread : ∀ value, read (toSerde value) = some value) (hnull : ∀ value, toSerde value ≠ .null)
    (value : Option α) : readOption read (some (optionSerde toSerde value)) = some value := by
  cases value with
  | none => rfl
  | some value =>
    simp only [optionSerde]
    unfold readOption
    split
    · next heq => exact absurd heq nofun
    · next heq => exact absurd (some.inj heq) (hnull value)
    · next heq => rw [← some.inj heq, hread]; rfl

theorem readReply_toSerde {reply : RuntimeReply} (h : reply.sequence < 2 ^ 64) :
    readReply reply.toSerde = some reply := by
  have hsequence : readU64 (.number reply.sequence) = some reply.sequence := if_pos h
  have hschema : memberOf replyNames "schema_id" reply.toSerde = some (.string reply.schemaId) := rfl
  have hgeneration : memberOf replyNames "generation" reply.toSerde =
      some (.string reply.generation) := rfl
  have hcount : memberOf replyNames "sequence" reply.toSerde = some (.number reply.sequence) := rfl
  have hinput : memberOf replyNames "input_artifact_digest" reply.toSerde =
      some (.string reply.inputArtifactDigest) := rfl
  have hrust : memberOf replyNames "rust" reply.toSerde =
      some (optionSerde RuntimeWitness.toSerde reply.rust) := rfl
  have hlean : memberOf replyNames "lean" reply.toSerde =
      some (optionSerde RuntimeWitness.toSerde reply.lean) := rfl
  have herror : memberOf replyNames "error" reply.toSerde =
      some (optionSerde Error.toSerde reply.error) := rfl
  rw [readReply, hschema, hgeneration, hcount, hinput, hrust, hlean, herror, replyOf]
  simp only [bind_eq_bind, bind_some, readText, hsequence,
    readOption_toSerde readWitness_toSerde nofun, readOption_toSerde readError_toSerde nofun,
    Option.pure_def]

theorem distinct_texts (texts : List String) :
    JsonTree.DistinctItems (texts.map JsonTree.string) := by
  induction texts with
  | nil => simp [JsonTree.DistinctItems]
  | cons text texts ih => simp [JsonTree.DistinctItems, JsonTree.Distinct, ih]

theorem distinct_error (error : Error) : error.toSerde.Distinct := by
  simp [Error.toSerde, JsonTree.Distinct, JsonTree.DistinctFields]

theorem distinct_outcome (outcome : Outcome) : outcome.toSerde.Distinct := by
  simp [Outcome.toSerde, JsonTree.Distinct, JsonTree.DistinctFields, distinct_texts]

theorem distinct_witness (witness : RuntimeWitness) : witness.toSerde.Distinct := by
  simp [RuntimeWitness.toSerde, JsonTree.Distinct, JsonTree.DistinctFields, distinct_outcome]

theorem distinct_option {α : Type} {toSerde : α → JsonTree} (h : ∀ value, (toSerde value).Distinct)
    (value : Option α) : (optionSerde toSerde value).Distinct := by
  cases value with
  | none => simp [optionSerde, JsonTree.Distinct]
  | some value => exact h value

theorem distinct_toSerde (reply : RuntimeReply) : reply.toSerde.Distinct := by
  simp [RuntimeReply.toSerde, JsonTree.Distinct, JsonTree.DistinctFields,
    distinct_option distinct_witness, distinct_option distinct_error]

theorem reads_replyFromSlice : Reads replyFromSlice := by
  intro reply h
  rw [replyFromSlice, toVec, ofBytes_asBytes, bind_some, String.toList_ofList,
    parse_render (distinct_toSerde reply), bind_some, readReply_toSerde h]

def textSize (text : List Char) : ℕ := (text.map Char.utf8Size).sum

theorem textSize_cons (c : Char) (text : List Char) :
    textSize (c :: text) = c.utf8Size + textSize text := rfl

theorem textSize_append (text text' : List Char) :
    textSize (text ++ text') = textSize text + textSize text' := by
  simp [textSize]

theorem length_toVec (tree : JsonTree) : (toVec tree).length = textSize (render tree) := by
  have hsize : ∀ text : List Char, (String.ofList text).utf8ByteSize = textSize text := by
    intro text
    induction text with
    | nil => rfl
    | cons c text ih => simp [String.ofList_cons, textSize_cons, ih]
  rw [← hsize, toVec, asBytes, Array.length_toList]
  exact String.size_toByteArray

/-- A policy identity of `n` letters. -/
def letters (n : ℕ) : String := String.ofList (List.replicate n 'p')

theorem textSize_letters (n : ℕ) : textSize (quote (letters n)) = n + 2 := by
  have hflat : (List.replicate n 'p').flatMap escape = List.replicate n 'p' := by
    induction n with
    | zero => rfl
    | succ n ih =>
      rw [replicate_succ, flatMap_cons, ih]
      rfl
  have hsize : textSize (List.replicate n 'p') = n := by
    clear hflat
    induction n with
    | zero => rfl
    | succ n ih =>
      rw [replicate_succ, textSize_cons, ih, Nat.add_comm]
      rfl
  rw [quote, letters, String.toList_ofList, hflat, textSize_cons, textSize_append, hsize,
    Nat.add_comm]
  rfl

variable {n : ℕ}

theorem letters_ne (h : n ≠ 0) : letters n ≠ "" := by
  intro heq
  have := congrArg String.length heq
  simp [letters] at this
  exact h this

def longOutcome (n : ℕ) (engineId revision : String) : Outcome :=
  ⟨outcomeSchema, engineId, revision, "allow", [letters n], []⟩

def longRequest (n : ℕ) : Request where
  input := [0x0a, 0x00]
  run := ⟨.ok (), .ok (⟨some (longOutcome n "cedar-rust" cedarVersion), none⟩, 5),
    .ok (⟨some (longOutcome n "cedar-lean" leanRevision), none⟩, 7)⟩

def demoHello : RuntimeHello where
  schemaId := "poo-flow.cedar-runtime-host.v1"
  generation := "00"
  timeoutMs := 1000
  runtimeArtifactDigest := "sha256:00"
  rustComponentDigest := "sha256:01"
  leanComponentDigest := "sha256:02"

theorem runWorker_longOutcome (hn : n ≠ 0) {mode engineId revision : String}
    {elapsedMs : UInt64} (hidentity : identityOf mode = (engineId, revision)) :
    runWorker mode (.ok (⟨some (longOutcome n engineId revision), none⟩, elapsedMs)) =
      .ok ⟨longOutcome n engineId revision, elapsedMs⟩ := by
  have hids : checkIds [letters n] = .ok [letters n] :=
    checkIds_eq_ok.2 ⟨⟨nodup_singleton _, fun hmem =>
      letters_ne hn (mem_singleton.1 hmem).symm⟩, rfl⟩
  have hnone : checkIds [] = .ok [] := checkIds_eq_ok.2 ⟨⟨nodup_nil, by simp⟩, rfl⟩
  have hvalid : (longOutcome n engineId revision).validate engineId revision =
      .ok (longOutcome n engineId revision) := by
    rw [Outcome.validate, guardElse_of ⟨rfl, rfl, rfl⟩, ok_bind, guardElse_of (.inl rfl), ok_bind]
    simp only [longOutcome, hids, hnone, ok_bind]
    rw [guardElse_of (by simp), ok_bind, guardElse_of (by simp), ok_bind]
    rfl
  rw [runWorker, ok_bind]
  simp only [hidentity, hvalid, ok_bind]
  rfl

theorem length_workerReply (hn : n + 1000 ≤ maxProjectionBytes) {engineId revision : String}
    (hengine : textSize (quote engineId) ≤ 100)
    (hrevision : textSize (quote revision) ≤ 100) :
    (toVec (WorkerReply.toSerde ⟨some (longOutcome n engineId revision), none⟩)).length ≤
      maxProjectionBytes := by
  have hlong := textSize_letters n
  rw [length_toVec]
  simp only [WorkerReply.toSerde, optionSerde, Outcome.toSerde, longOutcome, map_cons, map_nil,
    render, renderMore, renderRest, textSize_append, textSize_cons, hlong]
  have hmarks : '{'.utf8Size = 1 ∧ '}'.utf8Size = 1 ∧ '['.utf8Size = 1 ∧ ']'.utf8Size = 1 ∧
      ':'.utf8Size = 1 ∧ ','.utf8Size = 1 ∧ 'n'.utf8Size = 1 ∧ 'u'.utf8Size = 1 ∧
      'l'.utf8Size = 1 ∧ textSize [] = 0 := by decide
  have htexts : textSize (quote "outcome") = 9 ∧
      textSize (quote "schema_id") = 11 ∧ textSize (quote outcomeSchema) = 34 ∧
      textSize (quote "engine_id") = 11 ∧
      textSize (quote "semantic_revision") = 19 ∧
      textSize (quote "decision") = 10 ∧ textSize (quote "allow") = 7 ∧
      textSize (quote "determining_policies") = 22 ∧
      textSize (quote "erroring_policies") = 19 ∧
      textSize (quote "error") = 7 := by decide
  omega

theorem long_outcomes_not_fit (hn : n ≠ 0) (hlong : maxFrameBytes < 2 * n)
    (client : RuntimeClient) :
    ¬Fits id (fun _ => "") ⟨client, ⟨[], demoHello, 0, true⟩⟩ (longRequest n) := by
  rintro ⟨-, hfit⟩
  have hrust := @runWorker_longOutcome n hn "__rust-worker" _ _ 5 rfl
  have hlean := @runWorker_longOutcome n hn "__lean-worker" _ _ 7 rfl
  have hrun : runResult (fun _ => "") demoHello (longRequest n).run =
      .ok (⟨"cedar-rust", "sha256:01", 5, longOutcome n "cedar-rust" cedarVersion⟩,
        ⟨"cedar-lean", "sha256:02", 7, longOutcome n "cedar-lean" leanRevision⟩) := by
    rw [runResult, runEngines, longRequest, ok_bind, hrust, ok_bind, hlean, ok_bind,
      guardElse_of ⟨rfl, rfl, rfl⟩, ok_bind]
    rfl
  rw [length_toVec, Session.hostReply, evaluate, hrun] at hfit
  have hsize := textSize_letters n
  simp only [RuntimeReply.toSerde, optionSerde, RuntimeWitness.toSerde, Outcome.toSerde, longOutcome,
    map_cons, map_nil, render, renderMore, renderRest,
    textSize_append, textSize_cons, hsize] at hfit
  omega

theorem short_session_in_step : Along (Session.exchange id (fun _ => "") replyFromSlice)
      (InStep id (fun _ => "") replyFromSlice) ⟨⟨[], demoHello, 0⟩, ⟨[], demoHello, 0, true⟩⟩
      [longRequest 2] := by
  refine (session_in_step_iff reads_replyFromSlice demoHello _ (by decide)).2
    ⟨⟨by decide, ?_⟩, trivial⟩
  rw [length_toVec]
  decide +kernel

/-- **Two outcomes that do not fit one frame**: each worker stays within its limit,
and the session ends without a reply. -/
theorem long_outcomes_end_session : (toVec (WorkerReply.toSerde
        ⟨some (longOutcome 600000 "cedar-rust" cedarVersion), none⟩)).length ≤ maxProjectionBytes ∧
      (toVec (WorkerReply.toSerde
        ⟨some (longOutcome 600000 "cedar-lean" leanRevision), none⟩)).length ≤ maxProjectionBytes ∧
      (longRequest 600000).input.length ≤ maxFrameBytes ∧
      ¬Along (Session.exchange id (fun _ => "") replyFromSlice)
        (InStep id (fun _ => "") replyFromSlice) ⟨⟨[], demoHello, 0⟩, ⟨[], demoHello, 0, true⟩⟩
        [longRequest 600000] := by
  have hbound : 600000 + 1000 ≤ maxProjectionBytes := by decide
  refine ⟨length_workerReply hbound (by decide) (by decide),
    length_workerReply hbound (by decide) (by decide), by decide, fun h => ?_⟩
  have hsynced : Synced ⟨⟨[], demoHello, 0⟩, ⟨[], demoHello, 0, true⟩⟩ :=
    ⟨rfl, rfl, rfl, rfl, rfl⟩
  exact long_outcomes_not_fit (by decide) (by decide) _
    ((inStep_iff reads_replyFromSlice hsynced (by decide)).1 h.1)

end PooFlow.Cedar
