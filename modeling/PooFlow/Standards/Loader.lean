import Mathlib.Data.List.Nodup
import PooFlow.Foundation.Run

/-! Threads materialize the artifacts of one context. What a thread does between two waits for the
lock is one step; loaders and materializers run outside it, return or raise, and may call the
context. The statistics are left out. -/

namespace PooFlow.Standards

open Foundation

abbrev Text := {text : String // text ≠ ""}

structure ArtifactRef where
  identity : Text
  representation : String
  digest : String
  generation : String
  cacheKey : String
  dependencies : List Text
  sizeBytes : ℕ
deriving DecidableEq

def standardArtifactRef (identity canonicalUri exactVersion : Text) (representation digest : String)
    (dependencies : List Text) (sizeBytes : ℕ) : ArtifactRef where
  identity := identity
  representation := representation
  digest := digest
  generation := digest
  cacheKey := canonicalUri.1 ++ "|" ++ exactVersion.1 ++ "|" ++ digest
  dependencies := dependencies
  sizeBytes := sizeBytes

inductive FailureCode where
  | sourceDigestMismatch
  | dependencyMissing
  | dependencyCycle
  | lazyReentry
  | loadFailed
  | artifactInvalid

/-- `V` are the values that loaders and materializers return or raise. -/
inductive Failure (V : Type) where
  | text (code : FailureCode) (subject : Text) (detail : String) (path : List Text)
  | raised (code : FailureCode) (subject : Text) (detail : V) (path : List Text)
  | dependency (code : FailureCode) (subject : Text) (detail : List (Failure V)) (path : List Text)

structure Source (V : Type) where
  artifactIdentity : Text
  digest : String
  representation : String
  sizeBytes : ℕ
  payload : V

structure Artifact (V : Type) where
  identity : Text
  digest : String
  representation : String
  payload : V

inductive LoadOutcome where
  | loaded
  | failed

structure LoadReceipt (V : Type) where
  artifactIdentity : Text
  cacheKey : String
  generation : String
  sourceDigest : String
  loadedBytes : ℕ
  outcome : LoadOutcome
  failures : List (Failure V)
  runtimeExecuted : Bool

def LoadReceipt.valid {V : Type} (r : LoadReceipt V) : Bool := r.failures.isEmpty

inductive CacheOutcome where
  | materialized
  | cacheHit
  | failed
  | failureCacheHit

structure Receipt (V : Type) where
  artifactIdentity : Text
  artifact : Option (Artifact V)
  cacheOutcome : CacheOutcome
  generation : String
  loadReceipt : Option (LoadReceipt V)
  failures : List (Failure V)
  runtimeExecuted : Bool

def Receipt.valid {V : Type} (r : Receipt V) : Bool := r.failures.isEmpty

structure Context where
  refs : List ArtifactRef
  distinct : (refs.map ArtifactRef.identity).Nodup

abbrev Context.Ref (ctx : Context) := {ref : ArtifactRef // ref ∈ ctx.refs}

/-- `(hash-get artifact-index identity)` -/
def Context.artifactIndex (ctx : Context) (identity : Text) : Option ctx.Ref :=
  ctx.refs.attach.find? fun ref => ref.1.identity = identity

def unknownGeneration : String :=
  "sha256:0000000000000000000000000000000000000000000000000000000000000000"

inductive SourceState where
  | loading
  | loaded
  | failed
deriving DecidableEq

inductive ArtifactState where
  | loading
  | ready
  | failed
deriving DecidableEq

structure Tables (V : Type) where
  sourceStates : String → Option SourceState := fun _ => none
  sources : String → Option (Source V) := fun _ => none
  states : String → Option ArtifactState := fun _ => none
  artifacts : String → Option (Artifact V) := fun _ => none
  loadReceipts : String → Option (LoadReceipt V) := fun _ => none
  failures : String → Option (Failure V) := fun _ => none

inductive Frame (ctx : Context) (V : Type) where
  /-- `load-one`, before the lock. -/
  | materialize (identity : Text) (path : List Text)
  /-- The artifact is being loaded; these dependencies are left, and the first that
  failed had these failures. -/
  | dependencies (ref : ctx.Ref) (path rest : List Text) (failure : Option (List (Failure V)))
  /-- The source has been asked for. -/
  | sourced (ref : ctx.Ref) (path : List Text) (loadReceipt : Option (LoadReceipt V))
  /-- The materializer runs on this source. -/
  | materializing (ref : ctx.Ref) (path : List Text) (loadReceipt : LoadReceipt V)
      (source : Option (Source V))
  /-- `load-source-one`, before the lock. -/
  | loadSource (identity : Text)
  /-- The source loader runs. -/
  | loading (ref : ctx.Ref)

variable {τ V : Type} {ctx : Context}

def activeMaterializations (stack : List (Frame ctx V)) : List Text :=
  stack.filterMap fun
    | .materializing ref _ _ _ => some ref.1.identity
    | _ => none

def Callable : List (Frame ctx V) → Bool
  | [] => true
  | .materializing _ _ _ _ :: _ => true
  | .loading _ :: _ => true
  | _ => false

/-- The tables, the stack of every thread, and which threads wait for `changed`. -/
structure State (ctx : Context) (τ V : Type) where
  tables : Tables V := {}
  frames : τ → List (Frame ctx V) := fun _ => []
  asleep : τ → Bool := fun _ => false

inductive Event (V : Type) where
  | sourceRuns (key : String)
  | materializerRuns (key : String)
  | evicted (key : String)
  | answered (receipt : Receipt V)

abbrev Section (ctx : Context) (τ V : Type) := State ctx τ V × List (Event V)

section

variable [DecidableEq τ] (s : State ctx τ V) (t : τ)

def State.setStack (stack : List (Frame ctx V)) : State ctx τ V :=
  { s with frames := Function.update s.frames t stack }

/-- `(condition-variable-broadcast! changed)` -/
def State.broadcast : State ctx τ V := { s with asleep := fun _ => false }

/-- `(mutex-unlock! lock changed)` -/
def State.wait : State ctx τ V := { s with asleep := Function.update s.asleep t true }

def materializationReceipt (ctx : Context) (identity : Text) (artifact : Option (Artifact V))
    (outcome : CacheOutcome) (loadReceipt : Option (LoadReceipt V)) (failures : List (Failure V))
    (executed : Bool) : Receipt V where
  artifactIdentity := identity
  artifact := artifact
  cacheOutcome := outcome
  generation := ((ctx.artifactIndex identity).map fun ref => ref.1.generation).getD
    unknownGeneration
  loadReceipt := loadReceipt
  failures := failures
  runtimeExecuted := executed

def returnReceipt (receipt : Receipt V) : List (Frame ctx V) → List (Frame ctx V)
  | .dependencies ref path rest failure :: below =>
    .dependencies ref path rest
      (failure.or (if receipt.valid then none else some receipt.failures)) :: below
  | stack => stack

def returnLoadReceipt (loadReceipt : LoadReceipt V) : List (Frame ctx V) → List (Frame ctx V)
  | .sourced ref path none :: below => .sourced ref path (some loadReceipt) :: below
  | stack => stack

/-- The call of `load-one` over `below` is answered. -/
def answer (below : List (Frame ctx V)) (receipt : Receipt V) : Section ctx τ V :=
  (s.setStack t (returnReceipt receipt below), [.answered receipt])

/-- The call of `load-source-one` over `below` is answered. -/
def answerLoad (below : List (Frame ctx V)) (loadReceipt : LoadReceipt V) : Section ctx τ V :=
  (s.setStack t (returnLoadReceipt loadReceipt below), [])

def publishSource (key : String) (source : Option (Source V)) (loadReceipt : LoadReceipt V)
    (state : SourceState) : State ctx τ V :=
  State.broadcast
    { s with
      tables :=
        { s.tables with
          sources :=
            if source.isSome then Function.update s.tables.sources key source
            else s.tables.sources
          loadReceipts := Function.update s.tables.loadReceipts key (some loadReceipt)
          sourceStates := Function.update s.tables.sourceStates key (some state) } }

def sourceFailure (ref : ctx.Ref) (failure : Failure V) : LoadReceipt V where
  artifactIdentity := ref.1.identity
  cacheKey := ref.1.cacheKey
  generation := ref.1.generation
  sourceDigest := ref.1.digest
  loadedBytes := 0
  outcome := .failed
  failures := [failure]
  runtimeExecuted := true

def answerPublished (ref : ctx.Ref) (below : List (Frame ctx V)) : Section ctx τ V :=
  match s.tables.loadReceipts ref.1.cacheKey with
  | some loadReceipt => answerLoad s t below loadReceipt
  | none => (s, [])

/-- `load-source-one`, up to the source loader. -/
def loadSourceOne (identity : Text) (below : List (Frame ctx V)) : Section ctx τ V :=
  match ctx.artifactIndex identity with
  | none =>
    let failure : Failure V := .text .dependencyMissing identity
      "source artifact was absent from the context" [identity]
    answerLoad s t below
      { artifactIdentity := identity
        cacheKey := identity.1
        generation := unknownGeneration
        sourceDigest := unknownGeneration
        loadedBytes := 0
        outcome := .failed
        failures := [failure]
        runtimeExecuted := false }
  | some ref =>
    match s.tables.sourceStates ref.1.cacheKey with
    -- another thread loads the source: wait, and look again
    | some .loading => (s.wait t, [])
    | some _ => answerPublished s t ref below
    | none =>
      ({ s with
          tables :=
            { s.tables with
              sourceStates :=
                Function.update s.tables.sourceStates ref.1.cacheKey (some .loading) }
          frames := Function.update s.frames t (.loading ref :: below) },
        [.sourceRuns ref.1.cacheKey])

def sourceValid (ref : ctx.Ref) (source : Source V) : Bool :=
  source.artifactIdentity = ref.1.identity ∧ source.digest = ref.1.digest ∧
    source.representation = ref.1.representation ∧ source.sizeBytes = ref.1.sizeBytes

/-- What becomes of the answer of a source loader; `ok none` is a value that is not a
source. -/
def sourceReturns (ref : ctx.Ref) (result : Except V (Option (Source V)))
    (below : List (Frame ctx V)) : Section ctx τ V :=
  let key := ref.1.cacheKey
  let published (source : Option (Source V)) (loadReceipt : LoadReceipt V) (state : SourceState) :=
    answerLoad (publishSource s key source loadReceipt state) t below loadReceipt
  let mismatch := sourceFailure ref (.text .sourceDigestMismatch ref.1.identity
    "loaded source identity, digest, representation, or size mismatch" [ref.1.identity])
  match result with
  | .error error =>
    published none (sourceFailure ref (.raised .loadFailed ref.1.identity error [ref.1.identity]))
      .failed
  -- a value of another type is refused like a source that does not match
  | .ok none => published none mismatch .failed
  | .ok (some source) =>
    if sourceValid ref source then
      published (some source)
        { artifactIdentity := ref.1.identity
          cacheKey := key
          generation := ref.1.generation
          sourceDigest := source.digest
          loadedBytes := source.sizeBytes
          outcome := .loaded
          failures := []
          runtimeExecuted := true }
        .loaded
    else published none mismatch .failed

def publishFailure (ref : ctx.Ref) (failure : Failure V) (loadReceipt : Option (LoadReceipt V))
    (below : List (Frame ctx V)) : Section ctx τ V :=
  let key := ref.1.cacheKey
  let published : State ctx τ V := State.broadcast
    { s with
      tables :=
        { s.tables with
          states := Function.update s.tables.states key (some .failed)
          failures := Function.update s.tables.failures key (some failure)
          loadReceipts :=
            if loadReceipt.isSome then Function.update s.tables.loadReceipts key loadReceipt
            else s.tables.loadReceipts } }
  answer published t below
    (materializationReceipt ctx ref.1.identity none .failed loadReceipt [failure] true)

/-- `load-one`, up to the first dependency. -/
def loadOne (identity : Text) (path : List Text) (below : List (Frame ctx V)) : Section ctx τ V :=
  let refused (code : FailureCode) (detail : String) (path : List Text) :=
    answer s t below (materializationReceipt ctx identity none .failed none
      [.text code identity detail (identity :: path).reverse] false)
  if identity ∈ activeMaterializations below then
    refused .lazyReentry "materializer recursively requested its active artifact"
      (activeMaterializations below)
  else if identity ∈ path then
    refused .dependencyCycle "materialization dependency cycle" path
  else
    match ctx.artifactIndex identity with
    | none =>
      refused .dependencyMissing "materialization artifact was absent from the context" path
    | some ref =>
      let key := ref.1.cacheKey
      match s.tables.states key with
      | some .ready =>
        answer s t below (materializationReceipt ctx identity (s.tables.artifacts key) .cacheHit
          (s.tables.loadReceipts key) [] false)
      | some .failed =>
        match s.tables.failures key with
        | some failure =>
          answer s t below (materializationReceipt ctx identity none .failureCacheHit
            (s.tables.loadReceipts key) [failure] false)
        -- the failure is published with the state
        | none => (s, [])
      | some .loading => (s.wait t, [])
      | none =>
        -- the mark is set before the first dependency is loaded
        ({ s with
            tables :=
              { s.tables with states := Function.update s.tables.states key (some .loading) }
            frames := Function.update s.frames t
              (.dependencies ref path ref.1.dependencies none :: below) },
          [])

def sourceAnswered (ref : ctx.Ref) (path : List Text) (loadReceipt : LoadReceipt V)
    (below : List (Frame ctx V)) : Section ctx τ V :=
  match loadReceipt.failures with
  | failure :: _ => publishFailure s t ref failure (some loadReceipt) below
  | [] =>
    (s.setStack t
        (.materializing ref path loadReceipt (s.tables.sources ref.1.cacheKey) :: below),
      [.materializerRuns ref.1.cacheKey])

/-- The check of what a materializer returns. -/
def artifactValid (ref : ctx.Ref) (artifact : Artifact V) : Bool :=
  artifact.identity = ref.1.identity ∧ artifact.digest = ref.1.digest ∧
    artifact.representation = ref.1.representation

/-- What becomes of the answer of a materializer; `ok none` is a value that is not an
artifact. -/
def materializerReturns (ref : ctx.Ref) (path : List Text) (loadReceipt : LoadReceipt V)
    (result : Except V (Option (Artifact V))) (below : List (Frame ctx V)) : Section ctx τ V :=
  let key := ref.1.cacheKey
  let tail := (ref.1.identity :: path).reverse
  let mismatch : Failure V := .text .artifactInvalid ref.1.identity
    "materializer result identity, digest, or representation mismatch" tail
  match result with
  | .error error =>
    publishFailure s t ref (.raised .artifactInvalid ref.1.identity error tail) (some loadReceipt)
      below
  | .ok none => publishFailure s t ref mismatch (some loadReceipt) below
  | .ok (some artifact) =>
    if artifactValid ref artifact then
      let published : State ctx τ V := State.broadcast
        { s with
          tables :=
            { s.tables with
              artifacts := Function.update s.tables.artifacts key (some artifact)
              states := Function.update s.tables.states key (some .ready) } }
      answer published t below (materializationReceipt ctx ref.1.identity (some artifact)
        .materialized (some loadReceipt) [] true)
    else publishFailure s t ref mismatch (some loadReceipt) below

def evictOne (identity : Text) : Section ctx τ V :=
  match ctx.artifactIndex identity with
  | none => (s, [])
  | some ref =>
    let key := ref.1.cacheKey
    let state := s.tables.states key
    let sourceState := s.tables.sourceStates key
    -- what is being loaded is not evicted
    if state = some .loading ∨ sourceState = some .loading then (s, [])
    else if state.isSome ∨ sourceState.isSome then
      ({ s with
          tables :=
            { sourceStates := Function.update s.tables.sourceStates key none
              sources := Function.update s.tables.sources key none
              states := Function.update s.tables.states key none
              artifacts := Function.update s.tables.artifacts key none
              loadReceipts := Function.update s.tables.loadReceipts key none
              failures := Function.update s.tables.failures key none } },
        [.evicted key])
    else (s, [])

def proceed : Section ctx τ V :=
  match s.frames t with
  | .materialize identity path :: below => loadOne s t identity path below
  | .dependencies ref path (dependency :: rest) failure :: below =>
    (s.setStack t (.materialize dependency (ref.1.identity :: path) ::
      .dependencies ref path rest failure :: below), [])
  | .dependencies ref path [] (some failures) :: below =>
    publishFailure s t ref
      (.dependency .loadFailed ref.1.identity failures (ref.1.identity :: path).reverse) none below
  | .dependencies ref path [] none :: below =>
    (s.setStack t (.loadSource ref.1.identity :: .sourced ref path none :: below), [])
  | .sourced ref path (some loadReceipt) :: below => sourceAnswered s t ref path loadReceipt below
  | .loadSource identity :: below => loadSourceOne s t identity below
  | _ => (s, [])

end

/-- Thread `t` calls the context, goes on, or is given the answer of a loader or a
materializer. -/
inductive Action (τ V : Type) where
  | materialize (t : τ) (identity : Text)
  | loadSource (t : τ) (identity : Text)
  | evict (t : τ) (identity : Text)
  | proceed (t : τ)
  | sourceReturns (t : τ) (result : Except V (Option (Source V)))
  | materializerReturns (t : τ) (result : Except V (Option (Artifact V)))

variable [DecidableEq τ]

def act (s : State ctx τ V) : Action τ V → Section ctx τ V
  | .materialize t identity =>
    if Callable (s.frames t) then
      (s.setStack t (.materialize identity [] :: s.frames t), [])
    else (s, [])
  | .loadSource t identity =>
    if Callable (s.frames t) then (s.setStack t (.loadSource identity :: s.frames t), [])
    else (s, [])
  | .evict t identity => if Callable (s.frames t) then evictOne s identity else (s, [])
  | .proceed t => if s.asleep t then (s, []) else proceed s t
  | .sourceReturns t result =>
    match s.frames t with
    | .loading ref :: below => sourceReturns s t ref result below
    | _ => (s, [])
  | .materializerReturns t result =>
    match s.frames t with
    | .materializing ref path loadReceipt _ :: below =>
      materializerReturns s t ref path loadReceipt result below
    | _ => (s, [])

def step (s : State ctx τ V) (a : Action τ V) : State ctx τ V := (act s a).1

end PooFlow.Standards
