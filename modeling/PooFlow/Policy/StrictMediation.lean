import Mathlib.Data.List.Nodup
import Mathlib.Data.Rat.Defs

/-! `policy/strict-mediation.ss`, with the tokens of `authorized-effect-token.ss`. Data of `δ` are
compared by `equal?`; `canonicalDigest` is any hash. -/

namespace PooFlow.Policy

open List

variable {δ : Type} [DecidableEq δ]

/-- `poo-flow-effect-binding`, whose projection is all of it. -/
structure EffectBinding (δ : Type) where
  bundleDigest : δ
  bundleEpoch : δ
  policyDigest : δ
  entityDigest : δ
  decisionDigest : δ
  intentDigest : δ
  attemptId : δ
  effectKind : δ
  runtimeId : δ
  sessionId : δ
  sequenceStart : δ
  sequenceEnd : δ
  arenaId : δ
  arenaGeneration : δ
  payloadOffset : δ
  payloadLength : δ
  payloadDigest : δ
  leaseId : δ
deriving DecidableEq

/-- `poo-flow-token-validity`. -/
structure TokenValidity where
  notBefore : ℚ
  expiry : ℚ
  revocationEpoch : ℚ

inductive Durability where
  | strict | diagnostic
deriving DecidableEq

/-- `poo-flow-authorized-effect-token`, with the digest of its semantic root. -/
structure AuthorizedEffectToken (δ : Type) where
  tokenId : δ
  nonce : δ
  semanticRoot : δ
  binding : EffectBinding δ
  validity : TokenValidity
  durability : Durability

/-- `poo-flow-token-validation-context`. -/
structure TokenValidationContext (δ : Type) where
  semanticRoot : δ
  binding : EffectBinding δ
  now : ℚ
  revocationEpoch : ℚ
  consumedNonces : List δ

inductive Code where
  | executionRootFork
  | semanticRootMismatch
  | bindingSubstitution
  | tokenReuse
  | tokenNotYetValid
  | tokenExpired
  | staleRevocationEpoch
  | diagnosticCannotExecute
  | observationUnavailable
  | rootCommitted

def rejectionCode (token : AuthorizedEffectToken δ) (context : TokenValidationContext δ) :
    Option Code :=
  if token.semanticRoot ≠ context.semanticRoot then some .semanticRootMismatch
  else if token.binding ≠ context.binding then some .bindingSubstitution
  else if token.nonce ∈ context.consumedNonces then some .tokenReuse
  else if context.now < token.validity.notBefore then some .tokenNotYetValid
  else if token.validity.expiry < context.now then some .tokenExpired
  else if token.validity.revocationEpoch ≠ context.revocationEpoch then some .staleRevocationEpoch
  else if token.durability = .diagnostic then some .diagnosticCannotExecute
  else none

theorem fresh_of_rejectionCode {token : AuthorizedEffectToken δ}
    {context : TokenValidationContext δ} (h : rejectionCode token context = none) :
    token.nonce ∉ context.consumedNonces ∧
      token.validity.revocationEpoch = context.revocationEpoch := by
  unfold rejectionCode at h
  split_ifs at h with hroot hbinding hreuse hearly hlate hepoch hdurability
  exact ⟨hreuse, not_not.1 hepoch⟩

/-- `poo-flow-strict-mediation-state`. -/
structure MediationState (δ : Type) where
  executionRoot : δ
  sequence : ℤ
  consumedNonces : List δ
  revocationEpoch : ℚ

/-- `poo-flow.execution-leaf.draft.1`. -/
structure ExecutionLeaf (δ : Type) where
  priorRoot : δ
  nonce : δ
  semanticRoot : δ
  observation : δ

inductive Outcome where
  | rejected | indeterminate | committed

/-- `poo-flow-strict-mediation-receipt`. -/
structure MediationReceipt (δ : Type) where
  accepted : Bool
  outcome : Outcome
  code : Code
  tokenId : δ
  nonce : δ
  beforeRoot : δ
  afterRoot : δ

/-- `poo-flow-strict-mediation-result`. -/
structure MediationResult (δ : Type) where
  state : MediationState δ
  receipt : MediationReceipt δ

def negativeReceipt (reason : Code) (state : MediationState δ)
    (token : AuthorizedEffectToken δ) : MediationReceipt δ :=
  ⟨false, .rejected, reason, token.tokenId, token.nonce, state.executionRoot, state.executionRoot⟩

variable (canonicalDigest : ExecutionLeaf δ → δ)

/-- The root of `poo-flow-authorized-effect-token-consume`. -/
def consumedRoot (token : AuthorizedEffectToken δ) (priorRoot observation : δ) : δ :=
  canonicalDigest ⟨priorRoot, token.nonce, token.semanticRoot, observation⟩

/-- What a call presents: a token, a validation context, a root, and an observation
or `#f`. -/
structure Call (δ : Type) where
  token : AuthorizedEffectToken δ
  context : TokenValidationContext δ
  expectedRoot : δ
  observation : Option δ

def strictMediate (state : MediationState δ) (call : Call δ) : MediationResult δ :=
  if call.expectedRoot ≠ state.executionRoot then
    ⟨state, negativeReceipt .executionRootFork state call.token⟩
  else
    match rejectionCode call.token call.context with
    | some code => ⟨state, negativeReceipt code state call.token⟩
    | none =>
      match call.observation with
      -- the token is used up, though nothing is known of its effect
      | none =>
        ⟨⟨state.executionRoot, state.sequence + 1, call.token.nonce :: state.consumedNonces,
            state.revocationEpoch⟩,
          ⟨true, .indeterminate, .observationUnavailable, call.token.tokenId, call.token.nonce,
            state.executionRoot, state.executionRoot⟩⟩
      | some observation =>
        let root := consumedRoot canonicalDigest call.token state.executionRoot observation
        ⟨⟨root, state.sequence + 1, call.token.nonce :: state.consumedNonces,
            state.revocationEpoch⟩,
          ⟨true, .committed, .rootCommitted, call.token.tokenId, call.token.nonce,
            state.executionRoot, root⟩⟩

def nextRoot (state : MediationState δ) (call : Call δ) : δ :=
  match call.observation with
  | none => state.executionRoot
  | some observation => consumedRoot canonicalDigest call.token state.executionRoot observation

variable (state : MediationState δ)

theorem strictMediate_cases (call : Call δ) : (∃ code, strictMediate canonicalDigest state call =
        ⟨state, negativeReceipt code state call.token⟩) ∨
    (call.expectedRoot = state.executionRoot ∧
      call.token.nonce ∉ call.context.consumedNonces ∧
      call.token.validity.revocationEpoch = call.context.revocationEpoch ∧
      (strictMediate canonicalDigest state call).state =
        ⟨nextRoot canonicalDigest state call, state.sequence + 1,
          call.token.nonce :: state.consumedNonces, state.revocationEpoch⟩ ∧
      (strictMediate canonicalDigest state call).receipt.accepted = true ∧
      (strictMediate canonicalDigest state call).receipt.nonce = call.token.nonce ∧
      (strictMediate canonicalDigest state call).receipt.beforeRoot = call.expectedRoot ∧
      (strictMediate canonicalDigest state call).receipt.afterRoot =
        nextRoot canonicalDigest state call) := by
  unfold strictMediate nextRoot
  by_cases hroot : call.expectedRoot = state.executionRoot
  · rw [if_neg (not_not.2 hroot)]
    cases hcode : rejectionCode call.token call.context with
    | some code => exact .inl ⟨code, rfl⟩
    | none =>
      obtain ⟨hfresh, hepoch⟩ := fresh_of_rejectionCode hcode
      refine .inr ⟨hroot, hfresh, hepoch, ?_⟩
      cases call.observation <;> exact ⟨rfl, rfl, rfl, hroot.symm, rfl⟩
  · rw [if_pos hroot]
    exact .inl ⟨_, rfl⟩

structure Step (δ : Type) where
  before : MediationState δ
  call : Call δ
  result : MediationResult δ

def steps : MediationState δ → List (Call δ) → List (Step δ)
  | _, [] => []
  | state, call :: calls =>
    let result := strictMediate canonicalDigest state call
    ⟨state, call, result⟩ :: steps result.state calls

def acceptedNonces (run : List (Step δ)) : List δ :=
  (run.filter (·.result.receipt.accepted)).map (·.call.token.nonce)

def Carries (step : Step δ) : Prop :=
  step.before.consumedNonces ⊆ step.call.context.consumedNonces ∧
    step.call.context.revocationEpoch = step.before.revocationEpoch

/-- A rejected step leaves the state. An accepted one is at the root presented,
advances the sequence by one and consumes the nonce; with an observation it moves
the root to the digest of its leaf, and without one the root stays. -/
structure Sound (step : Step δ) : Prop where
  rejected : step.result.receipt.accepted = false → step.result.state = step.before
  presented : step.result.receipt.accepted = true →
    step.call.expectedRoot = step.before.executionRoot
  sequence : step.result.receipt.accepted = true →
    step.result.state.sequence = step.before.sequence + 1
  consumed : step.result.receipt.accepted = true →
    step.result.state.consumedNonces = step.call.token.nonce :: step.before.consumedNonces
  epoch : step.result.state.revocationEpoch = step.before.revocationEpoch
  moved : step.result.receipt.accepted = true → ∀ observation,
    step.call.observation = some observation → step.result.state.executionRoot =
      canonicalDigest ⟨step.call.expectedRoot, step.call.token.nonce,
        step.call.token.semanticRoot, observation⟩
  stayed : step.call.observation = none →
    step.result.state.executionRoot = step.before.executionRoot

theorem sound_strictMediate (call : Call δ) :
    Sound canonicalDigest ⟨state, call, strictMediate canonicalDigest state call⟩ := by
  rcases strictMediate_cases canonicalDigest state call with
    ⟨code, hresult⟩ | ⟨hroot, -, -, hstate, haccepted, -, -, -⟩
  · constructor <;> simp [hresult, negativeReceipt]
  · refine ⟨fun h => ?_, fun _ => hroot, ?_, ?_, ?_, ?_, ?_⟩
    · rw [haccepted] at h
      cases h
    · simp [hstate]
    · simp [hstate]
    · simp [hstate]
    · intro _ observation hobservation
      dsimp only at hobservation
      simp [hstate, nextRoot, hobservation, consumedRoot, hroot]
    · intro hobservation
      dsimp only at hobservation
      simp [hstate, nextRoot, hobservation]

theorem sound_steps (calls : List (Call δ)) :
    ∀ step ∈ steps canonicalDigest state calls, Sound canonicalDigest step := by
  induction calls generalizing state with
  | nil => simp [steps]
  | cons call calls ih =>
    rw [steps]
    exact forall_mem_cons.2 ⟨sound_strictMediate canonicalDigest state call, ih _⟩

theorem nodup_acceptedNonces {state : MediationState δ} {calls : List (Call δ)}
    (hcarries : ∀ step ∈ steps canonicalDigest state calls, Carries step) :
    (acceptedNonces (steps canonicalDigest state calls)).Nodup ∧
      ∀ nonce ∈ acceptedNonces (steps canonicalDigest state calls),
        nonce ∉ state.consumedNonces := by
  induction calls generalizing state with
  | nil => simp [steps, acceptedNonces]
  | cons call calls ih =>
    rw [steps, forall_mem_cons] at hcarries
    obtain ⟨⟨hcontext, -⟩, hrest⟩ := hcarries
    obtain ⟨hnodup, hnew⟩ := ih hrest
    rcases strictMediate_cases canonicalDigest state call with
      ⟨code, hresult⟩ | ⟨-, hfresh, -, hstate, haccepted, -, -, -⟩
    · have hnonce : acceptedNonces (steps canonicalDigest state (call :: calls)) =
          acceptedNonces
            (steps canonicalDigest (strictMediate canonicalDigest state call).state calls) := by
        simp [steps, acceptedNonces, hresult, negativeReceipt]
      rw [hresult] at hnew
      rw [hnonce]
      exact ⟨hnodup, by rwa [hresult]⟩
    · have hnonce : acceptedNonces (steps canonicalDigest state (call :: calls)) =
          call.token.nonce :: acceptedNonces
            (steps canonicalDigest (strictMediate canonicalDigest state call).state calls) := by
        simp [steps, acceptedNonces, haccepted]
      rw [hstate] at hnew
      rw [hstate] at hnodup
      rw [hnonce, nodup_cons, forall_mem_cons, hstate]
      refine ⟨⟨fun hmem => hnew _ hmem mem_cons_self, hnodup⟩,
        fun hmem => hfresh (hcontext hmem), fun nonce hmem hconsumed => ?_⟩
      exact hnew nonce hmem (mem_cons_of_mem _ hconsumed)

/-- **Runs.** Every step is sound; and where the validation contexts carry what the
state knows, no nonce is accepted twice and no token of another revocation epoch. -/
theorem strict_mediation_once (state : MediationState δ) (calls : List (Call δ)) :
    (∀ step ∈ steps canonicalDigest state calls, Sound canonicalDigest step) ∧
      ((∀ step ∈ steps canonicalDigest state calls, Carries step) →
        (acceptedNonces (steps canonicalDigest state calls)).Nodup ∧
        ∀ step ∈ steps canonicalDigest state calls, step.result.receipt.accepted = true →
          step.call.token.validity.revocationEpoch = step.before.revocationEpoch) := by
  refine ⟨sound_steps canonicalDigest state calls, fun hcarries =>
    ⟨(nodup_acceptedNonces canonicalDigest hcarries).1, ?_⟩⟩
  induction calls generalizing state with
  | nil => simp [steps]
  | cons call calls ih =>
    rw [steps, forall_mem_cons] at hcarries ⊢
    refine ⟨fun haccepted => ?_, ih _ hcarries.2⟩
    rcases strictMediate_cases canonicalDigest state call with
      ⟨code, hresult⟩ | ⟨-, -, hepoch, -⟩
    · simp [hresult, negativeReceipt] at haccepted
    · exact hepoch.trans hcarries.1.2

def replayedToken : AuthorizedEffectToken String where
  tokenId := "token"
  nonce := "nonce"
  semanticRoot := "semantic-root"
  binding := ⟨"", "", "", "", "", "", "", "", "", "", "", "", "", "", "", "", "", ""⟩
  validity := ⟨0, 10, 1⟩
  durability := .strict

def forgetfulContext : TokenValidationContext String where
  semanticRoot := replayedToken.semanticRoot
  binding := replayedToken.binding
  now := 5
  revocationEpoch := 1
  consumedNonces := []

/-- With a context that carries what the state knows, it is accepted once. -/
theorem replayed_token_refused :
    (acceptedNonces (steps (fun leaf => leaf.priorRoot ++ leaf.observation) ⟨"root", 0, [], 1⟩
      [⟨replayedToken, forgetfulContext, "root", some "!"⟩,
        ⟨replayedToken, { forgetfulContext with consumedNonces := ["nonce"] }, "root!",
          some "!"⟩])).Nodup :=
  ((strict_mediation_once _ _ _).2 fun step hmem => by
    simp only [steps, mem_cons, not_mem_nil, or_false] at hmem
    rcases hmem with rfl | rfl <;> exact ⟨by decide +kernel, rfl⟩).1

/-- A token is accepted twice, in another revocation epoch than the state's and
without an observation, so that the root stays. -/
theorem replayed_token_accepted :
    ¬ ∀ (canonicalDigest : ExecutionLeaf String → String) (state : MediationState String)
        (calls : List (Call String)),
      (acceptedNonces (steps canonicalDigest state calls)).Nodup ∧
      ∀ step ∈ steps canonicalDigest state calls,
        (step.result.receipt.accepted = false → step.result.state = step.before) ∧
        (step.result.receipt.accepted = true →
          step.call.token.validity.revocationEpoch = step.before.revocationEpoch ∧
          step.call.expectedRoot = step.before.executionRoot ∧
          step.result.state.executionRoot ≠ step.call.expectedRoot ∧
          step.result.state.sequence = step.before.sequence + 1) := by
  intro hclaim
  have hnodup := (hclaim (fun leaf => leaf.priorRoot ++ leaf.observation) ⟨"root", 0, [], 2⟩
    (List.replicate 2 ⟨replayedToken, forgetfulContext, "root", none⟩)).1
  revert hnodup
  decide +kernel

end PooFlow.Policy
