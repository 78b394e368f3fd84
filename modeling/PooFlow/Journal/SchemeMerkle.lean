import PooFlow.Journal.Inclusion

/-! `batched-merkle.ss` beside `batched_evidence.py`. A symbol is its name, and a condition that is
raised is an error. -/

namespace PooFlow

open Foundation List BatchedMerkleProofStep
open Foundation.HashTree (Side joinPair)

namespace Scheme

def canonicalField : SiblingDigest → Except Raised String
  | .field (.text value) => .ok value
  | .field (.int value) => if 0 ≤ value then .ok (toString value) else .error .other
  | .integral written => .ok written
  | .other => .error .other

def canonicalPacket (domain : String) (fields : List SiblingDigest) : Except Raised String :=
  fields.foldlM (fun packet value => do
    let text ← canonicalField value
    return packet ++ (toString text.utf8ByteSize ++ ":" ++ text)) domain

section

variable (sha256 : Bytes → Digest)

def merkleDigest (domain : String) (fields : List SiblingDigest) : Except Raised String := do
  let packet ← canonicalPacket domain fields
  return hexText (sha256 (encodeText packet)).bytes

def pooFlowBatchedEvidenceLeaf (identity : String) (leafIndex : ℤ) (tokenNonce : String)
    (firstSeq lastSeq : ℤ) (payloadHash semanticHash previousRoot observationHash
      effectOutcome : String) : Except Raised BatchedEvidenceLeaf := do
  let leafHash ← merkleDigest sha256 "poo-flow.batched-evidence-leaf.draft.1|"
    ([.text identity, .int leafIndex, .text tokenNonce, .int firstSeq, .int lastSeq,
      .text payloadHash, .text semanticHash, .text previousRoot, .text observationHash,
      .text effectOutcome].map .field)
  return {
    leafId := identity, index := leafIndex, nonce := tokenNonce
    firstSequence := firstSeq, lastSequence := lastSeq
    payloadDigest := payloadHash, semanticRoot := semanticHash
    previousExecutionRoot := previousRoot, observationDigest := observationHash
    outcome := effectOutcome, digest := leafHash }

def nodeDigest (left right : SiblingDigest) : Except Raised String :=
  merkleDigest sha256 "poo-flow.batched-merkle-node.draft.1|" [left, right]

/-- `next-level/reverse`, which `next-level` calls. -/
def nextLevelReverse : List String → Except Raised (List String)
  | [] => .ok []
  | [last] => do return [← nodeDigest sha256 (.field (.text last)) (.field (.text last))]
  | left :: right :: rest => do
    let digest ← nodeDigest sha256 (.field (.text left)) (.field (.text right))
    return digest :: (← nextLevelReverse rest)

end

theorem canonicalPacket_eq (domain : String) (fields : List SiblingDigest) :
    canonicalPacket domain fields =
      (fields.mapM canonicalField).map fun texts => domain ++ String.join (texts.map frameText) := by
  induction fields generalizing domain with
  | nil => simp [canonicalPacket, Except.map, pure, Except.pure]
  | cons value fields ih =>
    rw [canonicalPacket, foldlM_cons, mapM_cons]
    cases canonicalField value with
    | error e => rfl
    | ok text =>
      refine (ih _).trans ?_
      cases fields.mapM canonicalField with
      | error e => rfl
      | ok texts =>
        exact congrArg Except.ok (by simp [frameText, String.append_assoc])

end Scheme

/-- An object that is no float, and no integer of more digits than Python prints. -/
structure SiblingDigest.Plain (object : SiblingDigest) : Prop where
  ne_integral : ∀ written, object ≠ .integral written
  prints : ∀ value, object = .field (.int value) → Prints value

theorem SiblingDigest.Plain.text (value : String) : (SiblingDigest.field (.text value)).Plain :=
  ⟨nofun, nofun⟩

namespace Scheme

theorem frameObject_eq_map {object : SiblingDigest} (h : object.Plain) :
    frameObject object = (canonicalField object).map frameText := by
  match object, h with
  | .field (.text value), _ => rfl
  | .field (.int value), h =>
    have hprints := h.prints value rfl
    by_cases hvalue : 0 ≤ value
    · simp [frameObject, frame, canonicalField, guardElse, hvalue, hprints, bind, Except.bind, pure,
        Except.pure, Except.map]
    · simp [frameObject, frame, canonicalField, guardElse, hvalue, bind, Except.bind, Except.map]
  | .integral written, h => exact absurd rfl (h.ne_integral written)
  | .other, _ => rfl

theorem mapM_frameObject_eq {objects : List SiblingDigest}
    (h : ∀ object ∈ objects, object.Plain) : objects.mapM frameObject =
      (objects.mapM canonicalField).map fun texts => texts.map frameText := by
  induction objects with
  | nil => rfl
  | cons object objects ih =>
    rw [mapM_cons, mapM_cons, frameObject_eq_map (h _ mem_cons_self),
      ih fun later hlater => h later (mem_cons_of_mem _ hlater)]
    cases canonicalField object with
    | error e => rfl
    | ok text =>
      cases objects.mapM canonicalField with
      | error e => rfl
      | ok texts => rfl

section

variable {sha256 : Bytes → Digest}

/-- **The packets agree**: `merkle-digest` and `_digest` hash the same bytes. -/
theorem merkleDigest_eq {domain : String} {objects : List SiblingDigest}
    (h : ∀ object ∈ objects, object.Plain) :
    merkleDigest sha256 domain objects =
      (objects.mapM frameObject).map (digestText sha256 domain) := by
  rw [merkleDigest, canonicalPacket_eq, mapM_frameObject_eq h]
  cases objects.mapM canonicalField with
  | error e => rfl
  | ok texts => rfl

theorem nodeDigest_eq {left right : SiblingDigest} (hleft : left.Plain) (hright : right.Plain) :
    nodeDigest sha256 left right = nodeOf sha256 left right := by
  refine (merkleDigest_eq (by simpa using ⟨hleft, hright⟩)).trans ?_
  rw [nodeOf]
  cases [left, right].mapM frameObject with
  | error e => rfl
  | ok frames => rfl

theorem nodeDigest_text (left right : String) :
    nodeDigest sha256 (.field (.text left)) (.field (.text right)) =
      .ok (node sha256 left right) := by
  rw [nodeDigest_eq (.text left) (.text right), nodeOf_eq]
  rfl

theorem nextLevelReverse_eq (level : List String) :
    nextLevelReverse sha256 level = .ok (nextLevel sha256 level) := by
  induction level using nextLevel.induct with
  | case1 => rfl
  | case2 last =>
    rw [nextLevelReverse, nodeDigest_text]
    rfl
  | case3 left right rest ih =>
    rw [nextLevelReverse, nodeDigest_text, ih]
    rfl

theorem length_nextLevelReverse {level next : List String}
    (h : nextLevelReverse sha256 level = .ok next) : next.length = (level.length + 1) / 2 := by
  obtain rfl : nextLevel sha256 level = next :=
    Except.ok.inj ((nextLevelReverse_eq level).symm.trans h)
  rw [nextLevel_eq_joinPairs, HashTree.length_joinPairs]

end

section

variable (sha256 : Bytes → Digest)

def rootDigest (digests : List String) : Except Raised String :=
  match digests with
  | [] => .error .other
  | [digest] => .ok digest
  | left :: right :: rest =>
    match _h : nextLevelReverse sha256 (left :: right :: rest) with
    | .ok next => rootDigest next
    | .error e => .error e
termination_by digests.length
decreasing_by
  rw [length_nextLevelReverse _h]
  simp only [length_cons]
  omega

/-- `poo-flow-batched-merkle-root`, its digest. -/
def pooFlowBatchedMerkleRoot (leaves : List BatchedEvidenceLeaf) : Except Raised String :=
  rootDigest sha256 (leaves.map BatchedEvidenceLeaf.digest)

def levelProof (digests : List String) (index : ℕ) : Except Raised BatchedMerkleProofStep := do
  let count := digests.length
  let onRight := index % 2 = 0
  let siblingIndex := if onRight then if index + 1 < count then index + 1 else index else index - 1
  let sibling ← presentElse digests[siblingIndex]? .other
  return ⟨if onRight then "right" else "left", .field (.text sibling)⟩

/-- The loop of `poo-flow-batched-merkle-proof`. -/
def proofLoop (digests : List String) (index : ℕ) (proofSteps : List BatchedMerkleProofStep) :
    Except Raised (List BatchedMerkleProofStep × String) :=
  match digests with
  | [] => .error .other
  | [digest] => .ok (proofSteps.reverse, digest)
  | left :: right :: rest =>
    match h : nextLevelReverse sha256 (left :: right :: rest) with
    | .ok next => do
      let step ← levelProof (left :: right :: rest) index
      proofLoop next (index / 2) (step :: proofSteps)
    | .error e => .error e
termination_by digests.length
decreasing_by
  rw [length_nextLevelReverse h]
  simp only [length_cons]
  omega

def pooFlowBatchedMerkleProof (leaves : List BatchedEvidenceLeaf) (targetIndex : ℤ) :
    Except Raised BatchedMerkleProof := do
  let leafCount := leaves.length
  guardElse (0 ≤ targetIndex ∧ targetIndex < leafCount) .other
  let (proofSteps, proofRoot) ←
    proofLoop sha256 (leaves.map BatchedEvidenceLeaf.digest) targetIndex.toNat []
  return ⟨targetIndex, leafCount, proofSteps, proofRoot⟩

/-- The digest so far, or `#f`. -/
def currentObject : Option String → SiblingDigest
  | some current => .field (.text current)
  | none => .other

/-- The step of the fold in `poo-flow-batched-merkle-proof-verify?`. -/
def verifyStep (current : Option String) (step : BatchedMerkleProofStep) :
    Except Raised (Option String) := do
  let sibling := step.siblingDigest
  if step.direction = "left" then
    return some (← nodeDigest sha256 sibling (currentObject current))
  else if step.direction = "right" then
    return some (← nodeDigest sha256 (currentObject current) sibling)
  else
    return none

def pooFlowBatchedMerkleProofVerify (leaf : BatchedEvidenceLeaf) (proof : BatchedMerkleProof) :
    Except Raised Bool := do
  match ← proof.steps.foldlM (verifyStep sha256) (some leaf.digest) with
  | some computed => return computed == proof.rootDigest
  | none => return false

variable {sha256}

theorem pooFlowBatchedEvidenceLeaf_eq (identity : String) (leafIndex : ℤ) (tokenNonce : String)
    (firstSeq lastSeq : ℤ) (payloadHash semanticHash previousRoot observationHash
      effectOutcome : String) (hprints : Prints leafIndex ∧ Prints firstSeq ∧ Prints lastSeq) :
    pooFlowBatchedEvidenceLeaf sha256 identity leafIndex tokenNonce firstSeq lastSeq payloadHash
        semanticHash previousRoot observationHash effectOutcome =
      batchedEvidenceLeaf sha256 identity leafIndex tokenNonce firstSeq lastSeq payloadHash
        semanticHash previousRoot observationHash effectOutcome := by
  have hframes : ∀ fields : List Field,
      (fields.map SiblingDigest.field).mapM frameObject = fields.mapM frame := by
    intro fields
    induction fields with
    | nil => rfl
    | cons field fields ih =>
      rw [map_cons, mapM_cons, mapM_cons, ih]
      rfl
  have hplain : ∀ value, Prints value → (SiblingDigest.field (.int value)).Plain := by
    intro value hvalue
    refine ⟨nofun, fun other hother => ?_⟩
    cases hother
    exact hvalue
  rw [pooFlowBatchedEvidenceLeaf, batchedEvidenceLeaf, merkleDigest_eq (by
    simp [hplain _ hprints.1, hplain _ hprints.2.1, hplain _ hprints.2.2, SiblingDigest.Plain.text]),
    hframes]
  cases List.mapM frame _ with
  | error e => rfl
  | ok frames => rfl

variable (digests : List String) (leaves : List BatchedEvidenceLeaf)

theorem rootDigest_eq : rootDigest sha256 digests = merkleRoot sha256 digests := by
  induction digests using merkleRoot.induct sha256 with
  | case1 => rw [rootDigest, merkleRoot]
  | case2 digest => rw [rootDigest, merkleRoot]
  | case3 left right rest ih =>
    rw [rootDigest, merkleRoot]
    split
    · next next hnext =>
      obtain rfl := Except.ok.inj ((nextLevelReverse_eq (left :: right :: rest)).symm.trans hnext)
      exact ih
    · next e hnext =>
      rw [nextLevelReverse_eq] at hnext
      cases hnext

theorem levelProof_eq (index : ℕ) (hindex : index < digests.length) : levelProof digests index =
      (presentElse digests[if index % 2 = 0 then min (index + 1) (digests.length - 1)
        else index - 1]? Raised.other).map fun sibling =>
          ⟨if index % 2 = 0 then "right" else "left", .field (.text sibling)⟩ := by
  have hsame : (if index % 2 = 0 then if index + 1 < digests.length then index + 1 else index
      else index - 1) =
      if index % 2 = 0 then min (index + 1) (digests.length - 1) else index - 1 := by
    split
    · split <;> omega
    · rfl
  rw [levelProof, hsame]
  cases presentElse (digests[if index % 2 = 0 then min (index + 1) (digests.length - 1)
    else index - 1]?) Raised.other with
  | error e => rfl
  | ok sibling => rfl

theorem proofLoop_eq {digests : List String} {index : ℕ} {made : List BatchedMerkleProofStep}
    (hindex : index < digests.length) :
    proofLoop sha256 digests index made.reverse = PooFlow.proofLoop sha256 digests index made := by
  induction digests, index, made using PooFlow.proofLoop.induct sha256 with
  | case1 index made => simp at hindex
  | case2 index made digest => rw [proofLoop, PooFlow.proofLoop, reverse_reverse]
  | case3 index made left right rest direction ih =>
    rw [proofLoop, PooFlow.proofLoop]
    split
    · next next hnext =>
      obtain rfl := Except.ok.inj ((nextLevelReverse_eq (left :: right :: rest)).symm.trans hnext)
      rw [levelProof_eq _ _ hindex]
      cases hsibling : presentElse (left :: right :: rest)[if index % 2 = 0 then
          min (index + 1) ((left :: right :: rest).length - 1) else index - 1]? Raised.other with
      | error e =>
        rfl
      | ok sibling =>
        have hnextIndex : index / 2 < (nextLevel sha256 (left :: right :: rest)).length := by
          rw [nextLevel_eq_joinPairs, HashTree.length_joinPairs]
          omega
        have hloop := ih sibling hnextIndex
        rw [reverse_append] at hloop
        exact hloop
    · next e hnext =>
      rw [nextLevelReverse_eq] at hnext
      cases hnext

theorem pooFlowBatchedMerkleRoot_eq :
    pooFlowBatchedMerkleRoot sha256 leaves = batchedMerkleRoot sha256 leaves :=
  rootDigest_eq _

theorem pooFlowBatchedMerkleProof_eq (index : ℤ) :
    pooFlowBatchedMerkleProof sha256 leaves index = batchedMerkleProof sha256 leaves index := by
  rw [pooFlowBatchedMerkleProof, batchedMerkleProof]
  by_cases hindex : 0 ≤ index ∧ index < leaves.length
  · have hlength : index.toNat < (leaves.map BatchedEvidenceLeaf.digest).length := by
      rw [length_map]
      omega
    rw [← proofLoop_eq hlength]
    rfl
  · simp [guardElse, hindex, bind, Except.bind]

end

end Scheme

/-- No step with a side follows a step without one. -/
def WrongLast (steps : List BatchedMerkleProofStep) : Prop :=
  steps.Pairwise fun step later =>
    readDirection step.direction = none → readDirection later.direction = none

/-- A step with a side whose sibling no frame accepts. -/
def BatchedMerkleProofStep.Malformed (step : BatchedMerkleProofStep) : Prop :=
  readDirection step.direction ≠ none ∧ step.siblingDigest.read = none

theorem read_of_mapM {steps : List BatchedMerkleProofStep} {path : List (HashTree.Step String)}
    (h : steps.mapM read = some path) :
    ∀ step ∈ steps, readDirection step.direction ≠ none ∧ step.siblingDigest.read ≠ none := by
  induction steps generalizing path with
  | nil => simp
  | cons step steps ih =>
    rw [mapM_cons, BatchedMerkleProofStep.read] at h
    cases hside : readDirection step.direction with
    | none => simp [hside] at h
    | some side =>
      cases hsibling : step.siblingDigest.read with
      | none => simp [hside, hsibling] at h
      | some sibling =>
        cases hpath : steps.mapM read with
        | none => simp [hpath] at h
        | some rest =>
          refine forall_mem_cons.2 ⟨?_, ih hpath⟩
          simp [hside, hsibling]

section

variable {sha256 : Bytes → Digest}

namespace Scheme

theorem verifyStep_wrong (current : Option String) {step : BatchedMerkleProofStep}
    (h : readDirection step.direction = none) : verifyStep sha256 current step = .ok none := by
  unfold readDirection at h
  split at h
  · simp at h
  · split at h
    · simp at h
    · rename_i hleft hright
      rw [verifyStep, if_neg hleft, if_neg hright]
      rfl

theorem verifyStep_some (current : String) {step : BatchedMerkleProofStep} {side : Side}
    (hside : readDirection step.direction = some side)
    (hplain : step.siblingDigest.Plain) :
    verifyStep sha256 (some current) step =
      presentElse (step.siblingDigest.read.map fun sibling =>
        some (joinPair (node sha256) (HashTree.Step.pair ⟨side, sibling⟩ current))) .other := by
  have hcurrent : (currentObject (some current)).Plain := .text current
  unfold readDirection at hside
  rw [verifyStep, nodeDigest_eq hplain hcurrent, nodeDigest_eq hcurrent hplain, nodeOf_eq,
    nodeOf_eq]
  split at hside
  · obtain rfl := Option.some.inj hside
    rw [if_pos ‹_›]
    cases step.siblingDigest.read with
    | none => rfl
    | some sibling => rfl
  · split at hside
    · obtain rfl := Option.some.inj hside
      rw [if_neg ‹_›, if_pos ‹_›]
      cases step.siblingDigest.read with
      | none => rfl
      | some sibling => rfl
    · simp at hside

theorem foldlM_verifyStep_wrong {steps : List BatchedMerkleProofStep}
    (h : ∀ step ∈ steps, readDirection step.direction = none) :
    steps.foldlM (verifyStep sha256) none = .ok none := by
  induction steps with
  | nil => rfl
  | cons step steps ih =>
    rw [foldlM_cons, verifyStep_wrong _ (h _ mem_cons_self)]
    exact ih fun later hlater => h later (mem_cons_of_mem _ hlater)

/-- **The folds agree** where no side follows a wrong direction. -/
theorem foldlM_verifyStep {current : String} {steps : List BatchedMerkleProofStep}
    (hwrong : WrongLast steps)
    (hplain : ∀ step ∈ steps, step.siblingDigest.Plain) :
    steps.foldlM (verifyStep sha256) (some current) = verifyLoop sha256 current steps := by
  induction steps generalizing current with
  | nil => rfl
  | cons step steps ih =>
    obtain ⟨hlater, hwrong⟩ := pairwise_cons.1 hwrong
    rw [foldlM_cons, verifyLoop_cons]
    cases hside : readDirection step.direction with
    | none =>
      rw [verifyStep_wrong _ hside]
      exact foldlM_verifyStep_wrong fun later hmem => hlater later hmem hside
    | some side =>
      rw [verifyStep_some _ hside (hplain step mem_cons_self)]
      cases step.siblingDigest.read with
      | none => rfl
      | some sibling =>
        exact ih hwrong fun later hmem => hplain later (mem_cons_of_mem _ hmem)

theorem pooFlowBatchedMerkleProofVerify_eq {proof : BatchedMerkleProof}
    {path : List (HashTree.Step String)}
    (hread : proof.steps.mapM read = some path)
    (leaf : BatchedEvidenceLeaf) : pooFlowBatchedMerkleProofVerify sha256 leaf proof =
      batchedMerkleProofVerify sha256 leaf proof := by
  have hsteps := read_of_mapM hread
  have hwrong : WrongLast proof.steps :=
    pairwise_of_forall_mem_list fun step hstep _ _ hnone =>
      absurd hnone (hsteps step hstep).1
  have hplain : ∀ step ∈ proof.steps, step.siblingDigest.Plain := by
    refine fun step hstep => ⟨fun written hwritten => ?_, fun value hvalue => ?_⟩
    · exact (hsteps step hstep).2 (by rw [hwritten, SiblingDigest.read])
    · have hread := (hsteps step hstep).2
      rw [hvalue, SiblingDigest.read, ne_eq, ite_eq_right_iff, not_forall] at hread
      exact hread.1.2
  rw [pooFlowBatchedMerkleProofVerify, foldlM_verifyStep hwrong hplain]
  rfl

end Scheme

variable (sha256) in
theorem verifyLoop_raises (current : String) {steps : List BatchedMerkleProofStep}
    (hwrong : WrongLast steps) :
    (∃ e, verifyLoop sha256 current steps = .error e) ↔ ∃ step ∈ steps, step.Malformed := by
  induction steps generalizing current with
  | nil => simp [verifyLoop]
  | cons step steps ih =>
    obtain ⟨hlater, hwrong⟩ := pairwise_cons.1 hwrong
    rw [verifyLoop_cons]
    cases hside : readDirection step.direction with
    | none =>
      -- the fold has its answer, and no later step has a direction that is read
      have hnone : ∀ later ∈ step :: steps, ¬later.Malformed := by
        intro later hmem hmalformed
        rcases mem_cons.1 hmem with rfl | hmem
        · exact hmalformed.1 hside
        · exact hmalformed.1 (hlater later hmem hside)
      constructor
      · rintro ⟨e, h⟩
        cases h
      · rintro ⟨later, hmem, hmalformed⟩
        exact absurd hmalformed (hnone later hmem)
    | some side =>
      cases hread : step.siblingDigest.read with
      | none =>
        exact ⟨fun _ => ⟨step, mem_cons_self, by simp [hside], hread⟩, fun _ => ⟨_, rfl⟩⟩
      | some sibling =>
        have hstep : ¬step.Malformed := by simp [BatchedMerkleProofStep.Malformed, hread]
        refine (ih _ hwrong).trans ?_
        simp [hstep]

theorem batchedMerkleProofVerify_raises {leaf : BatchedEvidenceLeaf} {proof : BatchedMerkleProof}
    (hwrong : WrongLast proof.steps) :
    (∃ e, batchedMerkleProofVerify sha256 leaf proof = .error e) ↔
      ∃ step ∈ proof.steps, step.Malformed := by
  rw [← verifyLoop_raises sha256 leaf.digest hwrong, batchedMerkleProofVerify]
  cases verifyLoop sha256 leaf.digest proof.steps with
  | error e => exact ⟨fun _ => ⟨e, rfl⟩, fun _ => ⟨e, rfl⟩⟩
  | ok computed =>
    constructor
    · rintro ⟨e, h⟩
      cases computed <;> cases h
    · rintro ⟨e, h⟩
      cases h

end

/-- **The two implementations agree** on leaves, of integers that Python prints, on
roots and on proofs. Their verifiers end alike, with the same answer or with an error, on
steps of which no one with a side follows one without a side and none has as its sibling
a float, or an integer that Python does not print; the errors are those of malformed
siblings. -/
theorem merkle_implementations_agree (sha256 : Bytes → Digest) :
    (∀ (leafId : String) (index : ℤ) (nonce : String) (first last : ℤ)
        (payload semantic execution observation outcome : String),
        Prints index ∧ Prints first ∧ Prints last →
        Scheme.pooFlowBatchedEvidenceLeaf sha256 leafId index nonce first last payload semantic
            execution observation outcome =
          batchedEvidenceLeaf sha256 leafId index nonce first last payload semantic execution
            observation outcome) ∧
      Scheme.pooFlowBatchedMerkleRoot sha256 = batchedMerkleRoot sha256 ∧
      Scheme.pooFlowBatchedMerkleProof sha256 = batchedMerkleProof sha256 ∧
      ∀ (leaf : BatchedEvidenceLeaf) (proof : BatchedMerkleProof), WrongLast proof.steps →
        (∀ step ∈ proof.steps, step.siblingDigest.Plain) →
        Scheme.pooFlowBatchedMerkleProofVerify sha256 leaf proof =
            batchedMerkleProofVerify sha256 leaf proof ∧
          ((∃ e, batchedMerkleProofVerify sha256 leaf proof = .error e) ↔
            ∃ step ∈ proof.steps, step.Malformed) := by
  refine ⟨?_, ?_, ?_, ?_⟩
  · intro leafId index nonce first last payload semantic execution observation outcome hprints
    exact Scheme.pooFlowBatchedEvidenceLeaf_eq _ _ _ _ _ _ _ _ _ _ hprints
  · funext leaves
    exact Scheme.pooFlowBatchedMerkleRoot_eq leaves
  · funext leaves index
    exact Scheme.pooFlowBatchedMerkleProof_eq leaves index
  · intro leaf proof hwrong hplain
    refine ⟨?_, batchedMerkleProofVerify_raises hwrong⟩
    rw [Scheme.pooFlowBatchedMerkleProofVerify, Scheme.foldlM_verifyStep hwrong hplain]
    rfl

/-- **The proof of every place is accepted**, in both implementations and for
lists of every length, with the root of the list. -/
theorem merkle_complete (sha256 : Bytes → Digest) {leaves : List BatchedEvidenceLeaf} {i : ℕ}
    {leaf : BatchedEvidenceLeaf} (hleaf : leaves[i]? = some leaf) :
    (∃ proof, batchedMerkleProof sha256 leaves i = .ok proof ∧
        proof.leafIndex = i ∧ proof.leafCount = leaves.length ∧
        batchedMerkleRoot sha256 leaves = .ok proof.rootDigest ∧
        batchedMerkleProofVerify sha256 leaf proof = .ok true) ∧
      ∃ proof, Scheme.pooFlowBatchedMerkleProof sha256 leaves i = .ok proof ∧
        proof.leafIndex = i ∧ proof.leafCount = leaves.length ∧
        Scheme.pooFlowBatchedMerkleRoot sha256 leaves = .ok proof.rootDigest ∧
        Scheme.pooFlowBatchedMerkleProofVerify sha256 leaf proof = .ok true := by
  obtain ⟨proof, hproof, hroot, hverify⟩ := batchedMerkleProof_verifies sha256 hleaf
  obtain ⟨made, path, hmade, hindex, hcount, hread, -⟩ :=
    batchedMerkleProof_ok sha256 (List.getElem?_eq_some_iff.1 hleaf).1
  obtain rfl := Except.ok.inj (hproof.symm.trans hmade)
  refine ⟨⟨proof, hproof, hindex, hcount, hroot, hverify⟩, proof, ?_, hindex, hcount, ?_, ?_⟩
  · rw [Scheme.pooFlowBatchedMerkleProof_eq, hproof]
  · rw [Scheme.pooFlowBatchedMerkleRoot_eq, hroot]
  · rw [Scheme.pooFlowBatchedMerkleProofVerify_eq hread, hverify]

/-- The last leaf of three, which is joined with itself. -/
theorem batch_complete : batch[2]? = some (batchLeaf 2) ∧
      ∃ proof, Scheme.pooFlowBatchedMerkleProof (tableHash batchPackets) batch 2 = .ok proof ∧
        Scheme.pooFlowBatchedMerkleProofVerify (tableHash batchPackets) (batchLeaf 2) proof =
          .ok true :=
  ⟨rfl, by
    have hleaf : batch[2]? = some (batchLeaf 2) := rfl
    obtain ⟨-, proof, hproof, -, -, -, hverify⟩ := merkle_complete (tableHash batchPackets) hleaf
    exact ⟨proof, hproof, hverify⟩⟩

def proofOf (steps : List BatchedMerkleProofStep) : BatchedMerkleProof where
  leafIndex := 0
  leafCount := 3
  steps := steps
  rootDigest := tableText 5

/-- The verifiers part after a wrong direction and on a float, and both refuse a
sibling that is no field. -/
theorem batch_verifiers_part : batchedMerkleProofVerify (tableHash batchPackets) (batchLeaf 0)
        (proofOf [⟨"up", .field (.text (tableText 1))⟩,
          ⟨"right", .field (.text (tableText 4))⟩]) = .ok false ∧
      Scheme.pooFlowBatchedMerkleProofVerify (tableHash batchPackets) (batchLeaf 0)
        (proofOf [⟨"up", .field (.text (tableText 1))⟩,
          ⟨"right", .field (.text (tableText 4))⟩]) = .error .other ∧
      batchedMerkleProofVerify (tableHash batchPackets) (batchLeaf 0)
        (proofOf [⟨"right", .integral "1."⟩]) = .error .other ∧
      Scheme.pooFlowBatchedMerkleProofVerify (tableHash batchPackets) (batchLeaf 0)
        (proofOf [⟨"right", .integral "1."⟩]) = .ok false ∧
      batchedMerkleProofVerify (tableHash batchPackets) (batchLeaf 0)
        (proofOf [⟨"right", .field (.int (-1))⟩]) = .error .other ∧
      Scheme.pooFlowBatchedMerkleProofVerify (tableHash batchPackets) (batchLeaf 0)
        (proofOf [⟨"right", .field (.int (-1))⟩]) = .error .other := by
  decide +kernel

/-- The implementations agree on a leaf, and on a proof whose last step has a wrong
direction. -/
theorem batch_verifiers_agree :
    Scheme.pooFlowBatchedEvidenceLeaf (tableHash batchPackets) "leaf" 0 "nonce" 1 2 "payload"
          "semantic" "execution" "observation" "committed" =
        batchedEvidenceLeaf (tableHash batchPackets) "leaf" 0 "nonce" 1 2 "payload" "semantic"
          "execution" "observation" "committed" ∧
      Scheme.pooFlowBatchedMerkleProofVerify (tableHash batchPackets) (batchLeaf 0)
          (proofOf [⟨"right", .field (.text (tableText 1))⟩, ⟨"up", .other⟩]) =
        batchedMerkleProofVerify (tableHash batchPackets) (batchLeaf 0)
          (proofOf [⟨"right", .field (.text (tableText 1))⟩, ⟨"up", .other⟩]) :=
  have hagree := merkle_implementations_agree (tableHash batchPackets)
  ⟨hagree.1 _ 0 _ 1 2 _ _ _ _ _ ⟨prints_of_lt (by decide) (by decide),
      prints_of_lt (by decide) (by decide), prints_of_lt (by decide) (by decide)⟩,
    (hagree.2.2.2 (batchLeaf 0) (proofOf [⟨"right", .field (.text (tableText 1))⟩, ⟨"up", .other⟩])
      (by simp [WrongLast, proofOf, readDirection])
      (forall_mem_cons.2 ⟨.text _, forall_mem_singleton.2 ⟨nofun, nofun⟩⟩)).1⟩

end PooFlow
