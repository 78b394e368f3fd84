import PooFlow.Journal.Framing

/-! `batched_evidence.py`: the verifier follows the steps of a proof from a leaf; the index and the
count that a proof states are not read. -/

namespace PooFlow

open Foundation List Option
open Foundation.HashTree (Joined Path Retraced Root Side climb climbed joinPair joinPairs
  neighbours siblingIndex siblingSide)

/-- The object that a step gives as its sibling: a field, a float without a
fraction as `number->string` writes it, or something else. -/
inductive SiblingDigest where
  | field (value : Field)
  | integral (written : String)
  | other

/-- `_frame`, of any object. -/
def frameObject : SiblingDigest → Except Raised String
  | .field value => frame value
  | .integral _ => .error .other
  | .other => .error .other

structure BatchedMerkleProofStep where
  direction : String
  siblingDigest : SiblingDigest

structure BatchedMerkleProof where
  leafIndex : ℤ
  leafCount : ℕ
  steps : List BatchedMerkleProofStep
  rootDigest : String

section

variable (sha256 : Bytes → Digest)

/-- `_node`, of any objects. -/
def nodeOf (left right : SiblingDigest) : Except Raised String := do
  let frames ← [left, right].mapM frameObject
  return digestText sha256 nodeDomain frames

def batchedMerkleRoot (leaves : List BatchedEvidenceLeaf) : Except Raised String :=
  merkleRoot sha256 (leaves.map BatchedEvidenceLeaf.digest)

/-- The loop of `batched_merkle_proof`: the steps and the root. -/
def proofLoop (level : List String) (cursor : ℕ) (steps : List BatchedMerkleProofStep) :
    Except Raised (List BatchedMerkleProofStep × String) :=
  match level with
  | [] => .error .other
  | [root] => .ok (steps, root)
  | left :: right :: rest => do
    let level := left :: right :: rest
    let siblingIndex := if cursor % 2 = 0 then min (cursor + 1) (level.length - 1) else cursor - 1
    let direction := if cursor % 2 = 0 then "right" else "left"
    let sibling ← presentElse level[siblingIndex]? .other
    proofLoop (nextLevel sha256 (left :: right :: rest)) (cursor / 2)
      (steps ++ [⟨direction, .field (.text sibling)⟩])
termination_by level.length
decreasing_by
  have hrest := length_nextLevel_le sha256 rest
  simp only [nextLevel, length_cons]
  omega

def batchedMerkleProof (leaves : List BatchedEvidenceLeaf) (index : ℤ) :
    Except Raised BatchedMerkleProof := do
  guardElse (0 ≤ index ∧ index < leaves.length) .other
  let (steps, root) ← proofLoop sha256 (leaves.map BatchedEvidenceLeaf.digest) index.toNat []
  return ⟨index, leaves.length, steps, root⟩

/-- The loop of `batched_merkle_proof_verify`; `none` is its early `return False`. -/
def verifyLoop : String → List BatchedMerkleProofStep → Except Raised (Option String)
  | current, [] => .ok (some current)
  | current, step :: steps => do
    if step.direction = "left" then
      verifyLoop (← nodeOf sha256 step.siblingDigest (.field (.text current))) steps
    else if step.direction = "right" then
      verifyLoop (← nodeOf sha256 (.field (.text current)) step.siblingDigest) steps
    else
      return none

def batchedMerkleProofVerify (leaf : BatchedEvidenceLeaf) (proof : BatchedMerkleProof) :
    Except Raised Bool := do
  match ← verifyLoop sha256 leaf.digest proof.steps with
  | some current => return current == proof.rootDigest
  | none => return false

end

/-- The text of an object that `_frame` accepts. -/
def SiblingDigest.read : SiblingDigest → Option String
  | .field (.text value) => some value
  | .field (.int value) => if 0 ≤ value ∧ Prints value then some (toString value) else none
  | .integral _ => none
  | .other => none

def readDirection (direction : String) : Option Side :=
  if direction = "left" then some .left else if direction = "right" then some .right else none

def BatchedMerkleProofStep.read (step : BatchedMerkleProofStep) : Option (HashTree.Step String) :=
  do return ⟨← readDirection step.direction, ← step.siblingDigest.read⟩

theorem frameObject_eq (object : SiblingDigest) :
    frameObject object = presentElse (object.read.map frameText) .other := by
  match object with
  | .field (.text value) => rfl
  | .field (.int value) =>
    by_cases hvalue : 0 ≤ value
    · by_cases hprints : Prints value
      · simp [frameObject, frame, SiblingDigest.read, guardElse, presentElse, hvalue, hprints, bind,
          Except.bind, pure, Except.pure]
      · simp [frameObject, frame, SiblingDigest.read, guardElse, presentElse, hvalue, hprints, bind,
          Except.bind]
    · simp [frameObject, frame, SiblingDigest.read, guardElse, presentElse, hvalue, bind,
        Except.bind]
  | .integral _ => rfl
  | .other => rfl

theorem readDirection_siblingSide (i : ℕ) :
    readDirection (if i % 2 = 0 then "right" else "left") = some (siblingSide i) := by
  unfold siblingSide
  split <;> rfl

section

variable {sha256 : Bytes → Digest}

theorem nextLevel_eq_joinPairs (level : List String) :
    nextLevel sha256 level = joinPairs (node sha256) level := by
  induction level using nextLevel.induct with
  | case1 => rfl
  | case2 last => rfl
  | case3 left right rest ih =>
    rw [nextLevel, ih]
    rfl

theorem nodeOf_eq (left right : SiblingDigest) : nodeOf sha256 left right =
      presentElse (do return node sha256 (← left.read) (← right.read)) .other := by
  simp only [nodeOf, mapM_cons, mapM_nil, frameObject_eq]
  cases left.read with
  | none => rfl
  | some left =>
    cases right.read with
    | none => rfl
    | some right => rfl

theorem merkleRoot_eq_ok {level : List String} {root : String} :
    merkleRoot sha256 level = .ok root ↔ Root (node sha256) level root := by
  induction level using merkleRoot.induct sha256 with
  | case1 =>
    rw [merkleRoot]
    constructor
    · intro h
      cases h
    · rintro ⟨⟩
      contradiction
  | case2 first =>
    rw [merkleRoot]
    constructor
    · rintro ⟨⟩
      exact .single _
    · rintro ⟨⟩
      · rfl
      · contradiction
  | case3 left right rest ih =>
    rw [merkleRoot, ih, nextLevel_eq_joinPairs]
    constructor
    · exact fun h => .next (by simp) h
    · rintro ⟨⟩
      assumption

variable (sha256) in
theorem proofLoop_ok {level : List String} {cursor : ℕ} (made : List BatchedMerkleProofStep)
    (hcursor : cursor < level.length) :
    ∃ steps path root, proofLoop sha256 level cursor made = .ok (made ++ steps, root) ∧
      steps.mapM BatchedMerkleProofStep.read = some path ∧
      Path (node sha256) level cursor path root := by
  induction level, cursor, made using proofLoop.induct sha256 with
  | case1 cursor made => simp at hcursor
  | case2 cursor made root =>
    obtain rfl : cursor = 0 := by simpa using hcursor
    exact ⟨[], [], root, by rw [proofLoop, append_nil], rfl, .single root⟩
  | case3 cursor made left right rest direction ih =>
    have hindex : siblingIndex (left :: right :: rest).length cursor <
        (left :: right :: rest).length := HashTree.siblingIndex_lt hcursor
    obtain ⟨sibling, hsibling⟩ : ∃ sibling, (left :: right :: rest)[siblingIndex
        (left :: right :: rest).length cursor]? = some sibling :=
      ⟨_, List.getElem?_eq_getElem hindex⟩
    -- the cursor has a place in the next level, which is shorter
    obtain ⟨steps, path, root, hloop, hread, hpath⟩ := ih sibling (by
      rw [nextLevel_eq_joinPairs, HashTree.length_joinPairs]
      omega)
    refine ⟨⟨direction, .field (.text sibling)⟩ :: steps, ⟨siblingSide cursor, sibling⟩ :: path,
      root, ?_, ?_, ?_⟩
    · rw [proofLoop]
      refine bind_eq_ok.2 ⟨sibling, presentElse_eq_ok.2 hsibling, ?_⟩
      rw [append_cons made _ steps]
      exact hloop
    · have hdirection : readDirection direction = some (siblingSide cursor) :=
        readDirection_siblingSide cursor
      simp only [mapM_cons, BatchedMerkleProofStep.read, hdirection, hread]
      rfl
    · rw [nextLevel_eq_joinPairs] at hpath
      exact .next (by simp) hcursor hsibling hpath

variable (sha256) in
theorem batchedMerkleProof_ok {leaves : List BatchedEvidenceLeaf} {i : ℕ} (hi : i < leaves.length) :
    ∃ proof path, batchedMerkleProof sha256 leaves i = .ok proof ∧ proof.leafIndex = i ∧
      proof.leafCount = leaves.length ∧
      proof.steps.mapM BatchedMerkleProofStep.read = some path ∧
      Path (node sha256) (leaves.map BatchedEvidenceLeaf.digest) i path proof.rootDigest := by
  have hcursor : i < (leaves.map BatchedEvidenceLeaf.digest).length := by simpa using hi
  obtain ⟨steps, path, root, hloop, hread, hpath⟩ :=
    proofLoop_ok sha256 [] hcursor
  refine ⟨⟨i, leaves.length, steps, root⟩, path, ?_, rfl, rfl, hread, hpath⟩
  refine bind_eq_ok.2 ⟨(), guardElse_eq_ok.2 ⟨by omega, by omega⟩, ?_⟩
  rw [Int.toNat_natCast, hloop]
  rfl

/-- **One step of the verifier.** -/
theorem verifyLoop_cons (current : String) (step : BatchedMerkleProofStep)
    (steps : List BatchedMerkleProofStep) : verifyLoop sha256 current (step :: steps) =
      match readDirection step.direction, step.siblingDigest.read with
      | none, _ => .ok none
      | some _, none => .error .other
      | some side, some sibling =>
        verifyLoop sha256 (joinPair (node sha256) (HashTree.Step.pair ⟨side, sibling⟩ current))
          steps := by
  rw [verifyLoop, readDirection, nodeOf_eq, nodeOf_eq]
  by_cases hleft : step.direction = "left"
  · rw [if_pos hleft, if_pos hleft]
    cases step.siblingDigest.read with
    | none => rfl
    | some sibling => rfl
  · rw [if_neg hleft, if_neg hleft]
    by_cases hright : step.direction = "right"
    · rw [if_pos hright, if_pos hright]
      cases step.siblingDigest.read with
      | none => rfl
      | some sibling => rfl
    · rw [if_neg hright, if_neg hright]
      rfl

theorem verifyLoop_eq_some {current value : String} {steps : List BatchedMerkleProofStep} :
    verifyLoop sha256 current steps = .ok (some value) ↔
      ∃ path, steps.mapM BatchedMerkleProofStep.read = some path ∧
        climb (node sha256) current path = value := by
  induction steps generalizing current with
  | nil => simp [verifyLoop, climb]
  | cons step steps ih =>
    rw [verifyLoop_cons, mapM_cons, BatchedMerkleProofStep.read]
    cases readDirection step.direction with
    | none => simp
    | some side =>
      cases step.siblingDigest.read with
      | none => simp
      | some sibling =>
        refine ih.trans ?_
        cases steps.mapM BatchedMerkleProofStep.read with
        | none => simp
        | some path => simp [climb]

variable {leaf : BatchedEvidenceLeaf} {proof : BatchedMerkleProof}

/-- **What is accepted**: the steps lead from the leaf to the stated root. -/
theorem batchedMerkleProofVerify_eq_true : batchedMerkleProofVerify sha256 leaf proof = .ok true ↔
      ∃ path, proof.steps.mapM BatchedMerkleProofStep.read = some path ∧
        climb (node sha256) leaf.digest path = proof.rootDigest := by
  rw [← verifyLoop_eq_some, batchedMerkleProofVerify]
  simp only [bind_eq_ok]
  constructor
  · rintro ⟨current, hloop, hresult⟩
    cases current with
    | none => exact absurd (Except.ok.inj hresult) (by simp)
    | some current =>
      rw [hloop, eq_of_beq (Except.ok.inj hresult)]
  · intro hloop
    exact ⟨_, hloop, congrArg Except.ok (beq_self_eq_true _)⟩

variable (sha256) in
/-- **The proof of a position is accepted** for the leaf that stands there. -/
theorem batchedMerkleProof_verifies {leaves : List BatchedEvidenceLeaf} {i : ℕ}
    (hleaf : leaves[i]? = some leaf) : ∃ proof, batchedMerkleProof sha256 leaves i = .ok proof ∧
      batchedMerkleRoot sha256 leaves = .ok proof.rootDigest ∧
      batchedMerkleProofVerify sha256 leaf proof = .ok true := by
  have hi : i < leaves.length := (List.getElem?_eq_some_iff.1 hleaf).1
  obtain ⟨proof, path, hproof, _, _, hread, hpath⟩ := batchedMerkleProof_ok sha256 hi
  have hdigest : (leaves.map BatchedEvidenceLeaf.digest)[i]? = some leaf.digest := by
    rw [List.getElem?_map, hleaf]
    rfl
  exact ⟨proof, hproof, merkleRoot_eq_ok.2 hpath.root,
    batchedMerkleProofVerify_eq_true.2 ⟨path, hread, hpath.climb_eq hdigest⟩⟩

variable (sha256)

def treePackets (leaves : List BatchedEvidenceLeaf) : Set Bytes :=
  {bytes | (∃ leaf ∈ leaves, leaf.packet = bytes) ∨
    ∃ pair, Joined (node sha256) (leaves.map BatchedEvidenceLeaf.digest) pair ∧
      nodePacket pair.1 pair.2 = bytes}

def proofPackets (leaf : BatchedEvidenceLeaf) (proof : BatchedMerkleProof) : Set Bytes :=
  {bytes | leaf.packet = bytes ∨
    ∃ path, proof.steps.mapM BatchedMerkleProofStep.read = some path ∧
      ∃ pair ∈ climbed (node sha256) leaf.digest path, nodePacket pair.1 pair.2 = bytes}

def Numbered (leaves : List BatchedEvidenceLeaf) : Prop :=
  ∀ (i : ℕ) (leaf : BatchedEvidenceLeaf), leaves[i]? = some leaf → leaf.index = i

variable {sha256}

variable {hashed : Set Bytes} {leaf : BatchedEvidenceLeaf} {leaves : List BatchedEvidenceLeaf}

theorem joinPair_injOn (hinjective : Set.InjOn sha256 hashed) :
    Set.InjOn (joinPair (node sha256)) {pair | nodePacket pair.1 pair.2 ∈ hashed} := by
  rintro ⟨left, right⟩ hpair ⟨left', right'⟩ hpair' hsame
  obtain ⟨rfl, rfl⟩ := nodePacket_inj (hinjective hpair hpair' (hexText_digest_inj hsame))
  rfl

theorem joinPair_ne_digest (hinjective : Set.InjOn sha256 hashed) (hleaf : leaf.Digested sha256)
    (hpacket : leaf.packet ∈ hashed) :
    ∀ pair ∈ {pair : String × String | nodePacket pair.1 pair.2 ∈ hashed},
      joinPair (node sha256) pair ≠ leaf.digest := by
  rintro pair hpair hsame
  rw [hleaf.digest_eq] at hsame
  exact packet_ne_nodePacket leaf _ _ (hinjective hpacket hpair (hexText_digest_inj hsame.symm))

theorem digest_inj {leaf' : BatchedEvidenceLeaf} (hinjective : Set.InjOn sha256 hashed)
    (hleaf : leaf.Digested sha256) (hleaf' : leaf'.Digested sha256) (hpacket : leaf.packet ∈ hashed)
    (hpacket' : leaf'.packet ∈ hashed) (hsame : leaf.digest = leaf'.digest) : leaf = leaf' := by
  rw [hleaf.digest_eq, hleaf'.digest_eq] at hsame
  exact hleaf.packet_inj hleaf' (hinjective hpacket hpacket' (hexText_digest_inj hsame))

variable {proof : BatchedMerkleProof} {i : ℕ} {leaves' : List BatchedEvidenceLeaf}

/-- **An accepted proof retraces the proof of a place of its leaf.** -/
theorem verified_retraced (hleaves : ∀ leaf ∈ leaves, leaf.Digested sha256)
    (hleaf : leaf.Digested sha256)
    (hinjective : Set.InjOn sha256 (treePackets sha256 leaves ∪ proofPackets sha256 leaf proof))
    (hroot : batchedMerkleRoot sha256 leaves = .ok proof.rootDigest)
    (hverified : batchedMerkleProofVerify sha256 leaf proof = .ok true) :
    ∃ (i : ℕ) (made : BatchedMerkleProof) (path madePath : List (HashTree.Step String)),
      leaves[i]? = some leaf ∧ batchedMerkleProof sha256 leaves i = .ok made ∧
      proof.steps.mapM BatchedMerkleProofStep.read = some path ∧
      made.steps.mapM BatchedMerkleProofStep.read = some madePath ∧
      Retraced leaves.length i path madePath := by
  obtain ⟨path, hread, hclimb⟩ := batchedMerkleProofVerify_eq_true.1 hverified
  -- the packets of the leaves, of the tree and of the climb are told apart
  have hleafPacket : leaf.packet ∈ treePackets sha256 leaves ∪ proofPackets sha256 leaf proof :=
    .inr (.inl rfl)
  have hpacket : ∀ other ∈ leaves,
      other.packet ∈ treePackets sha256 leaves ∪ proofPackets sha256 leaf proof :=
    fun other hother => .inl (.inl ⟨other, hother, rfl⟩)
  obtain ⟨i, madePath, hdigest, hpath, hretraced⟩ :=
    (merkleRoot_eq_ok.1 hroot).retraced hclimb (joinPair_injOn hinjective)
      (fun pair hpair => .inl (.inr ⟨pair, hpair, rfl⟩))
      (fun pair hpair => .inr (.inr ⟨path, hread, pair, hpair, rfl⟩))
      (joinPair_ne_digest hinjective hleaf hleafPacket)
      (by
        intro pair hpair hmem
        obtain ⟨other, hother, hsame⟩ := mem_map.1 hmem
        exact joinPair_ne_digest hinjective (hleaves other hother) (hpacket other hother)
          pair hpair hsame.symm)
  rw [List.getElem?_map] at hdigest
  obtain ⟨other, hother, hsame⟩ := map_eq_some_iff.1 hdigest
  have hmem := mem_of_getElem? hother
  obtain rfl : other = leaf := digest_inj hinjective (hleaves other hmem) hleaf
    (hpacket other hmem) hleafPacket hsame
  obtain ⟨made, path', hmade, _, _, hread', hpath'⟩ :=
    batchedMerkleProof_ok sha256 (List.getElem?_eq_some_iff.1 hother).1
  rw [length_map] at hretraced
  rw [hpath'.unique hpath] at hread'
  exact ⟨i, made, path, madePath, hother, hmade, hread, hread', hretraced⟩

theorem proofPackets_subset (hleaf : leaves[i]? = some leaf)
    (hproof : batchedMerkleProof sha256 leaves i = .ok proof) :
    proofPackets sha256 leaf proof ⊆ treePackets sha256 leaves := by
  obtain ⟨made, madePath, hmade, _, _, hread, hpath⟩ :=
    batchedMerkleProof_ok sha256 (List.getElem?_eq_some_iff.1 hleaf).1
  obtain rfl : made = proof := Except.ok.inj (hmade.symm.trans hproof)
  rintro bytes (hpacket | ⟨path, hpathRead, pair, hpair, hpacket⟩)
  · exact .inl ⟨leaf, mem_of_getElem? hleaf, hpacket⟩
  · obtain rfl : madePath = path := some.inj (hread.symm.trans hpathRead)
    have hdigest : (leaves.map BatchedEvidenceLeaf.digest)[i]? = some leaf.digest := by
      rw [List.getElem?_map, hleaf]
      rfl
    exact .inr ⟨pair, hpath.climbed_joined hdigest pair hpair, hpacket⟩

section

variable (hleaves : ∀ leaf ∈ leaves, leaf.Digested sha256)
  (hleaves' : ∀ leaf ∈ leaves', leaf.Digested sha256) (hnumbered : Numbered leaves)
  (hnumbered' : Numbered leaves')
  (hinjective : Set.InjOn sha256 (treePackets sha256 leaves ∪ treePackets sha256 leaves'))
  (hroot : batchedMerkleRoot sha256 leaves = batchedMerkleRoot sha256 leaves')

include hleaves hleaves' hnumbered hnumbered' hinjective hroot

theorem getElem?_of_sameRoot (hleaf : leaves[i]? = some leaf) : leaves'[i]? = some leaf := by
  obtain ⟨proof, hproof, hproofRoot, hverified⟩ :=
    batchedMerkleProof_verifies sha256 hleaf
  have hsubset : treePackets sha256 leaves' ∪ proofPackets sha256 leaf proof ⊆
      treePackets sha256 leaves ∪ treePackets sha256 leaves' := by
    rintro bytes (hbytes | hbytes)
    · exact .inr hbytes
    · exact .inl (proofPackets_subset hleaf hproof hbytes)
  obtain ⟨j, _, _, _, hplace, _⟩ := verified_retraced hleaves'
    (hleaves leaf (mem_of_getElem? hleaf)) (hinjective.mono hsubset)
    (hroot.symm.trans hproofRoot) hverified
  have hsame : (i : ℤ) = j := (hnumbered i leaf hleaf).symm.trans (hnumbered' j leaf hplace)
  rwa [Nat.cast_injective hsame]

/-- **Equal roots, equal batches.** -/
theorem leaves_eq_of_sameRoot : leaves = leaves' := by
  apply ext_getElem?
  intro i
  apply Option.ext
  intro leaf
  constructor
  · exact getElem?_of_sameRoot hleaves hleaves' hnumbered hnumbered' hinjective hroot
  · rw [Set.union_comm] at hinjective
    exact getElem?_of_sameRoot hleaves' hleaves hnumbered' hnumbered hinjective hroot.symm

end

end

/-- **Batched evidence is bound by its root**, when the packets that are hashed
do not collide: equal roots of numbered batches have equal leaves, and a proof
that is accepted against the root of a batch retraces the proof of a place of
its leaf. -/
theorem batched_merkle_sound (sha256 : Bytes → Digest) :
    (∀ leaves leaves' : List BatchedEvidenceLeaf, leaves ≠ [] → leaves' ≠ [] →
      (∀ leaf ∈ leaves, leaf.Digested sha256) → (∀ leaf ∈ leaves', leaf.Digested sha256) →
      Numbered leaves → Numbered leaves' →
      Set.InjOn sha256 (treePackets sha256 leaves ∪ treePackets sha256 leaves') →
      batchedMerkleRoot sha256 leaves = batchedMerkleRoot sha256 leaves' → leaves = leaves') ∧
    (∀ (leaves : List BatchedEvidenceLeaf) (leaf : BatchedEvidenceLeaf)
      (proof : BatchedMerkleProof), (∀ leaf ∈ leaves, leaf.Digested sha256) →
      leaf.Digested sha256 →
      Set.InjOn sha256 (treePackets sha256 leaves ∪ proofPackets sha256 leaf proof) →
      batchedMerkleRoot sha256 leaves = .ok proof.rootDigest →
      batchedMerkleProofVerify sha256 leaf proof = .ok true →
      ∃ (i : ℕ) (made : BatchedMerkleProof) (path madePath : List (HashTree.Step String)),
        leaves[i]? = some leaf ∧ batchedMerkleProof sha256 leaves i = .ok made ∧
        proof.steps.mapM BatchedMerkleProofStep.read = some path ∧
        made.steps.mapM BatchedMerkleProofStep.read = some madePath ∧
        Retraced leaves.length i path madePath) := by
  constructor
  · intro leaves leaves' _ _ hleaves hleaves' hnumbered hnumbered' hinjective hroot
    exact leaves_eq_of_sameRoot hleaves hleaves' hnumbered hnumbered' hinjective hroot
  · intro leaves leaf proof hleaves hleaf hinjective hroot hverified
    exact verified_retraced hleaves hleaf hinjective hroot hverified

def tableHash (packets : List Bytes) (bytes : Bytes) : Digest :=
  .filled (UInt8.ofNat (packets.idxOf bytes))

theorem tableHash_injOn {packets : List Bytes} (hlength : packets.length ≤ 256) :
    Set.InjOn (tableHash packets) {bytes | bytes ∈ packets} := by
  intro bytes hbytes bytes' hbytes' hsame
  have hindex : packets.idxOf bytes < packets.length := idxOf_lt_length_of_mem hbytes
  have hindex' : packets.idxOf bytes' < packets.length := idxOf_lt_length_of_mem hbytes'
  have hbyte : UInt8.ofNat (packets.idxOf bytes) = UInt8.ofNat (packets.idxOf bytes') := by
    have hhead := congrArg (fun digest => digest.bytes.head?) hsame
    simpa [tableHash, Digest.filled, digestBytes, replicate_succ] using hhead
  have hnumber := congrArg UInt8.toNat hbyte
  rw [UInt8.toNat_ofNat_of_lt' (by unfold UInt8.size; omega),
    UInt8.toNat_ofNat_of_lt' (by unfold UInt8.size; omega)] at hnumber
  exact (idxOf_inj hbytes).1 hnumber

def tableText (number : UInt8) : String := hexText (Digest.filled number).bytes

def batchLeaf (number : UInt8) : BatchedEvidenceLeaf where
  leafId := "leaf"
  index := number.toNat
  nonce := "nonce"
  firstSequence := number.toNat
  lastSequence := number.toNat
  payloadDigest := "payload"
  semanticRoot := "semantic"
  previousExecutionRoot := "execution"
  observationDigest := "observation"
  outcome := "committed"
  digest := tableText number

def batch : List BatchedEvidenceLeaf := [batchLeaf 0, batchLeaf 1, batchLeaf 2]

def batchPackets : List Bytes :=
  [(batchLeaf 0).packet, (batchLeaf 1).packet, (batchLeaf 2).packet,
    nodePacket (tableText 0) (tableText 1), nodePacket (tableText 2) (tableText 2),
    nodePacket (tableText 3) (tableText 4)]

theorem batch_computed :
    (∀ leaf ∈ batch, leaf.digest = hexText (tableHash batchPackets leaf.packet).bytes) ∧
      joinPairs (node (tableHash batchPackets)) (batch.map BatchedEvidenceLeaf.digest) =
        [tableText 3, tableText 4] ∧
      joinPairs (node (tableHash batchPackets)) [tableText 3, tableText 4] = [tableText 5] := by
  decide +kernel

theorem batch_digested : ∀ leaf ∈ batch, leaf.Digested (tableHash batchPackets) := by
  intro leaf hleaf
  refine batchedEvidenceLeaf_eq_ok.2 ⟨?_, batch_computed.1 leaf hleaf⟩
  simp only [batch, mem_cons, not_mem_nil, or_false] at hleaf
  rcases hleaf with rfl | rfl | rfl <;>
    simp [BatchedEvidenceLeaf.fields, batchLeaf, Field.Canonical, prints_of_lt]

theorem batch_numbered : Numbered batch := by
  intro i leaf hleaf
  match i with
  | 0 | 1 | 2 =>
    obtain rfl := some.inj hleaf
    rfl
  | i + 3 => simp [batch] at hleaf

theorem batch_joined {pair : String × String}
    (h : Joined (node (tableHash batchPackets)) (batch.map BatchedEvidenceLeaf.digest) pair) :
    nodePacket pair.1 pair.2 ∈ batchPackets := by
  rcases h with ⟨_, hpair⟩ | ⟨_, habove⟩
  · simp only [batch, batchLeaf, map_cons, map_nil, neighbours, mem_cons,
      not_mem_nil, or_false] at hpair
    rcases hpair with rfl | rfl <;> simp [batchPackets]
  · rw [batch_computed.2.1] at habove
    rcases habove with ⟨_, hpair⟩ | ⟨hlevel, htop⟩
    · simp only [neighbours, mem_cons, not_mem_nil, or_false] at hpair
      subst hpair
      simp [batchPackets]
    · rw [batch_computed.2.2] at htop
      rcases htop with ⟨hone, _⟩ | ⟨hone, _⟩ <;> simp at hone

theorem batch_treePackets :
    treePackets (tableHash batchPackets) batch ⊆ {bytes | bytes ∈ batchPackets} := by
  rintro bytes (⟨leaf, hleaf, rfl⟩ | ⟨pair, hpair, rfl⟩)
  · simp only [batch, mem_cons, not_mem_nil, or_false] at hleaf
    rcases hleaf with rfl | rfl | rfl <;> simp [batchPackets]
  · exact batch_joined hpair

theorem batch_root : batchedMerkleRoot (tableHash batchPackets) batch = .ok (tableText 5) := by
  refine merkleRoot_eq_ok.2 (.next (by simp [batch]) ?_)
  rw [batch_computed.2.1]
  refine .next (by simp) ?_
  rw [batch_computed.2.2]
  exact .single _

def misnumberedProof : BatchedMerkleProof where
  leafIndex := 1
  leafCount := 7
  steps := [⟨"right", .field (.text (tableText 1))⟩, ⟨"right", .field (.text (tableText 4))⟩]
  rootDigest := tableText 5

def misdirectedProof : BatchedMerkleProof where
  leafIndex := 2
  leafCount := 3
  steps := [⟨"left", .field (.text (tableText 2))⟩, ⟨"left", .field (.text (tableText 3))⟩]
  rootDigest := tableText 5

def spelledPosition : List BatchedMerkleProofStep → ℕ
  | [] => 0
  | step :: steps => (if step.direction = "left" then 1 else 0) + 2 * spelledPosition steps

theorem batch_proofPackets (path : List (HashTree.Step String)) (hleaf : leaf ∈ batch)
    (hread : proof.steps.mapM BatchedMerkleProofStep.read = some path)
    (hpath : ∀ pair ∈ climbed (node (tableHash batchPackets)) leaf.digest path,
      nodePacket pair.1 pair.2 ∈ batchPackets) :
    treePackets (tableHash batchPackets) batch ∪ proofPackets (tableHash batchPackets) leaf proof ⊆
      {bytes | bytes ∈ batchPackets} := by
  rintro bytes (htree | hpacket | ⟨path', hread', pair, hpair, rfl⟩)
  · exact batch_treePackets htree
  · exact batch_treePackets (.inl ⟨leaf, hleaf, hpacket⟩)
  · obtain rfl : path = path' := some.inj (hread.symm.trans hread')
    exact hpath pair hpair

theorem batch_climbed : ((∀ pair ∈ climbed (node (tableHash batchPackets)) (batchLeaf 0).digest
          [⟨.right, tableText 1⟩, ⟨.right, tableText 4⟩],
        nodePacket pair.1 pair.2 ∈ batchPackets) ∧
      climb (node (tableHash batchPackets)) (batchLeaf 0).digest
          [⟨.right, tableText 1⟩, ⟨.right, tableText 4⟩] = tableText 5) ∧
    (∀ pair ∈ climbed (node (tableHash batchPackets)) (batchLeaf 2).digest
          [⟨.left, tableText 2⟩, ⟨.left, tableText 3⟩],
        nodePacket pair.1 pair.2 ∈ batchPackets) ∧
      climb (node (tableHash batchPackets)) (batchLeaf 2).digest
          [⟨.left, tableText 2⟩, ⟨.left, tableText 3⟩] = tableText 5 := by
  decide +kernel

theorem misnumbered_packets : treePackets (tableHash batchPackets) batch ∪
      proofPackets (tableHash batchPackets) (batchLeaf 0) misnumberedProof ⊆
    {bytes | bytes ∈ batchPackets} :=
  batch_proofPackets _ (by simp [batch]) rfl batch_climbed.1.1

theorem misdirected_packets : treePackets (tableHash batchPackets) batch ∪
      proofPackets (tableHash batchPackets) (batchLeaf 2) misdirectedProof ⊆
    {bytes | bytes ∈ batchPackets} :=
  batch_proofPackets _ (by simp [batch]) rfl batch_climbed.2.1

/-- Both proofs are accepted, without a collision. The first states an index and
a count that are not those of its leaf; the directions of the second spell a
position beyond the batch. -/
theorem batch_misplaced :
    (∀ leaf ∈ batch, leaf.Digested (tableHash batchPackets)) ∧ Numbered batch ∧
      batchedMerkleRoot (tableHash batchPackets) batch = .ok (tableText 5) ∧
      Set.InjOn (tableHash batchPackets) (treePackets (tableHash batchPackets) batch ∪
        proofPackets (tableHash batchPackets) (batchLeaf 0) misnumberedProof) ∧
      batchedMerkleProofVerify (tableHash batchPackets) (batchLeaf 0) misnumberedProof = .ok true ∧
      misnumberedProof.leafIndex ≠ (batchLeaf 0).index ∧
      misnumberedProof.leafCount ≠ batch.length ∧
      Set.InjOn (tableHash batchPackets) (treePackets (tableHash batchPackets) batch ∪
        proofPackets (tableHash batchPackets) (batchLeaf 2) misdirectedProof) ∧
      batchedMerkleProofVerify (tableHash batchPackets) (batchLeaf 2) misdirectedProof = .ok true ∧
      batch[spelledPosition misdirectedProof.steps]?.map BatchedEvidenceLeaf.index = none := by
  refine ⟨batch_digested, batch_numbered, batch_root,
    (tableHash_injOn (by decide)).mono misnumbered_packets,
    batchedMerkleProofVerify_eq_true.2 ⟨_, rfl, batch_climbed.1.2⟩, by decide, by decide,
    (tableHash_injOn (by decide)).mono misdirected_packets,
    batchedMerkleProofVerify_eq_true.2 ⟨_, rfl, batch_climbed.2.2⟩, by decide⟩

theorem batch_sound : batch = batch ∧
    ∃ (i : ℕ) (made : BatchedMerkleProof) (path madePath : List (HashTree.Step String)),
      batch[i]? = some (batchLeaf 2) ∧
      batchedMerkleProof (tableHash batchPackets) batch i = .ok made ∧
      misdirectedProof.steps.mapM BatchedMerkleProofStep.read = some path ∧
      made.steps.mapM BatchedMerkleProofStep.read = some madePath ∧
      Retraced batch.length i path madePath :=
  ⟨(batched_merkle_sound (tableHash batchPackets)).1 batch batch (by simp [batch])
      (by simp [batch]) batch_digested batch_digested batch_numbered batch_numbered
      ((tableHash_injOn (by decide)).mono (Set.union_subset batch_treePackets batch_treePackets))
      rfl,
    (batched_merkle_sound (tableHash batchPackets)).2 batch (batchLeaf 2) misdirectedProof
      batch_digested (batch_digested _ (by simp [batch]))
      ((tableHash_injOn (by decide)).mono misdirected_packets) batch_root
      (batchedMerkleProofVerify_eq_true.2 ⟨_, rfl, batch_climbed.2.2⟩)⟩

end PooFlow
