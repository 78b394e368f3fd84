import PooFlow.Journal.Evidence
import PooFlow.Runtime.Types

/-! `batched_evidence.py`, for any hash function with digests of 32 bytes. -/

namespace PooFlow

open Foundation List

/-- `str.encode`. -/
def encodeText (text : String) : Bytes := text.toUTF8.data.toList

/-- `bytes.hex`. -/
def hexText (bytes : Bytes) : String := String.ofList (Hex.encode bytes)

/-- `bytes.fromhex`, of a text without blanks. -/
def bytesFromHex (text : String) : Except Raised Bytes :=
  presentElse (Hex.decode text.toList) .other

@[simp] theorem bytesFromHex_hexText (bytes : Bytes) :
    bytesFromHex (hexText bytes) = .ok bytes := by
  have htext : (hexText bytes).toList = Hex.encode bytes := String.toList_ofList
  rw [bytesFromHex, htext, Hex.decode_encode]
  rfl

/-- A field of a leaf, as `_frame` accepts it. -/
inductive Field where
  | text (value : String)
  | int (value : ℤ)

/-- The digits that `str` writes of an integer, unless the interpreter is told
otherwise. -/
def maxStrDigits : ℕ := 4300

/-- `str` of the integer does not raise. -/
def Prints (value : ℤ) : Prop := value.natAbs < 10 ^ maxStrDigits

instance (value : ℤ) : Decidable (Prints value) := inferInstanceAs (Decidable (_ < _))

theorem Prints.mono {n m : ℤ} (h : Prints m) (hn : 0 ≤ n) (hle : n ≤ m) : Prints n := by
  rw [Prints] at h ⊢
  omega

theorem prints_of_lt {value : ℤ} (hpos : 0 ≤ value) (hlt : value < 2 ^ 64) : Prints value := by
  have hpow : 2 ^ 64 ≤ 10 ^ maxStrDigits :=
    calc 2 ^ 64 ≤ 10 ^ 20 := by norm_num
      _ ≤ 10 ^ maxStrDigits := Nat.pow_le_pow_right (by norm_num) (by decide)
  rw [Prints]
  omega

def frameText (text : String) : String := toString text.utf8ByteSize ++ ":" ++ text

def frame : Field → Except Raised String
  | .text value => .ok (frameText value)
  | .int value => do
    guardElse (0 ≤ value) .other
    guardElse (Prints value) .other
    return frameText (toString value)

def leafDomain : String := "poo-flow.batched-evidence-leaf.draft.1|"
def nodeDomain : String := "poo-flow.batched-merkle-node.draft.1|"

section

variable (sha256 : Bytes → Digest)

/-- `_digest`, of fields that are framed. -/
def digestText (domain : String) (frames : List String) : String :=
  hexText (sha256 (encodeText (domain ++ String.join frames))).bytes

structure BatchedEvidenceLeaf where
  leafId : String
  index : ℤ
  nonce : String
  firstSequence : ℤ
  lastSequence : ℤ
  payloadDigest : String
  semanticRoot : String
  previousExecutionRoot : String
  observationDigest : String
  outcome : String
  digest : String

def batchedEvidenceLeaf (leafId : String) (index : ℤ) (nonce : String)
    (firstSequence lastSequence : ℤ) (payloadDigest semanticRoot previousExecutionRoot
      observationDigest outcome : String) : Except Raised BatchedEvidenceLeaf := do
  let frames ← [Field.text leafId, .int index, .text nonce, .int firstSequence,
    .int lastSequence, .text payloadDigest, .text semanticRoot, .text previousExecutionRoot,
    .text observationDigest, .text outcome].mapM frame
  return {
    leafId, index, nonce, firstSequence, lastSequence, payloadDigest, semanticRoot
    previousExecutionRoot, observationDigest, outcome
    digest := digestText sha256 leafDomain frames }

def node (left right : String) : String :=
  digestText sha256 nodeDomain [frameText left, frameText right]

/-- `_next_level`: the last digest of an odd level is paired with itself. -/
def nextLevel : List String → List String
  | [] => []
  | [last] => [node sha256 last last]
  | left :: right :: rest => node sha256 left right :: nextLevel rest

theorem length_nextLevel_le (level : List String) :
    (nextLevel sha256 level).length ≤ level.length := by
  induction level using nextLevel.induct with
  | case1 => exact le_refl _
  | case2 last => exact le_refl _
  | case3 left right rest ih =>
    simp only [nextLevel, length_cons]
    omega

/-- `_root`. -/
def merkleRoot : List String → Except Raised String
  | [] => .error .other
  | [root] => .ok root
  | left :: right :: rest => merkleRoot (nextLevel sha256 (left :: right :: rest))
termination_by level => level.length
decreasing_by
  have hrest := length_nextLevel_le sha256 rest
  simp only [nextLevel, length_cons]
  omega

def batchedMerkleRootDigests (digests : List Bytes) : Except Raised Bytes := do
  guardElse (∀ digest ∈ digests, digest.length = 32) .other
  let root ← merkleRoot sha256 (digests.map hexText)
  bytesFromHex root

def SpellsDigest (text : String) : Prop := ∃ digest : Digest, text = hexText digest.bytes

theorem spellsDigest_nextLevel (level : List String) :
    ∀ text ∈ nextLevel sha256 level, SpellsDigest text := by
  induction level using nextLevel.induct with
  | case1 => simp [nextLevel]
  | case2 last =>
    intro text htext
    exact ⟨_, mem_singleton.1 htext⟩
  | case3 left right rest ih =>
    intro text htext
    rcases mem_cons.1 htext with rfl | hrest
    · exact ⟨_, rfl⟩
    · exact ih text hrest

theorem merkleRoot_spellsDigest {level : List String} (hlevel : level ≠ [])
    (hspells : ∀ text ∈ level, SpellsDigest text) :
    ∃ digest : Digest, merkleRoot sha256 level = .ok (hexText digest.bytes) := by
  induction level using merkleRoot.induct sha256 with
  | case1 => exact absurd rfl hlevel
  | case2 root =>
    obtain ⟨digest, rfl⟩ := hspells root mem_cons_self
    exact ⟨digest, by rw [merkleRoot]⟩
  | case3 left right rest ih =>
    rw [merkleRoot]
    exact ih (by simp [nextLevel]) (spellsDigest_nextLevel sha256 _)

/-- **A root of leaf digests is a digest.** -/
theorem batchedMerkleRootDigests_ok {digests : List Bytes} (hdigests : digests ≠ [])
    (hlength : ∀ digest ∈ digests, digest.length = 32) :
    ∃ root : Digest, batchedMerkleRootDigests sha256 digests = .ok root.bytes := by
  have hspells : ∀ text ∈ digests.map hexText, SpellsDigest text := by
    intro text htext
    obtain ⟨bytes, hbytes, rfl⟩ := mem_map.1 htext
    exact ⟨⟨bytes, hlength bytes hbytes⟩, rfl⟩
  obtain ⟨root, hroot⟩ := merkleRoot_spellsDigest sha256
    (fun hnil => hdigests (map_eq_nil_iff.1 hnil)) hspells
  refine ⟨root, ?_⟩
  rw [batchedMerkleRootDigests, bind_eq_ok]
  refine ⟨(), guardElse_eq_ok.2 hlength, ?_⟩
  rw [hroot]
  exact bytesFromHex_hexText _

end

end PooFlow
