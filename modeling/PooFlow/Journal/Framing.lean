import Mathlib.Data.List.TakeWhile
import Mathlib.Data.String.Basic
import PooFlow.Foundation.HashTree
import PooFlow.Journal.Merkle

namespace PooFlow

open Foundation List

theorem encodeText_inj {a b : String} (h : encodeText a = encodeText b) : a = b :=
  String.toByteArray_inj.1 (ByteArray.ext (Array.toList_inj.1 h))

@[simp] theorem encodeText_append (a b : String) :
    encodeText (a ++ b) = encodeText a ++ encodeText b := by
  simp [encodeText]

theorem repr_injective {n m : ℕ} (h : n.repr = m.repr) : n = m := by
  rw [Nat.repr_eq_ofList_toDigits, Nat.repr_eq_ofList_toDigits] at h
  have hdigits : Nat.toDigits 10 n = Nat.toDigits 10 m := by
    simpa only [String.toList_ofList] using congrArg String.toList h
  have hvalue := congrArg (fun digits => Nat.ofDigitChars 10 digits 0) hdigits
  simpa only [Nat.ofDigitChars_toDigits (b := 10) (by decide) (by decide)] using hvalue

theorem takeWhile_frameText (text rest : String) :
    (frameText text ++ rest).toList.takeWhile Char.isDigit =
        Nat.toDigits 10 text.utf8ByteSize ∧
      (frameText text ++ rest).toList.dropWhile Char.isDigit =
        ':' :: (text ++ rest).toList := by
  have hlist : (frameText text ++ rest).toList =
      Nat.toDigits 10 text.utf8ByteSize ++ ':' :: (text ++ rest).toList := by
    rw [frameText, show (toString text.utf8ByteSize : String) = text.utf8ByteSize.repr from rfl,
      Nat.repr_eq_ofList_toDigits]
    simp [String.toList_append]
  have hdigits : ∀ c ∈ Nat.toDigits 10 text.utf8ByteSize, c.isDigit = true := fun c hc =>
    Nat.isDigit_of_mem_toDigits (by decide) (by decide) hc
  rw [hlist, takeWhile_append_of_pos hdigits, dropWhile_append_of_pos hdigits]
  simp [Char.isDigit]

/-- **Frames are self-delimiting.** -/
theorem frameText_append_inj {a b rest rest' : String}
    (h : frameText a ++ rest = frameText b ++ rest') : a = b ∧ rest = rest' := by
  obtain ⟨hdigits, htail⟩ := takeWhile_frameText a rest
  obtain ⟨hdigits', htail'⟩ := takeWhile_frameText b rest'
  rw [h, hdigits'] at hdigits
  rw [h, htail'] at htail
  have hsize : a.utf8ByteSize = b.utf8ByteSize := by
    apply repr_injective
    rw [Nat.repr_eq_ofList_toDigits, Nat.repr_eq_ofList_toDigits, hdigits]
  have htext : a ++ rest = b ++ rest' := String.toList_inj.1 (List.cons.inj htail).2.symm
  have hbytes : encodeText a ++ encodeText rest = encodeText b ++ encodeText rest' := by
    rw [← encodeText_append, ← encodeText_append, htext]
  obtain ⟨ha, hrest⟩ := append_inj hbytes hsize
  exact ⟨encodeText_inj ha, encodeText_inj hrest⟩

theorem join_frameText_inj {texts texts' : List String} (hlength : texts.length = texts'.length)
    (h : String.join (texts.map frameText) = String.join (texts'.map frameText)) :
    texts = texts' := by
  induction texts generalizing texts' with
  | nil => exact (length_eq_zero_iff.1 hlength.symm).symm
  | cons text texts ih =>
    cases texts' with
    | nil => simp at hlength
    | cons text' texts' =>
      simp only [map_cons, String.join_cons] at h
      obtain ⟨rfl, hrest⟩ := frameText_append_inj h
      rw [ih (Nat.succ.inj hlength) hrest]

theorem hexText_inj {bytes bytes' : Bytes} (h : hexText bytes = hexText bytes') :
    bytes = bytes' := by
  have hread := congrArg bytesFromHex h
  simpa only [bytesFromHex_hexText, Except.ok.injEq] using hread

theorem hexText_digest_inj {digest digest' : Digest}
    (h : hexText digest.bytes = hexText digest'.bytes) : digest = digest' := by
  cases digest
  cases digest'
  simpa using hexText_inj h

/-- `str` of a field. -/
def Field.written : Field → String
  | .text value => value
  | .int value => toString value

def Field.Canonical : Field → Prop
  | .text _ => True
  | .int value => 0 ≤ value ∧ Prints value

theorem frame_eq_ok {field : Field} {text : String} :
    frame field = .ok text ↔ field.Canonical ∧ text = frameText field.written := by
  cases field with
  | text value => simp [frame, Field.Canonical, Field.written, eq_comm]
  | int value =>
    simp only [frame, bind_eq_ok, guardElse_eq_ok, exists_const, Field.Canonical, Field.written]
    rw [and_assoc]
    exact and_congr_right fun _ => and_congr_right fun _ =>
      ⟨fun h => (Except.ok.inj h).symm, fun h => by rw [h]; rfl⟩

theorem mapM_frame_eq_ok {fields : List Field} {frames : List String} :
    fields.mapM frame = .ok frames ↔
      (∀ field ∈ fields, field.Canonical) ∧ frames = (fields.map Field.written).map frameText := by
  induction fields generalizing frames with
  | nil => simp [pure, Except.pure, eq_comm]
  | cons field fields ih =>
    simp only [mapM_cons, bind_eq_ok, frame_eq_ok, ih, forall_mem_cons, map_cons]
    constructor
    · rintro ⟨_, ⟨hfield, rfl⟩, _, ⟨hfields, rfl⟩, hframes⟩
      exact ⟨⟨hfield, hfields⟩, (Except.ok.inj hframes).symm⟩
    · rintro ⟨⟨hfield, hfields⟩, rfl⟩
      exact ⟨_, ⟨hfield, rfl⟩, _, ⟨hfields, rfl⟩, rfl⟩

theorem int_written_inj {n m : ℤ} (hn : 0 ≤ n) (hm : 0 ≤ m)
    (h : (Field.int n).written = (Field.int m).written) : n = m := by
  obtain ⟨n, rfl⟩ := Int.eq_ofNat_of_zero_le hn
  obtain ⟨m, rfl⟩ := Int.eq_ofNat_of_zero_le hm
  exact congrArg _ (repr_injective h)

def BatchedEvidenceLeaf.fields (leaf : BatchedEvidenceLeaf) : List Field :=
  [.text leaf.leafId, .int leaf.index, .text leaf.nonce, .int leaf.firstSequence,
    .int leaf.lastSequence, .text leaf.payloadDigest, .text leaf.semanticRoot,
    .text leaf.previousExecutionRoot, .text leaf.observationDigest, .text leaf.outcome]

def BatchedEvidenceLeaf.packet (leaf : BatchedEvidenceLeaf) : Bytes :=
  encodeText (leafDomain ++ String.join ((leaf.fields.map Field.written).map frameText))

def nodePacket (left right : String) : Bytes :=
  encodeText (nodeDomain ++ String.join ([left, right].map frameText))

theorem nodePacket_inj {left right left' right' : String}
    (h : nodePacket left right = nodePacket left' right') : left = left' ∧ right = right' := by
  have htext : [left, right] = [left', right'] :=
    join_frameText_inj rfl (String.append_right_inj _ |>.mp (encodeText_inj h))
  simpa using htext

theorem packet_ne_nodePacket (leaf : BatchedEvidenceLeaf) (left right : String) :
    leaf.packet ≠ nodePacket left right := by
  intro h
  have hdomain := congrArg (fun text => text.toList[17]?) (encodeText_inj h)
  simp [leafDomain, nodeDomain] at hdomain

section

variable (sha256 : Bytes → Digest)

/-- `batched_evidence_leaf` built the leaf from its fields. -/
def BatchedEvidenceLeaf.Digested (leaf : BatchedEvidenceLeaf) : Prop :=
  batchedEvidenceLeaf sha256 leaf.leafId leaf.index leaf.nonce leaf.firstSequence
    leaf.lastSequence leaf.payloadDigest leaf.semanticRoot leaf.previousExecutionRoot
    leaf.observationDigest leaf.outcome = .ok leaf

variable {sha256} {leaf : BatchedEvidenceLeaf}

theorem batchedEvidenceLeaf_eq_ok : leaf.Digested sha256 ↔
      (∀ field ∈ leaf.fields, field.Canonical) ∧ leaf.digest = hexText (sha256 leaf.packet).bytes := by
  rw [BatchedEvidenceLeaf.Digested, batchedEvidenceLeaf]
  simp only [bind_eq_ok]
  constructor
  · rintro ⟨frames, hframes, hleaf⟩
    obtain ⟨hcanonical, rfl⟩ := mapM_frame_eq_ok.1 hframes
    exact ⟨hcanonical, congrArg BatchedEvidenceLeaf.digest (Except.ok.inj hleaf).symm⟩
  · rintro ⟨hcanonical, hdigest⟩
    refine ⟨_, mapM_frame_eq_ok.2 ⟨hcanonical, rfl⟩, ?_⟩
    exact congrArg Except.ok (by cases leaf; exact congrArg _ hdigest.symm)

theorem BatchedEvidenceLeaf.Digested.digest_eq
    (h : leaf.Digested sha256) : leaf.digest = hexText (sha256 leaf.packet).bytes :=
  (batchedEvidenceLeaf_eq_ok.1 h).2

/-- **A leaf is determined by its packet.** -/
theorem BatchedEvidenceLeaf.Digested.packet_inj {leaf' : BatchedEvidenceLeaf}
    (h : leaf.Digested sha256) (h' : leaf'.Digested sha256) (hpacket : leaf.packet = leaf'.packet) :
    leaf = leaf' := by
  have hwritten : leaf.fields.map Field.written = leaf'.fields.map Field.written :=
    join_frameText_inj rfl (String.append_right_inj _ |>.mp (encodeText_inj hpacket))
  have hdigest : leaf.digest = leaf'.digest := by rw [h.digest_eq, h'.digest_eq, hpacket]
  have hcanonical := (batchedEvidenceLeaf_eq_ok.1 h).1
  have hcanonical' := (batchedEvidenceLeaf_eq_ok.1 h').1
  cases leaf
  cases leaf'
  simp only [fields, map_cons, map_nil, List.cons.injEq, forall_mem_cons,
    Field.Canonical] at hwritten hcanonical hcanonical'
  obtain ⟨hid, hindex, hnonce, hfirst, hlast, hpayload, hroot, hprevious, hobservation, houtcome,
    -⟩ := hwritten
  obtain rfl := int_written_inj hcanonical.2.1.1 hcanonical'.2.1.1 hindex
  obtain rfl := int_written_inj hcanonical.2.2.2.1.1 hcanonical'.2.2.2.1.1 hfirst
  obtain rfl := int_written_inj hcanonical.2.2.2.2.1.1 hcanonical'.2.2.2.2.1.1 hlast
  simp only [Field.written] at hid hnonce hpayload hroot hprevious hobservation houtcome
  subst hid hnonce hpayload hroot hprevious hobservation houtcome hdigest
  rfl

end

end PooFlow
