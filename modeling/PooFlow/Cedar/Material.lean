import PooFlow.Cedar.Canonical
import PooFlow.Foundation.JsonOrder

namespace PooFlow.Cedar

open Foundation List JsonTree
open Except (ok.inj)

/-- `Value`, without floating-point numbers. -/
structure Value where
  tree : JsonTree
  distinct : tree.Distinct
  sized : Sized tree

/-- `&str`. -/
structure Domain where
  text : String
  sized : text.utf8ByteSize < 2 ^ 64

variable {fields : List (String × JsonTree)} {outs : List (String × List UInt8)}

theorem encodeFields_insertField {key : String} {value : JsonTree} {out : List UInt8}
    (hvalue : encode value = .ok out) (hfields : encodeFields fields = .ok outs) :
    encodeFields (insertField key value fields) = .ok (insertField key out outs) := by
  induction fields generalizing outs with
  | nil =>
    obtain rfl : [] = outs := ok.inj hfields
    rw [insertField, encodeFields, hvalue]
    rfl
  | cons first fields ih =>
    have hall := hfields
    rw [encodeFields] at hfields
    obtain ⟨head, hhead, hfields⟩ := bind_eq_ok.1 hfields
    obtain ⟨tail, htail, hfields⟩ := bind_eq_ok.1 hfields
    obtain rfl := ok.inj hfields
    rw [insertField_cons, insertField_cons]
    split_ifs
    · rw [encodeFields, hvalue, hall]
      rfl
    · rw [encodeFields, hhead, ih htail]
      rfl
    · rw [encodeFields, hvalue, htail]
      rfl

theorem encodeFields_sortFields (h : encodeFields fields = .ok outs) :
    encodeFields (sortFields fields) = .ok (sortFields outs) := by
  induction fields generalizing outs with
  | nil =>
    obtain rfl : [] = outs := ok.inj h
    rfl
  | cons first fields ih =>
    rw [encodeFields] at h
    obtain ⟨head, hhead, h⟩ := bind_eq_ok.1 h
    obtain ⟨tail, htail, h⟩ := bind_eq_ok.1 h
    obtain rfl := ok.inj h
    exact encodeFields_insertField hhead (ih htail)

mutual

/-- **The order of members does not matter.** -/
theorem encode_sorted : ∀ {value : JsonTree}, value.Distinct → ∀ {out : List UInt8},
    encode value = .ok out → encode value.sorted = .ok out
  | .null, _, _, h | .bool _, _, _, h | .number _, _, _, h | .string _, _, _, h => h
  | .array items, hvalue, out, h => by
    rw [encode] at h
    obtain ⟨front, hfront, h⟩ := bind_eq_ok.1 h
    obtain ⟨count, hcount, h⟩ := bind_eq_ok.1 h
    obtain ⟨outs, houts, h⟩ := bind_eq_ok.1 h
    rw [sorted, encode, length_sortedItems, hfront, hcount, encodeItems_sortedItems hvalue houts]
    exact h
  | .object fields, hvalue, out, h => by
    rw [JsonTree.Distinct] at hvalue
    rw [encode] at h
    obtain ⟨outs, houts, h⟩ := bind_eq_ok.1 h
    have hfields := encodeFields_sortFields (encodeFields_sortedFields hvalue.2 houts)
    have hlength : (sortFields (sortedFields fields)).length = fields.length := by
      rw [(perm_sortFields (by rw [keys_sortedFields]; exact hvalue.1)).length_eq,
        ← length_map Prod.fst, keys_sortedFields, length_map]
    rw [sorted, ofFields, encode, hfields, hlength, ok_bind,
      sortFields_of_sorted (fieldsSorted_sortFields outs)]
    exact h

theorem encodeItems_sortedItems : ∀ {items : List JsonTree}, JsonTree.DistinctItems items →
    ∀ {outs : List (List UInt8)}, encodeItems items = .ok outs →
      encodeItems (sortedItems items) = .ok outs
  | [], _, _, h => h
  | item :: items, hitems, outs, h => by
    rw [JsonTree.DistinctItems] at hitems
    rw [encodeItems] at h
    obtain ⟨first, hfirst, h⟩ := bind_eq_ok.1 h
    obtain ⟨rest, hrest, h⟩ := bind_eq_ok.1 h
    rw [sortedItems, encodeItems, encode_sorted hitems.1 hfirst,
      encodeItems_sortedItems hitems.2 hrest]
    exact h

theorem encodeFields_sortedFields : ∀ {fields : List (String × JsonTree)},
    JsonTree.DistinctFields fields → ∀ {outs : List (String × List UInt8)},
      encodeFields fields = .ok outs → encodeFields (sortedFields fields) = .ok outs
  | [], _, _, h => h
  | (key, value) :: fields, hfields, outs, h => by
    rw [JsonTree.DistinctFields] at hfields
    rw [encodeFields] at h
    obtain ⟨first, hfirst, h⟩ := bind_eq_ok.1 h
    obtain ⟨rest, hrest, h⟩ := bind_eq_ok.1 h
    rw [sortedFields, encodeFields, encode_sorted hfields.1 hfirst,
      encodeFields_sortedFields hfields.2 hrest]
    exact h

end

theorem Value.encode_eq (value : Value) :
    ∃ out, encode value.tree = .ok out ∧ encode value.tree.sorted = .ok out := by
  obtain ⟨out, hout⟩ := encode_of_sized value.sized
  exact ⟨out, hout, encode_sorted value.distinct hout⟩

theorem material_congr {domain : String} {value value' : JsonTree} (h : encode value = encode value') :
    material domain value = material domain value' := by
  rw [material, material, h]

theorem material_eq_iff {domain domain' : Domain} {value value' : Value} :
    material domain.text value.tree = material domain'.text value'.tree ↔
      domain.text = domain'.text ∧ value.tree.sorted = value'.tree.sorted := by
  obtain ⟨out, hencode, hsorted⟩ := value.encode_eq
  obtain ⟨out', hencode', hsorted'⟩ := value'.encode_eq
  rw [material_congr (hencode.trans hsorted.symm), material_congr (hencode'.trans hsorted'.symm)]
  constructor
  · intro h
    obtain ⟨bytes, hbytes⟩ := material_of_sized domain.sized value.sized
    rw [material_congr (hencode.trans hsorted.symm)] at hbytes
    exact material_inj (canonical_sorted _) (canonical_sorted _) hbytes
      (h ▸ hbytes)
  · rintro ⟨hdomain, hvalue⟩
    rw [hdomain, hvalue]

/-- **No encoding is a proper prefix of another.** -/
theorem encode_prefix {value value' : Value} {out out' : List UInt8}
    (h : encode value.tree = .ok out) (h' : encode value'.tree = .ok out') (hfront : out <+: out') :
    out = out' := by
  obtain ⟨rest, rfl⟩ := hfront
  have hrest := (encode_append_inj (canonical_sorted _) (canonical_sorted _)
    (encode_sorted value.distinct h) (encode_sorted value'.distinct h')
    (show out ++ rest = (out ++ rest) ++ [] from (append_nil _).symm)).2
  rw [hrest, append_nil]

/-- **Material is injective** up to the order of members, and encodings are prefix free. -/
theorem material_exact (domain domain' : Domain) (value value' : Value) :
    (∃ bytes, material domain.text value.tree = .ok bytes) ∧
      (material domain.text value.tree = material domain'.text value'.tree ↔
        domain.text = domain'.text ∧ value.tree.sorted = value'.tree.sorted) ∧
      ∀ out out', encode value.tree = .ok out → encode value'.tree = .ok out' →
        out <+: out' → out = out' :=
  ⟨material_of_sized domain.sized value.sized, material_eq_iff, fun _ _ => encode_prefix⟩

end PooFlow.Cedar
