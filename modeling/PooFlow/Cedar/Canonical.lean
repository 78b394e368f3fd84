import PooFlow.Foundation.Endian
import PooFlow.Foundation.Guard
import PooFlow.Foundation.Hex
import PooFlow.Foundation.JsonTree

/-! `canonical.rs`: restricted deterministic CBOR of JSON values, and digests of it. `sha256` is any
hash. -/

namespace PooFlow.Cedar

open Foundation List
open Except (ok.inj)

/-- `Error`: a code, and the detail for a reader. -/
structure Error where
  code : String
  detail : String
deriving DecidableEq

namespace Error

/-- The `Display` of an error. -/
def toText (error : Error) : String := error.code ++ ": " ++ error.detail

end Error

def maxProjectionBytes : ℕ := 1024 * 1024

/-- `as_bytes`: the UTF-8 of a text. -/
def asBytes (text : String) : List UInt8 := text.toUTF8.data.toList

theorem asBytes_inj {text text' : String} (h : asBytes text = asBytes text') : text = text' :=
  String.toByteArray_inj.1 (ByteArray.ext (Array.toList_inj.1 h))

def initial (major low : ℕ) : UInt8 := UInt8.ofNat (32 * major + low)

/-- `head`. A length of `2 ^ 64` or more, which no memory holds, is an error. -/
def head (major n : ℕ) : Except Error (List UInt8) :=
  if n ≤ 23 then .ok [initial major n]
  else if n ≤ 0xff then .ok (initial major 24 :: bigEndian 1 n)
  else if n ≤ 0xffff then .ok (initial major 25 :: bigEndian 2 n)
  else if n ≤ 0xffffffff then .ok (initial major 26 :: bigEndian 4 n)
  else if n < 2 ^ 64 then .ok (initial major 27 :: bigEndian 8 n)
  else .error ⟨"projection-too-large", "length is not u64"⟩

def bytes (value : List UInt8) : Except Error (List UInt8) := do
  return (← head 2 value.length) ++ value

def tagged (size tag : ℕ) : Except Error (List UInt8) := do
  return (← head 4 size) ++ (← head 0 tag)

def encodeNumber : ℤ → Except Error (List UInt8)
  | .ofNat value => do
    if value < 2 ^ 64 then return (← head 0 0) ++ (← head 0 value)
    else .error ⟨"noncanonical-number", "floating point is not admitted"⟩
  | .negSucc value => do
    if value < 2 ^ 63 then return (← head 0 1) ++ (← head 0 (value + 1))
    else .error ⟨"noncanonical-number", "floating point is not admitted"⟩

def encodeField (field : String × List UInt8) : Except Error (List UInt8) := do
  return (← head 4 2) ++ (← bytes (asBytes field.1)) ++ field.2

mutual

def encode : JsonTree → Except Error (List UInt8)
  | .null => tagged 1 0
  | .bool value => do return (← tagged 2 1) ++ (← head 0 value.toNat)
  | .number value => do return (← tagged 3 2) ++ (← encodeNumber value)
  | .string value => do return (← tagged 2 3) ++ (← bytes (asBytes value))
  | .array items => do
    return (← tagged 2 4) ++ (← head 4 items.length) ++ (← encodeItems items).flatten
  | .object fields => do
    -- keys are compared by their bytes, which is the order of texts
    let sorted := sortFields (← encodeFields fields)
    return (← tagged 2 5) ++ (← head 4 fields.length) ++ (← sorted.mapM encodeField).flatten

def encodeItems : List JsonTree → Except Error (List (List UInt8))
  | [] => .ok []
  | item :: items => do return (← encode item) :: (← encodeItems items)

def encodeFields : List (String × JsonTree) → Except Error (List (String × List UInt8))
  | [] => .ok []
  | (key, value) :: fields => do return (key, ← encode value) :: (← encodeFields fields)

end

def material (domain : String) (value : JsonTree) : Except Error (List UInt8) := do
  return (← head 4 3) ++ (← bytes (asBytes domain)) ++ (← head 0 1) ++ (← encode value)

section

variable (sha256 : List UInt8 → List UInt8)

def rawDigest (bytes : List UInt8) : String :=
  "sha256:" ++ String.ofList (Hex.encode (sha256 bytes))

def digest (domain : String) (value : JsonTree) : Except Error String := do
  return rawDigest sha256 (← material domain value)

end

def checkDigest (value : String) : Except Error Unit :=
  let encoded := if "sha256:".toList <+: value.toList then value.toList.drop 7 else []
  guardElse (encoded.length = 64 ∧
      encoded.all fun c => ('0' ≤ c ∧ c ≤ '9') ∨ ('a' ≤ c ∧ c ≤ 'f'))
    ⟨"digest-invalid", "expected canonical lowercase SHA-256 identity"⟩

variable {major n : ℕ} {out out' rest rest' : List UInt8}

theorem initial_inj {low low' : ℕ} (hlow : low < 32) (hlow' : low' < 32)
    (h : initial major low = initial major low') : low = low' := by
  have := congrArg UInt8.toNat h
  rw [initial, initial, UInt8.toNat_ofNat', UInt8.toNat_ofNat'] at this
  omega


def headLow (n : ℕ) : ℕ :=
  if n ≤ 23 then n else if n ≤ 0xff then 24 else if n ≤ 0xffff then 25
  else if n ≤ 0xffffffff then 26 else 27

def headCount (n : ℕ) : ℕ :=
  if n ≤ 23 then 0 else if n ≤ 0xff then 1 else if n ≤ 0xffff then 2
  else if n ≤ 0xffffffff then 4 else 8

theorem head_eq (h : head major n = .ok out) :
    n < 2 ^ 64 ∧ out = initial major (headLow n) :: bigEndian (headCount n) n := by
  unfold head at h
  unfold headLow headCount
  split_ifs at h ⊢ <;> exact ⟨by omega, (ok.inj h).symm⟩

theorem headLow_lt (n : ℕ) : headLow n < 32 := by
  unfold headLow
  split_ifs <;> omega

theorem headCount_of_low {n' : ℕ} (h : headLow n = headLow n') :
    n = n' ∨ headCount n = headCount n' ∧ 23 < n ∧ 23 < n' := by
  unfold headLow at h
  unfold headCount
  split_ifs at h ⊢ <;> omega

theorem lt_of_headCount (hlow : 23 < n) (h : n < 2 ^ 64) : n < 256 ^ headCount n := by
  unfold headCount
  split_ifs <;> omega

/-- **Heads are self-delimiting.** -/
theorem head_append_inj {n' : ℕ} (hout : head major n = .ok out) (hout' : head major n' = .ok out')
    (h : out ++ rest = out' ++ rest') : n = n' ∧ rest = rest' := by
  obtain ⟨hn, rfl⟩ := head_eq hout
  obtain ⟨hn', rfl⟩ := head_eq hout'
  obtain ⟨hfirst, hrest⟩ := List.cons.inj h
  have hlow := initial_inj (headLow_lt n) (headLow_lt n') hfirst
  rcases headCount_of_low hlow with rfl | ⟨hcount, hlt, hlt'⟩
  · exact ⟨rfl, append_cancel_left hrest⟩
  · have hfit' := lt_of_headCount hlt' hn'
    rw [← hcount] at hrest hfit'
    exact bigEndian_append_inj (lt_of_headCount hlt hn) hfit' hrest

/-- Two items of one major type start alike only if their arguments are the same. -/
theorem bytes_append_inj {value value' : List UInt8} (hout : bytes value = .ok out)
    (hout' : bytes value' = .ok out') (h : out ++ rest = out' ++ rest') :
    value = value' ∧ rest = rest' := by
  obtain ⟨front, hfront, hout⟩ := bind_eq_ok.1 hout
  obtain ⟨front', hfront', hout'⟩ := bind_eq_ok.1 hout'
  obtain rfl := ok.inj hout
  obtain rfl := ok.inj hout'
  rw [append_assoc, append_assoc] at h
  obtain ⟨hlength, h⟩ := head_append_inj hfront hfront' h
  exact append_inj h hlength

def tag : JsonTree → ℕ
  | .null => 0
  | .bool _ => 1
  | .number _ => 2
  | .string _ => 3
  | .array _ => 4
  | .object _ => 5

theorem tag_lt (value : JsonTree) : tag value < 32 := by
  cases value <;> simp [tag]

/-- What follows the tag of a value. -/
def Payload : JsonTree → List UInt8 → Prop
  | .null, out => out = []
  | .bool value, out => head 0 value.toNat = .ok out
  | .number value, out => encodeNumber value = .ok out
  | .string value, out => bytes (asBytes value) = .ok out
  | .array items, out => ∃ length items', head 4 items.length = .ok length ∧
      encodeItems items = .ok items' ∧ out = length ++ items'.flatten
  | .object fields, out => ∃ length fields' fields'', head 4 fields.length = .ok length ∧
      encodeFields fields = .ok fields' ∧
      (sortFields fields').mapM encodeField = .ok fields'' ∧
      out = length ++ fields''.flatten

theorem tagged_eq {size : ℕ} (hsize : size ≤ 23) (hn : n ≤ 23) (h : tagged size n = .ok out) :
    out = [initial 4 size, initial 0 n] := by
  rw [tagged, head, if_pos hsize, ok_bind, head, if_pos hn, ok_bind] at h
  exact (ok.inj h).symm

variable {value : JsonTree}

theorem encode_eq (h : encode value = .ok out) :
    ∃ size payload, out = initial 4 size :: initial 0 (tag value) :: payload ∧
      Payload value payload := by
  cases value with
  | null =>
    rw [encode] at h
    exact ⟨1, [], tagged_eq (by decide) (by decide) h, rfl⟩
  | bool _ | number _ | string _ =>
    rw [encode] at h
    obtain ⟨front, hfront, h⟩ := bind_eq_ok.1 h
    obtain rfl := tagged_eq (by decide) (by decide) hfront
    obtain ⟨payload, hpayload, h⟩ := bind_eq_ok.1 h
    exact ⟨_, payload, (ok.inj h).symm, hpayload⟩
  | array items =>
    rw [encode] at h
    obtain ⟨front, hfront, h⟩ := bind_eq_ok.1 h
    obtain rfl := tagged_eq (by decide) (by decide) hfront
    obtain ⟨length, hlength, h⟩ := bind_eq_ok.1 h
    obtain ⟨items', hitems, h⟩ := bind_eq_ok.1 h
    exact ⟨2, _, (ok.inj h).symm, length, items', hlength, hitems, rfl⟩
  | object fields =>
    rw [encode] at h
    obtain ⟨fields', hfields, h⟩ := bind_eq_ok.1 h
    obtain ⟨front, hfront, h⟩ := bind_eq_ok.1 h
    obtain rfl := tagged_eq (by decide) (by decide) hfront
    obtain ⟨length, hlength, h⟩ := bind_eq_ok.1 h
    obtain ⟨fields'', hsorted, h⟩ := bind_eq_ok.1 h
    exact ⟨2, _, (ok.inj h).symm, length, fields', fields'', hlength, hfields, hsorted, rfl⟩

theorem encodeNumber_append_inj {value value' : ℤ} (hout : encodeNumber value = .ok out)
    (hout' : encodeNumber value' = .ok out') (h : out ++ rest = out' ++ rest') :
    value = value' ∧ rest = rest' := by
  have hsplit : ∀ {value : ℤ} {out : List UInt8}, encodeNumber value = .ok out →
      ∃ sign magnitude, out = initial 0 sign :: magnitude ∧ head 0 value.natAbs = .ok magnitude ∧
        (sign = 0 ∧ 0 ≤ value ∨ sign = 1 ∧ value < 0) := by
    intro value out hout
    cases value with
    | ofNat value =>
      rw [encodeNumber] at hout
      split_ifs at hout
      obtain ⟨sign, hsign, hout⟩ := bind_eq_ok.1 hout
      obtain rfl := ok.inj hsign
      obtain ⟨magnitude, hmagnitude, hout⟩ := bind_eq_ok.1 hout
      exact ⟨0, magnitude, (ok.inj hout).symm, hmagnitude,
        .inl ⟨rfl, Int.natCast_nonneg value⟩⟩
    | negSucc value =>
      rw [encodeNumber] at hout
      split_ifs at hout
      obtain ⟨sign, hsign, hout⟩ := bind_eq_ok.1 hout
      obtain rfl := ok.inj hsign
      obtain ⟨magnitude, hmagnitude, hout⟩ := bind_eq_ok.1 hout
      exact ⟨1, magnitude, (ok.inj hout).symm, hmagnitude,
        .inr ⟨rfl, Int.negSucc_lt_zero value⟩⟩
  obtain ⟨sign, magnitude, rfl, hmagnitude, hsign⟩ := hsplit hout
  obtain ⟨sign', magnitude', rfl, hmagnitude', hsign'⟩ := hsplit hout'
  obtain ⟨hfirst, h⟩ := List.cons.inj h
  have hsame : sign = sign' := initial_inj (by omega) (by omega) hfirst
  obtain ⟨habs, hrest⟩ := head_append_inj hmagnitude hmagnitude' h
  exact ⟨by omega, hrest⟩

variable {fields : List (String × JsonTree)}

theorem encodeFields_keys {out : List (String × List UInt8)}
    (h : encodeFields fields = .ok out) : out.map Prod.fst = fields.map Prod.fst := by
  induction fields generalizing out with
  | nil =>
    obtain rfl : [] = out := ok.inj h
    rfl
  | cons field fields ih =>
    rw [encodeFields] at h
    obtain ⟨value, -, h⟩ := bind_eq_ok.1 h
    obtain ⟨rest, hrest, h⟩ := bind_eq_ok.1 h
    obtain rfl := ok.inj h
    simp [ih hrest]

theorem encodeField_eq {field : String × List UInt8} (h : encodeField field = .ok out) :
    ∃ front key, head 4 2 = .ok front ∧
      bytes (asBytes field.1) = .ok key ∧ out = front ++ (key ++ field.2) := by
  obtain ⟨front, hfront, h⟩ := bind_eq_ok.1 h
  obtain ⟨key, hkey, h⟩ := bind_eq_ok.1 h
  exact ⟨front, key, hfront, hkey, by rw [← ok.inj h, append_assoc]⟩

/-- The members of a canonical object are already in order. -/
theorem sortFields_encodeFields {out : List (String × List UInt8)} (hsorted : FieldsSorted fields)
    (h : encodeFields fields = .ok out) : sortFields out = out := by
  rw [FieldsSorted, ← encodeFields_keys h] at hsorted
  exact sortFields_of_sorted hsorted

mutual

/-- **Encoded values are self-delimiting.** -/
theorem encode_append_inj : ∀ {value value' : JsonTree}, value.Canonical → value'.Canonical →
    ∀ {out out' rest rest' : List UInt8}, encode value = .ok out → encode value' = .ok out' →
    out ++ rest = out' ++ rest' → value = value' ∧ rest = rest' := by
  intro value value' hcanonical hcanonical' out out' rest rest' hout hout' h
  obtain ⟨size, payload, rfl, hpayload⟩ := encode_eq hout
  obtain ⟨size', payload', rfl, hpayload'⟩ := encode_eq hout'
  -- the tag comes first: both values are of one kind
  have htags : initial 0 (tag value) = initial 0 (tag value') ∧
      payload ++ rest = payload' ++ rest' := List.cons.inj (List.cons.inj h).2
  have htag : tag value = tag value' := initial_inj (tag_lt value) (tag_lt value') htags.1
  replace h := htags.2
  cases value with
  | null =>
    cases value' with
    | null =>
      obtain rfl : payload = [] := hpayload
      obtain rfl : payload' = [] := hpayload'
      exact ⟨rfl, h⟩
    | _ => cases htag
  | bool value =>
    cases value' with
    | bool value' =>
      obtain ⟨hvalue, hrest⟩ := head_append_inj hpayload hpayload' h
      exact ⟨congrArg _ (by cases value <;> cases value' <;> first | rfl | cases hvalue), hrest⟩
    | _ => cases htag
  | number value =>
    cases value' with
    | number value' =>
      obtain ⟨hvalue, hrest⟩ := encodeNumber_append_inj hpayload hpayload' h
      exact ⟨congrArg _ hvalue, hrest⟩
    | _ => cases htag
  | string value =>
    cases value' with
    | string value' =>
      obtain ⟨hvalue, hrest⟩ := bytes_append_inj hpayload hpayload' h
      exact ⟨congrArg _ (asBytes_inj hvalue), hrest⟩
    | _ => cases htag
  | array items =>
    cases value' with
    | array items' =>
      obtain ⟨length, encoded, hlength, hitems, rfl⟩ := hpayload
      obtain ⟨length', encoded', hlength', hitems', rfl⟩ := hpayload'
      rw [append_assoc, append_assoc] at h
      obtain ⟨hsame, h⟩ := head_append_inj hlength hlength' h
      rw [JsonTree.Canonical] at hcanonical hcanonical'
      obtain ⟨heq, hrest⟩ := encodeItems_append_inj hcanonical hcanonical' hsame hitems hitems' h
      exact ⟨congrArg _ heq, hrest⟩
    | _ => cases htag
  | object fields =>
    cases value' with
    | object fields' =>
      obtain ⟨length, encoded, members, hlength, hfields, hmembers, rfl⟩ := hpayload
      obtain ⟨length', encoded', members', hlength', hfields', hmembers', rfl⟩ := hpayload'
      rw [append_assoc, append_assoc] at h
      obtain ⟨hsame, h⟩ := head_append_inj hlength hlength' h
      rw [JsonTree.Canonical] at hcanonical hcanonical'
      -- canonical fields are in the order in which they are written
      rw [sortFields_encodeFields hcanonical.1 hfields] at hmembers
      rw [sortFields_encodeFields hcanonical'.1 hfields'] at hmembers'
      obtain ⟨heq, hrest⟩ := encodeFields_append_inj hcanonical.2 hcanonical'.2 hsame hfields
        hfields' hmembers hmembers' h
      exact ⟨congrArg _ heq, hrest⟩
    | _ => cases htag

theorem encodeItems_append_inj : ∀ {items items' : List JsonTree}, JsonTree.CanonicalItems items →
    JsonTree.CanonicalItems items' → items.length = items'.length →
    ∀ {out out' : List (List UInt8)} {rest rest' : List UInt8}, encodeItems items = .ok out →
    encodeItems items' = .ok out' → out.flatten ++ rest = out'.flatten ++ rest' →
    items = items' ∧ rest = rest'
  | [], [], _, _, _, _, _, _, _, hout, hout', h => by
    obtain rfl := ok.inj hout
    obtain rfl := ok.inj hout'
    exact ⟨rfl, h⟩
  | item :: items, item' :: items', hcanonical, hcanonical', hlength, _, _, _, _, hout, hout', h => by
    rw [encodeItems] at hout hout'
    obtain ⟨first, hfirst, hout⟩ := bind_eq_ok.1 hout
    obtain ⟨out, hitems, hout⟩ := bind_eq_ok.1 hout
    obtain ⟨first', hfirst', hout'⟩ := bind_eq_ok.1 hout'
    obtain ⟨out', hitems', hout'⟩ := bind_eq_ok.1 hout'
    obtain rfl := ok.inj hout
    obtain rfl := ok.inj hout'
    rw [JsonTree.CanonicalItems] at hcanonical hcanonical'
    rw [flatten_cons, flatten_cons, append_assoc, append_assoc] at h
    obtain ⟨rfl, h⟩ := encode_append_inj hcanonical.1 hcanonical'.1 hfirst hfirst' h
    obtain ⟨rfl, hrest⟩ := encodeItems_append_inj hcanonical.2 hcanonical'.2
      (Nat.succ.inj hlength) hitems hitems' h
    exact ⟨rfl, hrest⟩

theorem encodeFields_append_inj : ∀ {fields fields' : List (String × JsonTree)},
    JsonTree.CanonicalFields fields → JsonTree.CanonicalFields fields' →
    fields.length = fields'.length → ∀ {encoded encoded' : List (String × List UInt8)}
    {out out' : List (List UInt8)} {rest rest' : List UInt8}, encodeFields fields = .ok encoded →
    encodeFields fields' = .ok encoded' → encoded.mapM encodeField = .ok out →
    encoded'.mapM encodeField = .ok out' → out.flatten ++ rest = out'.flatten ++ rest' →
    fields = fields' ∧ rest = rest'
  | [], [], _, _, _, _, _, _, _, _, _, hencoded, hencoded', hout, hout', h => by
    obtain rfl := ok.inj hencoded
    obtain rfl := ok.inj hencoded'
    obtain rfl := ok.inj hout
    obtain rfl := ok.inj hout'
    exact ⟨rfl, h⟩
  | (key, value) :: fields, (key', value') :: fields', hcanonical, hcanonical', hlength, _, _, _, _,
      _, _, hencoded, hencoded', hout, hout', h => by
    rw [encodeFields] at hencoded hencoded'
    obtain ⟨first, hfirst, hencoded⟩ := bind_eq_ok.1 hencoded
    obtain ⟨encoded, hfields, hencoded⟩ := bind_eq_ok.1 hencoded
    obtain ⟨first', hfirst', hencoded'⟩ := bind_eq_ok.1 hencoded'
    obtain ⟨encoded', hfields', hencoded'⟩ := bind_eq_ok.1 hencoded'
    obtain rfl := ok.inj hencoded
    obtain rfl := ok.inj hencoded'
    rw [mapM_cons] at hout hout'
    obtain ⟨member, hmember, hout⟩ := bind_eq_ok.1 hout
    obtain ⟨out, hmembers, hout⟩ := bind_eq_ok.1 hout
    obtain ⟨member', hmember', hout'⟩ := bind_eq_ok.1 hout'
    obtain ⟨out', hmembers', hout'⟩ := bind_eq_ok.1 hout'
    obtain rfl := ok.inj hout
    obtain rfl := ok.inj hout'
    obtain ⟨front, keyed, hfront, hkeyed, rfl⟩ := encodeField_eq hmember
    obtain ⟨front', keyed', hfront', hkeyed', rfl⟩ := encodeField_eq hmember'
    rw [JsonTree.CanonicalFields] at hcanonical hcanonical'
    simp only [flatten_cons, append_assoc] at h
    obtain ⟨-, h⟩ := head_append_inj hfront hfront' h
    obtain ⟨hkey, h⟩ := bytes_append_inj hkeyed hkeyed' h
    obtain rfl := asBytes_inj hkey
    obtain ⟨rfl, h⟩ := encode_append_inj hcanonical.1 hcanonical'.1 hfirst hfirst' h
    obtain ⟨rfl, hrest⟩ := encodeFields_append_inj hcanonical.2 hcanonical'.2
      (Nat.succ.inj hlength) hfields hfields' hmembers hmembers' h
    exact ⟨rfl, hrest⟩

end

variable {value value' : JsonTree} {out : List UInt8}

/-- **A value is determined by its bytes.** -/
theorem encode_inj (hcanonical : value.Canonical) (hcanonical' : value'.Canonical)
    (h : encode value = .ok out) (h' : encode value' = .ok out) : value = value' :=
  (encode_append_inj hcanonical hcanonical' h h' (rfl : out ++ [] = out ++ [])).1

variable {domain : String}

theorem material_inj {domain' : String} (hcanonical : value.Canonical)
    (hcanonical' : value'.Canonical) (h : material domain value = .ok out)
    (h' : material domain' value' = .ok out) : domain = domain' ∧ value = value' := by
  obtain ⟨front, hfront, h⟩ := bind_eq_ok.1 h
  obtain ⟨name, hname, h⟩ := bind_eq_ok.1 h
  obtain ⟨version, hversion, h⟩ := bind_eq_ok.1 h
  obtain ⟨encoded, hencoded, h⟩ := bind_eq_ok.1 h
  obtain ⟨front', hfront', h'⟩ := bind_eq_ok.1 h'
  obtain ⟨name', hname', h'⟩ := bind_eq_ok.1 h'
  obtain ⟨version', hversion', h'⟩ := bind_eq_ok.1 h'
  obtain ⟨encoded', hencoded', h'⟩ := bind_eq_ok.1 h'
  have hout := (ok.inj h).trans (ok.inj h').symm
  simp only [append_assoc] at hout
  obtain ⟨-, hout⟩ := head_append_inj hfront hfront' hout
  obtain ⟨hdomain, hout⟩ := bytes_append_inj hname hname' hout
  obtain ⟨-, rfl⟩ := head_append_inj hversion hversion' hout
  exact ⟨asBytes_inj hdomain, encode_inj hcanonical hcanonical' hencoded hencoded'⟩

section

variable {sha256 : List UInt8 → List UInt8}

theorem rawDigest_inj (hsha : Function.Injective sha256) {bytes bytes' : List UInt8}
    (h : rawDigest sha256 bytes = rawDigest sha256 bytes') : bytes = bytes' := by
  have hlist := congrArg String.toList h
  simp only [rawDigest, String.toList_append, String.toList_ofList] at hlist
  have hhex := congrArg Hex.decode (append_cancel_left hlist)
  rw [Hex.decode_encode, Hex.decode_encode] at hhex
  exact hsha (Option.some.inj hhex)

/-- **A digest determines its domain and its value**, when the hash is injective. -/
theorem digest_inj (hsha : Function.Injective sha256) {domain' : String}
    {value' : JsonTree} (hcanonical : value.Canonical) (hcanonical' : value'.Canonical)
    {out : String} (h : digest sha256 domain value = .ok out)
    (h' : digest sha256 domain' value' = .ok out) : domain = domain' ∧ value = value' := by
  obtain ⟨bytes, hbytes, h⟩ := bind_eq_ok.1 h
  obtain ⟨bytes', hbytes', h'⟩ := bind_eq_ok.1 h'
  obtain rfl := rawDigest_inj hsha ((ok.inj h).trans (ok.inj h').symm)
  exact material_inj hcanonical hcanonical' hbytes hbytes'

end

mutual

/-- Lengths below `2 ^ 64`, and numbers of 64 bits. -/
def Sized : JsonTree → Prop
  | .null => True
  | .bool _ => True
  | .number (.ofNat value) => value < 2 ^ 64
  | .number (.negSucc value) => value < 2 ^ 63
  | .string value => value.utf8ByteSize < 2 ^ 64
  | .array items => items.length < 2 ^ 64 ∧ ItemsSized items
  | .object fields => fields.length < 2 ^ 64 ∧ FieldsSized fields

def ItemsSized : List JsonTree → Prop
  | [] => True
  | item :: items => Sized item ∧ ItemsSized items

def FieldsSized : List (String × JsonTree) → Prop
  | [] => True
  | (key, value) :: fields => key.utf8ByteSize < 2 ^ 64 ∧ Sized value ∧ FieldsSized fields

end

theorem fieldsSized_iff :
    FieldsSized fields ↔ ∀ field ∈ fields, field.1.utf8ByteSize < 2 ^ 64 ∧ Sized field.2 := by
  induction fields with
  | nil => simp [FieldsSized]
  | cons field fields ih =>
    rw [FieldsSized, ih, forall_mem_cons, and_assoc]

theorem head_of_lt (major : ℕ) {n : ℕ} (h : n < 2 ^ 64) : ∃ out, head major n = .ok out := by
  unfold head
  split_ifs <;> exact ⟨_, rfl⟩

theorem bytes_of_lt {text : String} (h : text.utf8ByteSize < 2 ^ 64) :
    ∃ out, bytes (asBytes text) = .ok out := by
  obtain ⟨out, hout⟩ := head_of_lt 2 (show (asBytes text).length < 2 ^ 64 from h)
  exact ⟨_, by rw [bytes, hout]; rfl⟩

theorem mapM_encodeField {fields : List (String × List UInt8)}
    (h : ∀ field ∈ fields, field.1.utf8ByteSize < 2 ^ 64) :
    ∃ out, fields.mapM encodeField = .ok out := by
  induction fields with
  | nil => exact ⟨[], rfl⟩
  | cons field fields ih =>
    rw [forall_mem_cons] at h
    obtain ⟨key, hkey⟩ := bytes_of_lt h.1
    obtain ⟨out, hout⟩ := ih h.2
    exact ⟨_, by rw [mapM_cons, encodeField, hkey, hout]; rfl⟩

mutual

theorem encode_of_sized : ∀ {value : JsonTree}, Sized value → ∃ out, encode value = .ok out
  | .null, _ => ⟨_, rfl⟩
  | .bool value, _ => by cases value <;> exact ⟨_, rfl⟩
  | .number (.ofNat value), h => by
    obtain ⟨out, hout⟩ := head_of_lt 0 (show value < 2 ^ 64 from h)
    exact ⟨_, by rw [encode, encodeNumber, if_pos (show value < 2 ^ 64 from h), hout]; rfl⟩
  | .number (.negSucc value), h => by
    have hlt : value < 2 ^ 63 := h
    obtain ⟨out, hout⟩ := head_of_lt 0 (show value + 1 < 2 ^ 64 by omega)
    exact ⟨_, by rw [encode, encodeNumber, if_pos hlt, hout]; rfl⟩
  | .string value, h => by
    obtain ⟨out, hout⟩ := bytes_of_lt (show value.utf8ByteSize < 2 ^ 64 from h)
    exact ⟨_, by rw [encode, hout]; rfl⟩
  | .array items, h => by
    rw [Sized] at h
    obtain ⟨count, hcount⟩ := head_of_lt 4 h.1
    obtain ⟨out, hout⟩ := encodeItems_of_sized h.2
    exact ⟨_, by rw [encode, hcount, hout]; rfl⟩
  | .object fields, h => by
    rw [Sized] at h
    obtain ⟨count, hcount⟩ := head_of_lt 4 h.1
    obtain ⟨out, hout⟩ := encodeFields_of_sized h.2
    have hkeys : ∀ field ∈ sortFields out, field.1.utf8ByteSize < 2 ^ 64 := by
      intro field hfield
      have hkey : field.1 ∈ out.map Prod.fst := mem_map_of_mem (mem_sortFields hfield)
      rw [encodeFields_keys hout, mem_map] at hkey
      obtain ⟨source, hsource, hname⟩ := hkey
      exact hname ▸ (fieldsSized_iff.1 h.2 source hsource).1
    obtain ⟨encoded, hencoded⟩ := mapM_encodeField hkeys
    exact ⟨_, by rw [encode, hout, ok_bind, hcount]; dsimp only; rw [hencoded]; rfl⟩

theorem encodeItems_of_sized : ∀ {items : List JsonTree}, ItemsSized items →
    ∃ out, encodeItems items = .ok out
  | [], _ => ⟨_, rfl⟩
  | item :: items, h => by
    rw [ItemsSized] at h
    obtain ⟨first, hfirst⟩ := encode_of_sized h.1
    obtain ⟨rest, hrest⟩ := encodeItems_of_sized h.2
    exact ⟨_, by rw [encodeItems, hfirst, hrest]; rfl⟩

theorem encodeFields_of_sized : ∀ {fields : List (String × JsonTree)}, FieldsSized fields →
    ∃ out, encodeFields fields = .ok out
  | [], _ => ⟨_, rfl⟩
  | (key, value) :: fields, h => by
    rw [FieldsSized] at h
    obtain ⟨first, hfirst⟩ := encode_of_sized h.2.1
    obtain ⟨rest, hrest⟩ := encodeFields_of_sized h.2.2
    exact ⟨_, by rw [encodeFields, hfirst, hrest]; rfl⟩

end

theorem material_of_sized (hdomain : domain.utf8ByteSize < 2 ^ 64)
    (h : Sized value) : ∃ out, material domain value = .ok out := by
  obtain ⟨name, hname⟩ := bytes_of_lt hdomain
  obtain ⟨out, hout⟩ := encode_of_sized h
  exact ⟨_, by rw [material, hname, hout]; rfl⟩

end PooFlow.Cedar
