import Mathlib.Tactic.IntervalCases

namespace PooFlow.Foundation.Hex

/-- The lower-case digits of `n`, `width` of them, the highest first. -/
def digits : ℕ → ℕ → List Char
  | 0, _ => []
  | width + 1, n => digits width (n / 16) ++ [Nat.digitChar (n % 16)]

def digitValue (c : Char) : Option ℕ :=
  if '0' ≤ c ∧ c ≤ '9' then some (c.toNat - 48)
  else if 'a' ≤ c ∧ c ≤ 'f' then some (c.toNat - 87)
  else if 'A' ≤ c ∧ c ≤ 'F' then some (c.toNat - 55)
  else none

def readFrom : ℕ → List Char → Option ℕ
  | n, [] => some n
  | n, c :: rest =>
    match digitValue c with
    | some value => readFrom (n * 16 + value) rest
    | none => none

def read : List Char → Option ℕ
  | [] => none
  | text => readFrom 0 text

def encode (bytes : List UInt8) : List Char := bytes.flatMap fun byte => digits 2 byte.toNat

def decode : List Char → Option (List UInt8)
  | [] => some []
  | [_] => none
  | high :: low :: rest =>
    match digitValue high, digitValue low, decode rest with
    | some high, some low, some bytes => some (UInt8.ofNat (high * 16 + low) :: bytes)
    | _, _, _ => none

theorem digitValue_digitChar {n : ℕ} (h : n < 16) : digitValue (Nat.digitChar n) = some n := by
  interval_cases n <;> rfl

@[simp] theorem length_digits (width n : ℕ) : (digits width n).length = width := by
  induction width generalizing n with
  | zero => rfl
  | succ width ih => simp [digits, ih]

theorem readFrom_append (n : ℕ) (front back : List Char) :
    readFrom n (front ++ back) = (readFrom n front).bind fun m => readFrom m back := by
  induction front generalizing n with
  | nil => rfl
  | cons c rest ih =>
    simp only [List.cons_append, readFrom]
    split
    · exact ih _
    · rfl

theorem readFrom_digits {width n : ℕ} (h : n < 16 ^ width) :
    readFrom 0 (digits width n) = some n := by
  induction width generalizing n with
  | zero =>
    obtain rfl : n = 0 := by simpa using h
    rfl
  | succ width ih =>
    have hhigh : n / 16 < 16 ^ width := by
      rw [Nat.pow_succ] at h
      exact Nat.div_lt_of_lt_mul (by rwa [mul_comm])
    have hlow : n % 16 < 16 := Nat.mod_lt _ (by decide)
    rw [digits, readFrom_append, ih hhigh]
    simp only [Option.bind_some, readFrom, digitValue_digitChar hlow]
    congr 1
    omega

theorem read_digits {width n : ℕ} (hwidth : width ≠ 0) (h : n < 16 ^ width) :
    read (digits width n) = some n := by
  have hlength := length_digits width n
  have hread := readFrom_digits h
  cases hdigits : digits width n with
  | nil =>
    rw [hdigits] at hlength
    exact absurd hlength.symm hwidth
  | cons c rest => rwa [hdigits] at hread

theorem decode_encode (bytes : List UInt8) : decode (encode bytes) = some bytes := by
  induction bytes with
  | nil => rfl
  | cons byte rest ih =>
    have hbyte : byte.toNat < 256 := byte.toNat_lt
    have hhigh : byte.toNat / 16 % 16 = byte.toNat / 16 := by omega
    have hcons : encode (byte :: rest) =
        Nat.digitChar (byte.toNat / 16) :: Nat.digitChar (byte.toNat % 16) :: encode rest := by
      simp [encode, digits, hhigh]
    have hvalue : byte.toNat / 16 * 16 + byte.toNat % 16 = byte.toNat := by omega
    rw [hcons, decode, digitValue_digitChar (by omega), digitValue_digitChar (by omega), ih]
    simp only [hvalue, UInt8.ofNat_toNat]

end PooFlow.Foundation.Hex
