import Mathlib.Tactic.Ring

namespace PooFlow.Foundation

open List

/-- The low `count` bytes of a number, little end first. -/
def littleEndian : ℕ → ℕ → List UInt8
  | 0, _ => []
  | count + 1, value => UInt8.ofNat value :: littleEndian count (value / 256)

def ofLittleEndian : List UInt8 → ℕ
  | [] => 0
  | byte :: rest => byte.toNat + 256 * ofLittleEndian rest

@[simp] theorem littleEndian_length (count value : ℕ) :
    (littleEndian count value).length = count := by
  induction count generalizing value with
  | zero => rfl
  | succ count ih => rw [littleEndian, length_cons, ih]

@[simp] theorem littleEndian_drop {count value n : ℕ} (h : count ≤ n) :
    (littleEndian count value).drop n = [] := by
  rw [drop_eq_nil_iff, littleEndian_length]
  exact h

theorem ofLittleEndian_littleEndian (count value : ℕ) :
    ofLittleEndian (littleEndian count value) = value % 256 ^ count := by
  induction count generalizing value with
  | zero =>
    rw [pow_zero, Nat.mod_one]
    rfl
  | succ count ih =>
    have hbyte : (UInt8.ofNat value).toNat = value % 256 := UInt8.toNat_ofNat'
    rw [littleEndian, ofLittleEndian, ih, hbyte, pow_succ', Nat.mod_mul]

theorem ofLittleEndian_of_lt {count value : ℕ} (h : value < 256 ^ count) :
    ofLittleEndian (littleEndian count value) = value := by
  rw [ofLittleEndian_littleEndian, Nat.mod_eq_of_lt h]

theorem ofLittleEndian_lt (bytes : List UInt8) : ofLittleEndian bytes < 256 ^ bytes.length := by
  induction bytes with
  | nil => exact Nat.one_pos
  | cons byte rest ih =>
    have hbyte := byte.toNat_lt
    rw [ofLittleEndian, length_cons, pow_succ']
    omega

/-- The low `count` bytes of a number, big end first. -/
def bigEndian (count value : ℕ) : List UInt8 := (littleEndian count value).reverse

def ofBigEndian (bytes : List UInt8) : ℕ := ofLittleEndian bytes.reverse

@[simp] theorem bigEndian_length (count value : ℕ) : (bigEndian count value).length = count := by
  rw [bigEndian, length_reverse, littleEndian_length]

theorem ofBigEndian_of_lt {count value : ℕ} (h : value < 256 ^ count) :
    ofBigEndian (bigEndian count value) = value := by
  rw [ofBigEndian, bigEndian, reverse_reverse, ofLittleEndian_of_lt h]

theorem bigEndian_append_inj {count value value' : ℕ} {rest rest' : List UInt8}
    (hvalue : value < 256 ^ count) (hvalue' : value' < 256 ^ count)
    (h : bigEndian count value ++ rest = bigEndian count value' ++ rest') :
    value = value' ∧ rest = rest' := by
  obtain ⟨hbytes, hrest⟩ := append_inj h (by simp)
  refine ⟨?_, hrest⟩
  rw [← ofBigEndian_of_lt hvalue, hbytes, ofBigEndian_of_lt hvalue']

end PooFlow.Foundation
