import Mathlib.Tactic.Ring
import PooFlow.Foundation.Guard

/-! Reads of one block by a program with 64-bit words. A read outside the block, a misaligned one,
and a sum, difference or product that does not fit a word is a fault. -/

namespace PooFlow.Foundation

inductive Fault where
  | outOfBounds
  | misaligned
  | wrapped
  deriving DecidableEq

/-- Errors among which the faults are. -/
class Faulting (ε : Type*) where
  fault : Fault → ε

export Faulting (fault)

variable {ε : Type} [Faulting ε] {α β ρ : Type}

def wordLimit : ℕ := 2 ^ 64

def word (value : ℕ) : Except ε ℕ :=
  if value < wordLimit then .ok value else .error (fault .wrapped)

def addWords (a b : ℕ) : Except ε ℕ := word (a + b)

def mulWords (a b : ℕ) : Except ε ℕ := word (a * b)

def subWords (a b : ℕ) : Except ε ℕ :=
  if b ≤ a then .ok (a - b) else .error (fault .wrapped)

variable {a b c : ℕ} {x : Except ε α} {e : ε} {body : ℕ → Except ε Unit} {remaining index : ℕ}

@[simp] theorem word_eq_ok : (word a : Except ε ℕ) = .ok b ↔ a < wordLimit ∧ a = b := by
  unfold word
  split <;> simp_all

@[simp] theorem addWords_eq_ok :
    (addWords a b : Except ε ℕ) = .ok c ↔ a + b < wordLimit ∧ a + b = c :=
  word_eq_ok

@[simp] theorem mulWords_eq_ok :
    (mulWords a b : Except ε ℕ) = .ok c ↔ a * b < wordLimit ∧ a * b = c :=
  word_eq_ok

@[simp] theorem subWords_eq_ok : (subWords a b : Except ε ℕ) = .ok c ↔ b ≤ a ∧ a - b = c := by
  unfold subWords
  split <;> simp_all

def NoFault (x : Except ε α) : Prop := ∀ f, x ≠ .error (fault f)

theorem noFault_ok (a : α) : NoFault (.ok a : Except ε α) := by
  intro f h
  cases h

theorem noFault_of_ok {a : α} (h : x = .ok a) : NoFault x :=
  h ▸ noFault_ok a

theorem noFault_error (h : ∀ f, e ≠ fault f) : NoFault (.error e : Except ε α) := by
  intro f heq
  exact h f (Except.error.inj heq)

theorem NoFault.bind {f : α → Except ε β} (hx : NoFault x) (hf : ∀ a, x = .ok a → NoFault (f a)) :
    NoFault (x >>= f) := by
  cases x with
  | ok a => exact hf a rfl
  | error e => exact noFault_error fun g heq => hx g (congrArg _ heq)

theorem noFault_guardElse {p : Prop} [Decidable p] (h : ∀ f, e ≠ fault f) :
    NoFault (guardElse p e) := by
  unfold guardElse
  split
  · exact noFault_ok _
  · exact noFault_error h

/-- `for (index = start; remaining more; ++index) body`. -/
def forBelow (body : ℕ → Except ε Unit) : ℕ → ℕ → Except ε Unit
  | 0, _ => .ok ()
  | remaining + 1, index => do
    body index
    let next ← addWords index 1
    forBelow body remaining next

theorem forBelow_eq_ok (hfits : index + remaining < wordLimit) :
    forBelow body remaining index = .ok () ↔
      ∀ i, index ≤ i → i < index + remaining → body i = .ok () := by
  induction remaining generalizing index with
  | zero =>
    refine iff_of_true rfl fun i hle hlt => ?_
    omega
  | succ remaining ih =>
    have hnext : (addWords index 1 : Except ε ℕ) = .ok (index + 1) :=
      addWords_eq_ok.2 ⟨by omega, rfl⟩
    rw [forBelow, then_eq_ok, hnext, ok_bind, ih (by omega)]
    constructor
    · intro h i hle hlt
      rcases Nat.eq_or_lt_of_le hle with rfl | hlt'
      · exact h.1
      · exact h.2 i hlt' (by omega)
    · intro h
      exact ⟨h index le_rfl (by omega), fun i hle hlt => h i (by omega) (by omega)⟩

theorem noFault_forBelow (hfits : index + remaining < wordLimit)
    (h : ∀ i, index ≤ i → i < index + remaining → NoFault (body i)) :
    NoFault (forBelow body remaining index) := by
  induction remaining generalizing index with
  | zero => exact noFault_ok _
  | succ remaining ih =>
    have hnext : (addWords index 1 : Except ε ℕ) = .ok (index + 1) :=
      addWords_eq_ok.2 ⟨by omega, rfl⟩
    rw [forBelow, hnext]
    refine (h index le_rfl (by omega)).bind fun _ _ => ?_
    exact ih (by omega) fun i hle hlt => h i (by omega) (by omega)

structure Block where
  base : ℕ
  bytes : List UInt8
  pos : 0 < base
  fits : base + bytes.length < wordLimit

namespace Block

variable (block : Block)

def size : UInt64 := UInt64.ofNat block.bytes.length

/-- The addresses from `address` on, `length` of them, lie in the block. -/
structure Holds (address length : ℕ) : Prop where
  from_base : block.base ≤ address
  to_end : address + length ≤ block.base + block.bytes.length

instance (address length : ℕ) : Decidable (block.Holds address length) :=
  decidable_of_iff (block.base ≤ address ∧ address + length ≤ block.base + block.bytes.length)
    ⟨fun h => ⟨h.1, h.2⟩, fun h => ⟨h.1, h.2⟩⟩

def slice (address length : ℕ) : List UInt8 :=
  (block.bytes.drop (address - block.base)).take length

def read (address length alignment : ℕ) : Except ε (List UInt8) := do
  guardElse (block.Holds address length) (fault .outOfBounds)
  guardElse (address % alignment = 0) (fault .misaligned)
  return block.slice address length

theorem toNat_size : block.size.toNat = block.bytes.length := by
  have hfits := block.fits
  rw [size, UInt64.toNat_ofNat', Nat.mod_eq_of_lt]
  exact Nat.lt_of_le_of_lt (Nat.le_add_left _ _) hfits

variable {block}

theorem read_eq_ok {address length alignment : ℕ} {bytes : List UInt8} :
    (block.read address length alignment : Except ε _) = .ok bytes ↔
      block.Holds address length ∧ address % alignment = 0 ∧
        block.slice address length = bytes := by
  simp only [read, bind_eq_ok, guardElse_eq_ok, exists_const, pure_eq_ok]

theorem Holds.lt {address length : ℕ} (h : block.Holds address length) :
    address + length < wordLimit :=
  Nat.lt_of_le_of_lt h.to_end block.fits

end Block

structure RowLayout (ρ : Type) where
  size : ℕ
  alignment : ℕ
  decode : List UInt8 → ρ
  aligned : size % alignment = 0
  size_pos : 0 < size

/-- `&entries[index]`. -/
def RowLayout.address (layout : RowLayout ρ) (entries index : ℕ) : Except ε ℕ := do
  let displacement ← mulWords index layout.size
  addWords entries displacement

/-- `entries[index]`. -/
def Block.entry (block : Block) (layout : RowLayout ρ) (entries index : ℕ) : Except ε ρ := do
  let address ← layout.address entries index
  let bytes ← block.read address layout.size layout.alignment
  return layout.decode bytes

/-- `count` rows lie in the block from `entries` on. -/
structure Block.Table (block : Block) (layout : RowLayout ρ) (entries count : ℕ) : Prop where
  holds : block.Holds entries (count * layout.size)
  aligned : entries % layout.alignment = 0

namespace Block.Table

variable {block : Block} {layout : RowLayout ρ} {entries count index : ℕ}
  (h : block.Table layout entries count)
include h

theorem holds_row (hindex : index < count) :
    block.Holds (entries + index * layout.size) layout.size := by
  have hrows : (index + 1) * layout.size ≤ count * layout.size :=
    Nat.mul_le_mul_right _ hindex
  rw [Nat.add_mul, Nat.one_mul] at hrows
  exact ⟨Nat.le_add_right_of_le h.holds.from_base, by have := h.holds.to_end; omega⟩

theorem aligned_row : (entries + index * layout.size) % layout.alignment = 0 := by
  rw [Nat.add_mod, Nat.mul_mod, layout.aligned, h.aligned]
  simp

theorem address (hindex : index ≤ count) :
    (layout.address entries index : Except ε ℕ) = .ok (entries + index * layout.size) := by
  have hle : index * layout.size ≤ count * layout.size := Nat.mul_le_mul_right _ hindex
  have hlt := h.holds.lt
  rw [RowLayout.address, bind_eq_ok]
  exact ⟨_, mulWords_eq_ok.2 ⟨by omega, rfl⟩, addWords_eq_ok.2 ⟨by omega, rfl⟩⟩

theorem entry (hindex : index < count) : (block.entry layout entries index : Except ε ρ) =
      .ok (layout.decode (block.slice (entries + index * layout.size) layout.size)) := by
  rw [Block.entry, h.address hindex.le, ok_bind,
    (read_eq_ok (ε := ε)).2 ⟨h.holds_row hindex, h.aligned_row, rfl⟩]
  rfl

end Block.Table

end PooFlow.Foundation
