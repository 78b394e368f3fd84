import PooFlow.Foundation.Endian
import PooFlow.Foundation.Guard

namespace PooFlow.Foundation

open List

variable {ε α : Type}

def overwrite (target : List UInt8) (offset : ℕ) (bytes : List UInt8) : List UInt8 :=
  target.take offset ++ bytes ++ target.drop (offset + bytes.length)

@[simp] theorem overwrite_nil (target : List UInt8) (offset : ℕ) :
    overwrite target offset [] = target := by
  simp [overwrite]

variable {bytes : List UInt8} {offset length : ℕ} {target : List UInt8}

theorem length_overwrite (h : offset + bytes.length ≤ target.length) :
    (overwrite target offset bytes).length = target.length := by
  simp only [overwrite, length_append, length_take, length_drop]
  omega

theorem overwrite_overwrite (target first second : List UInt8) (offset : ℕ)
    (h : offset + first.length ≤ target.length) :
    overwrite (overwrite target offset first) (offset + first.length) second =
      overwrite target offset (first ++ second) := by
  have hprefix : (target.take offset).length = offset := by
    rw [length_take]
    omega
  have hlength : (target.take offset ++ first).length = offset + first.length := by
    rw [length_append, hprefix]
  have htake : (overwrite target offset first).take (offset + first.length) =
      target.take offset ++ first := by
    rw [overwrite, take_append_of_le_length hlength.ge, ← hlength, take_length]
  have hdrop : (overwrite target offset first).drop (offset + first.length + second.length) =
      target.drop (offset + (first ++ second).length) := by
    rw [overwrite, drop_append, drop_eq_nil_of_le (by omega), nil_append,
      drop_drop, length_append, length_append, hprefix]
    congr 1
    omega
  rw [overwrite, htake, hdrop, overwrite]
  simp only [append_assoc]

theorem overwrite_middle {head middle rest : List UInt8} (hoffset : offset = head.length)
    (h : bytes.length = middle.length) :
    overwrite (head ++ (middle ++ rest)) offset bytes = head ++ (bytes ++ rest) := by
  subst hoffset
  have htake : (head ++ (middle ++ rest)).take head.length = head := by
    rw [take_append_of_le_length le_rfl, take_length]
  have hdrop : (head ++ (middle ++ rest)).drop (head.length + bytes.length) = rest := by
    rw [h, ← append_assoc, ← length_append, drop_left]
  rw [overwrite, htake, hdrop, append_assoc]

theorem set_eq_overwrite (byte : UInt8) (h : offset < target.length) :
    target.set offset byte = overwrite target offset [byte] := by
  rw [set_eq_take_append_cons_drop, if_pos h, overwrite]
  simp

/-- The low byte of `remaining` goes to each offset in turn. -/
def setBytes (offset : ℕ) (byteOffsets : List ℕ) (target : List UInt8) (remaining : ℕ) :
    List UInt8 × ℕ :=
  byteOffsets.foldl (fun state byteOffset =>
    (state.1.set (offset + byteOffset) (UInt8.ofNat (state.2 % 256)), state.2 / 256))
    (target, remaining)

theorem setBytes_eq (offset start : ℕ) (count : ℕ) (target : List UInt8) (remaining : ℕ)
    (h : offset + start + count ≤ target.length) :
    setBytes offset (List.range' start count) target remaining =
      (overwrite target (offset + start) (littleEndian count remaining),
        remaining / 256 ^ count) := by
  induction count generalizing start target remaining with
  | zero => simp [setBytes, littleEndian]
  | succ count ih =>
    have hset : target.set (offset + start) (UInt8.ofNat (remaining % 256)) =
        overwrite target (offset + start) [UInt8.ofNat remaining] := by
      rw [UInt8.ofNat_mod_size]
      exact set_eq_overwrite _ (by omega)
    have hlength : (overwrite target (offset + start) [UInt8.ofNat remaining]).length =
        target.length := length_overwrite (by simp only [length_singleton]; omega)
    have hrest := ih (start + 1) (overwrite target (offset + start) [UInt8.ofNat remaining])
      (remaining / 256) (by omega)
    rw [setBytes] at hrest ⊢
    rw [List.range'_succ, foldl_cons, hset, hrest, ← Nat.add_assoc]
    have hpieces := overwrite_overwrite target [UInt8.ofNat remaining]
      (littleEndian count (remaining / 256)) (offset + start)
      (by simp only [length_singleton]; omega)
    rw [length_singleton] at hpieces
    rw [hpieces, littleEndian, Nat.div_div_eq_div_mul, pow_succ']
    rfl

/-- Copying a buffer byte by byte. -/
theorem foldl_set_eq (offset : ℕ) (source : List UInt8) (start count : ℕ) (target : List UInt8)
    (hsource : start + count = source.length) (h : offset + source.length ≤ target.length) :
    (List.range' start count).foldl (fun target index =>
      target.set (offset + index) (source.getD index 0)) target =
        overwrite target (offset + start) (source.drop start) := by
  induction count generalizing start target with
  | zero =>
    rw [drop_eq_nil_of_le (by omega), overwrite_nil]
    rfl
  | succ count ih =>
    have hstart : start < source.length := by omega
    have hpiece : (overwrite target (offset + start) [source[start]]).length = target.length :=
      length_overwrite (by simp only [length_singleton]; omega)
    have hpieces := overwrite_overwrite target [source[start]] (source.drop (start + 1))
      (offset + start) (by simp only [length_singleton]; omega)
    rw [length_singleton, singleton_append, ← drop_eq_getElem_cons hstart] at hpieces
    rw [List.range'_succ, foldl_cons, getD_eq_getElem?_getD, List.getElem?_eq_getElem hstart,
      Option.getD_some, set_eq_overwrite _ (by omega), ih (start + 1) _ (by omega) (by omega),
      ← Nat.add_assoc, hpieces]

theorem overwrite_all (h : bytes.length = target.length) : overwrite target 0 bytes = bytes := by
  simp [overwrite, h]

def Writes (length : ℕ) (step : List UInt8 → Except ε (List UInt8)) (offset : ℕ)
    (bytes : List UInt8) : Prop :=
  offset + bytes.length ≤ length ∧
    ∀ target, target.length = length → step target = .ok (overwrite target offset bytes)

theorem Writes.seq {nextOffset : ℕ} {first second : List UInt8}
    {step next : List UInt8 → Except ε (List UInt8)} (hstep : Writes length step offset first)
    (hoffset : nextOffset = offset + first.length) (hnext : Writes length next nextOffset second) :
    Writes length (fun target => step target >>= next) offset (first ++ second) := by
  subst hoffset
  have hfits := hnext.1
  refine ⟨by rw [length_append]; omega, fun target htarget => ?_⟩
  have hwritten : (overwrite target offset first).length = length :=
    (length_overwrite (htarget ▸ hstep.1)).trans htarget
  dsimp only
  rw [hstep.2 target htarget, ok_bind, hnext.2 _ hwritten,
    overwrite_overwrite _ _ _ _ (htarget ▸ hstep.1)]

theorem Writes.middle {step : List UInt8 → Except ε (List UInt8)}
    (h : Writes length step offset bytes) (head middle rest : List UInt8)
    (hoffset : offset = head.length) (hbytes : bytes.length = middle.length)
    (hlength : (head ++ (middle ++ rest)).length = length) :
    step (head ++ (middle ++ rest)) = .ok (head ++ (bytes ++ rest)) := by
  rw [h.2 _ hlength, overwrite_middle hoffset hbytes]

section

variable {size : ℕ} {write : List UInt8 → ℕ → α → Except ε (List UInt8)} {encode : α → List UInt8}
  {rows : List α}

include size write encode rows

theorem writes_foldlM
    (hrow : ∀ row ∈ rows, (encode row).length = size ∧ ∀ offset, offset + size ≤ length →
      Writes length (fun target => write target offset row) offset (encode row)) (offset index : ℕ)
    (hfits : offset + (index + rows.length) * size ≤ length) :
    Writes length (fun target => do
        let state ← rows.foldlM (fun state row => do
          let written ← write state.1 (offset + state.2 * size) row
          return (written, state.2 + 1)) (target, index)
        return state.1)
      (offset + index * size) (rows.flatMap encode) := by
  induction rows generalizing index with
  | nil =>
    refine ⟨by simpa using hfits, fun target _ => ?_⟩
    simp [pure, Except.pure, bind, Except.bind]
  | cons row rows ih =>
    rw [forall_mem_cons] at hrow
    rw [length_cons] at hfits
    have hfirst : offset + index * size + size ≤ length := by
      have hle : (index + 1) * size ≤ (index + (rows.length + 1)) * size :=
        Nat.mul_le_mul_right _ (by omega)
      rw [Nat.add_mul, Nat.one_mul] at hle
      omega
    have hwrite := hrow.1.2 (offset + index * size) hfirst
    have hrest := ih hrow.2 (index + 1) (by rwa [Nat.add_right_comm, Nat.add_assoc])
    have hnext : offset + (index + 1) * size =
        offset + index * size + (encode row).length := by
      rw [hrow.1.1]
      ring
    have hseq := hwrite.seq hnext hrest
    refine ⟨hseq.1, fun target htarget => ?_⟩
    have hwritten : write target (offset + index * size) row =
        .ok (overwrite target (offset + index * size) (encode row)) := hwrite.2 target htarget
    have hboth := hseq.2 target htarget
    dsimp only at hboth ⊢
    rw [hwritten, ok_bind] at hboth
    rw [foldlM_cons, hwritten]
    exact hboth

theorem foldlM_cursor_eq
    (hrow : ∀ row ∈ rows, (encode row).length = size ∧ ∀ offset, offset + size ≤ length →
      Writes length (fun target => write target offset row) offset (encode row))
    (hfits : offset + size * rows.length ≤ length)
    (htarget : target.length = length) :
    rows.foldlM (fun state row => do
        let written ← write state.1 state.2 row
        return (written, state.2 + size)) (target, offset) =
      .ok (overwrite target offset (rows.flatMap encode), offset + size * rows.length) := by
  induction rows generalizing offset target with
  | nil =>
    rw [flatMap_nil, overwrite_nil]
    rfl
  | cons row rows ih =>
    rw [forall_mem_cons] at hrow
    rw [length_cons, Nat.mul_add, Nat.mul_one] at hfits
    have hwrite := hrow.1.2 offset (by omega)
    have hwritten : write target offset row = .ok (overwrite target offset (encode row)) :=
      hwrite.2 target htarget
    have hrest := (length_overwrite (htarget ▸ hwrite.1)).trans htarget
    have hpieces := overwrite_overwrite target (encode row) (rows.flatMap encode) offset
      (htarget ▸ hwrite.1)
    rw [hrow.1.1] at hpieces
    rw [foldlM_cons, hwritten]
    refine (ih hrow.2 (by omega) hrest).trans ?_
    rw [hpieces, flatMap_cons, length_cons]
    congr 2
    ring

end

end PooFlow.Foundation
