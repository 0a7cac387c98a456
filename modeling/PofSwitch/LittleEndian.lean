/-
**Structures in memory, little-endian.**

A C structure is the bytes of its fields one after the other, with padding in between, and an array is the
bytes of its elements.  This module has the stores that belong to `Buf.loadWord`, and the elements of an
array of structures of one size.

Main definitions:

* `Buf.storeLE` — a number in a given number of bytes, the least significant one first;
* `Buf.element` — an element of an array.

Main results:

* `Buf.loadWord_storeLE` — a stored number is read back, modulo the size of its field;
* `Buf.element_flatMap` — **the elements of an array are the bytes that were stored**.
-/

import PofSwitch.ByteBits

set_option relaxedAutoImplicit false
set_option autoImplicit false

namespace Buf

/-! ### Numbers -/

/-- The last `k` bytes of a number, the least significant one first. -/
def storeLE : ℕ → ℕ → Buf
  | _, 0 => []
  | n, k + 1 => u8 n :: storeLE (n / 256) k

@[simp] theorem length_storeLE (n k : ℕ) : (storeLE n k).length = k := by
  induction k generalizing n with
  | zero => rfl
  | succ k ih => rw [storeLE, List.length_cons, ih]

theorem loadWord_cons_succ (v : UInt8) (b : Buf) (p k : ℕ) :
    loadWord (v :: b) (p + 1) k = b.loadWord p k := by
  induction k generalizing p with
  | zero => rfl
  | succ k ih => rw [loadWord, loadWord, ih]; rfl

/-- A stored number is read back, modulo the size of its field. -/
theorem loadWord_storeLE (n k : ℕ) : (storeLE n k).loadWord 0 k = n % 256 ^ k := by
  induction k generalizing n with
  | zero => rw [loadWord, pow_zero, Nat.mod_one]
  | succ k ih =>
      have hbyte : (rd (u8 n :: storeLE (n / 256) k) 0).toNat = n % 256 := toNat_u8 n
      rw [storeLE, loadWord, loadWord_cons_succ, ih, hbyte, pow_succ', Nat.mod_mul]

/-- A number in `k` bytes. -/
theorem loadWord_lt (b : Buf) (p k : ℕ) : b.loadWord p k < 256 ^ k := by
  induction k generalizing p with
  | zero => simp [loadWord]
  | succ k ih =>
      have hbyte := (b.rd p).toNat_lt
      have hrest := ih (p + 1)
      rw [loadWord, pow_succ']
      omega

theorem loadWord_append {a b : Buf} {p k : ℕ} (h : p + k ≤ a.length) :
    loadWord (a ++ b) p k = a.loadWord p k := by
  induction k generalizing p with
  | zero => rfl
  | succ k ih => rw [loadWord, loadWord, rd_append_left (by omega), ih (by omega)]

theorem loadWord_append_right (a b : Buf) (p k : ℕ) : loadWord (a ++ b) (a.length + p) k = b.loadWord p k := by
  induction k generalizing p with
  | zero => rfl
  | succ k ih =>
      rw [loadWord, loadWord, Nat.add_assoc, ih, rd_append_right (Nat.le_add_right _ _), Nat.add_sub_cancel_left]

/-- A number that stands between others is read where it starts. -/
theorem loadWord_field {a v c : Buf} {p k : ℕ} (ha : a.length = p) (hv : v.length = k) :
    loadWord (a ++ v ++ c) p k = v.loadWord 0 k := by
  have hstart : p = a.length + 0 := ha.symm
  rw [List.append_assoc, hstart, loadWord_append_right, loadWord_append (by omega)]

/-! ### Arrays -/

@[simp] theorem length_bytesAt (b : Buf) (p n : ℕ) : (b.bytesAt p n).length = n := by
  simp [bytesAt]

/-- The bytes of a buffer that is as long as the array. -/
theorem bytesAt_zero_length (b : Buf) : b.bytesAt 0 b.length = b := by
  refine ext_rd (length_bytesAt _ _ _) fun i hi => ?_
  rw [length_bytesAt] at hi
  simp [rd, bytesAt, hi]

/-- Element `i` of an array whose elements have the given size. -/
def element (size i : ℕ) (b : Buf) : Buf := (b.drop (size * i)).take size

theorem length_element {size i : ℕ} {b : Buf} (h : size * (i + 1) ≤ b.length) :
    (element size i b).length = size := by
  rw [Nat.mul_succ] at h
  rw [element, List.length_take, List.length_drop]
  omega

section FlatMap

variable {size n : ℕ} {f : ℕ → Buf}

theorem length_flatMap_range (hf : ∀ i, (f i).length = size) (n : ℕ) :
    ((List.range n).flatMap f).length = n * size := by
  induction n with
  | zero => simp
  | succ n ih =>
      rw [List.range_succ, List.flatMap_append, List.length_append, ih, List.flatMap_singleton, hf,
        Nat.succ_mul]

/-- **The elements of an array are the bytes that were stored.** -/
theorem element_flatMap (hf : ∀ i, (f i).length = size) {i : ℕ} (hi : i < n) (c : Buf) :
    element size i ((List.range n).flatMap f ++ c) = f i := by
  -- the elements in front, the element and the rest
  have hsplit : List.range n = List.range i ++ (i :: (List.range (n - i - 1)).map fun j => i + 1 + j) := by
    have hadd : n = i + ((n - i - 1) + 1) := by omega
    conv_lhs => rw [hadd, List.range_add, List.range_succ_eq_map]
    rw [List.map_cons, List.map_map, Nat.add_zero]
    refine congrArg (fun l => List.range i ++ i :: l) (List.map_congr_left fun j _ => ?_)
    simp only [Function.comp_apply]
    omega
  have hfront : ((List.range i).flatMap f).length = size * i := by
    rw [length_flatMap_range hf, Nat.mul_comm]
  rw [hsplit, List.flatMap_append, List.flatMap_cons, List.append_assoc, List.append_assoc, element,
    List.drop_left' hfront, List.take_left' (hf i)]

end FlatMap

end Buf
