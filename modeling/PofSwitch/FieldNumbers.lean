/-
**Numbers in bit fields.**

A bit field of a buffer, read with its first bit as the most significant one, is a number.  This
module relates it to its bits and to the numbers that whole bytes hold in network order.

Main definitions:

* `Buf.fieldNat` — the number in the field of `n` bits from bit `pos` on;
* `Buf.FieldSet` — a buffer is another one with a number put into a field.

Main results:

* `Buf.testBit_fieldNat` — its binary digits are the bits of the field;
* `Buf.loadBE_eq_fieldNat` — bytes in network order are a field;
* `Buf.fieldNat_storeBE` — a number shifted to the front of some bytes is read back from their first
  bits;
* `Buf.FieldSet.unique`, `Buf.FieldSet.trans` — the number determines the buffer, and the last one wins.
-/

import PofSwitch.ByteBits

set_option relaxedAutoImplicit false
set_option autoImplicit false

namespace Buf

/-- The number in the `n` bits from bit `pos` on. -/
def fieldNat (b : Buf) (pos : ℕ) : ℕ → ℕ
  | 0 => 0
  | n + 1 => 2 * fieldNat b pos n + (b.bit (pos + n)).toNat

theorem fieldNat_succ (b : Buf) (pos n : ℕ) :
    fieldNat b pos (n + 1) = Nat.bit (b.bit (pos + n)) (fieldNat b pos n) := by
  rw [fieldNat, Nat.bit_val]

theorem fieldNat_lt (b : Buf) (pos n : ℕ) : fieldNat b pos n < 2 ^ n := by
  induction n with
  | zero => simp [fieldNat]
  | succ n ih =>
      have hbit := Bool.toNat_le (b.bit (pos + n))
      rw [fieldNat, pow_succ]
      omega

/-- The number depends on the bits of the field only. -/
theorem fieldNat_congr {b c : Buf} {pos pos' n : ℕ} (h : ∀ j < n, b.bit (pos + j) = c.bit (pos' + j)) :
    fieldNat b pos n = fieldNat c pos' n := by
  induction n with
  | zero => rfl
  | succ n ih => rw [fieldNat, fieldNat, ih fun j hj => h j (by omega), h n (by omega)]

/-- The binary digits of the number are the bits of the field, the last one first. -/
theorem testBit_fieldNat (b : Buf) (pos : ℕ) {n j : ℕ} (h : j < n) :
    (fieldNat b pos n).testBit j = b.bit (pos + (n - 1 - j)) := by
  induction n generalizing j with
  | zero => omega
  | succ n ih =>
      rw [fieldNat_succ]
      cases j with
      | zero => simp
      | succ j =>
          rw [Nat.testBit_bit_succ, ih (by omega)]
          congr 1
          omega

theorem testBit_fieldNat_of_le (b : Buf) (pos : ℕ) {n j : ℕ} (h : n ≤ j) :
    (fieldNat b pos n).testBit j = false :=
  Nat.testBit_lt_two_pow ((fieldNat_lt b pos n).trans_le (Nat.pow_le_pow_right (by omega) h))

/-- A field with the binary digits of a number holds that number. -/
theorem fieldNat_eq_mod {b : Buf} {pos n x : ℕ}
    (h : ∀ j < n, b.bit (pos + j) = x.testBit (n - 1 - j)) : fieldNat b pos n = x % 2 ^ n := by
  refine Nat.eq_of_testBit_eq fun j => ?_
  rw [Nat.testBit_mod_two_pow]
  by_cases hj : j < n
  · rw [testBit_fieldNat _ _ hj, h _ (by omega), show n - 1 - (n - 1 - j) = j by omega]
    simp [hj]
  · rw [testBit_fieldNat_of_le _ _ (by omega)]
    simp [hj]

/-- Two fields that hold one number have the same bits. -/
theorem bit_eq_of_fieldNat {b c : Buf} {pos pos' n : ℕ} (h : fieldNat b pos n = fieldNat c pos' n)
    {j : ℕ} (hj : j < n) : b.bit (pos + j) = c.bit (pos' + j) := by
  have hb := testBit_fieldNat b pos (show n - 1 - j < n by omega)
  have hc := testBit_fieldNat c pos' (show n - 1 - j < n by omega)
  rw [show n - 1 - (n - 1 - j) = j by omega] at hb hc
  rw [← hb, ← hc, h]

/-- The first bits of a field. -/
theorem fieldNat_shiftRight (b : Buf) (pos n k : ℕ) : fieldNat b pos (n + k) >>> k = fieldNat b pos n := by
  induction k with
  | zero => rfl
  | succ k ih =>
      rw [← Nat.add_assoc, Nat.add_comm k 1, Nat.shiftRight_add, fieldNat_succ, ← ih]
      congr 1
      rw [Nat.shiftRight_one, Nat.bit_div_two]

/-! ### Whole bytes -/

theorem fieldNat_byte (b : Buf) (i : ℕ) : fieldNat b (8 * i) 8 = (b.rd i).toNat := by
  refine Nat.eq_of_testBit_eq fun j => ?_
  by_cases hj : j < 8
  · rw [testBit_fieldNat _ _ hj, bit_mul_add _ _ (by omega), bitOf]
    congr 1
    omega
  · rw [testBit_fieldNat_of_le _ _ (by omega), testBit_toNat_of_le _ (by omega)]

/-- Two fields side by side. -/
theorem fieldNat_add (b : Buf) (pos n k : ℕ) :
    fieldNat b pos (n + k) = fieldNat b pos n * 2 ^ k + fieldNat b (pos + n) k := by
  induction k with
  | zero => simp [fieldNat]
  | succ k ih =>
      rw [← Nat.add_assoc, fieldNat, fieldNat, ih, pow_succ, Nat.add_assoc pos]
      ring

/-- Bytes in network order are a field. -/
theorem loadBE_eq_fieldNat (b : Buf) (k : ℕ) : loadBE b k = fieldNat b 0 (8 * k) := by
  induction k with
  | zero => rfl
  | succ k ih =>
      rw [show 8 * (k + 1) = 8 * k + 8 by omega, fieldNat_add, Nat.zero_add, fieldNat_byte, ← ih]
      rfl

theorem rd_storeBE (n : ℕ) {k i : ℕ} (h : i < k) : rd (storeBE n k) i = u8 (n >>> (8 * (k - 1 - i))) := by
  simp [rd, storeBE, h]

@[simp] theorem length_storeBE (n k : ℕ) : (storeBE n k).length = k := by simp [storeBE]

theorem bit_storeBE (n k j : ℕ) : bit (storeBE n k) j = (decide (j < 8 * k) && n.testBit (8 * k - 1 - j)) := by
  by_cases hj : j < 8 * k
  · rw [bit, rd_storeBE n (by omega), bitOf, testBit_u8, Nat.testBit_shiftRight,
      show 8 * (k - 1 - j / 8) + (7 - j % 8) = 8 * k - 1 - j by omega]
    simp [hj, show 7 - j % 8 < 8 by omega]
  · rw [bit_of_length_le (by rw [length_storeBE]; omega)]
    simp [hj]

/-- The bits of a number shifted to the front of `k` bytes. -/
theorem bit_storeBE_shiftLeft (x k : ℕ) {n : ℕ} (hn : n ≤ 8 * k) (j : ℕ) :
    bit (storeBE (x <<< (8 * k - n)) k) j = (decide (j < n) && x.testBit (n - 1 - j)) := by
  rw [bit_storeBE, Nat.testBit_shiftLeft]
  by_cases hj : j < n
  · simp [hj, show j < 8 * k by omega, show 8 * k - n ≤ 8 * k - 1 - j by omega,
      show 8 * k - 1 - j - (8 * k - n) = n - 1 - j by omega]
  · by_cases hk : j < 8 * k
    · simp [hj, hk, show ¬ 8 * k - n ≤ 8 * k - 1 - j by omega]
    · simp [hj, hk]

/-- A number shifted to the front of some bytes is read back. -/
theorem fieldNat_storeBE (x k : ℕ) {n : ℕ} (hn : n ≤ 8 * k) :
    fieldNat (storeBE (x <<< (8 * k - n)) k) 0 n = x % 2 ^ n := by
  refine fieldNat_eq_mod fun j hj => ?_
  rw [Nat.zero_add, bit_storeBE_shiftLeft x k hn]
  simp [hj]

/-! ### Putting a number into a field -/

/-- `c` is `b` with the number `n` in a field. -/
structure FieldSet (pos len n : ℕ) (b c : Buf) : Prop where
  length : c.length = b.length
  value : fieldNat c pos len = n
  rest : ∀ i, ¬ (pos ≤ i ∧ i < pos + len) → c.bit i = b.bit i

namespace FieldSet

variable {pos len n m : ℕ} {b c d : Buf}

theorem refl (pos len : ℕ) (b : Buf) : FieldSet pos len (fieldNat b pos len) b b :=
  ⟨rfl, rfl, fun _ _ => rfl⟩

theorem trans (h₁ : FieldSet pos len n b c) (h₂ : FieldSet pos len m c d) : FieldSet pos len m b d where
  length := h₂.length.trans h₁.length
  value := h₂.value
  rest i hi := (h₂.rest i hi).trans (h₁.rest i hi)

theorem unique (h₁ : FieldSet pos len n b c) (h₂ : FieldSet pos len n b d) : c = d := by
  refine ext_bit (h₁.length.trans h₂.length.symm) fun i _ => ?_
  by_cases hi : pos ≤ i ∧ i < pos + len
  · have hbit := bit_eq_of_fieldNat (h₁.value.trans h₂.value.symm) (show i - pos < len by omega)
    rwa [show pos + (i - pos) = i by omega] at hbit
  · rw [h₁.rest i hi, h₂.rest i hi]

end FieldSet

end Buf
