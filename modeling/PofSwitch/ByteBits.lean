/-
**Byte buffers and their bits.**

A buffer is a list of bytes of fixed length.  Reading outside the buffer gives `0` and a store
outside it is dropped, so every operation is total and keeps the length.  Bits are numbered the
way network protocols number them: bit `0` is the most significant bit of byte `0`.

Arithmetic on bytes is done on natural numbers and truncated when the result is stored
(`Buf.u8`), which is what integer promotion does to an expression on 8-bit operands: a shift by a
full byte gives `0` and not the operand itself.

Main definitions:

* `Buf.rd`, `Buf.wr` — reading and storing one byte;
* `Buf.loadWord`, `Buf.loadBE`, `Buf.storeBE` — numbers in a buffer, in both byte orders;
* `Buf.bytesAt`, `Buf.paste` — copying bytes out of a buffer and into one;
* `Buf.bitOf`, `Buf.bit` — the bits of a byte and of a buffer.

Main results:

* `Buf.rd_wr` — what a store does to a later read;
* `Buf.byte_ext` — two bytes are equal when their bits are;
* `Buf.bitOf_u8_shiftLeft_or` — the bits of a byte put together from two neighbouring bytes.
-/

import Mathlib.Data.Nat.Bitwise
import Mathlib.Tactic.Ring

set_option relaxedAutoImplicit false
set_option autoImplicit false

/-- A byte buffer. -/
abbrev Buf := List UInt8

namespace Buf

/-! ### Reading and storing bytes -/

/-- The byte at index `i`; `0` outside the buffer. -/
def rd (b : Buf) (i : ℕ) : UInt8 := b.getD i 0

/-- Storing the byte `v` at index `i`; a store outside the buffer is dropped. -/
def wr (b : Buf) (i : ℕ) (v : UInt8) : Buf := b.set i v

/-- The all-zero buffer of `n` bytes. -/
def zeros (n : ℕ) : Buf := List.replicate n 0

@[simp] theorem length_wr (b : Buf) (i : ℕ) (v : UInt8) : (wr b i v).length = b.length := by
  simp [wr]

@[simp] theorem length_zeros (n : ℕ) : (zeros n).length = n := by simp [zeros]

@[simp] theorem rd_zeros (n i : ℕ) : rd (zeros n) i = 0 := by
  simp only [rd, zeros, List.getD_eq_getElem?_getD, List.getElem?_replicate]
  split <;> rfl

theorem rd_of_length_le {b : Buf} {i : ℕ} (h : b.length ≤ i) : rd b i = 0 := by
  simp [rd, h]

theorem rd_wr (b : Buf) (i j : ℕ) (v : UInt8) :
    rd (wr b i v) j = if j = i ∧ i < b.length then v else rd b j := by
  simp only [rd, wr, List.getD_eq_getElem?_getD, List.getElem?_set]
  by_cases hij : i = j
  · subst hij
    by_cases hi : i < b.length
    · simp [hi]
    · simp [hi]
  · have hji : ¬ j = i := fun h => hij h.symm
    simp [hij, hji]

theorem rd_wr_of_ne (b : Buf) {i j : ℕ} (h : j ≠ i) (v : UInt8) : rd (wr b i v) j = rd b j := by
  simp [rd_wr, h]

/-- Two buffers of one length are equal when all their bytes are. -/
theorem ext_rd {b c : Buf} (hlen : b.length = c.length) (h : ∀ i < b.length, rd b i = rd c i) :
    b = c := by
  refine List.ext_getElem hlen ?_
  intro i h₁ h₂
  have hi := h i h₁
  rwa [rd, rd, List.getD_eq_getElem _ _ h₁, List.getD_eq_getElem _ _ h₂] at hi

/-- The little-endian word whose first `k` bytes lie in the buffer from index `p` on, the other
bytes being zero. -/
def loadWord (b : Buf) (p : ℕ) : ℕ → ℕ
  | 0 => 0
  | k + 1 => (b.rd p).toNat + 256 * loadWord b (p + 1) k

/-- The `n` bytes from index `p` on; bytes outside the buffer read as `0`. -/
def bytesAt (b : Buf) (p n : ℕ) : Buf := (List.range n).map fun i => b.rd (p + i)

/-- `memcpy` of `src` to index `p`; what falls outside the buffer is dropped. -/
def paste (b : Buf) (p : ℕ) (src : Buf) : Buf :=
  b.take p ++ src.take (b.length - p) ++ b.drop (p + src.length)

@[simp] theorem length_paste (b : Buf) (p : ℕ) (src : Buf) : (paste b p src).length = b.length := by
  simp only [paste, List.length_append, List.length_take, List.length_drop]
  omega

theorem take_paste_zero {b src : Buf} (h : src.length ≤ b.length) :
    (paste b 0 src).take src.length = src := by
  rw [paste, List.take_zero, List.nil_append, Nat.sub_zero, List.take_of_length_le h,
    List.take_left' rfl]

theorem rd_append_left {b c : Buf} {i : ℕ} (h : i < b.length) : rd (b ++ c) i = rd b i := by
  simp [rd, List.getElem?_append_left h]

theorem rd_append_right {b c : Buf} {i : ℕ} (h : b.length ≤ i) : rd (b ++ c) i = rd c (i - b.length) := by
  simp [rd, List.getElem?_append_right h]

theorem rd_drop (b : Buf) (k i : ℕ) : rd (b.drop k) i = rd b (k + i) := by
  simp [rd]

theorem rd_take (b : Buf) {k i : ℕ} (h : i < k) : rd (b.take k) i = rd b i := by
  simp [rd, h]

theorem rd_paste (b src : Buf) (p i : ℕ) : rd (paste b p src) i =
    if p ≤ i ∧ i < p + src.length ∧ i < b.length then rd src (i - p) else rd b i := by
  rcases Nat.lt_or_ge i b.length with hb | hb
  · rw [paste, List.append_assoc]
    rcases Nat.lt_or_ge i p with hp | hp
    · rw [if_neg (by omega), rd_append_left (by rw [List.length_take]; omega), rd_take b hp]
    · have htake : (b.take p).length = p := by
        rw [List.length_take]
        omega
      rw [rd_append_right (by omega), htake]
      rcases Nat.lt_or_ge i (p + src.length) with hs | hs
      · rw [if_pos ⟨hp, hs, hb⟩, rd_append_left (by rw [List.length_take]; omega),
          rd_take _ (by omega)]
      · have hsrc : (src.take (b.length - p)).length = src.length := by
          rw [List.length_take]
          omega
        rw [if_neg (by omega), rd_append_right (by omega), hsrc, rd_drop]
        congr 1
        omega
  · rw [if_neg (by omega), rd_of_length_le hb, rd_of_length_le (by rwa [length_paste])]

/-- A byte computed from the old one is stored among the first `k` bytes or dropped. -/
theorem take_wr_rd (b : Buf) (k i : ℕ) (f : UInt8 → UInt8) :
    (b.wr i (f (b.rd i))).take k = wr (b.take k) i (f (rd (b.take k) i)) := by
  rcases Nat.lt_or_ge i k with h | h
  · rw [rd_take b h, wr, wr, List.take_set]
  · have hout : ∀ v, wr (b.take k) i v = b.take k := by
      intro v
      refine List.set_eq_of_length_le ?_
      rw [List.length_take]
      omega
    rw [hout, wr, List.take_set]
    exact hout _

theorem take_paste (b src : Buf) (p k : ℕ) : (b.paste p src).take k = paste (b.take k) p src := by
  refine ext_rd (by simp) fun i hi => ?_
  rw [List.length_take, length_paste] at hi
  rw [rd_take _ (by omega), rd_paste, rd_paste, rd_take b (by omega), List.length_take]
  congr 1
  simp only [eq_iff_iff]
  omega

/-! ### Truncation to a byte -/

/-- Truncation of an integer expression to a byte. -/
def u8 (n : ℕ) : UInt8 := UInt8.ofNat n

/-- The big-endian number in the first `k` bytes. -/
def loadBE (b : Buf) : ℕ → ℕ
  | 0 => 0
  | k + 1 => loadBE b k * 256 + (b.rd k).toNat

/-- The last `k` bytes of a number, the most significant one first. -/
def storeBE (n k : ℕ) : Buf := (List.range k).map fun i => u8 (n >>> (8 * (k - 1 - i)))

theorem toNat_u8 (n : ℕ) : (u8 n).toNat = n % 256 := by simp [u8]

/-- The number depends on its bytes only. -/
theorem loadBE_congr {b c : Buf} {k : ℕ} (h : ∀ i < k, rd b i = rd c i) : loadBE b k = loadBE c k := by
  induction k with
  | zero => rfl
  | succ k ih => rw [loadBE, loadBE, ih fun i hi => h i (Nat.lt_succ_of_lt hi), h k (Nat.lt_succ_self k)]

/-- Two bytes stored at the start of a buffer are read back. -/
theorem loadBE_paste_storeBE {b : Buf} (h : 2 ≤ b.length) (n : ℕ) :
    loadBE (paste b 0 (storeBE n 2)) 2 = n % 2 ^ 16 := by
  obtain ⟨x, y, rest, rfl⟩ : ∃ x y rest, b = x :: y :: rest := by
    match b, h with
    | x :: y :: rest, _ => exact ⟨x, y, rest, rfl⟩
  have hpaste : paste (x :: y :: rest) 0 (storeBE n 2) = u8 (n >>> 8) :: u8 n :: rest := by
    simp [paste, storeBE, List.range_succ]
  rw [hpaste]
  change (0 * 256 + (u8 (n >>> 8)).toNat) * 256 + (u8 n).toNat = _
  rw [toNat_u8, toNat_u8, Nat.shiftRight_eq_div_pow]
  omega

@[simp] theorem u8_toNat (v : UInt8) : u8 v.toNat = v := by simp [u8]

theorem testBit_u8 (n k : ℕ) : (u8 n).toNat.testBit k = (decide (k < 8) && n.testBit k) := by
  rw [toNat_u8, show (256 : ℕ) = 2 ^ 8 from rfl, Nat.testBit_mod_two_pow]

theorem testBit_toNat_of_le (v : UInt8) {k : ℕ} (h : 8 ≤ k) : v.toNat.testBit k = false := by
  rw [← u8_toNat v, testBit_u8]
  simp [Nat.not_lt.2 h]

/-! ### Bits -/

/-- Bit `k` of a byte, counted from the most significant one. -/
def bitOf (v : UInt8) (k : ℕ) : Bool := v.toNat.testBit (7 - k)

/-- Bit `i` of a buffer: bit `i % 8` of byte `i / 8`. -/
def bit (b : Buf) (i : ℕ) : Bool := bitOf (rd b (i / 8)) (i % 8)

@[simp] theorem bitOf_zero (k : ℕ) : bitOf 0 k = false := by simp [bitOf]

theorem bit_of_length_le {b : Buf} {i : ℕ} (h : 8 * b.length ≤ i) : bit b i = false := by
  rw [bit, rd_of_length_le (by omega), bitOf_zero]

@[simp] theorem bit_zeros (n i : ℕ) : bit (zeros n) i = false := by simp [bit]

theorem bit_mul_add (b : Buf) (i : ℕ) {k : ℕ} (hk : k < 8) :
    bit b (8 * i + k) = bitOf (rd b i) k := by
  rw [bit, show (8 * i + k) / 8 = i by omega, show (8 * i + k) % 8 = k by omega]

theorem bit_take (b : Buf) {k i : ℕ} (h : i < 8 * k) : bit (b.take k) i = bit b i := by
  rw [bit, bit, rd_take b (by omega)]

/-- Two bytes are equal when their eight bits are. -/
theorem byte_ext {v w : UInt8} (h : ∀ k < 8, bitOf v k = bitOf w k) : v = w := by
  refine UInt8.toNat_inj.1 (Nat.eq_of_testBit_eq ?_)
  intro k
  by_cases hk : k < 8
  · have := h (7 - k) (by omega)
    simpa [bitOf, show 7 - (7 - k) = k by omega] using this
  · rw [testBit_toNat_of_le _ (by omega), testBit_toNat_of_le _ (by omega)]

/-- Two buffers of one length are equal when all their bits are. -/
theorem ext_bit {b c : Buf} (hlen : b.length = c.length) (h : ∀ i < 8 * b.length, bit b i = bit c i) :
    b = c := by
  refine ext_rd hlen fun i hi => byte_ext fun k hk => ?_
  have hbit := h (8 * i + k) (by omega)
  rwa [bit_mul_add _ _ hk, bit_mul_add _ _ hk] at hbit

/-! ### Bits of the usual byte expressions -/

theorem testBit_255_shiftLeft (m k : ℕ) :
    ((0xff : ℕ) <<< m).testBit k = decide (m ≤ k ∧ k < m + 8) := by
  rw [show (0xff : ℕ) = 2 ^ 8 - 1 from rfl, Nat.testBit_shiftLeft, Nat.testBit_two_pow_sub_one]
  by_cases h : m ≤ k
  · simp only [ge_iff_le, h, decide_true, Bool.true_and, true_and, decide_eq_decide]
    omega
  · simp [h]

theorem testBit_255 (k : ℕ) : (0xff : ℕ).testBit k = decide (k < 8) :=
  Nat.testBit_two_pow_sub_one 8 k

/-- The byte whose first bits are the last `m` bits of `v` and whose other bits are the first
`8 - m` bits of `w`: what a field that straddles a byte boundary looks like after alignment. -/
theorem bitOf_u8_shiftLeft_or {m : ℕ} (hm : m ≤ 8) (v w : UInt8) {k : ℕ} (hk : k < 8) :
    bitOf (u8 (v.toNat <<< m ||| w.toNat >>> (8 - m))) k =
      if k + m < 8 then bitOf v (k + m) else bitOf w (k + m - 8) := by
  simp only [bitOf, testBit_u8, Nat.testBit_or, Nat.testBit_shiftLeft, Nat.testBit_shiftRight]
  by_cases h : k + m < 8
  · have hw : w.toNat.testBit (8 - m + (7 - k)) = false := testBit_toNat_of_le _ (by omega)
    simp [h, hw, show 7 - k < 8 by omega, show m ≤ 7 - k by omega,
      show 7 - k - m = 7 - (k + m) by omega]
  · simp [h, show 7 - k < 8 by omega, show ¬ m ≤ 7 - k by omega,
      show 8 - m + (7 - k) = 7 - (k + m - 8) by omega]

end Buf
