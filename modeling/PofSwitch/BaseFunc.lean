/-
**Bit fields in byte buffers: `pofbf_cover_bit` and `pofbf_copy_bit`.**

Every field the switch matches on, rewrites or outputs is moved by two routines of
`common/pof_basefunc.c`: one copies a bit field out of a buffer into an aligned buffer, the other
covers a bit field of a buffer with an aligned value.  Both work byte by byte with shifts, and
both read `*p` and `*(++p)` in one expression; the two reads are taken from left to right.

A pointer argument is modelled by the buffer that starts at that address.  The word loop of
`pofbf_cover_bit` compares an unsigned counter with `len_b - 8`, which wraps when the field is
shorter than a byte; the counter then runs through all its residues and the loop is never left.
The model gives the loop one turn more than the counter has values and answers `none` when they
are used up.

Main definitions:

* `PofSwitch.pofbfCoverBit`, `PofSwitch.pofbfCopyBit` — the two routines;
* `PofSwitch.FieldFits` — the fields the cover loop handles: not shorter than a byte, or inside
  one byte;
* `PofSwitch.ZeroFrom` — a value whose bits from a given position on are zero;
* `PofSwitch.Leaks` — the bits behind a field that a value reaches.

Main results:

* `PofSwitch.bit_pofbfCopyBit` — the copy holds the bits of the field, then zeros up to the end of
  its last byte;
* `PofSwitch.pofbfCoverBit_bits` — covering a field that fits, bit by bit;
* `PofSwitch.pofbfCoverBit_spec` — **covering a field that fits with a zero-padded value terminates,
  writes the value into the field and changes no other bit;**
* `PofSwitch.pofbfCoverBit_next` — the same for the next field, possibly empty, of a buffer that is
  zero from there on;
* `PofSwitch.pofbfCoverBit_eq_none_iff` — the loop is never left exactly for a field shorter than a
  byte that crosses into the next byte;
* `PofSwitch.pofbfCoverBit_take`, `PofSwitch.pofbfCopyBit_take` — the routines on the first bytes of a
  buffer.
-/

import PofSwitch.ByteBits

set_option relaxedAutoImplicit false
set_option autoImplicit false

namespace PofSwitch

open Buf

/-! ### The two routines -/

/-- `while(process_len_b < (len_b-8)){ *(++ptr) = ...; process_len_b += 8; }` of
`pofbf_cover_bit`.  The state is the destination, the index `ptr` in it, the index `v` in the value
and the counter. -/
def coverLoop (posX bound : ℕ) (value : Buf) : ℕ → Buf → ℕ → ℕ → ℕ → Option (Buf × ℕ × ℕ × ℕ)
  | 0, _, _, _, _ => none
  | fuel + 1, data, ptr, v, process =>
      if process < bound then
        coverLoop posX bound value fuel
          (data.wr (ptr + 1)
            (u8 ((value.rd v).toNat <<< (8 - posX) ||| (value.rd (v + 1)).toNat >>> posX)))
          (ptr + 1) (v + 1) ((process + 8) % 2 ^ 32)
      else some (data, ptr, v, process)

/-- One turn more than the 32-bit counter has values when it advances by eight. -/
def coverFuel : ℕ := 2 ^ 29 + 1

/-- `pofbf_cover_bit`: cover the `len_b` bits of `data_ori` from bit `pos_b` on with the first
bits of `value`.  `none` means that the loop is never left. -/
def pofbfCoverBit (dataOri value : Buf) (posB lenB : UInt16) : Option Buf :=
  let posX := posB.toNat % 8
  -- `(len_b + pos_b - 1) % 8 + 1` on `int`: the remainder of `-1` is `-1`
  let afterX := if lenB.toNat + posB.toNat = 0 then 0 else (lenB.toNat + posB.toNat - 1) % 8 + 1
  let ptr := posB.toNat / 8
  let old := (dataOri.rd ptr).toNat
  let v₀ := (value.rd 0).toNat
  if lenB.toNat ≤ 8 - posX then
    some (dataOri.wr ptr
      (u8 (old &&& 0xff <<< (8 - posX) ||| v₀ >>> posX &&& 0xff <<< (8 - afterX) |||
        old &&& 0xff >>> afterX)))
  else
    let data₁ := dataOri.wr ptr (u8 (old &&& 0xff <<< (8 - posX) ||| v₀ >>> posX))
    -- the `int` `len_b - 8` is converted to unsigned for the comparison
    let bound := (lenB.toNat + 2 ^ 32 - 8) % 2 ^ 32
    (coverLoop posX bound value coverFuel data₁ ptr 0 (8 - posX)).map fun (data, ptr, v, process) =>
      let r := lenB.toNat - process
      data.wr (ptr + 1)
        (u8 ((value.rd v).toNat <<< (8 - posX) |||
            (value.rd (v + 1)).toNat >>> posX &&& 0xff <<< (8 - r) |||
          (data.rd (ptr + 1)).toNat &&& 0xff >>> r))

/-- The copy loop of `pofbf_copy_bit`, `n` turns from index `ptr` of the data and index `i` of the
result. -/
def copyLoop (offX : ℕ) (dataOri : Buf) : ℕ → ℕ → Buf → ℕ → Buf
  | 0, _, res, _ => res
  | n + 1, ptr, res, i =>
      copyLoop offX dataOri n (ptr + 1)
        (res.wr i (u8 ((dataOri.rd ptr).toNat <<< offX |||
          (dataOri.rd (ptr + 1)).toNat >>> (8 - offX)))) (i + 1)

/-- `pofbf_copy_bit`: copy the `len_b` bits of `data_ori` from bit `offset_b` on to the start of
`data_res`.  The loop advances by eight bits while fewer than `len_b` are done, so it makes
`⌈len_b / 8⌉` turns; the bits of the last byte beyond the field are cleared. -/
def pofbfCopyBit (dataOri dataRes : Buf) (offsetB lenB : UInt16) : Buf :=
  let turns := (lenB.toNat + 7) / 8
  let res := copyLoop (offsetB.toNat % 8) dataOri turns (offsetB.toNat / 8) dataRes 0
  -- with `len_b = 0` the last statement masks the byte before the result with `0xff`
  if turns = 0 then res
  else res.wr (turns - 1) (u8 ((res.rd (turns - 1)).toNat &&& 0xff <<< (8 * turns - lenB.toNat)))

/-! ### Copying -/

@[simp] theorem length_copyLoop (offX : ℕ) (d : Buf) (n ptr : ℕ) (res : Buf) (i : ℕ) :
    (copyLoop offX d n ptr res i).length = res.length := by
  induction n generalizing ptr res i with
  | zero => rfl
  | succ n ih => rw [copyLoop, ih, length_wr]

@[simp] theorem length_pofbfCopyBit (d res : Buf) (off len : UInt16) :
    (pofbfCopyBit d res off len).length = res.length := by
  simp only [pofbfCopyBit]
  split <;> simp

/-- The bytes the copy loop has written. -/
theorem rd_copyLoop (offX : ℕ) (d : Buf) (n ptr : ℕ) (res : Buf) (i j : ℕ) :
    (copyLoop offX d n ptr res i).rd j =
      if i ≤ j ∧ j < i + n ∧ j < res.length then
        u8 ((d.rd (ptr + (j - i))).toNat <<< offX |||
          (d.rd (ptr + (j - i) + 1)).toNat >>> (8 - offX))
      else res.rd j := by
  induction n generalizing ptr res i with
  | zero =>
      rw [copyLoop, if_neg (by omega)]
  | succ n ih =>
      rw [copyLoop, ih, length_wr, rd_wr]
      by_cases hji : j = i
      · subst hji
        rw [if_neg (by omega)]
        by_cases hlen : j < res.length
        · simp [hlen]
        · simp [hlen]
      · rw [if_neg (show ¬ (j = i ∧ i < res.length) from fun h => hji h.1)]
        by_cases hin : i ≤ j ∧ j < i + (n + 1) ∧ j < res.length
        · rw [if_pos (by omega), if_pos hin, show ptr + 1 + (j - (i + 1)) = ptr + (j - i) by omega]
        · rw [if_neg (by omega), if_neg hin]

/-- The bits of the copy: the field, then zeros to the end of its last byte, then whatever the
result buffer held. -/
theorem bit_pofbfCopyBit (d res : Buf) (off len : UInt16) (j : ℕ) :
    (pofbfCopyBit d res off len).bit j =
      if j < 8 * ((len.toNat + 7) / 8) ∧ j < 8 * res.length then
        decide (j < len.toNat) && d.bit (off.toNat + j)
      else res.bit j := by
  obtain ⟨q, k, hk, rfl⟩ : ∃ q k, k < 8 ∧ j = 8 * q + k := ⟨j / 8, j % 8, by omega, by omega⟩
  set x := off.toNat % 8 with hx
  set turns := (len.toNat + 7) / 8 with hturns
  -- the byte before masking, and its bits
  have hbyte : ∀ q, q < turns → q < res.length → ∀ k < 8,
      bitOf ((copyLoop x d turns (off.toNat / 8) res 0).rd q) k =
        d.bit (off.toNat + (8 * q + k)) := by
    intro q hq hlen k hk
    rw [rd_copyLoop, if_pos (by omega), bitOf_u8_shiftLeft_or (by omega) _ _ hk]
    by_cases hc : k + x < 8
    · rw [if_pos hc, ← bit_mul_add _ _ hc]
      congr 1
      omega
    · rw [if_neg hc, ← bit_mul_add _ _ (by omega)]
      congr 1
      omega
  rw [bit_mul_add _ _ hk]
  simp only [pofbfCopyBit, ← hturns, ← hx]
  by_cases h0 : turns = 0
  · rw [if_pos h0, if_neg (by omega), h0, copyLoop, bit_mul_add _ _ hk]
  · rw [if_neg h0, rd_wr, length_copyLoop]
    by_cases hlast : q = turns - 1 ∧ turns - 1 < res.length
    · obtain ⟨rfl, hlen⟩ := hlast
      rw [if_pos ⟨rfl, hlen⟩, if_pos (by omega)]
      have hb := hbyte (turns - 1) (by omega) hlen k hk
      simp only [bitOf, testBit_u8, Nat.testBit_and, testBit_255_shiftLeft] at hb ⊢
      rw [hb, show decide (7 - k < 8) = true by simp; omega, Bool.true_and, Bool.and_comm]
      congr 1
      simp only [decide_eq_decide]
      omega
    · rw [if_neg hlast]
      by_cases hin : 8 * q + k < 8 * turns ∧ 8 * q + k < 8 * res.length
      · rw [if_pos hin, hbyte q (by omega) (by omega) k hk]
        simp [show 8 * q + k < len.toNat by omega]
      · rw [if_neg hin, rd_copyLoop, if_neg (by omega), bit_mul_add _ _ hk]

/-! ### Covering -/

/-- The bytes the word loop stores: `q` of them behind index `ptr`, built from the value behind
index `v`. -/
def coverBytes (posX : ℕ) (value : Buf) : ℕ → Buf → ℕ → ℕ → Buf
  | 0, data, _, _ => data
  | q + 1, data, ptr, v =>
      coverBytes posX value q
        (data.wr (ptr + 1)
          (u8 ((value.rd v).toNat <<< (8 - posX) ||| (value.rd (v + 1)).toNat >>> posX)))
        (ptr + 1) (v + 1)

@[simp] theorem length_coverBytes (posX : ℕ) (value : Buf) (q : ℕ) (data : Buf) (ptr v : ℕ) :
    (coverBytes posX value q data ptr v).length = data.length := by
  induction q generalizing data ptr v with
  | zero => rfl
  | succ q ih => rw [coverBytes, ih, length_wr]

theorem rd_coverBytes (posX : ℕ) (value : Buf) (q : ℕ) (data : Buf) (ptr v i : ℕ) :
    (coverBytes posX value q data ptr v).rd i =
      if ptr < i ∧ i ≤ ptr + q ∧ i < data.length then
        u8 ((value.rd (v + (i - ptr - 1))).toNat <<< (8 - posX) |||
          (value.rd (v + (i - ptr))).toNat >>> posX)
      else data.rd i := by
  induction q generalizing data ptr v with
  | zero => rw [coverBytes, if_neg (by omega)]
  | succ q ih =>
      rw [coverBytes, ih, length_wr, rd_wr]
      by_cases hi : i = ptr + 1
      · subst hi
        rw [if_neg (by omega)]
        by_cases hlen : ptr + 1 < data.length
        · simp [hlen]
        · simp [hlen]
      · rw [if_neg (show ¬ (i = ptr + 1 ∧ ptr + 1 < data.length) from fun h => hi h.1)]
        by_cases hin : ptr < i ∧ i ≤ ptr + (q + 1) ∧ i < data.length
        · rw [if_pos (by omega), if_pos hin,
            show v + 1 + (i - (ptr + 1) - 1) = v + (i - ptr - 1) by omega,
            show v + 1 + (i - (ptr + 1)) = v + (i - ptr) by omega]
        · rw [if_neg (by omega), if_neg hin]

/-- The word loop is left after `q` turns, `q` being the number of turns its counter needs to
reach the bound. -/
theorem coverLoop_eq (posX bound : ℕ) (value : Buf) (hb : bound + 8 ≤ 2 ^ 32) :
    ∀ (q fuel : ℕ) (data : Buf) (ptr v process : ℕ), q < fuel → bound ≤ process + 8 * q →
      (0 < q → process + 8 * q < bound + 8) →
      coverLoop posX bound value fuel data ptr v process =
        some (coverBytes posX value q data ptr v, ptr + q, v + q, process + 8 * q) := by
  intro q
  induction q with
  | zero =>
      intro fuel data ptr v process hfuel hge _
      obtain ⟨f, rfl⟩ : ∃ f, fuel = f + 1 := ⟨fuel - 1, by omega⟩
      rw [coverLoop, if_neg (by omega)]
      rfl
  | succ q ih =>
      intro fuel data ptr v process hfuel hge hlt
      have hlt := hlt (by omega)
      obtain ⟨f, rfl⟩ : ∃ f, fuel = f + 1 := ⟨fuel - 1, by omega⟩
      rw [coverLoop, if_pos (by omega), Nat.mod_eq_of_lt (by omega),
        ih f _ _ _ _ (by omega) (by omega) (fun _ => by omega), coverBytes]
      congr 3
      · omega
      · congr 1 <;> omega

/-- With a bound that wrapped, the counter never reaches it. -/
theorem coverLoop_eq_none (posX : ℕ) (value : Buf) {len r : ℕ} (hr : r < len) (hlen : len < 8) :
    ∀ (fuel : ℕ) (data : Buf) (ptr v process : ℕ), process % 8 = r → process < 2 ^ 32 →
      coverLoop posX (2 ^ 32 - 8 + len) value fuel data ptr v process = none := by
  intro fuel
  induction fuel with
  | zero =>
      intro data ptr v process _ _
      rfl
  | succ fuel ih =>
      intro data ptr v process hmod hlt
      rw [coverLoop, if_pos (by omega)]
      exact ih _ _ _ _ (by omega) (Nat.mod_lt _ (by omega))

theorem length_coverLoop {posX bound : ℕ} {value : Buf} {fuel : ℕ} {data : Buf} {ptr v process : ℕ}
    {r : Buf × ℕ × ℕ × ℕ} (h : coverLoop posX bound value fuel data ptr v process = some r) :
    r.1.length = data.length := by
  induction fuel generalizing data ptr v process with
  | zero => simp [coverLoop] at h
  | succ fuel ih =>
      rw [coverLoop] at h
      split_ifs at h with hlt
      · rw [ih h, length_wr]
      · cases h
        rfl

/-- Covering keeps the length of the buffer. -/
theorem length_pofbfCoverBit {d d' value : Buf} {pos len : UInt16}
    (h : pofbfCoverBit d value pos len = some d') : d'.length = d.length := by
  simp only [pofbfCoverBit] at h
  split_ifs at h with h₁ h₂
  · cases h
    exact length_wr _ _ _
  · cases h
    exact length_wr _ _ _
  all_goals
    obtain ⟨⟨data, ptr, v, process⟩, hloop, rfl⟩ := Option.map_eq_some_iff.1 h
    have hlen := length_coverLoop hloop
    rw [length_wr] at hlen
    exact (length_wr _ _ _).trans hlen

/-- The loop writes behind `ptr`. -/
theorem rd_coverLoop_of_le {posX bound : ℕ} {value : Buf} {i : ℕ} : ∀ {fuel : ℕ} {data : Buf}
    {ptr v process : ℕ} {data' : Buf} {ptr' v' process' : ℕ}, i ≤ ptr →
    coverLoop posX bound value fuel data ptr v process = some (data', ptr', v', process') →
    data'.rd i = data.rd i ∧ i ≤ ptr' := by
  intro fuel
  induction fuel with
  | zero =>
      intro data ptr v process data' ptr' v' process' _ h
      cases h
  | succ fuel ih =>
      intro data ptr v process data' ptr' v' process' hi h
      rw [coverLoop] at h
      split_ifs at h with hmore
      · obtain ⟨hrd, hle⟩ := ih (Nat.le_succ_of_le hi) h
        rw [rd_wr_of_ne _ (by omega)] at hrd
        exact ⟨hrd, hle⟩
      · cases h
        exact ⟨rfl, hi⟩

/-- Covering leaves the bytes in front of the field alone. -/
theorem rd_pofbfCoverBit_of_lt {d d' value : Buf} {pos len : UInt16} {i : ℕ}
    (h : pofbfCoverBit d value pos len = some d') (hi : i < pos.toNat / 8) : d'.rd i = d.rd i := by
  simp only [pofbfCoverBit] at h
  split_ifs at h
  · cases h
    exact rd_wr_of_ne _ (by omega) _
  · cases h
    exact rd_wr_of_ne _ (by omega) _
  all_goals
    obtain ⟨⟨data, ptr, v, process⟩, hloop, rfl⟩ := Option.map_eq_some_iff.1 h
    obtain ⟨hrd, hle⟩ := rd_coverLoop_of_le hi.le hloop
    dsimp only
    rw [rd_wr_of_ne _ (by omega), hrd, rd_wr_of_ne _ (by omega)]

/-- **The word loop is never left exactly when the field is shorter than a byte and crosses into the
next one.** -/
theorem pofbfCoverBit_eq_none_iff (d value : Buf) (pos len : UInt16) :
    pofbfCoverBit d value pos len = none ↔ ¬ (8 ≤ len.toNat ∨ pos.toNat % 8 + len.toNat ≤ 8) := by
  simp only [pofbfCoverBit]
  by_cases hin : len.toNat ≤ 8 - pos.toNat % 8
  · rw [if_pos hin]
    simp only [reduceCtorEq, false_iff, not_not]
    exact Or.inr (by omega)
  · rw [if_neg hin, Option.map_eq_none_iff]
    have hmax := len.toNat_lt
    rcases Nat.lt_or_ge len.toNat 8 with hshort | hlong
    · have hbound : (len.toNat + 2 ^ 32 - 8) % 2 ^ 32 = 2 ^ 32 - 8 + len.toNat := by omega
      rw [hbound]
      refine iff_of_true ?_ (by omega)
      exact coverLoop_eq_none _ _ (r := 8 - pos.toNat % 8) (by omega) hshort _ _ _ _ _
        (Nat.mod_eq_of_lt (by omega)) (by omega)
    · have hbound : (len.toNat + 2 ^ 32 - 8) % 2 ^ 32 = len.toNat - 8 := by omega
      rw [hbound]
      refine iff_of_false ?_ (not_not.2 (Or.inl hlong))
      -- the number of turns until the counter reaches the bound
      have hturns := coverLoop_eq (pos.toNat % 8) (len.toNat - 8) value (by omega)
        ((len.toNat - 8 - (8 - pos.toNat % 8) + 7) / 8) coverFuel
        (d.wr (pos.toNat / 8) (u8 ((d.rd (pos.toNat / 8)).toNat &&& 0xff <<< (8 - pos.toNat % 8) |||
          (value.rd 0).toNat >>> (pos.toNat % 8)))) (pos.toNat / 8) 0 (8 - pos.toNat % 8)
        (by rw [coverFuel]; omega) (by omega) (by omega)
      rw [hturns]
      exact Option.some_ne_none _

/-- The bits of the value from position `n` on are zero. -/
def ZeroFrom (value : Buf) (n : ℕ) : Prop := ∀ j, n ≤ j → value.bit j = false

/-- A field the cover loop handles: at least a byte long, or non-empty and inside one byte. -/
def FieldFits (pos len : ℕ) : Prop := 8 ≤ len ∨ 1 ≤ len ∧ pos % 8 + len ≤ 8

instance (pos len : ℕ) : Decidable (FieldFits pos len) := by
  unfold FieldFits
  infer_instance

/-- The byte a field inside one byte is covered in: the old bits before the field, the first bits
of the value, the old bits behind it. -/
theorem bitOf_cover_single (old v : UInt8) {x len k : ℕ} (hlen : 1 ≤ len) (hx : x + len ≤ 8)
    (hk : k < 8) :
    bitOf (u8 (old.toNat &&& 0xff <<< (8 - x) ||| v.toNat >>> x &&& 0xff <<< (8 - (x + len)) |||
        old.toNat &&& 0xff >>> (x + len))) k =
      if x ≤ k ∧ k < x + len then bitOf v (k - x) else bitOf old k := by
  simp only [bitOf, testBit_u8, Nat.testBit_or, Nat.testBit_and, testBit_255_shiftLeft,
    testBit_255, Nat.testBit_shiftRight, show 7 - k < 8 by omega, decide_true,
    Bool.true_and]
  by_cases h₁ : x ≤ k
  · by_cases h₂ : k < x + len
    · simp [h₁, h₂, show ¬ 8 - x ≤ 7 - k by omega, show 8 - (x + len) ≤ 7 - k by omega,
        show 7 - k < 8 - (x + len) + 8 by omega, show ¬ x + len + (7 - k) < 8 by omega,
        show x + (7 - k) = 7 - (k - x) by omega]
    · simp [h₁, h₂, show ¬ 8 - x ≤ 7 - k by omega, show ¬ 8 - (x + len) ≤ 7 - k by omega,
        show x + len + (7 - k) < 8 by omega]
  · have hv : v.toNat.testBit (x + (7 - k)) = false := testBit_toNat_of_le _ (by omega)
    simp [h₁, hv, show 8 - x ≤ 7 - k by omega, show 7 - k < 8 - x + 8 by omega,
      show ¬ x + len + (7 - k) < 8 by omega]

/-- The first byte of a field that goes on into the next byte. -/
theorem bitOf_cover_first (old v : UInt8) {x k : ℕ} (hx : x < 8) (hk : k < 8) :
    bitOf (u8 (old.toNat &&& 0xff <<< (8 - x) ||| v.toNat >>> x)) k =
      if x ≤ k then bitOf v (k - x) else bitOf old k := by
  simp only [bitOf, testBit_u8, Nat.testBit_or, Nat.testBit_and, testBit_255_shiftLeft,
    Nat.testBit_shiftRight, show 7 - k < 8 by omega, decide_true, Bool.true_and]
  by_cases h₁ : x ≤ k
  · simp [h₁, show ¬ 8 - x ≤ 7 - k by omega, show x + (7 - k) = 7 - (k - x) by omega]
  · have hv : v.toNat.testBit (x + (7 - k)) = false := testBit_toNat_of_le _ (by omega)
    simp [h₁, hv, show 8 - x ≤ 7 - k by omega, show 7 - k < 8 - x + 8 by omega]

/-- The last byte of a field that started in an earlier byte, `r` bits of which belong to the
field.  The left part of the expression is not masked: the bits of `v` behind the field are mixed
with the old ones. -/
theorem bitOf_cover_last (old v w : UInt8) {x r k : ℕ} (hx : x < 8) (hr₁ : 1 ≤ r) (hr : r ≤ 8)
    (hk : k < 8) :
    bitOf (u8 (v.toNat <<< (8 - x) ||| w.toNat >>> x &&& 0xff <<< (8 - r) |||
        old.toNat &&& 0xff >>> r)) k =
      if k < r then (if k < x then bitOf v (k + (8 - x)) else bitOf w (k - x))
      else if k < x then bitOf v (k + (8 - x)) || bitOf old k else bitOf old k := by
  have hleft : (v.toNat <<< (8 - x)).testBit (7 - k) =
      if k < x then bitOf v (k + (8 - x)) else false := by
    rw [Nat.testBit_shiftLeft]
    by_cases h : k < x
    · simp [bitOf, h, show 8 - x ≤ 7 - k by omega,
        show 7 - k - (8 - x) = 7 - (k + (8 - x)) by omega]
    · simp [h, show ¬ 8 - x ≤ 7 - k by omega]
  simp only [bitOf, testBit_u8, Nat.testBit_or, Nat.testBit_and, testBit_255_shiftLeft,
    testBit_255, Nat.testBit_shiftRight, show 7 - k < 8 by omega, decide_true,
    Bool.true_and, hleft]
  by_cases h₁ : k < r
  · by_cases h₂ : k < x
    · have hw : w.toNat.testBit (x + (7 - k)) = false := testBit_toNat_of_le _ (by omega)
      simp [h₁, h₂, hw, show ¬ r + (7 - k) < 8 by omega]
    · simp [h₁, h₂, show 8 - r ≤ 7 - k by omega, show 7 - k < 8 - r + 8 by omega,
        show ¬ r + (7 - k) < 8 by omega, show x + (7 - k) = 7 - (k - x) by omega]
  · by_cases h₂ : k < x
    · simp [h₁, h₂, show ¬ 8 - r ≤ 7 - k by omega, show r + (7 - k) < 8 by omega]
    · simp [h₁, h₂, show ¬ 8 - r ≤ 7 - k by omega, show r + (7 - k) < 8 by omega]

/-- The bits behind a field that the value reaches: those in the last byte of the field, up to the
bit number at which the field begins in its first byte. -/
def Leaks (pos len i : ℕ) : Prop := pos + len ≤ i ∧ i < 8 * ((pos + len - 1) / 8) + pos % 8

instance (pos len i : ℕ) : Decidable (Leaks pos len i) := inferInstanceAs (Decidable (_ ∧ _))

/-- Covering inside one byte. -/
theorem pofbfCoverBit_single {d value : Buf} {pos len : UInt16} (h₁ : 1 ≤ len.toNat)
    (h₂ : pos.toNat % 8 + len.toNat ≤ 8) :
    ∃ d', pofbfCoverBit d value pos len = some d' ∧ d'.length = d.length ∧
      ∀ i, d'.bit i =
        if pos.toNat ≤ i ∧ i < pos.toNat + len.toNat ∧ i < 8 * d.length then
          value.bit (i - pos.toNat)
        else d.bit i := by
  have hafter : (len.toNat + pos.toNat - 1) % 8 + 1 = pos.toNat % 8 + len.toNat := by omega
  refine ⟨_, by simp only [pofbfCoverBit]; rw [if_pos (by omega)], by simp, ?_⟩
  intro i
  obtain ⟨q, k, hk, rfl⟩ : ∃ q k, k < 8 ∧ i = 8 * q + k := ⟨i / 8, i % 8, by omega, by omega⟩
  rw [bit_mul_add _ _ hk, bit_mul_add _ _ hk, rd_wr, if_neg (show ¬ len.toNat + pos.toNat = 0 by
    omega), hafter]
  by_cases hq : q = pos.toNat / 8 ∧ pos.toNat / 8 < d.length
  · obtain ⟨rfl, hlen⟩ := hq
    rw [if_pos ⟨rfl, hlen⟩, bitOf_cover_single _ _ h₁ h₂ hk]
    by_cases hin : pos.toNat % 8 ≤ k ∧ k < pos.toNat % 8 + len.toNat
    · rw [if_pos hin, if_pos (by omega), show 8 * (pos.toNat / 8) + k - pos.toNat
        = 8 * 0 + (k - pos.toNat % 8) by omega, bit_mul_add _ _ (by omega)]
    · rw [if_neg hin, if_neg (by omega)]
  · rw [if_neg hq, if_neg (by omega)]

/-- The buffer that `pofbf_cover_bit` leaves when the field ends in a later byte than it starts: the first
byte, `q` turns of the word loop, and the last byte with the `r` bits that are left. -/
theorem pofbfCoverBit_bytes_of_cross (d value : Buf) {pos len : UInt16} (h₈ : 8 ≤ len.toNat)
    (hcross : 8 < pos.toNat % 8 + len.toNat) {x P : ℕ} (hx : x = pos.toNat % 8) (hP : P = pos.toNat / 8) :
    ∃ q r, 1 ≤ r ∧ r ≤ 8 ∧ len.toNat = 8 - x + 8 * q + r ∧
      pofbfCoverBit d value pos len = some ((coverBytes x value q
        (d.wr P (u8 ((d.rd P).toNat &&& 0xff <<< (8 - x) ||| (value.rd 0).toNat >>> x))) P 0).wr (P + q + 1)
          (u8 ((value.rd q).toNat <<< (8 - x) ||| (value.rd (q + 1)).toNat >>> x &&& 0xff <<< (8 - r) |||
            (d.rd (P + q + 1)).toNat &&& 0xff >>> r))) := by
  have hpos := pos.toNat_lt
  have hlen := len.toNat_lt
  obtain ⟨q, r, hr₁, hr₈, hqr⟩ : ∃ q r, 1 ≤ r ∧ r ≤ 8 ∧ len.toNat = 8 - x + 8 * q + r :=
    ⟨(len.toNat - (8 - x) - 1) / 8, (len.toNat - (8 - x) - 1) % 8 + 1, by omega, by omega,
      by omega⟩
  have hloop := coverLoop_eq x (len.toNat - 8) value (by omega) q coverFuel
    (d.wr P (u8 ((d.rd P).toNat &&& 0xff <<< (8 - x) ||| (value.rd 0).toNat >>> x))) P 0 (8 - x)
    (by unfold coverFuel; omega) (by omega) (fun _ => by omega)
  have hbound : (len.toNat + 2 ^ 32 - 8) % 2 ^ 32 = len.toNat - 8 := by omega
  set e := coverBytes x value q
    (d.wr P (u8 ((d.rd P).toNat &&& 0xff <<< (8 - x) ||| (value.rd 0).toNat >>> x))) P 0 with he
  have hlast_rd : e.rd (P + q + 1) = d.rd (P + q + 1) := by
    rw [he, rd_coverBytes, if_neg (by omega), rd_wr_of_ne _ (by omega)]
  refine ⟨q, r, hr₁, hr₈, hqr, ?_⟩
  simp only [pofbfCoverBit, ← hx, ← hP]
  rw [if_neg (by omega), hbound, hloop]
  simp only [Option.map_some, Nat.zero_add, hlast_rd]
  rw [show len.toNat - (8 - x + 8 * q) = r by omega]

/-- Covering across a byte boundary: the first byte, the bytes of the word loop and the last byte
hold the bits of the value, and some bits behind the field are mixed with it. -/
theorem pofbfCoverBit_multi {d value : Buf} {pos len : UInt16} (h₈ : 8 ≤ len.toNat)
    (hcross : 8 < pos.toNat % 8 + len.toNat) :
    ∃ d', pofbfCoverBit d value pos len = some d' ∧ d'.length = d.length ∧
      ∀ i, d'.bit i =
        if pos.toNat ≤ i ∧ i < pos.toNat + len.toNat ∧ i < 8 * d.length then
          value.bit (i - pos.toNat)
        else if Leaks pos.toNat len.toNat i ∧ i < 8 * d.length then
          value.bit (i - pos.toNat) || d.bit i
        else d.bit i := by
  have hpos := pos.toNat_lt
  have hlen := len.toNat_lt
  set x := pos.toNat % 8 with hx
  set P := pos.toNat / 8 with hP
  obtain ⟨q, r, hr₁, hr₈, hqr, hrun⟩ := pofbfCoverBit_bytes_of_cross d value h₈ hcross hx hP
  set e := coverBytes x value q
    (d.wr P (u8 ((d.rd P).toNat &&& 0xff <<< (8 - x) ||| (value.rd 0).toNat >>> x))) P 0 with he
  have helen : e.length = d.length := by simp [he]
  refine ⟨_, hrun, by rw [length_wr, helen], ?_⟩
  intro i
  obtain ⟨j, k, hk, rfl⟩ : ∃ j k, k < 8 ∧ i = 8 * j + k := ⟨i / 8, i % 8, by omega, by omega⟩
  rw [bit_mul_add _ _ hk, bit_mul_add _ _ hk, rd_wr, helen]
  by_cases hlast : j = P + q + 1 ∧ P + q + 1 < d.length
  · have hend : (pos.toNat + len.toNat - 1) / 8 = P + q + 1 := by omega
    rw [if_pos hlast, bitOf_cover_last _ _ _ (by omega) hr₁ hr₈ hk, hlast.1]
    simp only [Leaks, hend, ← hx]
    by_cases hkr : k < r
    · by_cases hkx : k < x
      · rw [if_pos hkr, if_pos hkx, if_pos (by omega), ← bit_mul_add value q (by omega)]
        exact congrArg value.bit (by omega)
      · rw [if_pos hkr, if_neg hkx, if_pos (by omega), ← bit_mul_add value (q + 1) (by omega)]
        exact congrArg value.bit (by omega)
    · by_cases hkx : k < x
      · rw [if_neg hkr, if_pos hkx, if_neg (by omega), if_pos (by omega),
          ← bit_mul_add value q (by omega),
          show 8 * q + (k + (8 - x)) = 8 * (P + q + 1) + k - pos.toNat by omega]
      · rw [if_neg hkr, if_neg hkx, if_neg (by omega), if_neg (by omega)]
  · have hclean : ¬ (Leaks pos.toNat len.toNat (8 * j + k) ∧ 8 * j + k < 8 * d.length) := by
      rintro ⟨⟨_, _⟩, _⟩
      omega
    rw [if_neg hlast, he, rd_coverBytes, length_wr, if_neg hclean]
    by_cases hmid : P < j ∧ j ≤ P + q ∧ j < d.length
    · have hbyte := bitOf_u8_shiftLeft_or (show 8 - x ≤ 8 by omega) (value.rd (0 + (j - P - 1)))
        (value.rd (0 + (j - P))) hk
      rw [show 8 - (8 - x) = x by omega] at hbyte
      rw [if_pos hmid, hbyte]
      by_cases hkx : k + (8 - x) < 8
      · rw [if_pos hkx, if_pos (by omega), ← bit_mul_add value _ hkx]
        exact congrArg value.bit (by omega)
      · rw [if_neg hkx, if_pos (by omega), ← bit_mul_add value _ (by omega)]
        exact congrArg value.bit (by omega)
    · rw [if_neg hmid, rd_wr]
      by_cases hfirst : j = P ∧ P < d.length
      · rw [if_pos hfirst, bitOf_cover_first _ _ (by omega) hk, hfirst.1]
        by_cases hkx : x ≤ k
        · rw [if_pos hkx, if_pos (by omega), ← bit_mul_add value 0 (by omega)]
          exact congrArg value.bit (by omega)
        · rw [if_neg hkx, if_neg (by omega)]
      · rw [if_neg hfirst, if_neg (by omega)]

/-- **Covering a field that fits terminates and writes the value into the field;** the bits of the
value behind the field reach a few bits behind it. -/
theorem pofbfCoverBit_bits (d value : Buf) {pos len : UInt16}
    (hfit : FieldFits pos.toNat len.toNat) :
    ∃ d', pofbfCoverBit d value pos len = some d' ∧ d'.length = d.length ∧
      ∀ i, d'.bit i =
        if pos.toNat ≤ i ∧ i < pos.toNat + len.toNat ∧ i < 8 * d.length then
          value.bit (i - pos.toNat)
        else if Leaks pos.toNat len.toNat i ∧ i < 8 * d.length then
          value.bit (i - pos.toNat) || d.bit i
        else d.bit i := by
  rcases Nat.lt_or_ge 8 (pos.toNat % 8 + len.toNat) with hcross | hin
  · rcases hfit with h₈ | ⟨_, hin⟩
    · exact pofbfCoverBit_multi h₈ hcross
    · omega
  · have h₁ : 1 ≤ len.toNat := by
      rcases hfit with h₈ | ⟨h₁, _⟩ <;> omega
    obtain ⟨d', hd', hlen, hbits⟩ := pofbfCoverBit_single h₁ hin
    refine ⟨d', hd', hlen, fun i => ?_⟩
    have hclean : ¬ (Leaks pos.toNat len.toNat i ∧ i < 8 * d.length) := by
      rintro ⟨⟨_, _⟩, _⟩
      omega
    rw [hbits, if_neg hclean]

/-- **Covering a field that fits with a zero-padded value terminates, writes the value into the
field and changes no other bit.** -/
theorem pofbfCoverBit_spec {d value : Buf} {pos len : UInt16}
    (hfit : FieldFits pos.toNat len.toNat) (hz : ZeroFrom value len.toNat) :
    ∃ d', pofbfCoverBit d value pos len = some d' ∧ d'.length = d.length ∧
      ∀ i, d'.bit i =
        if pos.toNat ≤ i ∧ i < pos.toNat + len.toNat ∧ i < 8 * d.length then
          value.bit (i - pos.toNat)
        else d.bit i := by
  obtain ⟨d', hd', hlen, hbits⟩ := pofbfCoverBit_bits d value hfit
  refine ⟨d', hd', hlen, fun i => ?_⟩
  rw [hbits]
  refine if_congr Iff.rfl rfl ?_
  split_ifs with hleak
  · rw [hz _ (by have := hleak.1.1; omega), Bool.false_or]
  · rfl

/-- The copy of a field has no bits beyond the field. -/
theorem zeroFrom_pofbfCopyBit (source : Buf) (n : ℕ) (off len : UInt16) :
    ZeroFrom (pofbfCopyBit source (Buf.zeros n) off len) len.toNat := by
  intro j hj
  rw [bit_pofbfCopyBit, bit_zeros, decide_eq_false (Nat.not_lt.2 hj), Bool.false_and, ite_self]

/-- Covering an empty field writes zeros where zeros are. -/
theorem pofbfCoverBit_empty {d value : Buf} {pos len : UInt16} (hlen : len.toNat = 0)
    (hz : ZeroFrom value 0) (hd : ZeroFrom d pos.toNat) :
    ∃ d', pofbfCoverBit d value pos len = some d' ∧ d'.length = d.length ∧
      ∀ i, d'.bit i = d.bit i := by
  have hv : value.rd 0 = 0 := by
    refine byte_ext fun k hk => ?_
    rw [← bit_mul_add value 0 hk, hz _ (Nat.zero_le _), bitOf_zero]
  refine ⟨_, by simp only [pofbfCoverBit, hlen]; rw [if_pos (Nat.zero_le _)], by simp, ?_⟩
  intro i
  obtain ⟨q, k, hk, rfl⟩ : ∃ q k, k < 8 ∧ i = 8 * q + k := ⟨i / 8, i % 8, by omega, by omega⟩
  rw [bit_mul_add _ _ hk, bit_mul_add _ _ hk, rd_wr, hv]
  -- the number of bits behind the field does not matter
  generalize (if 0 + pos.toNat = 0 then 0 else (0 + pos.toNat - 1) % 8 + 1) = afterX
  split_ifs with hq
  · obtain ⟨rfl, _⟩ := hq
    simp only [bitOf, testBit_u8, Nat.testBit_or, Nat.testBit_and, testBit_255_shiftLeft,
      UInt8.toNat_zero, Nat.zero_shiftRight, Nat.zero_testBit, Bool.false_and, Bool.or_false]
    rcases Nat.lt_or_ge k (pos.toNat % 8) with hkx | hkx
    · have hin : 8 - pos.toNat % 8 ≤ 7 - k ∧ 7 - k < 8 - pos.toNat % 8 + 8 := by omega
      have hlt : 7 - k < 8 := by omega
      simp only [hlt, hin, and_self, decide_true, Bool.and_true, Bool.true_and]
      cases (d.rd (pos.toNat / 8)).toNat.testBit (7 - k) <;> simp
    · have hzero := hd (8 * (pos.toNat / 8) + k) (by omega)
      rw [bit_mul_add _ _ hk, bitOf] at hzero
      simp [hzero]
  · rfl

/-- **Covering the next field of a buffer that is zero from there on**: the field is at least a byte
long or lies inside one byte, and may be empty. -/
theorem pofbfCoverBit_next {d value : Buf} {pos len : UInt16}
    (hfit : 8 ≤ len.toNat ∨ pos.toNat % 8 + len.toNat ≤ 8) (hz : ZeroFrom value len.toNat)
    (hd : ZeroFrom d pos.toNat) :
    ∃ d', pofbfCoverBit d value pos len = some d' ∧ d'.length = d.length ∧
      ∀ i, d'.bit i =
        if pos.toNat ≤ i ∧ i < pos.toNat + len.toNat ∧ i < 8 * d.length then
          value.bit (i - pos.toNat)
        else d.bit i := by
  rcases Nat.eq_zero_or_pos len.toNat with hzero | hpos
  · obtain ⟨d', hd', hlen, hbits⟩ := pofbfCoverBit_empty hzero (hzero ▸ hz) hd
    refine ⟨d', hd', hlen, fun i => ?_⟩
    rw [hbits, if_neg (by omega)]
  · exact pofbfCoverBit_spec (hfit.imp_right fun h => ⟨hpos, h⟩) hz

/-! ### The first bytes of a buffer -/

theorem coverLoop_take (posX bound : ℕ) (value : Buf) (k : ℕ) : ∀ (fuel : ℕ) (data : Buf)
    (ptr v process : ℕ), coverLoop posX bound value fuel (data.take k) ptr v process =
      (coverLoop posX bound value fuel data ptr v process).map fun r => (r.1.take k, r.2) := by
  intro fuel
  induction fuel with
  | zero =>
      intro data ptr v process
      rfl
  | succ fuel ih =>
      intro data ptr v process
      rw [coverLoop, coverLoop]
      split
      · rw [← ih]
        congr 1
        exact (take_wr_rd data k (ptr + 1) fun _ => _).symm
      · rfl

/-- **Covering a field of the first `k` bytes** is covering it in the whole buffer. -/
theorem pofbfCoverBit_take (d value : Buf) (pos len : UInt16) (k : ℕ) :
    pofbfCoverBit (d.take k) value pos len = (pofbfCoverBit d value pos len).map (List.take k) := by
  simp only [pofbfCoverBit]
  by_cases hin : len.toNat ≤ 8 - pos.toNat % 8
  · rw [if_pos hin, if_pos hin, Option.map_some]
    generalize (if len.toNat + pos.toNat = 0 then 0 else (len.toNat + pos.toNat - 1) % 8 + 1) = afterX
    rw [take_wr_rd d k (pos.toNat / 8) fun old =>
      u8 (old.toNat &&& 0xff <<< (8 - pos.toNat % 8) |||
        (value.rd 0).toNat >>> (pos.toNat % 8) &&& 0xff <<< (8 - afterX) ||| old.toNat &&& 0xff >>> afterX)]
  · rw [if_neg hin, if_neg hin, ← take_wr_rd d k (pos.toNat / 8) fun old =>
      u8 (old.toNat &&& 0xff <<< (8 - pos.toNat % 8) ||| (value.rd 0).toNat >>> (pos.toNat % 8)),
      coverLoop_take, Option.map_map, Option.map_map]
    congr 1
    funext r
    obtain ⟨data, ptr, v, process⟩ := r
    exact (take_wr_rd data k (ptr + 1) fun old =>
      u8 ((value.rd v).toNat <<< (8 - pos.toNat % 8) |||
        (value.rd (v + 1)).toNat >>> (pos.toNat % 8) &&& 0xff <<< (8 - (len.toNat - process)) |||
          old.toNat &&& 0xff >>> (len.toNat - process))).symm

/-- A field inside the first `k` bytes is copied from them. -/
theorem pofbfCopyBit_take (d res : Buf) {off len : UInt16} {k : ℕ} (h : off.toNat + len.toNat ≤ 8 * k) :
    pofbfCopyBit (d.take k) res off len = pofbfCopyBit d res off len := by
  refine ext_rd (by simp) fun i _ => byte_ext fun j hj => ?_
  rw [← bit_mul_add _ _ hj, ← bit_mul_add _ _ hj, bit_pofbfCopyBit, bit_pofbfCopyBit]
  split
  · by_cases hlen : 8 * i + j < len.toNat
    · rw [bit_take d (by omega)]
    · simp [hlen]
  · rfl

end PofSwitch
