/-
**The checksum of a packet.**

`calChecksum` clears the checksum field, adds up the complements of the words of a region with an
end-around carry and stores the sum in the field.  When the field is one of the words, the words of the
region then add up to a multiple of `2 ^ c - 1`, which is what the receiver tests.

Main definitions:

* `PofSwitch.carryAdd` — addition of `c`-bit numbers with an end-around carry;
* `PofSwitch.wordSum` — the sum of consecutive words of a buffer;
* `PofSwitch.onesSum` — the one's-complement sum of a list of numbers.

Main results:

* `PofSwitch.checksumLoop_modEq` — the loop of `checksum` is a sum modulo `2 ^ c - 1`;
* `PofSwitch.calChecksum_correct` — **the words of the region add up to zero modulo `2 ^ c - 1`, nothing
  but the field has changed, and a second calculation changes nothing**;
* `PofSwitch.checksum_eq_onesSum_iff` — the value is the one's-complement sum exactly when the words are
  shorter than 64 bits or there are none.
-/

import Mathlib.Algebra.BigOperators.Group.Finset.Basic
import Mathlib.Data.Nat.ModEq
import PofSwitch.BitFields
import PofSwitch.DatapathFrame
import PofSwitch.LrRun

set_option relaxedAutoImplicit false
set_option autoImplicit false

namespace PofSwitch

open Prog Buf

/-! ### Addition with an end-around carry -/

/-- The sum of two `c`-bit numbers, with the carry added at the lower end. -/
def carryAdd (c a b : ℕ) : ℕ := if a + b ≥ 2 ^ c then a + b - 2 ^ c + 1 else a + b

theorem carryAdd_lt {c a b : ℕ} (ha : a < 2 ^ c) (hb : b < 2 ^ c) : carryAdd c a b < 2 ^ c := by
  unfold carryAdd
  split_ifs
  · omega
  · omega

theorem carryAdd_modEq (c a b : ℕ) : carryAdd c a b ≡ a + b [MOD 2 ^ c - 1] := by
  have hpos := Nat.two_pow_pos c
  unfold carryAdd
  split_ifs with h
  · have hsum : a + b = a + b - 2 ^ c + 1 + (2 ^ c - 1) := by omega
    conv_rhs => rw [hsum]
    exact (Nat.add_modEq_right).symm
  · rfl

/-- The complement of the upper bits of a number. -/
theorem complement_shiftRight {x k : ℕ} (hx : x < 2 ^ 64) (hk : k ≤ 64) :
    (2 ^ 64 - 1 - x) >>> k = 2 ^ (64 - k) - 1 - x >>> k := by
  have hpow : 2 ^ (64 - k) * 2 ^ k = 2 ^ 64 := by rw [← Nat.pow_add, Nat.sub_add_cancel hk]
  have hpos := Nat.two_pow_pos k
  rw [Nat.shiftRight_eq_div_pow, Nat.shiftRight_eq_div_pow]
  have hdiv := Nat.div_add_mod x (2 ^ k)
  have hmod := Nat.mod_lt x hpos
  have hq : x / 2 ^ k < 2 ^ (64 - k) := by
    rw [Nat.div_lt_iff_lt_mul hpos, hpow]
    exact hx
  generalize x / 2 ^ k = q at hdiv hq ⊢
  obtain ⟨p, hp⟩ : ∃ p, 2 ^ (64 - k) = q + 1 + p := ⟨2 ^ (64 - k) - (q + 1), by omega⟩
  rw [hp] at hpow ⊢
  rw [show q + 1 + p - 1 - q = p by omega]
  rw [← hpow, ← hdiv]
  refine Nat.div_eq_of_lt_le ?_ ?_
  · rw [Nat.add_mul, Nat.add_mul, Nat.one_mul, Nat.mul_comm q]
    omega
  · rw [Nat.succ_mul, Nat.add_mul, Nat.add_mul, Nat.one_mul, Nat.mul_comm q]
    omega

/-! ### The words of a region -/

/-- The sum of `n` words of `c` bits from bit `pos` on. -/
def wordSum (b : Buf) (pos c n : ℕ) : ℕ := ∑ i ∈ Finset.range n, fieldNat b (pos + i * c) c

/-- The first word apart. -/
theorem wordSum_succ (b : Buf) (pos c n : ℕ) :
    wordSum b pos c (n + 1) = fieldNat b pos c + wordSum b (pos + c) c n := by
  rw [wordSum, Finset.sum_range_succ', Nat.zero_mul, Nat.add_zero, Nat.add_comm, wordSum]
  refine congrArg _ (Finset.sum_congr rfl fun i _ => ?_)
  rw [Nat.succ_mul]
  congr 1
  omega

/-- Putting a number into one of the words in place of a zero adds it to the sum. -/
theorem wordSum_fieldSet {b b' : Buf} {pos c k n m : ℕ} (h : FieldSet (pos + k * c) c m b b')
    (hzero : fieldNat b (pos + k * c) c = 0) (hk : k < n) : wordSum b' pos c n = wordSum b pos c n + m := by
  have hmem : k ∈ Finset.range n := Finset.mem_range.2 hk
  have hothers : ∀ i ∈ (Finset.range n).erase k,
      fieldNat b' (pos + i * c) c = fieldNat b (pos + i * c) c := by
    intro i hi
    refine fieldNat_congr fun j hj => h.rest _ ?_
    -- the words are disjoint
    rcases Nat.lt_or_gt_of_ne (Finset.ne_of_mem_erase hi) with hlt | hgt
    · have hmul := Nat.mul_le_mul_right c (Nat.succ_le_of_lt hlt)
      rw [Nat.succ_mul] at hmul
      omega
    · have hmul := Nat.mul_le_mul_right c (Nat.succ_le_of_lt hgt)
      rw [Nat.succ_mul] at hmul
      omega
  rw [wordSum, wordSum, ← Finset.add_sum_erase _ _ hmem, ← Finset.add_sum_erase _ _ hmem,
    Finset.sum_congr rfl hothers, h.value, hzero]
  omega

/-- The complements of `n` consecutive words of `c` bits, from bit `pos` on. -/
def complements (b : Buf) (pos c n : ℕ) : List ℕ :=
  (List.range n).map fun i => 2 ^ c - 1 - fieldNat b (pos + i * c) c

/-- The one's-complement sum of a list of `c`-bit numbers. -/
def onesSum (c : ℕ) (words : List ℕ) : ℕ := words.foldl (carryAdd c) 0

theorem complements_succ (b : Buf) (pos c n : ℕ) :
    complements b pos c (n + 1) = (2 ^ c - 1 - fieldNat b pos c) :: complements b (pos + c) c n := by
  rw [complements, List.range_succ_eq_map, List.map_cons, List.map_map, Nat.zero_mul, Nat.add_zero]
  refine congrArg _ (List.map_congr_left fun i _ => ?_)
  rw [Function.comp_apply, Nat.succ_mul, Nat.add_assoc pos c, Nat.add_comm c]

theorem foldl_carryAdd_lt {c : ℕ} {words : List ℕ} (hwords : ∀ w ∈ words, w < 2 ^ c) {total : ℕ}
    (htotal : total < 2 ^ c) : words.foldl (carryAdd c) total < 2 ^ c := by
  induction words generalizing total with
  | nil => exact htotal
  | cons w words ih =>
      have hw : w < 2 ^ c := hwords w List.mem_cons_self
      exact ih (fun v hv => hwords v (List.mem_cons_of_mem w hv)) (carryAdd_lt htotal hw)

theorem complements_lt {b : Buf} {pos c n w : ℕ} (hw : w ∈ complements b pos c n) : w < 2 ^ c := by
  obtain ⟨i, -, rfl⟩ := List.mem_map.1 hw
  have hpos := Nat.two_pow_pos c
  omega

/-- The words are taken off the sum again, modulo `2 ^ c - 1`. -/
theorem foldl_complements_modEq (b : Buf) (pos c n total : ℕ) :
    (complements b pos c n).foldl (carryAdd c) total + wordSum b pos c n ≡ total [MOD 2 ^ c - 1] := by
  induction n generalizing pos total with
  | zero => rfl
  | succ n ih =>
      rw [complements_succ, List.foldl_cons, wordSum_succ]
      set word := fieldNat b pos c with hword
      have hlt : word < 2 ^ c := fieldNat_lt b pos c
      have hfirst : carryAdd c total (2 ^ c - 1 - word) + word ≡ total [MOD 2 ^ c - 1] := by
        have h := (carryAdd_modEq c total (2 ^ c - 1 - word)).add_right word
        rw [show total + (2 ^ c - 1 - word) + word = total + (2 ^ c - 1) by omega] at h
        exact h.trans Nat.add_modEq_right
      refine Nat.ModEq.trans ?_ hfirst
      rw [Nat.add_left_comm, Nat.add_comm word]
      exact (ih (pos + c) _).add_right word

/-! ### The loop of `checksum` -/

section Loop

variable {data : Buf} {posB csLenB : UInt16}

/-- The complement of a word, as `checksum` calculates it. -/
theorem complement_word (data : Buf) (pos : UInt16) (hc : csLenB.toNat ≤ 64) :
    (~~~ UInt64.ofNat ((pofbfCopyBit data (Buf.zeros 8) pos csLenB).loadBE 8)).toNat >>>
        (64 - csLenB.toNat) = 2 ^ csLenB.toNat - 1 - fieldNat data pos.toNat csLenB.toNat := by
  set copied := pofbfCopyBit data (Buf.zeros 8) pos csLenB with hcopied
  have hlt : copied.loadBE 8 < 2 ^ 64 := by
    rw [loadBE_eq_fieldNat]
    exact fieldNat_lt copied 0 64
  have hword : copied.loadBE 8 >>> (64 - csLenB.toNat) = fieldNat data pos.toNat csLenB.toNat :=
    shiftRight_loadBE_pofbfCopyBit data (length_zeros 8) pos hc
  rw [UInt64.toNat_not, UInt64.toNat_ofNat', Nat.mod_eq_of_lt hlt, show UInt64.size = 2 ^ 64 from rfl,
    complement_shiftRight hlt (by omega), hword, show 64 - (64 - csLenB.toNat) = csLenB.toNat by omega]

/-- One addition of the loop. -/
theorem toNat_carry {c : ℕ} (hc : c ≤ 63) {value : UInt64} (hvalue : value.toNat < 2 ^ c) {w : ℕ}
    (hw : w < 2 ^ c) :
    (if value + UInt64.ofNat w ≥ UInt64.ofNat (2 ^ c) then
      value + UInt64.ofNat w - UInt64.ofNat (2 ^ c) + 1 else value + UInt64.ofNat w).toNat =
      carryAdd c value.toNat w := by
  have hpow : 2 ^ c ≤ 2 ^ 63 := Nat.pow_le_pow_right (by omega) hc
  have hthreshold : (UInt64.ofNat (2 ^ c)).toNat = 2 ^ c := by
    rw [UInt64.toNat_ofNat', Nat.mod_eq_of_lt (by omega)]
  have hsum : (value + UInt64.ofNat w).toNat = value.toNat + w := by
    rw [UInt64.toNat_add, UInt64.toNat_ofNat', Nat.mod_eq_of_lt (show w < 2 ^ 64 by omega),
      Nat.mod_eq_of_lt (by omega)]
  have hge : value + UInt64.ofNat w ≥ UInt64.ofNat (2 ^ c) ↔ value.toNat + w ≥ 2 ^ c := by
    rw [ge_iff_le, UInt64.le_iff_toNat_le, hthreshold, hsum]
  unfold carryAdd
  by_cases h : value.toNat + w ≥ 2 ^ c
  · rw [if_pos (hge.2 h), if_pos h, UInt64.toNat_add, UInt64.toNat_sub_of_le _ _ (hge.2 h), hsum,
      hthreshold]
    exact Nat.mod_eq_of_lt (show value.toNat + w - 2 ^ c + 1 < 2 ^ 64 by omega)
  · rw [if_neg fun h' => h (hge.1 h'), if_neg h, hsum]

/-- The position of a word below bit `65536` is not cut. -/
theorem toNat_wordPos {n i : ℕ} (hlen : 1 ≤ csLenB.toNat)
    (hend : posB.toNat + (i + (n + 1)) * csLenB.toNat ≤ 2 ^ 16) :
    (UInt16.ofNat (posB.toNat + i * csLenB.toNat)).toNat = posB.toNat + i * csLenB.toNat := by
  have hwords : (i + (n + 1)) * csLenB.toNat = i * csLenB.toNat + csLenB.toNat + n * csLenB.toNat := by ring
  rw [UInt16.toNat_ofNat']
  exact Nat.mod_eq_of_lt (by omega)

/-- One turn of the loop, with the word as a number. -/
theorem checksumLoop_succ {n i : ℕ} {threshold value : UInt64} (h₁ : 1 ≤ csLenB.toNat)
    (h₆₄ : csLenB.toNat ≤ 64) (hend : posB.toNat + (i + (n + 1)) * csLenB.toNat ≤ 2 ^ 16) :
    checksumLoop data posB csLenB threshold (n + 1) i value =
      checksumLoop data posB csLenB threshold n (i + 1)
        (if value + UInt64.ofNat (2 ^ csLenB.toNat - 1 -
            fieldNat data (posB.toNat + i * csLenB.toNat) csLenB.toNat) ≥ threshold then
          value + UInt64.ofNat (2 ^ csLenB.toNat - 1 -
            fieldNat data (posB.toNat + i * csLenB.toNat) csLenB.toNat) - threshold + 1
        else value + UInt64.ofNat (2 ^ csLenB.toNat - 1 -
            fieldNat data (posB.toNat + i * csLenB.toNat) csLenB.toNat)) := by
  have hcompl := complement_word data (UInt16.ofNat (posB.toNat + i * csLenB.toNat)) h₆₄
  rw [toNat_wordPos h₁ hend] at hcompl
  rw [checksumLoop]
  simp only [hcompl]

/-- Up to 63 bits the loop is the one's-complement sum. -/
theorem checksumLoop_eq_foldl (data : Buf) (h₁ : 1 ≤ csLenB.toNat) (h₆₃ : csLenB.toNat ≤ 63) {n i : ℕ}
    {value : UInt64} (hvalue : value.toNat < 2 ^ csLenB.toNat)
    (hend : posB.toNat + (i + n) * csLenB.toNat ≤ 2 ^ 16) :
    (checksumLoop data posB csLenB (UInt64.ofNat (2 ^ csLenB.toNat)) n i value).toNat =
      (complements data (posB.toNat + i * csLenB.toNat) csLenB.toNat n).foldl (carryAdd csLenB.toNat)
        value.toNat := by
  induction n generalizing i value with
  | zero => rfl
  | succ n ih =>
      have hpos := Nat.two_pow_pos csLenB.toNat
      have hlt : 2 ^ csLenB.toNat - 1 - fieldNat data (posB.toNat + i * csLenB.toNat) csLenB.toNat <
          2 ^ csLenB.toNat := by omega
      have hnext := toNat_carry h₆₃ hvalue hlt
      rw [checksumLoop_succ h₁ (by omega) hend, complements_succ, List.foldl_cons, ← hnext,
        ih (by rw [hnext]; exact carryAdd_lt hvalue hlt) (by rw [show i + 1 + n = i + (n + 1) by omega]; exact hend),
        show posB.toNat + i * csLenB.toNat + csLenB.toNat = posB.toNat + (i + 1) * csLenB.toNat by ring]

/-- The loop adds the complements of the words: its value and the words add up to what was there
before it, modulo `2 ^ c - 1`. -/
theorem checksumLoop_modEq (h₁ : 1 ≤ csLenB.toNat) (h₆₃ : csLenB.toNat ≤ 63) {n i : ℕ}
    {value : UInt64} (hvalue : value.toNat < 2 ^ csLenB.toNat)
    (hend : posB.toNat + (i + n) * csLenB.toNat ≤ 2 ^ 16) :
    (checksumLoop data posB csLenB (UInt64.ofNat (2 ^ csLenB.toNat)) n i value).toNat <
        2 ^ csLenB.toNat ∧
      (checksumLoop data posB csLenB (UInt64.ofNat (2 ^ csLenB.toNat)) n i value).toNat +
          wordSum data (posB.toNat + i * csLenB.toNat) csLenB.toNat n ≡
        value.toNat [MOD 2 ^ csLenB.toNat - 1] := by
  rw [checksumLoop_eq_foldl data h₁ h₆₃ hvalue hend]
  exact ⟨foldl_carryAdd_lt (fun _ => complements_lt) hvalue, foldl_complements_modEq _ _ _ _ _⟩

end Loop

/-! ### Clearing and storing -/

section Field

variable {d : Buf} {pos len : UInt16}

/-- `bzero_bit` clears the field. -/
theorem bzeroBit_spec (hfit : FieldFits pos.toNat len.toNat) (hin : pos.toNat + len.toNat ≤ 8 * d.length) :
    ∃ z, bzeroBit d pos len = some z ∧ FieldSet pos.toNat len.toNat 0 d z := by
  unfold bzeroBit
  by_cases hbytes : pos.toNat % 8 = 0 ∧ len.toNat % 8 = 0
  · rw [if_pos hbytes]
    have hbit : ∀ i, bit (d.paste (pos.toNat / 8) (Buf.zeros (len.toNat / 8))) i =
        if pos.toNat ≤ i ∧ i < pos.toNat + len.toNat then false else d.bit i := by
      intro i
      rw [bit, rd_paste, length_zeros]
      by_cases hi : pos.toNat ≤ i ∧ i < pos.toNat + len.toNat
      · rw [if_pos hi, if_pos (by omega)]
        simp [rd, Buf.zeros]
      · rw [if_neg hi, if_neg (by omega)]
        rfl
    refine ⟨_, rfl, length_paste _ _ _, ?_, fun i hi => by rw [hbit, if_neg hi]⟩
    rw [← Nat.zero_mod (2 ^ len.toNat)]
    refine fieldNat_eq_mod fun j hj => ?_
    rw [hbit, if_pos (by omega), Nat.zero_testBit]
  · rw [if_neg hbytes]
    have hzeros : ZeroFrom (Buf.zeros (bytenumCeil len.toNat)) len.toNat := fun j _ => bit_zeros _ j
    have hvalue : fieldNat (Buf.zeros (bytenumCeil len.toNat)) 0 len.toNat = 0 := by
      rw [← Nat.zero_mod (2 ^ len.toNat)]
      refine fieldNat_eq_mod fun j _ => ?_
      rw [bit_zeros, Nat.zero_testBit]
    have hcover := pofbfCoverBit_fieldSet hfit hzeros hin
    rwa [hvalue] at hcover

/-- The checksum is put into the field. -/
theorem pofbfCoverBit_storeBE (hfit : FieldFits pos.toNat len.toNat) (hlen : len.toNat ≤ 64)
    (hin : pos.toNat + len.toNat ≤ 8 * d.length) {x : ℕ} (hx : x < 2 ^ len.toNat) :
    ∃ b, pofbfCoverBit d (storeBE (x <<< (64 - len.toNat)) 8) pos len = some b ∧
      FieldSet pos.toNat len.toNat x d b := by
  have hbytes : len.toNat ≤ 8 * 8 := hlen
  have hvalue : fieldNat (storeBE (x <<< (64 - len.toNat)) 8) 0 len.toNat = x := by
    rw [show 64 = 8 * 8 from rfl, fieldNat_storeBE x 8 hbytes, Nat.mod_eq_of_lt hx]
  have hcover := pofbfCoverBit_fieldSet hfit (zeroFrom_storeBE x hbytes) hin
  rw [show 8 * 8 = 64 from rfl, hvalue] at hcover
  exact hcover

end Field

/-! ### The front of a longer buffer -/

theorem bzeroBit_take (d : Buf) (pos len : UInt16) (k : ℕ) :
    bzeroBit (d.take k) pos len = (bzeroBit d pos len).map (List.take k) := by
  unfold bzeroBit
  split
  · rw [Option.map_some, take_paste]
  · exact pofbfCoverBit_take d _ pos len k

theorem length_bzeroBit {d d' : Buf} {pos len : UInt16} (h : bzeroBit d pos len = some d') :
    d'.length = d.length := by
  unfold bzeroBit at h
  split at h
  · cases h
    exact length_paste _ _ _
  · exact length_pofbfCoverBit h

theorem checksumLoop_take (d : Buf) (pos cs : UInt16) (threshold : UInt64) {k : ℕ} (hk : 8 * k < 2 ^ 16) :
    ∀ (n i : ℕ) (value : UInt64), pos.toNat + (i + n) * cs.toNat ≤ 8 * k →
      checksumLoop (d.take k) pos cs threshold n i value = checksumLoop d pos cs threshold n i value := by
  intro n
  induction n with
  | zero =>
      intro i value _
      rfl
  | succ n ih =>
      intro i value hin
      have hword : pos.toNat + i * cs.toNat + cs.toNat ≤ 8 * k := by
        have hmul : (i + (n + 1)) * cs.toNat = i * cs.toNat + cs.toNat + n * cs.toNat := by ring
        omega
      have hpos : (UInt16.ofNat (pos.toNat + i * cs.toNat)).toNat = pos.toNat + i * cs.toNat := by
        rw [UInt16.toNat_ofNat', Nat.mod_eq_of_lt (by omega)]
      have hcopy : pofbfCopyBit (d.take k) (Buf.zeros 8) (UInt16.ofNat (pos.toNat + i * cs.toNat)) cs =
          pofbfCopyBit d (Buf.zeros 8) (UInt16.ofNat (pos.toNat + i * cs.toNat)) cs := by
        refine pofbfCopyBit_take d _ ?_
        rw [hpos]
        exact hword
      rw [checksumLoop, checksumLoop, hcopy]
      refine ih _ _ ?_
      rw [show i + 1 + n = i + (n + 1) by omega]
      exact hin

theorem checksum_take (d : Buf) {pos len cs : UInt16} {k : ℕ} (hk : 8 * k < 2 ^ 16)
    (hin : pos.toNat + len.toNat ≤ 8 * k) : checksum (d.take k) pos len cs = checksum d pos len cs := by
  unfold checksum
  split
  · rfl
  · have hle := Nat.div_mul_le_self len.toNat cs.toNat
    dsimp only
    rw [checksumLoop_take d pos cs _ hk _ _ _ (by rw [Nat.zero_add]; omega)]

/-! ### `calChecksum` -/

section CalChecksum

variable {checksumType calType : UInt8} {dpp : DpPacket} {s : DpState}

/-- What is stored in the buffer of the field is read from the buffer of the region. -/
theorem checksumBuf_setChecksumBuf (hsame : checksumType = 0 ↔ calType = 0)
    (hle : checksumType = 0 → dpp.bufOffset.toNat ≤ dpp.buf.length) (b : Buf) :
    checksumBuf calType (setChecksumBuf checksumType b dpp) = b := by
  unfold checksumBuf setChecksumBuf
  by_cases htype : checksumType = 0
  · rw [if_pos htype, if_pos (hsame.1 htype)]
    exact DpPacket.window_setWindow (hle htype) b
  · rw [if_neg htype, if_neg fun h => htype (hsame.2 h)]

theorem setChecksumBuf_setChecksumBuf
    (hle : checksumType = 0 → dpp.bufOffset.toNat ≤ dpp.buf.length) (b c : Buf) :
    setChecksumBuf checksumType c (setChecksumBuf checksumType b dpp) = setChecksumBuf checksumType c dpp := by
  unfold setChecksumBuf
  by_cases htype : checksumType = 0
  · rw [if_pos htype, if_pos htype, if_pos htype]
    exact DpPacket.setWindow_setWindow (hle htype) b c
  · rw [if_neg htype, if_neg htype, if_neg htype]

/-- `calChecksum` from its three steps. -/
theorem exec_calChecksum {calPosB calLenB csPosB csLenB : UInt16} (hsame : checksumType = 0 ↔ calType = 0)
    (hle : checksumType = 0 → s.dpp.bufOffset.toNat ≤ s.dpp.buf.length) {z value b : Buf}
    (hz : bzeroBit (checksumBuf checksumType s.dpp) csPosB csLenB = some z)
    (hvalue : checksum z calPosB calLenB csLenB = some value)
    (hb : pofbfCoverBit z value csPosB csLenB = some b) :
    exec (calChecksum checksumType calType calPosB calLenB csPosB csLenB) s =
      (.ok (), { s with dpp := setChecksumBuf checksumType b s.dpp }) := by
  rw [calChecksum, exec_bind_ok exec_get, hz, exec_bind_ok (exec_liftOption_some z _), modifyDpp,
    exec_bind_ok (exec_modify _), exec_bind_ok exec_get]
  dsimp only
  rw [checksumBuf_setChecksumBuf hsame hle, hvalue, checksumBuf_setChecksumBuf Iff.rfl hle,
    exec_bind_ok (exec_liftOption_some value _), hb, exec_bind_ok (exec_liftOption_some b _), modifyDpp,
    exec_modify]
  dsimp only
  rw [setChecksumBuf_setChecksumBuf hle]

variable {calPosB calLenB csPosB csLenB : UInt16}

/-- The three steps on a buffer in which the field is a word of the region. -/
theorem calChecksum_steps {d : Buf} (h₈ : 8 ≤ csLenB.toNat) (h₆₃ : csLenB.toNat ≤ 63)
    (hin : calPosB.toNat + calLenB.toNat ≤ 8 * d.length)
    (haddr : calPosB.toNat + calLenB.toNat ≤ 2 ^ 16) {k : ℕ} (hk : k < calLenB.toNat / csLenB.toNat)
    (hword : csPosB.toNat = calPosB.toNat + k * csLenB.toNat) :
    ∃ z x b, bzeroBit d csPosB csLenB = some z ∧ FieldSet csPosB.toNat csLenB.toNat 0 d z ∧
      checksum z calPosB calLenB csLenB = some (storeBE (x <<< (64 - csLenB.toNat)) 8) ∧
      pofbfCoverBit z (storeBE (x <<< (64 - csLenB.toNat)) 8) csPosB csLenB = some b ∧
      FieldSet csPosB.toNat csLenB.toNat x z b ∧
      wordSum b calPosB.toNat csLenB.toNat (calLenB.toNat / csLenB.toNat) ≡ 0
        [MOD 2 ^ csLenB.toNat - 1] := by
  have hfit : FieldFits csPosB.toNat csLenB.toNat := Or.inl h₈
  -- the words lie in the region
  have hregion : calLenB.toNat / csLenB.toNat * csLenB.toNat ≤ calLenB.toNat := Nat.div_mul_le_self _ _
  have hfield : csPosB.toNat + csLenB.toNat ≤ 8 * d.length := by
    have hmul := Nat.mul_le_mul_right csLenB.toNat (Nat.succ_le_of_lt hk)
    rw [Nat.succ_mul] at hmul
    omega
  obtain ⟨z, hz, hcleared⟩ := bzeroBit_spec hfit hfield
  set n := calLenB.toNat / csLenB.toNat with hn
  set x := (checksumLoop z calPosB csLenB (UInt64.ofNat (2 ^ csLenB.toNat)) n 0 0).toNat with hx
  obtain ⟨hlt, hmod⟩ : x < 2 ^ csLenB.toNat ∧ x + wordSum z (calPosB.toNat + 0 * csLenB.toNat) csLenB.toNat n
      ≡ 0 [MOD 2 ^ csLenB.toNat - 1] :=
    checksumLoop_modEq (by omega) h₆₃ (Nat.two_pow_pos _) (by rw [Nat.zero_add]; omega)
  rw [Nat.zero_mul, Nat.add_zero] at hmod
  obtain ⟨b, hb, hstored⟩ := pofbfCoverBit_storeBE (d := z) hfit (by omega)
    (by rw [hcleared.length]; exact hfield) hlt
  refine ⟨z, x, b, hz, hcleared, ?_, hb, hstored, ?_⟩
  · have hne : csLenB ≠ 0 := by
      rintro rfl
      exact absurd h₈ (by decide)
    rw [checksum, if_neg hne]
  · rw [hword] at hstored hcleared
    rw [wordSum_fieldSet hstored hcleared.value hk, Nat.add_comm]
    exact hmod

/-- **The words of the region add up to zero modulo `2 ^ c - 1`, no bit outside the checksum field has
changed, and a second calculation changes nothing.**  The region ends at a bit that a 16-bit position
can name, as every region of the 2048 bytes of a packet or of its metadata does. -/
theorem calChecksum_correct (hsame : checksumType = 0 ↔ calType = 0)
    (h₈ : 8 ≤ csLenB.toNat) (h₆₃ : csLenB.toNat ≤ 63)
    (hin : calPosB.toNat + calLenB.toNat ≤ 8 * (checksumBuf calType s.dpp).length)
    (haddr : calPosB.toNat + calLenB.toNat ≤ 2 ^ 16)
    (hword : ∃ k < calLenB.toNat / csLenB.toNat, csPosB.toNat = calPosB.toNat + k * csLenB.toNat) :
    ∃ b t, exec (calChecksum checksumType calType calPosB calLenB csPosB csLenB) s = (.ok (), t) ∧
      t = { s with dpp := setChecksumBuf checksumType b s.dpp } ∧ checksumBuf calType t.dpp = b ∧
      wordSum b calPosB.toNat csLenB.toNat (calLenB.toNat / csLenB.toNat) ≡ 0
        [MOD 2 ^ csLenB.toNat - 1] ∧
      b.length = (checksumBuf calType s.dpp).length ∧
      (∀ i, ¬ (csPosB.toNat ≤ i ∧ i < csPosB.toNat + csLenB.toNat) →
        b.bit i = (checksumBuf calType s.dpp).bit i) ∧
      exec (calChecksum checksumType calType calPosB calLenB csPosB csLenB) t = (.ok (), t) := by
  obtain ⟨k, hk, hpos⟩ := hword
  have hbuf : checksumBuf checksumType s.dpp = checksumBuf calType s.dpp := if_congr hsame rfl rfl
  -- a region with a word has bytes
  have hle : checksumType = 0 → s.dpp.bufOffset.toNat ≤ s.dpp.buf.length := by
    intro htype
    by_contra hlt
    have hempty : (checksumBuf calType s.dpp).length = 0 := by
      rw [checksumBuf, if_pos (hsame.1 htype), DpPacket.window, List.length_drop]
      omega
    have hdiv := Nat.div_le_self calLenB.toNat csLenB.toNat
    omega
  obtain ⟨z, x, b, hz, hcleared, hvalue, hb, hstored, hsum⟩ := calChecksum_steps h₈ h₆₃ hin haddr hk hpos
  have hset := hcleared.trans hstored
  have hread : checksumBuf calType (setChecksumBuf checksumType b s.dpp) = b :=
    checksumBuf_setChecksumBuf hsame hle b
  refine ⟨b, { s with dpp := setChecksumBuf checksumType b s.dpp },
    exec_calChecksum hsame hle (by rw [hbuf, hz]) hvalue hb, rfl, hread, hsum, hset.length, hset.rest, ?_⟩
  -- the second calculation starts from the same cleared buffer
  have hlen : b.length = (checksumBuf calType s.dpp).length := hset.length
  obtain ⟨z', x', b', hz', hcleared', -⟩ := calChecksum_steps (d := b) h₈ h₆₃ (by rw [hlen]; exact hin) haddr
    hk hpos
  have hself : FieldSet csPosB.toNat csLenB.toNat 0 z z := hcleared.value ▸ FieldSet.refl _ _ z
  have hzz : z' = z := (hstored.trans hcleared').unique hself
  have hle' : checksumType = 0 → (setChecksumBuf checksumType b s.dpp).bufOffset.toNat ≤
      (setChecksumBuf checksumType b s.dpp).buf.length := by
    intro htype
    simp only [setChecksumBuf, if_pos htype, DpPacket.setWindow, List.length_append, List.length_take,
      Nat.min_eq_left (hle htype)]
    omega
  rw [hzz] at hz'
  rw [exec_calChecksum (s := { s with dpp := setChecksumBuf checksumType b s.dpp }) hsame hle'
    (by rw [checksumBuf_setChecksumBuf Iff.rfl hle, hz']) hvalue hb]
  dsimp only
  rw [setChecksumBuf_setChecksumBuf hle]

end CalChecksum

/-- A packet of three 16-bit words, the second of them a checksum that is wrong. -/
def badChecksum : DpState := pofdpForward 1 [0x45, 0, 0xab, 0xcd, 0x12, 0x34] (pofLocalresourceInit smallConfig)

/-- The checksum is put right. -/
theorem calChecksum_correct_words : ∃ b t, exec (calChecksum 0 0 0 48 16 16) badChecksum = (.ok (), t) ∧
    checksumBuf 0 t.dpp = b ∧ wordSum b 0 16 3 ≡ 0 [MOD 65535] := by
  obtain ⟨b, t, hexec, _, hread, hsum, _⟩ := @calChecksum_correct 0 0 badChecksum 0 48 16 16 Iff.rfl
    (by decide) (by decide) (by decide +kernel) (by decide) ⟨1, by decide, by decide⟩
  exact ⟨b, t, hexec, hread, hsum⟩

/-! ### The checksum of every width -/

section Widths

variable {data : Buf} {posB csLenB : UInt16}

/-- The doublings of `threshold` in 64 bits. -/
theorem threshold_doublings (c : ℕ) : (fun t : UInt64 => t * 2)^[c] 1 = UInt64.ofNat (2 ^ c) := by
  induction c with
  | zero => rfl
  | succ c ih =>
      rw [Function.iterate_succ_apply', ih, Nat.pow_succ, UInt64.ofNat_mul]
      rfl

/-- With 64 bits the threshold is zero, so every turn of the loop adds a carry. -/
theorem toNat_carry_64 (value : UInt64) (w : ℕ) :
    (if value + UInt64.ofNat w ≥ UInt64.ofNat (2 ^ 64) then
      value + UInt64.ofNat w - UInt64.ofNat (2 ^ 64) + 1 else value + UInt64.ofNat w).toNat ≡
      value.toNat + w + 1 [MOD 2 ^ 64] := by
  have hzero : UInt64.ofNat (2 ^ 64) = 0 := rfl
  rw [hzero, if_pos (UInt64.zero_le), UInt64.sub_zero, UInt64.toNat_add, UInt64.toNat_add,
    UInt64.toNat_ofNat']
  simp [Nat.ModEq]

/-- A carry of the end-around addition is a one modulo `2 ^ c`. -/
theorem carryAdd_modEq_two_pow (c a b : ℕ) :
    carryAdd c a b ≡ a + b + (if a + b ≥ 2 ^ c then 1 else 0) [MOD 2 ^ c] := by
  unfold carryAdd
  split_ifs with h
  · have hsum : a + b + 1 = a + b - 2 ^ c + 1 + 2 ^ c := by omega
    rw [hsum]
    exact (Nat.add_modEq_right).symm
  · rfl

/-- With 64 bits the loop runs ahead of the sum by the turns that had no carry. -/
theorem checksumLoop_64 (data : Buf) (h₆₄ : csLenB.toNat = 64) {n i d total : ℕ} {value : UInt64}
    (hvalue : value.toNat ≡ total + d [MOD 2 ^ 64]) (hend : posB.toNat + (i + n) * csLenB.toNat ≤ 2 ^ 16) :
    ∃ e, d ≤ e ∧ e ≤ d + n ∧
      (checksumLoop data posB csLenB (UInt64.ofNat (2 ^ csLenB.toNat)) n i value).toNat ≡
        (complements data (posB.toNat + i * csLenB.toNat) csLenB.toNat n).foldl (carryAdd csLenB.toNat)
          total + e [MOD 2 ^ 64] := by
  induction n generalizing i value d total with
  | zero => exact ⟨d, le_rfl, le_rfl, hvalue⟩
  | succ n ih =>
      set w := 2 ^ csLenB.toNat - 1 - fieldNat data (posB.toNat + i * csLenB.toNat) csLenB.toNat with hw
      have hend' : posB.toNat + (i + 1 + n) * csLenB.toNat ≤ 2 ^ 16 := by
        rw [show i + 1 + n = i + (n + 1) by omega]
        exact hend
      have hcarry := carryAdd_modEq_two_pow 64 total w
      have hcode := toNat_carry_64 value w
      rw [checksumLoop_succ (by omega) (by omega) hend, complements_succ, List.foldl_cons,
        show posB.toNat + i * csLenB.toNat + csLenB.toNat = posB.toNat + (i + 1) * csLenB.toNat by ring, ← hw]
      -- a turn with a carry keeps the distance, one without adds one to it
      by_cases h : total + w ≥ 2 ^ 64
      · rw [if_pos h] at hcarry
        have hnext : value.toNat + w + 1 ≡ carryAdd 64 total w + d [MOD 2 ^ 64] := by
          refine ((hvalue.add_right w).add_right 1).trans ?_
          rw [show total + d + w + 1 = total + w + 1 + d by omega]
          exact (hcarry.add_right d).symm
        obtain ⟨e, hde, hed, he⟩ := ih (hcode.trans hnext) hend'
        rw [h₆₄] at he ⊢
        exact ⟨e, hde, by omega, he⟩
      · rw [if_neg h] at hcarry
        have hnext : value.toNat + w + 1 ≡ carryAdd 64 total w + (d + 1) [MOD 2 ^ 64] := by
          refine ((hvalue.add_right w).add_right 1).trans ?_
          rw [show total + d + w + 1 = total + w + (d + 1) by omega]
          exact (hcarry.add_right (d + 1)).symm
        obtain ⟨e, hde, hed, he⟩ := ih (hcode.trans hnext) hend'
        rw [h₆₄] at he ⊢
        exact ⟨e, by omega, by omega, he⟩

theorem onesSum_complements_lt (b : Buf) (pos c n : ℕ) : onesSum c (complements b pos c n) < 2 ^ c :=
  foldl_carryAdd_lt (fun _ => complements_lt) (Nat.two_pow_pos c)

/-- With 64 bits the loop is not the sum as soon as there is a word: the first turn has no carry. -/
theorem checksumLoop_64_ne (data : Buf) (h₆₄ : csLenB.toNat = 64) {n : ℕ}
    (hend : posB.toNat + (n + 1) * csLenB.toNat ≤ 2 ^ 16) :
    (checksumLoop data posB csLenB (UInt64.ofNat (2 ^ csLenB.toNat)) (n + 1) 0 0).toNat ≠
      onesSum csLenB.toNat (complements data posB.toNat csLenB.toNat (n + 1)) := by
  have hpos := Nat.two_pow_pos csLenB.toNat
  have hend' : posB.toNat + (0 + (n + 1)) * csLenB.toNat ≤ 2 ^ 16 := by rwa [Nat.zero_add]
  rw [checksumLoop_succ (by omega) (by omega) hend', onesSum, complements_succ, List.foldl_cons]
  simp only [Nat.zero_mul, Nat.add_zero, Nat.zero_add]
  set w := 2 ^ csLenB.toNat - 1 - fieldNat data posB.toNat csLenB.toNat with hw
  have hlt : w < 2 ^ csLenB.toNat := by omega
  have hfirst : carryAdd csLenB.toNat 0 w = w := by
    unfold carryAdd
    rw [if_neg (by omega), Nat.zero_add]
  rw [hfirst]
  have hcode := toNat_carry_64 0 w
  rw [UInt64.toNat_zero, Nat.zero_add] at hcode
  have hrest : posB.toNat + (1 + n) * csLenB.toNat ≤ 2 ^ 16 := by
    rw [Nat.add_comm 1]
    exact hend
  obtain ⟨e, h1e, hen, he⟩ := checksumLoop_64 data h₆₄ hcode hrest
  rw [Nat.one_mul] at he
  intro heq
  rw [h₆₄] at he heq
  rw [heq] at he
  -- the distance is a multiple of `2 ^ 64` between `1` and the number of words
  have hzero : 0 ≡ e [MOD 2 ^ 64] := Nat.ModEq.add_left_cancel' _ he
  have hsmall : e < 2 ^ 64 := by
    rw [h₆₄] at hend
    omega
  have := Nat.ModEq.eq_of_lt_of_lt hzero (by omega) hsmall
  omega

/-- **`checksum` is the one's-complement sum of the complements of the words, left-aligned in 64 bits,
exactly when the words are shorter than 64 bits or the region has none of them.**  For 64 bits the
doublings of the threshold give zero, which every sum reaches, so that a carry is added for every word. -/
theorem checksum_eq_onesSum_iff {lenB : UInt16} (h₁ : 1 ≤ csLenB.toNat) (h₆₄ : csLenB.toNat ≤ 64)
    (hend : posB.toNat + lenB.toNat ≤ 2 ^ 16) :
    checksum data posB lenB csLenB = some (storeBE (onesSum csLenB.toNat
        (complements data posB.toNat csLenB.toNat (lenB.toNat / csLenB.toNat)) <<<
          (64 - csLenB.toNat)) 8) ↔ csLenB.toNat ≤ 63 ∨ lenB.toNat < 64 := by
  have hne : csLenB ≠ 0 := by
    rintro rfl
    exact absurd h₁ (by decide)
  have hregion := Nat.div_mul_le_self lenB.toNat csLenB.toNat
  set n := lenB.toNat / csLenB.toNat with hn
  have hendn : posB.toNat + n * csLenB.toNat ≤ 2 ^ 16 := by omega
  rw [checksum, if_neg hne, Option.some_inj, ← hn]
  by_cases h₆₃ : csLenB.toNat ≤ 63
  · have hzero : (0 : UInt64).toNat < 2 ^ csLenB.toNat := Nat.two_pow_pos _
    have hwords : posB.toNat + (0 + n) * csLenB.toNat ≤ 2 ^ 16 := by
      rw [Nat.zero_add]
      exact hendn
    have hloop := checksumLoop_eq_foldl data h₁ h₆₃ hzero hwords
    rw [Nat.zero_mul, Nat.add_zero, UInt64.toNat_zero] at hloop
    refine iff_of_true ?_ (Or.inl h₆₃)
    rw [hloop, onesSum]
  · have hc : csLenB.toNat = 64 := by omega
    cases hwords : n with
    | zero =>
        have hshort : lenB.toNat < 64 := by
          rw [hwords, hc] at hn
          omega
        exact iff_of_true rfl (Or.inr hshort)
    | succ m =>
        have hlong : ¬ lenB.toNat < 64 := by
          rw [hwords, hc] at hn
          omega
        rw [hwords] at hendn
        refine iff_of_false (fun heq => ?_) (by omega)
        refine checksumLoop_64_ne data hc hendn ?_
        have hsum := onesSum_complements_lt data posB.toNat csLenB.toNat (m + 1)
        have hvalue := congrArg (fun b => fieldNat b 0 64) heq
        rw [hc] at hvalue hsum ⊢
        rw [show 64 - 64 = 8 * 8 - 64 from rfl, fieldNat_storeBE _ 8 (le_refl (8 * 8)),
          fieldNat_storeBE _ 8 (le_refl (8 * 8)), Nat.mod_eq_of_lt (UInt64.toNat_lt _),
          Nat.mod_eq_of_lt hsum] at hvalue
        exact hvalue

end Widths

/-- One word of 64 zero bits and a checksum of 64 bits: the sum is `2 ^ 64 - 1`, the value is zero. -/
theorem checksum_eq_onesSum_fails : ¬ checksum (Buf.zeros 8) 0 64 64 =
    some (storeBE (onesSum 64 (complements (Buf.zeros 8) 0 64 1) <<< 0) 8) := by
  decide +kernel

/-- Two words of 32 bits. -/
theorem checksum_eq_onesSum_words : checksum [0, 0, 0, 1, 0, 0, 0, 2] 0 64 32 =
    some (storeBE (onesSum 32 (complements [0, 0, 0, 1, 0, 0, 0, 2] 0 32 2) <<< 32) 8) :=
  (@checksum_eq_onesSum_iff [0, 0, 0, 1, 0, 0, 0, 2] 0 32 64 (by decide) (by decide) (by decide)).2
    (Or.inl (by decide))

end PofSwitch
