/-
**The laws of `pofbf_cover_bit` and `pofbf_copy_bit`.**

`PofSwitch/BaseFunc.lean` says what the two routines do bit by bit.  Here this is put into the form in
which the rest of the switch relies on it: a field that has been covered is read back, a field covered
with what was copied from it stays as it is, the last value wins, and nothing else changes.

Two of these expectations have an edge.  The routine stores to the byte of the first bit also when the
field is empty, and it does not return for a short field that straddles a byte boundary; so the stores
are logged and the fields for which all is well are determined.  And the left part of the last
expression is not masked, so that bits of the value behind the field may reach the destination; the
places where they do are `Leaks`.

Main definitions:

* `PofSwitch.Written`, `PofSwitch.pofbfCoverBitLog` — the routine with its stores;
* `PofSwitch.CoverSafe` — it returns, stores only to bytes of the field and changes only the field.

Main results:

* `PofSwitch.cover_copy_laws` — **the two routines read and write a field;**
* `PofSwitch.coverSafe_iff` — all is well exactly for a field of at least a byte, or a non-empty one
  inside a byte;
* `PofSwitch.cover_field_only_iff` — the result depends on the bits of the field only, exactly when the
  bits the value leaks to are one already.
-/

import PofSwitch.BaseFunc
import PofSwitch.FieldNumbers
import PofSwitch.Global

set_option relaxedAutoImplicit false
set_option autoImplicit false

namespace PofSwitch

open Buf

/-! ### Reading back -/

section Laws

variable {d value res : Buf} {pos len : UInt16}

/-- A copy of a field depends on its bits only. -/
theorem pofbfCopyBit_congr {d' : Buf} (h : ∀ j < len.toNat, d'.bit (pos.toNat + j) = d.bit (pos.toNat + j)) :
    pofbfCopyBit d' res pos len = pofbfCopyBit d res pos len := by
  refine ext_bit (by simp) fun i _ => ?_
  rw [bit_pofbfCopyBit, bit_pofbfCopyBit]
  by_cases hi : i < len.toNat
  · rw [h i hi]
  · simp [hi]

/-- The copy of a field that holds the first bits of a zero-padded value. -/
theorem pofbfCopyBit_eq_value (hz : ZeroFrom value len.toNat) (hres : bytenumCeil len.toNat ≤ res.length)
    (h : ∀ j < len.toNat, d.bit (pos.toNat + j) = value.bit j) :
    pofbfCopyBit d res pos len =
      value.bytesAt 0 (bytenumCeil len.toNat) ++ res.drop (bytenumCeil len.toNat) := by
  have hlen : (value.bytesAt 0 (bytenumCeil len.toNat)).length = bytenumCeil len.toNat := by
    simp [bytesAt]
  refine ext_rd ?_ fun i hi => byte_ext fun k hk => ?_
  · rw [length_pofbfCopyBit, List.length_append, hlen, List.length_drop]
    omega
  rw [length_pofbfCopyBit] at hi
  rw [← bit_mul_add _ _ hk, bit_pofbfCopyBit]
  simp only [bytenumCeil] at hlen hres ⊢
  by_cases hin : i < (len.toNat + 7) / 8
  · have hbyte : rd (value.bytesAt 0 ((len.toNat + 7) / 8)) i = rd value i := by
      simp [rd, bytesAt, hin]
    rw [if_pos (by omega), rd_append_left (by omega), hbyte, ← bit_mul_add _ _ hk]
    by_cases hj : 8 * i + k < len.toNat
    · simp [hj, h _ hj]
    · simp [hj, hz _ (Nat.not_lt.1 hj)]
  · rw [if_neg (by omega), rd_append_right (by omega), hlen, rd_drop, bit_mul_add _ _ hk]
    congr 2
    omega

/-- Covering a field with what was copied from it. -/
theorem pofbfCoverBit_copy (hfit : FieldFits pos.toNat len.toNat)
    (hres : bytenumCeil len.toNat ≤ res.length) :
    pofbfCoverBit d (pofbfCopyBit d res pos len) pos len = some d := by
  obtain ⟨d', hd', hlen, hbits⟩ := pofbfCoverBit_bits d (pofbfCopyBit d res pos len) hfit
  rw [hd']
  refine congrArg some (ext_bit hlen fun i _ => ?_)
  simp only [bytenumCeil] at hres
  rw [hbits, bit_pofbfCopyBit]
  split_ifs with hin hcopied hleak hmixed
  · rw [show pos.toNat + (i - pos.toNat) = i by omega]
    simp [show i - pos.toNat < len.toNat by omega]
  · omega
  · -- the copy is zero behind the field
    obtain ⟨⟨_, _⟩, _⟩ := hleak
    simp [show ¬ i - pos.toNat < len.toNat by omega]
  · obtain ⟨⟨_, _⟩, _⟩ := hleak
    omega
  · rfl

/-- **Copying after covering gives the value, covering with the copy changes nothing, the second of
two values covers the first, bits outside the field are kept, and so are copies of disjoint
fields.** -/
theorem cover_copy_laws (hfit : FieldFits pos.toNat len.toNat)
    (hin : pos.toNat + len.toNat ≤ 8 * d.length) (hz : ZeroFrom value len.toNat) :
    ∃ d', pofbfCoverBit d value pos len = some d' ∧
      (∀ res : Buf, bytenumCeil len.toNat ≤ res.length → pofbfCopyBit d' res pos len =
        value.bytesAt 0 (bytenumCeil len.toNat) ++ res.drop (bytenumCeil len.toNat)) ∧
      (∀ res : Buf, bytenumCeil len.toNat ≤ res.length →
        pofbfCoverBit d (pofbfCopyBit d res pos len) pos len = some d) ∧
      (∀ value' : Buf, ZeroFrom value' len.toNat →
        pofbfCoverBit d' value' pos len = pofbfCoverBit d value' pos len) ∧
      (d'.length = d.length ∧
        ∀ i, ¬ (pos.toNat ≤ i ∧ i < pos.toNat + len.toNat) → d'.bit i = d.bit i) ∧
      (∀ (pos' len' : UInt16) (res : Buf),
        pos'.toNat + len'.toNat ≤ pos.toNat ∨ pos.toNat + len.toNat ≤ pos'.toNat →
        pofbfCopyBit d' res pos' len' = pofbfCopyBit d res pos' len') := by
  obtain ⟨d', hd', hlen, hbits⟩ := pofbfCoverBit_spec (d := d) hfit hz
  have hout : ∀ i, ¬ (pos.toNat ≤ i ∧ i < pos.toNat + len.toNat) → d'.bit i = d.bit i := by
    intro i hi
    rw [hbits, if_neg fun h => hi ⟨h.1, h.2.1⟩]
  refine ⟨d', hd', fun res hres => ?_, fun res hres => pofbfCoverBit_copy hfit hres,
    fun value' hz' => ?_, ⟨hlen, hout⟩, fun pos' len' res hdisj => ?_⟩
  · refine pofbfCopyBit_eq_value hz hres fun j hj => ?_
    rw [hbits, if_pos (by omega), Nat.add_sub_cancel_left]
  · obtain ⟨e, he, helen, hebits⟩ := pofbfCoverBit_spec (d := d) hfit hz'
    obtain ⟨e', he', helen', hebits'⟩ := pofbfCoverBit_spec (d := d') hfit hz'
    rw [he, he']
    refine congrArg some (ext_bit (by omega) fun i _ => ?_)
    rw [hebits, hebits', hlen]
    split_ifs with hi
    · rfl
    · by_cases hend : i < 8 * d.length
      · exact hout i fun h => hi ⟨h.1, h.2, hend⟩
      · rw [bit_of_length_le (by omega), bit_of_length_le (by omega)]
  · exact pofbfCopyBit_congr fun j hj => hout _ (by omega)

end Laws

/-! ### Numbers in fields -/

section Numbers

variable {d value : Buf} {pos len : UInt16}

/-- Covering a field with a zero-padded value puts the number in its first bits into the field. -/
theorem pofbfCoverBit_fieldSet (hfit : FieldFits pos.toNat len.toNat) (hz : ZeroFrom value len.toNat)
    (hin : pos.toNat + len.toNat ≤ 8 * d.length) :
    ∃ c, pofbfCoverBit d value pos len = some c ∧
      FieldSet pos.toNat len.toNat (fieldNat value 0 len.toNat) d c := by
  obtain ⟨c, hc, hlen, hbits⟩ := pofbfCoverBit_spec (d := d) hfit hz
  refine ⟨c, hc, hlen, ?_, fun i hi => ?_⟩
  · refine fieldNat_congr fun j hj => ?_
    rw [hbits, if_pos (by omega), Nat.add_sub_cancel_left, Nat.zero_add]
  · rw [hbits, if_neg fun h => hi ⟨h.1, h.2.1⟩]

/-- A field copied to the front of a variable of `k` bytes and shifted to its end. -/
theorem shiftRight_loadBE_pofbfCopyBit (b : Buf) {res : Buf} {k : ℕ} (hres : res.length = k) (off : UInt16)
    (hlen : len.toNat ≤ 8 * k) :
    (pofbfCopyBit b res off len).loadBE k >>> (8 * k - len.toNat) = fieldNat b off.toNat len.toNat := by
  rw [loadBE_eq_fieldNat]
  -- the bytes behind the field are shifted out
  have hsplit := fieldNat_shiftRight (pofbfCopyBit b res off len) 0 len.toNat (8 * k - len.toNat)
  rw [Nat.add_sub_cancel' hlen] at hsplit
  rw [hsplit]
  refine fieldNat_congr fun j hj => ?_
  rw [Nat.zero_add, bit_pofbfCopyBit, if_pos (by omega)]
  simp [hj]

/-- A number shifted to the front of `k` bytes is zero behind its bits. -/
theorem zeroFrom_storeBE (x : ℕ) {k n : ℕ} (hn : n ≤ 8 * k) : ZeroFrom (storeBE (x <<< (8 * k - n)) k) n := by
  intro j hj
  rw [bit_storeBE_shiftLeft x k hn]
  simp [Nat.not_lt.2 hj]

end Numbers

/-- A field of five bits in the middle of a byte. -/
theorem cover_copy_laws_flags : ∃ d', pofbfCoverBit [0xff, 0xff] [0xa8] 9 5 = some d' ∧
    pofbfCopyBit d' [1, 2] 9 5 = [0xa8, 2] := by
  have hz : ZeroFrom [0xa8] (UInt16.toNat 5) := by
    intro j hj
    rcases Nat.lt_or_ge j 8 with h | h
    · have hlow : ∀ j < 8, 5 ≤ j → bit [0xa8] j = false := by decide
      exact hlow j h hj
    · exact bit_of_length_le h
  obtain ⟨d', hd', hcopy, _⟩ := @cover_copy_laws [0xff, 0xff] [0xa8] 9 5 (by decide) (by decide) hz
  exact ⟨d', hd', hcopy [1, 2] (by decide)⟩

/-! ### The stores -/

/-- A buffer with the indices stored to. -/
structure Written where
  buf : Buf
  stores : List ℕ

/-- One store. -/
def Written.wr (w : Written) (i : ℕ) (v : UInt8) : Written := ⟨w.buf.wr i v, w.stores ++ [i]⟩

/-- `coverLoop` with its stores. -/
def coverLoopLog (posX bound : ℕ) (value : Buf) : ℕ → Written → ℕ → ℕ → ℕ → Option (Written × ℕ × ℕ × ℕ)
  | 0, _, _, _, _ => none
  | fuel + 1, w, ptr, v, process =>
      if process < bound then
        coverLoopLog posX bound value fuel
          (w.wr (ptr + 1)
            (u8 ((value.rd v).toNat <<< (8 - posX) ||| (value.rd (v + 1)).toNat >>> posX)))
          (ptr + 1) (v + 1) ((process + 8) % 2 ^ 32)
      else some (w, ptr, v, process)

/-- `pofbf_cover_bit` with its stores. -/
def pofbfCoverBitLog (dataOri value : Buf) (posB lenB : UInt16) : Option Written :=
  let posX := posB.toNat % 8
  let afterX := if lenB.toNat + posB.toNat = 0 then 0 else (lenB.toNat + posB.toNat - 1) % 8 + 1
  let ptr := posB.toNat / 8
  let old := (dataOri.rd ptr).toNat
  let v₀ := (value.rd 0).toNat
  let w : Written := ⟨dataOri, []⟩
  if lenB.toNat ≤ 8 - posX then
    some (w.wr ptr
      (u8 (old &&& 0xff <<< (8 - posX) ||| v₀ >>> posX &&& 0xff <<< (8 - afterX) |||
        old &&& 0xff >>> afterX)))
  else
    let w₁ := w.wr ptr (u8 (old &&& 0xff <<< (8 - posX) ||| v₀ >>> posX))
    let bound := (lenB.toNat + 2 ^ 32 - 8) % 2 ^ 32
    (coverLoopLog posX bound value coverFuel w₁ ptr 0 (8 - posX)).map fun (w, ptr, v, process) =>
      let r := lenB.toNat - process
      w.wr (ptr + 1)
        (u8 ((value.rd v).toNat <<< (8 - posX) |||
            (value.rd (v + 1)).toNat >>> posX &&& 0xff <<< (8 - r) |||
          (w.buf.rd (ptr + 1)).toNat &&& 0xff >>> r))

/-- The log does not change the loop. -/
theorem coverLoopLog_buf (posX bound : ℕ) (value : Buf) (fuel : ℕ) (w : Written) (ptr v process : ℕ) :
    (coverLoopLog posX bound value fuel w ptr v process).map (fun r => (r.1.buf, r.2)) =
      coverLoop posX bound value fuel w.buf ptr v process := by
  induction fuel generalizing w ptr v process with
  | zero => rfl
  | succ fuel ih =>
      rw [coverLoopLog, coverLoop]
      split
      · exact ih _ _ _ _
      · rfl

/-- **The log does not change the routine.** -/
theorem pofbfCoverBitLog_buf (d value : Buf) (pos len : UInt16) :
    (pofbfCoverBitLog d value pos len).map Written.buf = pofbfCoverBit d value pos len := by
  simp only [pofbfCoverBitLog, pofbfCoverBit]
  by_cases hin : len.toNat ≤ 8 - pos.toNat % 8
  · rw [if_pos hin, if_pos hin]
    rfl
  · rw [if_neg hin, if_neg hin, Option.map_map]
    refine Eq.trans ?_ (congrArg (Option.map _)
      (coverLoopLog_buf _ _ _ _ (Written.wr ⟨d, []⟩ _ _) _ _ _))
    rw [Option.map_map]
    rfl

/-- `copyLoop` with its stores. -/
def copyLoopLog (offX : ℕ) (dataOri : Buf) : ℕ → ℕ → Written → ℕ → Written
  | 0, _, w, _ => w
  | n + 1, ptr, w, i =>
      copyLoopLog offX dataOri n (ptr + 1)
        (w.wr i (u8 ((dataOri.rd ptr).toNat <<< offX |||
          (dataOri.rd (ptr + 1)).toNat >>> (8 - offX)))) (i + 1)

/-- `pofbf_copy_bit` with its stores into the result; the store of an empty field in front of it puts the
byte back that is there. -/
def pofbfCopyBitLog (dataOri dataRes : Buf) (offsetB lenB : UInt16) : Written :=
  let turns := (lenB.toNat + 7) / 8
  let w := copyLoopLog (offsetB.toNat % 8) dataOri turns (offsetB.toNat / 8) ⟨dataRes, []⟩ 0
  if turns = 0 then w
  else w.wr (turns - 1) (u8 ((w.buf.rd (turns - 1)).toNat &&& 0xff <<< (8 * turns - lenB.toNat)))

theorem copyLoopLog_buf (offX : ℕ) (d : Buf) (n ptr : ℕ) (w : Written) (i : ℕ) :
    (copyLoopLog offX d n ptr w i).buf = copyLoop offX d n ptr w.buf i := by
  induction n generalizing ptr w i with
  | zero => rfl
  | succ n ih => exact ih _ _ _

theorem stores_copyLoopLog (offX : ℕ) (d : Buf) (n ptr : ℕ) (w : Written) (i : ℕ) :
    (copyLoopLog offX d n ptr w i).stores = w.stores ++ List.range' i n := by
  induction n generalizing ptr w i with
  | zero => simp [copyLoopLog]
  | succ n ih =>
      rw [copyLoopLog, ih, List.range'_succ]
      simp [Written.wr]

/-- **The log does not change the copy.** -/
theorem pofbfCopyBitLog_buf (d res : Buf) (off len : UInt16) :
    (pofbfCopyBitLog d res off len).buf = pofbfCopyBit d res off len := by
  simp only [pofbfCopyBitLog, pofbfCopyBit, ← copyLoopLog_buf _ _ _ _ ⟨res, []⟩]
  split
  · rfl
  · rfl

/-- The copy stays inside `n` bytes exactly when the field does. -/
theorem copy_stores_lt_iff (d res : Buf) (off len : UInt16) (n : ℕ) :
    (∀ i ∈ (pofbfCopyBitLog d res off len).stores, i < n) ↔ len.toNat ≤ 8 * n := by
  have hstores : ∀ i, i ∈ (pofbfCopyBitLog d res off len).stores ↔ i < (len.toNat + 7) / 8 := by
    intro i
    simp only [pofbfCopyBitLog]
    split_ifs with hturns
    · rw [stores_copyLoopLog, hturns]
      simp
    · simp only [Written.wr, stores_copyLoopLog, List.nil_append, List.mem_append, List.mem_singleton,
        List.mem_range'_1, Nat.zero_le, Nat.zero_add, true_and]
      omega
  simp only [hstores]
  constructor
  · intro hall
    by_contra hlong
    exact absurd (hall n (by omega)) (Nat.lt_irrefl n)
  · intro hle i hi
    omega

/-- The loop stores to the bytes it passes. -/
theorem mem_stores_coverLoopLog {posX bound : ℕ} {value : Buf} {fuel : ℕ} {w w' : Written}
    {ptr v process ptr' v' process' : ℕ}
    (h : coverLoopLog posX bound value fuel w ptr v process = some (w', ptr', v', process')) :
    ptr ≤ ptr' ∧ ∀ i ∈ w'.stores, i ∈ w.stores ∨ ptr < i ∧ i ≤ ptr' := by
  induction fuel generalizing w ptr v process with
  | zero => cases h
  | succ fuel ih =>
      rw [coverLoopLog] at h
      split_ifs at h with hmore
      · obtain ⟨hle, hmem⟩ := ih h
        refine ⟨by omega, fun i hi => ?_⟩
        rcases hmem i hi with hold | hnew
        · rcases List.mem_append.1 hold with hold | hone
          · exact Or.inl hold
          · rw [List.mem_singleton.1 hone]
            exact Or.inr ⟨by omega, hle⟩
        · exact Or.inr ⟨by omega, hnew.2⟩
      · cases h
        exact ⟨Nat.le_refl _, fun i hi => Or.inl hi⟩

/-- The routine returns, has stored only to bytes with a bit of the field, and has changed no other
bit. -/
def CoverSafe (d value : Buf) (pos len : UInt16) : Prop :=
  ∃ w, pofbfCoverBitLog d value pos len = some w ∧
    (∀ i ∈ w.stores, ∃ b, pos.toNat ≤ b ∧ b < pos.toNat + len.toNat ∧ i = b / 8) ∧
    ∀ i, ¬ (pos.toNat ≤ i ∧ i < pos.toNat + len.toNat) → w.buf.bit i = d.bit i

section Stores

variable {d value : Buf} {pos len : UInt16}

/-- Where the loop stands when it is left. -/
theorem coverLoop_end (h₈ : 8 ≤ len.toNat) (hcross : 8 < pos.toNat % 8 + len.toNat) {data data' : Buf}
    {ptr' v' process' : ℕ}
    (h : coverLoop (pos.toNat % 8) ((len.toNat + 2 ^ 32 - 8) % 2 ^ 32) value coverFuel data
      (pos.toNat / 8) 0 (8 - pos.toNat % 8) = some (data', ptr', v', process')) :
    ptr' + 1 = (pos.toNat + len.toNat - 1) / 8 := by
  have hlen := len.toNat_lt
  obtain ⟨q, r, hr₁, hr₈, hqr⟩ : ∃ q r, 1 ≤ r ∧ r ≤ 8 ∧ len.toNat = 8 - pos.toNat % 8 + 8 * q + r :=
    ⟨(len.toNat - (8 - pos.toNat % 8) - 1) / 8, (len.toNat - (8 - pos.toNat % 8) - 1) % 8 + 1,
      by omega, by omega, by omega⟩
  have hbound : (len.toNat + 2 ^ 32 - 8) % 2 ^ 32 = len.toNat - 8 := by omega
  rw [hbound, coverLoop_eq _ (len.toNat - 8) value (by omega) q coverFuel data (pos.toNat / 8) 0
    (8 - pos.toNat % 8) (by rw [coverFuel]; omega) (by omega) (fun _ => by omega)] at h
  cases h
  omega

theorem coverLoopLog_end (h₈ : 8 ≤ len.toNat) (hcross : 8 < pos.toNat % 8 + len.toNat) {w w' : Written}
    {ptr' v' process' : ℕ}
    (h : coverLoopLog (pos.toNat % 8) ((len.toNat + 2 ^ 32 - 8) % 2 ^ 32) value coverFuel w
      (pos.toNat / 8) 0 (8 - pos.toNat % 8) = some (w', ptr', v', process')) :
    ptr' + 1 = (pos.toNat + len.toNat - 1) / 8 := by
  have hbuf := coverLoopLog_buf (pos.toNat % 8) ((len.toNat + 2 ^ 32 - 8) % 2 ^ 32) value coverFuel w
    (pos.toNat / 8) 0 (8 - pos.toNat % 8)
  rw [h] at hbuf
  exact coverLoop_end h₈ hcross hbuf.symm

/-- The stores for a field that fits. -/
theorem mem_stores_of_fits (hfit : FieldFits pos.toNat len.toNat) {w : Written}
    (h : pofbfCoverBitLog d value pos len = some w) {i : ℕ} (hi : i ∈ w.stores) :
    pos.toNat / 8 ≤ i ∧ i ≤ (pos.toNat + len.toNat - 1) / 8 := by
  simp only [pofbfCoverBitLog] at h
  by_cases hin : len.toNat ≤ 8 - pos.toNat % 8
  · rw [if_pos hin] at h
    cases h
    rw [List.mem_singleton.1 hi]
    rcases hfit with h₈ | ⟨h₁, _⟩ <;> omega
  · have h₈ : 8 ≤ len.toNat := by
      rcases hfit with h₈ | ⟨_, hbyte⟩ <;> omega
    rw [if_neg hin] at h
    obtain ⟨⟨w', ptr', v', process'⟩, hloop, rfl⟩ := Option.map_eq_some_iff.1 h
    obtain ⟨hle, hmem⟩ := mem_stores_coverLoopLog hloop
    have hend := coverLoopLog_end h₈ (by omega) hloop
    rcases List.mem_append.1 hi with hi | hi
    · rcases hmem i hi with hfirst | hmid
      · rw [List.mem_singleton.1 hfirst]
        omega
      · omega
    · rw [List.mem_singleton.1 hi]
      exact ⟨Nat.le_succ_of_le hle, hend.le⟩

theorem pofbfCoverBitLog_eq_none_iff (d value : Buf) (pos len : UInt16) :
    pofbfCoverBitLog d value pos len = none ↔ ¬ (8 ≤ len.toNat ∨ pos.toNat % 8 + len.toNat ≤ 8) := by
  rw [← pofbfCoverBit_eq_none_iff d value, ← pofbfCoverBitLog_buf, Option.map_eq_none_iff]

/-- The last byte that is stored to is that of the last bit, or of the position of an empty field. -/
theorem last_mem_stores {w : Written} (h : pofbfCoverBitLog d value pos len = some w) :
    (pos.toNat + (len.toNat - 1)) / 8 ∈ w.stores := by
  have hreturns : 8 ≤ len.toNat ∨ pos.toNat % 8 + len.toNat ≤ 8 := by
    by_contra hnot
    rw [(pofbfCoverBitLog_eq_none_iff d value pos len).2 hnot] at h
    cases h
  simp only [pofbfCoverBitLog] at h
  by_cases hin : len.toNat ≤ 8 - pos.toNat % 8
  · rw [if_pos hin] at h
    cases h
    exact List.mem_singleton.2 (by omega)
  · rw [if_neg hin] at h
    obtain ⟨⟨w', ptr', v', process'⟩, hloop, rfl⟩ := Option.map_eq_some_iff.1 h
    have hend := coverLoopLog_end (by omega) (by omega) hloop
    refine List.mem_append_right _ (List.mem_singleton.2 ?_)
    rw [hend, ← Nat.add_sub_assoc (by omega)]

/-- **The stores stay inside `n` bytes exactly when the last one does.** -/
theorem stores_lt_iff {w : Written} (h : pofbfCoverBitLog d value pos len = some w) (n : ℕ) :
    (∀ i ∈ w.stores, i < n) ↔ (pos.toNat + (len.toNat - 1)) / 8 < n := by
  constructor
  · intro hall
    exact hall _ (last_mem_stores h)
  · intro hlast i hi
    rcases Nat.eq_zero_or_pos len.toNat with hzero | hpos
    · simp only [pofbfCoverBitLog] at h
      rw [if_pos (by omega)] at h
      cases h
      rw [List.mem_singleton.1 hi]
      omega
    · have hfit : FieldFits pos.toNat len.toNat := by
        rw [FieldFits]
        by_contra hnot
        rw [(pofbfCoverBitLog_eq_none_iff d value pos len).2 (by omega)] at h
        cases h
      have hlast' := (mem_stores_of_fits hfit h hi).2
      omega

/-- **The routine is safe exactly for a field of at least a byte, or a non-empty one inside a
byte.** -/
theorem coverSafe_iff (hz : ZeroFrom value len.toNat) :
    CoverSafe d value pos len ↔ FieldFits pos.toNat len.toNat := by
  constructor
  · rintro ⟨w, hw, hstores, _⟩
    have hbuf := pofbfCoverBitLog_buf d value pos len
    rw [hw] at hbuf
    have hreturns : 8 ≤ len.toNat ∨ pos.toNat % 8 + len.toNat ≤ 8 := by
      by_contra hnot
      rw [(pofbfCoverBit_eq_none_iff d value pos len).2 hnot] at hbuf
      cases hbuf
    rcases hreturns with h₈ | hbyte
    · exact Or.inl h₈
    · -- the byte of the first bit is stored to, so there is such a bit
      refine Or.inr ⟨?_, hbyte⟩
      simp only [pofbfCoverBitLog] at hw
      rw [if_pos (by omega)] at hw
      cases hw
      obtain ⟨b, hb₁, hb₂, _⟩ := hstores (pos.toNat / 8) (List.mem_singleton.2 rfl)
      omega
  · intro hfit
    obtain ⟨d', hd', _, hbits⟩ := pofbfCoverBit_spec (d := d) hfit hz
    rw [← pofbfCoverBitLog_buf] at hd'
    obtain ⟨w, hw, rfl⟩ := Option.map_eq_some_iff.1 hd'
    have hpos : 1 ≤ len.toNat := by
      rcases hfit with h₈ | ⟨h₁, _⟩ <;> omega
    refine ⟨w, hw, fun i hi => ?_, fun i hi => ?_⟩
    · obtain ⟨hfirst, hlast⟩ := mem_stores_of_fits hfit hw hi
      rcases Nat.lt_or_ge (8 * i) pos.toNat with hlow | hhigh
      · exact ⟨pos.toNat, Nat.le_refl _, by omega, by omega⟩
      · exact ⟨8 * i, hhigh, by omega, by omega⟩
    · rw [hbits, if_neg fun h => hi ⟨h.1, h.2.1⟩]

end Stores

/-- Two bytes from bit `4` on. -/
theorem coverSafe_two_bytes : CoverSafe [1, 2, 3] [0, 0] 4 16 := by
  have hz : ZeroFrom [0, 0] (UInt16.toNat 16) := fun j hj => bit_of_length_le hj
  exact (coverSafe_iff hz).2 (by decide)

/-- Three bits across a byte boundary are never done with, and an empty field clears a byte. -/
theorem not_coverSafe_short :
    (ZeroFrom [] (UInt16.toNat 3) ∧ ¬ CoverSafe [0, 0] [] 6 3) ∧
      ZeroFrom [] (UInt16.toNat 0) ∧ ¬ CoverSafe [1, 2] [] 8 0 := by
  have hz : ∀ n, ZeroFrom [] n := fun n j _ => bit_of_length_le (Nat.zero_le _)
  refine ⟨⟨hz _, ?_⟩, hz _, ?_⟩
  · rintro ⟨w, hw, _⟩
    have hbuf := pofbfCoverBitLog_buf [0, 0] [] 6 3
    rw [hw, (pofbfCoverBit_eq_none_iff [0, 0] [] 6 3).2 (by decide)] at hbuf
    cases hbuf
  · rintro ⟨w, hw, _, hbits⟩
    have hbyte : w.buf.bit 14 = false := by
      cases hw
      decide
    rw [hbits 14 (by decide)] at hbyte
    exact absurd hbyte (by decide)

/-! ### Bits behind the field -/

/-- The buffer up to the byte of bit `m`, with this bit only. -/
def oneBit (m : ℕ) : Buf := (Buf.zeros (m / 8 + 1)).wr (m / 8) (u8 (2 ^ (7 - m % 8)))

theorem bit_oneBit (m j : ℕ) : (oneBit m).bit j = decide (j = m) := by
  rw [oneBit, bit, rd_wr, length_zeros, rd_zeros]
  by_cases hbyte : j / 8 = m / 8
  · rw [if_pos ⟨hbyte, by omega⟩, bitOf, testBit_u8, Nat.testBit_two_pow]
    simp only [show 7 - j % 8 < 8 by omega, decide_true, Bool.true_and, decide_eq_decide]
    omega
  · rw [if_neg fun h => hbyte h.1, bitOf_zero]
    simp only [Bool.false_eq, decide_eq_false_iff_not]
    rintro rfl
    exact hbyte rfl

/-- **The bits of the value behind the field do not matter exactly when the bits they reach are one
already.** -/
theorem cover_field_only_iff {d : Buf} {pos len : UInt16} (hlen : 8 ≤ len.toNat) :
    (∀ value value' : Buf, (∀ j < len.toNat, value.bit j = value'.bit j) →
      pofbfCoverBit d value pos len = pofbfCoverBit d value' pos len) ↔
    ∀ i, Leaks pos.toNat len.toNat i → i < 8 * d.length → d.bit i = true := by
  have hfit : FieldFits pos.toNat len.toNat := Or.inl hlen
  constructor
  · intro hsame i hleak hi
    -- two values that differ in the bit that reaches bit `i`
    have hreach : pos.toNat + len.toNat ≤ i := hleak.1
    have hagree : ∀ j < len.toNat, bit [] j = (oneBit (i - pos.toNat)).bit j := by
      intro j hj
      rw [bit_oneBit, bit_of_length_le (Nat.zero_le _)]
      simp only [Bool.false_eq, decide_eq_false_iff_not]
      omega
    obtain ⟨d₀, hd₀, _, hbits₀⟩ := pofbfCoverBit_bits d [] hfit
    obtain ⟨d₁, hd₁, _, hbits₁⟩ := pofbfCoverBit_bits d (oneBit (i - pos.toNat)) hfit
    have heq := hsame [] (oneBit (i - pos.toNat)) hagree
    rw [hd₀, hd₁] at heq
    cases heq
    have hbit := (hbits₀ i).symm.trans (hbits₁ i)
    rw [if_neg (by omega), if_pos ⟨hleak, hi⟩, if_neg (by omega), if_pos ⟨hleak, hi⟩, bit_oneBit,
      bit_of_length_le (Nat.zero_le _)] at hbit
    simpa using hbit
  · intro hones value value' hagree
    obtain ⟨d₀, hd₀, hlen₀, hbits₀⟩ := pofbfCoverBit_bits d value hfit
    obtain ⟨d₁, hd₁, hlen₁, hbits₁⟩ := pofbfCoverBit_bits d value' hfit
    rw [hd₀, hd₁]
    refine congrArg some (ext_bit (by omega) fun i _ => ?_)
    rw [hbits₀, hbits₁]
    split_ifs with hin hleak
    · exact hagree _ (by omega)
    · rw [hones i hleak.1 hleak.2, Bool.or_true, Bool.or_true]
    · rfl

/-- Sixteen bits from bit `4` on: the field ends in its last byte where it begins in the first. -/
theorem cover_field_only_aligned :
    pofbfCoverBit [1, 2, 3] [4, 5, 6] 4 16 = pofbfCoverBit [1, 2, 3] [4, 5] 4 16 := by
  refine (cover_field_only_iff (d := [1, 2, 3]) (by decide)).2 ?_ _ _ (by decide)
  rintro i ⟨h₁, h₂⟩
  exact absurd h₂ (Nat.not_lt.2 h₁)

/-- Two values that agree on the ten bits of a field at bit `7`. -/
theorem cover_leaks_padding : (∀ j < UInt16.toNat 10, bit [0, 0] j = bit [0, 0x3f] j) ∧
    pofbfCoverBit [0, 0, 0] [0, 0] 7 10 ≠ pofbfCoverBit [0, 0, 0] [0, 0x3f] 7 10 := by
  refine ⟨by decide, fun heq => ?_⟩
  have hfit : FieldFits (UInt16.toNat 7) (UInt16.toNat 10) := by decide
  obtain ⟨d₀, hd₀, _, hbits₀⟩ := pofbfCoverBit_bits [0, 0, 0] [0, 0] hfit
  obtain ⟨d₁, hd₁, _, hbits₁⟩ := pofbfCoverBit_bits [0, 0, 0] [0, 0x3f] hfit
  rw [hd₀, hd₁] at heq
  cases heq
  have hbit := (hbits₀ 17).symm.trans (hbits₁ 17)
  exact absurd hbit (by decide)

end PofSwitch
