/-
**Adding and deleting fields of a packet.**

`execute_ADD_FIELD` moves the bits behind a position back and puts a tag in front of them;
`execute_DELETE_FIELD` moves them forward again.  Both go through a temporary buffer and the bit copies
of `pof_basefunc.c`, at any alignment.  On the bits of the window this is the insertion and the deletion
of a segment, for tags of whole bytes.

The lengths are tested on unsigned numbers.  The length behind the tag of an addition is never found
negative, the sum of the offset and the lengths is found too large when it is negative, and the length
behind the tag of a deletion is cut to 16 bits before its sign is tested.  For each of the two operations
this module says exactly which requests go wrong.

Main definitions:

* `PofSwitch.insertBits`, `PofSwitch.deleteBits` — a segment is inserted into or deleted from a sequence;
* `PofSwitch.PacketOk` — the window of a packet in its buffer;
* `PofSwitch.AddsAndDeletes`, `PofSwitch.AddRefuses`, `PofSwitch.DeleteExact` — what is expected.

Main results:

* `PofSwitch.addsAndDeletes_iff` — **a tag of whole bytes is inserted and its deletion restores the
  packet, unless the packet is found too long because its length is negative;**
* `PofSwitch.addRefuses_iff` — which additions that should be refused are refused;
* `PofSwitch.deleteExact_iff` — for which lengths a deletion is decided correctly.
-/

import PofSwitch.PacketLength

set_option relaxedAutoImplicit false
set_option autoImplicit false

namespace PofSwitch

open Buf Prog

/-! ### Segments of a sequence -/

section Segments

variable {α : Type}

/-- `tag` is inserted into `f` at `pos`. -/
def insertBits (pos len : ℕ) (tag f : ℕ → α) : ℕ → α := fun i =>
  if i < pos then f i else if i < pos + len then tag (i - pos) else f (i - len)

/-- The segment of length `len` at `pos` is deleted from `f`. -/
def deleteBits (pos len : ℕ) (f : ℕ → α) : ℕ → α := fun i => if i < pos then f i else f (i + len)

theorem deleteBits_insertBits (pos len : ℕ) (tag f : ℕ → α) :
    deleteBits pos len (insertBits pos len tag f) = f := by
  funext i
  simp only [deleteBits, insertBits]
  by_cases hi : i < pos
  · simp [hi]
  · rw [if_neg hi, if_neg (by omega), if_neg (by omega), Nat.add_sub_cancel]

end Segments

/-! ### Moving the bits behind a position -/

section Move

variable {d value : Buf} {pos len : UInt16}

/-- Covering the last bits of a window: nothing in front of them changes.  When there are none, the
byte behind the window is stored to. -/
theorem pofbfCoverBit_last (hz : ZeroFrom value len.toNat)
    (hfit : FieldFits pos.toNat len.toNat ∨ len.toNat = 0 ∧ pos.toNat % 8 = 0) :
    ∃ d', pofbfCoverBit d value pos len = some d' ∧ d'.length = d.length ∧
      ∀ i < pos.toNat + len.toNat, i < 8 * d.length →
        d'.bit i = if i < pos.toNat then d.bit i else value.bit (i - pos.toNat) := by
  rcases hfit with hfit | ⟨hempty, haligned⟩
  · obtain ⟨d', hd', hlen, hbits⟩ := pofbfCoverBit_spec (d := d) hfit hz
    refine ⟨d', hd', hlen, fun i hi hin => ?_⟩
    rw [hbits]
    by_cases hfront : i < pos.toNat
    · rw [if_neg (by omega), if_pos hfront]
    · rw [if_pos (by omega), if_neg hfront]
  · have hsome : pofbfCoverBit d value pos len ≠ none := by
      rw [Ne, pofbfCoverBit_eq_none_iff]
      omega
    obtain ⟨d', hd'⟩ := Option.ne_none_iff_exists'.1 hsome
    refine ⟨d', hd', length_pofbfCoverBit hd', fun i hi hin => ?_⟩
    rw [if_pos (by omega), bit, bit, rd_pofbfCoverBit_of_lt hd' (by omega)]

/-- Covering a field of whole bytes, whatever is behind the value. -/
theorem pofbfCoverBit_bytes (d value : Buf) (pos : UInt16) (h₈ : 8 ≤ len.toNat) (hbytes : len.toNat % 8 = 0) :
    ∃ d', pofbfCoverBit d value pos len = some d' ∧ d'.length = d.length ∧
      ∀ i < 8 * d.length, d'.bit i =
        if pos.toNat ≤ i ∧ i < pos.toNat + len.toNat then value.bit (i - pos.toNat) else d.bit i := by
  obtain ⟨d', hd', hlen, hbits⟩ := pofbfCoverBit_bits d value (Or.inl h₈)
  refine ⟨d', hd', hlen, fun i hi => ?_⟩
  have hclean : ¬ (Leaks pos.toNat len.toNat i ∧ i < 8 * d.length) := by
    rintro ⟨⟨_, _⟩, _⟩
    omega
  rw [hbits, if_neg hclean]
  exact if_congr (by omega) rfl rfl

/-- The bits from a position on, in a buffer of their own. -/
theorem bit_copy_behind (w : Buf) {n : ℕ} (hn : len.toNat ≤ 8 * n) (j : ℕ) :
    (pofbfCopyBit w (Buf.zeros n) pos len).bit j = (decide (j < len.toNat) && w.bit (pos.toNat + j)) := by
  rw [bit_pofbfCopyBit, length_zeros]
  split_ifs with hin
  · rfl
  · by_cases hj : j < len.toNat
    · exact absurd ⟨by omega, by omega⟩ hin
    · simp [hj, bit, rd, Buf.zeros]

/-- A field that ends with a byte is at least a byte long, inside a byte, or empty. -/
theorem fits_of_end {p n : ℕ} (hend : (p + n) % 8 = 0) : FieldFits p n ∨ n = 0 ∧ p % 8 = 0 := by
  unfold FieldFits
  omega

variable {other : UInt16} {n : ℕ}

/-- The two stores of `insertTagToPacket`. -/
theorem insert_window (w tag : Buf) (pos len behind : UInt16) (h₈ : 8 ≤ len.toNat) (hbytes : len.toNat % 8 = 0)
    (hother : other.toNat = pos.toNat + len.toNat) (hend : (pos.toNat + behind.toNat) % 8 = 0)
    (hn : behind.toNat ≤ 8 * n) (hin : pos.toNat + len.toNat + behind.toNat ≤ 8 * w.length) :
    ∃ w₁ w₂, pofbfCoverBit w tag pos len = some w₁ ∧
      pofbfCoverBit w₁ (pofbfCopyBit w (Buf.zeros n) pos behind) other behind = some w₂ ∧
      w₂.length = w.length ∧ ∀ i < pos.toNat + len.toNat + behind.toNat,
        w₂.bit i = insertBits pos.toNat len.toNat tag.bit w.bit i := by
  obtain ⟨w₁, hw₁, hlen₁, hbits₁⟩ := pofbfCoverBit_bytes w tag pos h₈ hbytes
  have hfits := fits_of_end (p := other.toNat) (n := behind.toNat) (by omega)
  obtain ⟨w₂, hw₂, hlen₂, hbits₂⟩ := pofbfCoverBit_last (d := w₁)
    (zeroFrom_pofbfCopyBit w n _ _) hfits
  refine ⟨w₁, w₂, hw₁, hw₂, hlen₂.trans hlen₁, fun i hi => ?_⟩
  rw [hbits₂ i (by omega) (by omega), hbits₁ i (by omega), insertBits, hother]
  by_cases hfront : i < pos.toNat
  · rw [if_pos (by omega), if_neg (by omega), if_pos hfront]
  · rw [if_neg hfront]
    by_cases htag : i < pos.toNat + len.toNat
    · rw [if_pos htag, if_pos (by omega), if_pos htag]
    · rw [if_neg htag, if_neg htag, bit_copy_behind w hn]
      rw [show pos.toNat + (i - (pos.toNat + len.toNat)) = i - len.toNat by omega]
      simp [show i - (pos.toNat + len.toNat) < behind.toNat by omega]

/-- The store of `execute_DELETE_FIELD`. -/
theorem delete_window (w : Buf) (pos behind : UInt16) {k : ℕ} (hother : other.toNat = pos.toNat + k)
    (hend : (pos.toNat + behind.toNat) % 8 = 0) (hn : behind.toNat ≤ 8 * n)
    (hin : pos.toNat + k + behind.toNat ≤ 8 * w.length) :
    ∃ w', pofbfCoverBit w (pofbfCopyBit w (Buf.zeros n) other behind) pos behind = some w' ∧
      w'.length = w.length ∧ ∀ i < pos.toNat + behind.toNat,
        w'.bit i = deleteBits pos.toNat k w.bit i := by
  obtain ⟨w', hw', hlen, hbits⟩ := pofbfCoverBit_last (d := w) (zeroFrom_pofbfCopyBit w n _ _)
    (fits_of_end hend)
  refine ⟨w', hw', hlen, fun i hi => ?_⟩
  rw [hbits i hi (by omega), deleteBits]
  by_cases hfront : i < pos.toNat
  · rw [if_pos hfront, if_pos hfront]
  · rw [if_neg hfront, if_neg hfront, bit_copy_behind w hn, hother,
      show pos.toNat + k + (i - pos.toNat) = i + k by omega]
    simp [show i - pos.toNat < behind.toNat by omega]

end Move

/-! ### The two operations on a packet -/

/-- The window of a packet in its buffer: it begins behind or in the head room, and the metadata has
room for the recorded length. -/
structure PacketOk (dpp : DpPacket) : Prop where
  place : dpp.bufOffset = packetPrebufLen + dpp.offset
  front : -packetPrebufLen ≤ dpp.offset
  left : 0 ≤ dpp.leftLen
  memory : dpp.buf.length = packetRawMaxLen
  record : 2 ≤ dpp.metadata.length

/-- The state with other bytes in the window, another length and another recorded length. -/
def DpState.resized (s : DpState) (w : Buf) (left n : ℤ) : DpState :=
  { s with dpp := { s.dpp.setWindow w with leftLen := left }.setRelLen n }

section Resized

variable {s : DpState} {w : Buf} {left n : ℤ}

@[simp] theorem leftLen_resized : (s.resized w left n).dpp.leftLen = left := rfl

@[simp] theorem offset_resized : (s.resized w left n).dpp.offset = s.dpp.offset := rfl

@[simp] theorem bufOffset_resized : (s.resized w left n).dpp.bufOffset = s.dpp.bufOffset := rfl

theorem window_resized (h : s.dpp.bufOffset.toNat ≤ s.dpp.buf.length) :
    (s.resized w left n).dpp.window = w :=
  DpPacket.window_setWindow h w

theorem relLen_resized (h : 2 ≤ s.dpp.metadata.length) : (s.resized w left n).dpp.relLen = toUInt16 n :=
  relLen_setRelLen { s.dpp.setWindow w with leftLen := left } h n

theorem PacketOk.resized (h : PacketOk s.dpp) (hleft : 0 ≤ left) (hw : w.length = s.dpp.window.length) :
    PacketOk (s.resized w left n).dpp where
  place := h.place
  front := h.front
  left := hleft
  memory := by
    rw [← h.memory]
    simp only [DpState.resized, DpPacket.setRelLen, DpPacket.setWindow, List.length_append,
      List.length_take, hw, DpPacket.window, List.length_drop]
    omega
  record := by
    simp only [DpState.resized, DpPacket.setRelLen, DpPacket.setWindow, length_paste]
    exact h.record

end Resized

section Operations

variable {s : DpState} {data : Buf}

/-- The check of `execute_ADD_FIELD` and `insertTagToPacket`, on exact numbers. -/
theorem addField_check_iff (data : Buf) (hrange : InRange s.extent) (h128 : word data 4 ≤ 128) :
    toUInt32 (s.dpp.offset + s.dpp.leftLen) + (word data 4 + 7) / 8 > UInt32.ofNat packetRawMaxLen ↔
      s.dpp.offset + s.dpp.leftLen + addedBytes data < 0 ∨
        packetRawMaxLen < s.dpp.offset + s.dpp.leftLen + addedBytes data := by
  obtain ⟨⟨ho₁, ho₂⟩, hl₁, hl₂⟩ := hrange
  simp only [DpState.extent] at ho₁ ho₂ hl₁ hl₂
  have hcast := toNat_toUInt32 (s.dpp.offset + s.dpp.leftLen)
  have hadd : ((word data 4 + 7) / 8).toNat ≤ 16 := by
    have h7 : (7 : UInt32).toNat = 7 := rfl
    have h8 : (8 : UInt32).toNat = 8 := rfl
    rw [UInt32.le_iff_toNat_le] at h128
    change (word data 4).toNat ≤ 128 at h128
    rw [UInt32.toNat_div, UInt32.toNat_add, h7, h8]
    omega
  rw [gt_iff_lt, UInt32.lt_iff_toNat_lt, UInt32.toNat_add]
  simp only [addedBytes, packetRawMaxLen]
  change 2048 < _ ↔ _
  omega

/-- An `ADD_FIELD` that passes the checks and whose stores are inside. -/
theorem exec_addFieldAction {w₁ w₂ : Buf} (h128 : ¬ word data 4 > 128)
    (hroom : ¬ toUInt32 (s.dpp.offset + s.dpp.leftLen) + (word data 4 + 7) / 8 > UInt32.ofNat packetRawMaxLen)
    (hinside : TagInside data s) (hle : s.dpp.bufOffset.toNat ≤ s.dpp.buf.length)
    (hw₁ : pofbfCoverBit s.dpp.window (data.bytesAt 8 maxFieldLengthInByte) (half data 2)
      (word data 4).toUInt16 = some w₁)
    (hw₂ : pofbfCoverBit w₁ (pofbfCopyBit s.dpp.window (Buf.zeros packetRawMaxLen) (half data 2)
      (behindAdded data s)) ((half data 2).toUInt32 + word data 4).toUInt16 (behindAdded data s) = some w₂) :
    exec (addFieldAction data) s =
      (.ok (), s.resized w₂ (toInt32 (s.dpp.leftLen + addedBytes data))
        (s.dpp.relLen.toNat + addedBytes data)) := by
  have hpos : (half data 2).toUInt32.toUInt16 = half data 2 := UInt16.toUInt16_toUInt32 _
  have hbehind : (toUInt32 (s.dpp.leftLen * 8 - (half data 2).toUInt32.toNat)).toUInt16 =
      behindAdded data s := by
    rw [behindAdded, UInt16.toNat_toUInt32]
  rw [addFieldAction, exec_bind_ok (exec_failIf_neg h128 _ _ s), insertTagToPacket, exec_bind_ok exec_get]
  dsimp only
  rw [exec_bind_ok (exec_failIf_neg hroom _ _ s), hpos, hbehind,
    exec_bind_ok (exec_checkUndefined_neg (Nat.not_lt.2 hinside.copied) s),
    exec_bind_ok ((exec_coverInBuf hinside.tag).trans (exec_coverWindow hw₁))]
  have hsecond := (exec_coverInBuf (s := { s with dpp := s.dpp.setWindow w₁ }) hinside.behind).trans
    (exec_coverWindow (by rw [DpPacket.window_setWindow hle]; exact hw₂))
  rw [exec_bind_ok hsecond, DpPacket.setWindow_setWindow hle]
  rfl

/-- The number of bits behind the tag of a `DELETE_FIELD`, as the code calculates it. -/
def behindDeleted (data : Buf) (len : UInt32) (s : DpState) : UInt16 :=
  (toUInt32 (s.dpp.leftLen * 8) - ((half data 0).toUInt32 + len)).toUInt16

theorem exec_of_deletedBits {len : UInt32} (hlen : deletedBits data s = some len) :
    exec (pofdpGet32value (data.rd 2) data 8) s = (.ok len, s) := by
  have hframe : Frame id (pofdpGet32value (data.rd 2) data 8) := frame_pofdpGet32value _ _ _
  rw [deletedBits] at hlen
  rcases hget : exec (pofdpGet32value (data.rd 2) data 8) s with ⟨e | value, t⟩
  · rw [hget] at hlen
    cases hlen
  · rw [hget] at hlen
    cases hlen
    rw [hframe.same hget]

/-- A `DELETE_FIELD` whose length is found negative. -/
theorem exec_deleteFieldAction_error {len : UInt32} (hlen : deletedBits data s = some len)
    (hneg : behindDeleted data len s ≥ 0x8000) :
    exec (deleteFieldAction data) s = (.error (.error ⟨.softwareFailed, .pofPacketLenError⟩), s) := by
  rw [deleteFieldAction, exec_bind_ok (exec_of_deletedBits hlen), exec_bind_ok exec_get]
  exact exec_bind_error (exec_failIf_pos hneg _ _ s)

/-- A `DELETE_FIELD` that does not return. -/
theorem exec_deleteFieldAction_hang {len : UInt32} (hlen : deletedBits data s = some len)
    (hneg : ¬ behindDeleted data len s ≥ 0x8000)
    (hw : pofbfCoverBit s.dpp.window (pofbfCopyBit s.dpp.window (Buf.zeros packetRawMaxLen)
      ((half data 0).toUInt32 + len).toUInt16 (behindDeleted data len s)) (half data 0)
      (behindDeleted data len s) = none) :
    exec (deleteFieldAction data) s = (.error .hang, s) := by
  unfold behindDeleted at hneg hw
  rw [deleteFieldAction, exec_bind_ok (exec_of_deletedBits hlen), exec_bind_ok exec_get]
  dsimp only
  rw [exec_bind_ok (exec_failIf_neg hneg _ _ s)]
  exact exec_bind_error (exec_coverWindow_none hw)

/-- A `DELETE_FIELD` that returns. -/
theorem exec_deleteFieldAction {len : UInt32} (hlen : deletedBits data s = some len)
    (hneg : ¬ behindDeleted data len s ≥ 0x8000) {w : Buf}
    (hw : pofbfCoverBit s.dpp.window (pofbfCopyBit s.dpp.window (Buf.zeros packetRawMaxLen)
      ((half data 0).toUInt32 + len).toUInt16 (behindDeleted data len s)) (half data 0)
      (behindDeleted data len s) = some w) :
    exec (deleteFieldAction data) s = (.ok (),
      let t := s.resized w (leftLenWithout s.dpp.leftLen len)
        (s.dpp.relLen.toNat - (len / 8).toUInt8.toNat)
      { t with dpp := clearTail (len.toNat % 8) t.dpp }) := by
  unfold behindDeleted at hneg hw
  rw [deleteFieldAction, exec_bind_ok (exec_of_deletedBits hlen), exec_bind_ok exec_get]
  dsimp only
  rw [exec_bind_ok (exec_failIf_neg hneg _ _ s), exec_bind_ok (exec_coverWindow hw)]
  rfl

/-- An `ADD_FIELD` that does not pass the checks changes nothing. -/
theorem exec_addFieldAction_error (data : Buf) (hbad : word data 4 > 128 ∨
    toUInt32 (s.dpp.offset + s.dpp.leftLen) + (word data 4 + 7) / 8 > UInt32.ofNat packetRawMaxLen) :
    ∃ e, exec (addFieldAction data) s = (.error (.error e), s) := by
  by_cases h128 : word data 4 > 128
  · exact ⟨_, by rw [addFieldAction, exec_bind_error (exec_failIf_pos h128 _ _ s)]⟩
  · have hroom := hbad.resolve_left h128
    refine ⟨⟨.softwareFailed, .pofPacketLenError⟩, ?_⟩
    rw [addFieldAction, exec_bind_ok (exec_failIf_neg h128 _ _ s), insertTagToPacket, exec_bind_ok exec_get]
    exact exec_bind_error (exec_failIf_pos hroom _ _ s)

/-- Storing in the window returns, or does not. -/
theorem exec_coverWindow_ne_error {value : Buf} {posB lenB : UInt16} {e : PofError} {t : DpState} :
    exec (coverWindow value posB lenB) s ≠ (.error (.error e), t) := by
  intro h
  cases hw : pofbfCoverBit s.dpp.window value posB lenB with
  | none =>
      rw [exec_coverWindow_none hw] at h
      cases h
  | some w =>
      rw [exec_coverWindow hw] at h
      cases h

theorem exec_coverInBuf_ne_error {value : Buf} {posB lenB : UInt16} {e : PofError} {t : DpState} :
    exec (coverInBuf value posB lenB) s ≠ (.error (.error e), t) := by
  intro h
  rcases lt_or_ge (s.dpp.bufOffset + lastStored posB lenB) packetRawMaxLen with hin | hout
  · rw [exec_coverInBuf hin] at h
    exact exec_coverWindow_ne_error h
  · rw [exec_coverInBuf_undefined hout] at h
    cases h

/-- An `ADD_FIELD` that passes the checks does not fail afterwards. -/
theorem exec_addFieldAction_ne_error (h128 : ¬ word data 4 > 128)
    (hroom : ¬ toUInt32 (s.dpp.offset + s.dpp.leftLen) + (word data 4 + 7) / 8 > UInt32.ofNat packetRawMaxLen)
    {e : PofError} {t : DpState} : exec (addFieldAction data) s ≠ (.error (.error e), t) := by
  intro h
  rw [addFieldAction, exec_bind_ok (exec_failIf_neg h128 _ _ s), insertTagToPacket, exec_bind_ok exec_get] at h
  dsimp only at h
  rw [exec_bind_ok (exec_failIf_neg hroom _ _ s)] at h
  by_cases hcopied : (toUInt32 (s.dpp.leftLen * 8 - (half data 2).toUInt32.toNat)).toUInt16.toNat >
      8 * packetRawMaxLen
  · rw [exec_bind_error (exec_checkUndefined_pos hcopied s)] at h
    cases h
  rw [exec_bind_ok (exec_checkUndefined_neg hcopied s), exec_bind] at h
  split at h
  · rename_i hfirst
    rw [exec_bind] at h
    split at h
    · cases h
    · rename_i hsecond
      cases h
      exact exec_coverInBuf_ne_error hsecond
  · rename_i hfirst
    cases h
    exact exec_coverInBuf_ne_error hfirst

end Operations

/-! ### Tags of whole bytes -/

section Tags

variable {s : DpState} {data : Buf}

/-- The bytes added are not cut for a tag that is not too long. -/
theorem addedBytes_of_le (h128 : (word data 4).toNat ≤ 128) : addedBytes data = ((word data 4).toNat + 7) / 8 := by
  have h7 : (7 : UInt32).toNat = 7 := rfl
  have h8 : (8 : UInt32).toNat = 8 := rfl
  rw [addedBytes, UInt32.toNat_div, UInt32.toNat_add, h7, h8]
  omega

theorem addedBytes_eq (h128 : (word data 4).toNat ≤ 128) (hbytes : (word data 4).toNat % 8 = 0) :
    addedBytes data = (word data 4).toNat / 8 := by
  rw [addedBytes_of_le h128]
  omega

theorem PacketOk.bufOffset_le {dpp : DpPacket} (h : PacketOk dpp)
    (hend : dpp.bufOffset + dpp.leftLen ≤ dpp.buf.length) : dpp.bufOffset.toNat ≤ dpp.buf.length := by
  have hleft := h.left
  omega

/-- A packet inside its buffer has numbers in the range of their types. -/
theorem PacketOk.inRange (h : PacketOk s.dpp) (hend : s.dpp.bufOffset + s.dpp.leftLen ≤ s.dpp.buf.length) :
    InRange s.extent := by
  obtain ⟨hplace, hfront, hleft, hmemory, _⟩ := h
  rw [packetPrebufLen] at hplace hfront
  rw [packetRawMaxLen] at hmemory
  refine ⟨⟨?_, ?_⟩, ?_, ?_⟩ <;> simp only [DpState.extent] <;> omega

/-- An `ADD_FIELD` of whole bytes inserts the tag. -/
theorem addFieldAction_inserts (hok : PacketOk s.dpp) (h₈ : 8 ≤ (word data 4).toNat)
    (h128 : (word data 4).toNat ≤ 128) (hbytes : (word data 4).toNat % 8 = 0)
    (hpos : ((half data 2).toNat : ℤ) ≤ 8 * s.dpp.leftLen)
    (hfits : s.dpp.bufOffset + s.dpp.leftLen + (word data 4).toNat / 8 + 1 ≤ s.dpp.buf.length)
    (hsum : 0 ≤ s.dpp.offset + s.dpp.leftLen + (word data 4).toNat / 8) :
    ∃ w, exec (addFieldAction data) s = (.ok (), s.resized w (s.dpp.leftLen + (word data 4).toNat / 8)
        (s.dpp.relLen.toNat + (word data 4).toNat / 8)) ∧
      w.length = s.dpp.window.length ∧
      ∀ i < 8 * (s.dpp.leftLen.toNat + (word data 4).toNat / 8), w.bit i =
        insertBits (half data 2).toNat (word data 4).toNat (data.bytesAt 8 maxFieldLengthInByte).bit
          s.dpp.window.bit i := by
  have hrange := hok.inRange (by omega)
  obtain ⟨hplace, hfront, hleft, hmemory, _⟩ := hok
  have hadded := addedBytes_eq h128 hbytes
  have hle : s.dpp.bufOffset.toNat ≤ s.dpp.buf.length := by omega
  rw [packetPrebufLen] at hplace hfront
  rw [packetRawMaxLen] at hmemory
  have hbits : (word data 4).toUInt16.toNat = (word data 4).toNat := by
    rw [UInt32.toNat_toUInt16]
    omega
  have hbehind : (behindAdded data s).toNat = 8 * s.dpp.leftLen.toNat - (half data 2).toNat := by
    have hcast := toNat_toUInt32 (s.dpp.leftLen * 8 - (half data 2).toNat)
    rw [behindAdded, UInt32.toNat_toUInt16]
    omega
  have hother : ((half data 2).toUInt32 + word data 4).toUInt16.toNat =
      (half data 2).toNat + (word data 4).toUInt16.toNat := by
    rw [UInt32.toNat_toUInt16, UInt32.toNat_add, UInt16.toNat_toUInt32, hbits]
    omega
  have hwindow : s.dpp.window.length = s.dpp.buf.length - s.dpp.bufOffset.toNat := List.length_drop
  obtain ⟨w₁, w₂, hw₁, hw₂, hlen, hbit⟩ := insert_window s.dpp.window
    (data.bytesAt 8 maxFieldLengthInByte) (half data 2) (word data 4).toUInt16 (behindAdded data s)
    (n := packetRawMaxLen) (by omega) (by omega) hother (by omega) (by rw [packetRawMaxLen]; omega)
    (by omega)
  have hnot128 : ¬ word data 4 > 128 := by
    rw [gt_iff_lt, UInt32.lt_iff_toNat_lt]
    exact Nat.not_lt.2 h128
  have hroom := (not_congr (addField_check_iff data hrange (UInt32.not_lt.1 hnot128))).2
    (by rw [hadded, packetRawMaxLen]; omega)
  have hinside : TagInside data s := by
    refine ⟨?_, ?_, ?_⟩ <;> rw [packetRawMaxLen]
    · omega
    · rw [lastStored]
      omega
    · rw [lastStored]
      omega
  refine ⟨w₂, ?_, hlen, fun i hi => ?_⟩
  · rw [exec_addFieldAction hnot128 hroom hinside hle hw₁ hw₂, hadded, toInt32_of_range (by omega) (by omega)]
    rfl
  · rw [hbit i (by omega), hbits]

/-- A `DELETE_FIELD` of whole bytes inside the window deletes them. -/
theorem deleteFieldAction_deletes (hok : PacketOk s.dpp)
    (hend : s.dpp.bufOffset + s.dpp.leftLen ≤ s.dpp.buf.length) {len : UInt32}
    (hlen : deletedBits data s = some len) (hbytes : len.toNat % 8 = 0)
    (hin : ((half data 0).toNat : ℤ) + len.toNat ≤ 8 * s.dpp.leftLen) :
    ∃ w, exec (deleteFieldAction data) s = (.ok (), s.resized w (s.dpp.leftLen - len.toNat / 8)
        (s.dpp.relLen.toNat - (len / 8).toUInt8.toNat)) ∧
      w.length = s.dpp.window.length ∧
      ∀ i < 8 * (s.dpp.leftLen.toNat - len.toNat / 8),
        w.bit i = deleteBits (half data 0).toNat len.toNat s.dpp.window.bit i := by
  have hle := hok.bufOffset_le hend
  obtain ⟨hplace, hfront, hleft, hmemory, _⟩ := hok
  rw [packetPrebufLen] at hplace hfront
  rw [packetRawMaxLen] at hmemory
  have hbehind : (behindDeleted data len s).toNat =
      8 * s.dpp.leftLen.toNat - ((half data 0).toNat + len.toNat) := by
    have hcast := toNat_toUInt32 (s.dpp.leftLen * 8)
    rw [behindDeleted, UInt32.toNat_toUInt16, UInt32.toNat_sub, UInt32.toNat_add, UInt16.toNat_toUInt32]
    omega
  have hother : ((half data 0).toUInt32 + len).toUInt16.toNat = (half data 0).toNat + len.toNat := by
    rw [UInt32.toNat_toUInt16, UInt32.toNat_add, UInt16.toNat_toUInt32]
    omega
  have hwindow : s.dpp.window.length = s.dpp.buf.length - s.dpp.bufOffset.toNat := List.length_drop
  obtain ⟨w, hw, hwlen, hbit⟩ := delete_window s.dpp.window (half data 0)
    (behindDeleted data len s) (n := packetRawMaxLen) (k := len.toNat) hother (by omega)
    (by rw [packetRawMaxLen]; omega) (by omega)
  have hneg : ¬ behindDeleted data len s ≥ 0x8000 := by
    rw [ge_iff_le, UInt16.le_iff_toNat_le]
    change ¬ 32768 ≤ _
    omega
  refine ⟨w, ?_, hwlen, fun i hi => hbit i (by omega)⟩
  rw [exec_deleteFieldAction hlen hneg hw, leftLenWithout_eq hleft (by omega) (by omega) hbytes]
  dsimp only
  rw [clearTail, if_neg (not_not.2 hbytes), sub_eq_add_neg]
  rfl

/-- An `ADD_FIELD` inserts the tag and grows the two lengths, and a `DELETE_FIELD` of the same bits
restores the window and the two lengths. -/
def AddsAndDeletes (data : Buf) (s : DpState) : Prop :=
  ∃ t, exec (addFieldAction data) s = (.ok (), t) ∧
    t.dpp.leftLen = s.dpp.leftLen + (word data 4).toNat / 8 ∧
    t.dpp.relLen = s.dpp.relLen + UInt16.ofNat ((word data 4).toNat / 8) ∧
    t.dpp.bufOffset = s.dpp.bufOffset ∧
    (∀ i < 8 * (s.dpp.leftLen.toNat + (word data 4).toNat / 8), t.dpp.window.bit i =
      insertBits (half data 2).toNat (word data 4).toNat (data.bytesAt 8 maxFieldLengthInByte).bit
        s.dpp.window.bit i) ∧
    ∀ del, half del 0 = half data 2 → deletedBits del t = some (word data 4) →
      ∃ u, exec (deleteFieldAction del) t = (.ok (), u) ∧ u.dpp.leftLen = s.dpp.leftLen ∧
        u.dpp.relLen = s.dpp.relLen ∧ u.dpp.bufOffset = s.dpp.bufOffset ∧
        u.dpp.window.take s.dpp.leftLen.toNat = s.dpp.window.take s.dpp.leftLen.toNat

/-- A record that has grown by some bytes. -/
theorem toUInt16_add (r : UInt16) (k : ℕ) : toUInt16 ((r.toNat : ℤ) + k) = r + UInt16.ofNat k := by
  refine UInt16.toNat_inj.1 ?_
  have hcast := toNat_toUInt16 ((r.toNat : ℤ) + k)
  rw [UInt16.toNat_add, UInt16.toNat_ofNat']
  omega

/-- The record is what it was before. -/
theorem toUInt16_add_sub (r : UInt16) {k : ℕ} (hk : k < 256) :
    toUInt16 (((r + UInt16.ofNat k).toNat : ℤ) - k) = r := by
  refine UInt16.toNat_inj.1 ?_
  have hcast := toNat_toUInt16 (((r + UInt16.ofNat k).toNat : ℤ) - k)
  have hr := r.toNat_lt
  rw [UInt16.toNat_add, UInt16.toNat_ofNat'] at hcast ⊢
  omega

/-- Deleting an inserted tag restores the first bytes. -/
theorem take_of_delete_insert {b c d : Buf} {tag : ℕ → Bool} {pos len n : ℕ} (hlen : d.length = b.length)
    (hinsert : ∀ i < 8 * n + len, c.bit i = insertBits pos len tag b.bit i)
    (hdelete : ∀ i < 8 * n, d.bit i = deleteBits pos len c.bit i) : d.take n = b.take n := by
  refine ext_bit (by rw [List.length_take, List.length_take, hlen]) fun i hi => ?_
  rw [List.length_take] at hi
  rw [bit_take d (by omega), bit_take b (by omega), hdelete i (by omega),
    ← congrFun (deleteBits_insertBits pos len tag b.bit) i, deleteBits, deleteBits,
    hinsert i (by omega), hinsert (i + len) (by omega)]

/-- **A tag of whole bytes is inserted, and its deletion restores the packet, exactly when the length of
the packet with the tag is not negative.** -/
theorem addsAndDeletes_iff (hok : PacketOk s.dpp) (h₈ : 8 ≤ (word data 4).toNat)
    (h128 : (word data 4).toNat ≤ 128) (hbytes : (word data 4).toNat % 8 = 0)
    (hpos : ((half data 2).toNat : ℤ) ≤ 8 * s.dpp.leftLen)
    (hfits : s.dpp.bufOffset + s.dpp.leftLen + (word data 4).toNat / 8 + 1 ≤ s.dpp.buf.length) :
    AddsAndDeletes data s ↔ 0 ≤ s.dpp.offset + s.dpp.leftLen + (word data 4).toNat / 8 := by
  have hadded := addedBytes_eq h128 hbytes
  have hrange := hok.inRange (by omega)
  obtain ⟨hplace, hfront, hleft, hmemory, hrecord⟩ := hok
  simp only [packetPrebufLen] at hplace hfront
  have hmem : s.dpp.buf.length = 2048 := hmemory
  constructor
  · rintro ⟨t, ht, _⟩
    by_contra hneg
    -- a negative length is found too large
    have hbad := (addField_check_iff data hrange (UInt32.le_iff_toNat_le.2 h128)).2
      (Or.inl (by rw [hadded]; omega))
    obtain ⟨e, he⟩ := exec_addFieldAction_error data (Or.inr hbad)
    rw [he] at ht
    cases ht
  · intro hsum
    have hok : PacketOk s.dpp := ⟨hplace, hfront, hleft, hmemory, hrecord⟩
    have hle : s.dpp.bufOffset.toNat ≤ s.dpp.buf.length := by omega
    obtain ⟨w, hadd, hlen, hbits⟩ := addFieldAction_inserts hok h₈ h128 hbytes hpos (by omega) hsum
    set k := (word data 4).toNat / 8 with hk
    set t := s.resized w (s.dpp.leftLen + k) (s.dpp.relLen.toNat + k) with ht
    have hrel : t.dpp.relLen = s.dpp.relLen + UInt16.ofNat k := by
      rw [ht, relLen_resized hrecord, toUInt16_add]
    have hwindow : t.dpp.window = w := window_resized hle
    have hokt : PacketOk t.dpp := hok.resized (by omega) hlen
    refine ⟨t, hadd, rfl, hrel, rfl, fun i hi => by rw [hwindow]; exact hbits i hi,
      fun del hdel hbitsDel => ?_⟩
    have htleft : t.dpp.leftLen = s.dpp.leftLen + k := rfl
    have htoffset : t.dpp.bufOffset = s.dpp.bufOffset := rfl
    have htmem : t.dpp.buf.length = 2048 := hokt.memory
    obtain ⟨w', hdelete, hlen', hbits'⟩ := deleteFieldAction_deletes hokt (by omega) hbitsDel hbytes
      (by rw [hdel]; omega)
    have hcut : ((word data 4 / 8).toUInt8.toNat : ℤ) = k := by
      have h8 : (8 : UInt32).toNat = 8 := rfl
      rw [UInt32.toNat_toUInt8, UInt32.toNat_div, h8]
      omega
    rw [hwindow, hdel] at hbits'
    refine ⟨_, hdelete, by rw [leftLen_resized]; omega, ?_, rfl, ?_⟩
    · rw [relLen_resized hokt.record, hcut, hrel]
      exact toUInt16_add_sub s.dpp.relLen (by omega)
    · rw [window_resized (by omega)]
      exact take_of_delete_insert (by rw [hlen', hwindow, hlen]) (fun i hi => hbits i (by omega))
        fun i hi => hbits' i (by omega)

end Tags

/-- A received packet. -/
def received (packet : Buf) : DpState := pofdpForward 1 packet (pofLocalresourceInit smallConfig)

/-- An `ADD_FIELD` of one byte at the beginning of the packet. -/
def addByte : Buf := [0, 0, 0, 0, 8, 0, 0, 0, 255]

/-- A byte in front of a packet of three. -/
theorem addsAndDeletes_byte :
    AddsAndDeletes addByte (received [7, 8, 9]) :=
  (addsAndDeletes_iff ⟨rfl, by decide, by decide, by decide +kernel, by decide +kernel⟩ (by decide)
    (by decide) (by decide) (by decide) (by decide +kernel)).2 (by decide)

/-- The window of a packet of three bytes is moved five bytes into the head room, and all of it is
deleted. -/
def emptyWindow : Dp Unit := do
  movePacketOffsetWork (moveBack 5).instructionData
  deleteFieldAction [0, 0, 0, 0, 0, 0, 0, 0, 64]

/-- The state then. -/
def emptiedState : DpState :=
  (exec emptyWindow (received [7, 8, 9])).2

/-- No byte can be added, for a length of `-4` is found to be more than 2048. -/
theorem not_addsAndDeletes_emptied :
    (exec emptyWindow (received [7, 8, 9])).1 = .ok () ∧
    PacketOk emptiedState.dpp ∧ ((half addByte 2).toNat : ℤ) ≤ 8 * emptiedState.dpp.leftLen ∧
    emptiedState.dpp.bufOffset + emptiedState.dpp.leftLen + (word addByte 4).toNat / 8 + 1 ≤
      emptiedState.dpp.buf.length ∧
    ¬ AddsAndDeletes addByte emptiedState := by
  refine ⟨by decide +kernel, ⟨by decide +kernel, by decide +kernel, by decide +kernel, by decide +kernel,
    by decide +kernel⟩, by decide +kernel, by decide +kernel, ?_⟩
  rintro ⟨t, ht, _⟩
  obtain ⟨e, he⟩ := exec_addFieldAction_error (s := emptiedState) addByte
    (Or.inr (by decide +kernel))
  rw [he] at ht
  cases ht

/-! ### Additions that should be refused -/

section Refuse

variable {s : DpState} {data : Buf}

/-- The position is behind the window, the tag is longer than 128 bits, or the packet with the tag does
not fit into `buf`. -/
def MustRefuse (data : Buf) (s : DpState) : Prop :=
  8 * s.dpp.leftLen < (half data 2).toNat ∨ 128 < (word data 4).toNat ∨
    s.dpp.buf.length < s.dpp.bufOffset + s.dpp.leftLen + ((word data 4).toNat + 7) / 8

/-- Such an `ADD_FIELD` returns an error and leaves the packet bytes, the length and the metadata. -/
def AddRefuses (data : Buf) (s : DpState) : Prop :=
  MustRefuse data s → ∃ e t, exec (addFieldAction data) s = (.error (.error e), t) ∧
    t.dpp.buf = s.dpp.buf ∧ t.dpp.leftLen = s.dpp.leftLen ∧ t.dpp.metadata = s.dpp.metadata

theorem word_gt_iff : word data 4 > 128 ↔ 128 < (word data 4).toNat := UInt32.lt_iff_toNat_lt

/-- **An `ADD_FIELD` that should be refused is refused exactly when the tag is too long, or the sum of
offset, length and tag is negative or more than 2048.** -/
theorem addRefuses_iff (hrange : InRange s.extent) :
    AddRefuses data s ↔
      ((half data 2).toNat ≤ 8 * s.dpp.leftLen ∧
        s.dpp.bufOffset + s.dpp.leftLen + ((word data 4).toNat + 7) / 8 ≤ s.dpp.buf.length) ∨
      128 < (word data 4).toNat ∨ s.dpp.offset + s.dpp.leftLen + ((word data 4).toNat + 7) / 8 < 0 ∨
      packetRawMaxLen < s.dpp.offset + s.dpp.leftLen + ((word data 4).toNat + 7) / 8 := by
  by_cases h128 : 128 < (word data 4).toNat
  · refine iff_of_true (fun _ => ?_) (Or.inr (Or.inl h128))
    obtain ⟨e, he⟩ := exec_addFieldAction_error (s := s) data (Or.inl (word_gt_iff.2 h128))
    exact ⟨e, s, he, rfl, rfl, rfl⟩
  have hlong : ¬ word data 4 > 128 := fun h => h128 (word_gt_iff.1 h)
  have hcheck := addField_check_iff data hrange (UInt32.not_lt.1 hlong)
  rw [addedBytes_of_le (Nat.not_lt.1 h128)] at hcheck
  constructor
  · intro hrefuses
    by_contra hnot
    have hmust : MustRefuse data s := by
      unfold MustRefuse
      omega
    obtain ⟨e, t, hexec, _⟩ := hrefuses hmust
    exact exec_addFieldAction_ne_error hlong (fun h => hnot (by have := hcheck.1 h; omega)) hexec
  · rintro (⟨hpos, hfits⟩ | hbad) hmust
    · unfold MustRefuse at hmust
      omega
    · obtain ⟨e, he⟩ := exec_addFieldAction_error (s := s) data (Or.inr (hcheck.2 (by omega)))
      exact ⟨e, s, he, rfl, rfl, rfl⟩

end Refuse

/-- An `ADD_FIELD` of one byte at bit `60024`. -/
def addBehind : Buf := [0, 0, 0x78, 0xEA, 8, 0, 0, 0, 255]

/-- A tag of 136 bits. -/
theorem addRefuses_long : AddRefuses [0, 0, 0, 0, 136]
    (received [7, 8, 9]) :=
  (addRefuses_iff ⟨by decide, by decide⟩).2 (Or.inr (Or.inl (by decide)))

/-- Bit `60024` is behind a packet of three bytes, but a tag there is not refused. -/
theorem not_addRefuses_behind :
    MustRefuse addBehind (received [7, 8, 9]) ∧
      ¬ AddRefuses addBehind (received [7, 8, 9]) := by
  have hmust : MustRefuse addBehind (received [7, 8, 9]) :=
    Or.inl (by decide +kernel)
  refine ⟨hmust, fun hrefuses => ?_⟩
  obtain ⟨e, t, hexec, _⟩ := hrefuses hmust
  exact exec_addFieldAction_ne_error (by decide +kernel) (by decide +kernel) hexec

/-! ### Deletions beyond the end -/

section Delete

variable {s : DpState} {data : Buf} {len : UInt32}

/-- The number of bits behind the tag of a `DELETE_FIELD`; negative when the tag reaches beyond the
window. -/
def bitsBehind (data : Buf) (len : UInt32) (s : DpState) : ℤ :=
  8 * s.dpp.leftLen - ((half data 0).toNat + len.toNat)

/-- A `DELETE_FIELD` succeeds when the tag lies in the window, and otherwise returns an error and leaves
the packet bytes, the length and the metadata. -/
def DeleteExact (data : Buf) (len : UInt32) (s : DpState) : Prop :=
  (0 ≤ bitsBehind data len s → ∃ t, exec (deleteFieldAction data) s = (.ok (), t)) ∧
    (bitsBehind data len s < 0 → ∃ e t, exec (deleteFieldAction data) s = (.error (.error e), t) ∧
      t.dpp.buf = s.dpp.buf ∧ t.dpp.leftLen = s.dpp.leftLen ∧ t.dpp.metadata = s.dpp.metadata)

/-- The number of bits behind the tag is cut to 16 bits. -/
theorem toNat_behindDeleted (data : Buf) (len : UInt32) (s : DpState) :
    ((behindDeleted data len s).toNat : ℤ) = bitsBehind data len s % 2 ^ 16 := by
  have hcast := toNat_toUInt32 (s.dpp.leftLen * 8)
  have hlen := len.toNat_lt
  have hpos := (half data 0).toNat_lt
  rw [behindDeleted, UInt32.toNat_toUInt16, UInt32.toNat_sub, UInt32.toNat_add, UInt16.toNat_toUInt32,
    bitsBehind]
  omega

/-- What a `DELETE_FIELD` does: the sign bit of the cut number makes it fail, fewer than eight bits over
a byte boundary keep it from returning, and otherwise it succeeds. -/
theorem deleteFieldAction_ends (hlen : deletedBits data s = some len) :
    (2 ^ 15 ≤ bitsBehind data len s % 2 ^ 16 ∧ exec (deleteFieldAction data) s =
        (.error (.error ⟨.softwareFailed, .pofPacketLenError⟩), s)) ∨
      (bitsBehind data len s % 2 ^ 16 < 2 ^ 15 ∧ bitsBehind data len s % 2 ^ 16 < 8 ∧
        8 < (half data 0).toNat % 8 + bitsBehind data len s % 2 ^ 16 ∧
        exec (deleteFieldAction data) s = (.error .hang, s)) ∨
      bitsBehind data len s % 2 ^ 16 < 2 ^ 15 ∧ (8 ≤ bitsBehind data len s % 2 ^ 16 ∨
        (half data 0).toNat % 8 + bitsBehind data len s % 2 ^ 16 ≤ 8) ∧
        ∃ t, exec (deleteFieldAction data) s = (.ok (), t) := by
  have hcut := toNat_behindDeleted data len s
  have hsign : behindDeleted data len s ≥ 0x8000 ↔ 2 ^ 15 ≤ bitsBehind data len s % 2 ^ 16 := by
    rw [ge_iff_le, UInt16.le_iff_toNat_le]
    change 32768 ≤ _ ↔ _
    omega
  by_cases hneg : behindDeleted data len s ≥ 0x8000
  · exact Or.inl ⟨hsign.1 hneg, exec_deleteFieldAction_error hlen hneg⟩
  have hpos := not_le.1 (mt hsign.2 hneg)
  cases hw : pofbfCoverBit s.dpp.window (pofbfCopyBit s.dpp.window (Buf.zeros packetRawMaxLen)
      ((half data 0).toUInt32 + len).toUInt16 (behindDeleted data len s)) (half data 0)
      (behindDeleted data len s) with
  | none =>
      have hshort := (pofbfCoverBit_eq_none_iff _ _ _ _).1 hw
      exact Or.inr (Or.inl ⟨hpos, by omega, by omega, exec_deleteFieldAction_hang hlen hneg hw⟩)
  | some w =>
      have hfits : 8 ≤ (behindDeleted data len s).toNat ∨
          (half data 0).toNat % 8 + (behindDeleted data len s).toNat ≤ 8 := by
        by_contra hshort
        rw [(pofbfCoverBit_eq_none_iff _ _ _ _).2 hshort] at hw
        cases hw
      exact Or.inr (Or.inr ⟨hpos, by omega, _, exec_deleteFieldAction hlen hneg hw⟩)

/-- **A deletion is decided correctly exactly when the number of bits behind the tag keeps its sign in 16
bits and, for a tag in the window, these bits can be moved.** -/
theorem deleteExact_iff (hlen : deletedBits data s = some len) :
    DeleteExact data len s ↔
      (0 ≤ bitsBehind data len s ∧ bitsBehind data len s % 2 ^ 16 < 2 ^ 15 ∧
        (8 ≤ bitsBehind data len s % 2 ^ 16 ∨
          (half data 0).toNat % 8 + bitsBehind data len s % 2 ^ 16 ≤ 8)) ∨
      (bitsBehind data len s < 0 ∧ 2 ^ 15 ≤ bitsBehind data len s % 2 ^ 16) := by
  rcases deleteFieldAction_ends hlen with ⟨hsign, hexec⟩ | ⟨hsign, hfew, hcross, hexec⟩ | ⟨hsign, hfits, t, hexec⟩
  · constructor
    · rintro ⟨hinside, _⟩
      refine Or.inr ⟨?_, hsign⟩
      by_contra hnot
      obtain ⟨t, ht⟩ := hinside (not_lt.1 hnot)
      rw [hexec] at ht
      cases ht
    · rintro (⟨_, hlt, _⟩ | ⟨hneg, _⟩)
      · omega
      · exact ⟨fun h => absurd hneg (not_lt.2 h), fun _ => ⟨_, s, hexec, rfl, rfl, rfl⟩⟩
  · -- it does not return
    refine iff_of_false ?_ (by omega)
    rintro ⟨hinside, hbeyond⟩
    rcases lt_or_ge (bitsBehind data len s) 0 with hneg | hpos
    · obtain ⟨e, t, ht, _⟩ := hbeyond hneg
      rw [hexec] at ht
      cases ht
    · obtain ⟨t, ht⟩ := hinside hpos
      rw [hexec] at ht
      cases ht
  · constructor
    · rintro ⟨_, hbeyond⟩
      refine Or.inl ⟨?_, hsign, hfits⟩
      by_contra hnot
      obtain ⟨e, t', ht, _⟩ := hbeyond (not_le.1 hnot)
      rw [hexec] at ht
      cases ht
    · rintro (⟨hpos, _⟩ | ⟨_, hlarge⟩)
      · exact ⟨fun _ => ⟨t, hexec⟩, fun h => absurd hpos (not_le.2 h)⟩
      · omega

end Delete

/-- The first byte of a packet of three. -/
theorem deleteExact_byte : DeleteExact [0, 0, 0, 0, 0, 0, 0, 0, 8] 8
    (received [7, 8, 9]) :=
  (deleteExact_iff (by decide +kernel)).2 (Or.inl (by decide +kernel))

/-- A `DELETE_FIELD` of `65560` bits. -/
def deleteLong : Buf := [0, 0, 0, 0, 0, 0, 0, 0, 0x18, 0, 1, 0]

/-- A `DELETE_FIELD` of seven bits at bit `6`. -/
def deleteSeven : Buf := [6, 0, 0, 0, 0, 0, 0, 0, 7]

/-- A tag of `65560` bits is deleted from a packet of three bytes, and the deletion of seven bits of a
packet of two bytes does not return. -/
theorem not_deleteExact_long :
    (deletedBits deleteLong (received [7, 8, 9]) = some 65560 ∧
      ¬ DeleteExact deleteLong 65560 (received [7, 8, 9])) ∧
    deletedBits deleteSeven (received [7, 8]) = some 7 ∧ ¬ DeleteExact deleteSeven 7 (received [7, 8]) := by
  have hlong : deletedBits deleteLong (received [7, 8, 9]) = some 65560 := by decide +kernel
  have hseven : deletedBits deleteSeven (received [7, 8]) = some 7 := by decide +kernel
  have hbehind : bitsBehind deleteLong 65560 (received [7, 8, 9]) = -65536 := by decide +kernel
  have hbehind' : bitsBehind deleteSeven 7 (received [7, 8]) = 3 := by decide +kernel
  refine ⟨⟨hlong, ?_⟩, hseven, ?_⟩
  · rintro ⟨_, hbeyond⟩
    obtain ⟨e, t, ht, _⟩ := hbeyond (by omega)
    rcases deleteFieldAction_ends hlong with ⟨hsign, _⟩ | ⟨_, _, hcross, _⟩ | ⟨_, _, u, hexec⟩
    · omega
    · omega
    · rw [hexec] at ht
      cases ht
  · rintro ⟨hinside, _⟩
    obtain ⟨t, ht⟩ := hinside (by omega)
    have hpos : (half deleteSeven 0).toNat = 6 := by decide
    rcases deleteFieldAction_ends hseven with ⟨hsign, _⟩ | ⟨_, _, _, hexec⟩ | ⟨_, hfits, _⟩
    · omega
    · rw [hexec] at ht
      cases ht
    · omega

end PofSwitch
