/-
**Writing a field and reading it back: `execute_SET_FIELD`.**

`pofdp_get_field_buf` finds the buffer a match field lies in, the packet or the metadata, and every
reader of a field goes through it.  `execute_SET_FIELD` does not: it always stores to the packet.  What
it stores is the value of the action under its mask, of which `pofbf_cover_bit` may also use bits behind
those of the field.

Main definitions:

* `PofSwitch.maskedValue` — the value of a `SET_FIELD` under its mask;
* `PofSwitch.LeakHarmless` — the bits of a value behind a field change nothing;
* `PofSwitch.FieldWritten` — a field reads back and nothing else has changed.

Main results:

* `PofSwitch.setField_reads_back_iff` — **when a `SET_FIELD` is read back and changes nothing else.**
-/

import PofSwitch.FieldValues

set_option relaxedAutoImplicit false
set_option autoImplicit false

namespace PofSwitch

open Prog Buf

/-! ### Bits of a value behind the field -/

/-- The bits of the value behind the field reach only bits that are one already. -/
def LeakHarmless (d value : Buf) (pos len : ℕ) : Prop :=
  ∀ i, Leaks pos len i → i < 8 * d.length → value.bit (i - pos) = true → d.bit i = true

section Cover

variable {d d' value : Buf} {pos len : UInt16}

/-- Covering puts the first bits of the value into the field. -/
theorem fieldNat_pofbfCoverBit (hfit : FieldFits pos.toNat len.toNat)
    (hin : pos.toNat + len.toNat ≤ 8 * d.length) (h : pofbfCoverBit d value pos len = some d') :
    fieldNat d' pos.toNat len.toNat = fieldNat value 0 len.toNat := by
  obtain ⟨c, hc, _, hbits⟩ := pofbfCoverBit_bits d value hfit
  rw [h] at hc
  cases hc
  refine fieldNat_congr fun j hj => ?_
  rw [hbits, if_pos (by omega), Nat.add_sub_cancel_left, Nat.zero_add]

/-- No bit outside the field changes exactly when the bits behind it do no harm. -/
theorem cover_rest_iff (hfit : FieldFits pos.toNat len.toNat) (h : pofbfCoverBit d value pos len = some d') :
    (∀ i, ¬ (pos.toNat ≤ i ∧ i < pos.toNat + len.toNat) → d'.bit i = d.bit i) ↔
      LeakHarmless d value pos.toNat len.toNat := by
  obtain ⟨c, hc, _, hbits⟩ := pofbfCoverBit_bits d value hfit
  rw [h] at hc
  cases hc
  constructor
  · intro hrest i hleak hi hone
    have hreach : pos.toNat + len.toNat ≤ i := hleak.1
    have hbit := hrest i (by omega)
    rw [hbits, if_neg (by omega), if_pos ⟨hleak, hi⟩, hone, Bool.true_or] at hbit
    exact hbit.symm
  · intro hharm i hi
    rw [hbits, if_neg fun hin => hi ⟨hin.1, hin.2.1⟩]
    split_ifs with hleak
    · cases hone : value.bit (i - pos.toNat) with
      | false => rfl
      | true => rw [hharm i hleak.1 hleak.2 hone, Bool.true_or]
    · rfl

/-- Nothing changes exactly when the field holds the value already and the bits behind it do no harm. -/
theorem cover_same_iff (hfit : FieldFits pos.toNat len.toNat) (hin : pos.toNat + len.toNat ≤ 8 * d.length)
    (h : pofbfCoverBit d value pos len = some d') :
    (∀ i, d'.bit i = d.bit i) ↔ LeakHarmless d value pos.toNat len.toNat ∧
      fieldNat d pos.toNat len.toNat = fieldNat value 0 len.toNat := by
  have hput := fieldNat_pofbfCoverBit hfit hin h
  constructor
  · intro hsame
    refine ⟨(cover_rest_iff hfit h).1 fun i _ => hsame i, ?_⟩
    rw [← hput]
    exact fieldNat_congr fun j _ => (hsame _).symm
  · rintro ⟨hharm, hheld⟩ i
    by_cases hi : pos.toNat ≤ i ∧ i < pos.toNat + len.toNat
    · have hbit := bit_eq_of_fieldNat (hput.trans hheld.symm) (show i - pos.toNat < len.toNat by omega)
      rwa [Nat.add_sub_cancel' hi.1] at hbit
    · exact (cover_rest_iff hfit h).2 hharm i hi

end Cover

/-! ### `SET_FIELD` -/

/-- The value of a `SET_FIELD` under its mask. -/
def maskedValue (data : Buf) : Buf :=
  (List.range maxFieldLengthInByte).map fun i => data.rd (8 + i) &&& data.rd (24 + i)

/-- The field lies in the window of the packet, and this in memory. -/
structure InPacket (pm : PofMatch) (dpp : DpPacket) : Prop where
  window : (pm.offset.toNat + pm.len.toNat : ℤ) ≤ 8 * dpp.leftLen
  start : 0 ≤ dpp.bufOffset
  memory : dpp.bufOffset + dpp.leftLen ≤ dpp.buf.length

/-- The field lies in the metadata, and this in memory. -/
structure InMetadata (pm : PofMatch) (dpp : DpPacket) : Prop where
  metadata : pm.offset.toNat + pm.len.toNat ≤ 8 * dpp.metadataLen.toNat
  memory : dpp.metadataLen.toNat ≤ dpp.metadata.length

/-- The field at the front of a body reads back as the number `n`, and every bit of the packet and of
the metadata outside of it is as it was. -/
structure FieldWritten (data : Buf) (n : ℕ) (s t : DpState) : Prop where
  read : ∃ value, exec (pofdpGet32value 1 data 0) t = (.ok value, t) ∧ value.toNat = n
  front : t.dpp.buf.take s.dpp.bufOffset.toNat = s.dpp.buf.take s.dpp.bufOffset.toNat
  packet : ∀ i, ¬ ((matchAt data 0).fieldId ≠ metadataFieldId ∧ (matchAt data 0).offset.toNat ≤ i ∧
    i < (matchAt data 0).offset.toNat + (matchAt data 0).len.toNat) →
    t.dpp.window.bit i = s.dpp.window.bit i
  metadata : ∀ i, ¬ ((matchAt data 0).fieldId = metadataFieldId ∧ (matchAt data 0).offset.toNat ≤ i ∧
    i < (matchAt data 0).offset.toNat + (matchAt data 0).len.toNat) →
    t.dpp.metadata.bit i = s.dpp.metadata.bit i

section SetField

variable {data : Buf} {s : DpState}

theorem InPacket.le_length {pm : PofMatch} {dpp : DpPacket} (h : InPacket pm dpp) :
    pm.offset.toNat + pm.len.toNat ≤ 8 * dpp.window.length ∧ dpp.bufOffset.toNat ≤ dpp.buf.length := by
  have hwindow := h.window
  have hstart := h.start
  have hmemory := h.memory
  rw [DpPacket.window, List.length_drop]
  omega

/-- `SET_FIELD` on a field inside the window covers it with the masked value. -/
theorem exec_setFieldAction {w : Buf} (hin : InPacket (matchAt data 0) s.dpp)
    (hw : pofbfCoverBit s.dpp.window (maskedValue data) (matchAt data 0).offset (matchAt data 0).len =
      some w) :
    exec (setFieldAction data) s = (.ok (), { s with dpp := s.dpp.setWindow w }) := by
  have hwindow := hin.window
  rw [setFieldAction, exec_bind_ok exec_get, exec_bind_ok (exec_failIf_neg (by omega) _ _ s)]
  exact exec_coverWindow hw

/-- A field that was inside its buffer is inside after a store to the window. -/
theorem fieldInside_setWindow {pm : PofMatch} {dpp : DpPacket} {w : Buf} (hin : InPacket pm dpp)
    (hmeta : pm.fieldId = metadataFieldId → InMetadata pm dpp) (hw : w.length = dpp.window.length) :
    FieldInside pm (dpp.setWindow w) := by
  obtain ⟨hwindow, hstart, hmemory⟩ := hin
  refine ⟨fun h => ⟨(hmeta h).metadata, (hmeta h).memory⟩, fun _ => ⟨hwindow, hstart, ?_⟩⟩
  simp only [DpPacket.setWindow, List.length_append, List.length_take, hw, DpPacket.window,
    List.length_drop]
  omega

/-- **A `SET_FIELD` of 8 to 32 bits inside the window reads back as the first bits of the masked value and
changes nothing else exactly when the bits of the value behind the field do no harm and, for a field of
the metadata, packet and metadata both hold the value already.**  The action stores to the packet,
whatever the field. -/
theorem setField_reads_back_iff (h₈ : 8 ≤ (matchAt data 0).len.toNat) (h₃₂ : (matchAt data 0).len.toNat ≤ 32)
    (hin : InPacket (matchAt data 0) s.dpp)
    (hmeta : (matchAt data 0).fieldId = metadataFieldId → InMetadata (matchAt data 0) s.dpp) :
    (∃ t, exec (setFieldAction data) s = (.ok (), t) ∧
      FieldWritten data (fieldNat (maskedValue data) 0 (matchAt data 0).len.toNat) s t) ↔
    LeakHarmless s.dpp.window (maskedValue data) (matchAt data 0).offset.toNat (matchAt data 0).len.toNat ∧
      ((matchAt data 0).fieldId = metadataFieldId →
        fieldNat s.dpp.metadata (matchAt data 0).offset.toNat (matchAt data 0).len.toNat =
            fieldNat (maskedValue data) 0 (matchAt data 0).len.toNat ∧
          fieldNat s.dpp.window (matchAt data 0).offset.toNat (matchAt data 0).len.toNat =
            fieldNat (maskedValue data) 0 (matchAt data 0).len.toNat) := by
  obtain ⟨hlength, hle⟩ := hin.le_length
  set pm := matchAt data 0 with hpm
  have hfit : FieldFits pm.offset.toNat pm.len.toNat := Or.inl h₈
  obtain ⟨w, hw, hwlen, _⟩ := pofbfCoverBit_bits s.dpp.window (maskedValue data) hfit
  have hexec := exec_setFieldAction hin hw
  have hput := fieldNat_pofbfCoverBit hfit hlength hw
  have hread : (s.dpp.setWindow w).window = w := DpPacket.window_setWindow hle w
  -- reading the field in the state after the store
  obtain ⟨value, hget, hvalue⟩ := exec_get32valueFromField (s := { s with dpp := s.dpp.setWindow w })
    (fieldInside_setWindow hin hmeta hwlen) h₃₂
  have hget' : exec (pofdpGet32value 1 data 0) { s with dpp := s.dpp.setWindow w } =
      (.ok value, { s with dpp := s.dpp.setWindow w }) := hget
  have hfront : (s.dpp.setWindow w).buf.take s.dpp.bufOffset.toNat = s.dpp.buf.take s.dpp.bufOffset.toNat := by
    rw [DpPacket.setWindow, List.take_left' (by rw [List.length_take, Nat.min_eq_left hle])]
  rw [DpState.fieldValue, DpPacket.fieldBuf] at hvalue
  dsimp only at hvalue
  by_cases hid : pm.fieldId = metadataFieldId
  · rw [if_pos hid] at hvalue
    have hvalue' : value.toNat = fieldNat s.dpp.metadata pm.offset.toNat pm.len.toNat := hvalue
    have hsame := cover_same_iff hfit hlength hw
    constructor
    · rintro ⟨t, ht, hwritten⟩
      rw [hexec] at ht
      cases ht
      obtain ⟨v, hv, hvn⟩ := hwritten.read
      rw [hget'] at hv
      cases hv
      obtain ⟨hharm, hheld⟩ := hsame.1 fun i => by
        rw [← hread]
        exact hwritten.packet i fun h => h.1 hid
      exact ⟨hharm, fun _ => ⟨hvalue'.symm.trans hvn, hheld⟩⟩
    · rintro ⟨hharm, hheld⟩
      obtain ⟨hmetadata, hwindow⟩ := hheld hid
      refine ⟨_, hexec, ⟨value, hget', hvalue'.trans hmetadata⟩, hfront, fun i _ => ?_, fun i _ => rfl⟩
      dsimp only
      rw [hread]
      exact hsame.2 ⟨hharm, hwindow⟩ i
  · rw [if_neg hid, hread] at hvalue
    have hrest := cover_rest_iff hfit hw
    constructor
    · rintro ⟨t, ht, hwritten⟩
      rw [hexec] at ht
      cases ht
      refine ⟨hrest.1 fun i hi => ?_, fun h => absurd h hid⟩
      rw [← hread]
      exact hwritten.packet i fun h => hi h.2
    · rintro ⟨hharm, -⟩
      refine ⟨_, hexec, ⟨value, hget', hvalue.trans hput⟩, hfront, fun i hi => ?_, fun i _ => rfl⟩
      dsimp only
      rw [hread]
      exact hrest.2 hharm i fun h => hi ⟨hid, h⟩

end SetField

/-- A `SET_FIELD` that puts `7` into the second byte of the packet. -/
def setSecondByte : Buf := [0, 0, 8, 0, 8, 0, 0, 0] ++ [7] ++ Buf.zeros 15 ++ [255] ++ Buf.zeros 15

/-- A `SET_FIELD` that puts `7` into the second byte of the metadata. -/
def setMetadataByte : Buf := [255, 255, 8, 0, 8, 0, 0, 0] ++ [7] ++ Buf.zeros 15 ++ [255] ++ Buf.zeros 15

/-- A packet of four bytes. -/
def fourBytes : DpState := pofdpForward 1 [1, 2, 3, 4] (pofLocalresourceInit smallConfig)

/-- The second byte is set and read back. -/
theorem setField_reads_back_byte : ∃ t, exec (setFieldAction setSecondByte) fourBytes = (.ok (), t) ∧
    FieldWritten setSecondByte (fieldNat (maskedValue setSecondByte) 0 8) fourBytes t := by
  have h₈ : 8 ≤ (matchAt setSecondByte 0).len.toNat := by decide
  refine (setField_reads_back_iff (s := fourBytes) h₈ (by decide)
    ⟨by decide +kernel, by decide, by decide +kernel⟩ (fun h => absurd h (by decide))).2
    ⟨fun i hi => absurd hi ?_, fun h => absurd h (by decide)⟩
  rintro ⟨hbehind, hbefore⟩
  have h₁₆ : 16 ≤ i := hbehind
  have hlow : i < 8 := hbefore
  omega

/-- A field of the metadata is not written: the packet is, at the same place. -/
theorem setField_reads_back_fails :
    (InPacket (matchAt setMetadataByte 0) fourBytes.dpp ∧ InMetadata (matchAt setMetadataByte 0) fourBytes.dpp) ∧
      (∃ t, exec (setFieldAction setMetadataByte) fourBytes = (.ok (), t) ∧
        ¬ FieldWritten setMetadataByte (fieldNat (maskedValue setMetadataByte) 0 8) fourBytes t) := by
  have hin : InPacket (matchAt setMetadataByte 0) fourBytes.dpp :=
    ⟨by decide +kernel, by decide, by decide +kernel⟩
  have hfit : FieldFits (matchAt setMetadataByte 0).offset.toNat (matchAt setMetadataByte 0).len.toNat := by
    decide
  obtain ⟨w, hw, _⟩ := pofbfCoverBit_bits fourBytes.dpp.window (maskedValue setMetadataByte) hfit
  refine ⟨⟨hin, by decide +kernel, by decide +kernel⟩, _, exec_setFieldAction hin hw, fun hwritten => ?_⟩
  -- the second byte of the packet has changed
  have hbit := hwritten.packet 15 fun h => absurd h.1 (by decide)
  have hput := fieldNat_pofbfCoverBit hfit hin.le_length.1 hw
  have hread : (fourBytes.dpp.setWindow w).window = w := DpPacket.window_setWindow hin.le_length.2 w
  have hone := bit_eq_of_fieldNat hput (j := 7) (by decide)
  dsimp only at hbit
  rw [hread] at hbit
  exact absurd ((hbit.symm.trans hone)) (by decide +kernel)

end PofSwitch
