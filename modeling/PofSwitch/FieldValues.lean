/-
**Arithmetic on the fields of a packet.**

`execute_MODIFY_FIELD` and `execute_CALCULATE_FIELD` read a field of the packet or of the metadata into
a 32-bit variable, calculate and write it back.  Both ways go through a bit copy, a change of byte order
and a shift; together they amount to reading and putting the number the field holds in network order.

Main definitions:

* `PofSwitch.DpPacket.fieldBuf`, `PofSwitch.DpPacket.setFieldBuf` — the buffer a field lies in;
* `PofSwitch.FieldInside` — a field within its bounds;
* `PofSwitch.FieldBecomes` — a state is another one with a number put into a field.

Main results:

* `PofSwitch.exec_get32valueFromField`, `PofSwitch.exec_pofdpWrite32valueToField` — the two ways;
* `PofSwitch.field_arithmetic` — **the two operations calculate modulo `2 ^ len` and change nothing else;**
  increments add up, and a subtraction undoes an addition.
-/

import PofSwitch.BitFields
import PofSwitch.DatapathFrame
import PofSwitch.LrRun

set_option relaxedAutoImplicit false
set_option autoImplicit false

namespace PofSwitch

open Prog Buf

/-! ### Numbers of up to 32 bits -/

theorem toNat_pofdpGet32valueFromBuf (b : Buf) (off : UInt16) {len : UInt16} (hlen : len.toNat ≤ 32) :
    (pofdpGet32valueFromBuf b off len).toNat = fieldNat b off.toNat len.toNat := by
  have hlt : fieldNat b off.toNat len.toNat < 2 ^ 32 :=
    (fieldNat_lt b _ _).trans_le (Nat.pow_le_pow_right (by omega) hlen)
  have hread := shiftRight_loadBE_pofbfCopyBit b (length_zeros 4) off hlen
  rw [pofdpGet32valueFromBuf, show 32 = 8 * 4 from rfl, hread, UInt32.toNat_ofNat']
  exact Nat.mod_eq_of_lt hlt

/-- `write_32value_to_buf` puts the value into the field. -/
theorem pofbfCoverBit_write32valueBytes {b : Buf} {off len : UInt16} (value : UInt32)
    (hfit : FieldFits off.toNat len.toNat) (hlen : len.toNat ≤ 32)
    (hin : off.toNat + len.toNat ≤ 8 * b.length) :
    ∃ c, pofbfCoverBit b (write32valueBytes value len) off len = some c ∧
      FieldSet off.toNat len.toNat (value.toNat % 2 ^ len.toNat) b c := by
  have hbytes : len.toNat ≤ 8 * 4 := hlen
  rw [write32valueBytes, show 32 = 8 * 4 from rfl, ← fieldNat_storeBE value.toNat 4 hbytes]
  exact pofbfCoverBit_fieldSet hfit (zeroFrom_storeBE value.toNat hbytes) hin

/-! ### Fields of the packet and of the metadata -/

/-- The buffer a field lies in. -/
def DpPacket.fieldBuf (dpp : DpPacket) (pm : PofMatch) : Buf :=
  if pm.fieldId = metadataFieldId then dpp.metadata else dpp.window

/-- The buffer a field lies in is replaced. -/
def DpPacket.setFieldBuf (dpp : DpPacket) (pm : PofMatch) (b : Buf) : DpPacket :=
  if pm.fieldId = metadataFieldId then { dpp with metadata := b } else dpp.setWindow b

/-- The field lies in the metadata, or in the window of the packet, and these in memory. -/
structure FieldInside (pm : PofMatch) (dpp : DpPacket) : Prop where
  metadata : pm.fieldId = metadataFieldId →
    pm.offset.toNat + pm.len.toNat ≤ 8 * dpp.metadataLen.toNat ∧ dpp.metadataLen.toNat ≤ dpp.metadata.length
  packet : pm.fieldId ≠ metadataFieldId →
    (pm.offset.toNat + pm.len.toNat : ℤ) ≤ 8 * dpp.leftLen ∧ 0 ≤ dpp.bufOffset ∧
      dpp.bufOffset + dpp.leftLen ≤ dpp.buf.length

/-- `t` is `s` with the number `n` in a field. -/
def FieldBecomes (pm : PofMatch) (n : ℕ) (s t : DpState) : Prop :=
  ∃ b, FieldSet pm.offset.toNat pm.len.toNat n (s.dpp.fieldBuf pm) b ∧
    t = { s with dpp := s.dpp.setFieldBuf pm b }

/-- The number in a field. -/
def DpState.fieldValue (s : DpState) (pm : PofMatch) : ℕ :=
  fieldNat (s.dpp.fieldBuf pm) pm.offset.toNat pm.len.toNat

section Fields

variable {pm : PofMatch} {dpp : DpPacket} {s t u : DpState} {n m : ℕ}

theorem FieldInside.bufOffset_le (h : FieldInside pm dpp) (hpm : pm.fieldId ≠ metadataFieldId) :
    dpp.bufOffset.toNat ≤ dpp.buf.length := by
  obtain ⟨hin, hpos, hend⟩ := h.packet hpm
  omega

/-- The bounds of the field are those of its buffer. -/
theorem FieldInside.le_length (h : FieldInside pm dpp) :
    pm.offset.toNat + pm.len.toNat ≤ 8 * (dpp.fieldBuf pm).length := by
  unfold DpPacket.fieldBuf
  by_cases hpm : pm.fieldId = metadataFieldId
  · obtain ⟨hin, hend⟩ := h.metadata hpm
    rw [if_pos hpm]
    omega
  · obtain ⟨hin, hpos, hend⟩ := h.packet hpm
    rw [if_neg hpm, DpPacket.window, List.length_drop]
    omega

theorem DpPacket.setFieldBuf_fieldBuf (dpp : DpPacket) (pm : PofMatch) :
    dpp.setFieldBuf pm (dpp.fieldBuf pm) = dpp := by
  unfold DpPacket.setFieldBuf DpPacket.fieldBuf
  split_ifs
  · rfl
  · exact dpp.setWindow_window

theorem FieldInside.fieldBuf_setFieldBuf (h : FieldInside pm dpp) (b : Buf) :
    (dpp.setFieldBuf pm b).fieldBuf pm = b := by
  unfold DpPacket.setFieldBuf DpPacket.fieldBuf
  by_cases hpm : pm.fieldId = metadataFieldId
  · rw [if_pos hpm, if_pos hpm]
  · rw [if_neg hpm, if_neg hpm]
    exact DpPacket.window_setWindow (h.bufOffset_le hpm) b

theorem FieldInside.setFieldBuf_setFieldBuf (h : FieldInside pm dpp) (b c : Buf) :
    (dpp.setFieldBuf pm b).setFieldBuf pm c = dpp.setFieldBuf pm c := by
  unfold DpPacket.setFieldBuf
  by_cases hpm : pm.fieldId = metadataFieldId
  · rw [if_pos hpm, if_pos hpm, if_pos hpm]
  · rw [if_neg hpm, if_neg hpm, if_neg hpm]
    exact DpPacket.setWindow_setWindow (h.bufOffset_le hpm) b c

/-- A field stays within its bounds. -/
theorem FieldInside.setFieldBuf (h : FieldInside pm dpp) {b : Buf}
    (hb : b.length = (dpp.fieldBuf pm).length) : FieldInside pm (dpp.setFieldBuf pm b) := by
  unfold DpPacket.fieldBuf at hb
  unfold DpPacket.setFieldBuf
  by_cases hpm : pm.fieldId = metadataFieldId
  · rw [if_pos hpm] at hb ⊢
    exact ⟨fun h' => by simpa only [hb] using h.metadata h', fun h' => absurd hpm h'⟩
  · rw [if_neg hpm] at hb ⊢
    refine ⟨fun h' => absurd h' hpm, fun h' => ?_⟩
    have hle := h.bufOffset_le hpm
    obtain ⟨hin, hpos, hend⟩ := h.packet hpm
    refine ⟨hin, hpos, ?_⟩
    simp only [DpPacket.setWindow, List.length_append, List.length_take, hb, DpPacket.window,
      List.length_drop]
    omega

theorem FieldBecomes.refl (pm : PofMatch) (s : DpState) : FieldBecomes pm (s.fieldValue pm) s s :=
  ⟨s.dpp.fieldBuf pm, FieldSet.refl _ _ _, by rw [DpPacket.setFieldBuf_fieldBuf]⟩

theorem FieldBecomes.inside (h : FieldBecomes pm n s t) (hin : FieldInside pm s.dpp) :
    FieldInside pm t.dpp := by
  obtain ⟨b, hset, rfl⟩ := h
  exact hin.setFieldBuf hset.length

/-- The number put into the field is read back. -/
theorem FieldBecomes.fieldValue (h : FieldBecomes pm n s t) (hin : FieldInside pm s.dpp) :
    t.fieldValue pm = n := by
  obtain ⟨b, hset, rfl⟩ := h
  rw [DpState.fieldValue, hin.fieldBuf_setFieldBuf, hset.value]

/-- The last number put into the field stays. -/
theorem FieldBecomes.trans (h₁ : FieldBecomes pm n s t) (h₂ : FieldBecomes pm m t u)
    (hin : FieldInside pm s.dpp) : FieldBecomes pm m s u := by
  obtain ⟨b, hb, rfl⟩ := h₁
  obtain ⟨c, hc, rfl⟩ := h₂
  dsimp only at hc ⊢
  rw [hin.fieldBuf_setFieldBuf] at hc
  rw [hin.setFieldBuf_setFieldBuf]
  exact ⟨c, hb.trans hc, rfl⟩

/-- The number put into the field determines the state. -/
theorem FieldBecomes.unique (h₁ : FieldBecomes pm n s t) (h₂ : FieldBecomes pm n s u) : t = u := by
  obtain ⟨b, hb, rfl⟩ := h₁
  obtain ⟨c, hc, rfl⟩ := h₂
  rw [hb.unique hc]

end Fields

/-! ### Reading and writing a field -/

section Arithmetic

variable {pm : PofMatch} {s : DpState}

theorem not_len_gt {len : UInt16} (hlen : len.toNat ≤ 32) : ¬ len > 32 := by
  rw [gt_iff_lt, UInt16.lt_iff_toNat_lt]
  exact Nat.not_lt.2 hlen

theorem FieldInside.pofdpGetFieldBuf {dpp : DpPacket} (h : FieldInside pm dpp) :
    pofdpGetFieldBuf pm dpp = some (dpp.fieldBuf pm) := by
  unfold PofSwitch.pofdpGetFieldBuf DpPacket.fieldBuf
  by_cases hpm : pm.fieldId = metadataFieldId
  · obtain ⟨hin, hend⟩ := h.metadata hpm
    rw [if_pos hpm, if_pos hpm, if_neg (by omega)]
  · obtain ⟨hin, hpos, hend⟩ := h.packet hpm
    rw [if_neg hpm, if_neg hpm, if_neg (by omega)]

/-- `get_32value_from_field` reads the number in the field. -/
theorem exec_get32valueFromField (hin : FieldInside pm s.dpp) (hlen : pm.len.toNat ≤ 32) :
    ∃ value, exec (get32valueFromField pm) s = (.ok value, s) ∧ value.toNat = s.fieldValue pm := by
  refine ⟨pofdpGet32valueFromBuf (s.dpp.fieldBuf pm) pm.offset pm.len, ?_,
    toNat_pofdpGet32valueFromBuf _ _ hlen⟩
  rw [get32valueFromField, exec_bind_ok (exec_failIf_neg (not_len_gt hlen) _ _ s), exec_bind_ok exec_get,
    hin.pofdpGetFieldBuf]
  rfl

/-- The number that `get_32value_from_field` reads, if it does not refuse the field. -/
def fieldOperand (pm : PofMatch) (dpp : DpPacket) : Option UInt32 :=
  if pm.len > 32 then none
  else (pofdpGetFieldBuf pm dpp).map fun buf => pofdpGet32valueFromBuf buf pm.offset pm.len

/-- The number that `pofdp_get_32value` reads. -/
def operandOf (type : UInt8) (data : Buf) (p : ℕ) (dpp : DpPacket) : Option UInt32 :=
  if type = 0 then some (word data p) else fieldOperand (matchAt data p) dpp

/-- A field is read, or refused with an error; either way nothing changes. -/
theorem exec_get32valueFromField_cases (pm : PofMatch) (s : DpState) :
    (fieldOperand pm s.dpp = none ∧ ∃ e, exec (get32valueFromField pm) s = (.error (.error e), s)) ∨
      ∃ v, fieldOperand pm s.dpp = some v ∧ exec (get32valueFromField pm) s = (.ok v, s) := by
  unfold fieldOperand get32valueFromField
  by_cases hlen : pm.len > 32
  · rw [if_pos hlen, exec_bind_error (exec_failIf_pos hlen _ _ s)]
    exact Or.inl ⟨rfl, _, rfl⟩
  · rw [if_neg hlen, exec_bind_ok (exec_failIf_neg hlen _ _ s), exec_bind_ok exec_get]
    cases pofdpGetFieldBuf pm s.dpp with
    | none => exact Or.inl ⟨rfl, _, rfl⟩
    | some buf => exact Or.inr ⟨_, rfl, rfl⟩

theorem exec_pofdpGet32value_cases (type : UInt8) (data : Buf) (p : ℕ) (s : DpState) :
    (operandOf type data p s.dpp = none ∧
        ∃ e, exec (pofdpGet32value type data p) s = (.error (.error e), s)) ∨
      ∃ v, operandOf type data p s.dpp = some v ∧ exec (pofdpGet32value type data p) s = (.ok v, s) := by
  unfold operandOf pofdpGet32value
  by_cases htype : type = 0
  · rw [if_pos htype, if_pos htype]
    exact Or.inr ⟨_, rfl, rfl⟩
  · rw [if_neg htype, if_neg htype]
    exact exec_get32valueFromField_cases _ s

theorem exec_get32valueFromField_eq_ok {v : UInt32} {t : DpState} :
    exec (get32valueFromField pm) s = (.ok v, t) ↔ fieldOperand pm s.dpp = some v ∧ t = s := by
  rcases exec_get32valueFromField_cases pm s with ⟨hnone, e, hexec⟩ | ⟨u, hsome, hexec⟩
  · simp [hnone, hexec]
  · simp [hsome, hexec, eq_comm]

theorem exec_pofdpGet32value_eq_ok {type : UInt8} {data : Buf} {p : ℕ} {v : UInt32} {t : DpState} :
    exec (pofdpGet32value type data p) s = (.ok v, t) ↔ operandOf type data p s.dpp = some v ∧ t = s := by
  rcases exec_pofdpGet32value_cases type data p s with ⟨hnone, e, hexec⟩ | ⟨u, hsome, hexec⟩
  · simp [hnone, hexec]
  · simp [hsome, hexec, eq_comm]

/-- `pofdp_write_32value_to_field` puts the value into the field. -/
theorem exec_pofdpWrite32valueToField (hin : FieldInside pm s.dpp)
    (hfit : FieldFits pm.offset.toNat pm.len.toNat) (hlen : pm.len.toNat ≤ 32) (value : UInt32) :
    ∃ t, exec (pofdpWrite32valueToField value pm) s = (.ok (), t) ∧
      FieldBecomes pm (value.toNat % 2 ^ pm.len.toNat) s t := by
  obtain ⟨c, hc, hset⟩ := pofbfCoverBit_write32valueBytes value hfit hlen hin.le_length
  refine ⟨_, ?_, c, hset, rfl⟩
  rw [pofdpWrite32valueToField, exec_bind_ok (exec_failIf_neg (not_len_gt hlen) _ _ s),
    exec_bind_ok exec_get]
  unfold DpPacket.fieldBuf at hc
  unfold DpPacket.setFieldBuf
  by_cases hpm : pm.fieldId = metadataFieldId
  · rw [if_pos hpm] at hc
    obtain ⟨hbound, _⟩ := hin.metadata hpm
    rw [if_neg (not_not.2 hpm), exec_bind_ok (exec_failIf_neg (by omega) _ _ s), exec_coverMetadata hc,
      if_pos hpm]
  · rw [if_neg hpm] at hc
    obtain ⟨hbound, _⟩ := hin.packet hpm
    rw [if_pos hpm, exec_bind_ok (exec_failIf_neg (by omega) _ _ s), exec_coverWindow hc, if_neg hpm]

/-! ### The two operations -/

/-- `execute_MODIFY_FIELD` adds the increment. -/
theorem exec_modifyFieldAction (hin : FieldInside pm s.dpp) (hfit : FieldFits pm.offset.toNat pm.len.toNat)
    (hlen : pm.len.toNat ≤ 32) {data : Buf} (hdata : matchAt data 0 = pm) :
    ∃ t, exec (modifyFieldAction data) s = (.ok (), t) ∧
      FieldBecomes pm ((s.fieldValue pm + (word data 8).toNat) % 2 ^ pm.len.toNat) s t := by
  obtain ⟨value, hget, hvalue⟩ := exec_get32valueFromField hin hlen
  obtain ⟨t, ht, hbecomes⟩ := exec_pofdpWrite32valueToField hin hfit hlen (value + word data 8)
  refine ⟨t, by rw [modifyFieldAction, hdata, exec_bind_ok hget, ht], ?_⟩
  rw [UInt32.toNat_add, Nat.mod_mod_of_dvd _ (Nat.pow_dvd_pow 2 hlen), hvalue] at hbecomes
  exact hbecomes

/-- The body of a `CALCULATE_FIELD` on a field with an immediate operand. -/
structure CalculatesField (type : UInt16) (pm : PofMatch) (data : Buf) : Prop where
  calcType : half data 0 = type
  srcType : data.rd 2 = 0
  dstField : matchAt data 8 = pm

/-- `execute_CALCULATE_FIELD` with an immediate operand puts the result into the field. -/
theorem exec_calculateFieldWork (hin : FieldInside pm s.dpp) (hfit : FieldFits pm.offset.toNat pm.len.toNat)
    (hlen : pm.len.toNat ≤ 32) {type : UInt16} {data : Buf} (hdata : CalculatesField type pm data)
    {f : UInt32 → UInt32} (hcalc : ∀ value, calculate type.toNat value (word data 16) = some (f value)) :
    ∃ value t, value.toNat = s.fieldValue pm ∧ exec (calculateFieldWork data) s = (.ok (), t) ∧
      FieldBecomes pm ((f value).toNat % 2 ^ pm.len.toNat) s t := by
  obtain ⟨value, hget, hvalue⟩ := exec_get32valueFromField hin hlen
  obtain ⟨t, ht, hbecomes⟩ := exec_pofdpWrite32valueToField hin hfit hlen (f value)
  refine ⟨value, t, hvalue, ?_, hbecomes⟩
  have hoperand : exec (pofdpGet32value (data.rd 2) data 16) s = (.ok (word data 16), s) := by
    rw [pofdpGet32value, if_pos hdata.srcType]
    rfl
  rw [calculateFieldWork, hdata.dstField, exec_bind_ok hget, exec_bind_ok hoperand, hdata.calcType,
    hcalc value]
  exact ht

theorem exec_calculateFieldWork_add (hin : FieldInside pm s.dpp)
    (hfit : FieldFits pm.offset.toNat pm.len.toNat) (hlen : pm.len.toNat ≤ 32) {data : Buf}
    (hdata : CalculatesField 0 pm data) :
    ∃ t, exec (calculateFieldWork data) s = (.ok (), t) ∧
      FieldBecomes pm ((s.fieldValue pm + (word data 16).toNat) % 2 ^ pm.len.toNat) s t := by
  obtain ⟨value, t, hvalue, ht, hbecomes⟩ := exec_calculateFieldWork hin hfit hlen hdata
    (f := fun value => value + word data 16) fun _ => rfl
  refine ⟨t, ht, ?_⟩
  rw [UInt32.toNat_add, Nat.mod_mod_of_dvd _ (Nat.pow_dvd_pow 2 hlen), hvalue] at hbecomes
  exact hbecomes

/-- A difference of 32-bit numbers, cut to fewer bits. -/
theorem toNat_sub_mod {len : ℕ} (hlen : len ≤ 32) (v d : UInt32) :
    (v - d).toNat % 2 ^ len = (((v.toNat : ℤ) - d.toNat) % 2 ^ len).toNat := by
  have hdvd : (2 : ℤ) ^ len ∣ 2 ^ 32 := pow_dvd_pow 2 hlen
  have hd := d.toNat_lt
  have hsub : ((v - d).toNat : ℤ) = ((v.toNat : ℤ) - d.toNat) % 2 ^ 32 := by
    rw [UInt32.toNat_sub]
    omega
  rw [← Int.emod_emod_of_dvd _ hdvd, ← hsub, ← Int.toNat_natCast ((v - d).toNat % 2 ^ len),
    Int.natCast_mod, Nat.cast_pow]
  rfl

theorem exec_calculateFieldWork_subtract (hin : FieldInside pm s.dpp)
    (hfit : FieldFits pm.offset.toNat pm.len.toNat) (hlen : pm.len.toNat ≤ 32) {data : Buf}
    (hdata : CalculatesField 1 pm data) :
    ∃ t, exec (calculateFieldWork data) s = (.ok (), t) ∧
      FieldBecomes pm (((s.fieldValue pm : ℤ) - (word data 16).toNat) % 2 ^ pm.len.toNat).toNat s t := by
  obtain ⟨value, t, hvalue, ht, hbecomes⟩ := exec_calculateFieldWork hin hfit hlen hdata
    (f := fun value => value - word data 16) fun _ => rfl
  refine ⟨t, ht, ?_⟩
  rw [toNat_sub_mod hlen, hvalue] at hbecomes
  exact hbecomes

/-- **The field becomes the sum or the difference modulo `2 ^ len` and nothing else changes; so two
increments are one, and a subtraction undoes an addition.** -/
theorem field_arithmetic (hin : FieldInside pm s.dpp) (hfit : FieldFits pm.offset.toNat pm.len.toNat)
    (hlen : pm.len.toNat ≤ 32) :
    (∀ data, matchAt data 0 = pm → ∃ t, exec (modifyFieldAction data) s = (.ok (), t) ∧
      FieldBecomes pm ((s.fieldValue pm + (word data 8).toNat) % 2 ^ pm.len.toNat) s t) ∧
    (∀ data, CalculatesField 0 pm data → ∃ t, exec (calculateFieldWork data) s = (.ok (), t) ∧
      FieldBecomes pm ((s.fieldValue pm + (word data 16).toNat) % 2 ^ pm.len.toNat) s t) ∧
    (∀ data, CalculatesField 1 pm data → ∃ t, exec (calculateFieldWork data) s = (.ok (), t) ∧
      FieldBecomes pm (((s.fieldValue pm : ℤ) - (word data 16).toNat) % 2 ^ pm.len.toNat).toNat s t) ∧
    (∀ data₁ data₂ data₃, matchAt data₁ 0 = pm → matchAt data₂ 0 = pm → matchAt data₃ 0 = pm →
      word data₃ 8 = word data₁ 8 + word data₂ 8 →
      exec (modifyFieldAction data₁ >>= fun _ => modifyFieldAction data₂) s =
        exec (modifyFieldAction data₃) s) ∧
    (∀ data₁ data₂, CalculatesField 0 pm data₁ → CalculatesField 1 pm data₂ →
      word data₁ 16 = word data₂ 16 →
      exec (calculateFieldWork data₁ >>= fun _ => calculateFieldWork data₂) s = (.ok (), s)) := by
  refine ⟨fun data => exec_modifyFieldAction hin hfit hlen,
    fun data => exec_calculateFieldWork_add hin hfit hlen,
    fun data => exec_calculateFieldWork_subtract hin hfit hlen,
    fun data₁ data₂ data₃ h₁ h₂ h₃ hsum => ?_, fun data₁ data₂ h₁ h₂ hsame => ?_⟩
  · obtain ⟨t, ht, hfirst⟩ := exec_modifyFieldAction hin hfit hlen h₁
    obtain ⟨u, hu, hsecond⟩ := exec_modifyFieldAction (hfirst.inside hin) hfit hlen h₂
    obtain ⟨w, hw, hboth⟩ := exec_modifyFieldAction hin hfit hlen h₃
    have hvalue : (t.fieldValue pm + (word data₂ 8).toNat) % 2 ^ pm.len.toNat =
        (s.fieldValue pm + (word data₃ 8).toNat) % 2 ^ pm.len.toNat := by
      rw [hfirst.fieldValue hin, hsum, UInt32.toNat_add, Nat.mod_add_mod, Nat.add_assoc]
      conv_rhs => rw [Nat.add_mod, Nat.mod_mod_of_dvd _ (Nat.pow_dvd_pow 2 hlen), ← Nat.add_mod]
    rw [hvalue] at hsecond
    rw [exec_bind_ok ht, hu, hw, (hfirst.trans hsecond hin).unique hboth]
  · obtain ⟨t, ht, hfirst⟩ := exec_calculateFieldWork_add hin hfit hlen h₁
    obtain ⟨u, hu, hsecond⟩ := exec_calculateFieldWork_subtract (hfirst.inside hin) hfit hlen h₂
    have hvalue : (((t.fieldValue pm : ℤ) - (word data₂ 16).toNat) % 2 ^ pm.len.toNat).toNat =
        s.fieldValue pm := by
      have hlt : s.fieldValue pm < 2 ^ pm.len.toNat := fieldNat_lt _ _ _
      rw [hfirst.fieldValue hin, hsame, Int.natCast_mod, Nat.cast_pow, Nat.cast_ofNat, Int.emod_sub_emod,
        Nat.cast_add, Int.add_sub_cancel]
      rw [Int.emod_eq_of_lt (by omega) (by exact_mod_cast hlt), Int.toNat_natCast]
    rw [hvalue] at hsecond
    rw [exec_bind_ok ht, hu, (hfirst.trans hsecond hin).unique (FieldBecomes.refl pm s)]

end Arithmetic

/-- A packet with a time to live of zero in its second byte. -/
def expiredState : DpState := pofdpForward 1 [7, 0, 9] (pofLocalresourceInit smallConfig)

/-- A `MODIFY_FIELD` that decrements the second byte. -/
def decrementTtl : Buf := [0, 0, 8, 0, 8, 0, 0, 0, 255, 255, 255, 255]

/-- The time to live becomes `255`, and nothing else changes. -/
theorem field_arithmetic_wraps : ∃ t, exec (modifyFieldAction decrementTtl) expiredState = (.ok (), t) ∧
    FieldBecomes ⟨0, 8, 8⟩ 255 expiredState t := by
  have hin : FieldInside ⟨0, 8, 8⟩ expiredState.dpp :=
    ⟨fun h => absurd h (by decide), fun _ => by decide +kernel⟩
  obtain ⟨t, ht, hbecomes⟩ := (field_arithmetic hin (by decide) (by decide)).1 decrementTtl (by decide)
  have hvalue : (expiredState.fieldValue ⟨0, 8, 8⟩ + (word decrementTtl 8).toNat) %
      2 ^ (PofMatch.mk 0 8 8).len.toNat = 255 := by
    decide +kernel
  rw [hvalue] at hbecomes
  exact ⟨t, ht, hbecomes⟩

end PofSwitch
