/-
**Accesses to the packet and to the metadata.**

Seven operations read and write bits of the packet, which has `left_len` bytes, and of the metadata, which
has 128.  Some of them test one of the two buffers, some test the other, in bits or in bytes, and
`WRITE_METADATA` and `CALCULATE_CHECKSUM` test none.  Two of them copy through an array whose size they do not
test, `SET_FIELD_FROM_METADATA` through `value` and `OUTPUT` through `buf_out`.  Here the operations are
written with a demand in front of every access, and an operation is guarded when it fails without a change
whenever a demand is missed, and has stored behind no array by then.

A read is of the bits that go into the result.  A write is of the bytes that are stored to: an empty field is
stored to the byte it begins in, and the stores of a field that is shorter than a byte and crosses into the
next one do not end.

Main definitions:

* `PofSwitch.ReadInside`, `PofSwitch.CoverInside` — an access inside a buffer of `n` bytes;
* `PofSwitch.BufferOp` with `work`, `bounded` — the operations, and the operations with demands;
* `PofSwitch.Overruns`, `PofSwitch.Guarded`, `PofSwitch.BufferOp.Safe`.

Main results:

* `PofSwitch.coverInside_iff` — the stores of `pofbf_cover_bit`;
* `PofSwitch.checked_bounded` — the demands are all that is added;
* `PofSwitch.guarded_iff` — **exactly when each operation is guarded**.
-/

import PofSwitch.Arithmetic
import PofSwitch.OutputPorts

set_option relaxedAutoImplicit false
set_option autoImplicit false

namespace PofSwitch

open Prog Buf

/-! ### Accesses -/

/-- The two buffers. -/
inductive Side
  | packet
  | metadata
deriving DecidableEq, Repr

/-- The bytes of a buffer that may be accessed. -/
def Side.bytes (dpp : DpPacket) : Side → ℕ
  | packet => dpp.leftLen.toNat
  | metadata => metadataMaxLen

/-- The bits from `offset` on are inside `n` bytes. -/
def ReadInside (n offset len : ℕ) : Prop := len = 0 ∨ offset + len ≤ 8 * n

/-- The stores of `pofbf_cover_bit` are inside `n` bytes. -/
def CoverInside (n pos len : ℕ) : Prop := (8 ≤ len ∨ pos % 8 + len ≤ 8) ∧ (pos + (len - 1)) / 8 < n

instance (n offset len : ℕ) : Decidable (ReadInside n offset len) := inferInstanceAs (Decidable (_ ∨ _))

instance (n pos len : ℕ) : Decidable (CoverInside n pos len) := inferInstanceAs (Decidable (_ ∧ _))

/-- `pofbf_cover_bit` returns and has stored inside `n` bytes. -/
theorem coverInside_iff (d value : Buf) (pos len : UInt16) (n : ℕ) :
    (∃ w, pofbfCoverBitLog d value pos len = some w ∧ ∀ i ∈ w.stores, i < n) ↔
      CoverInside n pos.toNat len.toNat := by
  rw [CoverInside]
  constructor
  · rintro ⟨w, hw, hstores⟩
    refine ⟨?_, (stores_lt_iff hw n).1 hstores⟩
    by_contra hnot
    rw [(pofbfCoverBitLog_eq_none_iff d value pos len).2 hnot] at hw
    cases hw
  · rintro ⟨hreturns, hlast⟩
    obtain ⟨w, hw⟩ : ∃ w, pofbfCoverBitLog d value pos len = some w :=
      Option.ne_none_iff_exists'.1 fun hnone => (pofbfCoverBitLog_eq_none_iff d value pos len).1 hnone hreturns
    exact ⟨w, hw, (stores_lt_iff hw n).2 hlast⟩

/-- An access that leaves its buffer, or so many bytes that go through an array with fewer. -/
inductive Outside
  | read (side : Side) (offset len : ℕ)
  | write (side : Side) (pos len : ℕ)
  | array (bytes : ℕ)
deriving DecidableEq, Repr

/-- A computation of the datapath with demands on its accesses. -/
abbrev DpBounds : Type → Type := Prog (Outside ⊕ Halt) DpState

/-- A read of `len` bits. -/
def demandRead (dpp : DpPacket) (side : Side) (offset len : ℕ) : DpBounds Unit :=
  demand (ReadInside (side.bytes dpp) offset len) (.read side offset len)

/-- A `pofbf_cover_bit`. -/
def demandCover (dpp : DpPacket) (side : Side) (pos len : UInt16) : DpBounds Unit :=
  demand (CoverInside (side.bytes dpp) pos.toNat len.toNat) (.write side pos.toNat len.toNat)

/-! ### Fields -/

/-- The buffer a field is in. -/
def fieldSide (pm : PofMatch) : Side := if pm.fieldId = metadataFieldId then .metadata else .packet

/-- `get_32value_from_field` with its read. -/
def boundedGet32valueFromField (pm : PofMatch) : DpBounds UInt32 := do
  lift (failIf (pm.len > 32) .badMatch .pofbmcBadLen)
  let s ← lift get
  let src ← lift (liftOption (pofdpGetFieldBuf pm s.dpp) (.error ⟨.softwareFailed, .pofError⟩))
  demandRead s.dpp (fieldSide pm) pm.offset.toNat pm.len.toNat
  lift (pure (pofdpGet32valueFromBuf src pm.offset pm.len))

/-- `pofdp_get_32value` with its read. -/
def boundedGet32value (type : UInt8) (data : Buf) (p : ℕ) : DpBounds UInt32 :=
  if type = 0 then lift (pure (word data p)) else boundedGet32valueFromField (matchAt data p)

/-- `pofdp_write_32value_to_field` with its stores. -/
def boundedWrite32valueToField (value : UInt32) (pm : PofMatch) : DpBounds Unit := do
  lift (failIf (pm.len > 32) .badMatch .pofbmcBadLen)
  let s ← lift get
  if pm.fieldId ≠ metadataFieldId then do
    lift (failIf ((pm.len.toNat + pm.offset.toNat : ℤ) > s.dpp.leftLen * 8)
      .softwareFailed .pofPacketLenError)
    demandCover s.dpp .packet pm.offset pm.len
    lift (coverWindow (write32valueBytes value pm.len) pm.offset pm.len)
  else do
    lift (failIf (pm.len.toNat + pm.offset.toNat > s.dpp.metadataLen.toNat * 8)
      .softwareFailed .pofMetadataLenError)
    demandCover s.dpp .metadata pm.offset pm.len
    lift (coverMetadata (write32valueBytes value pm.len) pm.offset pm.len)

/-! ### The operations -/

/-- `execute_WRITE_METADATA` with its stores. -/
def boundedWriteMetadata (data : Buf) : DpBounds Unit := do
  let s ← lift get
  demandCover s.dpp .metadata (half data 0) (half data 2)
  lift (writeMetadataWork data)

/-- `execute_WRITE_METADATA_FROM_PACKET` with its accesses. -/
def boundedWriteMetadataFromPacket (data : Buf) : DpBounds Unit := do
  let s ← lift get
  lift (failIf (s.dpp.leftLen * 8 < ((half data 4).toNat + (half data 2).toNat : ℤ))
    .softwareFailed .pofPacketLenError)
  demandRead s.dpp .packet (half data 2).toNat (half data 4).toNat
  demandCover s.dpp .metadata (half data 0) (half data 4)
  lift (coverMetadata (pofbfCopyBit s.dpp.window (Buf.zeros metadataMaxLen) (half data 2) (half data 4))
    (half data 0) (half data 4))

/-- `execute_SET_FIELD_FROM_METADATA` with its accesses. -/
def boundedSetFieldFromMetadata (data : Buf) : DpBounds Unit := do
  let pm := matchAt data 0
  let s ← lift get
  lift (failIf (s.dpp.leftLen * 8 < (pm.offset.toNat + pm.len.toNat : ℤ)) .softwareFailed .pofPacketLenError)
  demand (pm.len.toNat ≤ 8 * maxFieldLengthInByte) (.array (bytenumCeil pm.len.toNat))
  lift (check (pm.len.toNat > 8 * maxFieldLengthInByte) .undefined)
  demandRead s.dpp .metadata (half data 8).toNat pm.len.toNat
  demandCover s.dpp .packet pm.offset pm.len
  lift (coverWindow (pofbfCopyBit s.dpp.metadata (Buf.zeros maxFieldLengthInByte) (half data 8) pm.len)
    pm.offset pm.len)

/-- The buffer a type byte of a `CALCULATE_CHECKSUM` selects. -/
def checksumSide (type : UInt8) : Side := if type = 0 then .packet else .metadata

/-- The stores of `bzero_bit` are inside `n` bytes. -/
def BzeroInside (n pos len : ℕ) : Prop :=
  if pos % 8 = 0 ∧ len % 8 = 0 then ReadInside n pos len else CoverInside n pos len

/-- The words that the loop of `checksum` reads are inside `n` bytes. -/
def WordsInside (n : ℕ) (posB lenB csLenB : UInt16) : Prop :=
  ∀ i < lenB.toNat / csLenB.toNat, ReadInside n (UInt16.ofNat (posB.toNat + i * csLenB.toNat)).toNat csLenB.toNat

instance (n pos len : ℕ) : Decidable (BzeroInside n pos len) :=
  inferInstanceAs (Decidable (if pos % 8 = 0 ∧ len % 8 = 0 then ReadInside n pos len else CoverInside n pos len))

instance (n : ℕ) (posB lenB csLenB : UInt16) : Decidable (WordsInside n posB lenB csLenB) :=
  inferInstanceAs (Decidable (∀ i < _, _))

/-- `calChecksum` with its accesses. -/
def boundedCalChecksum (checksumType calType : UInt8) (calPosB calLenB csPosB csLenB : UInt16) :
    DpBounds Unit := do
  let s ← lift get
  demand (BzeroInside ((checksumSide checksumType).bytes s.dpp) csPosB.toNat csLenB.toNat)
    (.write (checksumSide checksumType) csPosB.toNat csLenB.toNat)
  let cleared ← lift (liftOption (bzeroBit (checksumBuf checksumType s.dpp) csPosB csLenB) .hang)
  lift (modifyDpp (setChecksumBuf checksumType cleared))
  let s ← lift get
  demand (WordsInside ((checksumSide calType).bytes s.dpp) calPosB calLenB csLenB)
    (.read (checksumSide calType) calPosB.toNat calLenB.toNat)
  let value ← lift (liftOption (checksum (checksumBuf calType s.dpp) calPosB calLenB csLenB) .undefined)
  demandCover s.dpp (checksumSide checksumType) csPosB csLenB
  let covered ← lift (liftOption (pofbfCoverBit (checksumBuf checksumType s.dpp) value csPosB csLenB) .hang)
  lift (modifyDpp (setChecksumBuf checksumType covered))

/-- `execute_CALCULATE_CHECKSUM` with its accesses. -/
def boundedCalculateChecksum (data : Buf) : DpBounds Unit := do
  lift (failIf (half data 4 > 64) .badAction .pofbacBadLen)
  boundedCalChecksum (data.rd 0) (data.rd 1) (half data 6) (half data 8) (half data 2) (half data 4)

/-- `execute_CALCULATE_FIELD` with its accesses. -/
def boundedCalculateField (data : Buf) : DpBounds Unit := do
  let value1 ← boundedGet32valueFromField (matchAt data 8)
  let operand ← boundedGet32value (data.rd 2) data 16
  let result ← lift (liftOption (calculate (half data 0).toNat value1 operand)
    (.error ⟨.badInstruction, .pofbicUnknownInst⟩))
  boundedWrite32valueToField result (matchAt data 8)

/-- `execute_MODIFY_FIELD` with its accesses. -/
def boundedModifyField (data : Buf) : DpBounds Unit := do
  let value ← boundedGet32valueFromField (matchAt data 0)
  boundedWrite32valueToField (value + word data 8) (matchAt data 0)

/-- The bytes that `pofdp_send_raw` puts into `buf_out`. -/
def sentBytes (dpp : DpPacket) : ℕ := dpp.outputMetadataLen.toNat + dpp.outputPacketLen.toNat

/-- `pofdp_send_raw` with its accesses; `output_packet_buf` is `buf_offset`. -/
def boundedSendRaw (env : DpEnv) (lrPort : LocalResource) : DpBounds Unit := do
  let s ← lift get
  demand (sentBytes s.dpp ≤ packetRawMaxLen) (.array (sentBytes s.dpp))
  demandRead s.dpp .metadata s.dpp.outputMetadataOffset.toNat (s.dpp.outputMetadataLen * 8).toNat
  demandRead s.dpp .packet (8 * s.dpp.outputPacketOffset.toNat) (8 * s.dpp.outputPacketLen.toNat)
  lift (pofdpSendRaw env lrPort)

/-- The loop of `execute_OUTPUT` over the ports of the slot, with its accesses. -/
def boundedFloodLoop (env : DpEnv) (lrPort : LocalResource) : List PortInfo → DpBounds Unit
  | [] => lift (pure ())
  | port :: ports => do
      let s ← lift get
      if floodTo env s.dpp port then do
        lift (modifyDpp fun dpp => { dpp with outputPortId := port.pofIndex.toUInt16 })
        boundedSendRaw env lrPort
        boundedFloodLoop env lrPort ports
      else boundedFloodLoop env lrPort ports

/-- `execute_OUTPUT` with its accesses. -/
def boundedOutput (env : DpEnv) (data : Buf) : DpBounds Unit := do
  let s ← lift get
  lift (failIf (((half data 6).toNat : ℤ) > s.dpp.leftLen) .softwareFailed .pofPacketLenError)
  lift (failIf (bytenumCeil ((half data 4).toNat + (half data 2).toNat) > s.dpp.metadataLen.toNat)
    .softwareFailed .pofMetadataLenError)
  let value ← boundedGet32value (data.rd 0) data 8
  lift (modifyDpp fun dpp =>
    { dpp with outputSlotId := (value >>> 16).toUInt16, outputPortId := value.toUInt16 })
  let lrPort ← lift (liftOption (pofdpGetLocalResource env (value >>> 16).toUInt16 s.lr)
    (.error ⟨.softwareFailed, .pofInvalidSlotId⟩))
  lift (modifyDpp (fillOutput data))
  if value.toUInt16 = 255 then boundedFloodLoop env lrPort lrPort.portPofIndexMap.order
  else boundedSendRaw env lrPort

/-- The operations that access the packet and the metadata by the bits their operands name. -/
inductive BufferOp
  | writeMetadata | writeMetadataFromPacket | setFieldFromMetadata | calculateChecksum | calculateField
  | modifyField | output
deriving DecidableEq, Repr

/-- What an operation does. -/
def BufferOp.work (env : DpEnv) (data : Buf) : BufferOp → Dp Unit
  | writeMetadata => writeMetadataWork data
  | writeMetadataFromPacket => writeMetadataFromPacketWork data
  | setFieldFromMetadata => setFieldFromMetadataAction data
  | calculateChecksum => calculateChecksumAction data
  | calculateField => calculateFieldWork data
  | modifyField => modifyFieldAction data
  | output => outputAction env data

/-- An operation with demands. -/
def BufferOp.bounded (env : DpEnv) (data : Buf) : BufferOp → DpBounds Unit
  | writeMetadata => boundedWriteMetadata data
  | writeMetadataFromPacket => boundedWriteMetadataFromPacket data
  | setFieldFromMetadata => boundedSetFieldFromMetadata data
  | calculateChecksum => boundedCalculateChecksum data
  | calculateField => boundedCalculateField data
  | modifyField => boundedModifyField data
  | output => boundedOutput env data

/-! ### The demands are all that is added -/

theorem bounded_get32valueFromField (pm : PofMatch) :
    Checked (boundedGet32valueFromField pm) (get32valueFromField pm) :=
  (Checked.lift _).bind fun _ => (Checked.lift _).bind fun _ => (Checked.lift _).bind fun _ =>
    (Checked.lift _).demand_bind

theorem bounded_pofdpGet32value (type : UInt8) (data : Buf) (p : ℕ) :
    Checked (boundedGet32value type data p) (pofdpGet32value type data p) := by
  unfold boundedGet32value pofdpGet32value
  split_ifs
  · exact Checked.lift _
  · exact bounded_get32valueFromField _

theorem bounded_pofdpWrite32valueToField (value : UInt32) (pm : PofMatch) :
    Checked (boundedWrite32valueToField value pm) (pofdpWrite32valueToField value pm) := by
  refine (Checked.lift _).bind fun _ => (Checked.lift _).bind fun s => ?_
  split_ifs
  · exact (Checked.lift _).bind fun _ => (Checked.lift _).demand_bind
  · exact (Checked.lift _).bind fun _ => (Checked.lift _).demand_bind

theorem bounded_pofdpSendRaw (env : DpEnv) (lrPort : LocalResource) :
    Checked (boundedSendRaw env lrPort) (pofdpSendRaw env lrPort) :=
  Checked.get_bind fun _ => (Checked.lift _).demand_bind.demand_bind.demand_bind

theorem bounded_floodLoop (env : DpEnv) (lrPort : LocalResource) (ports : List PortInfo) :
    Checked (boundedFloodLoop env lrPort ports) (floodLoop env lrPort ports) := by
  induction ports with
  | nil => exact Checked.lift _
  | cons port ports ih =>
      refine (Checked.lift _).bind fun s => ?_
      split_ifs
      · exact (Checked.lift _).bind fun _ => (bounded_pofdpSendRaw env lrPort).bind fun _ => ih
      · exact ih

theorem bounded_outputAction (env : DpEnv) (data : Buf) :
    Checked (boundedOutput env data) (outputAction env data) := by
  refine (Checked.lift _).bind fun s => (Checked.lift _).bind fun _ => (Checked.lift _).bind fun _ => ?_
  refine (bounded_pofdpGet32value _ _ _).bind fun value => (Checked.lift _).bind fun _ => ?_
  refine (Checked.lift _).bind fun lrPort => (Checked.lift _).bind fun _ => ?_
  split_ifs
  · exact bounded_floodLoop env lrPort _
  · exact bounded_pofdpSendRaw env lrPort

theorem bounded_calChecksum (checksumType calType : UInt8) (calPosB calLenB csPosB csLenB : UInt16) :
    Checked (boundedCalChecksum checksumType calType calPosB calLenB csPosB csLenB)
      (calChecksum checksumType calType calPosB calLenB csPosB csLenB) := by
  refine (Checked.lift _).bind fun s => Checked.demand_bind ((Checked.lift _).bind fun cleared => ?_)
  refine (Checked.lift _).bind fun _ => (Checked.lift _).bind fun s => Checked.demand_bind ?_
  exact (Checked.lift _).bind fun value => Checked.demand_bind ((Checked.lift _).bind fun _ => Checked.lift _)

/-- **The operations with demands are the operations.** -/
theorem checked_bounded (env : DpEnv) (data : Buf) (op : BufferOp) :
    Checked (op.bounded env data) (op.work env data) := by
  cases op with
  | writeMetadata => exact Checked.get_bind fun _ => (Checked.lift _).demand_bind
  | writeMetadataFromPacket =>
      exact (Checked.lift _).bind fun _ => (Checked.lift _).bind fun _ => (Checked.lift _).demand_bind.demand_bind
  | setFieldFromMetadata =>
      refine (Checked.lift _).bind fun _ => (Checked.lift _).bind fun _ => Checked.demand_bind ?_
      exact (Checked.lift _).bind fun _ => (Checked.lift _).demand_bind.demand_bind
  | calculateChecksum => exact (Checked.lift _).bind fun _ => bounded_calChecksum _ _ _ _ _ _
  | calculateField =>
      exact (bounded_get32valueFromField _).bind fun _ => (bounded_pofdpGet32value _ _ _).bind fun _ =>
        (Checked.lift _).bind fun _ => bounded_pofdpWrite32valueToField _ _
  | modifyField =>
      exact (bounded_get32valueFromField _).bind fun _ => bounded_pofdpWrite32valueToField _ _
  | output => exact bounded_outputAction env data

/-! ### Guarded operations -/

/-- The operation fails with an error and has changed neither the packet nor the metadata. -/
def Rejected (m : Dp Unit) (s : DpState) : Prop :=
  ∃ e t, exec m s = (.error (.error e), t) ∧ t.dpp.buf = s.dpp.buf ∧ t.dpp.metadata = s.dpp.metadata

/-- The operation has stored behind an array by then. -/
def Overruns (w : DpBounds Unit) (s : DpState) : Prop := ∃ n t, exec w s = (.error (.inl (.array n)), t)

/-- Whatever the ports, the tables and the answers of the operating system are: an operation that would
leave the packet, the metadata or an array on the way is rejected, and before it has left an array. -/
def Guarded (op : BufferOp) (data : Buf) (dpp : DpPacket) : Prop :=
  ∀ env lr trace, ¬ Faultless (op.bounded env data) ⟨dpp, lr, trace⟩ →
    Rejected (op.work env data) ⟨dpp, lr, trace⟩ ∧ ¬ Overruns (op.bounded env data) ⟨dpp, lr, trace⟩

/-- The stores to a field are inside its buffer. -/
def FieldCovered (pm : PofMatch) (dpp : DpPacket) : Prop :=
  CoverInside ((fieldSide pm).bytes dpp) pm.offset.toNat pm.len.toNat

/-- A `CALCULATE_CHECKSUM` clears, reads and writes inside the buffers; with a checksum of no bits it does
not come to read. -/
def ChecksumInside (data : Buf) (dpp : DpPacket) : Prop :=
  BzeroInside ((checksumSide (data.rd 0)).bytes dpp) (half data 2).toNat (half data 4).toNat ∧
    (half data 4 ≠ 0 →
      WordsInside ((checksumSide (data.rd 1)).bytes dpp) (half data 6) (half data 8) (half data 4) ∧
        CoverInside ((checksumSide (data.rd 0)).bytes dpp) (half data 2).toNat (half data 4).toNat)

/-- The operands with which an operation is guarded. -/
def BufferOp.Safe (data : Buf) (dpp : DpPacket) : BufferOp → Prop
  | writeMetadata => CoverInside metadataMaxLen (half data 0).toNat (half data 2).toNat
  | writeMetadataFromPacket => dpp.leftLen * 8 < ((half data 4).toNat + (half data 2).toNat : ℤ) ∨
      CoverInside metadataMaxLen (half data 0).toNat (half data 4).toNat
  | setFieldFromMetadata => dpp.leftLen * 8 < ((half data 2).toNat + (half data 4).toNat : ℤ) ∨
      (half data 4).toNat ≤ 8 * maxFieldLengthInByte ∧ ReadInside metadataMaxLen (half data 8).toNat (half data 4).toNat ∧
        CoverInside dpp.leftLen.toNat (half data 2).toNat (half data 4).toNat
  | calculateChecksum => half data 4 > 64 ∨ ChecksumInside data dpp
  | calculateField => fieldOperand (matchAt data 8) dpp = none ∨ operandOf (data.rd 2) data 16 dpp = none ∨
      8 ≤ (half data 0).toNat ∨ FieldCovered (matchAt data 8) dpp
  | modifyField => fieldOperand (matchAt data 0) dpp = none ∨ FieldCovered (matchAt data 0) dpp
  | output => dpp.leftLen < (half data 6).toNat ∨
      dpp.metadataLen.toNat < bytenumCeil ((half data 4).toNat + (half data 2).toNat) ∨
      operandOf (data.rd 0) data 8 dpp = none ∨
      OutInside data dpp ∧ (ReadInside metadataMaxLen (half data 2).toNat (8 * bytenumCeil (half data 4).toNat) ∨
        mtuLength < (fillOutput data dpp).outputWholeLen.toNat)

/-! ### Fields -/

section Fields

variable {pm : PofMatch} {s : DpState}

/-- A field that is read is inside its buffer, and is not too long. -/
theorem fieldOperand_inside {v : UInt32} (hmeta : s.dpp.metadataLen.toNat = metadataMaxLen)
    (h : fieldOperand pm s.dpp = some v) :
    ¬ pm.len > 32 ∧ ReadInside ((fieldSide pm).bytes s.dpp) pm.offset.toNat pm.len.toNat ∧
      (pm.fieldId = metadataFieldId → pm.len.toNat + pm.offset.toNat ≤ s.dpp.metadataLen.toNat * 8) ∧
      (pm.fieldId ≠ metadataFieldId → (pm.len.toNat + pm.offset.toNat : ℤ) ≤ s.dpp.leftLen * 8) := by
  by_cases hlen : pm.len > 32
  · rw [fieldOperand, if_pos hlen] at h
    cases h
  rw [fieldOperand, if_neg hlen, pofdpGetFieldBuf] at h
  refine ⟨hlen, ?_⟩
  by_cases hid : pm.fieldId = metadataFieldId
  · rw [if_pos hid] at h
    have hend : pm.len.toNat + pm.offset.toNat ≤ s.dpp.metadataLen.toNat * 8 := by
      by_contra hbig
      rw [if_pos (Nat.not_le.1 hbig)] at h
      cases h
    refine ⟨?_, fun _ => hend, fun hne => absurd hid hne⟩
    rw [fieldSide, if_pos hid, Side.bytes]
    exact Or.inr (by omega)
  · rw [if_neg hid] at h
    have hend : (pm.len.toNat + pm.offset.toNat : ℤ) ≤ s.dpp.leftLen * 8 := by
      by_contra hbig
      rw [if_pos (not_le.1 hbig)] at h
      cases h
    refine ⟨?_, fun heq => absurd heq hid, fun _ => hend⟩
    rw [fieldSide, if_neg hid, Side.bytes]
    exact Or.inr (by omega)

/-- A field that passes the checks is read inside its buffer. -/
theorem faultless_boundedGet32valueFromField (hmeta : s.dpp.metadataLen.toNat = metadataMaxLen) :
    Faultless (boundedGet32valueFromField pm) s := by
  simp only [boundedGet32valueFromField, failIf, demandRead, faultless_check_bind, faultless_get_bind,
    faultless_liftOption_bind, faultless_demand_bind, faultless_lift, and_true]
  intro hlen src hsrc
  have hv : fieldOperand pm s.dpp = some (pofdpGet32valueFromBuf src pm.offset pm.len) := by
    rw [fieldOperand, if_neg hlen, hsrc]
    rfl
  exact (fieldOperand_inside hmeta hv).2.1

theorem faultless_boundedGet32value (hmeta : s.dpp.metadataLen.toNat = metadataMaxLen) (type : UInt8)
    (data : Buf) (p : ℕ) : Faultless (boundedGet32value type data p) s := by
  unfold boundedGet32value
  split_ifs
  · exact faultless_lift _ _
  · exact faultless_boundedGet32valueFromField hmeta

theorem faultless_boundedGet32valueFromField_bind {β : Type} {f : UInt32 → DpBounds β}
    (hmeta : s.dpp.metadataLen.toNat = metadataMaxLen) :
    Faultless (boundedGet32valueFromField pm >>= f) s ↔ ∀ v, fieldOperand pm s.dpp = some v → Faultless (f v) s := by
  rw [(bounded_get32valueFromField pm).faultless_bind]
  simp only [faultless_boundedGet32valueFromField hmeta, exec_get32valueFromField_eq_ok, and_imp,
    forall_eq_apply_imp_iff, true_and]

theorem faultless_boundedGet32value_bind {β : Type} {type : UInt8} {data : Buf} {p : ℕ}
    {f : UInt32 → DpBounds β} (hmeta : s.dpp.metadataLen.toNat = metadataMaxLen) :
    Faultless (boundedGet32value type data p >>= f) s ↔
      ∀ v, operandOf type data p s.dpp = some v → Faultless (f v) s := by
  rw [(bounded_pofdpGet32value type data p).faultless_bind]
  simp only [faultless_boundedGet32value hmeta, exec_pofdpGet32value_eq_ok, and_imp,
    forall_eq_apply_imp_iff, true_and]

/-- A field that has been read is written inside its buffer exactly when its stores are. -/
theorem faultless_boundedWrite32valueToField (hmeta : s.dpp.metadataLen.toNat = metadataMaxLen) {v : UInt32}
    (h : fieldOperand pm s.dpp = some v) (value : UInt32) :
    Faultless (boundedWrite32valueToField value pm) s ↔ FieldCovered pm s.dpp := by
  obtain ⟨hlen, -, hmetadata, hpacket⟩ := fieldOperand_inside hmeta h
  simp only [boundedWrite32valueToField, failIf, demandCover, faultless_check_bind, faultless_get_bind]
  unfold FieldCovered fieldSide
  by_cases hid : pm.fieldId = metadataFieldId
  · rw [if_neg (not_not.2 hid), if_pos hid]
    simp only [faultless_check_bind, faultless_demand_bind, faultless_lift, and_true]
    exact ⟨fun hall => hall hlen (Nat.not_lt.2 (hmetadata hid)), fun hcover _ _ => hcover⟩
  · rw [if_pos hid, if_neg hid]
    simp only [faultless_check_bind, faultless_demand_bind, faultless_lift, and_true]
    exact ⟨fun hall => hall hlen (not_lt.2 (hpacket hid)), fun hcover _ _ => hcover⟩

end Fields

/-! ### Operations that never fail once they write -/

/-- A failure that is not an error code. -/
def NoError (h : Halt) (_ : DpState) : Prop := ∀ e, h ≠ .error e

section NoError

variable {P : DpState → Prop}

theorem noError_coverWindow (value : Buf) (pos len : UInt16) :
    Meets P (coverWindow value pos len) (fun _ _ => True) NoError :=
  Meets.get_bind fun _ _ => Meets.liftOption_bind (fun _ _ => Meets.modify fun _ _ => trivial)
    fun _ _ e h => by cases h

/-- A check for a store behind an array. -/
theorem noError_checkUndefined (c : Prop) [Decidable c] :
    Meets P (check c Halt.undefined) (fun _ _ => True) NoError := by
  by_cases hc : c
  · rw [check, if_pos hc]
    exact Meets.throw fun _ _ e h => by cases h
  · rw [check, if_neg hc]
    exact Meets.pure fun _ _ => trivial

theorem noError_coverMetadata (value : Buf) (pos len : UInt16) :
    Meets P (coverMetadata value pos len) (fun _ _ => True) NoError :=
  Meets.get_bind fun _ _ => Meets.liftOption_bind (fun _ _ => Meets.modify fun _ _ => trivial)
    fun _ _ e h => by cases h

theorem noError_calChecksum (checksumType calType : UInt8) (calPosB calLenB csPosB csLenB : UInt16) :
    Meets P (calChecksum checksumType calType calPosB calLenB csPosB csLenB) (fun _ _ => True) NoError := by
  refine Meets.get_bind fun s _ => Meets.liftOption_bind (fun cleared _ => ?_) (fun _ _ e h => by cases h)
  have hset : ∀ {P : DpState → Prop} (b : Buf), Meets P (modifyDpp (setChecksumBuf checksumType b))
      (fun _ _ => True) NoError := fun b => Meets.modify fun _ _ => trivial
  refine (hset cleared).bind fun _ => Meets.get_bind fun s _ => ?_
  refine Meets.liftOption_bind (fun value _ => ?_) (fun _ _ e h => by cases h)
  exact Meets.liftOption_bind (fun covered _ => hset covered) (fun _ _ e h => by cases h)

/-- A computation that never fails with an error is never rejected. -/
theorem not_rejected {m : Dp Unit} (h : Meets (fun _ => True) m (fun _ _ => True) NoError) (s : DpState) :
    ¬ Rejected m s := by
  rintro ⟨e, t, hexec, -⟩
  exact h.error trivial hexec e rfl

/-- A first part that returns without a change does not matter. -/
theorem rejected_bind {α : Type} {m : Dp α} {f : α → Dp Unit} {a : α} {s : DpState}
    (h : exec m s = (.ok a, s)) : Rejected (m >>= f) s ↔ Rejected (f a) s := by
  rw [Rejected, exec_bind_ok h]
  rfl

/-- A field that has been read is written, or the routine does not return. -/
theorem not_rejected_write {pm : PofMatch} {s : DpState} {v : UInt32}
    (hmeta : s.dpp.metadataLen.toNat = metadataMaxLen) (h : fieldOperand pm s.dpp = some v) (value : UInt32) :
    ¬ Rejected (pofdpWrite32valueToField value pm) s := by
  obtain ⟨hlen, -, hmetadata, hpacket⟩ := fieldOperand_inside hmeta h
  rw [pofdpWrite32valueToField, rejected_bind (exec_failIf_neg hlen _ _ s), rejected_bind exec_get]
  by_cases hid : pm.fieldId = metadataFieldId
  · rw [if_neg (not_not.2 hid), rejected_bind (exec_failIf_neg (Nat.not_lt.2 (hmetadata hid)) _ _ s)]
    exact not_rejected (noError_coverMetadata _ _ _) s
  · rw [if_pos hid, rejected_bind (exec_failIf_neg (not_lt.2 (hpacket hid)) _ _ s)]
    exact not_rejected (noError_coverWindow _ _ _) s

end NoError

/-! ### The operations but `OUTPUT` -/

section Operations

variable {data : Buf} {s : DpState}

theorem calculate_eq_none_iff (type : ℕ) (value operand : UInt32) :
    calculate type value operand = none ↔ 8 ≤ type := by
  constructor
  · intro h
    by_contra hlt
    have htype : type = 0 ∨ type = 1 ∨ type = 2 ∨ type = 3 ∨ type = 4 ∨ type = 5 ∨ type = 6 ∨ type = 7 := by
      omega
    rcases htype with rfl | rfl | rfl | rfl | rfl | rfl | rfl | rfl <;> cases h
  · intro h
    obtain ⟨k, rfl⟩ := Nat.exists_eq_add_of_le' h
    rfl

theorem bytes_setChecksumBuf (side : Side) (type : UInt8) (b : Buf) (dpp : DpPacket) :
    side.bytes (setChecksumBuf type b dpp) = side.bytes dpp := by
  unfold setChecksumBuf
  split_ifs
  · cases side <;> rfl
  · cases side <;> rfl

/-- What `bzero_bit` clears inside the buffer is cleared. -/
theorem BzeroInside.returns {n : ℕ} {pos len : UInt16} (h : BzeroInside n pos.toNat len.toNat) (b : Buf) :
    ∃ c, bzeroBit b pos len = some c := by
  unfold BzeroInside at h
  unfold bzeroBit
  split_ifs at h ⊢
  · exact ⟨_, rfl⟩
  · exact Option.ne_none_iff_exists'.1 fun hnone => (pofbfCoverBit_eq_none_iff _ _ _ _).1 hnone h.1

theorem faultless_boundedCalculateChecksum (data : Buf) (s : DpState) :
    Faultless (boundedCalculateChecksum data) s ↔ half data 4 > 64 ∨ ChecksumInside data s.dpp := by
  simp only [boundedCalculateChecksum, boundedCalChecksum, failIf, modifyDpp, demandCover, faultless_check_bind,
    faultless_get_bind, faultless_modify_bind, faultless_liftOption_bind, faultless_demand_bind, faultless_lift,
    bytes_setChecksumBuf, implies_true, and_true]
  rw [or_iff_not_imp_left, ChecksumInside]
  refine forall_congr' fun _ => and_congr_right fun hbzero => ?_
  obtain ⟨cleared, hcleared⟩ := hbzero.returns (checksumBuf (data.rd 0) s.dpp)
  constructor
  · intro h hlen
    obtain ⟨hwords, hrest⟩ := h cleared hcleared
    refine ⟨hwords, ?_⟩
    simp only [checksum, if_neg hlen] at hrest
    exact hrest _ rfl
  · intro h c hc
    by_cases hlen : half data 4 = 0
    · refine ⟨fun i hi => ?_, fun value hvalue => ?_⟩
      · rw [hlen] at hi
        exact absurd hi (by simp)
      · rw [checksum, if_pos hlen] at hvalue
        cases hvalue
    · exact ⟨(h hlen).1, fun _ _ => (h hlen).2⟩

/-- **The accesses of the operations other than `OUTPUT` are inside the buffers exactly for safe operands.** -/
theorem faultless_bounded {op : BufferOp} (hop : op ≠ .output) (env : DpEnv)
    (hmeta : s.dpp.metadataLen.toNat = metadataMaxLen) :
    Faultless (op.bounded env data) s ↔ op.Safe data s.dpp := by
  cases op with
  | output => exact absurd rfl hop
  | writeMetadata =>
      simp only [BufferOp.bounded, boundedWriteMetadata, demandCover, faultless_get_bind,
        faultless_demand_bind, faultless_lift, and_true]
      rfl
  | writeMetadataFromPacket =>
      simp only [BufferOp.bounded, boundedWriteMetadataFromPacket, failIf, demandRead, demandCover,
        faultless_get_bind, faultless_check_bind, faultless_demand_bind, faultless_lift, and_true]
      rw [BufferOp.Safe, or_iff_not_imp_left]
      refine forall_congr' fun hlen => and_iff_right (Or.inr ?_)
      rw [Side.bytes]
      omega
  | setFieldFromMetadata =>
      simp only [BufferOp.bounded, boundedSetFieldFromMetadata, failIf, demandRead, demandCover,
        faultless_get_bind, faultless_check_bind, faultless_demand_bind, faultless_lift, and_true]
      rw [BufferOp.Safe, or_iff_not_imp_left]
      refine forall_congr' fun _ => and_congr_right fun hvalue => ?_
      exact forall_prop_of_true (Nat.not_lt.2 hvalue)
  | calculateChecksum => exact faultless_boundedCalculateChecksum data s
  | modifyField =>
      rw [BufferOp.bounded, boundedModifyField, faultless_boundedGet32valueFromField_bind hmeta, BufferOp.Safe]
      cases hv : fieldOperand (matchAt data 0) s.dpp with
      | none => simp
      | some v =>
          simp only [Option.some.injEq, forall_eq', faultless_boundedWrite32valueToField hmeta hv, reduceCtorEq,
            false_or]
  | calculateField =>
      rw [BufferOp.bounded, boundedCalculateField, faultless_boundedGet32valueFromField_bind hmeta, BufferOp.Safe]
      simp only [faultless_boundedGet32value_bind hmeta, faultless_liftOption_bind]
      cases hv : fieldOperand (matchAt data 8) s.dpp with
      | none => simp
      | some v =>
          simp only [Option.some.injEq, forall_eq', faultless_boundedWrite32valueToField hmeta hv, reduceCtorEq,
            false_or]
          cases operandOf (data.rd 2) data 16 s.dpp with
          | none => simp
          | some u =>
              have hcalc := calculate_eq_none_iff (half data 0).toNat v u
              cases hresult : calculate (half data 0).toNat v u with
              | none => simp [hcalc.1 hresult, hresult]
              | some r =>
                  have htype : ¬ 8 ≤ (half data 0).toNat := by
                    rw [← hcalc, hresult]
                    simp
                  simp [htype, hresult]

/-- An operation other than `OUTPUT` with operands that are not safe is not rejected. -/
theorem not_rejected_work {op : BufferOp} (hop : op ≠ .output) (env : DpEnv)
    (hmeta : s.dpp.metadataLen.toNat = metadataMaxLen) (h : ¬ op.Safe data s.dpp) :
    ¬ Rejected (op.work env data) s := by
  cases op with
  | output => exact absurd rfl hop
  | writeMetadata => exact not_rejected (noError_coverMetadata _ _ _) s
  | writeMetadataFromPacket =>
      obtain ⟨hlen, -⟩ := not_or.1 h
      rw [BufferOp.work, writeMetadataFromPacketWork, rejected_bind exec_get,
        rejected_bind (exec_failIf_neg hlen _ _ s)]
      exact not_rejected (noError_coverMetadata _ _ _) s
  | setFieldFromMetadata =>
      have hlen : ¬ s.dpp.leftLen * 8 < ((matchAt data 0).offset.toNat + (matchAt data 0).len.toNat : ℤ) :=
        (not_or.1 h).1
      rw [BufferOp.work, setFieldFromMetadataAction, rejected_bind exec_get,
        rejected_bind (exec_failIf_neg hlen _ _ s)]
      exact not_rejected ((noError_checkUndefined _).bind fun _ => noError_coverWindow _ _ _) s
  | calculateChecksum =>
      obtain ⟨hlen, -⟩ := not_or.1 h
      rw [BufferOp.work, calculateChecksumAction, rejected_bind (exec_failIf_neg hlen _ _ s)]
      exact not_rejected (noError_calChecksum _ _ _ _ _ _) s
  | modifyField =>
      obtain ⟨hread, -⟩ := not_or.1 h
      obtain ⟨v, hv⟩ := Option.ne_none_iff_exists'.1 hread
      rw [BufferOp.work, modifyFieldAction, rejected_bind (exec_get32valueFromField_eq_ok.2 ⟨hv, rfl⟩)]
      exact not_rejected_write hmeta hv _
  | calculateField =>
      obtain ⟨hread, h⟩ := not_or.1 h
      obtain ⟨hoperand, h⟩ := not_or.1 h
      obtain ⟨htype, -⟩ := not_or.1 h
      obtain ⟨v, hv⟩ := Option.ne_none_iff_exists'.1 hread
      obtain ⟨u, hu⟩ := Option.ne_none_iff_exists'.1 hoperand
      obtain ⟨r, hr⟩ := Option.ne_none_iff_exists'.1 fun hnone => htype ((calculate_eq_none_iff _ v u).1 hnone)
      rw [BufferOp.work, calculateFieldWork, rejected_bind (exec_get32valueFromField_eq_ok.2 ⟨hv, rfl⟩),
        rejected_bind (exec_pofdpGet32value_eq_ok.2 ⟨hu, rfl⟩), hr, rejected_bind (exec_liftOption_some r _)]
      exact not_rejected_write hmeta hv _

end Operations

/-! ### The `OUTPUT` action -/

/-- The accesses of `pofdp_send_raw` are inside the buffers. -/
def SendInside (dpp : DpPacket) : Prop :=
  sentBytes dpp ≤ packetRawMaxLen ∧ ReadInside metadataMaxLen dpp.outputMetadataOffset.toNat (dpp.outputMetadataLen * 8).toNat ∧
    ReadInside dpp.leftLen.toNat (8 * dpp.outputPacketOffset.toNat) (8 * dpp.outputPacketLen.toNat)

section Output

variable {env : DpEnv} {lrPort : LocalResource} {data : Buf} {s : DpState}

theorem faultless_boundedSendRaw : Faultless (boundedSendRaw env lrPort) s ↔ SendInside s.dpp := by
  simp only [boundedSendRaw, demandRead, faultless_get_bind, faultless_demand_bind, faultless_lift, and_true]
  rfl

/-- The fields of the record that the accesses depend on. -/
def DpState.toSend (s : DpState) : (UInt16 × UInt16) × (UInt16 × UInt16) × ℤ :=
  ((s.dpp.outputMetadataOffset, s.dpp.outputMetadataLen), (s.dpp.outputPacketOffset, s.dpp.outputPacketLen),
    s.dpp.leftLen)

theorem sendInside_congr {t : DpState} (h : s.toSend = t.toSend) : SendInside s.dpp ↔ SendInside t.dpp := by
  simp only [DpState.toSend, Prod.mk.injEq] at h
  obtain ⟨⟨hoffset, hlen⟩, ⟨hpacket, hpacketLen⟩, hleft⟩ := h
  rw [SendInside, SendInside, sentBytes, sentBytes, hoffset, hlen, hpacket, hpacketLen, hleft]

theorem toSend_sendRaw (env : DpEnv) (lrPort : LocalResource) : Frame DpState.toSend (sendRaw env lrPort) :=
  Frame.get_bind fun _ => (Frame.liftOption _ _).bind fun _ => (frame_failIf _ _ _).bind fun _ =>
    Frame.modify fun _ => rfl

theorem toSend_pofdpSendRaw (env : DpEnv) (lrPort : LocalResource) :
    Frame DpState.toSend (pofdpSendRaw env lrPort) := by
  refine Frame.bind (Frame.modify fun _ => rfl) fun _ => Frame.get_bind fun _ => ?_
  exact (frame_failIf _ _ _).bind fun _ => toSend_sendRaw env lrPort

/-- The loop over the ports makes the same accesses for every port. -/
theorem faultless_boundedFloodLoop (h : SendInside s.dpp) (ports : List PortInfo) :
    Faultless (boundedFloodLoop env lrPort ports) s := by
  induction ports generalizing s with
  | nil => exact faultless_lift _ _
  | cons port ports ih =>
      rw [boundedFloodLoop, faultless_get_bind]
      split_ifs
      · rw [modifyDpp, faultless_modify_bind, (bounded_pofdpSendRaw env lrPort).faultless_bind]
        refine ⟨faultless_boundedSendRaw.2 h, fun _ t ht => ih ?_⟩
        have hframe := toSend_pofdpSendRaw env lrPort
          { s with dpp := { s.dpp with outputPortId := port.pofIndex.toUInt16 } }
        rw [ht] at hframe
        exact (sendInside_congr hframe).2 h
      · exact ih h

/-- A failure that is not a store behind an array. -/
def NoOverrun (h : Outside ⊕ Halt) (_ : DpState) : Prop := ∀ n, h ≠ .inl (.array n)

/-- Sending keeps what `buf_out` has room for. -/
theorem noOverrun_boundedSendRaw (env : DpEnv) (lrPort : LocalResource) :
    Meets (fun s => sentBytes s.dpp ≤ packetRawMaxLen) (boundedSendRaw env lrPort)
      (fun _ s => sentBytes s.dpp ≤ packetRawMaxLen) NoOverrun := by
  refine Meets.lift_get_bind fun s hroom => ?_
  refine (Meets.demand fun _ _ hmiss => absurd hroom hmiss).bind fun _ => ?_
  refine (Meets.demand fun _ _ _ n h => by cases h).bind fun _ => ?_
  refine (Meets.demand fun _ _ _ n h => by cases h).bind fun _ => Meets.lift ?_
  refine Meets.of_frame (K := fun x => x = s.toSend) (toSend_pofdpSendRaw env lrPort)
    (fun t ht => by rw [ht]) (fun _ t ht => ?_) fun _ _ _ n h => by cases h
  simp only [DpState.toSend, Prod.mk.injEq] at ht
  rw [sentBytes, ht.1.2, ht.2.1.2]
  exact hroom

theorem noOverrun_boundedFloodLoop (env : DpEnv) (lrPort : LocalResource) (ports : List PortInfo) :
    Meets (fun s => sentBytes s.dpp ≤ packetRawMaxLen) (boundedFloodLoop env lrPort ports)
      (fun _ s => sentBytes s.dpp ≤ packetRawMaxLen) NoOverrun := by
  induction ports with
  | nil => exact Meets.lift (Meets.pure fun _ h => h)
  | cons port ports ih =>
      refine Meets.lift_get_bind fun s hroom => ?_
      split_ifs
      · refine (Meets.lift (Meets.modify fun t ht => ?_)).bind fun _ =>
          (noOverrun_boundedSendRaw env lrPort).bind fun _ => ih
        rw [ht]
        exact hroom
      · exact ih.conseq (fun t ht => by rw [ht]; exact hroom) (fun _ _ h => h) fun _ _ h => h

/-- A frame that is too long is rejected. -/
theorem rejected_pofdpSendRaw (env : DpEnv) (lrPort : LocalResource) (h : mtuLength < s.dpp.outputWholeLen.toNat) :
    Rejected (pofdpSendRaw env lrPort) s := by
  obtain ⟨e, he⟩ := exec_pofdpSendRaw_refused env lrPort (s := s)
    fun hle => absurd hle (Nat.not_le.2 h)
  exact ⟨e, _, he, rfl, rfl⟩

theorem rejected_floodLoop (h : mtuLength < s.dpp.outputWholeLen.toNat) (ports : List PortInfo) :
    Faultless (boundedFloodLoop env lrPort ports) s ∨ Rejected (floodLoop env lrPort ports) s := by
  induction ports with
  | nil => exact Or.inl (faultless_lift _ _)
  | cons port ports ih =>
      simp only [boundedFloodLoop, faultless_get_bind, Rejected, floodLoop, exec_bind_ok exec_get]
      split_ifs
      · right
        obtain ⟨e, t, he, hsame⟩ := rejected_pofdpSendRaw env lrPort
          (s := { s with dpp := { s.dpp with outputPortId := port.pofIndex.toUInt16 } }) h
        refine ⟨e, t, ?_, hsame⟩
        rw [modifyDpp, exec_bind_ok (exec_modify _), exec_bind_error he]
      · exact ih

/-- The state in which an `OUTPUT` comes to send. -/
def DpState.recorded (s : DpState) (data : Buf) (value : UInt32) : DpState :=
  { s with dpp := outputRecord data value s.dpp }

/-- The accesses of an `OUTPUT` whose lengths pass the checks. -/
theorem sendInside_recorded (hmeta : s.dpp.metadataLen.toNat = metadataMaxLen)
    (hlen : ((half data 6).toNat : ℤ) ≤ s.dpp.leftLen)
    (hcheck : bytenumCeil ((half data 4).toNat + (half data 2).toNat) ≤ s.dpp.metadataLen.toNat)
    (value : UInt32) : SendInside (s.recorded data value).dpp ↔ OutInside data s.dpp ∧
      ReadInside metadataMaxLen (half data 2).toNat (8 * bytenumCeil (half data 4).toNat) := by
  have hmetaLen : ((outputRecord data value s.dpp).outputMetadataLen * 8).toNat =
      8 * bytenumCeil (half data 4).toNat := by
    change (UInt16.ofNat (bytenumCeil (half data 4).toNat) * 8).toNat = _
    rw [bytenumCeil, metadataMaxLen] at *
    rw [UInt16.toNat_mul, UInt16.toNat_ofNat']
    change _ * 8 % _ = _
    omega
  have hpacket : ReadInside s.dpp.leftLen.toNat (8 * (half data 6).toNat)
      (8 * (toUInt16 (s.dpp.leftLen - (half data 6).toNat)).toNat) := by
    refine Or.inr ?_
    rw [toUInt16, UInt16.toNat_ofNat']
    omega
  change SendInside (outputRecord data value s.dpp) ↔ _
  rw [SendInside, hmetaLen]
  exact and_congr_right fun _ => and_iff_left hpacket

/-- When `execute_OUTPUT` comes to send. -/
theorem faultless_boundedOutput (hmeta : s.dpp.metadataLen.toNat = metadataMaxLen) :
    Faultless (boundedOutput env data) s ↔
      (((half data 6).toNat : ℤ) ≤ s.dpp.leftLen →
        bytenumCeil ((half data 4).toNat + (half data 2).toNat) ≤ s.dpp.metadataLen.toNat →
          ∀ value, operandOf (data.rd 0) data 8 s.dpp = some value →
            ∀ lrPort, pofdpGetLocalResource env (value >>> 16).toUInt16 s.lr = some lrPort →
              Faultless (if value.toUInt16 = 255 then boundedFloodLoop env lrPort lrPort.portPofIndexMap.order
                else boundedSendRaw env lrPort) (s.recorded data value)) := by
  simp only [boundedOutput, failIf, modifyDpp, faultless_get_bind, faultless_check_bind,
    faultless_boundedGet32value_bind hmeta, faultless_modify_bind, faultless_liftOption_bind, gt_iff_lt, not_lt]
  rfl

/-- An `OUTPUT` that comes to send is rejected when the sending is. -/
theorem rejected_outputAction {value : UInt32} (hvalue : operandOf (data.rd 0) data 8 s.dpp = some value)
    (hlen : ((half data 6).toNat : ℤ) ≤ s.dpp.leftLen)
    (hcheck : bytenumCeil ((half data 4).toNat + (half data 2).toNat) ≤ s.dpp.metadataLen.toNat)
    (hslot : pofdpGetLocalResource env (value >>> 16).toUInt16 s.lr = some lrPort) :
    Rejected (outputAction env data) s ↔
      Rejected (if value.toUInt16 = 255 then floodLoop env lrPort lrPort.portPofIndexMap.order
        else pofdpSendRaw env lrPort) (s.recorded data value) := by
  rw [Rejected, exec_outputAction_slot (exec_pofdpGet32value_eq_ok.2 ⟨hvalue, rfl⟩) hlen hcheck hslot]
  rfl

/-- It overruns `buf_out` when the sending does. -/
theorem overruns_boundedOutput {value : UInt32} (hmeta : s.dpp.metadataLen.toNat = metadataMaxLen)
    (hvalue : operandOf (data.rd 0) data 8 s.dpp = some value) (hlen : ((half data 6).toNat : ℤ) ≤ s.dpp.leftLen)
    (hcheck : bytenumCeil ((half data 4).toNat + (half data 2).toNat) ≤ s.dpp.metadataLen.toNat)
    (hslot : pofdpGetLocalResource env (value >>> 16).toUInt16 s.lr = some lrPort) :
    Overruns (boundedOutput env data) s ↔
      Overruns (if value.toUInt16 = 255 then boundedFloodLoop env lrPort lrPort.portPofIndexMap.order
        else boundedSendRaw env lrPort) (s.recorded data value) := by
  have hget := ((bounded_pofdpGet32value (data.rd 0) data 8).exec_eq_ok
    (faultless_boundedGet32value hmeta _ _ _)).2 (exec_pofdpGet32value_eq_ok.2 ⟨hvalue, rfl⟩)
  rw [Overruns, boundedOutput, exec_bind_ok (exec_lift_eq_ok.2 exec_get),
    exec_bind_ok (exec_lift_eq_ok.2 (exec_failIf_neg (not_lt.2 hlen) _ _ s)),
    exec_bind_ok (exec_lift_eq_ok.2 (exec_failIf_neg (Nat.not_lt.2 hcheck) _ _ s)), exec_bind_ok hget, modifyDpp,
    exec_bind_ok (exec_lift_eq_ok.2 (exec_modify _)), hslot,
    exec_bind_ok (exec_lift_eq_ok.2 (exec_liftOption_some lrPort _)), modifyDpp,
    exec_bind_ok (exec_lift_eq_ok.2 (exec_modify _))]
  rfl

/-- An `OUTPUT` whose accesses are inside the buffers, or whose frame is too long, is guarded. -/
theorem guarded_output_of_safe (hmeta : s.dpp.metadataLen.toNat = metadataMaxLen)
    (hsafe : BufferOp.output.Safe data s.dpp) (hfault : ¬ Faultless (boundedOutput env data) s) :
    Rejected (outputAction env data) s ∧ ¬ Overruns (boundedOutput env data) s := by
  rw [faultless_boundedOutput hmeta] at hfault
  push Not at hfault
  obtain ⟨hlen, hcheck, value, hvalue, lrPort, hslot, hsend⟩ := hfault
  rw [rejected_outputAction hvalue hlen hcheck hslot, overruns_boundedOutput hmeta hvalue hlen hcheck hslot]
  rcases hsafe with hleft | hbytes | hnone | ⟨hout, hread | hmtu⟩
  · exact absurd hlen (not_le.2 hleft)
  · exact absurd hcheck (Nat.not_le.2 hbytes)
  · rw [hvalue] at hnone
    cases hnone
  · have hinside := (sendInside_recorded hmeta hlen hcheck value).2 ⟨hout, hread⟩
    refine absurd ?_ hsend
    split_ifs
    · exact faultless_boundedFloodLoop hinside _
    · exact faultless_boundedSendRaw.2 hinside
  · have hlong : mtuLength < (s.recorded data value).dpp.outputWholeLen.toNat := hmtu
    have hroom : sentBytes (s.recorded data value).dpp ≤ packetRawMaxLen := hout
    split_ifs at hsend ⊢
    · refine ⟨(rejected_floodLoop hlong _).resolve_left hsend, ?_⟩
      rintro ⟨n, t, hover⟩
      exact (noOverrun_boundedFloodLoop env lrPort _).error hroom hover n rfl
    · refine ⟨rejected_pofdpSendRaw env lrPort hlong, ?_⟩
      rintro ⟨n, t, hover⟩
      exact (noOverrun_boundedSendRaw env lrPort).error hroom hover n rfl

end Output

/-- A port with a number. -/
def numberedPort (k : UInt8) : PortInfo where
  addr := 1
  hash := hmapHashForLinear k.toUInt32
  sysIndex := 1
  pofIndex := k
  slotID := 0
  ofEnable := 1
  config := 0

/-- A slot with one port. -/
def slotWithPort (slotID : UInt16) (k : UInt8) : LocalResource :=
  { pofLocalresourceInit smallConfig with slotID := slotID, portPofIndexMap := ⟨0, 1, [numberedPort k]⟩ }

theorem get_slotWithPort (slotID : UInt16) (k : UInt8) :
    poflrGetPortWithPofindex k (slotWithPort slotID k) = some (numberedPort k) := by
  rw [poflrGetPortWithPofindex, Hmap.nodeGetWithHash]
  exact List.find?_cons_of_pos (decide_eq_true rfl)

theorem order_slotWithPort (slotID : UInt16) (k : UInt8) :
    (slotWithPort slotID k).portPofIndexMap.order = [numberedPort k] :=
  List.perm_singleton.1 (Hmap.order_perm _)

/-- The port that an `OUTPUT` is sent to, or some other port than the packet came from. -/
def someTarget (value : UInt32) (oriPortId : UInt32) : UInt8 :=
  if value.toUInt16 = 255 then (if oriPortId = 1 then 2 else 1) else value.toUInt16.toUInt8

section Sent

variable {data : Buf} {s : DpState} {value : UInt32}

theorem floodTo_someTarget (hflood : value.toUInt16 = 255) (dpp : DpPacket) :
    floodTo openEnv dpp (numberedPort (someTarget value dpp.oriPortId)) = true := by
  unfold someTarget floodTo
  rw [if_pos hflood]
  split_ifs with hori
  · simp [numberedPort, openEnv, hori]
  · simp [numberedPort, openEnv, Ne.symm hori]

/-- The frame is sent to the one port of the slot. -/
theorem exec_send_someTarget (slotID : UInt16) {k : UInt8} (hk : k = someTarget value s.dpp.oriPortId)
    (hport : s.dpp.outputPortId = value.toUInt16) (hmtu : s.dpp.outputWholeLen.toNat ≤ mtuLength) :
    ∃ t, exec (if value.toUInt16 = 255 then floodLoop openEnv (slotWithPort slotID k) [numberedPort k]
      else pofdpSendRaw openEnv (slotWithPort slotID k)) s = (.ok (), t) := by
  split_ifs with hflood
  · rw [floodLoop, exec_bind_ok exec_get, if_pos (by rw [hk]; exact floodTo_someTarget hflood _), modifyDpp,
      exec_bind_ok (exec_modify _)]
    have hget : poflrGetPortWithPofindex (numberedPort k).pofIndex.toUInt16.toUInt8 (slotWithPort slotID k) =
        some (numberedPort k) := by
      rw [UInt8.toUInt8_toUInt16]
      exact get_slotWithPort slotID k
    have hsent := exec_pofdpSendRaw_sent openEnv _
      (s := { s with dpp := { s.dpp with outputPortId := (numberedPort k).pofIndex.toUInt16 } }) hmtu hget
      (show openEnv.sendto _ _ _ = true from rfl)
    rw [exec_bind_ok hsent]
    exact ⟨_, rfl⟩
  · have hget : poflrGetPortWithPofindex s.dpp.outputPortId.toUInt8 (slotWithPort slotID k) =
        some (numberedPort k) := by
      rw [hport, hk, someTarget, if_neg hflood]
      exact get_slotWithPort slotID _
    exact ⟨_, exec_pofdpSendRaw_sent openEnv _ hmtu hget rfl⟩

/-- Its accesses leave the buffers when they are not inside. -/
theorem not_faultless_someTarget (slotID : UInt16) {k : UInt8} (hk : k = someTarget value s.dpp.oriPortId)
    (hout : ¬ SendInside s.dpp) :
    ¬ Faultless (if value.toUInt16 = 255 then boundedFloodLoop openEnv (slotWithPort slotID k) [numberedPort k]
      else boundedSendRaw openEnv (slotWithPort slotID k)) s := by
  split_ifs with hflood
  · intro h
    rw [boundedFloodLoop, faultless_get_bind, if_pos (by rw [hk]; exact floodTo_someTarget hflood _), modifyDpp,
      faultless_modify_bind, faultless_bind, faultless_boundedSendRaw] at h
    exact hout h.1
  · rw [faultless_boundedSendRaw]
    exact hout

/-- It overruns `buf_out` when there is no room for the frame. -/
theorem overruns_someTarget (slotID : UInt16) {k : UInt8} (hk : k = someTarget value s.dpp.oriPortId)
    (hroom : ¬ sentBytes s.dpp ≤ packetRawMaxLen) :
    Overruns (if value.toUInt16 = 255 then boundedFloodLoop openEnv (slotWithPort slotID k) [numberedPort k]
      else boundedSendRaw openEnv (slotWithPort slotID k)) s := by
  have hsend : ∀ (lrPort : LocalResource) (u : DpState), ¬ sentBytes u.dpp ≤ packetRawMaxLen →
      exec (boundedSendRaw openEnv lrPort) u = (.error (.inl (.array (sentBytes u.dpp))), u) := by
    intro lrPort u hmiss
    rw [boundedSendRaw, exec_bind_ok (exec_lift_eq_ok.2 exec_get), demand, check, if_pos hmiss]
    rfl
  split_ifs with hflood
  · have hover := hsend (slotWithPort slotID k)
      { s with dpp := { s.dpp with outputPortId := (numberedPort k).pofIndex.toUInt16 } } hroom
    rw [Overruns, boundedFloodLoop, exec_bind_ok (exec_lift_eq_ok.2 exec_get),
      if_pos (by rw [hk]; exact floodTo_someTarget hflood _), modifyDpp,
      exec_bind_ok (exec_lift_eq_ok.2 (exec_modify _)), exec_bind_error hover]
    exact ⟨_, _, rfl⟩
  · exact ⟨_, _, hsend _ _ hroom⟩

/-- An `OUTPUT` that is guarded whatever the ports are is refused, or keeps inside `buf_out` and reads inside
the buffers or has a frame that is too long. -/
theorem safe_of_guarded_output {dpp : DpPacket} (hmeta : dpp.metadataLen.toNat = metadataMaxLen)
    (h : Guarded .output data dpp) : BufferOp.output.Safe data dpp := by
  by_contra hnot
  simp only [BufferOp.Safe, not_or, not_lt] at hnot
  obtain ⟨hlen, hcheck, hread, hout⟩ := hnot
  obtain ⟨value, hvalue⟩ := Option.ne_none_iff_exists'.1 hread
  -- a slot with a port that the frame is sent to
  have hbuild : ∃ u : DpState, u.dpp = dpp ∧
      u.lr = slotWithPort (value >>> 16).toUInt16 (someTarget value dpp.oriPortId) ∧ u.trace = [] :=
    ⟨⟨dpp, _, []⟩, rfl, rfl, rfl⟩
  obtain ⟨u, rfl, hlr, htrace⟩ := hbuild
  have hslot : pofdpGetLocalResource openEnv (value >>> 16).toUInt16 u.lr = some u.lr := by
    rw [hlr]
    exact if_pos rfl
  have hguarded := h openEnv u.lr u.trace fun hfaultless => by
    have hsend := (faultless_boundedOutput hmeta).1 hfaultless hlen hcheck value hvalue _ hslot
    rw [hlr, order_slotWithPort] at hsend
    refine not_faultless_someTarget (s := u.recorded data value) _ rfl (fun hinside => hout ?_) hsend
    obtain ⟨hroom, hmetadata⟩ := (sendInside_recorded hmeta hlen hcheck value).1 hinside
    exact ⟨hroom, Or.inl hmetadata⟩
  change Rejected (outputAction openEnv data) u ∧ ¬ Overruns (boundedOutput openEnv data) u at hguarded
  rw [rejected_outputAction hvalue hlen hcheck hslot, overruns_boundedOutput hmeta hvalue hlen hcheck hslot, hlr,
    order_slotWithPort] at hguarded
  obtain ⟨⟨e, t, hexec, -⟩, hover⟩ := hguarded
  have hk : someTarget value u.dpp.oriPortId = someTarget value (u.recorded data value).dpp.oriPortId := rfl
  by_cases hroom : OutInside data u.dpp
  swap
  · exact hover (overruns_someTarget (s := u.recorded data value) (value >>> 16).toUInt16 hk hroom)
  have hmtu : (fillOutput data u.dpp).outputWholeLen.toNat ≤ mtuLength :=
    Nat.not_lt.1 fun hlong => hout ⟨hroom, Or.inr hlong⟩
  obtain ⟨t', hsent⟩ := exec_send_someTarget (value >>> 16).toUInt16 hk rfl hmtu
  rw [hsent] at hexec
  cases hexec

end Sent

/-! ### The condition -/

/-- **With metadata of 128 bytes, each operation is rejected without a change whenever it would leave the
packet, the metadata or an array on the way, exactly when its operands are safe.** -/
theorem guarded_iff (op : BufferOp) (data : Buf) {dpp : DpPacket}
    (hmeta : dpp.metadataLen.toNat = metadataMaxLen) : Guarded op data dpp ↔ op.Safe data dpp := by
  by_cases hop : op = .output
  · subst hop
    exact ⟨safe_of_guarded_output hmeta, fun hsafe env lr trace hfault =>
      guarded_output_of_safe hmeta hsafe hfault⟩
  · constructor
    · intro h
      by_contra hnot
      have hfault := (faultless_bounded (s := ⟨dpp, pofLocalresourceInit smallConfig, []⟩) hop openEnv hmeta).not.2
        hnot
      exact not_rejected_work hop openEnv hmeta hnot (h openEnv _ _ hfault).1
    · intro hsafe env lr trace hfault
      exact absurd ((faultless_bounded hop env hmeta).2 hsafe) hfault

/-- A `WRITE_METADATA` of the fifth byte. -/
def writeFifthByte : Buf := [32, 0, 8, 0, 7, 0, 0, 0]

/-- It is guarded on a packet of four bytes. -/
theorem guarded_writeFifthByte : Guarded .writeMetadata writeFifthByte (receivedPacket 1 [1, 2, 3, 4]) := by
  have hcover : CoverInside metadataMaxLen (half writeFifthByte 0).toNat (half writeFifthByte 2).toNat := by
    decide
  exact (guarded_iff .writeMetadata writeFifthByte (by decide)).2 hcover

/-- A `WRITE_METADATA` of 16 bits from bit 1016 on. -/
def writePastMetadata : Buf := [248, 3, 16, 0, 1, 2, 0, 0]

/-- An `OUTPUT` to port 1 with one bit of metadata from bit 1023 on. -/
def outputPastMetadata : Buf := [0, 0, 255, 3, 1, 0, 0, 0, 1, 0, 0, 0, 0, 0, 0, 0]

/-- A `SET_FIELD_FROM_METADATA` of 136 bits. -/
def copyPastValue : Buf := [0, 0, 0, 0, 136, 0, 0, 0, 0, 0]

/-- Neither is rejected on a packet of four bytes, although the first two leave the metadata; and on one of
20 bytes a field of 136 bits leaves the array it goes through. -/
theorem guarded_fails : ¬ Guarded .writeMetadata writePastMetadata (receivedPacket 1 [1, 2, 3, 4]) ∧
    ¬ Guarded .output outputPastMetadata (receivedPacket 1 [1, 2, 3, 4]) ∧
    ¬ Guarded .setFieldFromMetadata copyPastValue (receivedPacket 1 (Buf.zeros 20)) := by
  have hmeta : (receivedPacket 1 [1, 2, 3, 4]).metadataLen.toNat = metadataMaxLen := by decide
  refine ⟨?_, ?_, ?_⟩
  · intro h
    have hnot : ¬ BufferOp.writeMetadata.Safe writePastMetadata (receivedPacket 1 [1, 2, 3, 4]) := by
      rw [BufferOp.Safe]
      decide
    have hfault := (faultless_bounded (s := pofdpForward 1 [1, 2, 3, 4] (pofLocalresourceInit smallConfig))
      (show BufferOp.writeMetadata ≠ .output by decide) openEnv hmeta).not.2 hnot
    exact not_rejected_work (by decide) openEnv hmeta hnot (h openEnv _ _ hfault).1
  · intro h
    rcases safe_of_guarded_output hmeta h with hlen | hcheck | hnone | ⟨-, hread | hmtu⟩
    · exact absurd hlen (by decide)
    · exact absurd hcheck (by decide)
    · exact absurd hnone (by decide)
    · exact absurd hread (by decide)
    · exact absurd hmtu (by decide)
  · intro h
    have hmeta' : (receivedPacket 1 (Buf.zeros 20)).metadataLen.toNat = metadataMaxLen := by decide
    have hnot : ¬ BufferOp.setFieldFromMetadata.Safe copyPastValue (receivedPacket 1 (Buf.zeros 20)) := by
      rw [BufferOp.Safe]
      decide
    have hfault := (faultless_bounded (s := pofdpForward 1 (Buf.zeros 20) (pofLocalresourceInit smallConfig))
      (show BufferOp.setFieldFromMetadata ≠ .output by decide) openEnv hmeta').not.2 hnot
    exact not_rejected_work (by decide) openEnv hmeta' hnot (h openEnv _ _ hfault).1

end PofSwitch
