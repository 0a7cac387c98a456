/-
**Divisions and shifts of the interpreters.**

The interpreters shift by differences of a constant and a length, and divide by a length, that come from an
instruction, an action or the packet.  The lengths are checked from above only.  Here the operations are
written with a demand in front of every division and every shift, and the demands that can be missed are
found: an empty field that is read or written as a number of 32 bits is shifted by 32, an empty checksum
divides by zero, and the shift operations of `CALCULATE_FIELD` shift by whatever the operand is.

Main definitions:

* `PofSwitch.Arith` — a division by zero, or shifts that are too wide;
* `PofSwitch.checkedExecuteAction`, `PofSwitch.checkedExecuteInstruction` — the operations with demands;
* `PofSwitch.ActionSound`, `PofSwitch.InstructionSound` — the operands that meet them.

Main results:

* `PofSwitch.checked_executeAction`, `PofSwitch.checked_executeInstruction` — the demands are all that is
  added;
* `PofSwitch.arithmetic_sound_iff` — **no division by zero and no shift by a whole word or more happens
  exactly for these operands**.
-/

import PofSwitch.Checked
import PofSwitch.FieldValues
import PofSwitch.MovePacketOffset

set_option relaxedAutoImplicit false
set_option autoImplicit false

namespace PofSwitch

open Prog Buf

/-! ### Demands on divisions and shifts -/

/-- An operation without a defined result: a division by zero, or shifts of a word of `width` bits by
amounts that are not all smaller. -/
inductive Arith
  | div
  | shift (width : ℕ) (amounts : List ℕ)
deriving DecidableEq, Repr

/-- A computation of the datapath with demands on its arithmetic. -/
abbrev DpArith : Type → Type := Prog (Arith ⊕ Halt) DpState

/-- A division by `d`. -/
def demandDiv (d : ℕ) : DpArith Unit := demand (d ≠ 0) .div

/-- Shifts of a word of `width` bits. -/
def demandShifts (width : ℕ) (amounts : List ℕ) : DpArith Unit :=
  demand (∀ n ∈ amounts, n < width) (.shift width amounts)

/-- The shifts of `pofbf_copy_bit`, of bytes as `int`. -/
def copyShifts (offsetB lenB : UInt16) : List ℕ :=
  [offsetB.toNat % 8, 8 - offsetB.toNat % 8, 8 * ((lenB.toNat + 7) / 8) - lenB.toNat]

/-- The shifts of `pofbf_cover_bit`, of bytes as `int`. -/
def coverShifts (posB lenB : UInt16) : List ℕ :=
  let afterX := if lenB.toNat + posB.toNat = 0 then 0 else (lenB.toNat + posB.toNat - 1) % 8 + 1
  [8 - posB.toNat % 8, posB.toNat % 8, 8 - afterX, afterX]

theorem copyShifts_lt (offsetB lenB : UInt16) : ∀ n ∈ copyShifts offsetB lenB, n < 32 := by
  intro n hn
  simp only [copyShifts, List.mem_cons, List.not_mem_nil, or_false] at hn
  omega

theorem coverShifts_lt (posB lenB : UInt16) : ∀ n ∈ coverShifts posB lenB, n < 32 := by
  intro n hn
  have hafter : (if lenB.toNat + posB.toNat = 0 then 0 else (lenB.toNat + posB.toNat - 1) % 8 + 1) ≤ 8 := by
    split_ifs
    · omega
    · omega
  simp only [coverShifts, List.mem_cons, List.not_mem_nil, or_false] at hn
  omega

/-! ### Operands -/

/-- `get_32value_from_field` with its shifts. -/
def checkedGet32valueFromField (pm : PofMatch) : DpArith UInt32 := do
  lift (failIf (pm.len > 32) .badMatch .pofbmcBadLen)
  let s ← lift get
  let src ← lift (liftOption (pofdpGetFieldBuf pm s.dpp) (.error ⟨.softwareFailed, .pofError⟩))
  demandShifts 32 (copyShifts pm.offset pm.len)
  demandShifts 32 [32 - pm.len.toNat]
  lift (pure (pofdpGet32valueFromBuf src pm.offset pm.len))

/-- `pofdp_get_32value` with its shifts. -/
def checkedGet32value (type : UInt8) (data : Buf) (p : ℕ) : DpArith UInt32 :=
  if type = 0 then lift (pure (word data p)) else checkedGet32valueFromField (matchAt data p)

/-- `pofdp_write_32value_to_field` with its shifts. -/
def checkedWrite32valueToField (value : UInt32) (pm : PofMatch) : DpArith Unit := do
  lift (failIf (pm.len > 32) .badMatch .pofbmcBadLen)
  let s ← lift get
  if pm.fieldId ≠ metadataFieldId then do
    lift (failIf ((pm.len.toNat + pm.offset.toNat : ℤ) > s.dpp.leftLen * 8)
      .softwareFailed .pofPacketLenError)
    demandShifts 32 [32 - pm.len.toNat]
    demandShifts 32 (coverShifts pm.offset pm.len)
    lift (coverWindow (write32valueBytes value pm.len) pm.offset pm.len)
  else do
    lift (failIf (pm.len.toNat + pm.offset.toNat > s.dpp.metadataLen.toNat * 8)
      .softwareFailed .pofMetadataLenError)
    demandShifts 32 [32 - pm.len.toNat]
    demandShifts 32 (coverShifts pm.offset pm.len)
    lift (coverMetadata (write32valueBytes value pm.len) pm.offset pm.len)

/-! ### Actions -/

/-- `execute_MODIFY_FIELD` with its shifts. -/
def checkedModifyField (data : Buf) : DpArith Unit := do
  let value ← checkedGet32valueFromField (matchAt data 0)
  checkedWrite32valueToField (value + word data 8) (matchAt data 0)

/-- The shifts of `bzero_bit`. -/
def bzeroShifts (posB lenB : UInt16) : List ℕ :=
  if posB.toNat % 8 = 0 ∧ lenB.toNat % 8 = 0 then [] else coverShifts posB lenB

/-- The shifts of the copies in the loop of `checksum`. -/
def checksumShifts (posB lenB csLenB : UInt16) : List ℕ :=
  (List.range (lenB.toNat / csLenB.toNat)).flatMap fun i =>
    copyShifts (UInt16.ofNat (posB.toNat + i * csLenB.toNat)) csLenB

/-- `calChecksum` with its division and its shifts. -/
def checkedCalChecksum (checksumType calType : UInt8) (calPosB calLenB csPosB csLenB : UInt16) :
    DpArith Unit := do
  let s ← lift get
  demandShifts 32 (bzeroShifts csPosB csLenB)
  let cleared ← lift (liftOption (bzeroBit (checksumBuf checksumType s.dpp) csPosB csLenB) .hang)
  lift (modifyDpp (setChecksumBuf checksumType cleared))
  let s ← lift get
  demandDiv csLenB.toNat
  demandShifts 32 (checksumShifts calPosB calLenB csLenB)
  demandShifts 64 [64 - csLenB.toNat]
  let value ← lift (liftOption (checksum (checksumBuf calType s.dpp) calPosB calLenB csLenB) .undefined)
  demandShifts 32 (coverShifts csPosB csLenB)
  let covered ← lift (liftOption (pofbfCoverBit (checksumBuf checksumType s.dpp) value csPosB csLenB) .hang)
  lift (modifyDpp (setChecksumBuf checksumType covered))

/-- `execute_CALCULATE_CHECKSUM` with its division and its shifts. -/
def checkedCalculateChecksum (data : Buf) : DpArith Unit := do
  lift (failIf (half data 4 > 64) .badAction .pofbacBadLen)
  checkedCalChecksum (data.rd 0) (data.rd 1) (half data 6) (half data 8) (half data 2) (half data 4)

/-- `execute_OUTPUT` with its shifts; the copies of `pofdp_send_raw` are all of the same field. -/
def checkedOutput (env : DpEnv) (data : Buf) : DpArith Unit := do
  let s ← lift get
  lift (failIf (((half data 6).toNat : ℤ) > s.dpp.leftLen) .softwareFailed .pofPacketLenError)
  lift (failIf (bytenumCeil ((half data 4).toNat + (half data 2).toNat) > s.dpp.metadataLen.toNat)
    .softwareFailed .pofMetadataLenError)
  let value ← checkedGet32value (data.rd 0) data 8
  demandShifts 32 [16]
  lift (modifyDpp fun dpp =>
    { dpp with outputSlotId := (value >>> 16).toUInt16, outputPortId := value.toUInt16 })
  let lrPort ← lift (liftOption (pofdpGetLocalResource env (value >>> 16).toUInt16 s.lr)
    (.error ⟨.softwareFailed, .pofInvalidSlotId⟩))
  lift (modifyDpp (fillOutput data))
  demandShifts 32 (copyShifts (half data 2) (UInt16.ofNat (bytenumCeil (half data 4).toNat) * 8))
  lift (if value.toUInt16 = 255 then floodLoop env lrPort lrPort.portPofIndexMap.order
    else pofdpSendRaw env lrPort)

/-- `execute_DELETE_FIELD` with its shifts. -/
def checkedDeleteField (data : Buf) : DpArith Unit := do
  let tagPosB := half data 0
  let tagLenB ← checkedGet32value (data.rd 2) data 8
  let s ← lift get
  let lenBehind := (toUInt32 (s.dpp.leftLen * 8) - (tagPosB.toUInt32 + tagLenB)).toUInt16
  lift (failIf (lenBehind ≥ 0x8000) .softwareFailed .pofPacketLenError)
  demandShifts 32 (copyShifts (tagPosB.toUInt32 + tagLenB).toUInt16 lenBehind)
  demandShifts 32 (coverShifts tagPosB lenBehind)
  lift (coverWindow (pofbfCopyBit s.dpp.window (Buf.zeros packetRawMaxLen)
    (tagPosB.toUInt32 + tagLenB).toUInt16 lenBehind) tagPosB lenBehind)
  demandShifts 32 [tagLenB.toNat % 8]
  lift (modifyDpp fun dpp =>
    clearTail (tagLenB.toNat % 8)
      ({ dpp with leftLen := leftLenWithout dpp.leftLen tagLenB }.setRelLen
        (dpp.relLen.toNat - (tagLenB / 8).toUInt8.toNat)))

/-- The actions with their divisions and shifts.  The others read no operand and only copy and cover bits. -/
def checkedExecuteAction (env : DpEnv) (again : Dp Unit) (action : PofAction) : DpArith Unit :=
  match ActionType.ofCode action.type.toNat with
  | some .output => do
      checkedOutput env action.actionData
      lift actionUpdate
  | some .modifyField => do
      checkedModifyField action.actionData
      lift actionUpdate
  | some .deleteField => do
      checkedDeleteField action.actionData
      lift actionUpdate
  | some .calculateChecksum => do
      checkedCalculateChecksum action.actionData
      lift actionUpdate
  | _ => lift (executeAction env again action)

/-! ### Instructions -/

/-- The shifts of `calculate_LEFT_SHIFT` and `calculate_RIGHT_SHIFT`. -/
def calculateShifts (type : ℕ) (operand : UInt32) : List ℕ :=
  if type = 2 ∨ type = 3 then [operand.toNat] else []

/-- `execute_CALCULATE_FIELD` with its shifts. -/
def checkedCalculateField (data : Buf) : DpArith Unit := do
  let value1 ← checkedGet32valueFromField (matchAt data 8)
  let operand ← checkedGet32value (data.rd 2) data 16
  demandShifts 32 (calculateShifts (half data 0).toNat operand)
  let result ← lift (liftOption (calculate (half data 0).toNat value1 operand)
    (.error ⟨.badInstruction, .pofbicUnknownInst⟩))
  checkedWrite32valueToField result (matchAt data 8)

/-- `execute_MOVE_PACKET_OFFSET` with its shifts. -/
def checkedMovePacketOffset (data : Buf) : DpArith Unit := do
  let value ← checkedGet32value (data.rd 1) data 8
  lift (if data.rd 0 = 0 then movePacketBufOffset (toInt16 value.toNat)
    else movePacketBufOffset (toInt16 (-toInt16 value.toNat)))

/-- The target of a `CONDITIONAL_JMP` with its shifts. -/
def checkedConditionalJmpTarget (data : Buf) : DpArith (UInt8 × UInt32) := do
  let value1 ← checkedGet32valueFromField (matchAt data 8)
  let value2 ← checkedGet32value (data.rd 0) data 16
  if value1 < value2 then do
    let offset ← checkedGet32value (data.rd 2) data 24
    lift (pure (data.rd 1, offset))
  else if value1 = value2 then do
    let offset ← checkedGet32value (data.rd 4) data 32
    lift (pure (data.rd 3, offset))
  else do
    let offset ← checkedGet32value (data.rd 6) data 40
    lift (pure (data.rd 5, offset))

/-- `execute_CONDITIONAL_JMP` with its shifts. -/
def checkedConditionalJmp (data : Buf) : DpArith Unit := do
  let (direction, offset) ← checkedConditionalJmpTarget data
  lift (insJump direction offset)

/-- `execute_GOTO_DIRECT_TABLE` with its shifts. -/
def checkedGotoDirectTable (data : Buf) : DpArith Unit := do
  lift (movePacketBufOffset (toInt16 (half data 2).toNat))
  lift (setTable (data.rd 0))
  let entryIndex ← checkedGet32value (data.rd 1) data 8
  lift do
    let s ← get
    let table ← liftOption (poflrGetTableWithID (data.rd 0) s.lr) (.error ⟨.badAction, .pofbicBadTableId⟩)
    failIf (s.dpp.tableType ≠ 3) .badAction .pofbicBadTableType
    modifyDpp fun dpp => { dpp with flowEntry := poflrEntryLookupLinear entryIndex table }
    let entry ← liftOption (poflrEntryLookupLinear entryIndex table)
      (.error ⟨.badAction, .pofbicEntryUnexist⟩)
    let ret ← counterIncreace entry.counterId s.dpp.relLen
    checkRetvalue ret
    modifyDpp (gotoEntry entry)

/-- The instructions with their divisions and shifts.  The others read no operand. -/
def checkedExecuteInstruction (env : DpEnv) (actions : Dp Unit) (ins : PofInstruction) : DpArith Unit :=
  match InstructionType.ofCode ins.type.toNat with
  | some .gotoDirectTable => checkedGotoDirectTable ins.instructionData
  | some .conditionalJmp => checkedConditionalJmp ins.instructionData
  | some .calculateField => do
      checkedCalculateField ins.instructionData
      lift instructionUpdate
  | some .movePacketOffset => do
      checkedMovePacketOffset ins.instructionData
      lift instructionUpdate
  | _ => lift (executeInstruction env actions ins)

/-! ### The demands are all that is added -/

theorem checked_get32valueFromField (pm : PofMatch) :
    Checked (checkedGet32valueFromField pm) (get32valueFromField pm) :=
  (Checked.lift _).bind fun _ => (Checked.lift _).bind fun _ => (Checked.lift _).bind fun _ =>
    (Checked.lift _).demand_bind.demand_bind

theorem checked_pofdpGet32value (type : UInt8) (data : Buf) (p : ℕ) :
    Checked (checkedGet32value type data p) (pofdpGet32value type data p) := by
  unfold checkedGet32value pofdpGet32value
  split_ifs
  · exact Checked.lift _
  · exact checked_get32valueFromField _

theorem checked_pofdpWrite32valueToField (value : UInt32) (pm : PofMatch) :
    Checked (checkedWrite32valueToField value pm) (pofdpWrite32valueToField value pm) := by
  refine (Checked.lift _).bind fun _ => (Checked.lift _).bind fun s => ?_
  split_ifs
  · exact (Checked.lift _).bind fun _ => (Checked.lift _).demand_bind.demand_bind
  · exact (Checked.lift _).bind fun _ => (Checked.lift _).demand_bind.demand_bind

theorem checked_modifyFieldAction (data : Buf) : Checked (checkedModifyField data) (modifyFieldAction data) :=
  (checked_get32valueFromField _).bind fun _ => checked_pofdpWrite32valueToField _ _

theorem checked_calChecksum (checksumType calType : UInt8) (calPosB calLenB csPosB csLenB : UInt16) :
    Checked (checkedCalChecksum checksumType calType calPosB calLenB csPosB csLenB)
      (calChecksum checksumType calType calPosB calLenB csPosB csLenB) := by
  refine (Checked.lift _).bind fun s => Checked.demand_bind ?_
  refine (Checked.lift _).bind fun cleared => (Checked.lift _).bind fun _ => (Checked.lift _).bind fun s => ?_
  refine Checked.demand_bind (Checked.demand_bind (Checked.demand_bind ?_))
  exact (Checked.lift _).bind fun value => Checked.demand_bind ((Checked.lift _).bind fun _ => Checked.lift _)

theorem checked_calculateChecksumAction (data : Buf) :
    Checked (checkedCalculateChecksum data) (calculateChecksumAction data) :=
  (Checked.lift _).bind fun _ => checked_calChecksum _ _ _ _ _ _

theorem checked_outputAction (env : DpEnv) (data : Buf) :
    Checked (checkedOutput env data) (outputAction env data) := by
  refine (Checked.lift _).bind fun s => (Checked.lift _).bind fun _ => (Checked.lift _).bind fun _ => ?_
  refine (checked_pofdpGet32value _ _ _).bind fun value => Checked.demand_bind ?_
  refine (Checked.lift _).bind fun _ => (Checked.lift _).bind fun lrPort => (Checked.lift _).bind fun _ => ?_
  exact Checked.demand_bind (Checked.lift _)

theorem checked_deleteFieldAction (data : Buf) :
    Checked (checkedDeleteField data) (deleteFieldAction data) := by
  refine (checked_pofdpGet32value _ _ _).bind fun tagLenB => (Checked.lift _).bind fun s => ?_
  refine (Checked.lift _).bind fun _ => Checked.demand_bind (Checked.demand_bind ?_)
  exact (Checked.lift _).bind fun _ => Checked.demand_bind (Checked.lift _)

/-- **The actions with demands are the actions.** -/
theorem checked_executeAction (env : DpEnv) (again : Dp Unit) (action : PofAction) :
    Checked (checkedExecuteAction env again action) (executeAction env again action) := by
  unfold checkedExecuteAction
  split
  next htype =>
    rw [executeAction, htype]
    exact (checked_outputAction env _).bind fun _ => Checked.lift _
  next htype =>
    rw [executeAction, htype]
    exact (checked_modifyFieldAction _).bind fun _ => Checked.lift _
  next htype =>
    rw [executeAction, htype]
    exact (checked_deleteFieldAction _).bind fun _ => Checked.lift _
  next htype =>
    rw [executeAction, htype]
    exact (checked_calculateChecksumAction _).bind fun _ => Checked.lift _
  next => exact Checked.lift _

theorem checked_calculateFieldWork (data : Buf) :
    Checked (checkedCalculateField data) (calculateFieldWork data) := by
  refine (checked_get32valueFromField _).bind fun value1 => (checked_pofdpGet32value _ _ _).bind fun operand => ?_
  exact Checked.demand_bind ((Checked.lift _).bind fun _ => checked_pofdpWrite32valueToField _ _)

theorem checked_movePacketOffsetWork (data : Buf) :
    Checked (checkedMovePacketOffset data) (movePacketOffsetWork data) :=
  (checked_pofdpGet32value _ _ _).bind fun _ => Checked.lift _

theorem checked_conditionalJmpTarget (data : Buf) :
    Checked (checkedConditionalJmpTarget data) (conditionalJmpTarget data) := by
  refine (checked_get32valueFromField _).bind fun value1 => (checked_pofdpGet32value _ _ _).bind fun value2 => ?_
  split_ifs
  · exact (checked_pofdpGet32value _ _ _).bind fun _ => Checked.lift _
  · exact (checked_pofdpGet32value _ _ _).bind fun _ => Checked.lift _
  · exact (checked_pofdpGet32value _ _ _).bind fun _ => Checked.lift _

theorem checked_executeConditionalJmp (data : Buf) :
    Checked (checkedConditionalJmp data) (executeConditionalJmp data) :=
  (checked_conditionalJmpTarget _).bind fun _ => Checked.lift _

theorem checked_executeGotoDirectTable (data : Buf) :
    Checked (checkedGotoDirectTable data) (executeGotoDirectTable data) :=
  (Checked.lift _).bind fun _ => (Checked.lift _).bind fun _ => (checked_pofdpGet32value _ _ _).bind fun _ =>
    Checked.lift _

/-- **The instructions with demands are the instructions.** -/
theorem checked_executeInstruction (env : DpEnv) (actions : Dp Unit) (ins : PofInstruction) :
    Checked (checkedExecuteInstruction env actions ins) (executeInstruction env actions ins) := by
  unfold checkedExecuteInstruction
  split
  next htype =>
    rw [executeInstruction, htype]
    exact checked_executeGotoDirectTable _
  next htype =>
    rw [executeInstruction, htype]
    exact checked_executeConditionalJmp _
  next htype =>
    rw [executeInstruction, htype]
    exact (checked_calculateFieldWork _).bind fun _ => Checked.lift _
  next htype =>
    rw [executeInstruction, htype]
    exact (checked_movePacketOffsetWork _).bind fun _ => Checked.lift _
  next => exact Checked.lift _

/-! ### Operands that meet the demands -/

/-- A field of no bits is refused. -/
def FieldSound (pm : PofMatch) (dpp : DpPacket) : Prop := pm.len = 0 → pofdpGetFieldBuf pm dpp = none

/-- An operand that is a field of no bits is refused. -/
def OperandSound (type : UInt8) (data : Buf) (p : ℕ) (dpp : DpPacket) : Prop :=
  type ≠ 0 → FieldSound (matchAt data p) dpp

/-- When `execute_OUTPUT` comes to read its operand. -/
def OutputSound (data : Buf) (dpp : DpPacket) : Prop :=
  ((half data 6).toNat : ℤ) ≤ dpp.leftLen →
    bytenumCeil ((half data 4).toNat + (half data 2).toNat) ≤ dpp.metadataLen.toNat →
      OperandSound (data.rd 0) data 8 dpp

/-- The field and the operand of a `CALCULATE_FIELD`; what is shifted by is smaller than 32. -/
def CalculateSound (data : Buf) (dpp : DpPacket) : Prop :=
  FieldSound (matchAt data 8) dpp ∧ (fieldOperand (matchAt data 8) dpp ≠ none →
    OperandSound (data.rd 2) data 16 dpp ∧
      (half data 0 = 2 ∨ half data 0 = 3 → ∀ operand, operandOf (data.rd 2) data 16 dpp = some operand →
        operand.toNat < 32))

/-- The fields of a `CONDITIONAL_JMP`, and the offset that the comparison selects. -/
def JumpSound (data : Buf) (dpp : DpPacket) : Prop :=
  FieldSound (matchAt data 8) dpp ∧ ∀ value1, fieldOperand (matchAt data 8) dpp = some value1 →
    OperandSound (data.rd 0) data 16 dpp ∧ ∀ value2, operandOf (data.rd 0) data 16 dpp = some value2 →
      if value1 < value2 then OperandSound (data.rd 2) data 24 dpp
      else if value1 = value2 then OperandSound (data.rd 4) data 32 dpp
      else OperandSound (data.rd 6) data 40 dpp

/-- The index of a `GOTO_DIRECT_TABLE`, which is read after the window has been moved. -/
def GotoDirectSound (data : Buf) (s : DpState) : Prop :=
  ¬ MoveRefused (toInt16 (half data 2).toNat) s.extent → poflrTableIDToId (data.rd 0) s.lr ≠ none →
    OperandSound (data.rd 1) data 8
      { s.dpp with leftLen := toInt32 (s.dpp.leftLen - toInt16 (half data 2).toNat) }

/-- The operands of an action that meet the demands. -/
def ActionSound (action : PofAction) (dpp : DpPacket) : Prop :=
  match ActionType.ofCode action.type.toNat with
  | some .output => OutputSound action.actionData dpp
  | some .modifyField => FieldSound (matchAt action.actionData 0) dpp
  | some .deleteField => OperandSound (action.actionData.rd 2) action.actionData 8 dpp
  | some .calculateChecksum => half action.actionData 4 ≠ 0
  | _ => True

/-- The operands of an instruction that meet the demands. -/
def InstructionSound (ins : PofInstruction) (s : DpState) : Prop :=
  match InstructionType.ofCode ins.type.toNat with
  | some .gotoDirectTable => GotoDirectSound ins.instructionData s
  | some .conditionalJmp => JumpSound ins.instructionData s.dpp
  | some .calculateField => CalculateSound ins.instructionData s.dpp
  | some .movePacketOffset => OperandSound (ins.instructionData.rd 1) ins.instructionData 8 s.dpp
  | _ => True

section Faultless

variable {pm : PofMatch} {data : Buf} {s : DpState}

theorem shift_complement_lt_iff {width : ℕ} (hwidth : 0 < width) (len : UInt16) :
    (∀ n ∈ [width - len.toNat], n < width) ↔ len ≠ 0 := by
  have hzero : len = 0 ↔ len.toNat = 0 := UInt16.toNat_inj.symm
  rw [Ne, hzero, List.forall_mem_singleton]
  omega

/-- A field is read without a fault exactly when it is not empty or is refused. -/
theorem faultless_get32valueFromField (pm : PofMatch) (s : DpState) :
    Faultless (checkedGet32valueFromField pm) s ↔ FieldSound pm s.dpp := by
  simp only [checkedGet32valueFromField, failIf, demandShifts, faultless_check_bind, faultless_get_bind,
    faultless_liftOption_bind, faultless_demand_bind, faultless_lift, and_true]
  rw [shift_complement_lt_iff (by decide)]
  constructor
  · intro h hlen
    cases hbuf : pofdpGetFieldBuf pm s.dpp with
    | none => rfl
    | some buf => exact absurd hlen (h (by rw [hlen]; decide) buf hbuf).2
  · intro h _ buf hbuf
    refine ⟨copyShifts_lt _ _, fun hlen => ?_⟩
    rw [h hlen] at hbuf
    cases hbuf

theorem faultless_pofdpGet32value (type : UInt8) (data : Buf) (p : ℕ) (s : DpState) :
    Faultless (checkedGet32value type data p) s ↔ OperandSound type data p s.dpp := by
  unfold checkedGet32value OperandSound
  split_ifs with htype
  · simp [htype]
  · rw [faultless_get32valueFromField]
    simp [htype]

/-- A number is written to a field that is not empty without a fault. -/
theorem faultless_pofdpWrite32valueToField (hlen : pm.len ≠ 0) (value : UInt32) (s : DpState) :
    Faultless (checkedWrite32valueToField value pm) s := by
  have hshift := (shift_complement_lt_iff (show 0 < 32 by decide) pm.len).2 hlen
  have hcover := coverShifts_lt pm.offset pm.len
  unfold checkedWrite32valueToField
  simp only [failIf, demandShifts, faultless_check_bind, faultless_get_bind]
  intro _
  split_ifs
  · simp only [faultless_check_bind, faultless_demand_bind]
    exact fun _ => ⟨hshift, hcover, faultless_lift _ _⟩
  · simp only [faultless_check_bind, faultless_demand_bind]
    exact fun _ => ⟨hshift, hcover, faultless_lift _ _⟩

/-- What follows an operand runs from the same state, with the number that is read. -/
theorem faultless_get32valueFromField_bind {β : Type} {f : UInt32 → DpArith β} :
    Faultless (checkedGet32valueFromField pm >>= f) s ↔ FieldSound pm s.dpp ∧
      ∀ v, fieldOperand pm s.dpp = some v → Faultless (f v) s := by
  rw [(checked_get32valueFromField pm).faultless_bind, faultless_get32valueFromField]
  simp only [exec_get32valueFromField_eq_ok, and_imp, forall_eq_apply_imp_iff]

theorem faultless_pofdpGet32value_bind {β : Type} {type : UInt8} {p : ℕ} {f : UInt32 → DpArith β} :
    Faultless (checkedGet32value type data p >>= f) s ↔ OperandSound type data p s.dpp ∧
      ∀ v, operandOf type data p s.dpp = some v → Faultless (f v) s := by
  rw [(checked_pofdpGet32value type data p).faultless_bind, faultless_pofdpGet32value]
  simp only [exec_pofdpGet32value_eq_ok, and_imp, forall_eq_apply_imp_iff]

/-- A field that is read and meets the demands is not empty. -/
theorem FieldSound.len_ne {dpp : DpPacket} (h : FieldSound pm dpp) {v : UInt32}
    (hv : fieldOperand pm dpp = some v) : pm.len ≠ 0 := by
  intro hlen
  rw [fieldOperand, h hlen, Option.map_none, ite_self] at hv
  cases hv

theorem faultless_modifyField (data : Buf) (s : DpState) :
    Faultless (checkedModifyField data) s ↔ FieldSound (matchAt data 0) s.dpp := by
  rw [checkedModifyField, faultless_get32valueFromField_bind]
  exact and_iff_left_of_imp fun h v hv => faultless_pofdpWrite32valueToField (h.len_ne hv) _ _

theorem faultless_deleteField (data : Buf) (s : DpState) :
    Faultless (checkedDeleteField data) s ↔ OperandSound (data.rd 2) data 8 s.dpp := by
  rw [checkedDeleteField, faultless_pofdpGet32value_bind]
  refine and_iff_left_of_imp fun _ tagLenB _ => ?_
  simp only [demandShifts, faultless_demand_bind, faultless_lift_bind, faultless_lift,
    List.forall_mem_singleton, and_true]
  exact fun _ _ _ _ _ _ => ⟨copyShifts_lt _ _, coverShifts_lt _ _, fun _ _ _ => by omega⟩

theorem faultless_output (env : DpEnv) (data : Buf) (s : DpState) :
    Faultless (checkedOutput env data) s ↔ OutputSound data s.dpp := by
  simp only [checkedOutput, failIf, faultless_get_bind, faultless_check_bind, faultless_pofdpGet32value_bind,
    OutputSound, not_lt, gt_iff_lt]
  refine forall_congr' fun _ => forall_congr' fun _ => and_iff_left_of_imp fun _ value _ => ?_
  simp only [demandShifts, faultless_demand_bind, faultless_lift_bind, faultless_lift, and_true,
    List.forall_mem_singleton]
  exact ⟨by decide, fun _ _ _ _ _ _ _ _ _ => copyShifts_lt _ _⟩

theorem checksumShifts_lt (posB lenB csLenB : UInt16) : ∀ n ∈ checksumShifts posB lenB csLenB, n < 32 := by
  intro n hn
  obtain ⟨i, _, hi⟩ := List.mem_flatMap.1 hn
  exact copyShifts_lt _ _ n hi

theorem bzeroShifts_lt (posB lenB : UInt16) : ∀ n ∈ bzeroShifts posB lenB, n < 32 := by
  unfold bzeroShifts
  split_ifs
  · simp
  · exact coverShifts_lt posB lenB

/-- The checksum is calculated without a fault exactly when it is not empty: an empty field is cleared, and
then its length is divided by. -/
theorem faultless_calculateChecksum (data : Buf) (s : DpState) :
    Faultless (checkedCalculateChecksum data) s ↔ half data 4 ≠ 0 := by
  have hzero : half data 4 = 0 ↔ (half data 4).toNat = 0 := UInt16.toNat_inj.symm
  simp only [checkedCalculateChecksum, checkedCalChecksum, failIf, modifyDpp, demandDiv, demandShifts,
    faultless_check_bind, faultless_get_bind, faultless_modify_bind, faultless_liftOption_bind,
    faultless_demand_bind, faultless_lift]
  rw [shift_complement_lt_iff (by decide)]
  constructor
  · intro h hlen
    obtain ⟨_, hdiv⟩ := h (by rw [hlen]; decide)
    obtain ⟨cleared, hcleared⟩ : ∃ b, bzeroBit (checksumBuf (data.rd 0) s.dpp) (half data 2) (half data 4) =
        some b := by
      refine Option.ne_none_iff_exists'.1 fun hnone => ?_
      rw [bzeroBit] at hnone
      split_ifs at hnone
      exact (pofbfCoverBit_eq_none_iff _ _ _ _).1 hnone (Or.inr (by rw [hzero.1 hlen]; omega))
    exact absurd (hzero.1 hlen) (hdiv cleared hcleared).1
  · intro hlen _
    refine ⟨bzeroShifts_lt _ _, fun _ _ => ⟨fun h => hlen (hzero.2 h), checksumShifts_lt _ _ _, hlen, ?_⟩⟩
    exact fun _ _ => ⟨coverShifts_lt _ _, fun _ _ => trivial⟩

theorem faultless_calculateField (data : Buf) (s : DpState) :
    Faultless (checkedCalculateField data) s ↔ CalculateSound data s.dpp := by
  rw [checkedCalculateField, faultless_get32valueFromField_bind, CalculateSound]
  refine and_congr_right fun hfield => ?_
  simp only [faultless_pofdpGet32value_bind, demandShifts, faultless_demand_bind, faultless_liftOption_bind]
  have hshifts : ∀ operand : UInt32, (∀ n ∈ calculateShifts (half data 0).toNat operand, n < 32) ↔
      (half data 0 = 2 ∨ half data 0 = 3 → operand.toNat < 32) := by
    intro operand
    have htwo : half data 0 = 2 ↔ (half data 0).toNat = 2 := UInt16.toNat_inj.symm
    have hthree : half data 0 = 3 ↔ (half data 0).toNat = 3 := UInt16.toNat_inj.symm
    rw [calculateShifts, htwo, hthree]
    split_ifs with htype
    · simp [htype]
    · simp [htype]
  constructor
  · intro h hread
    obtain ⟨v, hv⟩ := Option.ne_none_iff_exists'.1 hread
    obtain ⟨hoperand, hrest⟩ := h v hv
    exact ⟨hoperand, fun htype operand hop => (hshifts operand).1 (hrest operand hop).1 htype⟩
  · intro h v hv
    obtain ⟨hoperand, hsmall⟩ := h (by rw [hv]; simp)
    refine ⟨hoperand, fun operand hop => ⟨(hshifts operand).2 fun htype => hsmall htype operand hop, ?_⟩⟩
    exact fun result _ => faultless_pofdpWrite32valueToField (hfield.len_ne hv) _ _

theorem faultless_movePacketOffset (data : Buf) (s : DpState) :
    Faultless (checkedMovePacketOffset data) s ↔ OperandSound (data.rd 1) data 8 s.dpp := by
  rw [checkedMovePacketOffset, faultless_bind_lift, faultless_pofdpGet32value]

theorem faultless_conditionalJmp (data : Buf) (s : DpState) :
    Faultless (checkedConditionalJmp data) s ↔ JumpSound data s.dpp := by
  rw [checkedConditionalJmp, faultless_bind_lift, checkedConditionalJmpTarget,
    faultless_get32valueFromField_bind, JumpSound]
  refine and_congr_right fun _ => forall_congr' fun value1 => forall_congr' fun _ => ?_
  rw [faultless_pofdpGet32value_bind]
  refine and_congr_right fun _ => forall_congr' fun value2 => forall_congr' fun _ => ?_
  split_ifs
  · rw [faultless_bind_lift, faultless_pofdpGet32value]
  · rw [faultless_bind_lift, faultless_pofdpGet32value]
  · rw [faultless_bind_lift, faultless_pofdpGet32value]

/-- `poflr_table_ID_to_id` sets the table of the packet. -/
theorem exec_setTable_eq_ok {ID : UInt8} {t : DpState} {a : Unit} :
    exec (setTable ID) s = (.ok a, t) ↔ ∃ q, poflrTableIDToId ID s.lr = some q ∧
      t = { s with dpp := { s.dpp with tableType := q.1, tableId := q.2 } } := by
  rw [setTable, exec_bind_ok exec_get]
  cases poflrTableIDToId ID s.lr with
  | none =>
      refine iff_of_false (fun h => ?_) (fun ⟨q, hq, _⟩ => ?_)
      · cases h
      · cases hq
  | some q =>
      constructor
      · intro h
        cases h
        exact ⟨q, rfl, rfl⟩
      · rintro ⟨q', hq, rfl⟩
        cases hq
        rfl

/-- Whether a field of no bits is refused depends on the lengths of the packet and of the metadata only. -/
theorem operandSound_congr {type : UInt8} {p : ℕ} {dpp dpp' : DpPacket} (hleft : dpp.leftLen = dpp'.leftLen)
    (hmeta : dpp.metadataLen = dpp'.metadataLen) :
    OperandSound type data p dpp ↔ OperandSound type data p dpp' := by
  have hnone : ∀ pm, pofdpGetFieldBuf pm dpp = none ↔ pofdpGetFieldBuf pm dpp' = none := by
    intro pm
    unfold pofdpGetFieldBuf
    rw [hleft, hmeta]
    split_ifs <;> simp
  simp only [OperandSound, FieldSound, hnone]

theorem faultless_gotoDirectTable (data : Buf) (s : DpState) :
    Faultless (checkedGotoDirectTable data) s ↔ GotoDirectSound data s := by
  simp only [checkedGotoDirectTable, faultless_lift_bind, faultless_bind_lift, faultless_pofdpGet32value]
  by_cases hmove : MoveRefused (toInt16 (half data 2).toNat) s.extent
  · refine iff_of_true (fun a t h => ?_) (fun hnot => absurd hmove hnot)
    rw [exec_movePacketBufOffset_refused hmove] at h
    cases h
  · have hok := exec_movePacketBufOffset_ok hmove
    rw [GotoDirectSound]
    constructor
    · intro h _ hid
      obtain ⟨q, hq⟩ := Option.ne_none_iff_exists'.1 hid
      refine (operandSound_congr ?_ ?_).1 (h () _ hok () _ (exec_setTable_eq_ok.2 ⟨q, hq, rfl⟩))
      · rfl
      · rfl
    · intro h a t ht b u hu
      rw [hok] at ht
      cases ht
      obtain ⟨q, hq, rfl⟩ := exec_setTable_eq_ok.1 hu
      refine (operandSound_congr ?_ ?_).1 (h hmove (by rw [hq]; simp))
      · rfl
      · rfl

end Faultless

/-! ### The condition -/

/-- **No action and no instruction divides by zero or shifts by the width of the operand or more, exactly
when its operands are sound**: a field that is read or written as a number has a bit or is refused, a
checksum has a bit, and a shift of `CALCULATE_FIELD` is by less than 32. -/
theorem arithmetic_sound_iff (env : DpEnv) (rest : Dp Unit) (s : DpState) :
    (∀ action, Faultless (checkedExecuteAction env rest action) s ↔ ActionSound action s.dpp) ∧
      ∀ ins, Faultless (checkedExecuteInstruction env rest ins) s ↔ InstructionSound ins s := by
  constructor
  · intro action
    unfold checkedExecuteAction ActionSound
    split
    · rw [faultless_bind_lift, faultless_output]
    · rw [faultless_bind_lift, faultless_modifyField]
    · rw [faultless_bind_lift, faultless_deleteField]
    · rw [faultless_bind_lift, faultless_calculateChecksum]
    · simp
  · intro ins
    unfold checkedExecuteInstruction InstructionSound
    split
    · rw [faultless_gotoDirectTable]
    · rw [faultless_conditionalJmp]
    · rw [faultless_bind_lift, faultless_calculateField]
    · rw [faultless_bind_lift, faultless_movePacketOffset]
    · simp

/-- A `CALCULATE_CHECKSUM` with a checksum of no bits. -/
def emptyChecksum : PofAction := ⟨6, 48, Buf.zeros 44⟩

/-- A `MODIFY_FIELD` of no bits. -/
def modifyNothing : PofAction := ⟨3, 48, Buf.zeros 44⟩

/-- A `CALCULATE_FIELD` that shifts the first byte to the left by 32. -/
def shiftByWord : PofInstruction :=
  ⟨10, 304, [2, 0, 0, 0, 0, 0, 0, 0] ++ [0, 0, 0, 0, 8, 0, 0, 0] ++ [32, 0, 0, 0, 0, 0, 0, 0]⟩

/-- On a packet of three bytes an empty checksum divides by zero, and an empty field and an operand of 32
shift by 32; all of them pass the checks. -/
theorem arithmetic_faults :
    ¬ Faultless (checkedExecuteAction openEnv (pure ()) emptyChecksum) expiredState ∧
      ¬ Faultless (checkedExecuteAction openEnv (pure ()) modifyNothing) expiredState ∧
      ¬ Faultless (checkedExecuteInstruction openEnv (pure ()) shiftByWord) expiredState := by
  have hchecksum : checkedExecuteAction openEnv (pure ()) emptyChecksum =
      (checkedCalculateChecksum emptyChecksum.actionData >>= fun _ => lift actionUpdate) := rfl
  have hmodify : checkedExecuteAction openEnv (pure ()) modifyNothing =
      (checkedModifyField modifyNothing.actionData >>= fun _ => lift actionUpdate) := rfl
  have hshift : checkedExecuteInstruction openEnv (pure ()) shiftByWord =
      (checkedCalculateField shiftByWord.instructionData >>= fun _ => lift instructionUpdate) := rfl
  refine ⟨?_, ?_, ?_⟩
  · rw [hchecksum, faultless_bind_lift, faultless_calculateChecksum]
    decide
  · rw [hmodify, faultless_bind_lift, faultless_modifyField]
    intro hsound
    have hnone := hsound (by decide)
    exact absurd hnone (by decide +kernel)
  · rw [hshift, faultless_bind_lift, faultless_calculateField]
    rintro ⟨-, hsound⟩
    have hsmall := (hsound (by decide +kernel)).2 (Or.inl (by decide)) 32 (by decide +kernel)
    exact absurd hsmall (by decide)

end PofSwitch
