/-
**Messages and error codes.**

The structures of `include/pof_global.h` that the modelled code reads, in the 1.4.0 configuration
(`POF_SD2N`, `POF_SD2N_AFTER1015` and `POF_MULTIPLE_SLOTS` are defined, `POF_SHT_VXLAN` is not).
Instruction and action bodies are kept as the bytes they are; the codec and the interpreters read
them at the offsets of the C structures.  Padding, cookies and time-outs are read by nothing and
left out of the records; they are there in the byte-level codec.

Main definitions:

* `PofSwitch.PofMatch`, `PofMatchX`, `PofAction`, `PofInstruction`;
* `PofSwitch.PofFlowEntry`, `PofFlowTable`, `PofGroup` — the messages of the controller;
* `PofSwitch.TableType`, `PofSwitch.InstructionType`, `PofSwitch.ActionType`;
* `PofSwitch.ErrType`, `PofSwitch.ErrCode`, `PofSwitch.PofError`.
-/

import PofSwitch.ByteBits

set_option relaxedAutoImplicit false
set_option autoImplicit false

namespace PofSwitch

/-! ### Sizes -/

/-- `POF_MAX_FIELD_LENGTH_IN_BYTE`. -/
def maxFieldLengthInByte : ℕ := 16

/-- `POF_MAX_MATCH_FIELD_NUM`. -/
def maxMatchFieldNum : ℕ := 8

/-- `POF_MAX_INSTRUCTION_NUM`. -/
def maxInstructionNum : ℕ := 6

/-- `POF_MAX_ACTION_NUMBER_PER_INSTRUCTION`. -/
def maxActionNumberPerInstruction : ℕ := 6

/-- `POF_MAX_ACTION_NUMBER_PER_GROUP`. -/
def maxActionNumberPerGroup : ℕ := 4

/-- `POF_MAX_ACTION_LENGTH`. -/
def maxActionLength : ℕ := 44

/-- `POF_MAX_INSTRUCTION_LENGTH`. -/
def maxInstructionLength : ℕ := 8 + maxActionNumberPerInstruction * (maxActionLength + 4)

/-- The bytes of an assembled value or mask,
`POF_MAX_FIELD_LENGTH_IN_BYTE * POF_MAX_MATCH_FIELD_NUM`. -/
def entryKeyBytes : ℕ := maxFieldLengthInByte * maxMatchFieldNum

/-- `POF_NAME_MAX_LENGTH`. -/
def nameMaxLength : ℕ := 64

/-- `POF_BITNUM_TO_BYTENUM_CEIL`. -/
def bytenumCeil (lenB : ℕ) : ℕ := (lenB + 7) / 8

/-! ### Errors -/

/-- `POFET_*`. -/
inductive ErrType
  | helloFailed | badRequest | badAction | badInstruction | badMatch | flowModFailed
  | groupModFailed | portModFailed | tableModFailed | switchConfigFailed | meterModFailed
  | softwareFailed | counterModFailed
deriving DecidableEq, Repr

/-- The error codes the modelled functions return, under the source's names. -/
inductive ErrCode
  | poffmfcUnknown | poffmfcBadTableId | poffmfcBadCommand | poffmfcEntryUnexist
  | poffmfcBadTableType | poffmfcBadEntryId
  | poftmfcUnknown | poftmfcBadCommand | poftmfcBadTableType | poftmfcBadTableId
  | poftmfcTableExist | poftmfcTableUnexist | poftmfcBadTableSize | poftmfcBadKeyLen
  | poftmfcTableUnempty
  | pofgmfcGroupExists | pofgmfcInvalidGroup | pofgmfcUnknownGroup | pofgmfcBadCommand
  | pofgmfcBadCounterId
  | pofmmfcMeterExists | pofmmfcInvalidMeter | pofmmfcUnknownMeter | pofmmfcBadCommand
  | pofpmfcBadPortId
  | pofcmfcBadCounterId | pofcmfcBadCommand | pofcmfcCounterUnexist
  | pofbicUnknownInst | pofbicUnsupInst | pofbicBadTableId | pofbicBadTableType
  | pofbicEntryUnexist | pofbicJumToInvalidInst
  | pofbacBadType | pofbacBadLen | pofbmcBadLen
  | pofPacketLenError | pofMetadataLenError | pofFieldLenError | pofInvalidSlotId
  | pofSendMsgFailure | pofWriteMsgQueueFailure | pofBadTableId | pofError
deriving DecidableEq, Repr

/-- What `POF_ERROR_HANDLE_RETURN_UPWARD` records, reports and returns. -/
structure PofError where
  type : ErrType
  code : ErrCode
deriving DecidableEq, Repr

/-- A return value: `POF_OK` or an error. -/
abbrev Ret := Except PofError Unit

/-! ### Messages -/

/-- `pof_match`. -/
structure PofMatch where
  fieldId : UInt16
  offset : UInt16
  len : UInt16
deriving DecidableEq, Repr, Inhabited

/-- `pof_match_x`. -/
structure PofMatchX where
  fieldId : UInt16
  offset : UInt16
  len : UInt16
  value : Buf
  mask : Buf
deriving DecidableEq, Repr, Inhabited

/-- `pof_action`. -/
structure PofAction where
  type : UInt16
  len : UInt16
  actionData : Buf
deriving DecidableEq, Repr, Inhabited

/-- `pof_instruction`. -/
structure PofInstruction where
  type : UInt16
  len : UInt16
  instructionData : Buf
deriving DecidableEq, Repr, Inhabited

/-- `pof_flow_entry`. -/
structure PofFlowEntry where
  matchFieldNum : UInt8
  instructionNum : UInt8
  counterId : UInt32
  tableId : UInt8
  tableType : UInt8
  priority : UInt16
  index : UInt32
  match_ : List PofMatchX
  instruction : List PofInstruction
deriving DecidableEq, Repr, Inhabited

/-- `pof_flow_table`. -/
structure PofFlowTable where
  tid : UInt8
  type : UInt8
  matchFieldNum : UInt8
  size : UInt32
  keyLen : UInt16
  tableName : Buf
  match_ : List PofMatch
deriving DecidableEq, Repr, Inhabited

/-- `pof_group`. -/
structure PofGroup where
  type : UInt8
  actionNumber : UInt8
  groupId : UInt32
  counterId : UInt32
  action : List PofAction
deriving DecidableEq, Repr, Inhabited

/-- `pof_table_type`. -/
inductive TableType
  | mm | lpm | em | linear
deriving DecidableEq, Repr

namespace TableType

/-- The type with a number; `none` from `POF_MAX_TABLE_TYPE` on. -/
def ofUInt8 (n : UInt8) : Option TableType :=
  if n = 0 then some mm
  else if n = 1 then some lpm
  else if n = 2 then some em
  else if n = 3 then some linear
  else none

/-- The number of a type. -/
def toNat : TableType → ℕ
  | mm => 0
  | lpm => 1
  | em => 2
  | linear => 3

end TableType

/-! ### Instruction and action types -/

/-- `pof_instruction_type`. -/
inductive InstructionType
  | gotoTable | writeMetadata | writeActions | applyActions | clearActions | meter
  | writeMetadataFromPacket | gotoDirectTable | conditionalJmp | calculateField
  | movePacketOffset | experimenter
deriving DecidableEq, Repr

/-- The instruction type with a number. -/
def InstructionType.ofCode (n : ℕ) : Option InstructionType :=
  match n with
  | 1 => some gotoTable
  | 2 => some writeMetadata
  | 3 => some writeActions
  | 4 => some applyActions
  | 5 => some clearActions
  | 6 => some meter
  | 7 => some writeMetadataFromPacket
  | 8 => some gotoDirectTable
  | 9 => some conditionalJmp
  | 10 => some calculateField
  | 11 => some movePacketOffset
  | 0xFFFF => some experimenter
  | _ => none

/-- `pof_action_type`. -/
inductive ActionType
  | output | setField | setFieldFromMetadata | modifyField | addField | deleteField
  | calculateChecksum | group | drop | packetIn | counter | experimenter
deriving DecidableEq, Repr

/-- The action type with a number. -/
def ActionType.ofCode (n : ℕ) : Option ActionType :=
  match n with
  | 0 => some output
  | 1 => some setField
  | 2 => some setFieldFromMetadata
  | 3 => some modifyField
  | 4 => some addField
  | 5 => some deleteField
  | 6 => some calculateChecksum
  | 7 => some group
  | 8 => some drop
  | 9 => some packetIn
  | 10 => some counter
  | 0xFFFF => some experimenter
  | _ => none

end PofSwitch
