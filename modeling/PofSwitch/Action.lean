/-
**The action interpreter: `datapath/pof_action.c`.**

`pofdp_action_execute` runs the actions from `dpp->act` on while the packet is not done and actions
are left.  A `GROUP` action points the cursor to the actions of the group and calls the interpreter
again; on return nothing is left to do for the outer loop.  Groups may name each other, so the
interpreter takes fuel for the turns of its loops and the depth of its calls.

Every action but `GROUP` is the work it does on the packet followed by `action_update`; the work is
a definition of its own under the name of the action.

Main definitions:

* `PofSwitch.coverInBuf`, `PofSwitch.insertTagToPacket`, `PofSwitch.bzeroBit`, `PofSwitch.checksum`, `PofSwitch.calChecksum`;
* `PofSwitch.executeOutput`, `executeSetField`, `executeModifyField`, `executeAddField`,
  `executeDeleteField`, `executeCalculateChecksum`, `executeGroup`, `executeDrop`,
  `executePacketIn`, `executeCounter`, ….
* `PofSwitch.pofdpActionExecute`.
-/

import PofSwitch.Packet

set_option relaxedAutoImplicit false
set_option autoImplicit false

namespace PofSwitch

open Buf Prog

/-! ### Parts of the packet -/

/-- `action_update`. -/
def actionUpdate : Dp Unit :=
  modifyDpp fun dpp =>
    if dpp.actNum - 1 < 1 then { dpp with actNum := dpp.actNum - 1 }
    else { dpp with actNum := dpp.actNum - 1, act := dpp.act.tail }

/-- The last byte `pofbf_cover_bit` stores to; for a field of no bits the byte it begins in. -/
def lastStored (posB lenB : UInt16) : ℕ := (posB.toNat + (lenB.toNat - 1)) / 8

/-- `pofbf_cover_bit` on the window, where nothing has bounded the field; undefined when it stores behind
`buf`. -/
def coverInBuf (value : Buf) (posB lenB : UInt16) : Dp Unit := do
  let s ← get
  check ((packetRawMaxLen : ℤ) ≤ s.dpp.bufOffset + lastStored posB lenB) .undefined
  coverWindow value posB lenB

/-- `insertTagToPacket`.  The length behind the tag is unsigned, so it is never found negative.  Neither the
bits behind the tag, which go through `buf_behindtag`, nor the position are bounded. -/
def insertTagToPacket (tagPosB tagLenB : UInt32) (value : Buf) : Dp Unit := do
  let s ← get
  let lenBehind := toUInt32 (s.dpp.leftLen * 8 - tagPosB.toNat)
  let tagBytes := (tagLenB + 7) / 8
  failIf (toUInt32 (s.dpp.offset + s.dpp.leftLen) + tagBytes > UInt32.ofNat packetRawMaxLen)
    .softwareFailed .pofPacketLenError
  check (lenBehind.toUInt16.toNat > 8 * packetRawMaxLen) .undefined
  let bufBehind := pofbfCopyBit s.dpp.window (Buf.zeros packetRawMaxLen) tagPosB.toUInt16
    lenBehind.toUInt16
  coverInBuf value tagPosB.toUInt16 tagLenB.toUInt16
  coverInBuf bufBehind (tagPosB + tagLenB).toUInt16 lenBehind.toUInt16
  modifyDpp fun dpp =>
    { dpp with leftLen := toInt32 (dpp.leftLen + tagBytes.toNat) }.setRelLen
      (dpp.relLen.toNat + tagBytes.toNat)

/-- `bzero_bit`. -/
def bzeroBit (data : Buf) (posB lenB : UInt16) : Option Buf :=
  if posB.toNat % 8 = 0 ∧ lenB.toNat % 8 = 0 then
    some (data.paste (posB.toNat / 8) (Buf.zeros (lenB.toNat / 8)))
  else pofbfCoverBit data (Buf.zeros (bytenumCeil lenB.toNat)) posB lenB

/-- The loop of `checksum`, from word `i` on. -/
def checksumLoop (data : Buf) (posB csLenB : UInt16) (threshold : UInt64) : ℕ → ℕ → UInt64 → UInt64
  | 0, _, value => value
  | n + 1, i, value =>
      let pos := UInt16.ofNat (posB.toNat + i * csLenB.toNat)
      let word := UInt64.ofNat ((pofbfCopyBit data (Buf.zeros 8) pos csLenB).loadBE 8)
      let value := value + UInt64.ofNat ((~~~word).toNat >>> (64 - csLenB.toNat))
      checksumLoop data posB csLenB threshold n (i + 1)
        (if value ≥ threshold then value - threshold + 1 else value)

/-- `checksum`: the bytes of the variable `value`.  The threshold is `2 ^ cs_len_b` in 64 bits, and
the number of words is a quotient by `cs_len_b`, which `calChecksum` has not checked. -/
def checksum (data : Buf) (posB lenB csLenB : UInt16) : Option Buf :=
  if csLenB = 0 then none
  else
    let threshold := UInt64.ofNat (2 ^ csLenB.toNat)
    let value := checksumLoop data posB csLenB threshold (lenB.toNat / csLenB.toNat) 0 0
    some (storeBE (value.toNat <<< (64 - csLenB.toNat)) 8)

/-- The packet or the metadata, as the type byte of a `CALCULATE_CHECKSUM` says. -/
def checksumBuf (type : UInt8) (dpp : DpPacket) : Buf := if type = 0 then dpp.window else dpp.metadata

/-- Stores to the packet or the metadata. -/
def setChecksumBuf (type : UInt8) (b : Buf) (dpp : DpPacket) : DpPacket :=
  if type = 0 then dpp.setWindow b else { dpp with metadata := b }

/-- `calChecksum`. -/
def calChecksum (checksumType calType : UInt8) (calPosB calLenB csPosB csLenB : UInt16) : Dp Unit := do
  let s ← get
  let cleared ← liftOption (bzeroBit (checksumBuf checksumType s.dpp) csPosB csLenB) .hang
  modifyDpp (setChecksumBuf checksumType cleared)
  let s ← get
  let value ← liftOption (checksum (checksumBuf calType s.dpp) calPosB calLenB csLenB) .undefined
  let covered ← liftOption (pofbfCoverBit (checksumBuf checksumType s.dpp) value csPosB csLenB) .hang
  modifyDpp (setChecksumBuf checksumType covered)

/-! ### The work of the actions -/

/-- `execute_COUNTER`. -/
def counterAction (data : Buf) : Dp Unit := do
  let ret ← counterIncreace (word data 0) 0
  checkRetvalue ret

/-- `execute_PACKET_IN`. -/
def packetInAction (env : DpEnv) (data : Buf) : Dp Unit := do
  let s ← get
  pofdpSendPacketInToController env (word data 0) (currentTableID s)

/-- `execute_DROP`. -/
def dropAction : Dp Unit := do
  modifyDpp fun dpp => { dpp with packetDone := true }
  emit .dropped

/-- `execute_SET_FIELD`: the masked value. -/
def setFieldAction (data : Buf) : Dp Unit := do
  let pm := matchAt data 0
  let s ← get
  failIf (s.dpp.leftLen * 8 < (pm.offset.toNat + pm.len.toNat : ℤ)) .softwareFailed .pofPacketLenError
  coverWindow ((List.range maxFieldLengthInByte).map fun i => data.rd (8 + i) &&& data.rd (24 + i))
    pm.offset pm.len

/-- `execute_SET_FIELD_FROM_METADATA`.  The field goes through the local array `value`, whose size is not
tested. -/
def setFieldFromMetadataAction (data : Buf) : Dp Unit := do
  let pm := matchAt data 0
  let s ← get
  failIf (s.dpp.leftLen * 8 < (pm.offset.toNat + pm.len.toNat : ℤ)) .softwareFailed .pofPacketLenError
  check (pm.len.toNat > 8 * maxFieldLengthInByte) .undefined
  coverWindow (pofbfCopyBit s.dpp.metadata (Buf.zeros maxFieldLengthInByte) (half data 8) pm.len)
    pm.offset pm.len

/-- `execute_MODIFY_FIELD`. -/
def modifyFieldAction (data : Buf) : Dp Unit := do
  let value ← get32valueFromField (matchAt data 0)
  pofdpWrite32valueToField (value + word data 8) (matchAt data 0)

/-- `execute_CALCULATE_CHECKSUM`. -/
def calculateChecksumAction (data : Buf) : Dp Unit := do
  failIf (half data 4 > 64) .badAction .pofbacBadLen
  calChecksum (data.rd 0) (data.rd 1) (half data 6) (half data 8) (half data 2) (half data 4)

/-- The fields of the packet `execute_OUTPUT` fills in before it sends. -/
def fillOutput (data : Buf) (dpp : DpPacket) : DpPacket :=
  let packetOffset := half data 6
  let packetLen := toUInt16 (dpp.leftLen - packetOffset.toNat)
  let metadataLen := UInt16.ofNat (bytenumCeil (half data 4).toNat)
  { dpp with
    outputPacketOffset := packetOffset
    outputPacketLen := packetLen
    outputPacketBuf := dpp.bufOffset
    outputMetadataLen := metadataLen
    outputMetadataOffset := half data 2
    outputWholeLen := packetLen + metadataLen }

/-- The ports a packet is flooded to. -/
def floodTo (env : DpEnv) (dpp : DpPacket) (port : PortInfo) : Bool :=
  port.pofIndex.toUInt32 ≠ dpp.oriPortId ∧ port.pofIndex ≠ env.localPortIndex ∧ port.config ≠ 16

/-- The loop of `execute_OUTPUT` over the ports of the slot. -/
def floodLoop (env : DpEnv) (lrPort : LocalResource) : List PortInfo → Dp Unit
  | [] => pure ()
  | port :: ports => do
      let s ← get
      if floodTo env s.dpp port then do
        modifyDpp fun dpp => { dpp with outputPortId := port.pofIndex.toUInt16 }
        pofdpSendRaw env lrPort
        floodLoop env lrPort ports
      else floodLoop env lrPort ports

/-- `execute_OUTPUT`; port `255` is all ports. -/
def outputAction (env : DpEnv) (data : Buf) : Dp Unit := do
  let s ← get
  failIf (((half data 6).toNat : ℤ) > s.dpp.leftLen) .softwareFailed .pofPacketLenError
  failIf (bytenumCeil ((half data 4).toNat + (half data 2).toNat) > s.dpp.metadataLen.toNat)
    .softwareFailed .pofMetadataLenError
  let value ← pofdpGet32value (data.rd 0) data 8
  modifyDpp fun dpp =>
    { dpp with outputSlotId := (value >>> 16).toUInt16, outputPortId := value.toUInt16 }
  let lrPort ← liftOption (pofdpGetLocalResource env (value >>> 16).toUInt16 s.lr)
    (.error ⟨.softwareFailed, .pofInvalidSlotId⟩)
  modifyDpp (fillOutput data)
  if value.toUInt16 = 255 then floodLoop env lrPort lrPort.portPofIndexMap.order
  else pofdpSendRaw env lrPort

/-- `execute_ADD_FIELD`. -/
def addFieldAction (data : Buf) : Dp Unit := do
  failIf (word data 4 > 128) .softwareFailed .pofFieldLenError
  insertTagToPacket (half data 2).toUInt32 (word data 4) (data.bytesAt 8 maxFieldLengthInByte)

/-- The last byte of the packet after a deletion whose length is not a multiple of eight. -/
def clearTail (lenX : ℕ) (dpp : DpPacket) : DpPacket :=
  if lenX ≠ 0 then
    let last := (dpp.bufOffset + dpp.leftLen - 1).toNat
    { dpp with buf := dpp.buf.wr last (u8 ((dpp.buf.rd last).toNat &&& 0xff <<< lenX)) }
  else dpp

/-- `POF_BITNUM_TO_BYTENUM_CEIL(dpp->left_len * POF_BITNUM_IN_BYTE - tag_len_b)`, on unsigned
numbers. -/
def leftLenWithout (leftLen : ℤ) (tagLenB : UInt32) : ℤ :=
  toInt32 ((toUInt32 (leftLen * 8) - tagLenB + 7) / 8).toNat

/-- `execute_DELETE_FIELD`.  The length behind the tag is cut to 16 bits before its sign is tested. -/
def deleteFieldAction (data : Buf) : Dp Unit := do
  let tagPosB := half data 0
  let tagLenB ← pofdpGet32value (data.rd 2) data 8
  let s ← get
  let lenBehind := (toUInt32 (s.dpp.leftLen * 8) - (tagPosB.toUInt32 + tagLenB)).toUInt16
  failIf (lenBehind ≥ 0x8000) .softwareFailed .pofPacketLenError
  coverWindow (pofbfCopyBit s.dpp.window (Buf.zeros packetRawMaxLen)
    (tagPosB.toUInt32 + tagLenB).toUInt16 lenBehind) tagPosB lenBehind
  modifyDpp fun dpp =>
    clearTail (tagLenB.toNat % 8)
      ({ dpp with leftLen := leftLenWithout dpp.leftLen tagLenB }.setRelLen
        (dpp.relLen.toNat - (tagLenB / 8).toUInt8.toNat))

/-! ### The interpreter -/

/-- `execute_GROUP`; `again` is the call of `pofdp_action_execute`. -/
def executeGroup (again : Dp Unit) (data : Buf) : Dp Unit := do
  let s ← get
  let group ← liftOption (poflrGetGroupWithID (word data 0) s.lr)
    (.error ⟨.groupModFailed, .pofgmfcUnknownGroup⟩)
  let ret ← counterIncreace group.counterId s.dpp.relLen
  checkRetvalue ret
  modifyDpp fun dpp => { dpp with act := group.action, actNum := group.actionNumber }
  again

/-- The work of an action other than `GROUP`. -/
def actionWork (env : DpEnv) (data : Buf) : ActionType → Dp Unit
  | .output => outputAction env data
  | .setField => setFieldAction data
  | .setFieldFromMetadata => setFieldFromMetadataAction data
  | .modifyField => modifyFieldAction data
  | .addField => addFieldAction data
  | .deleteField => deleteFieldAction data
  | .calculateChecksum => calculateChecksumAction data
  | .drop => dropAction
  | .packetIn => packetInAction env data
  | .counter => counterAction data
  | .experimenter | .group => fail .badAction .pofbacBadType

/-- The `switch` of `pofdp_action_execute` on the type of the current action. -/
def executeAction (env : DpEnv) (again : Dp Unit) (action : PofAction) : Dp Unit :=
  match ActionType.ofCode action.type.toNat with
  | none => fail .badAction .pofbacBadType
  | some .group => executeGroup again action.actionData
  | some type => do
      actionWork env action.actionData type
      actionUpdate

/-- A return code other than `POF_OK` goes into the history. -/
def logged (m : Dp Unit) : Dp Unit :=
  onError m fun h s =>
    match h with
    | .error e => { s with trace := s.trace ++ [.failed e] }
    | _ => s

/-- One turn of the loop of `pofdp_action_execute`. -/
def actionStep (env : DpEnv) (again : Dp Unit) : Dp Unit := do
  let s ← get
  let action ← liftOption s.dpp.act.head? .undefined
  logged (executeAction env again action)

/-- `pofdp_action_execute`. -/
def pofdpActionExecute (env : DpEnv) : ℕ → Dp Unit
  | 0 => throw .fuel
  | fuel + 1 => do
      let s ← get
      if s.dpp.packetDone = false ∧ s.dpp.actNum > 0 then do
        actionStep env (pofdpActionExecute env fuel)
        pofdpActionExecute env fuel
      else pure ()

end PofSwitch
