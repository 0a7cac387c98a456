/-
**The instruction interpreter: `datapath/pof_instruction.c`.**

`pofdp_forward` sends a packet to the first table by an instruction `GOTO_TABLE` of its own.  From
then on `pofdp_instruction_execute` runs instructions until the packet is done or one of them
returns an error.  The cursor is the pointer `dpp->ins` with two counters, `ins_todo_num` and
`ins_done_num`: a match sets it to the first instruction of the entry, an instruction that has been
done moves it by one, and `CONDITIONAL_JMP` moves it by a number found in the instruction or in a
field of the packet.

Main definitions:

* `PofSwitch.insJumpForward`, `PofSwitch.insJump`, `PofSwitch.instructionUpdate`;
* `PofSwitch.executeGotoTable`, `executeGotoDirectTable`, `executeApplyActions`,
  `executeConditionalJmp`, `executeMeter`, `executeWriteMetadata`, `executeCalculateField`, ….
* `PofSwitch.insStep`, `PofSwitch.pofdpInstructionExecute`, `PofSwitch.pofdpForward`.
-/

import PofSwitch.Action

set_option relaxedAutoImplicit false
set_option autoImplicit false

namespace PofSwitch

open Buf Prog

/-! ### The cursor -/

/-- `insJumpForward`. -/
def insJumpForward (insNum : UInt32) (dpp : DpPacket) : DpPacket :=
  { dpp with
    ins := { dpp.ins with k := dpp.ins.k + insNum.toNat }
    insTodoNum := dpp.insTodoNum - insNum.toUInt8
    insDoneNum := dpp.insDoneNum + insNum.toUInt8 }

/-- The jump of `insJump` in the other direction. -/
def insJumpBackward (insNum : UInt32) (dpp : DpPacket) : DpPacket :=
  { dpp with
    ins := { dpp.ins with k := dpp.ins.k - insNum.toNat }
    insDoneNum := dpp.insDoneNum - insNum.toUInt8
    insTodoNum := dpp.insTodoNum + insNum.toUInt8 }

/-- `insJump`; direction `0` is `POFD_FORWARD`. -/
def insJump (direction : UInt8) (insNum : UInt32) : Dp Unit := do
  let s ← get
  if direction = 0 then do
    failIf (insNum > s.dpp.insTodoNum.toUInt32) .badInstruction .pofbicJumToInvalidInst
    modifyDpp (insJumpForward insNum)
  else do
    failIf (insNum > s.dpp.insDoneNum.toUInt32) .badInstruction .pofbicJumToInvalidInst
    modifyDpp (insJumpBackward insNum)

/-- What `instruction_update` does to the packet. -/
def nextInstruction (dpp : DpPacket) : DpPacket :=
  if dpp.insTodoNum = 1 then { dpp with packetDone := true } else insJumpForward 1 dpp

/-- `instruction_update`. -/
def instructionUpdate : Dp Unit := modifyDpp nextInstruction

/-- The instruction `first_ins` of `set_goto_first_table_instruction`. -/
def firstIns : PofInstruction where
  type := 1
  len := 8
  instructionData := Buf.zeros maxInstructionLength

/-- `*dpp->ins`; `none` outside the array. -/
def InsPtr.read (ptr : InsPtr) : Option PofInstruction :=
  if ptr.k < 0 then none
  else
    match ptr.entry with
    | none => [firstIns][ptr.k.toNat]?
    | some entry => entry.instruction[ptr.k.toNat]?

/-! ### Tables -/

/-- The entry a pointer points to; `some none` for `NULL`. -/
def entryAt (table : TableInfo) : EntryPtr → Option (Option EntryInfo)
  | .unset => none
  | .null => some none
  | .ptr p => (table.entryMap.nodes.find? fun e => e.addr = p).map some

/-- The cursor is set to the first instruction of a matching entry. -/
def gotoEntry (entry : EntryInfo) (dpp : DpPacket) : DpPacket :=
  { dpp with
    ins := ⟨some entry, 0⟩
    insTodoNum := entry.instructionNum
    insDoneNum := 0 }

/-- Why the key of a table is not assembled: the first field that is longer than its local copy, or that
crosses into the next byte although it is shorter than one. -/
def keyHalt : List PofMatch → UInt16 → Halt
  | [], _ => .undefined
  | m :: ms, offsetB =>
      if 8 * maxFieldLengthInByte < m.len.toNat then .undefined
      else if m.len.toNat < 8 ∧ 8 < offsetB.toNat % 8 + m.len.toNat then .hang
      else keyHalt ms (offsetB + m.len)

/-- `execute_GOTO_TABLE`.  An error of the counter or of the message about a miss is returned after
the packet has been updated. -/
def executeGotoTable (env : DpEnv) (data : Buf) : Dp Unit := do
  movePacketBufOffset (toInt16 (half data 2).toNat)
  setTable (data.rd 0)
  let s ← get
  let table ← liftOption (poflrGetTableWithID (data.rd 0) s.lr) (.error ⟨.badAction, .pofbicBadTableId⟩)
  let ptr ← liftOption (poflrEntryLookup s.dpp.window s.dpp.metadata table) (keyHalt (tableFields table) 0)
  let found ← liftOption (entryAt table ptr) .undefined
  modifyDpp fun dpp => { dpp with flowEntry := found }
  match found with
  | none => do
      onError (pofdpEntryNomatch env) fun _ s =>
        { s with dpp := { s.dpp with packetDone := true }, trace := s.trace ++ [.missed] }
      modifyDpp fun dpp => { dpp with packetDone := true }
      emit .missed
  | some entry => do
      let ret ← counterIncreace entry.counterId s.dpp.relLen
      modifyDpp (gotoEntry entry)
      checkRetvalue ret

/-- `execute_GOTO_DIRECT_TABLE`. -/
def executeGotoDirectTable (data : Buf) : Dp Unit := do
  movePacketBufOffset (toInt16 (half data 2).toNat)
  setTable (data.rd 0)
  let entryIndex ← pofdpGet32value (data.rd 1) data 8
  let s ← get
  let table ← liftOption (poflrGetTableWithID (data.rd 0) s.lr) (.error ⟨.badAction, .pofbicBadTableId⟩)
  failIf (s.dpp.tableType ≠ 3) .badAction .pofbicBadTableType
  modifyDpp fun dpp => { dpp with flowEntry := poflrEntryLookupLinear entryIndex table }
  let entry ← liftOption (poflrEntryLookupLinear entryIndex table)
    (.error ⟨.badAction, .pofbicEntryUnexist⟩)
  let ret ← counterIncreace entry.counterId s.dpp.relLen
  checkRetvalue ret
  modifyDpp (gotoEntry entry)

/-! ### Actions and jumps -/

/-- The actions of an `APPLY_ACTIONS` instruction. -/
def applyActionsList (data : Buf) : List PofAction :=
  (List.range maxActionNumberPerInstruction).map fun i =>
    { type := half data (8 + 48 * i)
      len := half data (8 + 48 * i + 2)
      actionData := data.bytesAt (8 + 48 * i + 4) maxActionLength }

/-- `execute_APPLY_ACTIONS`; `actions` is the call of `pofdp_action_execute`. -/
def executeApplyActions (actions : Dp Unit) (data : Buf) : Dp Unit := do
  modifyDpp fun dpp => { dpp with act := applyActionsList data, actNum := data.rd 0 }
  actions
  instructionUpdate

/-- The direction and the number of instructions of a `CONDITIONAL_JMP`. -/
def conditionalJmpTarget (data : Buf) : Dp (UInt8 × UInt32) := do
  let value1 ← get32valueFromField (matchAt data 8)
  let value2 ← pofdpGet32value (data.rd 0) data 16
  if value1 < value2 then do
    let offset ← pofdpGet32value (data.rd 2) data 24
    pure (data.rd 1, offset)
  else if value1 = value2 then do
    let offset ← pofdpGet32value (data.rd 4) data 32
    pure (data.rd 3, offset)
  else do
    let offset ← pofdpGet32value (data.rd 6) data 40
    pure (data.rd 5, offset)

/-- `execute_CONDITIONAL_JMP`. -/
def executeConditionalJmp (data : Buf) : Dp Unit := do
  let (direction, offset) ← conditionalJmpTarget data
  insJump direction offset

/-! ### The work of the other instructions -/

/-- `execute_METER`. -/
def meterWork (data : Buf) : Dp Unit := do
  let s ← get
  let meter ← liftOption (poflrGetMeterWithID (word data 0) s.lr)
    (.error ⟨.meterModFailed, .pofmmfcUnknownMeter⟩)
  modifyDpp fun dpp => { dpp with rate := meter.rate.toUInt16 }

/-- `execute_WRITE_METADATA`. -/
def writeMetadataWork (data : Buf) : Dp Unit := coverMetadata (data.drop 4) (half data 0) (half data 2)

/-- `execute_WRITE_METADATA_FROM_PACKET`. -/
def writeMetadataFromPacketWork (data : Buf) : Dp Unit := do
  let s ← get
  failIf (s.dpp.leftLen * 8 < ((half data 4).toNat + (half data 2).toNat : ℤ))
    .softwareFailed .pofPacketLenError
  coverMetadata (pofbfCopyBit s.dpp.window (Buf.zeros metadataMaxLen) (half data 2) (half data 4))
    (half data 0) (half data 4)

/-- `calculate_ADD`, `calculate_SUBTRACT`, …, by their `POFCT_` number. -/
def calculate (type : ℕ) (value operand : UInt32) : Option UInt32 :=
  match type with
  | 0 => some (value + operand)
  | 1 => some (value - operand)
  | 2 => some (UInt32.ofNat (value.toNat <<< operand.toNat))
  | 3 => some (UInt32.ofNat (value.toNat >>> operand.toNat))
  | 4 => some (value &&& operand)
  | 5 => some (value ||| operand)
  | 6 => some (value ^^^ operand)
  | 7 => some (~~~(value ||| operand))
  | _ => none

/-- `execute_CALCULATE_FIELD`. -/
def calculateFieldWork (data : Buf) : Dp Unit := do
  let value1 ← get32valueFromField (matchAt data 8)
  let operand ← pofdpGet32value (data.rd 2) data 16
  let result ← liftOption (calculate (half data 0).toNat value1 operand)
    (.error ⟨.badInstruction, .pofbicUnknownInst⟩)
  pofdpWrite32valueToField result (matchAt data 8)

/-- `execute_MOVE_PACKET_OFFSET`. -/
def movePacketOffsetWork (data : Buf) : Dp Unit := do
  let value ← pofdpGet32value (data.rd 1) data 8
  if data.rd 0 = 0 then movePacketBufOffset (toInt16 value.toNat)
  else movePacketBufOffset (toInt16 (-toInt16 value.toNat))

/-- The work of an instruction that is followed by `instruction_update`. -/
def instructionWork (data : Buf) : InstructionType → Dp Unit
  | .meter => meterWork data
  | .writeMetadata => writeMetadataWork data
  | .writeMetadataFromPacket => writeMetadataFromPacketWork data
  | .calculateField => calculateFieldWork data
  | .movePacketOffset => movePacketOffsetWork data
  | _ => fail .badInstruction .pofbicUnsupInst

/-! ### The interpreter -/

/-- The `switch` of `pofdp_instruction_execute` on the type of the current instruction. -/
def executeInstruction (env : DpEnv) (actions : Dp Unit) (ins : PofInstruction) : Dp Unit :=
  match InstructionType.ofCode ins.type.toNat with
  | none => fail .badInstruction .pofbicUnknownInst
  | some .gotoTable => executeGotoTable env ins.instructionData
  | some .gotoDirectTable => executeGotoDirectTable ins.instructionData
  | some .applyActions => executeApplyActions actions ins.instructionData
  | some .conditionalJmp => executeConditionalJmp ins.instructionData
  | some type => do
      instructionWork ins.instructionData type
      instructionUpdate

/-- One turn of the loop of `pofdp_instruction_execute`; the actions have `fuel`. -/
def insStep (env : DpEnv) (fuel : ℕ) : Dp Unit := do
  let s ← get
  let ins ← liftOption s.dpp.ins.read .undefined
  logged (executeInstruction env (pofdpActionExecute env fuel) ins)

/-- `pofdp_instruction_execute`. -/
def pofdpInstructionExecute (env : DpEnv) : ℕ → Dp Unit
  | 0 => throw .fuel
  | fuel + 1 => do
      let s ← get
      if s.dpp.packetDone = false then do
        insStep env fuel
        pofdpInstructionExecute env fuel
      else pure ()

/-! ### A received packet -/

/-- The record of a packet received on a port, with the metadata of `init_packet_metadata` and the
cursor of `pofdp_forward`. -/
def receivedPacket (portId : UInt8) (packet : Buf) : DpPacket where
  oriPortId := portId.toUInt32
  oriLen := UInt32.ofNat packet.length
  buf := (Buf.zeros packetRawMaxLen).paste packetPrebufLen packet
  outputPortId := 0
  outputSlotId := 0
  outputPacketLen := 0
  outputPacketOffset := 0
  outputMetadataLen := 0
  outputMetadataOffset := 0
  outputWholeLen := 0
  bufOut := Buf.zeros packetRawMaxLen
  outputPacketBuf := 0
  offset := 0
  bufOffset := packetPrebufLen
  leftLen := packet.length
  metadata := ((Buf.zeros metadataMaxLen).paste 0 (storeBE packet.length 2)).wr 2 portId
  metadataLen := UInt16.ofNat metadataMaxLen
  tableType := 0
  tableId := 0
  flowEntry := none
  ins := ⟨none, 0⟩
  insTodoNum := 1
  insDoneNum := 0
  act := []
  actNum := 0
  packetDone := false
  rate := 0

/-- The state in which `pofdp_forward` calls the interpreter. -/
def pofdpForward (portId : UInt8) (packet : Buf) (lr : LocalResource) : DpState where
  dpp := receivedPacket portId packet
  lr := lr
  trace := []

/-- An environment in which everything is sent. -/
def openEnv : DpEnv where
  slots := []
  noMatch := .packetIn
  deviceId := 0
  localPortIndex := 0
  sendto _ _ _ := true
  replyMsg _ := .sent

end PofSwitch
