/-
**A packet in the datapath: `struct pofdp_packet` and what the interpreters share.**

The interpreters of `datapath/pof_instruction.c` and `datapath/pof_action.c` work on one record per
packet: the packet bytes with a movable window, the metadata, the flow entry that matched, and the
cursors into its instructions and actions.  They are computations on a `DpState`, which joins the
record with the local resource and with a history of what became visible outside: the frames sent,
the messages to the controller, and the events that end the processing of a packet.

A computation fails with a return code, or it never returns (`pofbf_cover_bit` may not), or it
reaches a point where the meaning of the C program is undefined and nothing is said about it: a
`NULL` or dangling pointer is followed, an array is read past its end, a local array or the part of
`buf` an added tag moves is stored past its end, a number is divided by zero.  The window is the part of
`buf` from `buf_offset` on; bytes outside `buf` read as zero, and other stores outside it, and stores
behind `buf_out`, are dropped.  Signed fields are integers that are cut to their width where they are stored.

Main definitions:

* `PofSwitch.DpPacket`, `PofSwitch.DpState`, `PofSwitch.DpEnv`, `PofSwitch.DpEvent`, `PofSwitch.Halt`;
* `PofSwitch.movePacketBufOffset`, `pofdpGet32value`, `pofdpWrite32valueToField`;
* `PofSwitch.poflrCounterIncreace`, `PofSwitch.poflrTableIDToId`;
* `PofSwitch.pofdpSendRaw`, `PofSwitch.pofdpSendPacketInToController`.
-/

import PofSwitch.FlowTable
import PofSwitch.Prog

set_option relaxedAutoImplicit false
set_option autoImplicit false

namespace PofSwitch

open Buf Prog

/-! ### Sizes -/

/-- `POFDP_PACKET_RAW_MAX_LEN`. -/
def packetRawMaxLen : ℕ := 2048

/-- `POFDP_PACKET_PREBUF_LEN`. -/
def packetPrebufLen : ℕ := 128

/-- `POFDP_METADATA_MAX_LEN`. -/
def metadataMaxLen : ℕ := 128

/-- `POF_MTU_LENGTH`. -/
def mtuLength : ℕ := 1514

/-- `POF_PACKET_IN_MAX_LENGTH`. -/
def packetInMaxLength : ℕ := 2048

/-- Conversion to `int16_t`. -/
def toInt16 (n : ℤ) : ℤ := n.bmod (2 ^ 16)

/-- Conversion to `int32_t`. -/
def toInt32 (n : ℤ) : ℤ := n.bmod (2 ^ 32)

/-- Conversion to `uint16_t`. -/
def toUInt16 (n : ℤ) : UInt16 := UInt16.ofNat (n % 2 ^ 16).toNat

/-- Conversion to `uint32_t`. -/
def toUInt32 (n : ℤ) : UInt32 := UInt32.ofNat (n % 2 ^ 32).toNat

/-! ### The record of a packet -/

/-- A `struct pof_instruction *`: instruction `k` of an entry, or of the single instruction
`first_ins` before the first match. -/
structure InsPtr where
  entry : Option EntryInfo
  k : ℤ
deriving DecidableEq, Repr

/-- `struct pofdp_packet`.  `bufOffset` and `outputPacketBuf` are pointers into `buf`, as indices;
`packetBuf` is the index `packetPrebufLen`.  `act` is the array of actions from the pointer on. -/
structure DpPacket where
  oriPortId : UInt32
  oriLen : UInt32
  buf : Buf
  outputPortId : UInt16
  outputSlotId : UInt16
  outputPacketLen : UInt16
  outputPacketOffset : UInt16
  outputMetadataLen : UInt16
  outputMetadataOffset : UInt16
  outputWholeLen : UInt16
  bufOut : Buf
  outputPacketBuf : ℤ
  offset : ℤ
  bufOffset : ℤ
  leftLen : ℤ
  metadata : Buf
  metadataLen : UInt16
  tableType : UInt8
  tableId : UInt8
  flowEntry : Option EntryInfo
  ins : InsPtr
  insTodoNum : UInt8
  insDoneNum : UInt8
  act : List PofAction
  actNum : UInt8
  packetDone : Bool
  rate : UInt16

/-- The bytes from `buf_offset` on. -/
def DpPacket.window (dpp : DpPacket) : Buf := dpp.buf.drop dpp.bufOffset.toNat

/-- Stores through `buf_offset`. -/
def DpPacket.setWindow (dpp : DpPacket) (w : Buf) : DpPacket :=
  { dpp with buf := dpp.buf.take dpp.bufOffset.toNat ++ w }

/-- `POF_PACKET_REL_LEN_GET`: the length in the metadata, which is in network order. -/
def DpPacket.relLen (dpp : DpPacket) : UInt16 := UInt16.ofNat (dpp.metadata.loadBE 2)

/-- `POF_PACKET_REL_LEN_SET`. -/
def DpPacket.setRelLen (dpp : DpPacket) (n : ℤ) : DpPacket :=
  { dpp with metadata := dpp.metadata.paste 0 (storeBE (toUInt16 n).toNat 2) }

/-! ### State, history and environment -/

/-- What becomes visible outside, and what ends the processing of a packet. -/
inductive DpEvent
  | output (slotID : UInt16) (port : PortInfo) (frame : Buf)
  | packetIn (totalLen : UInt16) (reason tableId : UInt8) (deviceId : UInt32) (slotID : UInt16)
      (portId : UInt8) (data : Buf)
  | dropped
  | missed
  | failed (e : PofError)
deriving DecidableEq, Repr

/-- Why a computation does not return `POF_OK`. -/
inductive Halt
  | error (e : PofError)
  | hang
  | undefined
  | fuel
deriving DecidableEq, Repr

/-- The state of the interpreters. -/
structure DpState where
  dpp : DpPacket
  lr : LocalResource
  trace : List DpEvent

/-- A computation of the datapath. -/
abbrev Dp : Type → Type := Prog Halt DpState

/-- What `pofec_reply_msg` does with a message: it is written to the queue, it is discarded because
there is no connection, or the queue refuses it. -/
inductive Reply
  | sent | discarded | refused
deriving DecidableEq, Repr

/-- `POF_NOMATCH`. -/
inductive NoMatch
  | packetIn | drop
deriving DecidableEq, Repr

/-- What the interpreters depend on besides their state: the other slots, the configuration, and
the answers of the operating system, which may depend on all that has happened. -/
structure DpEnv where
  slots : List LocalResource
  noMatch : NoMatch
  deviceId : UInt32
  localPortIndex : UInt8
  sendto : List DpEvent → PortInfo → Buf → Bool
  replyMsg : List DpEvent → Reply

/-- `return code | 0xF0000000`. -/
def fail {α : Type} (type : ErrType) (code : ErrCode) : Dp α := throw (.error ⟨type, code⟩)

/-- `if(c) POF_ERROR_HANDLE_RETURN_UPWARD(type, code, ...)`. -/
def failIf (c : Prop) [Decidable c] (type : ErrType) (code : ErrCode) : Dp Unit :=
  check c (.error ⟨type, code⟩)

/-- `POF_CHECK_RETVALUE_RETURN_NO_UPWARD`. -/
def checkRetvalue (ret : Ret) : Dp Unit :=
  match ret with
  | .ok () => pure ()
  | .error e => throw (.error e)

/-- A change of the packet. -/
def modifyDpp (f : DpPacket → DpPacket) : Dp Unit := modify fun s => { s with dpp := f s.dpp }

/-- An event is added to the history. -/
def emit (ev : DpEvent) : Dp Unit := modify fun s => { s with trace := s.trace ++ [ev] }

/-! ### Structures in memory -/

/-- A `uint16_t` of an instruction or action body. -/
def half (data : Buf) (p : ℕ) : UInt16 := UInt16.ofNat (data.loadWord p 2)

/-- A `uint32_t` of an instruction or action body. -/
def word (data : Buf) (p : ℕ) : UInt32 := UInt32.ofNat (data.loadWord p 4)

/-- A `pof_match` of an instruction or action body. -/
def matchAt (data : Buf) (p : ℕ) : PofMatch where
  fieldId := half data p
  offset := half data (p + 2)
  len := half data (p + 4)

/-! ### The packet window -/

/-- `movePacketBufOffset`. -/
def movePacketBufOffset (offset : ℤ) : Dp Unit := do
  let s ← get
  failIf (offset > s.dpp.leftLen ∨ offset < -(packetPrebufLen + s.dpp.offset))
    .softwareFailed .pofPacketLenError
  modifyDpp fun dpp =>
    { dpp with
      offset := toInt16 (dpp.offset + offset)
      leftLen := toInt32 (dpp.leftLen - offset)
      bufOffset := dpp.bufOffset + offset }

/-- `pofbf_cover_bit` on the window. -/
def coverWindow (value : Buf) (posB lenB : UInt16) : Dp Unit := do
  let s ← get
  let w ← liftOption (pofbfCoverBit s.dpp.window value posB lenB) .hang
  modifyDpp fun dpp => dpp.setWindow w

/-- `pofbf_cover_bit` on the metadata. -/
def coverMetadata (value : Buf) (posB lenB : UInt16) : Dp Unit := do
  let s ← get
  let m ← liftOption (pofbfCoverBit s.dpp.metadata value posB lenB) .hang
  modifyDpp fun dpp => { dpp with metadata := m }

/-! ### Fields -/

/-- `POFDP_METADATA_FIELD_ID`. -/
def metadataFieldId : UInt16 := 0xFFFF

/-- `pofdp_get_field_buf`; `none` is `NULL`. -/
def pofdpGetFieldBuf (pm : PofMatch) (dpp : DpPacket) : Option Buf :=
  if pm.fieldId = metadataFieldId then
    if pm.len.toNat + pm.offset.toNat > dpp.metadataLen.toNat * 8 then none else some dpp.metadata
  else if (pm.len.toNat + pm.offset.toNat : ℤ) > dpp.leftLen * 8 then none
  else some dpp.window

/-- `pofdp_get_32value_from_buf`.  The bytes of the variable that are not copied are shifted out. -/
def pofdpGet32valueFromBuf (buf : Buf) (offset len : UInt16) : UInt32 :=
  UInt32.ofNat ((pofbfCopyBit buf (Buf.zeros 4) offset len).loadBE 4 >>> (32 - len.toNat))

/-- `get_32value_from_field`. -/
def get32valueFromField (pm : PofMatch) : Dp UInt32 := do
  failIf (pm.len > 32) .badMatch .pofbmcBadLen
  let s ← get
  let src ← liftOption (pofdpGetFieldBuf pm s.dpp) (.error ⟨.softwareFailed, .pofError⟩)
  pure (pofdpGet32valueFromBuf src pm.offset pm.len)

/-- `pofdp_get_32value`: the value at index `p` of a body is immediate or a field. -/
def pofdpGet32value (type : UInt8) (data : Buf) (p : ℕ) : Dp UInt32 :=
  if type = 0 then pure (word data p) else get32valueFromField (matchAt data p)

/-- The bytes `write_32value_to_buf` covers the field with. -/
def write32valueBytes (value : UInt32) (len : UInt16) : Buf :=
  storeBE (value.toNat <<< (32 - len.toNat)) 4

/-- `pofdp_write_32value_to_field`. -/
def pofdpWrite32valueToField (value : UInt32) (pm : PofMatch) : Dp Unit := do
  failIf (pm.len > 32) .badMatch .pofbmcBadLen
  let s ← get
  if pm.fieldId ≠ metadataFieldId then do
    failIf ((pm.len.toNat + pm.offset.toNat : ℤ) > s.dpp.leftLen * 8)
      .softwareFailed .pofPacketLenError
    coverWindow (write32valueBytes value pm.len) pm.offset pm.len
  else do
    failIf (pm.len.toNat + pm.offset.toNat > s.dpp.metadataLen.toNat * 8)
      .softwareFailed .pofMetadataLenError
    coverMetadata (write32valueBytes value pm.len) pm.offset pm.len

/-! ### Counters and table identifiers -/

/-- `poflr_counter_increace`; `none` when the counter is missing, for the `NULL` found is followed
after the initialisation. -/
def poflrCounterIncreace (counterId : UInt32) (byteLen : UInt16) (lr : LocalResource) :
    Option (Ret × LocalResource) :=
  if counterId = 0 then some (.ok (), lr)
  else if counterId ≥ lr.counterNumMax then
    some (.error ⟨.counterModFailed, .pofcmfcBadCounterId⟩, lr)
  else
    (poflrGetCounterWithID counterId lr).map fun counter =>
      (.ok (), { lr with counterMap := lr.counterMap.modify counter.addr fun c =>
        { c with value := c.value + 1, byteValue := c.byteValue + byteLen.toUInt64 } })

/-- The counter of an entry, a group or an action is increased. -/
def counterIncreace (counterId : UInt32) (byteLen : UInt16) : Dp Ret := do
  let s ← get
  let (ret, lr) ← liftOption (poflrCounterIncreace counterId byteLen s.lr) .undefined
  modify fun s => { s with lr := lr }
  pure ret

/-- The loop of `poflr_table_ID_to_id` from table type `i` on. -/
def tableIDLoop : List UInt16 → UInt8 → UInt8 → Option (UInt8 × UInt8)
  | [], _, _ => none
  | n :: ns, ID, i => if ID.toUInt16 ≥ n then tableIDLoop ns (ID - n.toUInt8) (i + 1) else some (i, ID)

/-- `poflr_table_ID_to_id`: the type and the identifier within the type. -/
def poflrTableIDToId (ID : UInt8) (lr : LocalResource) : Option (UInt8 × UInt8) :=
  tableIDLoop (lr.tableNumMaxEachType.take 4) ID 0

/-- `poflr_table_ID_to_id` writes to the packet. -/
def setTable (ID : UInt8) : Dp Unit := do
  let s ← get
  let (type, id) ← liftOption (poflrTableIDToId ID s.lr) (.error ⟨.softwareFailed, .pofBadTableId⟩)
  modifyDpp fun dpp => { dpp with tableType := type, tableId := id }

/-! ### Frames and messages -/

/-- `pofdp_get_local_resource`. -/
def pofdpGetLocalResource (env : DpEnv) (slot : UInt16) (lr : LocalResource) : Option LocalResource :=
  if slot = lr.slotID then some lr else env.slots.find? fun r => r.slotID = slot

/-- The bytes `pofdp_send_raw` puts into `buf_out`: metadata and behind it packet bytes. -/
def outputBytes (dpp : DpPacket) : Buf :=
  (pofbfCopyBit dpp.metadata dpp.bufOut dpp.outputMetadataOffset (dpp.outputMetadataLen * 8)).paste
    dpp.outputMetadataLen.toNat
    (dpp.buf.bytesAt (dpp.outputPacketBuf + dpp.outputPacketOffset.toNat).toNat
      dpp.outputPacketLen.toNat)

/-- `send_raw`; the port id is cut to eight bits by the lookup.  Both of its failures are one to
`pofdp_send_raw`. -/
def sendRaw (env : DpEnv) (lrPort : LocalResource) : Dp Unit := do
  let s ← get
  let port ← liftOption (poflrGetPortWithPofindex s.dpp.outputPortId.toUInt8 lrPort)
    (.error ⟨.softwareFailed, .pofSendMsgFailure⟩)
  let frame := s.dpp.bufOut.take s.dpp.outputWholeLen.toNat
  failIf (env.sendto s.trace port frame = false) .softwareFailed .pofSendMsgFailure
  emit (.output lrPort.slotID port frame)

/-- `pofdp_send_raw`. -/
def pofdpSendRaw (env : DpEnv) (lrPort : LocalResource) : Dp Unit := do
  modifyDpp fun dpp => { dpp with bufOut := outputBytes dpp }
  let s ← get
  failIf (s.dpp.outputWholeLen.toNat > mtuLength) .softwareFailed .pofPacketLenError
  sendRaw env lrPort

/-- `pofdp_send_packet_in_to_controller` with the whole packet; the reason and the port are cut to
eight bits by the parameters, and the slot is always `POF_SLOT_ID_BASE`. -/
def pofdpSendPacketInToController (env : DpEnv) (reason : UInt32) (tableID : UInt8) : Dp Unit := do
  let s ← get
  let len := toUInt16 (s.dpp.offset + s.dpp.leftLen)
  failIf (len.toNat > packetInMaxLength) .softwareFailed .pofPacketLenError
  match env.replyMsg s.trace with
  | .sent =>
      emit (.packetIn len reason.toUInt8 tableID env.deviceId 0 s.dpp.oriPortId.toUInt8
        (s.dpp.buf.bytesAt packetPrebufLen len.toNat))
  | .discarded => pure ()
  | .refused => fail .softwareFailed .pofWriteMsgQueueFailure

/-- `poflr_table_id_to_ID` of the table the packet is in. -/
def currentTableID (s : DpState) : UInt8 :=
  (s.lr.tableNumMaxEachType.take s.dpp.tableType.toNat).foldl (fun ID n => ID + n.toUInt8) 0 +
    s.dpp.tableId

/-- `pofdp_entry_nomatch`; `POFR_NO_MATCH` is `0`. -/
def pofdpEntryNomatch (env : DpEnv) : Dp Unit := do
  match env.noMatch with
  | .packetIn =>
      let s ← get
      pofdpSendPacketInToController env 0 (currentTableID s)
  | .drop => pure ()

end PofSwitch
