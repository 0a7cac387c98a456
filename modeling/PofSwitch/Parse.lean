/-
**Every message from the controller: `pof_parse_msg_from_controller`.**

The handler converts the header and the body of a message to host order where they stand in the receive
buffer, reads them through the structure that belongs to the type, and acts.  So it is modelled in two
steps: from bytes to a request, and from a request to the new state and the messages that are queued.  The
body is read as far as the structure goes, whatever length the header gives.

A function that returns an error by `POF_ERROR_HANDLE_RETURN_UPWARD` has queued a `POFT_ERROR` before, and
its callers pass the error on and queue nothing.  The requests for tables, entries, groups, meters and
counters do so with the xid of the message.  Only `valueMaskAssemble` reports the length of the key with
an xid of the switch, and the request that has called it reports `POFFMFC_UNKNOWN`.

Main definitions:

* `PofSwitch.Request`, `PofSwitch.requestOf` — what a message asks for, and how it is read;
* `PofSwitch.Control`, `PofSwitch.ParseEnv` — the state, and what a call depends on besides it;
* `PofSwitch.Outbox` — the messages queued during a call, and `g_upward_xid`;
* `PofSwitch.packetOutEnd` — what the actions of a `POFT_PACKET_OUT` come to, and what they report;
* `PofSwitch.Control.handle`, `PofSwitch.Control.pofParseMsgFromController` — the cases, and the function.

Main results:

* `PofSwitch.eachSlotReports_slots` — the loop over the slots does to them what it does without reports;
* `PofSwitch.Outbox.reply_eq`, `PofSwitch.Outbox.error_eq` — one call of `pofec_reply_msg` or
  `pofec_reply_error` queues one message;
* `PofSwitch.packetOutEnd_cases` — a `POFT_PACKET_OUT` leaves the slots alone and reports at most one error.
-/

import PofSwitch.Machine
import PofSwitch.OutputPorts
import PofSwitch.PacketOut
import PofSwitch.QueryAll
import PofSwitch.Replicas
import PofSwitch.Replies

set_option relaxedAutoImplicit false
set_option autoImplicit false

namespace PofSwitch

open HmapNode Buf

/-! ### Requests -/

/-- What a message asks for. -/
inductive Request
  | echoRequest
  | setConfig (flags missSendLen : UInt16)
  | getConfigRequest
  | portMod (slotID : UInt16) (portId : UInt16) (ofEnable : UInt8)
  | featuresRequest
  | mod (msg : ModMsg)
  | packetOut (msg : PofPacketOut)
  | counterRequest (counterId : UInt32)
  | queryallRequest (slotID : UInt16)
  | badType

/-- A `pof_packet_out`. -/
def packetOutOf (b : Buf) : PofPacketOut where
  inPort := word b 4
  actionNum := b.rd 8
  packetLen := word b 12
  actionList := (List.range maxActionNumberPerInstruction).map fun i => actionOf (element 48 i (b.drop 16))
  data := b.drop 304

/-- The body of a message of a type, in host order. -/
def Request.ofBody (body : Buf) : MsgType → Request
  | .echoRequest => .echoRequest
  | .setConfig => .setConfig (switchConfigOf body).flags (switchConfigOf body).missSendLen
  | .getConfigRequest => .getConfigRequest
  | .portMod =>
      let port := (portStatusOf body).2
      .portMod port.slotID port.portId port.ofEnable
  | .featuresRequest => .featuresRequest
  | .tableMod => .mod (.tableMod (body.rd 0) (flowTableOf body))
  | .flowMod => .mod (.flowMod (body.rd 0) (flowEntryOf body))
  | .packetOut => .packetOut (packetOutOf body)
  | .meterMod => .mod (.meterMod (body.rd 0) (meterOf body).1 (meterOf body).2)
  | .groupMod => .mod (.groupMod (body.rd 0) (groupMsgOf body))
  | .counterMod => .mod (.counterMod (body.rd 0) (counterOf body).1)
  | .counterRequest => .counterRequest (counterOf body).1
  | .queryallRequest => .queryallRequest (half body 0)
  | .hello | .echoReply => .badType

/-- The request in the bytes at `msg_ptr`. -/
def requestOf (b : Buf) : Request :=
  match MsgType.ofCode (Header.type b) with
  | some t => .ofBody ((parseTransfer b).drop headerSize) t
  | none => .badType

/-! ### The state and the environment -/

/-- `dp->slotMap`, and the globals that the handler reads and writes: `g_poflr_dev_id`,
`poflr_switch_config`, `poflr_table_resource_desc` and `g_upward_xid`. -/
structure Control where
  slots : List LocalResource
  devId : UInt32
  config : PofSwitchConfig
  resource : PofFlowTableResource
  upwardXid : UInt32

/-- The fields of a `struct portInfo` that a report of the port needs besides those of `PortInfo`. -/
structure PortRest where
  name : Buf
  hwaddr : Buf
  pofState : UInt32

/-- What a call depends on besides the state: the state of the channel, the addresses that `malloc` returns
for each slot, what the memory for the reply about the structure at an address holds, what
`pofec_queue_msg_buf` holds when some messages have been queued, what the callers of
`poflr_reply_counter_all` find as its result, `lr->portNum`, the rest of the port at an address, the
version string, and what the actions of a `POFT_PACKET_OUT` depend on, but for the slots. -/
structure ParseEnv where
  state : ChannelState
  alloc : ℕ → ℕ × ℕ
  mem : ℕ → Buf
  msgBuf : ℕ → Buf
  unreturned : UInt16 → Ret
  portNum : UInt16 → UInt16
  portRest : ℕ → PortRest
  version : Buf
  datapath : DpEnv

/-- The messages queued since the call, and `g_upward_xid`. -/
structure Outbox where
  queue : List Buf
  upwardXid : UInt32

/-- What the handler returns. -/
abbrev ParseRet := Except ErrorReport Unit

/-! ### Sending -/

/-- `POF_WRITE_MSG_QUEUE_FAILURE`. -/
def writeFailure : PofError := ⟨.softwareFailed, .pofWriteMsgQueueFailure⟩

/-- `POFTMFC_BAD_KEY_LEN`, as `valueMaskAssemble` reports it. -/
def badKeyLen : PofError := ⟨.tableModFailed, .poftmfcBadKeyLen⟩

/-- What an addition or a modification returns when `entryInsert` fails. -/
def entryRefused : PofError := ⟨.flowModFailed, .poffmfcUnknown⟩

namespace Outbox

variable (env : ParseEnv) (devId xid : UInt32)

/-- The environment of the next message. -/
def replyEnv (msgXid : UInt32) (o : Outbox) : ReplyEnv := ⟨env.state, msgXid, env.msgBuf o.queue.length⟩

/-- `pofec_reply_error`. -/
def error (r : ErrorReport) (o : Outbox) : Outbox :=
  { o with queue := pofecReplyError r devId (replyEnv env xid o) o.queue }

/-- What has been queued when a request for a slot returns an error. -/
def report (e : PofError) (o : Outbox) : Outbox :=
  if e = entryRefused then
    -- `valueMaskAssemble`, with `g_upward_xid++`
    let o' := error env devId o.upwardXid badKeyLen.report o
    error env devId xid e.report { o' with upwardXid := o'.upwardXid + 1 }
  else error env devId xid e.report o

/-- What has been queued when a request for a slot returns. -/
def returned : Ret → Outbox → Outbox
  | .ok (), o => o
  | .error e, o => report env devId xid e o

/-- `pofec_reply_msg`, whose failure is reported and returned. -/
def reply (type : UInt8) (msgXid : UInt32) (body : Buf) (o : Outbox) : Ret × Outbox :=
  match pofecReplyMsg type (replyEnv env msgXid o) body o.queue with
  | (.ok (), queue) => (.ok (), { o with queue := queue })
  | (.error _, queue) => (.error writeFailure, error env devId xid writeFailure.report { o with queue := queue })

section Sends

variable (hsends : env.state.sends = true)
include hsends

/-- A body that fits is sent. -/
theorem reply_eq (type : UInt8) (msgXid : UInt32) {body : Buf}
    (hfits : headerSize + body.length ≤ recvBufMaxSize) (o : Outbox) : reply env devId xid type msgXid body o =
      (.ok (), { o with queue := o.queue ++ [upwardMsg type msgXid body] }) := by
  have hsent : (replyEnv env msgXid o).state.sends = true := hsends
  rw [reply, pofecReplyMsg_eq hfits, hsent]
  rfl

/-- An error is sent. -/
theorem error_eq {r : ErrorReport} (hfits : r.Fits) (o : Outbox) : error env devId xid r o =
    { o with queue := o.queue ++ [errorMsg r devId xid (env.msgBuf o.queue.length)] } := by
  have hsent : (replyEnv env xid o).state.sends = true := hsends
  rw [error, pofecReplyError_eq hfits devId hsent]
  rfl

end Sends

end Outbox

/-! ### Replies -/

section Replies

variable (env : ParseEnv) (c : Control) (xid : UInt32) (lr : LocalResource)

/-- `poflr_reply_config`. -/
def poflrReplyConfig (o : Outbox) : Ret × Outbox :=
  o.reply env c.devId xid 8 xid (pofHtoNTransferSwitchConfig (switchConfigBytes c.config))

/-- What `poflr_reply_feature_resource` fills in; `lr->tableNumMax` is the sum of the tables of all types. -/
def featuresOf : PofSwitchFeatures where
  devId := c.devId
  slotID := lr.slotID
  portNum := env.portNum lr.slotID
  tableNum := lr.tableNumMaxEachType.foldl (· + ·) 0
  -- `POFC_FLOW_STATS`, `POFC_TABLE_STATS`, `POFC_PORT_STATS`, `POFC_GROUP_STATS`
  capabilities := 15
  vendorId := strncpy (cString "Huawei") nameMaxLength
  devFwId := strncpy env.version nameMaxLength
  devLkupId := strncpy env.version nameMaxLength

/-- `poflr_reply_feature_resource`. -/
def poflrReplyFeatureResource (o : Outbox) : Ret × Outbox :=
  o.reply env c.devId xid 6 xid (pofHtoNTransferSwitchFeatures (switchFeaturesBytes (featuresOf env c lr)))

/-- `poflr_reply_table_resource`: the description that all slots share, with the number of the slot. -/
def poflrReplyTableResource (o : Outbox) : Ret × Outbox :=
  let resource := { c.resource with slotID := lr.slotID }
  o.reply env c.devId xid 13 xid (pofHtoNTransferFlowTableResource (flowTableResourceBytes resource))

/-- `port_report_fill_msg`. -/
def portReportFillMsg (devId : UInt32) (rest : PortRest) (port : PortInfo) : PofPort where
  slotID := port.slotID
  portId := port.pofIndex.toUInt16
  deviceId := devId
  hwAddr := bytesAt rest.hwaddr 0 6
  name := strncpy rest.name nameMaxLength
  config := 0
  state := rest.pofState
  -- `POFPF_10MB_HD`, `POFPF_10MB_FD`
  curr := 3
  -- `POFPF_10MB_FD`, `POFPF_100MB_FD`
  advertised := 10
  supported := 0xFFFFFFFF
  peer := 10
  currSpeed := 0
  maxSpeed := 0
  ofEnable := port.ofEnable

/-- `poflr_port_report`: the message has the xid `g_upward_xid`. -/
def poflrPortReport (reason : UInt8) (port : PortInfo) (o : Outbox) : Ret × Outbox :=
  let desc := portReportFillMsg c.devId (env.portRest port.addr) port
  o.reply env c.devId xid 12 o.upwardXid (pofHtoNTransferPortStatus (portStatusBytes reason desc))

/-- `poflr_reply_port_resource`, which does not look at what a report returns. -/
def poflrReplyPortResource (o : Outbox) : Ret × Outbox :=
  (.ok (), lr.portPofIndexMap.order.foldl (fun o port => (poflrPortReport env c xid 0 port o).2) o)

/-- `poflr_get_counter_value`. -/
def poflrGetCounterValue (counterId : UInt32) (o : Outbox) : Ret × Outbox :=
  if counterId = 0 ∨ counterId ≥ lr.counterNumMax then
    let e : PofError := ⟨.counterModFailed, .pofcmfcBadCounterId⟩
    (.error e, o.report env c.devId xid e)
  else
    match poflrGetCounterWithID counterId lr with
    | none =>
        let e : PofError := ⟨.counterModFailed, .pofcmfcCounterUnexist⟩
        (.error e, o.report env c.devId xid e)
    | some counter =>
        let body := counterBytes [] queryResult lr.slotID counterId counter.value counter.byteValue
        o.reply env c.devId xid poftCounterReply xid (pofNtoHTransferCounter body)

end Replies

/-- The description of the tables of a slot, as `poflr_init_table_resource` fills it in. -/
def LocalResource.tableResource (devId : UInt32) (lr : LocalResource) : PofFlowTableResource where
  slotID := lr.slotID
  counterNum := lr.counterNumMax
  meterNum := lr.meterNumMax
  groupNum := lr.groupNumMax
  tblRscDesc := (List.range maxTableType).map fun i =>
    ⟨devId, UInt8.ofNat i, (lr.tableNumMaxEachType.getD i 0).toUInt8, lr.keyLenEachType.getD i 0, lr.tableSizeMax⟩

/-! ### The actions of a packet -/

/-- The port that `send_raw` has looked up last is there. -/
def portFound (env : DpEnv) (t : DpState) : Bool :=
  ((pofdpGetLocalResource env t.dpp.outputSlotId t.lr).bind
    (poflrGetPortWithPofindex t.dpp.outputPortId.toUInt8)).isSome

/-- What is reported of the error that ends the actions, with its xid, and `g_upward_xid` behind it. -/
def actionReports (env : DpEnv) (upwardXid : UInt32) (e : PofError) (t : DpState) :
    List (UInt32 × PofError) × UInt32 :=
  match e.code with
  -- no buffer for a field: `POF_CHECK_RETVALUE_RETURN_NO_UPWARD`
  | .pofError => ([], upwardXid)
  -- `get_32value_from_field`, which is the first to look at the length, does not increase the xid
  | .pofbmcBadLen => ([(upwardXid, e)], upwardXid)
  -- `send_raw` reports a failure of `sendto`, and no port that it does not find
  | .pofSendMsgFailure => if portFound env t then ([(upwardXid, e)], upwardXid + 1) else ([], upwardXid)
  | _ => ([(upwardXid, e)], upwardXid + 1)

/-- What the actions of a `POFT_PACKET_OUT` have led to. -/
structure PacketOutEnd where
  ret : Ret
  reports : List (UInt32 × PofError)
  upwardXid : UInt32
  slots : List LocalResource

/-- What is left when `pofdp_action_execute` returns. -/
def actionsEnd (env : DpEnv) (upwardXid : UInt32) : Except Halt Unit → DpState → Option PacketOutEnd
  | .ok (), t => some ⟨.ok (), [], upwardXid, t.lr :: env.slots⟩
  | .error (.error e), t =>
      let reported := actionReports env upwardXid e t
      some ⟨.error e, reported.1, reported.2, t.lr :: env.slots⟩
  | .error _, _ => none

/-- Case `POFT_PACKET_OUT` in a switch that has a slot.  There is no end when the packet is longer than `buf`
or than what there is to copy, or when the actions have none. -/
def packetOutEnd (env : DpEnv) (m : PofPacketOut) (upwardXid : UInt32) :
    List LocalResource → Option PacketOutEnd
  | [] => none
  | lr :: slots =>
      if m.packetLen.toNat ≤ packetRawMaxLen ∧ m.packetLen.toNat ≤ m.data.length then
        let r := pofParsePacketOut { env with slots := slots } m lr
        actionsEnd { env with slots := slots } upwardXid r.1 r.2
      else none

/-- At most the error that is returned is reported. -/
theorem actionReports_cases (env : DpEnv) (upwardXid : UInt32) (e : PofError) (t : DpState) :
    (actionReports env upwardXid e t).1 = [] ∨ (actionReports env upwardXid e t).1 = [(upwardXid, e)] := by
  unfold actionReports
  split
  · exact Or.inl rfl
  · exact Or.inr rfl
  · split_ifs
    · exact Or.inr rfl
    · exact Or.inl rfl
  · exact Or.inr rfl

/-- **The slots are left alone, and at most the error that is returned is reported.** -/
theorem packetOutEnd_cases {env : DpEnv} {m : PofPacketOut} {upwardXid : UInt32} {slots : List LocalResource}
    {r : PacketOutEnd} (h : packetOutEnd env m upwardXid slots = some r) :
    r.slots = slots ∧ (r.reports = [] ∨ ∃ e, r.ret = .error e ∧ r.reports = [(upwardXid, e)]) := by
  cases slots with
  | nil => cases h
  | cons lr slots =>
      rw [packetOutEnd] at h
      split_ifs at h
      have hlr := lr_pofParsePacketOut { env with slots := slots } m lr
      rcases hrun : pofParsePacketOut { env with slots := slots } m lr with ⟨res, t⟩
      rw [hrun] at h hlr
      have hslots : t.lr :: slots = lr :: slots := congrArg (· :: slots) hlr
      rcases res with (e | _ | _ | _) | _
      · cases h
        exact ⟨hslots, (actionReports_cases _ upwardXid e t).imp id fun h => ⟨e, rfl, h⟩⟩
      · cases h
      · cases h
      · cases h
      · cases h
        exact ⟨hslots, Or.inl rfl⟩

/-! ### The handler -/

/-- The loop over the slots from slot `i` on, with what is queued in it: `ret` is overwritten for every
slot. -/
def eachSlotReports (env : ParseEnv) (devId xid : UInt32) (call : ℕ × ℕ → LrOp) :
    ℕ → Ret → Outbox → List LocalResource → Option (Ret × Outbox × List LocalResource)
  | _, ret, o, [] => some (ret, o, [])
  | i, _, o, lr :: slots =>
      ((call (env.alloc i)).exec lr).bind fun r =>
        (eachSlotReports env devId xid call (i + 1) r.1 (o.returned env devId xid r.1) slots).map
          fun rest => (rest.1, rest.2.1, r.2 :: rest.2.2)

/-- **What is reported does not matter to the slots.** -/
theorem eachSlotReports_slots (env : ParseEnv) (devId xid : UInt32) (call : ℕ × ℕ → LrOp) (i : ℕ) (ret : Ret)
    (o : Outbox) (slots : List LocalResource) :
    (eachSlotReports env devId xid call i ret o slots).map (fun r => (r.1, r.2.2)) =
      eachSlot call env.alloc i ret slots := by
  induction slots generalizing i ret o with
  | nil => rfl
  | cons lr slots ih =>
      rw [eachSlotReports, eachSlot, Option.map_bind]
      congr 1
      funext r
      rw [Function.comp_apply, Option.map_map, ← ih (i + 1) r.1 (o.returned env devId xid r.1), Option.map_map]
      rfl

namespace Control

/-- `poflr_set_config`. -/
def poflrSetConfig (flags missSendLen : UInt16) (c : Control) : Control :=
  { c with config := ⟨c.devId, flags, missSendLen⟩ }

/-- `poflr_reset_dev_id`. -/
def poflrResetDevId (c : Control) : Control :=
  { c with resource := { c.resource with
      tblRscDesc := c.resource.tblRscDesc.map fun d => { d with deviceId := c.devId } } }

/-- A result with the error that is returned. -/
def parseRet : Ret → ParseRet
  | .ok () => .ok ()
  | .error e => .error e.report

/-- The cases of the `switch`. -/
def handle (env : ParseEnv) (xid : UInt32) (c : Control) (o : Outbox) :
    Request → Option (ParseRet × Control × Outbox)
  | .echoRequest =>
      let r := o.reply env c.devId xid 3 xid []
      some (parseRet r.1, c, r.2)
  | .setConfig flags missSendLen => some (.ok (), c.poflrSetConfig flags missSendLen, o)
  | .getConfigRequest =>
      let r := replyEach (fun reply o => reply o)
        [poflrReplyConfig env c xid, replyEach (poflrReplyTableResource env c xid) c.slots,
          replyEach (poflrReplyPortResource env c xid) c.slots] o
      some (parseRet r.1, c, r.2)
  | .portMod slotID portId ofEnable =>
      let r := PofSwitch.portMod slotID portId.toUInt32 ofEnable c.slots
      some (parseRet r.1, { c with slots := r.2 }, o.returned env c.devId xid r.1)
  | .featuresRequest =>
      let c := c.poflrResetDevId
      let r := replyEach (poflrReplyFeatureResource env c xid) c.slots o
      some (parseRet r.1, c, r.2)
  | .mod msg =>
      match msg.call with
      | none => some (.error msg.badCommand.report, c, o.error env c.devId xid msg.badCommand.report)
      | some call =>
          (eachSlotReports env c.devId xid call 0 (.ok ()) o c.slots).map fun r =>
            (parseRet r.1, { c with slots := r.2.2 }, r.2.1)
  | .packetOut msg =>
      (packetOutEnd env.datapath msg o.upwardXid c.slots).map fun r =>
        let o := r.reports.foldl (fun o p => o.error env c.devId p.1 p.2.report) o
        (parseRet r.ret, { c with slots := r.slots }, { o with upwardXid := r.upwardXid })
  | .counterRequest counterId =>
      let r := replyEach (fun lr => poflrGetCounterValue env c xid lr counterId) c.slots o
      some (parseRet r.1, c, r.2)
  | .queryallRequest slotID =>
      let mem := fun addr => if addr = 0 then env.msgBuf 0 else env.mem addr
      let r := PofSwitch.queryallRequest slotID c.slots ⟨env.state, xid, c.devId, mem, env.unreturned⟩ o.queue
      some (parseRet r.1, c, { o with queue := r.2 })
  | .badType => some (.error badTypeReport, c, o.error env c.devId xid badTypeReport)

/-- `pof_parse_msg_from_controller` on the bytes at `msg_ptr`: the result, the state and the messages that
are queued.  There is none when an instruction says that it has more actions than it can have, since its
conversion then leaves the message. -/
def pofParseMsgFromController (env : ParseEnv) (b : Buf) (c : Control) :
    Option (ParseRet × Control × List Buf) :=
  if ActionCountsFit b then
    (c.handle env (word (pofNtoHTransferHeader b) 4) ⟨[], c.upwardXid⟩ (requestOf b)).map fun r =>
      (r.1, { r.2.1 with upwardXid := r.2.2.upwardXid }, r.2.2.queue)
  else none

end Control

end PofSwitch
