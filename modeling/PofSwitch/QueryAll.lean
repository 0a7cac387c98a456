/-
**Querying everything: `POFT_QUERYALL_REQUEST`.**

The switch answers with one message for each table, entry, group, meter and counter of a slot, or of all
slots, and with a `POFT_QUERYALL_FIN` behind them.  Each message has the type of the request that would
store its object, and the controller reads it with the same structures.  What it reads is what the slot
stores, kind by kind and in the order in which the maps are traversed.

`poflr_reply_counter_all` ends without a `return`, and its result is looked at.  The model takes what the
caller finds as a parameter; everything has been queued by then, but for the message at the end.

Main definitions:

* `PofSwitch.replyTable`, `replyGroup`, `replyMeter`, `replyCounter` — the messages;
* `PofSwitch.poflrReplyTableAll`, …, `PofSwitch.poflrReplyQueryall`, `PofSwitch.queryallRequest` — the loops;
* `PofSwitch.Report`, `PofSwitch.decodeReport`, `PofSwitch.LocalResource.reports` — what a controller reads,
  and what it is to read.

Main results:

* `PofSwitch.Says.replyEach` — a loop over a map, from what one reply says;
* `PofSwitch.poflrReplyQueryall_says` — what is queued for a slot;
* `PofSwitch.queryall_complete` — **the messages decode to what the slots store, all of it and once.**
-/

import PofSwitch.Codable
import PofSwitch.ErrorReport

set_option relaxedAutoImplicit false
set_option autoImplicit false

namespace PofSwitch

open HmapNode Buf

/-! ### The messages -/

/-- `POFTC_QUERY_RESULT`, `POFGC_QUERY_RESULT`, `POFMC_QUERY_RESULT` and `POFCC_QUERY_RESULT`. -/
def queryResult : UInt8 := 4

/-- `POFT_COUNTER_REPLY`. -/
def poftCounterReply : UInt8 := 33

/-- `POFT_QUERYALL_FIN`. -/
def poftQueryallFin : UInt8 := 35

/-- `POFSID_ALL`. -/
def pofsidAll : UInt16 := 0xFFFF

/-- What the replies depend on besides the local resource: the state of the channel, `g_recv_xid`,
`g_poflr_dev_id`, what the memory for the reply about the structure at an address holds before (at address
`0`, the buffer of the other messages), and what the caller of `poflr_reply_counter_all` finds as its
result, slot by slot. -/
structure QueryEnv where
  state : ChannelState
  xid : UInt32
  devId : UInt32
  mem : ℕ → Buf
  unreturned : UInt16 → Ret

/-- The environment of the reply about the structure at an address. -/
def QueryEnv.reply (env : QueryEnv) (addr : ℕ) : ReplyEnv := ⟨env.state, env.xid, env.mem addr⟩

/-- The structure that `reply_table` fills in.  The table id stays zero when there is none. -/
def TableInfo.message (lr : LocalResource) (t : TableInfo) : PofFlowTable where
  tid := ((poflrTableIDToId t.id lr).map Prod.snd).getD 0
  type := UInt8.ofNat t.type.toNat
  matchFieldNum := t.matchFieldNum
  size := t.size
  keyLen := t.keyLen
  tableName := strncpy t.name nameMaxLength
  match_ := t.match_

/-- The structure that the `reply` of `pof_group.c` fills in. -/
def GroupInfo.message (g : GroupInfo) : PofGroup where
  type := g.type
  actionNumber := g.actionNumber
  groupId := g.id
  counterId := g.counterId
  action := g.action

section Replies

variable (lr : LocalResource) (env : QueryEnv) (queue : List Buf)

/-- `reply_table`. -/
def replyTable (t : TableInfo) : Ret × List Buf :=
  let body := flowTableBytes (env.mem t.addr) queryResult lr.slotID (t.message lr)
  pofecReplyMsg MsgType.tableMod.code (env.reply t.addr) (pofNtoHTransferFlowTable body) queue

/-- `reply` of `pof_group.c`. -/
def replyGroup (g : GroupInfo) : Ret × List Buf :=
  let body := groupBytes (env.mem g.addr) queryResult lr.slotID g.message
  pofecReplyMsg MsgType.groupMod.code (env.reply g.addr) (pofNtoHTransferGroup body) queue

/-- `reply` of `pof_meter.c`. -/
def replyMeter (m : MeterInfo) : Ret × List Buf :=
  let body := meterBytes (env.mem m.addr) queryResult lr.slotID m.id m.rate
  pofecReplyMsg MsgType.meterMod.code (env.reply m.addr) (pofNtoHTransferMeter body) queue

/-- The body of the loop of `poflr_reply_counter_all`. -/
def replyCounter (c : CounterInfo) : Ret × List Buf :=
  let body := counterBytes (env.mem c.addr) queryResult lr.slotID c.id c.value c.byteValue
  pofecReplyMsg poftCounterReply (env.reply c.addr) (pofNtoHTransferCounter body) queue

end Replies

/-! ### The loops -/

/-- A loop that stops at the first error. -/
def replyEach {α σ : Type} (reply : α → σ → Ret × σ) : List α → σ → Ret × σ
  | [], s => (.ok (), s)
  | a :: as, s =>
      match reply a s with
      | (.error e, s) => (.error e, s)
      | (.ok (), s) => replyEach reply as s

section Loops

variable (lr : LocalResource) (env : QueryEnv) (queue : List Buf)

/-- `poflr_reply_table_all`. -/
def poflrReplyTableAll : Ret × List Buf :=
  replyEach (fun t queue => replyTable lr env queue t) lr.tableIdMap.order queue

/-- `poflr_reply_entry_all`. -/
def poflrReplyEntryAll : Ret × List Buf :=
  replyEach (fun t => replyEach (fun e queue => replyEntry e t lr (env.reply e.addr) queue) t.entryMap.order)
    lr.tableIdMap.order queue

/-- `poflr_reply_group_all`. -/
def poflrReplyGroupAll : Ret × List Buf :=
  replyEach (fun g queue => replyGroup lr env queue g) lr.groupMap.order queue

/-- `poflr_reply_meter_all`. -/
def poflrReplyMeterAll : Ret × List Buf :=
  replyEach (fun m queue => replyMeter lr env queue m) lr.meterMap.order queue

/-- `poflr_reply_counter_all`. -/
def poflrReplyCounterAll : Ret × List Buf :=
  match replyEach (fun c queue => replyCounter lr env queue c) lr.counterMap.order queue with
  | (.error e, queue) => (.error e, queue)
  | (.ok (), queue) => (env.unreturned lr.slotID, queue)

/-- `poflr_reply_queryall`. -/
def poflrReplyQueryall : Ret × List Buf :=
  replyEach (fun replyAll queue => replyAll lr env queue)
    [poflrReplyTableAll, poflrReplyEntryAll, poflrReplyGroupAll, poflrReplyMeterAll, poflrReplyCounterAll] queue

end Loops

/-- The slots that a `POFT_QUERYALL_REQUEST` asks for; none when there is no such slot. -/
def queriedSlots (slotID : UInt16) (slots : List LocalResource) : Option (List LocalResource) :=
  if slotID = pofsidAll then some slots else (slots.find? fun lr => lr.slotID = slotID).map fun lr => [lr]

/-- `POF_INVALID_SLOT_ID`. -/
def invalidSlot : PofError := ⟨.softwareFailed, .pofInvalidSlotId⟩

/-- `case POFT_QUERYALL_REQUEST` of `pof_parse_msg_from_controller`. -/
def queryallRequest (slotID : UInt16) (slots : List LocalResource) (env : QueryEnv) (queue : List Buf) :
    Ret × List Buf :=
  match queriedSlots slotID slots with
  | none =>
      (.error invalidSlot, pofecReplyError invalidSlot.report env.devId (env.reply 0) queue)
  | some lrs =>
      match replyEach (fun lr queue => poflrReplyQueryall lr env queue) lrs queue with
      | (.error e, queue) => (.error e, queue)
      | (.ok (), queue) => pofecReplyMsg poftQueryallFin (env.reply 0) [] queue

/-! ### What a controller reads -/

/-- The contents of one message. -/
inductive Report
  | table (table : PofFlowTable)
  | entry (flow : PofFlowEntry)
  | group (group : PofGroup)
  | meter (meterId rate : UInt32)
  | counter (counterId : UInt32) (value byteValue : UInt64)

/-- The body of a message of the given type, as a controller reads it: the slot and the contents.  The
structures are those of the requests, converted to host order. -/
def decodeBody (type : UInt8) (body : Buf) : Option (UInt16 × Report) :=
  match type.toNat with
  | 18 =>
      let b := pofNtoHTransferFlowTable body
      some (half b 10, .table (flowTableOf b))
  | 15 =>
      let b := pofNtoHTransferFlowEntry body
      some (half b 36, .entry (flowEntryOf b))
  | 16 =>
      let b := pofNtoHTransferGroup body
      some (half b 12, .group (groupMsgOf b))
  | 30 =>
      let b := pofNtoHTransferMeter body
      some (half b 2, .meter (meterOf b).1 (meterOf b).2)
  | 33 =>
      let b := pofNtoHTransferCounter body
      some (half b 2, .counter (counterOf b).1 (counterOf b).2.1 (counterOf b).2.2)
  | _ => none

/-- A message as a controller reads it. -/
def decodeReport (m : Buf) : Option (UInt16 × Report) := decodeBody (Header.type m) (m.drop headerSize)

/-- The identifier of a table within its type. -/
def LocalResource.tableId (lr : LocalResource) (t : TableInfo) : UInt8 :=
  ((poflrTableIDToId t.id lr).map Prod.snd).getD 0

/-- **What a slot has to report**: its tables, the entries of each, its groups, meters and counters. -/
def LocalResource.reports (lr : LocalResource) : List (UInt16 × Report) :=
  (lr.tableIdMap.order.map (fun t => Report.table (t.message lr)) ++
    lr.tableIdMap.order.flatMap (fun t => t.entryMap.order.map fun e =>
      Report.entry (e.message (lr.tableId t) (UInt8.ofNat t.type.toNat))) ++
    lr.groupMap.order.map (fun g => Report.group g.message) ++
    lr.meterMap.order.map (fun m => Report.meter m.id m.rate) ++
    lr.counterMap.order.map (fun c => Report.counter c.id c.value c.byteValue)).map fun r => (lr.slotID, r)

/-- `xid`, in the header that the bytes start with. -/
def Header.xid (b : Buf) : UInt32 := UInt32.ofNat (loadBE (b.drop 4) 4)

theorem xid_upwardMsg (type : UInt8) (xid : UInt32) (body : Buf) : Header.xid (upwardMsg type xid body) = xid := by
  have hbytes : ∀ n : ℕ, n < 2 ^ 32 → loadBE (storeBE n 4 ++ body) 4 = n := by
    intro n hn
    have hload : loadBE (storeBE n 4 ++ body) 4 =
        (((u8 (n >>> 24)).toNat * 256 + (u8 (n >>> 16)).toNat) * 256 + (u8 (n >>> 8)).toNat) * 256 +
          (u8 (n >>> 0)).toNat := by
      simp [loadBE, storeBE, List.range_succ, rd]
    simp only [hload, toNat_u8, Nat.shiftRight_eq_div_pow]
    omega
  have hdrop : (upwardMsg type xid body).drop 4 = storeBE xid.toNat 4 ++ body := rfl
  rw [Header.xid, hdrop, hbytes _ xid.toNat_lt, UInt32.ofNat_toNat]

/-! ### What one reply says -/

/-- A call queues messages that answer the request and decode to the given reports, and then returns `ret`. -/
def Says (env : QueryEnv) (call : List Buf → Ret × List Buf) (reports : List (UInt16 × Report)) (ret : Ret) :
    Prop :=
  ∀ queue, ∃ msgs, call queue = (ret, queue ++ msgs) ∧ msgs.map decodeReport = reports.map some ∧
    ∀ m ∈ msgs, IsMessage m ∧ Header.xid m = env.xid

section Says

variable {env : QueryEnv} {call : List Buf → Ret × List Buf} {reports : List (UInt16 × Report)}

/-- One message that fits the buffers. -/
theorem Says.of_msg (hsends : env.state.sends = true) (type : UInt8) (addr : ℕ) {body : Buf}
    {r : UInt16 × Report} (hfits : headerSize + body.length ≤ recvBufMaxSize)
    (hdecode : decodeBody type body = some r) :
    Says env (pofecReplyMsg type (env.reply addr) body) [r] (.ok ()) := by
  intro queue
  refine ⟨[upwardMsg type env.xid body], ?_, ?_, ?_⟩
  · have hsent : (env.reply addr).state.sends = true := hsends
    rw [pofecReplyMsg_eq hfits, hsent]
    rfl
  · have hread : decodeReport (upwardMsg type env.xid body) = decodeBody type body := by
      rw [decodeReport, drop_upwardMsg]
      rfl
    rw [List.map_singleton, hread, hdecode]
    rfl
  · intro m hm
    obtain rfl := List.mem_singleton.1 hm
    exact ⟨isMessage_upwardMsg (Nat.lt_of_le_of_lt hfits (by decide)), xid_upwardMsg _ _ _⟩

/-- Nothing is queued. -/
theorem Says.nil {α : Type} {reply : α → List Buf → Ret × List Buf} :
    Says env (replyEach reply []) [] (.ok ()) :=
  fun queue => ⟨[], by rw [List.append_nil]; rfl, rfl, by simp⟩

/-- The first turn of a loop and the rest of it. -/
theorem Says.cons {α : Type} {reply : α → List Buf → Ret × List Buf} {a : α} {as : List α} {ret : Ret}
    {rest : List (UInt16 × Report)} (h : Says env (reply a) reports (.ok ()))
    (h' : Says env (replyEach reply as) rest ret) :
    Says env (replyEach reply (a :: as)) (reports ++ rest) ret := by
  intro queue
  obtain ⟨msgs, hcall, hdecode, hmsgs⟩ := h queue
  obtain ⟨msgs', hcall', hdecode', hmsgs'⟩ := h' (queue ++ msgs)
  refine ⟨msgs ++ msgs', ?_, ?_, ?_⟩
  · rw [replyEach, hcall]
    simp only
    rw [hcall', List.append_assoc]
  · rw [List.map_append, hdecode, hdecode', List.map_append]
  · intro m hm
    exact (List.mem_append.1 hm).elim (hmsgs m) (hmsgs' m)

/-- A loop of one turn. -/
theorem Says.one {α : Type} {reply : α → List Buf → Ret × List Buf} {a : α} {ret : Ret}
    (h : Says env (reply a) reports ret) : Says env (replyEach reply [a]) reports ret := by
  intro queue
  obtain ⟨msgs, hcall, hmsgs⟩ := h queue
  refine ⟨msgs, ?_, hmsgs⟩
  rw [replyEach, hcall]
  rcases ret with e | _ <;> rfl

/-- **A loop says what its turns say, one after the other.** -/
theorem Says.replyEach {α : Type} {reply : α → List Buf → Ret × List Buf} {f : α → List (UInt16 × Report)}
    {l : List α} (h : ∀ a ∈ l, Says env (reply a) (f a) (.ok ())) :
    Says env (PofSwitch.replyEach reply l) (l.flatMap f) (.ok ()) := by
  induction l with
  | nil => exact Says.nil
  | cons a as ih =>
      rw [List.flatMap_cons]
      exact (h a List.mem_cons_self).cons (ih fun b hb => h b (List.mem_cons_of_mem a hb))

/-- A loop with one message in each turn. -/
theorem Says.replyEach_map {α : Type} {reply : α → List Buf → Ret × List Buf} {f : α → UInt16 × Report}
    {l : List α} (h : ∀ a ∈ l, Says env (reply a) [f a] (.ok ())) :
    Says env (PofSwitch.replyEach reply l) (l.map f) (.ok ()) := by
  rw [List.map_eq_flatMap]
  exact Says.replyEach h

end Says

/-! ### Bodies that come back from their conversion -/

section Bodies

variable {b : Buf}

theorem decodeBody_table (h : pofNtoHTransferFlowTable (pofNtoHTransferFlowTable b) = b) :
    decodeBody MsgType.tableMod.code (pofNtoHTransferFlowTable b) = some (half b 10, .table (flowTableOf b)) := by
  change some (half (pofNtoHTransferFlowTable (pofNtoHTransferFlowTable b)) 10,
    Report.table (flowTableOf (pofNtoHTransferFlowTable (pofNtoHTransferFlowTable b)))) = _
  rw [h]

theorem decodeBody_entry (h : pofNtoHTransferFlowEntry (pofHtoNTransferFlowEntry b) = b) :
    decodeBody poftFlowMod (pofHtoNTransferFlowEntry b) = some (half b 36, .entry (flowEntryOf b)) := by
  change some (half (pofNtoHTransferFlowEntry (pofHtoNTransferFlowEntry b)) 36,
    Report.entry (flowEntryOf (pofNtoHTransferFlowEntry (pofHtoNTransferFlowEntry b)))) = _
  rw [h]

theorem decodeBody_group (h : pofNtoHTransferGroup (pofNtoHTransferGroup b) = b) :
    decodeBody MsgType.groupMod.code (pofNtoHTransferGroup b) = some (half b 12, .group (groupMsgOf b)) := by
  change some (half (pofNtoHTransferGroup (pofNtoHTransferGroup b)) 12,
    Report.group (groupMsgOf (pofNtoHTransferGroup (pofNtoHTransferGroup b)))) = _
  rw [h]

theorem decodeBody_meter (h : pofNtoHTransferMeter (pofNtoHTransferMeter b) = b) :
    decodeBody MsgType.meterMod.code (pofNtoHTransferMeter b) =
      some (half b 2, .meter (meterOf b).1 (meterOf b).2) := by
  change some (half (pofNtoHTransferMeter (pofNtoHTransferMeter b)) 2,
    Report.meter (meterOf (pofNtoHTransferMeter (pofNtoHTransferMeter b))).1
      (meterOf (pofNtoHTransferMeter (pofNtoHTransferMeter b))).2) = _
  rw [h]

theorem decodeBody_counter (h : pofNtoHTransferCounter (pofNtoHTransferCounter b) = b) :
    decodeBody poftCounterReply (pofNtoHTransferCounter b) =
      some (half b 2, .counter (counterOf b).1 (counterOf b).2.1 (counterOf b).2.2) := by
  change some (half (pofNtoHTransferCounter (pofNtoHTransferCounter b)) 2,
    Report.counter (counterOf (pofNtoHTransferCounter (pofNtoHTransferCounter b))).1
      (counterOf (pofNtoHTransferCounter (pofNtoHTransferCounter b))).2.1
      (counterOf (pofNtoHTransferCounter (pofNtoHTransferCounter b))).2.2) = _
  rw [h]

end Bodies

section Messages

variable {lr : LocalResource} {env : QueryEnv}

/-- The arrays of a stored table are whole. -/
theorem shaped_tableMessage {t : TableInfo} (hmatch : t.match_.length = maxMatchFieldNum) :
    (t.message lr).Shaped := ⟨length_strncpy _ _, hmatch⟩

theorem replyTable_says (hsends : env.state.sends = true) {t : TableInfo}
    (hmatch : t.match_.length = maxMatchFieldNum) :
    Says env (fun queue => replyTable lr env queue t) [(lr.slotID, .table (t.message lr))] (.ok ()) := by
  have hcall : (fun queue => replyTable lr env queue t) =
      pofecReplyMsg MsgType.tableMod.code (env.reply t.addr) (pofNtoHTransferFlowTable
        (flowTableBytes (env.mem t.addr) queryResult lr.slotID (t.message lr))) := rfl
  rw [hcall]
  refine Says.of_msg hsends MsgType.tableMod.code t.addr ?_ ?_
  · rw [pofNtoHTransferFlowTable, length_transfer, length_flowTableBytes]
    decide
  · rw [decodeBody_table (pofNtoHTransferFlowTable_twice length_flowTableBytes), half_flowTableBytes,
      flowTableOf_flowTableBytes (shaped_tableMessage hmatch)]

/-- The slot of a flow entry. -/
theorem half_flowEntryBytes {mem : Buf} {command : UInt8} {slotID : UInt16} {flow : PofFlowEntry} :
    half (flowEntryBytes mem command slotID flow) 36 = slotID := by
  refine half_eq_of_loadWord ?_
  rw [flowEntryBytes, loadWord_append (by rw [length_flowEntryHead]; decide), flowEntryHead]
  exact loadWord_field (by simp) (by simp)

/-- The table id in the reply is the one of the table, not what the memory held. -/
theorem replyEntry_eq {t : TableInfo} {e : EntryInfo} (hid : (poflrTableIDToId t.id lr).isSome)
    (renv : ReplyEnv) (queue : List Buf) :
    replyEntry e t lr renv queue = pofecReplyMsg poftFlowMod renv (pofHtoNTransferFlowEntry
      (flowEntryBytes renv.mem poffcQueryResult lr.slotID
        (e.message (lr.tableId t) (UInt8.ofNat t.type.toNat)))) queue := by
  obtain ⟨p, hp⟩ := Option.isSome_iff_exists.1 hid
  simp only [replyEntry, EntryInfo.message, LocalResource.tableId, hp, Option.map_some, Option.getD_some]

theorem replyEntry_says (hsends : env.state.sends = true) {t : TableInfo} {e : EntryInfo}
    (hstored : EntryStored t e) (hid : (poflrTableIDToId t.id lr).isSome) :
    Says env (replyEntry e t lr (env.reply e.addr))
      [(lr.slotID, .entry (e.message (lr.tableId t) (UInt8.ofNat t.type.toNat)))] (.ok ()) := by
  have hcodable := hstored.codable (lr.tableId t) (UInt8.ofNat t.type.toNat)
  have hcall := funext fun queue => replyEntry_eq (e := e) hid (env.reply e.addr) queue
  rw [hcall]
  refine Says.of_msg hsends poftFlowMod e.addr ?_ ?_
  · rw [pofHtoNTransferFlowEntry, length_transferFlowEntry length_instructionHtoN, length_flowEntryBytes]
    decide
  · rw [decodeBody_entry (pofNtoH_pofHtoN_flowEntry length_flowEntryBytes hcodable.flowEntryOk),
      half_flowEntryBytes, flowEntryOf_flowEntryBytes hcodable.shaped]

theorem replyGroup_says (hsends : env.state.sends = true) {g : GroupInfo} (hcodable : g.Codable) :
    Says env (fun queue => replyGroup lr env queue g) [(lr.slotID, .group g.message)] (.ok ()) := by
  have hcall : (fun queue => replyGroup lr env queue g) =
      pofecReplyMsg MsgType.groupMod.code (env.reply g.addr) (pofNtoHTransferGroup
        (groupBytes (env.mem g.addr) queryResult lr.slotID g.message)) := rfl
  rw [hcall]
  refine Says.of_msg hsends MsgType.groupMod.code g.addr ?_ ?_
  · rw [pofNtoHTransferGroup, length_onData (length_eachSlice length_action _), length_transfer,
      length_groupBytes]
    decide
  · rw [decodeBody_group (pofNtoHTransferGroup_groupBytes hcodable.actions hcodable.length_action),
      half_groupBytes, groupMsgOf_groupBytes ⟨hcodable.length_action, hcodable.data⟩]

theorem replyMeter_says (hsends : env.state.sends = true) (m : MeterInfo) :
    Says env (fun queue => replyMeter lr env queue m) [(lr.slotID, .meter m.id m.rate)] (.ok ()) := by
  have hcall : (fun queue => replyMeter lr env queue m) =
      pofecReplyMsg MsgType.meterMod.code (env.reply m.addr) (pofNtoHTransferMeter
        (meterBytes (env.mem m.addr) queryResult lr.slotID m.id m.rate)) := rfl
  rw [hcall]
  refine Says.of_msg hsends MsgType.meterMod.code m.addr ?_ ?_
  · rw [pofNtoHTransferMeter, length_transfer, length_meterBytes]
    decide
  · rw [decodeBody_meter (pofNtoHTransferMeter_twice length_meterBytes), half_meterBytes, meterOf_meterBytes]

theorem replyCounter_says (hsends : env.state.sends = true) (c : CounterInfo) :
    Says env (fun queue => replyCounter lr env queue c)
      [(lr.slotID, .counter c.id c.value c.byteValue)] (.ok ()) := by
  have hcall : (fun queue => replyCounter lr env queue c) =
      pofecReplyMsg poftCounterReply (env.reply c.addr) (pofNtoHTransferCounter
        (counterBytes (env.mem c.addr) queryResult lr.slotID c.id c.value c.byteValue)) := rfl
  rw [hcall]
  refine Says.of_msg hsends poftCounterReply c.addr ?_ ?_
  · rw [pofNtoHTransferCounter, length_transfer, length_counterBytes]
    decide
  · rw [decodeBody_counter (pofNtoHTransferCounter_twice length_counterBytes), half_counterBytes,
      counterOf_counterBytes]

end Messages

/-! ### What the loops say -/

section Slot

variable {nums : Vector UInt16 4} {lr : LocalResource} {env : QueryEnv}

/-- Every table has an identifier within its type. -/
theorem isSome_tableIDToId (hfit : TablesFit nums) (hrun : SwitchRun lr)
    (hnums : lr.tableNumMaxEachType = nums.toList) {t : TableInfo} (ht : t ∈ lr.tableIdMap.nodes) :
    (poflrTableIDToId t.id lr).isSome := by
  obtain ⟨id, hallowed, hid⟩ := (placed_of_switchRun hrun hnums).id_eq t ht
  rw [hid, hfit.inverse hnums hallowed]
  rfl

/-- **What is queued for a slot**: what the slot has to report, whatever the caller finds as the result of
`poflr_reply_counter_all`. -/
theorem poflrReplyQueryall_says (hfit : TablesFit nums) (hrun : CodableRun lr)
    (hnums : lr.tableNumMaxEachType = nums.toList) (hsends : env.state.sends = true) :
    Says env (poflrReplyQueryall lr env) lr.reports (env.unreturned lr.slotID) := by
  have hreportable := reportable_of_run hrun
  have htables : Says env (poflrReplyTableAll lr env)
      (lr.tableIdMap.order.map fun t => (lr.slotID, Report.table (t.message lr))) (.ok ()) := by
    refine Says.replyEach_map fun t ht => ?_
    exact replyTable_says hsends (hreportable.tables t (lr.tableIdMap.mem_order.1 ht)).1
  have hentries : Says env (poflrReplyEntryAll lr env) (lr.tableIdMap.order.flatMap fun t =>
      t.entryMap.order.map fun e =>
        (lr.slotID, Report.entry (e.message (lr.tableId t) (UInt8.ofNat t.type.toNat)))) (.ok ()) := by
    refine Says.replyEach fun t ht => Says.replyEach_map fun e he => ?_
    have ht := lr.tableIdMap.mem_order.1 ht
    exact replyEntry_says hsends (hreportable.entries t ht e (t.entryMap.mem_order.1 he))
      (isSome_tableIDToId hfit hrun.switchRun hnums ht)
  have hgroups : Says env (poflrReplyGroupAll lr env)
      (lr.groupMap.order.map fun g => (lr.slotID, Report.group g.message)) (.ok ()) := by
    refine Says.replyEach_map fun g hg => ?_
    exact replyGroup_says hsends (hreportable.groups g (lr.groupMap.mem_order.1 hg))
  have hmeters : Says env (poflrReplyMeterAll lr env)
      (lr.meterMap.order.map fun m => (lr.slotID, Report.meter m.id m.rate)) (.ok ()) :=
    Says.replyEach_map fun m _ => replyMeter_says hsends m
  have hloop : Says env (replyEach (fun c queue => replyCounter lr env queue c) lr.counterMap.order)
      (lr.counterMap.order.map fun c => (lr.slotID, Report.counter c.id c.value c.byteValue)) (.ok ()) :=
    Says.replyEach_map fun c _ => replyCounter_says hsends c
  have hcounters : Says env (poflrReplyCounterAll lr env)
      (lr.counterMap.order.map fun c => (lr.slotID, Report.counter c.id c.value c.byteValue))
        (env.unreturned lr.slotID) := by
    intro queue
    obtain ⟨msgs, hcall, hmsgs⟩ := hloop queue
    exact ⟨msgs, by rw [poflrReplyCounterAll, hcall], hmsgs⟩
  simp only [LocalResource.reports, List.map_append, List.map_map, List.map_flatMap, List.append_assoc,
    Function.comp_def]
  change Says env (replyEach (fun replyAll queue => replyAll lr env queue) [poflrReplyTableAll,
    poflrReplyEntryAll, poflrReplyGroupAll, poflrReplyMeterAll, poflrReplyCounterAll]) _ _
  refine Says.cons ?_ (Says.cons ?_ (Says.cons ?_ (Says.cons ?_ (Says.one ?_))))
  · exact htables
  · exact hentries
  · exact hgroups
  · exact hmeters
  · exact hcounters

end Slot

/-! ### The request -/

/-- A slot whose identifiers fit and whose contents can be sent back. -/
structure Queryable (nums : Vector UInt16 4) (lr : LocalResource) : Prop where
  run : CodableRun lr
  nums_eq : lr.tableNumMaxEachType = nums.toList

theorem mem_of_queriedSlots {slotID : UInt16} {slots lrs : List LocalResource}
    (h : queriedSlots slotID slots = some lrs) : ∀ lr ∈ lrs, lr ∈ slots := by
  intro lr hlr
  unfold queriedSlots at h
  split_ifs at h with hall
  · cases h
    exact hlr
  · obtain ⟨found, hfound, rfl⟩ := Option.map_eq_some_iff.1 h
    obtain rfl := List.mem_singleton.1 hlr
    exact List.mem_of_find?_eq_some hfound

/-- **A query for everything is answered completely**: with at most 256 tables, for slots that codable
requests and any packets have led to, it fails when there is no slot with the number; otherwise the messages
in front of the `POFT_QUERYALL_FIN` carry the `xid` of the request, and decode to what the slots have to
report, slot by slot, all of it and once. -/
theorem queryall_complete {nums : Vector UInt16 4} (htotal : (nums.toList.map UInt16.toNat).sum ≤ 256)
    {slots : List LocalResource} (hslots : ∀ lr ∈ slots, Queryable nums lr) {env : QueryEnv}
    (hsends : env.state.sends = true) (hret : ∀ lr ∈ slots, env.unreturned lr.slotID = .ok ())
    (slotID : UInt16) (queue : List Buf) :
    match queriedSlots slotID slots with
    | none => queryallRequest slotID slots env queue =
        (.error invalidSlot, queue ++ [errorMsg invalidSlot.report env.devId env.xid (env.mem 0)])
    | some lrs => ∃ msgs, queryallRequest slotID slots env queue =
          (.ok (), queue ++ msgs ++ [upwardMsg poftQueryallFin env.xid []]) ∧
        msgs.map decodeReport = (lrs.flatMap LocalResource.reports).map some ∧
        ∀ m ∈ msgs, IsMessage m ∧ Header.xid m = env.xid := by
  cases hqueried : queriedSlots slotID slots with
  | none =>
      have hsent : (env.reply 0).state.sends = true := hsends
      simp only
      rw [queryallRequest, hqueried]
      simp only
      rw [pofecReplyError_eq (fits_report _) _ hsent]
      rfl
  | some lrs =>
      simp only
      have hloop : Says env (replyEach (fun lr queue => poflrReplyQueryall lr env queue) lrs)
          (lrs.flatMap LocalResource.reports) (.ok ()) := by
        refine Says.replyEach fun lr hlr => ?_
        have hmem := mem_of_queriedSlots hqueried lr hlr
        have hsays := poflrReplyQueryall_says (tablesFit_of_sum_le htotal) (hslots lr hmem).run
          (hslots lr hmem).nums_eq hsends
        rwa [hret lr hmem] at hsays
      obtain ⟨msgs, hcall, hdecode, hmsgs⟩ := hloop queue
      refine ⟨msgs, ?_, hdecode, hmsgs⟩
      have hsent : (env.reply 0).state.sends = true := hsends
      have hfits : headerSize + ([] : Buf).length ≤ recvBufMaxSize := by decide
      rw [queryallRequest, hqueried]
      simp only
      rw [hcall]
      simp only
      rw [pofecReplyMsg_eq hfits, hsent]
      rfl

/-- A request for a table with one empty field. -/
def wholeTable : PofFlowTable := { oneFieldTable 0 0 with match_ := List.replicate maxMatchFieldNum ⟨0, 0, 0⟩ }

/-- A request for a group with one `OUTPUT`. -/
def outputGroup : PofGroup where
  type := 0
  actionNumber := 1
  groupId := 2
  counterId := 1
  action := ⟨0, 20, zeros maxActionLength⟩ :: List.replicate 3 ⟨0, 0, zeros maxActionLength⟩

/-- A slot with a table, an entry, a group and a meter. -/
def queriedResource : LocalResource :=
  (LrOp.addMeterEntry 3 100 6).next <| (LrOp.addGroupEntry outputGroup 4 5).next <|
    (LrOp.addFlowEntry (flowEntryOf outputFlowEntry) 2 3).next <|
      (LrOp.createFlowTable wholeTable 1).next (pofLocalresourceInit smallConfig)

theorem codableRun_queriedResource : CodableRun queriedResource := by
  have htable := (CodableRun.init smallConfig).next (.createFlowTable wholeTable 1) rfl (by decide) rfl
  have hentry := htable.next (.addFlowEntry (flowEntryOf outputFlowEntry) 2 3)
    (PofFlowEntry.codable_of_bytes length_outputFlowEntry flowEntryOk_outputFlowEntry) (by decide) rfl
  have hcodable : outputGroup.Codable := ⟨⟨rfl, by decide⟩, by decide⟩
  have hgroup := hentry.next (.addGroupEntry outputGroup 4 5) hcodable (by decide) rfl
  exact hgroup.next (.addMeterEntry 3 100 6) trivial (by decide) rfl

/-- The query for everything, in a running channel. -/
theorem queryall_complete_one : ∃ msgs,
    queryallRequest pofsidAll [queriedResource] ⟨.run, 9, 1, fun _ => [], fun _ => .ok ()⟩ [] =
        (.ok (), msgs ++ [upwardMsg poftQueryallFin 9 []]) ∧
      msgs.map decodeReport = queriedResource.reports.map some ∧ msgs.length = 6 := by
  have hslots : ∀ lr ∈ [queriedResource], Queryable #v[1, 1, 1, 1] lr := by
    intro lr hlr
    obtain rfl := List.mem_singleton.1 hlr
    exact ⟨codableRun_queriedResource, rfl⟩
  have hsends : (⟨.run, 9, 1, fun _ => [], fun _ => .ok ()⟩ : QueryEnv).state.sends = true := rfl
  obtain ⟨msgs, hcall, hdecode, _⟩ :=
    queryall_complete (by decide) hslots hsends (fun _ _ => rfl) pofsidAll []
  refine ⟨msgs, hcall, ?_, ?_⟩
  · rw [hdecode, List.flatMap_singleton]
  · have hlength := congrArg List.length hdecode
    rw [List.length_map, List.length_map] at hlength
    exact hlength.trans (by decide)

end PofSwitch
