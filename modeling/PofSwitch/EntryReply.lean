/-
**Querying a flow entry: `poflr_reply_entry` of `local_resource/pof_flow_table.c`.**

The reply carries a stored entry back to the controller.  A field of the message that added the entry has
been copied into the entry, is copied out again, and goes through the conversion to network order; the
table has been found by its global identifier, which is taken apart again for the reply.  A field that
is dropped or exchanged on the way shows in the query only.

Main definitions:

* `PofSwitch.pofecReplyMsg`, `PofSwitch.replyEntry`, `PofSwitch.poflrReplyEntry` — the query;
* `PofSwitch.EntryRun` — runs in which an entry has been added and not changed since.

Main results:

* `PofSwitch.index_lt_of_switchRun` — every index is below the size of its table;
* `PofSwitch.carried_of_entryRun` — what holds of the entry throughout such a run;
* `PofSwitch.poflrReplyEntry_carries` — **the reply carries what the message carried**.
-/

import PofSwitch.EntryBytes
import PofSwitch.EntryIndices
import PofSwitch.SendQueue
import PofSwitch.TableIds

set_option relaxedAutoImplicit false
set_option autoImplicit false

namespace PofSwitch

open HmapNode Buf Prog

/-! ### The query -/

/-- `POFT_FLOW_MOD`. -/
def poftFlowMod : UInt8 := 15

/-- `POFFC_QUERY_RESULT`. -/
def poffcQueryResult : UInt8 := 6

/-- What a reply depends on besides the local resource: the state of the channel, `g_recv_xid`, and what
the memory for the reply holds before. -/
structure ReplyEnv where
  state : ChannelState
  xid : UInt32
  mem : Buf

/-- `pofec_reply_msg`: before the features have been requested nothing is sent, and that is no error. -/
def pofecReplyMsg (type : UInt8) (env : ReplyEnv) (body : Buf) (queue : List Buf) : Ret × List Buf :=
  if env.state.sends then
    match pofbfQueueWrite queue (upwardMsg type env.xid body) with
    | some queue => (.ok (), queue)
    | none => (.error ⟨.softwareFailed, .pofWriteMsgQueueFailure⟩, queue)
  else (.ok (), queue)

/-- `reply_entry`.  The result of `poflr_table_ID_to_id` is not checked: the table id stays what the
memory held when there is none. -/
def replyEntry (entry : EntryInfo) (table : TableInfo) (lr : LocalResource) (env : ReplyEnv)
    (queue : List Buf) : Ret × List Buf :=
  let pofEntry : PofFlowEntry :=
    { matchFieldNum := entry.matchFieldNum
      counterId := entry.counterId
      tableId := ((poflrTableIDToId table.id lr).map Prod.snd).getD (env.mem.rd 24)
      tableType := UInt8.ofNat table.type.toNat
      priority := entry.priority
      index := entry.index
      match_ := entry.match_
      instructionNum := entry.instructionNum
      instruction := entry.instruction }
  let body := flowEntryBytes env.mem poffcQueryResult lr.slotID pofEntry
  pofecReplyMsg poftFlowMod env (pofHtoNTransferFlowEntry body) queue

/-- `poflr_reply_entry`. -/
def poflrReplyEntry (tableId tableType : UInt8) (index : UInt32) (lr : LocalResource) (env : ReplyEnv)
    (queue : List Buf) : Ret × List Buf :=
  match TableType.ofUInt8 tableType with
  | none => (.error ⟨.tableModFailed, .poftmfcBadTableType⟩, queue)
  | some type =>
      if tableId.toUInt16 ≥ lr.tableNumMaxEachType.getD type.toNat 0 then
        (.error ⟨.tableModFailed, .poftmfcBadTableId⟩, queue)
      else
        match poflrGetTableWithID (poflrTableIdToID type tableId lr) lr with
        | none => (.error ⟨.tableModFailed, .poftmfcTableUnexist⟩, queue)
        | some table =>
            if index ≥ table.size then (.error ⟨.flowModFailed, .poffmfcBadEntryId⟩, queue)
            else
              match poflrEntryGetWithIndex index table with
              | none => (.error ⟨.flowModFailed, .poffmfcEntryUnexist⟩, queue)
              | some entry => replyEntry entry table lr env queue

/-! ### Indices -/

/-- **Every index is below the size of its table**, whatever requests and packets have come. -/
theorem index_lt_of_switchRun {lr : LocalResource} (h : SwitchRun lr) :
    ∀ t ∈ lr.tableIdMap.nodes, ∀ e ∈ t.entryMap.nodes, e.index < t.size := by
  induction h with
  | init cfg =>
      intro t ht
      rw [tables_pofLocalresourceInit] at ht
      simp at ht
  | request _ hfresh hexec ih =>
      intro t' ht'
      rcases (LrOp.tables_cases hexec hfresh).1 t' ht' with ⟨t, ht, hchange⟩ | ⟨msg, type, newAt, _, _, rfl⟩
      · exact hchange.index_lt (ih t ht)
      · simp [newTable]
  | packet _ hexec hr ih =>
      rw [frame_packet LocalResource.tableIdMap (fun _ _ => rfl) hexec hr]
      exact ih

/-! ### An entry that stays as it was added -/

/-- The entry is in the table with the identifiers of the message. -/
def InTable (flow : PofFlowEntry) (type : TableType) (e : EntryInfo) (lr : LocalResource) : Prop :=
  ∃ t ∈ lr.tableIdMap.nodes, t.id = poflrTableIdToID type flow.tableId lr ∧ e ∈ t.entryMap.nodes

/-- The states of runs in which `poflr_add_flow_entry` has put the entry into its table, and requests and
packets since then have left it there as it was. -/
inductive EntryRun (flow : PofFlowEntry) (type : TableType) (e : EntryInfo) : LocalResource → Prop
  | added {lr lr' : LocalResource} {entryAt counterAt : ℕ} {ret : Ret} : SwitchRun lr →
      (LrOp.addFlowEntry flow entryAt counterAt).Fresh lr →
      poflrAddFlowEntry flow entryAt counterAt lr = some (ret, lr') →
      TableType.ofUInt8 flow.tableType = some type → e.addr = entryAt → InTable flow type e lr' →
      EntryRun flow type e lr'
  | request {lr lr' : LocalResource} {op : LrOp} {ret : Ret} : EntryRun flow type e lr → op.Fresh lr →
      op.exec lr = some (ret, lr') → InTable flow type e lr' → EntryRun flow type e lr'
  | packet {env : DpEnv} {portId : UInt8} {packet : Buf} {fuel : ℕ} {lr : LocalResource}
      {r : Except Halt Unit} {t : DpState} : EntryRun flow type e lr →
      exec (pofdpInstructionExecute env fuel) (pofdpForward portId packet lr) = (r, t) →
      r ≠ .error .fuel → EntryRun flow type e t.lr

/-- The message passed the check of the table id. -/
theorem flowModTable_allowed {flow : PofFlowEntry} {lr : LocalResource} {t : TableInfo} {type : TableType}
    (h : flowModTable flow lr = .ok t) (htype : TableType.ofUInt8 flow.tableType = some type) :
    TableAllowed lr type flow.tableId := by
  simp only [flowModTable, htype] at h
  split_ifs at h with hid
  exact UInt16.not_le.1 hid

section Run

variable {nums : Vector UInt16 4} {flow : PofFlowEntry} {type : TableType} {e : EntryInfo}
  {lr : LocalResource}

/-- What holds of the entry throughout such a run. -/
structure Carried (flow : PofFlowEntry) (type : TableType) (e : EntryInfo) (lr : LocalResource) : Prop where
  switchRun : SwitchRun lr
  inTable : InTable flow type e lr
  type_eq : TableType.ofUInt8 flow.tableType = some type
  allowed : TableAllowed lr type flow.tableId
  filled : ∃ entryAt t, t.type = type ∧ Filled flow entryAt t e

theorem InTable.congr {lr' : LocalResource} (h : InTable flow type e lr)
    (hnums : lr'.tableNumMaxEachType = lr.tableNumMaxEachType) (htables : lr'.tableIdMap = lr.tableIdMap) :
    InTable flow type e lr' := by
  obtain ⟨t, ht, hid, he⟩ := h
  exact ⟨t, htables ▸ ht, hid.trans (poflrTableIdToID_congr hnums _ _).symm, he⟩

/-- The addition: the entry at the new address is the one that has been filled. -/
theorem carried_added {lr' : LocalResource} {entryAt counterAt : ℕ} {ret : Ret} (hfit : TablesFit nums)
    (hrun : SwitchRun lr) (hnums : lr.tableNumMaxEachType = nums.toList)
    (hfresh : (LrOp.addFlowEntry flow entryAt counterAt).Fresh lr)
    (hexec : poflrAddFlowEntry flow entryAt counterAt lr = some (ret, lr'))
    (htype : TableType.ofUInt8 flow.tableType = some type) (haddr : e.addr = entryAt)
    (hin : InTable flow type e lr') : Carried flow type e lr' := by
  obtain ⟨htables, hlimits⟩ := tablesBy_addFlowEntry hfresh hexec
  have hsame : lr'.tableNumMaxEachType = lr.tableNumMaxEachType := congrArg Limits.tableNumMaxEachType hlimits
  obtain ⟨t', ht', hid, he⟩ := hin
  have hin : InTable flow type e lr' := ⟨t', ht', hid, he⟩
  rw [poflrTableIdToID_congr hsame] at hid
  rcases htables t' ht' with ⟨t, ht, hchange⟩ | ⟨_, _, _, hop, _⟩
  · -- no entry had the address before
    have hnew : e ∉ t.entryMap.nodes := by
      intro hold
      have hfree := hfresh.mem_frees ht hold (by simp [LrOp.allocs]) haddr
      simp [LrOp.frees] at hfree
    have hid_t : t.id = poflrTableIdToID type flow.tableId lr :=
      hchange.tableChange.sameShape.id_eq.symm.trans hid
    cases hchange with
    | same => exact absurd he hnew
    | insert hmod _ hfill _ =>
        rw [nodes_entryLink] at he
        have hallowed := flowModTable_allowed hmod htype
        constructor
        case switchRun =>
          have hstep : (LrOp.addFlowEntry flow entryAt counterAt).exec lr = some (ret, lr') := hexec
          exact hrun.request hfresh hstep
        case inTable => exact hin
        case type_eq => exact htype
        case allowed => exact (tableAllowed_congr hsame _ _).2 hallowed
        case filled =>
          rcases List.mem_cons.1 he with rfl | he
          · exact ⟨entryAt, t, (placed_of_switchRun hrun hnums).type_eq hfit ht hallowed hid_t, hfill⟩
          · exact absurd he hnew
  · cases hop

/-- **Throughout a run that leaves the entry as it was added, it is in its table and holds what the
message held.** -/
theorem carried_of_entryRun (hfit : TablesFit nums) (h : EntryRun flow type e lr)
    (hnums : lr.tableNumMaxEachType = nums.toList) : Carried flow type e lr := by
  induction h with
  | added hrun hfresh hexec htype haddr hin =>
      have hlimits := (tablesBy_addFlowEntry hfresh hexec).2
      have hsame := congrArg Limits.tableNumMaxEachType hlimits
      exact carried_added hfit hrun (hsame.symm.trans hnums) hfresh hexec htype haddr hin
  | request _ hfresh hexec hin ih =>
      have hlimits := (LrOp.tables_cases hexec hfresh).2
      have hsame := congrArg Limits.tableNumMaxEachType hlimits
      have hbefore := ih (hsame.symm.trans hnums)
      exact { hbefore with
        switchRun := hbefore.switchRun.request hfresh hexec
        inTable := hin
        allowed := (tableAllowed_congr hsame _ _).2 hbefore.allowed }
  | packet _ hexec hr ih =>
      have hsame := frame_packet LocalResource.tableNumMaxEachType (fun _ _ => rfl) hexec hr
      have htables := frame_packet LocalResource.tableIdMap (fun _ _ => rfl) hexec hr
      have hbefore := ih (hsame.symm.trans hnums)
      exact { hbefore with
        switchRun := hbefore.switchRun.packet hexec hr
        inTable := hbefore.inTable.congr hsame htables
        allowed := (tableAllowed_congr hsame _ _).2 hbefore.allowed }

end Run

/-! ### The reply -/

/-- What a `POFT_FLOW_MOD` carries: its body, decoded with `pof_NtoH_transfer_flow_entry`. -/
def flowModEntry (body : Buf) : PofFlowEntry := flowEntryOf (pofNtoHTransferFlowEntry body)

theorem drop_upwardMsg (type : UInt8) (xid : UInt32) (body : Buf) :
    (upwardMsg type xid body).drop headerSize = body :=
  List.drop_left' (length_pofscBuildHeader _ _ _)

/-- A body that fits the buffers is sent where the channel sends at all. -/
theorem pofecReplyMsg_eq {body : Buf} (h : headerSize + body.length ≤ recvBufMaxSize) (type : UInt8)
    (env : ReplyEnv) (queue : List Buf) :
    pofecReplyMsg type env body queue =
      (.ok (), if env.state.sends then queue ++ [upwardMsg type env.xid body] else queue) := by
  have hwrite : pofbfQueueWrite queue (upwardMsg type env.xid body) =
      some (queue ++ [upwardMsg type env.xid body]) := by
    rw [pofbfQueueWrite, length_upwardMsg, if_neg (Nat.not_lt.2 h)]
  rw [pofecReplyMsg, hwrite]
  split_ifs <;> rfl

theorem ofNat_toNat_of_ofUInt8 {n : UInt8} {type : TableType} (h : TableType.ofUInt8 n = some type) :
    UInt8.ofNat type.toNat = n := by
  unfold TableType.ofUInt8 at h
  split_ifs at h with hmm hlpm hem hlinear <;> cases h
  · exact hmm.symm
  · exact hlpm.symm
  · exact hem.symm
  · exact hlinear.symm

/-- The only entry of a table with its index is found by it. -/
theorem poflrEntryGetWithIndex_eq {t : TableInfo} {e : EntryInfo} (he : e ∈ t.entryMap.nodes)
    (hsole : ∀ b ∈ t.entryMap.nodes, b.index = e.index → b = e) :
    poflrEntryGetWithIndex e.index t = some e := by
  refine Hmap.find?_eq_some_of_unique (t.entryMap.mem_order.2 he) (decide_eq_true rfl) fun b hb hindex => ?_
  exact hsole b (t.entryMap.mem_order.1 hb) (of_decide_eq_true hindex)

section Reply

variable {nums : Vector UInt16 4} {flow : PofFlowEntry} {type : TableType} {e : EntryInfo}
  {lr : LocalResource} {t : TableInfo}

/-- The query finds the table and the entry. -/
theorem Carried.poflrReplyEntry_eq (h : Carried flow type e lr) (ht : t ∈ lr.tableIdMap.nodes)
    (hid : t.id = poflrTableIdToID type flow.tableId lr) (he : e ∈ t.entryMap.nodes)
    (hsole : ∀ b ∈ t.entryMap.nodes, b.index = flow.index → b = e) (env : ReplyEnv) (queue : List Buf) :
    poflrReplyEntry flow.tableId flow.tableType flow.index lr env queue = replyEntry e t lr env queue := by
  obtain ⟨_, _, _, hfill⟩ := h.filled
  have hstore := storeOk_of_switchRun h.switchRun
  have hget : poflrGetTableWithID (poflrTableIdToID type flow.tableId lr) lr = some t := by
    have hfound : lr.tableIdMap.nodeGetWithHash t.hash = some t := hstore.tables.nodeGetWithHash ht
    rwa [hstore.table_hash t ht, hid] at hfound
  have hsize : flow.index < t.size := hfill.index_eq ▸ index_lt_of_switchRun h.switchRun t ht e he
  have hentry : poflrEntryGetWithIndex flow.index t = some e := by
    rw [← hfill.index_eq] at hsole ⊢
    exact poflrEntryGetWithIndex_eq he hsole
  simp only [poflrReplyEntry, h.type_eq, hget, hentry]
  rw [if_neg (UInt16.not_le.2 h.allowed), if_neg (UInt32.not_le.2 hsize)]

/-- The reply is made of the message: every field is the one that was copied into the entry, and the
table id is the one that the global identifier was made of. -/
theorem Carried.replyEntry_eq (h : Carried flow type e lr) (hfit : TablesFit nums)
    (hnums : lr.tableNumMaxEachType = nums.toList) (hlinear : type ≠ .linear)
    (ht : t ∈ lr.tableIdMap.nodes) (hid : t.id = poflrTableIdToID type flow.tableId lr) (env : ReplyEnv)
    (queue : List Buf) :
    replyEntry e t lr env queue = pofecReplyMsg poftFlowMod env
      (pofHtoNTransferFlowEntry (flowEntryBytes env.mem poffcQueryResult lr.slotID flow)) queue := by
  obtain ⟨_, u, hu, hfill⟩ := h.filled
  have htype : t.type = type := (placed_of_switchRun h.switchRun hnums).type_eq hfit ht h.allowed hid
  have hback := hfit.inverse hnums h.allowed
  have hpriority := hfill.priority_eq (hu ▸ hlinear)
  simp only [replyEntry, hid, hback, htype, ofNat_toNat_of_ofUInt8 h.type_eq, hfill.index_eq, hfill.counterId_eq,
    hfill.instructionNum_eq, hfill.instruction_eq, hfill.matchFieldNum_eq, hfill.matchArray_eq, hpriority,
    Option.map_some, Option.getD_some]

/-- **The reply carries what the message carried**: with at most 256 tables, an entry of a table that is
not linear, added by a well-formed message and not changed since, is sent with the same table type and id,
index, priority, counter id, match fields and instructions, if no other entry of its table has its index. -/
theorem poflrReplyEntry_carries (htotal : (nums.toList.map UInt16.toNat).sum ≤ 256) {body : Buf}
    (hlength : body.length = 2184) (hok : FlowEntryOk (pofNtoHTransferFlowEntry body))
    (hlinear : type ≠ .linear) (hrun : EntryRun (flowModEntry body) type e lr)
    (hnums : lr.tableNumMaxEachType = nums.toList)
    (hsole : ∀ u ∈ lr.tableIdMap.nodes, u.id = poflrTableIdToID type (flowModEntry body).tableId lr →
      ∀ b ∈ u.entryMap.nodes, b.index = (flowModEntry body).index → b = e)
    (env : ReplyEnv) (queue : List Buf) :
    ∃ reply, poflrReplyEntry (flowModEntry body).tableId (flowModEntry body).tableType
        (flowModEntry body).index lr env queue =
          (.ok (), if env.state.sends then queue ++ [reply] else queue) ∧
      IsMessage reply ∧ Header.type reply = poftFlowMod ∧
      flowModEntry (reply.drop headerSize) = flowModEntry body := by
  have hfit := tablesFit_of_sum_le htotal
  have hcarried := carried_of_entryRun hfit hrun hnums
  obtain ⟨t, ht, hid, he⟩ := hcarried.inTable
  have hhost : (pofNtoHTransferFlowEntry body).length = 2184 :=
    (length_transferFlowEntry length_instructionNtoH body).trans hlength
  -- the structure in memory, and what is sent of it
  set mem := flowEntryBytes env.mem poffcQueryResult lr.slotID (flowModEntry body) with hmem
  have hmem_length : mem.length = 2184 := length_flowEntryBytes
  have hsent : (pofHtoNTransferFlowEntry mem).length = 2184 :=
    (length_transferFlowEntry length_instructionHtoN mem).trans hmem_length
  have hfits : headerSize + (pofHtoNTransferFlowEntry mem).length ≤ recvBufMaxSize := by
    rw [hsent]
    decide
  refine ⟨upwardMsg poftFlowMod env.xid (pofHtoNTransferFlowEntry mem), ?_, ?_, rfl, ?_⟩
  · rw [hcarried.poflrReplyEntry_eq ht hid he (hsole t ht hid), hcarried.replyEntry_eq hfit hnums hlinear ht hid]
    exact pofecReplyMsg_eq hfits _ _ _
  · exact isMessage_upwardMsg (Nat.lt_of_le_of_lt hfits (by decide))
  · have hmem_ok : FlowEntryOk mem := flowEntryOk_flowEntryBytes hhost hok
    have hread : flowEntryOf mem = flowModEntry body := flowEntryOf_flowEntryBytes (shaped_flowEntryOf hhost)
    rw [flowModEntry, drop_upwardMsg, pofNtoH_pofHtoN_flowEntry hmem_length hmem_ok, hread]

end Reply

/-- The body of a `POFT_FLOW_MOD` with the entry `outputFlowEntry`. -/
def outputBody : Buf := pofHtoNTransferFlowEntry outputFlowEntry

theorem flowModEntry_outputBody : flowModEntry outputBody = flowEntryOf outputFlowEntry := by
  rw [flowModEntry, outputBody, pofNtoH_pofHtoN_flowEntry length_outputFlowEntry flowEntryOk_outputFlowEntry]

/-- The local resource with the entry in its masked-match table. -/
def outputResource : LocalResource :=
  (LrOp.addFlowEntry (flowEntryOf outputFlowEntry) 2 3).next
    ((LrOp.createFlowTable (oneFieldTable 0 0) 1).next (pofLocalresourceInit smallConfig))

theorem outputResource_nodes : ∃ t e, outputResource.tableIdMap.nodes = [t] ∧ t.entryMap.nodes = [e] ∧
    t.id = poflrTableIdToID .mm 0 outputResource ∧ e.addr = 2 :=
  ⟨_, _, rfl, rfl, rfl, rfl⟩

theorem entryRun_outputResource {t : TableInfo} {e : EntryInfo} (ht : outputResource.tableIdMap.nodes = [t])
    (he : t.entryMap.nodes = [e]) (hid : t.id = poflrTableIdToID .mm 0 outputResource) (haddr : e.addr = 2) :
    EntryRun (flowEntryOf outputFlowEntry) .mm e outputResource := by
  have htable := (LrRun.init (P := fun _ => True) smallConfig trivial).next
    (.createFlowTable (oneFieldTable 0 0) 1) (by decide) rfl trivial
  have hfresh : (LrOp.addFlowEntry (flowEntryOf outputFlowEntry) 2 3).Fresh
      ((LrOp.createFlowTable (oneFieldTable 0 0) 1).next (pofLocalresourceInit smallConfig)) := by decide
  have hexec : poflrAddFlowEntry (flowEntryOf outputFlowEntry) 2 3
      ((LrOp.createFlowTable (oneFieldTable 0 0) 1).next (pofLocalresourceInit smallConfig)) =
        some (.ok (), outputResource) := rfl
  refine EntryRun.added (SwitchRun.of_reachable htable) hfresh hexec rfl haddr ⟨t, ?_, hid, ?_⟩
  · rw [ht]
    exact List.mem_singleton_self t
  · rw [he]
    exact List.mem_singleton_self e

/-- The query for the entry, in a running channel. -/
theorem poflrReplyEntry_carries_output : ∃ reply,
    poflrReplyEntry 0 0 0 outputResource ⟨.run, 9, []⟩ [] = (.ok (), [reply]) ∧
      flowModEntry (reply.drop headerSize) = flowModEntry outputBody := by
  obtain ⟨t, e, ht, he, hid, haddr⟩ := outputResource_nodes
  have hlength : outputBody.length = 2184 :=
    (length_transferFlowEntry length_instructionHtoN _).trans length_outputFlowEntry
  have hok : FlowEntryOk (pofNtoHTransferFlowEntry outputBody) := by
    rw [outputBody, pofNtoH_pofHtoN_flowEntry length_outputFlowEntry flowEntryOk_outputFlowEntry]
    exact flowEntryOk_outputFlowEntry
  have hrun := entryRun_outputResource ht he hid haddr
  rw [← flowModEntry_outputBody] at hrun
  have hsole : ∀ u ∈ outputResource.tableIdMap.nodes,
      u.id = poflrTableIdToID .mm (flowModEntry outputBody).tableId outputResource →
        ∀ b ∈ u.entryMap.nodes, b.index = (flowModEntry outputBody).index → b = e := by
    intro u hu _ b hb _
    rw [ht] at hu
    rw [List.mem_singleton.1 hu, he] at hb
    exact List.mem_singleton.1 hb
  have htotal : ((#v[1, 1, 1, 1] : Vector UInt16 4).toList.map UInt16.toNat).sum ≤ 256 := by decide
  obtain ⟨reply, hreply, _, _, hcarries⟩ :=
    poflrReplyEntry_carries htotal hlength hok (by decide) hrun rfl hsole ⟨.run, 9, []⟩ []
  refine ⟨reply, ?_, hcarries⟩
  rw [flowModEntry_outputBody] at hreply
  exact hreply

end PofSwitch
