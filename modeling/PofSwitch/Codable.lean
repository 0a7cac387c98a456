/-
**Messages that can be sent back.**

What the switch stores it may have to send to the controller again, through the routines that convert
between host order and network order.  They undo each other on entries whose counts fit their arrays and
whose instructions and actions are known, and on actions with the length of one.  A message that has been
received with such contents leaves such contents behind: an entry holds the arrays of its message, and a
group those of the messages that have filled it, or zeros.

Main definitions:

* `PofSwitch.PofFlowEntry.Codable`, `PofGroup.Codable`, `LrOp.Codable` — such messages;
* `PofSwitch.CodableRun` — runs whose requests are such;
* `PofSwitch.Reportable` — what holds of everything that is stored.

Main results:

* `PofSwitch.PofFlowEntry.codable_of_bytes` — an entry that is read from a well-formed body is codable;
* `PofSwitch.LrOp.entries_cases`, `PofSwitch.LrOp.groups_filled` — where the stored entries and groups
  come from;
* `PofSwitch.reportable_of_run` — **everything that is stored can be sent back.**
-/

import PofSwitch.CounterTotals
import PofSwitch.WellFormed
import PofSwitch.Wire

set_option relaxedAutoImplicit false
set_option autoImplicit false

namespace PofSwitch

open HmapNode Buf Prog

/-! ### Entries -/

/-- An entry that its conversion to network order does not garble: the arrays are whole, the counts fit
them, and the instructions and their actions are known. -/
structure PofFlowEntry.Codable (flow : PofFlowEntry) : Prop where
  shaped : PofSwitch.Shaped flow
  matchFieldNum_le : flow.matchFieldNum.toNat ≤ maxMatchFieldNum
  instructionNum_le : flow.instructionNum.toNat ≤ maxInstructionNum
  instructions : ∀ i < flow.instructionNum.toNat,
    InstructionOk (instructionBytes [] (flow.instruction.getD i default))

/-- The padding of an instruction does not matter. -/
theorem instructionOk_pad (pad pad' : Buf) {ins : PofInstruction}
    (hdata : ins.instructionData.length = maxInstructionLength)
    (h : InstructionOk (instructionBytes pad ins)) : InstructionOk (instructionBytes pad' ins) := by
  have htype : (instructionBytes pad' ins).loadWord 0 2 = (instructionBytes pad ins).loadWord 0 2 := rfl
  rw [InstructionOk, drop_instructionBytes pad hdata] at h
  rw [InstructionOk, drop_instructionBytes pad' hdata, htype]
  exact h

namespace PofFlowEntry.Codable

variable {flow flow' : PofFlowEntry}

theorem data_getD (h : flow.Codable) {i : ℕ} (hi : i < maxInstructionNum) :
    (flow.instruction.getD i default).instructionData.length = maxInstructionLength := by
  have hlt : i < flow.instruction.length := h.shaped.length_instruction.symm ▸ hi
  rw [List.getD_eq_getElem _ _ hlt]
  exact h.shaped.data _ (List.getElem_mem hlt)

/-- It is well formed in whatever memory it is written to. -/
theorem flowEntryOk (h : flow.Codable) {mem : Buf} {command : UInt8} {slotID : UInt16} :
    FlowEntryOk (flowEntryBytes mem command slotID flow) := by
  refine ⟨h.matchFieldNum_le, h.instructionNum_le, fun i hi => ?_⟩
  have hnum : i < flow.instructionNum.toNat := hi
  have hlt : i < maxInstructionNum := Nat.lt_of_lt_of_le hnum h.instructionNum_le
  refine (congrArg InstructionOk (element_instruction hlt)).mpr ?_
  exact instructionOk_pad [] _ (h.data_getD hlt) (h.instructions i hnum)

/-- Codability is about the match fields and the instructions. -/
theorem congr (h : flow.Codable) (hmatchNum : flow'.matchFieldNum = flow.matchFieldNum)
    (hmatch : flow'.match_ = flow.match_) (hinsNum : flow'.instructionNum = flow.instructionNum)
    (hins : flow'.instruction = flow.instruction) : flow'.Codable := by
  obtain ⟨⟨hlen, hfields, hlen', hdata⟩, hle, hle', hok⟩ := h
  rw [← hmatch] at hlen hfields
  rw [← hins] at hlen' hdata
  rw [← hmatchNum] at hle
  rw [← hinsNum] at hle'
  rw [← hinsNum, ← hins] at hok
  exact ⟨⟨hlen, hfields, hlen', hdata⟩, hle, hle', hok⟩

end PofFlowEntry.Codable

/-- **An entry that is read from a well-formed body is codable.** -/
theorem PofFlowEntry.codable_of_bytes {b : Buf} (hb : b.length = 2184) (h : FlowEntryOk b) :
    (flowEntryOf b).Codable := by
  have hok : FlowEntryOk (flowEntryBytes [] 0 0 (flowEntryOf b)) := flowEntryOk_flowEntryBytes hb h
  obtain ⟨hmatch, hins, hslices⟩ := hok
  have hshaped := shaped_flowEntryOf hb
  refine ⟨hshaped, hmatch, hins, fun i hi => ?_⟩
  have hnum : i < maxInstructionNum := Nat.lt_of_lt_of_le hi hins
  have hlt : i < (flowEntryOf b).instruction.length := hshaped.length_instruction.symm ▸ hnum
  have hdata : ((flowEntryOf b).instruction.getD i default).instructionData.length = maxInstructionLength := by
    rw [List.getD_eq_getElem _ _ hlt]
    exact hshaped.data _ (List.getElem_mem hlt)
  have hslice := (congrArg InstructionOk (element_instruction hnum)).mp (hslices i hi)
  exact instructionOk_pad _ [] hdata hslice

/-- The message that a stored entry would be filled from. -/
def EntryInfo.message (tableId tableType : UInt8) (e : EntryInfo) : PofFlowEntry where
  matchFieldNum := e.matchFieldNum
  instructionNum := e.instructionNum
  counterId := e.counterId
  tableId := tableId
  tableType := tableType
  priority := e.priority
  index := e.index
  match_ := e.match_
  instruction := e.instruction

/-! ### Groups -/

/-- A group whose actions, as far as they are stored, come back from their conversion. -/
structure PofGroup.Codable (g : PofGroup) : Prop where
  shaped : g.Shaped
  actions : ∀ a ∈ g.action.take g.actionNumber.toNat, ActionCodable a

/-- The array of a stored group is whole, and its actions come back from their conversion. -/
structure GroupInfo.Codable (g : GroupInfo) : Prop where
  length_action : g.action.length = maxActionNumberPerGroup
  data : ∀ a ∈ g.action, a.actionData.length = maxActionLength
  actions : ∀ a ∈ g.action, ActionCodable a

theorem codable_mapGroupCreate (newAt : ℕ) : (mapGroupCreate newAt).Codable where
  length_action := rfl
  data := by
    intro a ha
    rw [List.eq_of_mem_replicate ha]
    exact Buf.length_zeros _
  actions := fun a ha => Or.inr (List.eq_of_mem_replicate ha)

/-- A group that is filled over a codable one is codable. -/
theorem PofGroup.Codable.groupFill {msg : PofGroup} {g : GroupInfo} (h : msg.Codable) (hg : g.Codable) :
    (groupFill msg g).Codable := by
  have hmem : ∀ a ∈ (PofSwitch.groupFill msg g).action,
      a ∈ msg.action.take msg.actionNumber.toNat ∨ a ∈ g.action := by
    intro a ha
    rcases List.mem_append.1 ha with ha | ha
    · exact Or.inl ha
    · exact Or.inr (List.mem_of_mem_drop ha)
  constructor
  · have hmsg := h.shaped.length_action
    have hold := hg.length_action
    simp only [PofSwitch.groupFill, List.length_append, List.length_take, List.length_drop]
    omega
  · intro a ha
    rcases hmem a ha with ha | ha
    · exact h.shaped.data a (List.mem_of_mem_take ha)
    · exact hg.data a ha
  · intro a ha
    rcases hmem a ha with ha | ha
    · exact h.actions a ha
    · exact hg.actions a ha

/-! ### Requests -/

/-- A request whose message, as far as it is stored, can be sent back. -/
def LrOp.Codable : LrOp → Prop
  | .createFlowTable msg _ => msg.match_.length = maxMatchFieldNum
  | .addFlowEntry flow _ _ | .modifyFlowEntry flow _ _ => flow.Codable
  | .addGroupEntry group _ _ | .modifyGroupEntry group => group.Codable
  | _ => True

/-- The states of runs, requests and packets in any order, whose requests are codable. -/
inductive CodableRun : LocalResource → Prop
  | init (cfg : LrConfig) : CodableRun (pofLocalresourceInit cfg)
  | request {lr lr' : LocalResource} {op : LrOp} {ret : Ret} : CodableRun lr → op.Codable → op.Fresh lr →
      op.exec lr = some (ret, lr') → CodableRun lr'
  | packet {env : DpEnv} {portId : UInt8} {packet : Buf} {fuel : ℕ} {lr : LocalResource}
      {r : Except Halt Unit} {t : DpState} : CodableRun lr →
      exec (pofdpInstructionExecute env fuel) (pofdpForward portId packet lr) = (r, t) →
      r ≠ .error .fuel → CodableRun t.lr

theorem CodableRun.switchRun {lr : LocalResource} (h : CodableRun lr) : SwitchRun lr := by
  induction h with
  | init cfg => exact SwitchRun.init cfg
  | request _ _ hfresh hexec ih => exact ih.request hfresh hexec
  | packet _ hexec hr ih => exact ih.packet hexec hr

theorem CodableRun.next {lr : LocalResource} (h : CodableRun lr) (op : LrOp) (hop : op.Codable)
    (hfresh : op.Fresh lr) (hexec : (op.exec lr).isSome) : CodableRun (op.next lr) := by
  obtain ⟨⟨ret, lr'⟩, hr⟩ := Option.isSome_iff_exists.1 hexec
  have hnext : op.next lr = lr' := by rw [LrOp.next, hr]
  rw [hnext]
  exact h.request hop hfresh hr

/-! ### Where the stored entries come from -/

/-- The entry has been filled in from a message of the request. -/
def FilledBy (op : LrOp) (t : TableInfo) (e : EntryInfo) : Prop :=
  ∃ flow entryAt, (∃ counterAt, op = .addFlowEntry flow entryAt counterAt ∨
      op = .modifyFlowEntry flow entryAt counterAt) ∧ Accepts flow t ∧
    entryFill flow entryAt t = some (.ok (), e)

theorem entryFill_of_sameShape {t t' : TableInfo} (h : SameShape t t') (flow : PofFlowEntry) (newAt : ℕ) :
    entryFill flow newAt t' = entryFill flow newAt t := by
  simp only [entryFill, h.type_eq, h.keyLen_eq]

/-- What is linked has been filled in. -/
theorem entryInsert_ok {flow : PofFlowEntry} {newAt : ℕ} {t t' : TableInfo}
    (h : entryInsert flow newAt t = some (.ok (), t')) :
    ∃ e, entryFill flow newAt t = some (.ok (), e) ∧ t' = entryLink e t := by
  simp only [entryInsert, Option.bind_eq_bind, Option.bind_eq_some_iff] at h
  obtain ⟨⟨ret, e⟩, hfill, hret⟩ := h
  cases ret with
  | error e => simp at hret
  | ok _ =>
      simp only [Option.pure_def, Option.some.injEq, Prod.mk.injEq, true_and] at hret
      exact ⟨e, hfill, hret.symm⟩

theorem accepts_of_entryFill {flow : PofFlowEntry} {newAt : ℕ} {t : TableInfo} {e : EntryInfo}
    (h : entryFill flow newAt t = some (.ok (), e)) : Accepts flow t := by
  have hinsert : entryInsert flow newAt t = some (.ok (), entryLink e t) := by simp [entryInsert, h]
  rcases entryInsert_cases flow newAt t with ⟨hacc, -⟩ | ⟨-, _, herr⟩ | ⟨-, -, hnone⟩
  · exact hacc
  · cases hinsert.symm.trans herr
  · cases hinsert.symm.trans hnone

/-- Every entry of a table has been in a table of the same shape before, or is filled in by the request. -/
def EntriesBy (lr : LocalResource) (op : LrOp) (lr' : LocalResource) : Prop :=
  ∀ t' ∈ lr'.tableIdMap.nodes, ∀ e ∈ t'.entryMap.nodes,
    (∃ t ∈ lr.tableIdMap.nodes, SameShape t t' ∧ e ∈ t.entryMap.nodes) ∨ FilledBy op t' e

theorem entriesBy_of_tables {lr lr' : LocalResource} (op : LrOp)
    (h : ∀ t' ∈ lr'.tableIdMap.nodes, t' ∈ lr.tableIdMap.nodes) : EntriesBy lr op lr' :=
  fun t' ht' _ he => Or.inl ⟨t', h t' ht', SameShape.refl t', he⟩

/-- A table is written back: its entries are old ones, or filled in. -/
theorem entriesBy_setTable {lr lr₁ : LocalResource} {op : LrOp} {t t' : TableInfo}
    (hsame : lr₁.tableIdMap = lr.tableIdMap) (ht : t ∈ lr.tableIdMap.nodes) (hshape : SameShape t t')
    (hentries : ∀ e ∈ t'.entryMap.nodes, e ∈ t.entryMap.nodes ∨ FilledBy op t' e) :
    EntriesBy lr op (lr₁.setTable t') := by
  intro u hu e he
  rcases mem_setTable hu with rfl | ⟨hu, _⟩
  · rcases hentries e he with he | he
    · exact Or.inl ⟨t, ht, hshape, he⟩
    · exact Or.inr he
  · exact Or.inl ⟨u, hsame ▸ hu, SameShape.refl u, he⟩

theorem eq_or_mem_of_mem_entryLink {e b : EntryInfo} {t : TableInfo}
    (h : b ∈ (entryLink e t).entryMap.nodes) : b = e ∨ b ∈ t.entryMap.nodes := by
  rw [nodes_entryLink] at h
  exact List.mem_cons.1 h

theorem mem_of_mem_entryDelete {e b : EntryInfo} {t : TableInfo}
    (h : b ∈ (entryDelete e t).entryMap.nodes) : b ∈ t.entryMap.nodes := by
  rw [nodes_entryDelete] at h
  exact List.mem_of_mem_filter h

section FlowEntries

variable {flow : PofFlowEntry} {entryAt counterAt : ℕ} {lr lr' : LocalResource} {ret : Ret}

/-- The entries of the table that a message is linked into. -/
theorem filledBy_entryLink {op : LrOp} {t : TableInfo} {e b : EntryInfo}
    (hop : ∃ counterAt, op = .addFlowEntry flow entryAt counterAt ∨ op = .modifyFlowEntry flow entryAt counterAt)
    (hfill : entryFill flow entryAt t = some (.ok (), e)) (hb : b ∈ (entryLink e t).entryMap.nodes) :
    b ∈ t.entryMap.nodes ∨ FilledBy op (entryLink e t) b := by
  have hshape := sameShape_entryLink e t
  rcases eq_or_mem_of_mem_entryLink hb with rfl | hb
  · refine Or.inr ⟨flow, entryAt, hop, (hshape.accepts_iff flow).1.2 (accepts_of_entryFill hfill), ?_⟩
    rw [entryFill_of_sameShape hshape]
    exact hfill
  · exact Or.inl hb

theorem entriesBy_addFlowEntry (h : poflrAddFlowEntry flow entryAt counterAt lr = some (ret, lr')) :
    EntriesBy lr (.addFlowEntry flow entryAt counterAt) lr' := by
  unfold poflrAddFlowEntry at h
  cases ht : flowModTable flow lr with
  | error e =>
      rw [ht] at h
      cases h
      exact entriesBy_of_tables _ fun _ h => h
  | ok t =>
      simp only [ht, Option.bind_eq_bind, Option.bind_eq_some_iff] at h
      obtain ⟨⟨r, t'⟩, hinsert, hrest⟩ := h
      cases r with
      | error e =>
          cases hrest
          exact entriesBy_of_tables _ fun _ h => h
      | ok _ =>
          obtain ⟨e, hfill, rfl⟩ := entryInsert_ok hinsert
          have hset : EntriesBy lr (.addFlowEntry flow entryAt counterAt) (lr.setTable (entryLink e t)) :=
            entriesBy_setTable rfl (flowModTable_mem ht) (sameShape_entryLink e t) fun b hb =>
              filledBy_entryLink ⟨counterAt, Or.inl rfl⟩ hfill hb
          have hsame := sameTables_poflrCounterInit (lr.setTable (entryLink e t)) flow.counterId counterAt
          have hret : poflrCounterInit flow.counterId counterAt (lr.setTable (entryLink e t)) = (ret, lr') :=
            Option.some.inj hrest
          rw [hret] at hsame
          intro u hu
          exact hset u (hsame.1 ▸ hu)

theorem entriesBy_modifyFlowEntry (h : poflrModifyFlowEntry flow entryAt counterAt lr = some (ret, lr')) :
    EntriesBy lr (.modifyFlowEntry flow entryAt counterAt) lr' := by
  unfold poflrModifyFlowEntry at h
  cases ht : flowModTable flow lr with
  | error e =>
      rw [ht] at h
      cases h
      exact entriesBy_of_tables _ fun _ h => h
  | ok t =>
      simp only [ht] at h
      cases hold : poflrEntryGetWithIndex flow.index t with
      | none =>
          rw [hold] at h
          cases h
          exact entriesBy_of_tables _ fun _ h => h
      | some old =>
          have hsame := sameTables_modifyCounter lr old flow counterAt
          simp only [hold] at h
          rcases hcounter : modifyCounter old flow counterAt lr with ⟨e | _, lr₁⟩
          · simp only [hcounter] at h
            cases h
            rw [hcounter] at hsame
            exact entriesBy_of_tables _ fun u hu => hsame.1 ▸ hu
          · rw [hcounter] at hsame
            simp only [hcounter, Option.bind_eq_bind, Option.bind_eq_some_iff] at h
            obtain ⟨⟨r, t'⟩, hinsert, hrest⟩ := h
            have hdelete := sameShape_entryDelete old t
            cases r with
            | error e =>
                cases hrest
                exact entriesBy_setTable hsame.1 (flowModTable_mem ht) hdelete fun b hb =>
                  Or.inl (mem_of_mem_entryDelete hb)
            | ok _ =>
                cases hrest
                obtain ⟨e, hfill, rfl⟩ := entryInsert_ok hinsert
                refine entriesBy_setTable hsame.1 (flowModTable_mem ht)
                  (hdelete.trans (sameShape_entryLink e _)) fun b hb => ?_
                exact (filledBy_entryLink ⟨counterAt, Or.inr rfl⟩ hfill hb).imp_left mem_of_mem_entryDelete

end FlowEntries

/-- **Every stored entry has been stored before or is filled in by the request.** -/
theorem LrOp.entries_cases {op : LrOp} {lr lr' : LocalResource} {ret : Ret}
    (h : op.exec lr = some (ret, lr')) (hfresh : op.Fresh lr) : EntriesBy lr op lr' := by
  -- only two requests fill in entries; the others are read off the possible changes
  by_cases hadd : ∃ flow entryAt counterAt, op = .addFlowEntry flow entryAt counterAt
  · obtain ⟨flow, entryAt, counterAt, rfl⟩ := hadd
    exact entriesBy_addFlowEntry h
  by_cases hmodify : ∃ flow entryAt counterAt, op = .modifyFlowEntry flow entryAt counterAt
  · obtain ⟨flow, entryAt, counterAt, rfl⟩ := hmodify
    exact entriesBy_modifyFlowEntry h
  intro t' ht' e he
  rcases (LrOp.tables_cases h hfresh).1 t' ht' with ⟨t, ht, hchange⟩ | ⟨msg, type, newAt, _, _, rfl⟩
  · refine Or.inl ⟨t, ht, hchange.tableChange.sameShape, ?_⟩
    cases hchange with
    | same => exact he
    | insert _ _ _ _ => exact absurd ⟨_, _, _, rfl⟩ hadd
    | delete _ _ _ => exact mem_of_mem_entryDelete he
    | lose _ _ _ _ => exact absurd ⟨_, _, _, rfl⟩ hmodify
    | replace _ _ _ _ _ _ => exact absurd ⟨_, _, _, rfl⟩ hmodify
  · simp [newTable] at he

/-! ### Where the stored groups come from -/

/-- **Every stored group has been stored before, or it is filled over one that has been, or over zeros.** -/
theorem LrOp.groups_filled {op : LrOp} {lr lr' : LocalResource} {ret : Ret}
    (h : op.exec lr = some (ret, lr')) : ∀ g ∈ lr'.groupMap.nodes, g ∈ lr.groupMap.nodes ∨
      ∃ group old, g = groupFill group old ∧
        ((∃ groupAt counterAt, op = .addGroupEntry group groupAt counterAt ∧ old = mapGroupCreate groupAt) ∨
          op = .modifyGroupEntry group ∧ old ∈ lr.groupMap.nodes) := by
  intro g hg
  rcases LrOp.groups_cases h g hg with hold | ⟨group, _, hstores, _⟩
  · exact Or.inl hold
  · cases hstores with
    | @add _ groupAt counterAt _ _ _ =>
        have hexec := Option.some.inj h
        rcases poflrAddGroupEntry_cases group groupAt counterAt lr with ⟨e, heq⟩ | ⟨lr₁, _, _, hcounter, heq⟩
        · cases heq.symm.trans hexec
          exact Or.inl hg
        · cases heq.symm.trans hexec
          have hgroups := groupMap_poflrCounterInit group.counterId counterAt lr
          rw [hcounter] at hgroups
          rw [mapGroupInsert, Hmap.nodes_nodeInsert, hgroups] at hg
          rcases List.mem_cons.1 hg with rfl | hg
          · exact Or.inr ⟨group, _, rfl, Or.inl ⟨groupAt, counterAt, rfl, rfl⟩⟩
          · exact Or.inl hg
    | modify _ _ =>
        have hexec := Option.some.inj h
        rcases poflrModifyGroupEntry_cases group lr with ⟨e, heq⟩ | ⟨old, _, _, heq⟩
        · cases heq.symm.trans hexec
          exact Or.inl hg
        · cases heq.symm.trans hexec
          obtain ⟨b, hb, rfl⟩ := List.mem_map.1 hg
          split_ifs with hba
          · exact Or.inr ⟨group, b, rfl, Or.inr ⟨rfl, hb⟩⟩
          · exact Or.inl hb

/-! ### What is stored -/

/-- A stored entry: some message fills it in at its address, and that message is codable. -/
structure EntryStored (t : TableInfo) (e : EntryInfo) : Prop where
  codable : ∀ tableId tableType, (e.message tableId tableType).Codable
  filled : ∀ tableId tableType newAt, entryFill (e.message tableId tableType) newAt t =
    some (.ok (), { e with addr := newAt })

/-- **Everything that is stored can be sent back.** -/
structure Reportable (lr : LocalResource) : Prop where
  tables : ∀ t ∈ lr.tableIdMap.nodes, t.match_.length = maxMatchFieldNum ∧ t.name.length = nameMaxLength
  entries : ∀ t ∈ lr.tableIdMap.nodes, ∀ e ∈ t.entryMap.nodes, EntryStored t e
  groups : ∀ g ∈ lr.groupMap.nodes, g.Codable

theorem length_strncpy (src : Buf) (n : ℕ) : (strncpy src n).length = n := by
  simp only [strncpy, List.length_append, List.length_take, length_zeros]
  omega

/-- The arrays of a new table are whole. -/
theorem length_newTable {msg : PofFlowTable} (h : msg.match_.length = maxMatchFieldNum) (type : TableType)
    (ID : UInt8) (newAt : ℕ) : (newTable msg type ID newAt).match_.length = maxMatchFieldNum ∧
      (newTable msg type ID newAt).name.length = nameMaxLength := by
  refine ⟨?_, length_strncpy _ _⟩
  simp only [newTable, List.length_append, List.length_take, List.length_drop, List.length_replicate]
  omega

/-- A stored entry is filled in again, the same but for its address, by the message made of it. -/
theorem entryFill_message {flow : PofFlowEntry} {entryAt : ℕ} {t : TableInfo} {e : EntryInfo}
    (h : entryFill flow entryAt t = some (.ok (), e)) (tableId tableType : UInt8) (newAt : ℕ) :
    entryFill (e.message tableId tableType) newAt t = some (.ok (), { e with addr := newAt }) := by
  cases htype : t.type with
  | linear =>
      simp only [entryFill, htype, Option.some.injEq, Prod.mk.injEq, true_and] at h ⊢
      subst h
      rfl
  | em =>
      simp only [entryFill, htype, Option.bind_eq_bind, Option.bind_eq_some_iff] at h
      obtain ⟨⟨ret, value, mask⟩, hassemble, hret⟩ := h
      cases ret with
      | error e => simp at hret
      | ok _ =>
          simp only [Option.pure_def, Option.some.injEq, Prod.mk.injEq, true_and] at hret
          subst hret
          simp only [entryFill, htype, EntryInfo.message, hassemble]
          rfl
  | lpm | mm =>
      simp only [entryFill, htype, Option.bind_eq_bind, Option.bind_eq_some_iff] at h
      obtain ⟨⟨ret, value, mask⟩, hassemble, hret⟩ := h
      cases ret with
      | error e => simp at hret
      | ok _ =>
          simp only [Option.pure_def, Option.some.injEq, Prod.mk.injEq, true_and] at hret
          subst hret
          simp only [entryFill, htype, EntryInfo.message, hassemble]
          rfl

theorem entryStored_of_fill {flow : PofFlowEntry} {entryAt : ℕ} {t : TableInfo} {e : EntryInfo}
    (hflow : flow.Codable) (h : entryFill flow entryAt t = some (.ok (), e)) : EntryStored t e := by
  have hfilled := filled_of_entryFill h
  constructor
  · intro tableId tableType
    exact hflow.congr hfilled.matchFieldNum_eq hfilled.matchArray_eq hfilled.instructionNum_eq
      hfilled.instruction_eq
  · intro tableId tableType newAt
    exact entryFill_message h tableId tableType newAt

theorem EntryStored.of_sameShape {t t' : TableInfo} {e : EntryInfo} (h : EntryStored t e)
    (hshape : SameShape t t') : EntryStored t' e where
  codable := h.codable
  filled := by
    intro tableId tableType newAt
    rw [entryFill_of_sameShape hshape]
    exact h.filled tableId tableType newAt

namespace Reportable

variable {lr lr' : LocalResource}

/-- A codable request keeps what is stored codable. -/
theorem request {op : LrOp} {ret : Ret} (h : Reportable lr) (hop : op.Codable) (hfresh : op.Fresh lr)
    (hexec : op.exec lr = some (ret, lr')) : Reportable lr' := by
  constructor
  case tables =>
    intro t' ht'
    rcases (LrOp.tables_cases hexec hfresh).1 t' ht' with ⟨t, ht, hchange⟩ | ⟨msg, type, newAt, rfl, _, rfl⟩
    · have hshape := hchange.tableChange.sameShape
      rw [hshape.match_eq, hshape.name_eq]
      exact h.tables t ht
    · exact length_newTable hop type _ newAt
  case entries =>
    intro t' ht' e he
    rcases LrOp.entries_cases hexec hfresh t' ht' e he with
      ⟨t, ht, hshape, he⟩ | ⟨flow, entryAt, ⟨counterAt, rfl | rfl⟩, _, hfill⟩
    · exact (h.entries t ht e he).of_sameShape hshape
    · exact entryStored_of_fill hop hfill
    · exact entryStored_of_fill hop hfill
  case groups =>
    intro g hg
    rcases LrOp.groups_filled hexec g hg with
      hg | ⟨group, old, rfl, ⟨groupAt, counterAt, rfl, rfl⟩ | ⟨rfl, hold⟩⟩
    · exact h.groups g hg
    · exact PofGroup.Codable.groupFill hop (codable_mapGroupCreate groupAt)
    · exact PofGroup.Codable.groupFill hop (h.groups old hold)

end Reportable

/-- **In every run of codable requests and any packets, everything that is stored can be sent back.** -/
theorem reportable_of_run {lr : LocalResource} (h : CodableRun lr) : Reportable lr := by
  induction h with
  | init cfg =>
      constructor
      · intro t ht
        rw [tables_pofLocalresourceInit] at ht
        simp at ht
      · intro t ht
        rw [tables_pofLocalresourceInit] at ht
        simp at ht
      · intro g hg
        rw [groups_pofLocalresourceInit] at hg
        simp at hg
  | request _ hop hfresh hexec ih => exact ih.request hop hfresh hexec
  | packet _ hexec hr ih =>
      have htables := frame_packet LocalResource.tableIdMap (fun _ _ => rfl) hexec hr
      have hgroups := frame_packet LocalResource.groupMap (fun _ _ => rfl) hexec hr
      constructor
      · rw [htables]
        exact ih.tables
      · rw [htables]
        exact ih.entries
      · rw [hgroups]
        exact ih.groups

end PofSwitch
