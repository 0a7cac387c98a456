/-
**Are the stored objects well formed?**

The arrays of a table, an entry and a group have fixed sizes, and every later copy, lookup and loop
runs up to a count that was stored with them.  The requests hardly look at these counts: a table is
stored with any number of fields of any lengths, a group with any number of actions, and of the
fields of an entry only the sum of the lengths is compared with the key, in 16 bits.  In runs whose
messages keep the bounds themselves, so does everything that is stored, and the sum of an entry is
the exact one because eight fields of 128 bits do not wrap.

Main definitions:

* `PofSwitch.TableWf`, `PofSwitch.EntryWf`, `PofSwitch.GroupWf`, `PofSwitch.StoredWf` — what is well
  formed;
* `PofSwitch.WfRequest` — the messages that are stored keep the bounds.

Main results:

* `PofSwitch.toNat_endOffset` — the offset behind the fields is their length modulo `2 ^ 16`;
* `PofSwitch.LrOp.groups_cases` — the possible changes of the groups;
* `PofSwitch.storedWf_of_path` — **with such messages everything stored is well formed**.
-/

import PofSwitch.FlowTableMm
import Mathlib.Algebra.Group.Action.Defs
import Mathlib.Algebra.Order.BigOperators.Group.List

set_option relaxedAutoImplicit false
set_option autoImplicit false

namespace PofSwitch

open HmapNode

/-! ### Well-formed objects -/

/-- The fields of a table fit its array and sum up to its key. -/
structure TableWf (t : TableInfo) : Prop where
  matchFieldNum_le : t.matchFieldNum.toNat ≤ maxMatchFieldNum
  sum_eq : totalLen ((tableFields t).map PofMatch.len) = t.keyLen.toNat

/-- The fields and the instructions of an entry fit their arrays, and the fields sum up to the key. -/
structure EntryWf (keyLen : UInt16) (e : EntryInfo) : Prop where
  matchFieldNum_le : e.matchFieldNum.toNat ≤ maxMatchFieldNum
  instructionNum_le : e.instructionNum.toNat ≤ maxInstructionNum
  len_le : ∀ m ∈ matchFields e.match_ e.matchFieldNum, m.len.toNat ≤ 8 * maxFieldLengthInByte
  sum_eq : totalLen ((matchFields e.match_ e.matchFieldNum).map PofMatchX.len) = keyLen.toNat

/-- The actions of a group fit its array. -/
def GroupWf (g : GroupInfo) : Prop := g.actionNumber.toNat ≤ maxActionNumberPerGroup

/-- Every stored table, entry and group is well formed.  A linear table has no key. -/
structure StoredWf (lr : LocalResource) : Prop where
  tables : ∀ t ∈ lr.tableIdMap.nodes, TableWf t
  entries : ∀ t ∈ lr.tableIdMap.nodes, t.type ≠ .linear → ∀ e ∈ t.entryMap.nodes, EntryWf t.keyLen e
  groups : ∀ g ∈ lr.groupMap.nodes, GroupWf g

/-! ### Messages within the bounds -/

/-- The match fields of a message for a table. -/
def msgFields (msg : PofFlowTable) : List PofMatch :=
  (List.range msg.matchFieldNum.toNat).map fun i => msg.match_.getD i default

/-- A message for a table that keeps the bounds. -/
def TableMsgOk (msg : PofFlowTable) : Prop :=
  msg.matchFieldNum.toNat ≤ maxMatchFieldNum ∧
    totalLen ((msgFields msg).map PofMatch.len) = msg.keyLen.toNat

/-- A message for an entry that keeps the bounds.  Nothing is said about the sum of the lengths. -/
def FlowMsgOk (flow : PofFlowEntry) : Prop :=
  flow.matchFieldNum.toNat ≤ maxMatchFieldNum ∧ flow.instructionNum.toNat ≤ maxInstructionNum ∧
    ∀ m ∈ matchFields flow.match_ flow.matchFieldNum, m.len.toNat ≤ 8 * maxFieldLengthInByte

/-- The request, made in state `lr`, stores the group of the message. -/
inductive StoresGroup (lr : LocalResource) : LrOp → PofGroup → Prop
  | add {group : PofGroup} {groupAt counterAt : ℕ} : group.groupId < lr.groupNumMax →
      poflrGetGroupWithID group.groupId lr = none →
      (poflrCounterInit group.counterId counterAt lr).1 = .ok () →
      StoresGroup lr (.addGroupEntry group groupAt counterAt) group
  | modify {group : PofGroup} {old : GroupInfo} : poflrGetGroupWithID group.groupId lr = some old →
      group.counterId = old.counterId → StoresGroup lr (.modifyGroupEntry group) group

theorem StoresGroup.unique {lr : LocalResource} {op : LrOp} {group group' : PofGroup}
    (h : StoresGroup lr op group) (h' : StoresGroup lr op group') : group = group' := by
  cases h <;> cases h' <;> rfl

/-- Whatever the request stores keeps the bounds. -/
structure WfRequest (lr : LocalResource) (op : LrOp) : Prop where
  table : ∀ msg newAt type, op = .createFlowTable msg newAt → Admits lr msg type → TableMsgOk msg
  flow : ∀ flow t, Stores lr op flow t → t.type ≠ .linear → FlowMsgOk flow
  group : ∀ group, StoresGroup lr op group → group.actionNumber.toNat ≤ maxActionNumberPerGroup

/-! ### Sums of lengths -/

/-- The offset behind the fields is their length modulo `2 ^ 16`. -/
theorem toNat_endOffset (fields : List PofMatchX) (off : UInt16) :
    (endOffset fields off).toNat = (off.toNat + totalLen (fields.map PofMatchX.len)) % 2 ^ 16 := by
  induction fields generalizing off with
  | nil => exact (Nat.mod_eq_of_lt off.toNat_lt).symm
  | cons m ms ih =>
      rw [endOffset, ih, UInt16.toNat_add, totalLen, totalLen, List.map_cons, List.map_cons, List.sum_cons,
        Nat.mod_add_mod, Nat.add_assoc]

theorem totalLen_le {lens : List UInt16} {bound : ℕ} (h : ∀ len ∈ lens, len.toNat ≤ bound) :
    totalLen lens ≤ lens.length * bound := by
  refine (List.sum_le_card_nsmul _ bound ?_).trans_eq (by rw [List.length_map, smul_eq_mul])
  intro n hn
  obtain ⟨len, hlen, rfl⟩ := List.mem_map.1 hn
  exact h len hlen

/-- **The sum of an accepted entry is exact when the message keeps the bounds.** -/
theorem FlowMsgOk.sum_eq {flow : PofFlowEntry} (h : FlowMsgOk flow) {t : TableInfo}
    (hacc : Accepts flow t) (htype : t.type ≠ .linear) :
    totalLen ((matchFields flow.match_ flow.matchFieldNum).map PofMatchX.len) = t.keyLen.toNat := by
  obtain ⟨hnum, _, hlens⟩ := h
  obtain ⟨_, hend⟩ := hacc.resolve_left htype
  have hlen : (matchFields flow.match_ flow.matchFieldNum).length = flow.matchFieldNum.toNat := by
    rw [matchFields, List.length_map, List.length_range]
  have hle : totalLen ((matchFields flow.match_ flow.matchFieldNum).map PofMatchX.len) ≤
      flow.matchFieldNum.toNat * (8 * maxFieldLengthInByte) := by
    refine (totalLen_le ?_).trans_eq (by rw [List.length_map, hlen])
    intro len hmem
    obtain ⟨m, hm, rfl⟩ := List.mem_map.1 hmem
    exact hlens m hm
  have hcap : maxMatchFieldNum * (8 * maxFieldLengthInByte) = 1024 := rfl
  have hmul := Nat.mul_le_mul_right (8 * maxFieldLengthInByte) hnum
  rw [← hend, toNat_endOffset, UInt16.toNat_zero, Nat.zero_add]
  exact (Nat.mod_eq_of_lt (by omega)).symm

/-! ### Tables and entries -/

theorem tableFields_newTable (msg : PofFlowTable) (type : TableType) (ID : UInt8) (newAt : ℕ) :
    tableFields (newTable msg type ID newAt) = msgFields msg := by
  rw [tableFields, msgFields]
  refine List.map_congr_left fun i hi => ?_
  have hi : i < msg.matchFieldNum.toNat := List.mem_range.1 hi
  simp only [newTable, List.getD_eq_getElem?_getD]
  rcases Nat.lt_or_ge i msg.match_.length with hlt | hge
  · rw [List.getElem?_append_left (by rw [List.length_take]; omega), List.getElem?_take_of_lt hi]
  · rw [List.getElem?_append_right (by rw [List.length_take]; omega), List.getElem?_eq_none hge,
      List.getElem?_drop, List.getElem?_replicate]
    split_ifs <;> rfl

/-- The part of the invariant that is about one table. -/
structure TableStoredWf (t : TableInfo) : Prop where
  table : TableWf t
  entries : t.type ≠ .linear → ∀ e ∈ t.entryMap.nodes, EntryWf t.keyLen e

section Tables

variable {t : TableInfo} {e : EntryInfo}

theorem Filled.entryWf {flow : PofFlowEntry} {newAt : ℕ} (h : Filled flow newAt t e)
    (hmsg : FlowMsgOk flow) (hacc : Accepts flow t) (htype : t.type ≠ .linear) : EntryWf t.keyLen e where
  matchFieldNum_le := by
    rw [h.matchFieldNum_eq]
    exact hmsg.1
  instructionNum_le := by
    rw [h.instructionNum_eq]
    exact hmsg.2.1
  len_le := by
    rw [h.match_eq]
    exact hmsg.2.2
  sum_eq := by
    rw [h.match_eq]
    exact hmsg.sum_eq hacc htype

theorem SameShape.tableWf {t' : TableInfo} (h : SameShape t t') (hwf : TableWf t) : TableWf t' := by
  have hfields : tableFields t' = tableFields t := by
    rw [tableFields, tableFields, h.matchFieldNum_eq, h.match_eq]
  constructor
  · rw [h.matchFieldNum_eq]
    exact hwf.matchFieldNum_le
  · rw [hfields, h.keyLen_eq]
    exact hwf.sum_eq

theorem TableStoredWf.entryLink (h : TableStoredWf t) (he : t.type ≠ .linear → EntryWf t.keyLen e) :
    TableStoredWf (entryLink e t) := by
  have hshape := sameShape_entryLink e t
  refine ⟨hshape.tableWf h.table, ?_⟩
  rw [hshape.type_eq, hshape.keyLen_eq, nodes_entryLink]
  intro htype
  exact List.forall_mem_cons.2 ⟨he htype, h.entries htype⟩

theorem TableStoredWf.entryDelete (h : TableStoredWf t) (e : EntryInfo) :
    TableStoredWf (entryDelete e t) := by
  have hshape := sameShape_entryDelete e t
  refine ⟨hshape.tableWf h.table, ?_⟩
  rw [hshape.type_eq, hshape.keyLen_eq, nodes_entryDelete]
  exact fun htype b hb => h.entries htype b (List.mem_of_mem_filter hb)

/-- What a request does to a table keeps it and its entries well formed. -/
theorem TableStoredWf.change {lr : LocalResource} {op : LrOp} {t' : TableInfo} (h : TableStoredWf t)
    (hQ : WfRequest lr op) (hchange : OpChange lr op t t') : TableStoredWf t' := by
  cases hchange with
  | same => exact h
  | insert ht hacc hfill _ =>
      exact h.entryLink fun htype => hfill.entryWf (hQ.flow _ t (Stores.add ht hacc) htype) hacc htype
  | delete _ _ _ => exact h.entryDelete _
  | lose _ _ _ _ => exact h.entryDelete _
  | @replace _ _ _ _ old _ ht hold hcounter hacc hfill _ =>
      have hshape := sameShape_entryDelete old t
      refine (h.entryDelete old).entryLink ?_
      rw [hshape.type_eq, hshape.keyLen_eq]
      intro htype
      exact (hfill.of_sameShape hshape).entryWf
        (hQ.flow _ t (Stores.modify ht hold hcounter hacc) htype) hacc htype

end Tables

theorem tableStoredWf_of_path {lr : LocalResource} (h : LrPath WfRequest lr) :
    ∀ t ∈ lr.tableIdMap.nodes, TableStoredWf t := by
  refine LrPath.table_induction ?_ (fun _ _ _ _ _ hQ _ hchange hI => hI.change hQ hchange) h
  rintro lr _ _ _ hQ ⟨msg, type, newAt, rfl, hadmits, rfl⟩
  obtain ⟨hnum, hsum⟩ := hQ.table msg newAt type rfl hadmits
  refine ⟨⟨hnum, ?_⟩, by simp [newTable]⟩
  rw [tableFields_newTable]
  exact hsum

/-! ### Groups -/

theorem groupMap_poflrCounterInit (c : UInt32) (a : ℕ) (lr : LocalResource) :
    (poflrCounterInit c a lr).2.groupMap = lr.groupMap :=
  poflrCounterInit_frame LocalResource.groupMap lr (fun _ _ _ => rfl) c a

theorem groupMap_poflrCounterDelete (c : UInt32) (lr : LocalResource) :
    (poflrCounterDelete c lr).2.groupMap = lr.groupMap :=
  poflrCounterDelete_frame LocalResource.groupMap lr (fun _ _ _ => rfl) c

theorem groupMap_modifyCounter (old : EntryInfo) (flow : PofFlowEntry) (a : ℕ) (lr : LocalResource) :
    (modifyCounter old flow a lr).2.groupMap = lr.groupMap := by
  unfold modifyCounter
  split_ifs
  · exact groupMap_poflrCounterInit flow.counterId a lr
  · rfl

section FlowEntries

variable {flow : PofFlowEntry} {entryAt counterAt : ℕ} {lr lr' : LocalResource} {ret : Ret}

theorem groupMap_poflrAddFlowEntry (h : poflrAddFlowEntry flow entryAt counterAt lr = some (ret, lr')) :
    lr'.groupMap = lr.groupMap := by
  rcases poflrAddFlowEntry_cases flow entryAt counterAt lr with
    ⟨_, heq, _⟩ | ⟨_, _, _, _, heq⟩ | ⟨t, e, _, _, _, heq⟩
  · cases heq.symm.trans h
    rfl
  · cases heq.symm.trans h
  · have hgroups := groupMap_poflrCounterInit flow.counterId counterAt (lr.setTable (entryLink e t))
    rw [Option.some.inj (heq.symm.trans h)] at hgroups
    exact hgroups

theorem groupMap_poflrModifyFlowEntry
    (h : poflrModifyFlowEntry flow entryAt counterAt lr = some (ret, lr')) :
    lr'.groupMap = lr.groupMap := by
  rcases poflrModifyFlowEntry_cases flow entryAt counterAt lr with
    ⟨_, heq, _⟩ | ⟨t, old, lr₁, _, _, hcounter, hrest⟩
  · cases heq.symm.trans h
    rfl
  · have hgroups := groupMap_modifyCounter old flow counterAt lr
    rw [hcounter] at hgroups
    rcases hrest with ⟨_, e, _, heq⟩ | ⟨_, _, heq⟩ | ⟨_, _, heq⟩
    · cases heq.symm.trans h
      exact hgroups
    · cases heq.symm.trans h
      exact hgroups
    · cases heq.symm.trans h

theorem groupMap_poflrDeleteFlowEntry (flow : PofFlowEntry) (lr : LocalResource) :
    (poflrDeleteFlowEntry flow lr).2.groupMap = lr.groupMap := by
  rcases poflrDeleteFlowEntry_cases flow lr with ⟨_, heq⟩ | ⟨_, old, lr₁, _, _, hcounter, heq⟩
  · rw [heq]
  · have hgroups := groupMap_poflrCounterDelete old.counterId lr
    rw [hcounter] at hgroups
    rw [heq]
    exact hgroups

end FlowEntries

/-- Every group of `lr'` is one of `lr`, or it is filled from a message that the request stores. -/
def GroupsBy (lr : LocalResource) (op : LrOp) (lr' : LocalResource) : Prop :=
  ∀ g ∈ lr'.groupMap.nodes, g ∈ lr.groupMap.nodes ∨ ∃ group old, StoresGroup lr op group ∧ g = groupFill group old

theorem groupsBy_of_eq {lr lr' : LocalResource} (op : LrOp) (h : lr'.groupMap = lr.groupMap) :
    GroupsBy lr op lr' := by
  intro g hg
  exact Or.inl (h ▸ hg)

section GroupEntries

variable (group : PofGroup) (lr : LocalResource)

theorem groupsBy_poflrAddGroupEntry (groupAt counterAt : ℕ) :
    GroupsBy lr (.addGroupEntry group groupAt counterAt) (poflrAddGroupEntry group groupAt counterAt lr).2 := by
  rcases poflrAddGroupEntry_cases group groupAt counterAt lr with ⟨_, heq⟩ | ⟨lr₁, hid, hnone, hcounter, heq⟩
  · rw [heq]
    exact groupsBy_of_eq _ rfl
  · have hgroups := groupMap_poflrCounterInit group.counterId counterAt lr
    rw [hcounter] at hgroups
    rw [heq]
    intro g hg
    rw [mapGroupInsert, Hmap.nodes_nodeInsert, hgroups] at hg
    rcases List.mem_cons.1 hg with rfl | hg
    · exact Or.inr ⟨group, _, StoresGroup.add hid hnone (by rw [hcounter]), rfl⟩
    · exact Or.inl hg

theorem groupsBy_poflrModifyGroupEntry :
    GroupsBy lr (.modifyGroupEntry group) (poflrModifyGroupEntry group lr).2 := by
  rcases poflrModifyGroupEntry_cases group lr with ⟨_, heq⟩ | ⟨old, hold, hcounter, heq⟩
  · rw [heq]
    exact groupsBy_of_eq _ rfl
  · rw [heq]
    intro g hg
    obtain ⟨b, hb, rfl⟩ := List.mem_map.1 hg
    split_ifs with hba
    · exact Or.inr ⟨group, b, StoresGroup.modify hold hcounter, rfl⟩
    · exact Or.inl hb

theorem groupsBy_poflrDeleteGroupEntry :
    GroupsBy lr (.deleteGroupEntry group) (poflrDeleteGroupEntry group lr).2 := by
  rcases poflrDeleteGroupEntry_cases group lr with ⟨_, heq⟩ | ⟨old, lr₁, _, hcounter, heq⟩
  · rw [heq]
    exact groupsBy_of_eq _ rfl
  · have hgroups := groupMap_poflrCounterDelete group.counterId lr
    rw [hcounter] at hgroups
    rw [heq]
    intro g hg
    rw [mapGroupDelete, Hmap.nodes_nodeDelete, hgroups] at hg
    exact Or.inl (List.mem_of_mem_filter hg)

end GroupEntries

/-- **The possible changes of the groups: a group of the new state is one of the old state, or it is
filled from a message the request stores.** -/
theorem LrOp.groups_cases {op : LrOp} {lr lr' : LocalResource} {ret : Ret}
    (h : op.exec lr = some (ret, lr')) : GroupsBy lr op lr' := by
  have hsnd : ∀ {r : Ret × LocalResource}, some r = some (ret, lr') → GroupsBy lr op r.2 →
      GroupsBy lr op lr' := by
    rintro r hr hgroups
    cases hr
    exact hgroups
  cases op with
  | createFlowTable msg newAt =>
      refine hsnd h (groupsBy_of_eq _ ?_)
      rcases poflrCreateFlowTable_cases msg newAt lr with ⟨_, heq⟩ | ⟨_, _, heq⟩
      · rw [heq]
      · rw [heq]
        rfl
  | deleteFlowTable id type =>
      refine hsnd h (groupsBy_of_eq _ ?_)
      rcases poflrDeleteFlowTable_cases id type lr with ⟨_, heq⟩ | ⟨_, _, _, heq⟩
      · rw [heq]
      · rw [heq]
        rfl
  | addFlowEntry flow entryAt counterAt => exact groupsBy_of_eq _ (groupMap_poflrAddFlowEntry h)
  | modifyFlowEntry flow entryAt counterAt => exact groupsBy_of_eq _ (groupMap_poflrModifyFlowEntry h)
  | deleteFlowEntry flow => exact hsnd h (groupsBy_of_eq _ (groupMap_poflrDeleteFlowEntry flow lr))
  | addGroupEntry group groupAt counterAt =>
      exact hsnd h (groupsBy_poflrAddGroupEntry group lr groupAt counterAt)
  | modifyGroupEntry group => exact hsnd h (groupsBy_poflrModifyGroupEntry group lr)
  | deleteGroupEntry group => exact hsnd h (groupsBy_poflrDeleteGroupEntry group lr)
  | addMeterEntry meterId rate newAt =>
      exact hsnd h (groupsBy_of_eq _
        (poflrAddMeterEntry_frame LocalResource.groupMap lr (fun _ _ _ => rfl) _ _ _))
  | modifyMeterEntry meterId rate =>
      exact hsnd h (groupsBy_of_eq _
        (poflrModifyMeterEntry_frame LocalResource.groupMap lr (fun _ _ _ => rfl) _ _))
  | deleteMeterEntry meterId =>
      exact hsnd h (groupsBy_of_eq _
        (poflrDeleteMeterEntry_frame LocalResource.groupMap lr (fun _ _ _ => rfl) _))
  | counterInit counterId newAt =>
      exact hsnd h (groupsBy_of_eq _ (groupMap_poflrCounterInit counterId newAt lr))
  | counterDelete counterId =>
      exact hsnd h (groupsBy_of_eq _ (groupMap_poflrCounterDelete counterId lr))
  | counterClear counterId =>
      exact hsnd h (groupsBy_of_eq _
        (poflrCounterClear_frame LocalResource.groupMap lr (fun _ _ _ => rfl) _))
  | portOpenflowEnable portId flag =>
      exact hsnd h (groupsBy_of_eq _
        (poflrPortOpenflowEnable_frame LocalResource.groupMap lr (fun _ _ => rfl) _ _))
  | clearResource =>
      cases h
      intro g hg
      rw [(poflrClearResource_cleared lr).groups] at hg
      simp at hg

theorem groupWf_of_path {lr : LocalResource} (h : LrPath WfRequest lr) :
    ∀ g ∈ lr.groupMap.nodes, GroupWf g := by
  induction h with
  | init cfg =>
      intro g hg
      rw [groups_pofLocalresourceInit] at hg
      simp at hg
  | step _ hQ _ hexec ih =>
      intro g hg
      rcases LrOp.groups_cases hexec g hg with hg | ⟨group, old, hstores, rfl⟩
      · exact ih g hg
      · exact hQ.group group hstores

/-- **In every run whose messages keep the bounds, every stored table, entry and group is well
formed.** -/
theorem storedWf_of_path {lr : LocalResource} (h : LrPath WfRequest lr) : StoredWf lr where
  tables := fun t ht => (tableStoredWf_of_path h t ht).table
  entries := fun t ht => (tableStoredWf_of_path h t ht).entries
  groups := groupWf_of_path h

/-- A request for a group with the given number of actions, and the table `maskedMm` with it. -/
def groupOf (actionNumber : UInt8) : PofGroup where
  type := 0
  actionNumber := actionNumber
  groupId := 1
  counterId := 0
  action := []

@[inherit_doc groupOf]
def groupedMm (actionNumber : UInt8) : LocalResource :=
  (LrOp.addGroupEntry (groupOf actionNumber) 4 5).next maskedMm

/-- A table, an entry and a group of two actions. -/
theorem storedWf_of_path_grouped : LrPath WfRequest (groupedMm 2) ∧ StoredWf (groupedMm 2) := by
  have htable : LrPath WfRequest ((LrOp.createFlowTable (oneFieldTable 0 8) 1).next
      (pofLocalresourceInit smallConfig)) := by
    refine (LrPath.init smallConfig).next _ ⟨?_, ?_, ?_⟩ (by decide) rfl
    · rintro msg newAt type ⟨⟩ _
      exact ⟨by decide, by decide⟩
    · intro flow t hstores
      cases hstores
    · intro group hstores
      cases hstores
  have hentry : LrPath WfRequest maskedMm := by
    refine htable.next _ ⟨?_, ?_, ?_⟩ (by decide) rfl
    · rintro msg newAt type ⟨⟩
    · intro flow t hstores _
      cases hstores
      exact ⟨by decide, by decide, by decide⟩
    · intro group hstores
      cases hstores
  have hgroup : LrPath WfRequest (groupedMm 2) := by
    refine hentry.next _ ⟨?_, ?_, ?_⟩ (by decide) rfl
    · rintro msg newAt type ⟨⟩
    · intro flow t hstores
      cases hstores
    · intro group hstores
      cases hstores
      decide
  exact ⟨hgroup, storedWf_of_path hgroup⟩

/-- An entry is stored with seven instructions in an array of six. -/
theorem storedWf_too_many_instructions : ¬ ∀ lr : LocalResource, LrReachable lr → StoredWf lr := by
  intro hall
  have hrun : LrReachable (matchAll 7 []) := matchAll_reachable 7 []
  have hfacts : ∀ t ∈ (matchAll 7 []).tableIdMap.nodes, t.type ≠ .linear ∧ t.entryMap.nodes ≠ [] := by
    decide
  obtain ⟨t, ht⟩ : ∃ t, (matchAll 7 []).tableIdMap.nodes = [t] := ⟨_, rfl⟩
  have hmem : t ∈ (matchAll 7 []).tableIdMap.nodes := by rw [ht]; simp
  obtain ⟨htype, hne⟩ := hfacts t hmem
  obtain ⟨e, he⟩ := List.exists_mem_of_ne_nil _ hne
  have hle := ((hall _ hrun).entries t hmem htype e he).instructionNum_le
  rw [instructionNum_matchAll 7 [] t hmem e he] at hle
  exact absurd hle (by decide)

end PofSwitch
