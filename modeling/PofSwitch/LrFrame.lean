/-
**What a flow-entry request leaves alone.**

A successful addition, modification or deletion of an entry writes to one table and to the counters
it names.  Everything else is as before: the other tables with their entries, the groups, the meters
and the other counters.  In the table itself exactly one entry is added, taken out or replaced; the
others are neither changed nor lost nor stored twice, whatever bucket they share with it.

Main definitions:

* `PofSwitch.OthersKept` — one table and some counters may have changed, and nothing else.

Main results:

* `PofSwitch.perm_entryDelete` — a deletion takes out exactly one entry;
* `PofSwitch.flow_request_frame` — **the effect of the three requests on the local resource**.
-/

import PofSwitch.LrStore

set_option relaxedAutoImplicit false
set_option autoImplicit false

namespace PofSwitch

open HmapNode

/-! ### The frame -/

/-- The counters whose ids are not listed. -/
def countersBut (ids : List UInt32) (lr : LocalResource) : List CounterInfo :=
  lr.counterMap.nodes.filter fun c => c.id ∉ ids

/-- The table `t` has become `t'` with other entries, and all tables with another id, all groups, all
meters and the counters that are not listed are as before. -/
structure OthersKept (ids : List UInt32) (t t' : TableInfo) (lr lr' : LocalResource) : Prop where
  shape : SameShape t t'
  tables : lr'.tableIdMap.nodes = lr.tableIdMap.nodes.map fun u => if u.id = t.id then t' else u
  groups : lr'.groupMap = lr.groupMap ∧ lr'.groupNum = lr.groupNum
  meters : lr'.meterMap = lr.meterMap ∧ lr'.meterNum = lr.meterNum
  counters : countersBut ids lr' = countersBut ids lr

/-- Only counters have changed, and of them only those that are listed. -/
structure CountersOnly (ids : List UInt32) (lr lr' : LocalResource) : Prop where
  tables : lr'.tableIdMap = lr.tableIdMap
  groups : lr'.groupMap = lr.groupMap ∧ lr'.groupNum = lr.groupNum
  meters : lr'.meterMap = lr.meterMap ∧ lr'.meterNum = lr.meterNum
  counters : countersBut ids lr' = countersBut ids lr

section Frame

variable {lr lr₁ : LocalResource} {t t' : TableInfo} {ids : List UInt32}

theorem CountersOnly.refl (ids : List UInt32) (lr : LocalResource) : CountersOnly ids lr lr :=
  ⟨rfl, ⟨rfl, rfl⟩, ⟨rfl, rfl⟩, rfl⟩

/-- A stored table is the only one with its id, and the only one at its address. -/
theorem StoreOk.addr_eq_iff (h : StoreOk lr) (ht : t ∈ lr.tableIdMap.nodes) {u : TableInfo}
    (hu : u ∈ lr.tableIdMap.nodes) : u.addr = t.addr ↔ u.id = t.id := by
  have hiff := h.tables.addr_eq_iff hu ht
  have hu' : HmapNode.hash u = u.id.toUInt32 := h.table_hash u hu
  have ht' : HmapNode.hash t = t.id.toUInt32 := h.table_hash t ht
  rwa [hu', ht', UInt8.toUInt32_inj] at hiff

/-- The writes to a table, before or after those to the counters. -/
theorem StoreOk.othersKept (h : StoreOk lr) (ht : t ∈ lr.tableIdMap.nodes) (hshape : SameShape t t')
    (hcounters : CountersOnly ids lr lr₁) : OthersKept ids t t' lr (lr₁.setTable t') where
  shape := hshape
  tables := by
    simp only [LocalResource.setTable, Hmap.modify, hcounters.tables]
    refine List.map_congr_left fun u hu => ?_
    have haddr : HmapNode.addr u = t'.addr ↔ u.id = t.id := by
      rw [hshape.addr_eq]
      exact h.addr_eq_iff ht hu
    simp only [haddr]
  groups := hcounters.groups
  meters := hcounters.meters
  counters := hcounters.counters

theorem OthersKept.trans {lr' lr'' : LocalResource} (h : OthersKept ids t t' lr lr')
    (h' : CountersOnly ids lr' lr'') : OthersKept ids t t' lr lr'' where
  shape := h.shape
  tables := by rw [h'.tables, h.tables]
  groups := ⟨h'.groups.1.trans h.groups.1, h'.groups.2.trans h.groups.2⟩
  meters := ⟨h'.meters.1.trans h.meters.1, h'.meters.2.trans h.meters.2⟩
  counters := h'.counters.trans h.counters

theorem countersOnly_poflrCounterInit {c : UInt32} (hc : c ∈ ids) (a : ℕ) (lr : LocalResource) :
    CountersOnly ids lr (poflrCounterInit c a lr).2 := by
  rcases poflrCounterInit_cases c a lr with ⟨e, heq⟩ | ⟨heq, _⟩ | ⟨heq, _, _⟩
  · rw [heq]
    exact CountersOnly.refl ids lr
  · rw [heq]
    exact CountersOnly.refl ids lr
  · rw [heq]
    refine ⟨rfl, ⟨rfl, rfl⟩, ⟨rfl, rfl⟩, ?_⟩
    rw [countersBut, mapCounterInsert, Hmap.nodes_nodeInsert, List.filter_cons_of_neg]
    · rfl
    · simpa using hc

theorem countersOnly_poflrCounterDelete (h : StoreOk lr) {c : UInt32} (hc : c ∈ ids) :
    CountersOnly ids lr (poflrCounterDelete c lr).2 := by
  rcases poflrCounterDelete_cases c lr with ⟨e, heq⟩ | ⟨heq, _⟩ | ⟨k, heq, _, hget⟩
  · rw [heq]
    exact CountersOnly.refl ids lr
  · rw [heq]
    exact CountersOnly.refl ids lr
  · rw [heq]
    refine ⟨rfl, ⟨rfl, rfl⟩, ⟨rfl, rfl⟩, ?_⟩
    obtain ⟨hk, hkid⟩ := h.counter_of_get hget
    rw [countersBut, countersBut, mapCounterDelete, Hmap.nodes_nodeDelete, List.filter_filter]
    refine List.filter_congr fun b hb => ?_
    -- the counter that goes has a listed id
    rw [Bool.and_eq_left_iff_imp, decide_eq_true_eq, decide_eq_true_eq]
    rintro hids hbk
    obtain rfl : b = k := List.inj_on_of_nodup_map h.counters.wf.nodup hb hk hbk
    exact hids (hkid ▸ hc)

theorem countersOnly_modifyCounter {flow : PofFlowEntry} (hc : flow.counterId ∈ ids) (old : EntryInfo)
    (a : ℕ) (lr : LocalResource) : CountersOnly ids lr (modifyCounter old flow a lr).2 := by
  unfold modifyCounter
  split_ifs
  · exact countersOnly_poflrCounterInit hc a lr
  · exact CountersOnly.refl ids lr

end Frame

/-! ### The entries of the table -/

/-- A deletion takes out exactly one entry. -/
theorem perm_entryDelete {t : TableInfo} (h : EntriesOk t) {old : EntryInfo}
    (hold : old ∈ t.entryMap.nodes) :
    t.entryMap.nodes.Perm (old :: (entryDelete old t).entryMap.nodes) := by
  obtain ⟨newer, older, hsplit⟩ := List.append_of_mem hold
  have hnodup := h.wf.nodup
  rw [hsplit, List.map_append, List.map_cons, List.nodup_middle, List.nodup_cons, ← List.map_append] at hnodup
  have hother : ∀ b ∈ newer ++ older, decide (addr b ≠ old.addr) = true := by
    intro b hb
    rw [decide_eq_true_eq]
    intro hba
    exact hnodup.1 (List.mem_map.2 ⟨b, hb, hba⟩)
  have hfilter : (entryDelete old t).entryMap.nodes = newer ++ older := by
    rw [nodes_entryDelete, hsplit, List.filter_append, List.filter_cons_of_neg, ← List.filter_append]
    · exact List.filter_eq_self.2 hother
    · rw [decide_eq_true_eq, not_not]
      rfl
  rw [hfilter, hsplit]
  exact List.perm_middle

/-- **A successful request for a flow entry of a reachable local resource changes its table and the
counters it names, and nothing else.  An addition stores one entry of the message, a deletion takes
out one entry with the index, and a modification takes out one and stores the other; the entries
besides it stay as they are.** -/
theorem flow_request_frame {lr : LocalResource} (h : LrReachable lr) (flow : PofFlowEntry)
    (entryAt counterAt : ℕ) (lr' : LocalResource) :
    (poflrAddFlowEntry flow entryAt counterAt lr = some (.ok (), lr') →
      ∃ t t' e, flowModTable flow lr = .ok t ∧ Filled flow entryAt t e ∧
        t'.entryMap.nodes = e :: t.entryMap.nodes ∧ OthersKept [flow.counterId] t t' lr lr') ∧
      (poflrModifyFlowEntry flow entryAt counterAt lr = some (.ok (), lr') →
        ∃ t t' old e rest, flowModTable flow lr = .ok t ∧ old.index = flow.index ∧
          Filled flow entryAt t e ∧ t.entryMap.nodes.Perm (old :: rest) ∧
          t'.entryMap.nodes = e :: rest ∧
          OthersKept [old.counterId, flow.counterId] t t' lr lr') ∧
      (poflrDeleteFlowEntry flow lr = (.ok (), lr') →
        ∃ t t' old, flowModTable flow lr = .ok t ∧ old.index = flow.index ∧
          t.entryMap.nodes.Perm (old :: t'.entryMap.nodes) ∧
          OthersKept [old.counterId] t t' lr lr') := by
  have hstore := storeOk_of_reachable h
  refine ⟨fun hexec => ?_, fun hexec => ?_, fun hexec => ?_⟩
  · rcases poflrAddFlowEntry_cases flow entryAt counterAt lr with
      ⟨_, heq, _⟩ | ⟨_, _, _, _, heq⟩ | ⟨t, e, ht, _, hfill, heq⟩
    · cases heq.symm.trans hexec
    · cases heq.symm.trans hexec
    · have hkept := hstore.othersKept (flowModTable_mem ht) (sameShape_entryLink e t)
        (CountersOnly.refl [flow.counterId] lr)
      have hcounter := countersOnly_poflrCounterInit (List.mem_singleton_self flow.counterId) counterAt
        (lr.setTable (entryLink e t))
      rw [Option.some.inj (heq.symm.trans hexec)] at hcounter
      exact ⟨t, entryLink e t, e, ht, hfill, nodes_entryLink e t, hkept.trans hcounter⟩
  · rcases poflrModifyFlowEntry_cases flow entryAt counterAt lr with
      ⟨_, heq, _⟩ | ⟨t, old, lr₁, ht, hold, hcounter, ⟨_, e, hfill, heq⟩ | ⟨_, _, heq⟩ | ⟨_, _, heq⟩⟩
    · cases heq.symm.trans hexec
    · cases heq.symm.trans hexec
      have hmem := flowModTable_mem ht
      have hshape := (sameShape_entryDelete old t).trans (sameShape_entryLink e (entryDelete old t))
      have hcounters : CountersOnly [old.counterId, flow.counterId] lr (modifyCounter old flow counterAt lr).2 :=
        countersOnly_modifyCounter (by simp) old counterAt lr
      rw [hcounter] at hcounters
      refine ⟨t, entryLink e (entryDelete old t), old, e, (entryDelete old t).entryMap.nodes, ht,
        poflrEntryGetWithIndex_index hold, ?_, ?_, nodes_entryLink e _,
        hstore.othersKept hmem hshape hcounters⟩
      · exact hfill.of_sameShape (sameShape_entryDelete old t)
      · exact perm_entryDelete (entriesOk_of_reachable h t hmem) (poflrEntryGetWithIndex_mem hold)
    · cases heq.symm.trans hexec
    · cases heq.symm.trans hexec
  · rcases poflrDeleteFlowEntry_cases flow lr with ⟨_, heq⟩ | ⟨t, old, lr₁, ht, hold, hcounter, heq⟩
    · cases heq.symm.trans hexec
    · cases heq.symm.trans hexec
      have hmem := flowModTable_mem ht
      have hcounters := countersOnly_poflrCounterDelete hstore (List.mem_singleton_self old.counterId)
      rw [hcounter] at hcounters
      exact ⟨t, entryDelete old t, old, ht, poflrEntryGetWithIndex_index hold,
        perm_entryDelete (entriesOk_of_reachable h t hmem) (poflrEntryGetWithIndex_mem hold),
        hstore.othersKept hmem (sameShape_entryDelete old t) hcounters⟩

/-- An exact-match table with the entry `a5` under index 0, which counts with counter 1. -/
def countedEm : LocalResource :=
  (LrOp.addFlowEntry (oneFieldEntry 2 8 0 1 [0xA5] []) 2 3).next
    ((LrOp.createFlowTable (oneFieldTable 2 8) 1).next (pofLocalresourceInit smallConfig))

/-- The entry becomes `b6` and counts with counter 2. -/
theorem flow_request_frame_modified : LrReachable countedEm ∧
    ∃ lr', poflrModifyFlowEntry (oneFieldEntry 2 8 0 2 [0xB6] []) 4 5 countedEm = some (.ok (), lr') ∧
      ∃ t t' old e rest, flowModTable (oneFieldEntry 2 8 0 2 [0xB6] []) countedEm = .ok t ∧
        old.index = 0 ∧ Filled (oneFieldEntry 2 8 0 2 [0xB6] []) 4 t e ∧
        t.entryMap.nodes.Perm (old :: rest) ∧ t'.entryMap.nodes = e :: rest ∧
        OthersKept [old.counterId, 2] t t' countedEm lr' := by
  have hrun : LrReachable countedEm :=
    ((LrRun.init smallConfig trivial).next _ (by decide) rfl trivial).next _ (by decide) rfl trivial
  obtain ⟨lr', hexec⟩ : ∃ lr', poflrModifyFlowEntry (oneFieldEntry 2 8 0 2 [0xB6] []) 4 5 countedEm =
    some (.ok (), lr') := ⟨_, rfl⟩
  exact ⟨hrun, lr', hexec, (flow_request_frame hrun _ 4 5 lr').2.1 hexec⟩

end PofSwitch
