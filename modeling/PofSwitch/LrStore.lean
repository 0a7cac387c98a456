/-
**The stores of a local resource and their counts.**

Beside each of its hash maps the local resource keeps a count by hand: `tableNum`, `groupNum`,
`meterNum`, `counterNum`, and `entryNum` in every table.  This module shows that no request, successful
or not, lets a count drift from its map, and that tables, groups, meters and counters are stored
once for an identifier.  An identifier is below a limit of at most 32 bits, so these four kinds are
counted exactly; a table takes any number of entries, which are counted modulo `2 ^ 32`.

Main definitions:

* `PofSwitch.StoreOk` — the four maps of a local resource and their counts;
* `PofSwitch.EntriesOk` — the map of a table and its count;
* `PofSwitch.Counted` — what the counts say.

Main results:

* `PofSwitch.storeOk_of_reachable`, `PofSwitch.entriesOk_of_reachable` — **the counts and the maps agree
  in every reachable state**;
* `PofSwitch.counted_of_reachable` — the counts are the numbers of stored objects.
-/

import PofSwitch.LrRun

set_option relaxedAutoImplicit false
set_option autoImplicit false

namespace PofSwitch

open HmapNode

/-! ### The invariant -/

/-- Tables, groups, meters and counters are stored once for an identifier within the limits, and the
counts agree with the maps. -/
structure StoreOk (lr : LocalResource) : Prop where
  tables : lr.tableIdMap.Keyed 256
  groups : lr.groupMap.Keyed lr.groupNumMax.toNat
  meters : lr.meterMap.Keyed lr.meterNumMax.toNat
  counters : lr.counterMap.Keyed lr.counterNumMax.toNat
  tableNum_eq : lr.tableNum = UInt16.ofNat lr.tableIdMap.nodes.length
  groupNum_eq : lr.groupNum = lr.groupMap.n
  meterNum_eq : lr.meterNum = lr.meterMap.n
  counterNum_eq : lr.counterNum = lr.counterMap.n
  table_hash : ∀ t ∈ lr.tableIdMap.nodes, t.hash = hmapHashForLinear t.id.toUInt32
  counter_hash : ∀ c ∈ lr.counterMap.nodes, c.hash = hmapHashForLinear c.id

/-- The counter found for an identifier has it. -/
theorem StoreOk.counter_of_get {lr : LocalResource} (h : StoreOk lr) {c : UInt32} {k : CounterInfo}
    (hget : poflrGetCounterWithID c lr = some k) : k ∈ lr.counterMap.nodes ∧ k.id = c := by
  obtain ⟨hmem, hhash⟩ := Hmap.nodeGetWithHash_eq_some hget
  exact ⟨hmem, (h.counter_hash k hmem).symm.trans hhash⟩

/-- Counters are told apart by their identifiers as by their addresses. -/
theorem StoreOk.counter_addr_eq_iff {lr : LocalResource} (h : StoreOk lr) {c k : CounterInfo}
    (hc : c ∈ lr.counterMap.nodes) (hk : k ∈ lr.counterMap.nodes) : c.addr = k.addr ↔ c.id = k.id := by
  have hiff := h.counters.addr_eq_iff hc hk
  have hc' : HmapNode.hash c = c.id := h.counter_hash c hc
  have hk' : HmapNode.hash k = k.id := h.counter_hash k hk
  rwa [hc', hk'] at hiff

theorem storeOk_init (cfg : LrConfig) : StoreOk (pofLocalresourceInit cfg) := by
  refine List.foldlRecOn (motive := StoreOk) _ _ ?_ fun lr h port _ => { h with }
  constructor
  case tables => exact Hmap.keyed_create _ _
  case groups => exact Hmap.keyed_create _ _
  case meters => exact Hmap.keyed_create _ _
  case counters => exact Hmap.keyed_create _ _
  case tableNum_eq => rfl
  case groupNum_eq => rfl
  case meterNum_eq => rfl
  case counterNum_eq => rfl
  case table_hash => simp
  case counter_hash => simp

/-! ### Writes -/

section Writes

variable {lr : LocalResource}

theorem StoreOk.mapCounterInsert (h : StoreOk lr) {c : UInt32} {a : ℕ}
    (ha : a ∉ lr.counterMap.nodes.map CounterInfo.addr) (hget : poflrGetCounterWithID c lr = none)
    (hlt : c < lr.counterNumMax) :
    StoreOk (mapCounterInsert ⟨a, c, hmapHashForLinear c, 0, 0⟩ lr) :=
  { h with
    counters := h.counters.nodeInsert (fun b hb hba => ha (List.mem_map.2 ⟨b, hb, hba⟩)) hget
      (UInt32.lt_iff_toNat_lt.1 hlt)
    counterNum_eq := congrArg (· + 1) h.counterNum_eq
    counter_hash := by
      intro k hk
      rcases List.mem_cons.1 hk with rfl | hk
      · rfl
      · exact h.counter_hash k hk }

theorem StoreOk.mapCounterDelete (h : StoreOk lr) {k : CounterInfo} (hk : k ∈ lr.counterMap.nodes) :
    StoreOk (mapCounterDelete k lr) :=
  { h with
    counters := h.counters.nodeDelete _
    counterNum_eq := (congrArg (· - 1) h.counterNum_eq).trans (Hmap.n_nodeDelete hk).symm
    counter_hash := by
      intro k' hk'
      rw [PofSwitch.mapCounterDelete, Hmap.nodes_nodeDelete] at hk'
      exact h.counter_hash k' (List.mem_of_mem_filter hk') }

theorem StoreOk.poflrCounterInit (h : StoreOk lr) {c : UInt32} {a : ℕ}
    (ha : a ∉ lr.counterMap.nodes.map CounterInfo.addr) : StoreOk (poflrCounterInit c a lr).2 := by
  rcases poflrCounterInit_cases c a lr with ⟨e, heq⟩ | ⟨heq, _⟩ | ⟨heq, hlt, hget⟩
  · rw [heq]
    exact h
  · rw [heq]
    exact h
  · rw [heq]
    exact h.mapCounterInsert ha hget hlt

theorem StoreOk.poflrCounterDelete (h : StoreOk lr) (c : UInt32) :
    StoreOk (poflrCounterDelete c lr).2 := by
  rcases poflrCounterDelete_cases c lr with ⟨e, heq⟩ | ⟨heq, _⟩ | ⟨k, heq, _, hget⟩
  · rw [heq]
    exact h
  · rw [heq]
    exact h
  · rw [heq]
    exact h.mapCounterDelete (List.mem_of_find?_eq_some hget)

theorem StoreOk.mapGroupInsert (h : StoreOk lr) {g : GroupInfo}
    (ha : g.addr ∉ lr.groupMap.nodes.map GroupInfo.addr)
    (hget : lr.groupMap.nodeGetWithHash g.hash = none) (hlt : g.hash < lr.groupNumMax) :
    StoreOk (mapGroupInsert g lr) :=
  { h with
    groups := h.groups.nodeInsert (fun b hb hba => ha (List.mem_map.2 ⟨b, hb, hba⟩)) hget
      (UInt32.lt_iff_toNat_lt.1 hlt)
    groupNum_eq := congrArg (· + 1) h.groupNum_eq }

theorem StoreOk.mapGroupDelete (h : StoreOk lr) {g : GroupInfo} (hg : g ∈ lr.groupMap.nodes) :
    StoreOk (mapGroupDelete g lr) :=
  { h with
    groups := h.groups.nodeDelete _
    groupNum_eq := (congrArg (· - 1) h.groupNum_eq).trans (Hmap.n_nodeDelete hg).symm }

theorem StoreOk.mapMeterInsert (h : StoreOk lr) {m : MeterInfo}
    (ha : m.addr ∉ lr.meterMap.nodes.map MeterInfo.addr)
    (hget : lr.meterMap.nodeGetWithHash m.hash = none) (hlt : m.hash < lr.meterNumMax) :
    StoreOk (mapMeterInsert m lr) :=
  { h with
    meters := h.meters.nodeInsert (fun b hb hba => ha (List.mem_map.2 ⟨b, hb, hba⟩)) hget
      (UInt32.lt_iff_toNat_lt.1 hlt)
    meterNum_eq := congrArg (· + 1) h.meterNum_eq }

theorem StoreOk.mapMeterDelete (h : StoreOk lr) {m : MeterInfo} (hm : m ∈ lr.meterMap.nodes) :
    StoreOk (mapMeterDelete m lr) :=
  { h with
    meters := h.meters.nodeDelete _
    meterNum_eq := (congrArg (· - 1) h.meterNum_eq).trans (Hmap.n_nodeDelete hm).symm }

theorem StoreOk.mapTableInsert (h : StoreOk lr) {t : TableInfo}
    (ha : t.addr ∉ lr.tableIdMap.nodes.map TableInfo.addr)
    (hget : poflrGetTableWithID t.id lr = none) (hhash : t.hash = hmapHashForLinear t.id.toUInt32) :
    StoreOk (mapTableInsert t lr) :=
  { h with
    tables := by
      refine h.tables.nodeInsert (fun b hb hba => ha (List.mem_map.2 ⟨b, hb, hba⟩)) ?_ ?_
      · exact (congrArg lr.tableIdMap.nodeGetWithHash hhash).trans hget
      · have hlt := t.id.toNat_lt
        exact lt_of_eq_of_lt ((congrArg UInt32.toNat hhash).trans (UInt8.toNat_toUInt32 _)) hlt
    tableNum_eq := by
      rw [PofSwitch.mapTableInsert, Hmap.nodes_nodeInsert, List.length_cons, UInt16.ofNat_add,
        ← h.tableNum_eq]
      rfl
    table_hash := by
      intro u hu
      rcases List.mem_cons.1 hu with rfl | hu
      · exact hhash
      · exact h.table_hash u hu }

/-- A table is deleted by its address. -/
theorem StoreOk.mapTableDelete (h : StoreOk lr) {t : TableInfo}
    (ht : t.addr ∈ lr.tableIdMap.nodes.map TableInfo.addr) : StoreOk (mapTableDelete t lr) :=
  { h with
    tables := h.tables.nodeDelete _
    tableNum_eq := by
      obtain ⟨u, hu, hut⟩ := List.mem_map.1 ht
      have hlen := Hmap.length_filter_addr h.tables.wf.nodup hu
      have haddr : addr u = t.addr := hut
      rw [haddr] at hlen
      rw [PofSwitch.mapTableDelete, Hmap.nodes_nodeDelete, h.tableNum_eq, ← hlen, UInt16.ofNat_add]
      exact UInt16.add_sub_cancel _ _
    table_hash := by
      intro u hu
      rw [PofSwitch.mapTableDelete, Hmap.nodes_nodeDelete] at hu
      exact h.table_hash u (List.mem_of_mem_filter hu) }

/-- The writes of an operation to a stored table. -/
theorem StoreOk.setTable (h : StoreOk lr) {t t' : TableInfo} (ht : t ∈ lr.tableIdMap.nodes)
    (hshape : SameShape t t') : StoreOk (lr.setTable t') :=
  { h with
    tables := by
      refine h.tables.modify fun u hu hut => ?_
      have heq : u = t := List.inj_on_of_nodup_map h.tables.wf.nodup hu ht (hut.trans hshape.addr_eq)
      subst heq
      exact ⟨hshape.addr_eq, hshape.hash_eq⟩
    tableNum_eq := by
      rw [LocalResource.setTable, Hmap.modify, List.length_map]
      exact h.tableNum_eq
    table_hash := by
      intro u hu
      rcases mem_setTable hu with rfl | ⟨hu, _⟩
      · rw [hshape.hash_eq, hshape.id_eq]
        exact h.table_hash t ht
      · exact h.table_hash u hu }

end Writes

/-! ### Loops -/

/-- A loop over a map that deletes every node it visits keeps what the deletion of a stored node
keeps. -/
theorem foldl_delete_induction {α : Type} [HmapNode α] {I : LocalResource → Prop}
    (part : LocalResource → Hmap α) (del : α → LocalResource → LocalResource)
    (hnodup : ∀ lr, I lr → ((part lr).nodes.map addr).Nodup)
    (hkeep : ∀ a b lr, b ∈ (part lr).nodes → addr b ≠ addr a → b ∈ (part (del a lr)).nodes)
    (hdel : ∀ a lr, a ∈ (part lr).nodes → I lr → I (del a lr)) {lr : LocalResource} (h : I lr) :
    I ((part lr).order.foldl (fun lr a => del a lr) lr) := by
  have hloop : ∀ (ts : List α) (lr : LocalResource), (ts.map addr).Nodup →
      (∀ t ∈ ts, t ∈ (part lr).nodes) → I lr → I (ts.foldl (fun lr a => del a lr) lr) := by
    intro ts
    induction ts with
    | nil => intro lr _ _ hI; exact hI
    | cons t ts ih =>
        intro lr hts hmem hI
        rw [List.map_cons, List.nodup_cons] at hts
        refine ih _ hts.2 (fun u hu => ?_) (hdel t lr (hmem t List.mem_cons_self) hI)
        refine hkeep t u lr (hmem u (List.mem_cons_of_mem _ hu)) fun hut => hts.1 ?_
        rw [← hut]
        exact List.mem_map_of_mem hu
  refine hloop _ lr ?_ (fun t ht => (part lr).mem_order.1 ht) h
  exact (((part lr).order_perm.map addr).nodup_iff).2 (hnodup lr h)

theorem mem_nodeDelete_of_ne {α : Type} [HmapNode α] {m : Hmap α} {p : ℕ} {b : α} (hb : b ∈ m.nodes)
    (hne : addr b ≠ p) : b ∈ (m.nodeDelete p).nodes := by
  rw [Hmap.nodes_nodeDelete, List.mem_filter, decide_eq_true_eq]
  exact ⟨hb, hne⟩

/-- Deleting the entries of a table keeps what the deletion of one entry keeps. -/
theorem deleteAllEntries_induction {I : LocalResource → Prop} (table : TableInfo)
    (hdel : ∀ lr t entry, t ∈ lr.tableIdMap.nodes → t.addr = table.addr → I lr →
      I (lr.setTable (entryDelete entry t))) {lr : LocalResource} (h : I lr) :
    I (deleteAllEntries table lr) := by
  refine List.foldlRecOn (motive := I) _ _ h fun lr hI entry _ => ?_
  split
  · exact hI
  · rename_i t ht
    refine hdel lr t entry (List.mem_of_find?_eq_some ht) ?_ hI
    have haddr := List.find?_some ht
    rwa [decide_eq_true_eq] at haddr

theorem StoreOk.deleteAllEntries {lr : LocalResource} (h : StoreOk lr) (table : TableInfo) :
    StoreOk (deleteAllEntries table lr) :=
  deleteAllEntries_induction table
    (fun _ t entry ht _ hI => hI.setTable ht (sameShape_entryDelete entry t)) h

theorem StoreOk.poflrEmptyFlowTable {lr : LocalResource} (h : StoreOk lr) :
    StoreOk (poflrEmptyFlowTable lr) := by
  refine foldl_delete_induction LocalResource.tableIdMap
    (fun table lr => PofSwitch.mapTableDelete table (PofSwitch.deleteAllEntries table lr))
    (fun _ hI => hI.tables.wf.nodup) ?_ ?_ h
  · intro a b lr hb hne
    refine mem_nodeDelete_of_ne ?_ hne
    refine deleteAllEntries_induction (I := fun lr => b ∈ lr.tableIdMap.nodes) a ?_ hb
    intro lr t entry _ hta hmem
    refine List.mem_map.2 ⟨b, hmem, if_neg fun hbt => hne (hbt.trans ?_)⟩
    exact (sameShape_entryDelete entry t).addr_eq.trans hta
  · intro a lr ha hI
    refine (hI.deleteAllEntries a).mapTableDelete ?_
    rw [deleteAllEntries_frame (fun lr => lr.tableIdMap.nodes.map TableInfo.addr) addrs_setTable]
    exact List.mem_map_of_mem ha

/-- **Clearing keeps the counts in step.** -/
theorem StoreOk.poflrClearResource {lr : LocalResource} (h : StoreOk lr) :
    StoreOk (poflrClearResource lr) := by
  have hports : StoreOk (poflrDisableAllPort lr) :=
    List.foldlRecOn (motive := StoreOk) _ _ h fun lr h port _ => { h with }
  have hgroups : StoreOk (poflrEmptyGroup (PofSwitch.poflrEmptyFlowTable (poflrDisableAllPort lr))) :=
    foldl_delete_induction LocalResource.groupMap PofSwitch.mapGroupDelete
      (fun _ hI => hI.groups.wf.nodup) (fun _ _ _ hb hne => mem_nodeDelete_of_ne hb hne)
      (fun _ _ ha hI => hI.mapGroupDelete ha) hports.poflrEmptyFlowTable
  have hmeters := foldl_delete_induction LocalResource.meterMap PofSwitch.mapMeterDelete
    (fun _ hI => StoreOk.meters hI |>.wf.nodup) (fun _ _ _ hb hne => mem_nodeDelete_of_ne hb hne)
    (fun _ _ ha hI => hI.mapMeterDelete ha) hgroups
  exact foldl_delete_induction LocalResource.counterMap PofSwitch.mapCounterDelete
    (fun _ hI => StoreOk.counters hI |>.wf.nodup) (fun _ _ _ hb hne => mem_nodeDelete_of_ne hb hne)
    (fun _ _ ha hI => hI.mapCounterDelete ha) hmeters

/-! ### Requests -/

section Requests

variable {lr lr' : LocalResource} {ret : Ret}

theorem StoreOk.addFlowEntry (h : StoreOk lr) {flow : PofFlowEntry} {entryAt counterAt : ℕ}
    (hfresh : (LrOp.addFlowEntry flow entryAt counterAt).Fresh lr)
    (hexec : poflrAddFlowEntry flow entryAt counterAt lr = some (ret, lr')) : StoreOk lr' := by
  rcases poflrAddFlowEntry_cases flow entryAt counterAt lr with
    ⟨e, heq, _⟩ | ⟨t, _, _, _, heq⟩ | ⟨t, entry, ht, _, _, heq⟩
  · cases heq.symm.trans hexec
    exact h
  · cases heq.symm.trans hexec
  · have ha := notMem_counters
      (hfresh.notMem_live (a := counterAt) (by simp [LrOp.allocs]) (by simp [LrOp.frees]))
    have hinit := (h.setTable (flowModTable_mem ht) (sameShape_entryLink entry t)).poflrCounterInit
      (c := flow.counterId) ha
    rwa [Option.some.inj (heq.symm.trans hexec)] at hinit

theorem StoreOk.modifyFlowEntry (h : StoreOk lr) {flow : PofFlowEntry} {entryAt counterAt : ℕ}
    (hfresh : (LrOp.modifyFlowEntry flow entryAt counterAt).Fresh lr)
    (hexec : poflrModifyFlowEntry flow entryAt counterAt lr = some (ret, lr')) : StoreOk lr' := by
  rcases poflrModifyFlowEntry_cases flow entryAt counterAt lr with
    ⟨e, heq, _⟩ | ⟨t, old, lr₁, ht, _, hinit, hrest⟩
  · cases heq.symm.trans hexec
    exact h
  · have ha := hfresh.notMem_live (a := counterAt) (by simp [LrOp.allocs])
      (counterAt_notMem_frees hfresh)
    have hcounter : StoreOk lr₁ := by
      unfold modifyCounter at hinit
      split_ifs at hinit
      · have hok := h.poflrCounterInit (c := flow.counterId) (notMem_counters ha)
        rwa [hinit] at hok
      · cases hinit
        exact h
    have hsame := sameTables_modifyCounter lr old flow counterAt
    rw [hinit] at hsame
    have hmem : t ∈ lr₁.tableIdMap.nodes := hsame.1 ▸ flowModTable_mem ht
    have hshape := sameShape_entryDelete old t
    rcases hrest with ⟨_, entry, _, heq⟩ | ⟨_, e, heq⟩ | ⟨_, _, heq⟩
    · cases heq.symm.trans hexec
      exact hcounter.setTable hmem (hshape.trans (sameShape_entryLink entry _))
    · cases heq.symm.trans hexec
      exact hcounter.setTable hmem hshape
    · cases heq.symm.trans hexec

theorem StoreOk.deleteFlowEntry (h : StoreOk lr) (flow : PofFlowEntry) :
    StoreOk (poflrDeleteFlowEntry flow lr).2 := by
  rcases poflrDeleteFlowEntry_cases flow lr with ⟨e, heq⟩ | ⟨t, old, lr₁, ht, _, hdel, heq⟩
  · rw [heq]
    exact h
  · have hcounter := h.poflrCounterDelete old.counterId
    have hsame := sameTables_poflrCounterDelete lr old.counterId
    rw [hdel] at hcounter hsame
    rw [heq]
    exact hcounter.setTable (hsame.1 ▸ flowModTable_mem ht) (sameShape_entryDelete old t)

theorem StoreOk.addGroupEntry (h : StoreOk lr) {group : PofGroup} {groupAt counterAt : ℕ}
    (hfresh : (LrOp.addGroupEntry group groupAt counterAt).Fresh lr) :
    StoreOk (poflrAddGroupEntry group groupAt counterAt lr).2 := by
  have hgroup := hfresh.notMem_live (a := groupAt) (by simp [LrOp.allocs]) (by simp [LrOp.frees])
  have hcounter := hfresh.notMem_live (a := counterAt) (by simp [LrOp.allocs]) (by simp [LrOp.frees])
  have hok := h.poflrCounterInit (c := group.counterId) (notMem_counters hcounter)
  rcases poflrAddGroupEntry_cases group groupAt counterAt lr with ⟨e, heq⟩ | ⟨lr₁, hlt, hget, hinit, heq⟩
  · rw [heq]
    exact h
  · -- initialising the counter leaves the groups alone
    have hframe : lr₁.groupMap = lr.groupMap ∧ lr₁.groupNumMax = lr.groupNumMax := by
      rcases poflrCounterInit_cases group.counterId counterAt lr with ⟨_, h'⟩ | ⟨h', _⟩ | ⟨h', _⟩
      · cases h'.symm.trans hinit
      · cases h'.symm.trans hinit
        exact ⟨rfl, rfl⟩
      · cases h'.symm.trans hinit
        exact ⟨rfl, rfl⟩
    rw [hinit] at hok
    rw [heq]
    refine hok.mapGroupInsert ?_ ?_ ?_
    · rw [hframe.1]
      exact notMem_groups hgroup
    · rw [hframe.1]
      exact hget
    · rw [hframe.2]
      exact hlt

theorem StoreOk.modifyGroupEntry (h : StoreOk lr) (group : PofGroup) :
    StoreOk (poflrModifyGroupEntry group lr).2 := by
  rcases poflrModifyGroupEntry_cases group lr with ⟨e, heq⟩ | ⟨old, hget, _, heq⟩
  · rw [heq]
    exact h
  · rw [heq]
    obtain ⟨hold, hhash⟩ := Hmap.nodeGetWithHash_eq_some hget
    refine { h with groups := h.groups.modify fun g hg hgo => ⟨rfl, ?_⟩ }
    rw [List.inj_on_of_nodup_map h.groups.wf.nodup hg hold hgo, hhash]
    rfl

theorem StoreOk.deleteGroupEntry (h : StoreOk lr) (group : PofGroup) :
    StoreOk (poflrDeleteGroupEntry group lr).2 := by
  rcases poflrDeleteGroupEntry_cases group lr with ⟨e, heq⟩ | ⟨old, lr₁, hget, hdel, heq⟩
  · rw [heq]
    exact h
  · have hok := h.poflrCounterDelete group.counterId
    have hframe : lr₁.groupMap = lr.groupMap := by
      rcases poflrCounterDelete_cases group.counterId lr with ⟨_, h'⟩ | ⟨h', _⟩ | ⟨_, h', _⟩
      · cases h'.symm.trans hdel
      · cases h'.symm.trans hdel
        rfl
      · cases h'.symm.trans hdel
        rfl
    rw [hdel] at hok
    rw [heq]
    exact hok.mapGroupDelete (hframe ▸ List.mem_of_find?_eq_some hget)

theorem StoreOk.addMeterEntry (h : StoreOk lr) {meterId rate : UInt32} {newAt : ℕ}
    (ha : newAt ∉ lr.meterMap.nodes.map MeterInfo.addr) :
    StoreOk (poflrAddMeterEntry meterId rate newAt lr).2 := by
  unfold poflrAddMeterEntry
  split_ifs with hmax hget
  · exact h
  · exact h
  · have hnone : poflrGetMeterWithID meterId lr = none := by simpa using hget
    exact h.mapMeterInsert ha hnone (UInt32.not_le.1 hmax)

theorem StoreOk.modifyMeterEntry (h : StoreOk lr) (meterId rate : UInt32) :
    StoreOk (poflrModifyMeterEntry meterId rate lr).2 := by
  unfold poflrModifyMeterEntry
  split_ifs
  · exact h
  · split
    · exact h
    · exact { h with meters := h.meters.modify fun _ _ _ => ⟨rfl, rfl⟩ }

theorem StoreOk.deleteMeterEntry (h : StoreOk lr) (meterId : UInt32) :
    StoreOk (poflrDeleteMeterEntry meterId lr).2 := by
  unfold poflrDeleteMeterEntry
  split_ifs
  · exact h
  · split
    · exact h
    · rename_i m hm
      exact h.mapMeterDelete (List.mem_of_find?_eq_some hm)

theorem StoreOk.counterClear (h : StoreOk lr) (counterId : UInt32) :
    StoreOk (poflrCounterClear counterId lr).2 := by
  unfold poflrCounterClear
  split_ifs
  · exact h
  · exact h
  · split
    · exact h
    · refine { h with counters := h.counters.modify fun _ _ _ => ⟨rfl, rfl⟩, counter_hash := ?_ }
      intro k hk
      obtain ⟨k', hk', rfl⟩ := List.mem_map.1 hk
      split_ifs
      · exact h.counter_hash k' hk'
      · exact h.counter_hash k' hk'

/-- **Every request keeps the counts in step, whether it succeeds or fails.** -/
theorem StoreOk.step {op : LrOp} (h : StoreOk lr) (hfresh : op.Fresh lr)
    (hexec : op.exec lr = some (ret, lr')) : StoreOk lr' := by
  have hpure : ∀ {r : Ret × LocalResource}, some r = some (ret, lr') → StoreOk r.2 → StoreOk lr' := by
    rintro r hr hok
    cases hr
    exact hok
  cases op with
  | createFlowTable msg newAt =>
      have ha := hfresh.notMem_live (a := newAt) (by simp [LrOp.allocs]) (by simp [LrOp.frees])
      rcases poflrCreateFlowTable_cases msg newAt lr with ⟨e, heq⟩ | ⟨type, hadmits, heq⟩
      · cases heq.symm.trans (Option.some.inj hexec)
        exact h
      · cases heq.symm.trans (Option.some.inj hexec)
        exact h.mapTableInsert (notMem_tables ha) hadmits.absent rfl
  | deleteFlowTable id type =>
      rcases poflrDeleteFlowTable_cases id type lr with ⟨e, heq⟩ | ⟨t, ht, _, heq⟩
      · cases heq.symm.trans (Option.some.inj hexec)
        exact h
      · cases heq.symm.trans (Option.some.inj hexec)
        exact h.mapTableDelete (List.mem_map_of_mem ht)
  | addFlowEntry flow entryAt counterAt => exact h.addFlowEntry hfresh hexec
  | modifyFlowEntry flow entryAt counterAt => exact h.modifyFlowEntry hfresh hexec
  | deleteFlowEntry flow => exact hpure hexec (h.deleteFlowEntry flow)
  | addGroupEntry group groupAt counterAt => exact hpure hexec (h.addGroupEntry hfresh)
  | modifyGroupEntry group => exact hpure hexec (h.modifyGroupEntry group)
  | deleteGroupEntry group => exact hpure hexec (h.deleteGroupEntry group)
  | addMeterEntry meterId rate newAt =>
      have ha := hfresh.notMem_live (a := newAt) (by simp [LrOp.allocs]) (by simp [LrOp.frees])
      exact hpure hexec (h.addMeterEntry (notMem_meters ha))
  | modifyMeterEntry meterId rate => exact hpure hexec (h.modifyMeterEntry meterId rate)
  | deleteMeterEntry meterId => exact hpure hexec (h.deleteMeterEntry meterId)
  | counterInit counterId newAt =>
      have ha := hfresh.notMem_live (a := newAt) (by simp [LrOp.allocs]) (by simp [LrOp.frees])
      exact hpure hexec (h.poflrCounterInit (notMem_counters ha))
  | counterDelete counterId => exact hpure hexec (h.poflrCounterDelete counterId)
  | counterClear counterId => exact hpure hexec (h.counterClear counterId)
  | portOpenflowEnable portId flag =>
      refine hpure hexec ?_
      unfold poflrPortOpenflowEnable
      split
      · exact h
      · exact { h with }
  | clearResource =>
      cases hexec
      exact h.poflrClearResource

end Requests

/-! ### Reachable states -/

theorem storeOk_of_reachable {lr : LocalResource} (h : LrReachable lr) : StoreOk lr := by
  induction h with
  | init cfg _ => exact storeOk_init cfg
  | step _ hfresh hexec _ ih => exact ih.step hfresh hexec

/-- The map of the entries of a table and its count. -/
structure EntriesOk (t : TableInfo) : Prop where
  wf : t.entryMap.Wf
  entryNum_eq : t.entryNum = t.entryMap.n

theorem EntriesOk.entryLink {t : TableInfo} (h : EntriesOk t) {e : EntryInfo}
    (he : ∀ b ∈ t.entryMap.nodes, b.addr ≠ e.addr) : EntriesOk (entryLink e t) where
  wf := by
    rw [entryMap_entryLink]
    exact h.wf.nodeInsert he
  entryNum_eq := by
    rw [entryMap_entryLink, entryNum_entryLink, h.entryNum_eq]
    rfl

theorem EntriesOk.entryDelete {t : TableInfo} (h : EntriesOk t) {e : EntryInfo}
    (he : e ∈ t.entryMap.nodes) : EntriesOk (entryDelete e t) where
  wf := by
    rw [entryMap_entryDelete]
    exact h.wf.nodeDelete _
  entryNum_eq := by
    rw [entryMap_entryDelete, entryNum_entryDelete, h.entryNum_eq]
    exact (Hmap.n_nodeDelete he).symm

theorem EntriesOk.change {t t' : TableInfo} (h : EntriesOk t) (hchange : TableChange t t') :
    EntriesOk t' := by
  cases hchange with
  | same => exact h
  | insert hfill hnew => exact h.entryLink fun b hb hbe => hnew b hb (hbe.trans hfill.addr_eq)
  | delete hold => exact h.entryDelete hold
  | replace hold hfill hnew =>
      exact (h.entryDelete hold).entryLink fun b hb hbe => hnew b hb (hbe.trans hfill.addr_eq)

theorem entriesOk_of_reachable {lr : LocalResource} (h : LrReachable lr) :
    ∀ t ∈ lr.tableIdMap.nodes, EntriesOk t := by
  refine LrReachable.table_induction ?_ (fun t t' hchange hinv => hinv.change hchange) h
  intro msg type ID newAt _
  constructor
  · exact Hmap.wf_create msg.size
  · simp [newTable, Hmap.create]

/-- What the counts say: tables, groups, meters and counters are counted exactly, by the local
resource and by the map; entries are counted modulo `2 ^ 32` by both. -/
structure Counted (lr : LocalResource) : Prop where
  tables : lr.tableNum.toNat = lr.tableIdMap.nodes.length ∧
    lr.tableIdMap.n.toNat = lr.tableIdMap.nodes.length
  groups : lr.groupNum = lr.groupMap.n ∧ lr.groupNum.toNat = lr.groupMap.nodes.length
  meters : lr.meterNum = lr.meterMap.n ∧ lr.meterNum.toNat = lr.meterMap.nodes.length
  counters : lr.counterNum = lr.counterMap.n ∧ lr.counterNum.toNat = lr.counterMap.nodes.length
  entries : ∀ t ∈ lr.tableIdMap.nodes, t.entryNum = t.entryMap.n ∧
    t.entryNum.toNat = t.entryMap.nodes.length % 2 ^ 32

/-- **The counts are the numbers of stored objects in every reachable state.** -/
theorem counted_of_reachable {lr : LocalResource} (h : LrReachable lr) : Counted lr := by
  have hstore := storeOk_of_reachable h
  constructor
  case tables =>
    have hle := hstore.tables.length_le
    refine ⟨?_, hstore.tables.toNat_n (by decide)⟩
    rw [hstore.tableNum_eq]
    exact UInt16.toNat_ofNat_of_lt' (by
      simp only [UInt16.size]
      omega)
  case groups =>
    have hn := hstore.groups.toNat_n lr.groupNumMax.toNat_lt
    exact ⟨hstore.groupNum_eq, by rw [hstore.groupNum_eq, hn]⟩
  case meters =>
    have hn := hstore.meters.toNat_n lr.meterNumMax.toNat_lt
    exact ⟨hstore.meterNum_eq, by rw [hstore.meterNum_eq, hn]⟩
  case counters =>
    have hn := hstore.counters.toNat_n lr.counterNumMax.toNat_lt
    exact ⟨hstore.counterNum_eq, by rw [hstore.counterNum_eq, hn]⟩
  case entries =>
    intro t ht
    have hok := entriesOk_of_reachable h t ht
    refine ⟨hok.entryNum_eq, ?_⟩
    rw [hok.entryNum_eq, hok.wf.n_eq, UInt32.toNat_ofNat']

end PofSwitch
