/-
**Requests to the local resource.**

The requests of the controller on one slot, and what each can do.  A request may fail and may change
the state when it does.  `malloc` returns an address that no live structure occupies; a modification
frees the old entry before it allocates the new one, so it may get the same address back.

What a request can do to the tables is said once, in `PofSwitch.LrOp.tables_cases`: a table of the
new state is a table of the old state after at most one removal and at most one insertion of an
entry, or a new empty table; the guards the request has passed are part of the statement.

Main definitions:

* `PofSwitch.LrOp`, `PofSwitch.LrOp.exec`, `PofSwitch.LrOp.Fresh` — requests;
* `PofSwitch.OpChange`, `PofSwitch.TableChange` — what one request can do to one table, with and
  without the request;
* `PofSwitch.Stores`, `PofSwitch.Removes` — the entry a request puts in and the entry it takes out;
* `PofSwitch.LocalResource.Cleared` — no table, group, meter or counter, and every port disabled.

Main results:

* `PofSwitch.poflrAddFlowEntry_cases`, `PofSwitch.poflrModifyFlowEntry_cases`,
  `PofSwitch.poflrDeleteFlowEntry_cases` — what the requests for flow entries can do;
* `PofSwitch.LrOp.tables_cases` — **the possible changes of the tables**;
* `PofSwitch.poflrClearResource_cleared` — clearing leaves no table, group, meter or counter.
-/

import PofSwitch.FlowTable

set_option relaxedAutoImplicit false
set_option autoImplicit false

namespace PofSwitch

open HmapNode

/-! ### Requests -/

/-- The requests on a local resource, with the addresses `malloc` returns to them. -/
inductive LrOp
  | createFlowTable (msg : PofFlowTable) (newAt : ℕ)
  | deleteFlowTable (id type : UInt8)
  | addFlowEntry (flow : PofFlowEntry) (entryAt counterAt : ℕ)
  | modifyFlowEntry (flow : PofFlowEntry) (entryAt counterAt : ℕ)
  | deleteFlowEntry (flow : PofFlowEntry)
  | addGroupEntry (group : PofGroup) (groupAt counterAt : ℕ)
  | modifyGroupEntry (group : PofGroup)
  | deleteGroupEntry (group : PofGroup)
  | addMeterEntry (meterId rate : UInt32) (newAt : ℕ)
  | modifyMeterEntry (meterId rate : UInt32)
  | deleteMeterEntry (meterId : UInt32)
  | counterInit (counterId : UInt32) (newAt : ℕ)
  | counterDelete (counterId : UInt32)
  | counterClear (counterId : UInt32)
  | portOpenflowEnable (portId : UInt32) (flag : UInt8)
  | clearResource

namespace LrOp

/-- Executing a request; `none` when it does not return. -/
def exec : LrOp → LocalResource → Option (Ret × LocalResource)
  | createFlowTable msg newAt, lr => some (poflrCreateFlowTable msg newAt lr)
  | deleteFlowTable id type, lr => some (poflrDeleteFlowTable id type lr)
  | addFlowEntry flow entryAt counterAt, lr => poflrAddFlowEntry flow entryAt counterAt lr
  | modifyFlowEntry flow entryAt counterAt, lr => poflrModifyFlowEntry flow entryAt counterAt lr
  | deleteFlowEntry flow, lr => some (poflrDeleteFlowEntry flow lr)
  | addGroupEntry group groupAt counterAt, lr => some (poflrAddGroupEntry group groupAt counterAt lr)
  | modifyGroupEntry group, lr => some (poflrModifyGroupEntry group lr)
  | deleteGroupEntry group, lr => some (poflrDeleteGroupEntry group lr)
  | addMeterEntry meterId rate newAt, lr => some (poflrAddMeterEntry meterId rate newAt lr)
  | modifyMeterEntry meterId rate, lr => some (poflrModifyMeterEntry meterId rate lr)
  | deleteMeterEntry meterId, lr => some (poflrDeleteMeterEntry meterId lr)
  | counterInit counterId newAt, lr => some (poflrCounterInit counterId newAt lr)
  | counterDelete counterId, lr => some (poflrCounterDelete counterId lr)
  | counterClear counterId, lr => some (poflrCounterClear counterId lr)
  | portOpenflowEnable portId flag, lr => some (poflrPortOpenflowEnable portId flag lr)
  | clearResource, lr => some (.ok (), poflrClearResource lr)

/-- The addresses a request is given. -/
def allocs : LrOp → List ℕ
  | createFlowTable _ newAt => [newAt]
  | addFlowEntry _ entryAt counterAt => [entryAt, counterAt]
  | modifyFlowEntry _ entryAt counterAt => [counterAt, entryAt]
  | addGroupEntry _ groupAt counterAt => [groupAt, counterAt]
  | addMeterEntry _ _ newAt => [newAt]
  | counterInit _ newAt => [newAt]
  | _ => []

end LrOp

/-- The addresses of the structures of a local resource. -/
def LocalResource.liveAddrs (lr : LocalResource) : List ℕ :=
  lr.tableIdMap.nodes.map TableInfo.addr ++
    (lr.tableIdMap.nodes.flatMap fun t => t.entryMap.nodes.map EntryInfo.addr) ++
    lr.groupMap.nodes.map GroupInfo.addr ++ lr.meterMap.nodes.map MeterInfo.addr ++
    lr.counterMap.nodes.map CounterInfo.addr ++ lr.portPofIndexMap.nodes.map PortInfo.addr

/-- The addresses in use that a request may be given: a modification frees the old entry before it
allocates the new one, and after it has allocated the counter. -/
def LrOp.frees (lr : LocalResource) : LrOp → List ℕ
  | .modifyFlowEntry flow entryAt _ =>
      match flowModTable flow lr with
      | .error _ => []
      | .ok table =>
          match poflrEntryGetWithIndex flow.index table with
          | none => []
          | some entry => if entry.addr = entryAt then [entryAt] else []
  | _ => []

/-- What `malloc` promises: different addresses, none of them `NULL` or in use. -/
def LrOp.Fresh (op : LrOp) (lr : LocalResource) : Prop :=
  op.allocs.Nodup ∧ ∀ a ∈ op.allocs, a ≠ 0 ∧ (a ∈ lr.liveAddrs → a ∈ op.frees lr)

instance (op : LrOp) (lr : LocalResource) : Decidable (op.Fresh lr) :=
  inferInstanceAs (Decidable (_ ∧ ∀ a ∈ op.allocs, a ≠ 0 ∧ (a ∈ lr.liveAddrs → a ∈ op.frees lr)))

/-! ### New addresses -/

section Addresses

variable {lr : LocalResource}

/-- The address of a new structure is not that of a stored one, unless the request has freed it. -/
theorem LrOp.Fresh.notMem_live {op : LrOp} (h : op.Fresh lr) {a : ℕ} (ha : a ∈ op.allocs)
    (hfree : a ∉ op.frees lr) : a ∉ lr.liveAddrs := fun hlive => hfree ((h.2 a ha).2 hlive)

/-- The counter of a modified entry is allocated before the old entry is freed. -/
theorem counterAt_notMem_frees {flow : PofFlowEntry} {entryAt counterAt : ℕ}
    (h : (LrOp.modifyFlowEntry flow entryAt counterAt).Fresh lr) :
    counterAt ∉ (LrOp.modifyFlowEntry flow entryAt counterAt).frees lr := by
  have hne := h.1
  simp only [LrOp.allocs, List.nodup_cons, List.mem_singleton] at hne
  simp only [LrOp.frees]
  split
  · simp
  · split
    · simp
    · split_ifs
      · simpa using hne.1
      · simp

theorem notMem_counters {a : ℕ} (h : a ∉ lr.liveAddrs) : a ∉ lr.counterMap.nodes.map CounterInfo.addr := by
  intro hmem
  refine h ?_
  simp only [LocalResource.liveAddrs, List.mem_append]
  exact Or.inl (Or.inr hmem)

theorem notMem_groups {a : ℕ} (h : a ∉ lr.liveAddrs) : a ∉ lr.groupMap.nodes.map GroupInfo.addr := by
  intro hmem
  refine h ?_
  simp only [LocalResource.liveAddrs, List.mem_append]
  exact Or.inl (Or.inl (Or.inl (Or.inr hmem)))

theorem notMem_meters {a : ℕ} (h : a ∉ lr.liveAddrs) : a ∉ lr.meterMap.nodes.map MeterInfo.addr := by
  intro hmem
  refine h ?_
  simp only [LocalResource.liveAddrs, List.mem_append]
  exact Or.inl (Or.inl (Or.inr hmem))

theorem notMem_tables {a : ℕ} (h : a ∉ lr.liveAddrs) : a ∉ lr.tableIdMap.nodes.map TableInfo.addr := by
  intro hmem
  refine h ?_
  simp only [LocalResource.liveAddrs, List.mem_append]
  exact Or.inl (Or.inl (Or.inl (Or.inl (Or.inl hmem))))

end Addresses

/-! ### Requests that change one kind of resource -/

section RequestFrame

variable {β : Type} (part : LocalResource → β) (lr : LocalResource)

section Counters

variable (h : ∀ (lr : LocalResource) m n, part { lr with counterMap := m, counterNum := n } = part lr)
include h

theorem poflrCounterInit_frame (c : UInt32) (a : ℕ) : part (poflrCounterInit c a lr).2 = part lr := by
  unfold poflrCounterInit
  split_ifs
  · rfl
  · rfl
  · split
    · rfl
    · exact h lr _ _

theorem poflrCounterDelete_frame (c : UInt32) : part (poflrCounterDelete c lr).2 = part lr := by
  unfold poflrCounterDelete
  split_ifs
  · rfl
  · rfl
  · split
    · rfl
    · exact h lr _ _

theorem poflrCounterClear_frame (c : UInt32) : part (poflrCounterClear c lr).2 = part lr := by
  unfold poflrCounterClear
  split_ifs
  · rfl
  · rfl
  · split
    · rfl
    · exact h lr _ lr.counterNum

end Counters

section Meters

variable (h : ∀ (lr : LocalResource) m n, part { lr with meterMap := m, meterNum := n } = part lr)
include h

theorem poflrAddMeterEntry_frame (m r : UInt32) (a : ℕ) :
    part (poflrAddMeterEntry m r a lr).2 = part lr := by
  unfold poflrAddMeterEntry
  split_ifs
  · rfl
  · rfl
  · exact h lr _ _

theorem poflrModifyMeterEntry_frame (m r : UInt32) :
    part (poflrModifyMeterEntry m r lr).2 = part lr := by
  unfold poflrModifyMeterEntry
  split_ifs
  · rfl
  · split
    · rfl
    · exact h lr _ lr.meterNum

theorem poflrDeleteMeterEntry_frame (m : UInt32) : part (poflrDeleteMeterEntry m lr).2 = part lr := by
  unfold poflrDeleteMeterEntry
  split_ifs
  · rfl
  · split
    · rfl
    · exact h lr _ _

end Meters

theorem poflrPortOpenflowEnable_frame
    (h : ∀ (lr : LocalResource) m, part { lr with portPofIndexMap := m } = part lr) (p : UInt32)
    (f : UInt8) : part (poflrPortOpenflowEnable p f lr).2 = part lr := by
  unfold poflrPortOpenflowEnable
  split
  · rfl
  · exact h lr _

end RequestFrame

/-! ### Requests that leave the tables alone -/

/-- The limits of a local resource, which nothing changes after start-up. -/
structure Limits where
  tableNumMaxEachType : List UInt16
  tableSizeMax : UInt32
  keyLenEachType : List UInt16
  groupNumMax : UInt32
  meterNumMax : UInt32
  counterNumMax : UInt32

/-- The limits of a local resource. -/
def LocalResource.limits (lr : LocalResource) : Limits :=
  ⟨lr.tableNumMaxEachType, lr.tableSizeMax, lr.keyLenEachType, lr.groupNumMax, lr.meterNumMax,
    lr.counterNumMax⟩

/-- The tables and the limits are as before. -/
def SameTables (lr lr' : LocalResource) : Prop :=
  lr'.tableIdMap = lr.tableIdMap ∧ lr'.limits = lr.limits

section Frame

variable (lr : LocalResource)

theorem SameTables.refl : SameTables lr lr := ⟨rfl, rfl⟩

theorem sameTables_poflrCounterInit (c : UInt32) (a : ℕ) : SameTables lr (poflrCounterInit c a lr).2 :=
  ⟨poflrCounterInit_frame LocalResource.tableIdMap lr (fun _ _ _ => rfl) c a,
    poflrCounterInit_frame LocalResource.limits lr (fun _ _ _ => rfl) c a⟩

theorem sameTables_poflrCounterDelete (c : UInt32) : SameTables lr (poflrCounterDelete c lr).2 :=
  ⟨poflrCounterDelete_frame LocalResource.tableIdMap lr (fun _ _ _ => rfl) c,
    poflrCounterDelete_frame LocalResource.limits lr (fun _ _ _ => rfl) c⟩

theorem sameTables_poflrCounterClear (c : UInt32) : SameTables lr (poflrCounterClear c lr).2 :=
  ⟨poflrCounterClear_frame LocalResource.tableIdMap lr (fun _ _ _ => rfl) c,
    poflrCounterClear_frame LocalResource.limits lr (fun _ _ _ => rfl) c⟩

theorem sameTables_poflrAddGroupEntry (g : PofGroup) (a b : ℕ) :
    SameTables lr (poflrAddGroupEntry g a b lr).2 := by
  have hinit := sameTables_poflrCounterInit lr g.counterId b
  rcases poflrAddGroupEntry_cases g a b lr with ⟨e, heq⟩ | ⟨lr₁, _, _, hok, heq⟩
  · rw [heq]
    exact SameTables.refl lr
  · rw [hok] at hinit
    rw [heq]
    exact hinit

theorem sameTables_poflrModifyGroupEntry (g : PofGroup) :
    SameTables lr (poflrModifyGroupEntry g lr).2 := by
  rcases poflrModifyGroupEntry_cases g lr with ⟨e, heq⟩ | ⟨old, _, _, heq⟩
  · rw [heq]
    exact SameTables.refl lr
  · rw [heq]
    exact ⟨rfl, rfl⟩

theorem sameTables_poflrDeleteGroupEntry (g : PofGroup) :
    SameTables lr (poflrDeleteGroupEntry g lr).2 := by
  have hdel := sameTables_poflrCounterDelete lr g.counterId
  rcases poflrDeleteGroupEntry_cases g lr with ⟨e, heq⟩ | ⟨old, lr₁, _, hok, heq⟩
  · rw [heq]
    exact SameTables.refl lr
  · rw [hok] at hdel
    rw [heq]
    exact hdel

theorem sameTables_poflrAddMeterEntry (m r : UInt32) (a : ℕ) :
    SameTables lr (poflrAddMeterEntry m r a lr).2 :=
  ⟨poflrAddMeterEntry_frame LocalResource.tableIdMap lr (fun _ _ _ => rfl) m r a,
    poflrAddMeterEntry_frame LocalResource.limits lr (fun _ _ _ => rfl) m r a⟩

theorem sameTables_poflrModifyMeterEntry (m r : UInt32) :
    SameTables lr (poflrModifyMeterEntry m r lr).2 :=
  ⟨poflrModifyMeterEntry_frame LocalResource.tableIdMap lr (fun _ _ _ => rfl) m r,
    poflrModifyMeterEntry_frame LocalResource.limits lr (fun _ _ _ => rfl) m r⟩

theorem sameTables_poflrDeleteMeterEntry (m : UInt32) :
    SameTables lr (poflrDeleteMeterEntry m lr).2 :=
  ⟨poflrDeleteMeterEntry_frame LocalResource.tableIdMap lr (fun _ _ _ => rfl) m,
    poflrDeleteMeterEntry_frame LocalResource.limits lr (fun _ _ _ => rfl) m⟩

theorem sameTables_poflrPortOpenflowEnable (p : UInt32) (f : UInt8) :
    SameTables lr (poflrPortOpenflowEnable p f lr).2 :=
  ⟨poflrPortOpenflowEnable_frame LocalResource.tableIdMap lr (fun _ _ => rfl) p f,
    poflrPortOpenflowEnable_frame LocalResource.limits lr (fun _ _ => rfl) p f⟩

end Frame

/-! ### Clearing -/

section Clear

variable {α β : Type} [HmapNode α]

omit [HmapNode α] in
/-- What every step of a loop leaves alone, the loop leaves alone. -/
theorem foldl_frame (part : LocalResource → β) (del : α → LocalResource → LocalResource)
    (h : ∀ a lr, part (del a lr) = part lr) (ts : List α) (lr : LocalResource) :
    part (ts.foldl (fun lr a => del a lr) lr) = part lr := by
  induction ts generalizing lr with
  | nil => rfl
  | cons a ts ih => rw [List.foldl_cons, ih, h]

/-- A loop that takes out the address of every node of a map, and puts in no new address, empties
it. -/
theorem nodes_foldl_delete (part : LocalResource → Hmap α) (del : α → LocalResource → LocalResource)
    (h : ∀ a lr, ∀ b ∈ (part (del a lr)).nodes,
      addr b ≠ addr a ∧ ∃ c ∈ (part lr).nodes, addr c = addr b)
    (lr : LocalResource) :
    (part ((part lr).order.foldl (fun lr a => del a lr) lr)).nodes = [] := by
  have hloop : ∀ (ts : List α) (lr : LocalResource),
      ∀ b ∈ (part (ts.foldl (fun lr a => del a lr) lr)).nodes,
        (∃ c ∈ (part lr).nodes, addr c = addr b) ∧ ∀ a ∈ ts, addr b ≠ addr a := by
    intro ts
    induction ts with
    | nil => intro lr b hb; exact ⟨⟨b, hb, rfl⟩, by simp⟩
    | cons a ts ih =>
        intro lr b hb
        obtain ⟨⟨c, hc, hcb⟩, hts⟩ := ih _ b hb
        obtain ⟨hne, d, hd, hdc⟩ := h a lr c hc
        refine ⟨⟨d, hd, hdc.trans hcb⟩, fun e he => ?_⟩
        rcases List.mem_cons.1 he with rfl | he
        · exact hcb ▸ hne
        · exact hts e he
  refine List.eq_nil_iff_forall_not_mem.2 fun b hb => ?_
  obtain ⟨⟨c, hc, hcb⟩, hts⟩ := hloop _ lr b hb
  exact hts c ((part lr).mem_order.2 hc) hcb.symm

theorem mem_nodeDelete {m : Hmap α} {p : ℕ} {b : α} (hb : b ∈ (m.nodeDelete p).nodes) :
    addr b ≠ p ∧ ∃ c ∈ m.nodes, addr c = addr b := by
  rw [Hmap.nodes_nodeDelete, List.mem_filter, decide_eq_true_eq] at hb
  exact ⟨hb.2, b, hb.1, rfl⟩

end Clear

theorem counterMap_poflrEmptyCounter (lr : LocalResource) :
    (poflrEmptyCounter lr).counterMap.nodes = [] :=
  nodes_foldl_delete LocalResource.counterMap mapCounterDelete (fun _ _ _ hb => mem_nodeDelete hb) lr

theorem groupMap_poflrEmptyGroup (lr : LocalResource) : (poflrEmptyGroup lr).groupMap.nodes = [] :=
  nodes_foldl_delete LocalResource.groupMap mapGroupDelete (fun _ _ _ hb => mem_nodeDelete hb) lr

theorem meterMap_poflrEmptyMeter (lr : LocalResource) : (poflrEmptyMeter lr).meterMap.nodes = [] :=
  nodes_foldl_delete LocalResource.meterMap mapMeterDelete (fun _ _ _ hb => mem_nodeDelete hb) lr

theorem addrs_setTable (lr : LocalResource) (table : TableInfo) :
    (lr.setTable table).tableIdMap.nodes.map TableInfo.addr =
      lr.tableIdMap.nodes.map TableInfo.addr := by
  simp only [LocalResource.setTable, Hmap.modify, List.map_map]
  refine List.map_congr_left fun t _ => ?_
  simp only [Function.comp_apply]
  split_ifs with h
  · exact h.symm
  · rfl

theorem deleteAllEntries_frame {β : Type} (part : LocalResource → β)
    (h : ∀ lr table, part (LocalResource.setTable lr table) = part lr) (table : TableInfo)
    (lr : LocalResource) : part (deleteAllEntries table lr) = part lr := by
  unfold deleteAllEntries
  refine foldl_frame part (fun _ _ => _) (fun entry lr => ?_) _ lr
  split
  · rfl
  · exact h _ _

theorem tableIdMap_poflrEmptyFlowTable (lr : LocalResource) :
    (poflrEmptyFlowTable lr).tableIdMap.nodes = [] := by
  refine nodes_foldl_delete LocalResource.tableIdMap
    (fun table lr => mapTableDelete table (deleteAllEntries table lr)) (fun table lr b hb => ?_) lr
  obtain ⟨hne, c, hc, hcb⟩ := mem_nodeDelete hb
  have haddrs : (deleteAllEntries table lr).tableIdMap.nodes.map TableInfo.addr =
      lr.tableIdMap.nodes.map TableInfo.addr :=
    deleteAllEntries_frame (fun lr => lr.tableIdMap.nodes.map TableInfo.addr) addrs_setTable table lr
  have hin : addr c ∈ lr.tableIdMap.nodes.map TableInfo.addr := haddrs ▸ List.mem_map_of_mem hc
  obtain ⟨d, hd, hdc⟩ := List.mem_map.1 hin
  exact ⟨hne, d, hd, hdc.trans hcb⟩

/-- The ports after `poflr_disable_all_port`. -/
theorem portPofIndexMap_poflrDisableAllPort (lr : LocalResource) :
    ∀ p ∈ (poflrDisableAllPort lr).portPofIndexMap.nodes, p.ofEnable = pofeDisable := by
  have hloop : ∀ (ts : List PortInfo) (lr : LocalResource),
      ∀ p ∈ (ts.foldl (fun lr port => disablePort port lr) lr).portPofIndexMap.nodes,
        p.ofEnable = pofeDisable ∨ p ∈ lr.portPofIndexMap.nodes ∧ ∀ t ∈ ts, p.addr ≠ t.addr := by
    intro ts
    induction ts with
    | nil => intro lr p hp; exact Or.inr ⟨hp, by simp⟩
    | cons t ts ih =>
        intro lr p hp
        rcases ih _ p hp with hdis | ⟨hp, hts⟩
        · exact Or.inl hdis
        · obtain ⟨q, hq, rfl⟩ := List.mem_map.1 hp
          by_cases hqt : HmapNode.addr q = t.addr
          · exact Or.inl (by rw [if_pos hqt])
          · rw [if_neg hqt] at hts ⊢
            refine Or.inr ⟨hq, fun u hu => ?_⟩
            rcases List.mem_cons.1 hu with rfl | hu
            · exact hqt
            · exact hts u hu
  intro p hp
  rcases hloop _ lr p hp with hdis | ⟨hmem, hts⟩
  · exact hdis
  · exact absurd rfl (hts p (lr.portPofIndexMap.mem_order.2 hmem))

/-- A local resource with no tables, groups, meters and counters and with every port disabled. -/
structure LocalResource.Cleared (lr : LocalResource) : Prop where
  tables : lr.tableIdMap.nodes = []
  groups : lr.groupMap.nodes = []
  meters : lr.meterMap.nodes = []
  counters : lr.counterMap.nodes = []
  ports : ∀ p ∈ lr.portPofIndexMap.nodes, p.ofEnable = pofeDisable

section EmptyFrame

variable {β : Type} (part : LocalResource → β) (lr : LocalResource)

theorem poflrEmptyCounter_frame (h : ∀ c lr, part (mapCounterDelete c lr) = part lr) :
    part (poflrEmptyCounter lr) = part lr := foldl_frame part mapCounterDelete h _ lr

theorem poflrEmptyMeter_frame (h : ∀ c lr, part (mapMeterDelete c lr) = part lr) :
    part (poflrEmptyMeter lr) = part lr := foldl_frame part mapMeterDelete h _ lr

theorem poflrEmptyGroup_frame (h : ∀ c lr, part (mapGroupDelete c lr) = part lr) :
    part (poflrEmptyGroup lr) = part lr := foldl_frame part mapGroupDelete h _ lr

theorem poflrEmptyFlowTable_frame (hset : ∀ lr table, part (LocalResource.setTable lr table) = part lr)
    (hdel : ∀ table lr, part (mapTableDelete table lr) = part lr) :
    part (poflrEmptyFlowTable lr) = part lr :=
  foldl_frame part (fun table lr => mapTableDelete table (deleteAllEntries table lr))
    (fun table lr => (hdel _ _).trans (deleteAllEntries_frame part hset table lr)) _ lr

theorem poflrDisableAllPort_frame (h : ∀ p lr, part (disablePort p lr) = part lr) :
    part (poflrDisableAllPort lr) = part lr := foldl_frame part disablePort h _ lr

end EmptyFrame

/-- **Clearing leaves no table, group, meter or counter and disables every port.** -/
theorem poflrClearResource_cleared (lr : LocalResource) : (poflrClearResource lr).Cleared := by
  unfold poflrClearResource
  constructor
  case tables =>
    rw [poflrEmptyCounter_frame (fun lr => lr.tableIdMap) _ fun _ _ => rfl,
      poflrEmptyMeter_frame (fun lr => lr.tableIdMap) _ fun _ _ => rfl,
      poflrEmptyGroup_frame (fun lr => lr.tableIdMap) _ fun _ _ => rfl]
    exact tableIdMap_poflrEmptyFlowTable _
  case groups =>
    rw [poflrEmptyCounter_frame (fun lr => lr.groupMap) _ fun _ _ => rfl,
      poflrEmptyMeter_frame (fun lr => lr.groupMap) _ fun _ _ => rfl]
    exact groupMap_poflrEmptyGroup _
  case meters =>
    rw [poflrEmptyCounter_frame (fun lr => lr.meterMap) _ fun _ _ => rfl]
    exact meterMap_poflrEmptyMeter _
  case counters => exact counterMap_poflrEmptyCounter _
  case ports =>
    rw [poflrEmptyCounter_frame (fun lr => lr.portPofIndexMap) _ fun _ _ => rfl,
      poflrEmptyMeter_frame (fun lr => lr.portPofIndexMap) _ fun _ _ => rfl,
      poflrEmptyGroup_frame (fun lr => lr.portPofIndexMap) _ fun _ _ => rfl,
      poflrEmptyFlowTable_frame (fun lr => lr.portPofIndexMap) _ (fun _ _ => rfl) fun _ _ => rfl]
    exact portPofIndexMap_poflrDisableAllPort lr

theorem limits_poflrClearResource (lr : LocalResource) : (poflrClearResource lr).limits = lr.limits := by
  rw [poflrClearResource, poflrEmptyCounter_frame LocalResource.limits _ fun _ _ => rfl,
    poflrEmptyMeter_frame LocalResource.limits _ fun _ _ => rfl,
    poflrEmptyGroup_frame LocalResource.limits _ fun _ _ => rfl,
    poflrEmptyFlowTable_frame LocalResource.limits _ (fun _ _ => rfl) fun _ _ => rfl,
    poflrDisableAllPort_frame LocalResource.limits _ fun _ _ => rfl]

/-! ### What a request does to the tables -/

/-- The changes one request can make to a table. -/
inductive TableChange : TableInfo → TableInfo → Prop
  | same (t : TableInfo) : TableChange t t
  | insert {t : TableInfo} {flow : PofFlowEntry} {newAt : ℕ} {entry : EntryInfo} :
      Filled flow newAt t entry → (∀ e ∈ t.entryMap.nodes, e.addr ≠ newAt) →
      TableChange t (entryLink entry t)
  | delete {t : TableInfo} {old : EntryInfo} : old ∈ t.entryMap.nodes →
      TableChange t (entryDelete old t)
  | replace {t : TableInfo} {old : EntryInfo} {flow : PofFlowEntry} {newAt : ℕ} {entry : EntryInfo} :
      old ∈ t.entryMap.nodes → Filled flow newAt (entryDelete old t) entry →
      (∀ e ∈ (entryDelete old t).entryMap.nodes, e.addr ≠ newAt) →
      TableChange t (entryLink entry (entryDelete old t))

theorem TableChange.sameShape {t t' : TableInfo} (h : TableChange t t') : SameShape t t' := by
  cases h with
  | same => exact SameShape.refl t
  | insert _ _ => exact sameShape_entryLink _ t
  | delete _ => exact sameShape_entryDelete _ t
  | replace _ _ _ => exact (sameShape_entryDelete _ t).trans (sameShape_entryLink _ _)

theorem flowModTable_mem {flow : PofFlowEntry} {lr : LocalResource} {t : TableInfo}
    (h : flowModTable flow lr = .ok t) : t ∈ lr.tableIdMap.nodes := by
  unfold flowModTable at h
  split at h
  · cases h
  · split_ifs at h
    split at h
    · cases h
    · rename_i heq
      split_ifs at h
      cases h
      exact List.mem_of_find?_eq_some heq

theorem poflrEntryGetWithIndex_mem {index : UInt32} {t : TableInfo} {e : EntryInfo}
    (h : poflrEntryGetWithIndex index t = some e) : e ∈ t.entryMap.nodes :=
  t.entryMap.mem_order.1 (List.mem_of_find?_eq_some h)

theorem poflrEntryGetWithIndex_index {index : UInt32} {t : TableInfo} {e : EntryInfo}
    (h : poflrEntryGetWithIndex index t = some e) : e.index = index := by
  have hindex := List.find?_some h
  rwa [decide_eq_true_eq] at hindex

/-- The tables after the writes of an operation to one of them. -/
theorem mem_setTable {lr : LocalResource} {table t' : TableInfo}
    (h : t' ∈ (lr.setTable table).tableIdMap.nodes) :
    t' = table ∨ t' ∈ lr.tableIdMap.nodes ∧ t'.addr ≠ table.addr := by
  obtain ⟨t, ht, rfl⟩ := List.mem_map.1 h
  simp only
  split_ifs with haddr
  · exact Or.inl rfl
  · exact Or.inr ⟨ht, haddr⟩

theorem mem_liveAddrs_entry {lr : LocalResource} {t : TableInfo} {e : EntryInfo}
    (ht : t ∈ lr.tableIdMap.nodes) (he : e ∈ t.entryMap.nodes) : e.addr ∈ lr.liveAddrs := by
  have hmem : e.addr ∈ lr.tableIdMap.nodes.flatMap fun t => t.entryMap.nodes.map EntryInfo.addr :=
    List.mem_flatMap.2 ⟨t, ht, List.mem_map_of_mem he⟩
  simp only [LocalResource.liveAddrs, List.mem_append]
  exact Or.inl (Or.inl (Or.inl (Or.inl (Or.inr hmem))))

theorem SameShape.accepts_iff {t t' : TableInfo} (h : SameShape t t') (flow : PofFlowEntry) :
    (Accepts flow t' ↔ Accepts flow t) ∧ (Refuses flow t' ↔ Refuses flow t) := by
  rw [Accepts, Accepts, Refuses, Refuses, h.type_eq, h.keyLen_eq]
  exact ⟨Iff.rfl, Iff.rfl⟩

/-- What `poflr_add_flow_entry` can do: fail and change nothing, not return, or link an entry and
then initialise its counter. -/
theorem poflrAddFlowEntry_cases (flow : PofFlowEntry) (entryAt counterAt : ℕ) (lr : LocalResource) :
    (∃ e, poflrAddFlowEntry flow entryAt counterAt lr = some (.error e, lr) ∧
        ∀ t, flowModTable flow lr = .ok t → Refuses flow t) ∨
      (∃ t, flowModTable flow lr = .ok t ∧ ¬ Accepts flow t ∧ ¬ Refuses flow t ∧
        poflrAddFlowEntry flow entryAt counterAt lr = none) ∨
      ∃ t entry, flowModTable flow lr = .ok t ∧ Accepts flow t ∧ Filled flow entryAt t entry ∧
        poflrAddFlowEntry flow entryAt counterAt lr =
          some (poflrCounterInit flow.counterId counterAt (lr.setTable (entryLink entry t))) := by
  unfold poflrAddFlowEntry
  cases ht : flowModTable flow lr with
  | error e => exact Or.inl ⟨e, rfl, fun t h => by cases h⟩
  | ok t =>
      rcases entryInsert_cases flow entryAt t with
        ⟨hacc, entry, hfill, hins⟩ | ⟨hrefuse, e, hins⟩ | ⟨hacc, hrefuse, hins⟩
      · exact Or.inr (Or.inr ⟨t, entry, rfl, hacc, hfill, by simp [hins]⟩)
      · refine Or.inl ⟨_, by simp only [hins]; rfl, fun t' h => ?_⟩
        cases h
        exact hrefuse
      · exact Or.inr (Or.inl ⟨t, rfl, hacc, hrefuse, by simp only [hins]; rfl⟩)

/-- What the counter of a modified entry can do to the request: a failure changes nothing. -/
theorem modifyCounter_error {old : EntryInfo} {flow : PofFlowEntry} {counterAt : ℕ}
    {lr lr' : LocalResource} {e : PofError} (h : modifyCounter old flow counterAt lr = (.error e, lr')) :
    lr' = lr := by
  unfold modifyCounter at h
  split_ifs at h with hne
  · rcases poflrCounterInit_cases flow.counterId counterAt lr with ⟨_, heq⟩ | ⟨heq, _⟩ | ⟨heq, _⟩
    · rw [heq] at h
      exact (Prod.mk.inj h).2.symm
    · rw [heq] at h
      simp at h
    · rw [heq] at h
      simp at h
  · simp at h

/-- What `poflr_modify_flow_entry` can do: fail and change nothing, or take the old entry out, after
which the new one is linked or refused, or the request does not return. -/
theorem poflrModifyFlowEntry_cases (flow : PofFlowEntry) (entryAt counterAt : ℕ)
    (lr : LocalResource) :
    (∃ e, poflrModifyFlowEntry flow entryAt counterAt lr = some (.error e, lr) ∧
        ∀ t old, flowModTable flow lr = .ok t → poflrEntryGetWithIndex flow.index t = some old →
          (modifyCounter old flow counterAt lr).1 ≠ .ok ()) ∨
      ∃ t old lr₁, flowModTable flow lr = .ok t ∧
        poflrEntryGetWithIndex flow.index t = some old ∧
        modifyCounter old flow counterAt lr = (.ok (), lr₁) ∧
        ((Accepts flow t ∧ ∃ entry, Filled flow entryAt (entryDelete old t) entry ∧
            poflrModifyFlowEntry flow entryAt counterAt lr =
              some (.ok (), lr₁.setTable (entryLink entry (entryDelete old t)))) ∨
          (Refuses flow t ∧ ∃ e, poflrModifyFlowEntry flow entryAt counterAt lr =
            some (.error e, lr₁.setTable (entryDelete old t))) ∨
          (¬ Accepts flow t ∧ ¬ Refuses flow t ∧
            poflrModifyFlowEntry flow entryAt counterAt lr = none)) := by
  unfold poflrModifyFlowEntry
  cases ht : flowModTable flow lr with
  | error e => exact Or.inl ⟨e, rfl, fun t old h => by cases h⟩
  | ok t =>
      simp only
      cases hold : poflrEntryGetWithIndex flow.index t with
      | none =>
          refine Or.inl ⟨_, rfl, fun t' old h h' => ?_⟩
          cases h
          rw [hold] at h'
          cases h'
      | some old =>
          simp only
          rcases hcounter : modifyCounter old flow counterAt lr with ⟨e | u, lr₁⟩
          · refine Or.inl ⟨e, by rw [modifyCounter_error hcounter], fun t' old' h h' => ?_⟩
            cases h
            rw [hold] at h'
            cases h'
            rw [hcounter]
            simp
          · obtain ⟨haccepts, hrefuses⟩ := (sameShape_entryDelete old t).accepts_iff flow
            refine Or.inr ⟨t, old, lr₁, rfl, hold, hcounter, ?_⟩
            rw [← haccepts, ← hrefuses]
            rcases entryInsert_cases flow entryAt (entryDelete old t) with
              ⟨hacc, entry, hfill, hins⟩ | ⟨hrefuse, e, hins⟩ | ⟨hacc, hrefuse, hins⟩
            · exact Or.inl ⟨hacc, entry, hfill, by simp only [hins]; rfl⟩
            · exact Or.inr (Or.inl ⟨hrefuse, _, by simp only [hins]; rfl⟩)
            · exact Or.inr (Or.inr ⟨hacc, hrefuse, by simp only [hins]; rfl⟩)

theorem poflrDeleteFlowEntry_cases (flow : PofFlowEntry) (lr : LocalResource) :
    (∃ e, poflrDeleteFlowEntry flow lr = (.error e, lr)) ∨
      ∃ t old lr₁, flowModTable flow lr = .ok t ∧ poflrEntryGetWithIndex flow.index t = some old ∧
        poflrCounterDelete old.counterId lr = (.ok (), lr₁) ∧
        poflrDeleteFlowEntry flow lr = (.ok (), lr₁.setTable (entryDelete old t)) := by
  unfold poflrDeleteFlowEntry
  cases ht : flowModTable flow lr with
  | error e => exact Or.inl ⟨e, rfl⟩
  | ok t =>
      cases hold : poflrEntryGetWithIndex flow.index t with
      | none =>
          simp only [hold]
          exact Or.inl ⟨_, rfl⟩
      | some old =>
          simp only [hold]
          rcases poflrCounterDelete_cases old.counterId lr with ⟨e, heq⟩ | ⟨heq, _⟩ | ⟨c, heq, _⟩
          · exact Or.inl ⟨e, by rw [heq]⟩
          · exact Or.inr ⟨t, old, lr, rfl, hold, heq, by rw [heq]⟩
          · exact Or.inr ⟨t, old, _, rfl, hold, heq, by rw [heq]⟩

/-- The message passes the checks of `poflr_create_flow_table`. -/
structure Admits (lr : LocalResource) (msg : PofFlowTable) (type : TableType) : Prop where
  type_eq : TableType.ofUInt8 msg.type = some type
  tid_lt : msg.tid.toUInt16 < lr.tableNumMaxEachType.getD type.toNat 0
  absent : poflrGetTableWithID (poflrTableIdToID type msg.tid lr) lr = none
  size_le : msg.size ≤ lr.tableSizeMax
  keyLen_le : msg.keyLen ≤ lr.keyLenEachType.getD type.toNat 0

theorem poflrCreateFlowTable_cases (msg : PofFlowTable) (newAt : ℕ) (lr : LocalResource) :
    (∃ e, poflrCreateFlowTable msg newAt lr = (.error e, lr)) ∨
      ∃ type, Admits lr msg type ∧ poflrCreateFlowTable msg newAt lr =
        (.ok (), mapTableInsert (newTable msg type (poflrTableIdToID type msg.tid lr) newAt) lr) := by
  unfold poflrCreateFlowTable
  cases htype : TableType.ofUInt8 msg.type with
  | none => exact Or.inl ⟨_, rfl⟩
  | some type =>
      simp only
      split_ifs with htid habsent hsize hlen
      · exact Or.inl ⟨_, rfl⟩
      · exact Or.inl ⟨_, rfl⟩
      · exact Or.inl ⟨_, rfl⟩
      · exact Or.inl ⟨_, rfl⟩
      · refine Or.inr ⟨type, ⟨htype, UInt16.not_le.1 htid, ?_, UInt32.not_lt.1 hsize,
          UInt16.not_lt.1 hlen⟩, rfl⟩
        simpa using habsent

theorem poflrDeleteFlowTable_cases (id type : UInt8) (lr : LocalResource) :
    (∃ e, poflrDeleteFlowTable id type lr = (.error e, lr)) ∨
      ∃ t ∈ lr.tableIdMap.nodes, t.entryNum = 0 ∧
        poflrDeleteFlowTable id type lr = (.ok (), mapTableDelete t lr) := by
  unfold poflrDeleteFlowTable
  cases htype : TableType.ofUInt8 type with
  | none => exact Or.inl ⟨_, rfl⟩
  | some type =>
      simp only
      split_ifs with h₁
      · exact Or.inl ⟨_, rfl⟩
      · cases ht : poflrGetTableWithID (poflrTableIdToID type id lr) lr with
        | none => exact Or.inl ⟨_, rfl⟩
        | some t =>
            simp only
            split_ifs with h₂
            · exact Or.inl ⟨_, rfl⟩
            · exact Or.inr ⟨t, List.mem_of_find?_eq_some ht, by simpa using h₂, rfl⟩

theorem sameTables_modifyCounter (lr : LocalResource) (old : EntryInfo) (flow : PofFlowEntry) (a : ℕ) :
    SameTables lr (modifyCounter old flow a lr).2 := by
  unfold modifyCounter
  split_ifs
  · exact sameTables_poflrCounterInit lr _ a
  · exact ⟨rfl, rfl⟩

/-- What a request made in state `lr` can do to a table, with the guards it has passed. -/
inductive OpChange (lr : LocalResource) : LrOp → TableInfo → TableInfo → Prop
  | same (op : LrOp) (t : TableInfo) : OpChange lr op t t
  | insert {flow : PofFlowEntry} {entryAt counterAt : ℕ} {t : TableInfo} {entry : EntryInfo} :
      flowModTable flow lr = .ok t → Accepts flow t → Filled flow entryAt t entry →
      (∀ e ∈ t.entryMap.nodes, e.addr ≠ entryAt) →
      OpChange lr (.addFlowEntry flow entryAt counterAt) t (entryLink entry t)
  | delete {flow : PofFlowEntry} {t : TableInfo} {old : EntryInfo} :
      flowModTable flow lr = .ok t → poflrEntryGetWithIndex flow.index t = some old →
      (poflrCounterDelete old.counterId lr).1 = .ok () →
      OpChange lr (.deleteFlowEntry flow) t (entryDelete old t)
  | lose {flow : PofFlowEntry} {entryAt counterAt : ℕ} {t : TableInfo} {old : EntryInfo} :
      flowModTable flow lr = .ok t → poflrEntryGetWithIndex flow.index t = some old →
      (modifyCounter old flow counterAt lr).1 = .ok () → Refuses flow t →
      OpChange lr (.modifyFlowEntry flow entryAt counterAt) t (entryDelete old t)
  | replace {flow : PofFlowEntry} {entryAt counterAt : ℕ} {t : TableInfo} {old entry : EntryInfo} :
      flowModTable flow lr = .ok t → poflrEntryGetWithIndex flow.index t = some old →
      (modifyCounter old flow counterAt lr).1 = .ok () → Accepts flow t →
      Filled flow entryAt (entryDelete old t) entry →
      (∀ e ∈ (entryDelete old t).entryMap.nodes, e.addr ≠ entryAt) →
      OpChange lr (.modifyFlowEntry flow entryAt counterAt) t (entryLink entry (entryDelete old t))

theorem OpChange.tableChange {lr : LocalResource} {op : LrOp} {t t' : TableInfo}
    (h : OpChange lr op t t') : TableChange t t' := by
  cases h with
  | same => exact TableChange.same t
  | insert _ _ hfill hnew => exact TableChange.insert hfill hnew
  | delete _ hold _ => exact TableChange.delete (poflrEntryGetWithIndex_mem hold)
  | lose _ hold _ _ => exact TableChange.delete (poflrEntryGetWithIndex_mem hold)
  | replace _ hold _ _ hfill hnew =>
      exact TableChange.replace (poflrEntryGetWithIndex_mem hold) hfill hnew

/-- The request, made in state `lr`, stores an entry of the message in the table. -/
inductive Stores (lr : LocalResource) : LrOp → PofFlowEntry → TableInfo → Prop
  | add {flow : PofFlowEntry} {entryAt counterAt : ℕ} {t : TableInfo} :
      flowModTable flow lr = .ok t → Accepts flow t →
      Stores lr (.addFlowEntry flow entryAt counterAt) flow t
  | modify {flow : PofFlowEntry} {entryAt counterAt : ℕ} {t : TableInfo} {old : EntryInfo} :
      flowModTable flow lr = .ok t → poflrEntryGetWithIndex flow.index t = some old →
      (modifyCounter old flow counterAt lr).1 = .ok () → Accepts flow t →
      Stores lr (.modifyFlowEntry flow entryAt counterAt) flow t

/-- The request, made in state `lr`, takes the entry out of the table. -/
inductive Removes (lr : LocalResource) : LrOp → TableInfo → EntryInfo → Prop
  | delete {flow : PofFlowEntry} {t : TableInfo} {old : EntryInfo} :
      flowModTable flow lr = .ok t → poflrEntryGetWithIndex flow.index t = some old →
      (poflrCounterDelete old.counterId lr).1 = .ok () → Removes lr (.deleteFlowEntry flow) t old
  | modify {flow : PofFlowEntry} {entryAt counterAt : ℕ} {t : TableInfo} {old : EntryInfo} :
      flowModTable flow lr = .ok t → poflrEntryGetWithIndex flow.index t = some old →
      (modifyCounter old flow counterAt lr).1 = .ok () →
      Removes lr (.modifyFlowEntry flow entryAt counterAt) t old

/-- A new empty table within the limits, created by the request. -/
def NewTable (lr : LocalResource) (op : LrOp) (t : TableInfo) : Prop :=
  ∃ msg type newAt, op = .createFlowTable msg newAt ∧ Admits lr msg type ∧
    t = newTable msg type (poflrTableIdToID type msg.tid lr) newAt

/-- Every table of `lr'` is a table of `lr` that the request has changed or a new one, and the limits
are the same. -/
def TablesBy (lr : LocalResource) (op : LrOp) (lr' : LocalResource) : Prop :=
  (∀ t' ∈ lr'.tableIdMap.nodes, (∃ t ∈ lr.tableIdMap.nodes, OpChange lr op t t') ∨ NewTable lr op t') ∧
    lr'.limits = lr.limits

theorem SameTables.tablesBy {lr lr' : LocalResource} (h : SameTables lr lr') (op : LrOp) :
    TablesBy lr op lr' := by
  refine ⟨fun t' ht' => Or.inl ⟨t', ?_, OpChange.same op t'⟩, h.2⟩
  rw [← h.1]
  exact ht'

theorem tablesBy_setTable {lr lr₁ : LocalResource} {op : LrOp} {t t' : TableInfo}
    (h : SameTables lr lr₁) (ht : t ∈ lr.tableIdMap.nodes) (hchange : OpChange lr op t t') :
    TablesBy lr op (lr₁.setTable t') := by
  refine ⟨fun u hu => Or.inl ?_, h.2⟩
  rcases mem_setTable hu with rfl | ⟨hu, _⟩
  · exact ⟨t, ht, hchange⟩
  · exact ⟨u, h.1 ▸ hu, OpChange.same op u⟩

/-- The address of an entry that a request gets is one it has freed. -/
theorem LrOp.Fresh.mem_frees {op : LrOp} {lr : LocalResource} (hfresh : op.Fresh lr) {t : TableInfo}
    {e : EntryInfo} {a : ℕ} (ht : t ∈ lr.tableIdMap.nodes) (he : e ∈ t.entryMap.nodes) (ha : a ∈ op.allocs)
    (hea : e.addr = a) : a ∈ op.frees lr := by
  rw [← hea] at ha ⊢
  exact (hfresh.2 _ ha).2 (mem_liveAddrs_entry ht he)

section FlowEntries

variable {flow : PofFlowEntry} {entryAt counterAt : ℕ} {lr lr' : LocalResource} {ret : Ret}

theorem tablesBy_addFlowEntry (hfresh : (LrOp.addFlowEntry flow entryAt counterAt).Fresh lr)
    (h : poflrAddFlowEntry flow entryAt counterAt lr = some (ret, lr')) :
    TablesBy lr (.addFlowEntry flow entryAt counterAt) lr' := by
  rcases poflrAddFlowEntry_cases flow entryAt counterAt lr with
    ⟨e, heq, _⟩ | ⟨t, _, _, _, heq⟩ | ⟨t, entry, ht, hacc, hfill, heq⟩
  · cases h.symm.trans heq
    exact (SameTables.refl lr).tablesBy _
  · cases h.symm.trans heq
  · have hmem := flowModTable_mem ht
    have hset : TablesBy lr (.addFlowEntry flow entryAt counterAt) (lr.setTable (entryLink entry t)) := by
      refine tablesBy_setTable (SameTables.refl lr) hmem (OpChange.insert ht hacc hfill ?_)
      intro e he hea
      have hfree := hfresh.mem_frees hmem he (by simp [LrOp.allocs]) hea
      simp [LrOp.frees] at hfree
    have hsame := sameTables_poflrCounterInit (lr.setTable (entryLink entry t)) flow.counterId counterAt
    rw [← Option.some.inj (h.symm.trans heq)] at hsame
    refine ⟨fun t' ht' => hset.1 t' ?_, hsame.2.trans hset.2⟩
    rw [← hsame.1]
    exact ht'

theorem tablesBy_modifyFlowEntry (hfresh : (LrOp.modifyFlowEntry flow entryAt counterAt).Fresh lr)
    (h : poflrModifyFlowEntry flow entryAt counterAt lr = some (ret, lr')) :
    TablesBy lr (.modifyFlowEntry flow entryAt counterAt) lr' := by
  rcases poflrModifyFlowEntry_cases flow entryAt counterAt lr with
    ⟨e, heq, _⟩ | ⟨t, old, lr₁, ht, hold, hinit, hrest⟩
  · cases h.symm.trans heq
    exact (SameTables.refl lr).tablesBy _
  · have hmem := flowModTable_mem ht
    have hsame := sameTables_modifyCounter lr old flow counterAt
    rw [hinit] at hsame
    have hok : (modifyCounter old flow counterAt lr).1 = .ok () := by rw [hinit]
    rcases hrest with ⟨hacc, entry, hfill, heq⟩ | ⟨hrefuse, e, heq⟩ | ⟨_, _, heq⟩
    · cases h.symm.trans heq
      refine tablesBy_setTable hsame hmem (OpChange.replace ht hold hok hacc hfill ?_)
      -- the only address in use that may be given again is the one of the old entry
      intro e he hea
      have hsub := nodes_entryDelete old t ▸ he
      rw [List.mem_filter, decide_eq_true_eq] at hsub
      have hfree := hfresh.mem_frees hmem hsub.1 (by simp [LrOp.allocs]) hea
      simp only [LrOp.frees, ht, hold] at hfree
      split_ifs at hfree with hold'
      · exact hsub.2 (hea.trans hold'.symm)
      · simp at hfree
    · cases h.symm.trans heq
      exact tablesBy_setTable hsame hmem (OpChange.lose ht hold hok hrefuse)
    · cases h.symm.trans heq

theorem tablesBy_deleteFlowEntry (flow : PofFlowEntry) (lr : LocalResource) :
    TablesBy lr (.deleteFlowEntry flow) (poflrDeleteFlowEntry flow lr).2 := by
  rcases poflrDeleteFlowEntry_cases flow lr with ⟨e, heq⟩ | ⟨t, old, lr₁, ht, hold, hdel, heq⟩
  · rw [heq]
    exact (SameTables.refl lr).tablesBy _
  · have hsame := sameTables_poflrCounterDelete lr old.counterId
    rw [hdel] at hsame
    rw [heq]
    exact tablesBy_setTable hsame (flowModTable_mem ht) (OpChange.delete ht hold (by rw [hdel]))

end FlowEntries

/-- **The possible changes of the tables: a table of the new state is a table of the old state after
at most one removal and at most one insertion of an entry, or a new empty table.** -/
theorem LrOp.tables_cases {op : LrOp} {lr lr' : LocalResource} {ret : Ret}
    (h : op.exec lr = some (ret, lr')) (hfresh : op.Fresh lr) : TablesBy lr op lr' := by
  have hpure : ∀ {r : Ret × LocalResource}, some r = some (ret, lr') → SameTables lr r.2 →
      TablesBy lr op lr' := by
    rintro r hr hsame
    cases hr
    exact hsame.tablesBy op
  cases op with
  | createFlowTable msg newAt =>
      rcases poflrCreateFlowTable_cases msg newAt lr with ⟨e, heq⟩ | ⟨type, hadmits, heq⟩
      · cases (Option.some.inj h).symm.trans heq
        exact (SameTables.refl lr).tablesBy _
      · cases (Option.some.inj h).symm.trans heq
        refine ⟨fun t' ht' => ?_, rfl⟩
        rcases List.mem_cons.1 ht' with rfl | ht'
        · exact Or.inr ⟨msg, type, newAt, rfl, hadmits, rfl⟩
        · exact Or.inl ⟨t', ht', OpChange.same _ t'⟩
  | deleteFlowTable id type =>
      rcases poflrDeleteFlowTable_cases id type lr with ⟨e, heq⟩ | ⟨t, _, _, heq⟩
      · cases (Option.some.inj h).symm.trans heq
        exact (SameTables.refl lr).tablesBy _
      · cases (Option.some.inj h).symm.trans heq
        refine ⟨fun t' ht' => Or.inl ⟨t', ?_, OpChange.same _ t'⟩, rfl⟩
        rw [mapTableDelete, Hmap.nodes_nodeDelete] at ht'
        exact List.mem_of_mem_filter ht'
  | addFlowEntry flow entryAt counterAt => exact tablesBy_addFlowEntry hfresh h
  | modifyFlowEntry flow entryAt counterAt => exact tablesBy_modifyFlowEntry hfresh h
  | deleteFlowEntry flow =>
      have hdelete := tablesBy_deleteFlowEntry flow lr
      rwa [Option.some.inj h] at hdelete
  | addGroupEntry group groupAt counterAt =>
      exact hpure h (sameTables_poflrAddGroupEntry lr _ _ _)
  | modifyGroupEntry group =>
      exact hpure h (sameTables_poflrModifyGroupEntry lr _)
  | deleteGroupEntry group =>
      exact hpure h (sameTables_poflrDeleteGroupEntry lr _)
  | addMeterEntry meterId rate newAt =>
      exact hpure h (sameTables_poflrAddMeterEntry lr _ _ _)
  | modifyMeterEntry meterId rate =>
      exact hpure h (sameTables_poflrModifyMeterEntry lr _ _)
  | deleteMeterEntry meterId =>
      exact hpure h (sameTables_poflrDeleteMeterEntry lr _)
  | counterInit counterId newAt =>
      exact hpure h (sameTables_poflrCounterInit lr _ _)
  | counterDelete counterId =>
      exact hpure h (sameTables_poflrCounterDelete lr _)
  | counterClear counterId =>
      exact hpure h (sameTables_poflrCounterClear lr _)
  | portOpenflowEnable portId flag =>
      exact hpure h (sameTables_poflrPortOpenflowEnable lr _ _)
  | clearResource =>
      cases h
      refine ⟨fun t' ht' => ?_, limits_poflrClearResource lr⟩
      rw [(poflrClearResource_cleared lr).tables] at ht'
      simp at ht'

end PofSwitch
