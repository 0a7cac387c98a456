/-
**The local resource: counters, groups, meters and ports.**

`struct pof_local_resource` holds the tables, groups, meters, counters and ports of one slot, each
kind in a hash map, with a count beside the map and a limit on the identifiers.  This module has
the record and the operations of `pof_counter.c`, `pof_group.c`, `pof_meter.c` and the part of
`pof_port.c` the control task uses; the flow tables are in `PofSwitch/FlowTable.lean`.

Memory allocation succeeds.  An operation that allocates is given the address `malloc` returns.  An
operation returns its return code together with the state it leaves, which on an error need not be
the state it found.

Main definitions:

* `PofSwitch.EntryInfo`, `TableInfo`, `GroupInfo`, `MeterInfo`, `CounterInfo`, `PortInfo`;
* `PofSwitch.LocalResource`;
* `PofSwitch.poflrCounterInit`, `poflrCounterDelete`, `poflrAddGroupEntry`,
  `poflrModifyGroupEntry`, `poflrDeleteGroupEntry`, `poflrAddMeterEntry`, ….

Main results:

* `PofSwitch.poflrCounterInit_cases`, `PofSwitch.poflrCounterDelete_cases` — what the two operations on
  counters can do.
-/

import PofSwitch.Global
import PofSwitch.Hmap
import PofSwitch.Tree

set_option relaxedAutoImplicit false
set_option autoImplicit false

namespace PofSwitch

open HmapNode

/-! ### Stored structures -/

/-- `struct entryInfo`. -/
structure EntryInfo where
  addr : ℕ
  index : UInt32
  hash : UInt32
  counterId : UInt32
  instructionNum : UInt8
  instruction : List PofInstruction
  priority : UInt16
  keyLen : UInt16
  matchFieldNum : UInt8
  match_ : List PofMatchX
  value : Buf
  mask : Buf
deriving DecidableEq, Repr

instance : HmapNode EntryInfo := ⟨EntryInfo.addr, EntryInfo.hash⟩

/-- `struct tableInfo`.  `hash` is the hash in `idNode`; only LPM tables have a tree. -/
structure TableInfo where
  addr : ℕ
  id : UInt8
  hash : UInt32
  type : TableType
  name : Buf
  entryMap : Hmap EntryInfo
  entryNum : UInt32
  size : UInt32
  keyLen : UInt16
  tree : Tree
  matchFieldNum : UInt8
  match_ : List PofMatch

instance : HmapNode TableInfo := ⟨TableInfo.addr, TableInfo.hash⟩

/-- `struct groupInfo`. -/
structure GroupInfo where
  addr : ℕ
  type : UInt8
  actionNumber : UInt8
  id : UInt32
  hash : UInt32
  counterId : UInt32
  action : List PofAction
deriving DecidableEq, Repr

instance : HmapNode GroupInfo := ⟨GroupInfo.addr, GroupInfo.hash⟩

/-- `struct meterInfo`. -/
structure MeterInfo where
  addr : ℕ
  rate : UInt32
  id : UInt32
  hash : UInt32
deriving DecidableEq, Repr

instance : HmapNode MeterInfo := ⟨MeterInfo.addr, MeterInfo.hash⟩

/-- `struct counterInfo`. -/
structure CounterInfo where
  addr : ℕ
  id : UInt32
  hash : UInt32
  value : UInt64
  byteValue : UInt64
deriving DecidableEq, Repr

instance : HmapNode CounterInfo := ⟨CounterInfo.addr, CounterInfo.hash⟩

/-- `struct portInfo`, the fields used here; `hash` is the hash in `pofIndexNode`. -/
structure PortInfo where
  addr : ℕ
  hash : UInt32
  sysIndex : UInt32
  pofIndex : UInt8
  slotID : UInt16
  ofEnable : UInt8
  config : UInt32
deriving DecidableEq, Repr

instance : HmapNode PortInfo := ⟨PortInfo.addr, PortInfo.hash⟩

/-- `struct pof_local_resource`, with the global array `poflr_key_len_each_type`. -/
structure LocalResource where
  slotID : UInt16
  portPofIndexMap : Hmap PortInfo
  tableIdMap : Hmap TableInfo
  tableNumMaxEachType : List UInt16
  tableNum : UInt16
  tableSizeMax : UInt32
  keyLenEachType : List UInt16
  groupMap : Hmap GroupInfo
  groupNumMax : UInt32
  groupNum : UInt32
  meterMap : Hmap MeterInfo
  meterNumMax : UInt32
  meterNum : UInt32
  counterMap : Hmap CounterInfo
  counterNumMax : UInt32
  counterNum : UInt32

/-- The slots of `struct pof_datapath`, in the order of a traversal of `slotMap`: `pofdp_slot_init`
inserts `slotNum` local resources, and none is inserted or deleted later. -/
structure Slots where
  slotNum : UInt32
  slots : List LocalResource
  slotNum_eq : slotNum.toNat = slots.length

/-- The identifiers of the counters there are. -/
def LocalResource.counterIds (lr : LocalResource) : List UInt32 := lr.counterMap.nodes.map CounterInfo.id

/-! ### Counters -/

/-- `poflr_get_counter_with_ID`. -/
def poflrGetCounterWithID (id : UInt32) (lr : LocalResource) : Option CounterInfo :=
  lr.counterMap.nodeGetWithHash (hmapHashForLinear id)

/-- `map_counterInsert`. -/
def mapCounterInsert (counter : CounterInfo) (lr : LocalResource) : LocalResource :=
  { lr with counterMap := lr.counterMap.nodeInsert counter, counterNum := lr.counterNum + 1 }

/-- `map_counterDelete`. -/
def mapCounterDelete (counter : CounterInfo) (lr : LocalResource) : LocalResource :=
  { lr with counterMap := lr.counterMap.nodeDelete counter.addr, counterNum := lr.counterNum - 1 }

/-- `poflr_counter_init`, with the address of a new counter, whose values are zero. -/
def poflrCounterInit (counterId : UInt32) (newAt : ℕ) (lr : LocalResource) : Ret × LocalResource :=
  if counterId = 0 then (.ok (), lr)
  else if counterId ≥ lr.counterNumMax then
    (.error ⟨.counterModFailed, .pofcmfcBadCounterId⟩, lr)
  else
    match poflrGetCounterWithID counterId lr with
    | some _ => (.ok (), lr)
    | none =>
        (.ok (), mapCounterInsert ⟨newAt, counterId, hmapHashForLinear counterId, 0, 0⟩ lr)

/-- `poflr_counter_delete`. -/
def poflrCounterDelete (counterId : UInt32) (lr : LocalResource) : Ret × LocalResource :=
  if counterId = 0 then (.ok (), lr)
  else if counterId ≥ lr.counterNumMax then
    (.error ⟨.counterModFailed, .pofcmfcBadCounterId⟩, lr)
  else
    match poflrGetCounterWithID counterId lr with
    | none => (.error ⟨.counterModFailed, .pofcmfcCounterUnexist⟩, lr)
    | some counter => (.ok (), mapCounterDelete counter lr)

/-- What `poflr_counter_init` can do: fail and change nothing, find nothing to do, or insert a
counter. -/
theorem poflrCounterInit_cases (c : UInt32) (newAt : ℕ) (lr : LocalResource) :
    (∃ e, poflrCounterInit c newAt lr = (.error e, lr)) ∨
      (poflrCounterInit c newAt lr = (.ok (), lr) ∧
        (c = 0 ∨ c < lr.counterNumMax ∧ (poflrGetCounterWithID c lr).isSome)) ∨
      (poflrCounterInit c newAt lr =
          (.ok (), mapCounterInsert ⟨newAt, c, hmapHashForLinear c, 0, 0⟩ lr) ∧
        c < lr.counterNumMax ∧ poflrGetCounterWithID c lr = none) := by
  unfold poflrCounterInit
  split_ifs with h₀ hmax
  · exact Or.inr (Or.inl ⟨rfl, Or.inl h₀⟩)
  · exact Or.inl ⟨_, rfl⟩
  · have hlt := UInt32.not_le.1 hmax
    cases hget : poflrGetCounterWithID c lr with
    | some counter => exact Or.inr (Or.inl ⟨rfl, Or.inr ⟨hlt, rfl⟩⟩)
    | none => exact Or.inr (Or.inr ⟨rfl, hlt, rfl⟩)

/-- What `poflr_counter_delete` can do: fail and change nothing, find nothing to do, or delete the
counter. -/
theorem poflrCounterDelete_cases (c : UInt32) (lr : LocalResource) :
    (∃ e, poflrCounterDelete c lr = (.error e, lr)) ∨
      (poflrCounterDelete c lr = (.ok (), lr) ∧ c = 0) ∨
      (∃ counter, poflrCounterDelete c lr = (.ok (), mapCounterDelete counter lr) ∧ c ≠ 0 ∧
        poflrGetCounterWithID c lr = some counter) := by
  unfold poflrCounterDelete
  split_ifs with h₀ hmax
  · exact Or.inr (Or.inl ⟨rfl, h₀⟩)
  · exact Or.inl ⟨_, rfl⟩
  · cases hget : poflrGetCounterWithID c lr with
    | none => exact Or.inl ⟨_, rfl⟩
    | some counter => exact Or.inr (Or.inr ⟨counter, rfl, h₀, rfl⟩)

/-- `poflr_counter_clear`. -/
def poflrCounterClear (counterId : UInt32) (lr : LocalResource) : Ret × LocalResource :=
  if counterId = 0 then (.ok (), lr)
  else if counterId ≥ lr.counterNumMax then
    (.error ⟨.counterModFailed, .pofcmfcBadCounterId⟩, lr)
  else
    match poflrGetCounterWithID counterId lr with
    | none => (.error ⟨.counterModFailed, .pofcmfcCounterUnexist⟩, lr)
    | some counter =>
        (.ok (), { lr with counterMap := lr.counterMap.modify counter.addr fun c =>
          { c with value := 0, byteValue := 0 } })

/-- `poflr_empty_counter`: every counter is deleted while the map is traversed. -/
def poflrEmptyCounter (lr : LocalResource) : LocalResource :=
  lr.counterMap.order.foldl (fun lr counter => mapCounterDelete counter lr) lr

/-! ### Groups -/

/-- `poflr_get_group_with_ID`. -/
def poflrGetGroupWithID (id : UInt32) (lr : LocalResource) : Option GroupInfo :=
  lr.groupMap.nodeGetWithHash (hmapHashForLinear id)

/-- `map_groupInsert`. -/
def mapGroupInsert (group : GroupInfo) (lr : LocalResource) : LocalResource :=
  { lr with groupMap := lr.groupMap.nodeInsert group, groupNum := lr.groupNum + 1 }

/-- `map_groupDelete`. -/
def mapGroupDelete (group : GroupInfo) (lr : LocalResource) : LocalResource :=
  { lr with groupMap := lr.groupMap.nodeDelete group.addr, groupNum := lr.groupNum - 1 }

/-- `map_groupCreate`: a zeroed structure. -/
def mapGroupCreate (newAt : ℕ) : GroupInfo where
  addr := newAt
  type := 0
  actionNumber := 0
  id := 0
  hash := 0
  counterId := 0
  action := List.replicate maxActionNumberPerGroup ⟨0, 0, Buf.zeros maxActionLength⟩

/-- `groupFill`: the first `action_number` actions are copied over those there were. -/
def groupFill (pofGroup : PofGroup) (group : GroupInfo) : GroupInfo :=
  { group with
    type := pofGroup.type
    actionNumber := pofGroup.actionNumber
    id := pofGroup.groupId
    counterId := pofGroup.counterId
    action := pofGroup.action.take pofGroup.actionNumber.toNat ++
      group.action.drop pofGroup.actionNumber.toNat
    hash := hmapHashForLinear pofGroup.groupId }

/-- `poflr_add_group_entry`, with the addresses of the new group and of a new counter. -/
def poflrAddGroupEntry (group : PofGroup) (groupAt counterAt : ℕ) (lr : LocalResource) :
    Ret × LocalResource :=
  if group.groupId ≥ lr.groupNumMax then (.error ⟨.groupModFailed, .pofgmfcInvalidGroup⟩, lr)
  else if (poflrGetGroupWithID group.groupId lr).isSome then
    (.error ⟨.groupModFailed, .pofgmfcGroupExists⟩, lr)
  else
    match poflrCounterInit group.counterId counterAt lr with
    | (.error e, lr) => (.error e, lr)
    | (.ok (), lr) => (.ok (), mapGroupInsert (groupFill group (mapGroupCreate groupAt)) lr)

/-- `poflr_modify_group_entry`. -/
def poflrModifyGroupEntry (pofGroup : PofGroup) (lr : LocalResource) : Ret × LocalResource :=
  if pofGroup.groupId ≥ lr.groupNumMax then (.error ⟨.groupModFailed, .pofgmfcInvalidGroup⟩, lr)
  else
    match poflrGetGroupWithID pofGroup.groupId lr with
    | none => (.error ⟨.groupModFailed, .pofgmfcUnknownGroup⟩, lr)
    | some group =>
        if pofGroup.counterId ≠ group.counterId then
          (.error ⟨.groupModFailed, .pofgmfcBadCounterId⟩, lr)
        else (.ok (), { lr with groupMap := lr.groupMap.modify group.addr (groupFill pofGroup) })

/-- `poflr_delete_group_entry`: the counter that goes is the one the message names. -/
def poflrDeleteGroupEntry (pofGroup : PofGroup) (lr : LocalResource) : Ret × LocalResource :=
  if pofGroup.groupId ≥ lr.groupNumMax then (.error ⟨.groupModFailed, .pofgmfcInvalidGroup⟩, lr)
  else
    match poflrGetGroupWithID pofGroup.groupId lr with
    | none => (.error ⟨.groupModFailed, .pofgmfcUnknownGroup⟩, lr)
    | some group =>
        match poflrCounterDelete pofGroup.counterId lr with
        | (.error e, lr) => (.error e, lr)
        | (.ok (), lr) => (.ok (), mapGroupDelete group lr)

/-- `poflr_empty_group`. -/
def poflrEmptyGroup (lr : LocalResource) : LocalResource :=
  lr.groupMap.order.foldl (fun lr group => mapGroupDelete group lr) lr

/-- What `poflr_add_group_entry` can do: fail and change nothing, or insert the group after its
counter has been initialised. -/
theorem poflrAddGroupEntry_cases (group : PofGroup) (groupAt counterAt : ℕ) (lr : LocalResource) :
    (∃ e, poflrAddGroupEntry group groupAt counterAt lr = (.error e, lr)) ∨
      ∃ lr₁, group.groupId < lr.groupNumMax ∧ poflrGetGroupWithID group.groupId lr = none ∧
        poflrCounterInit group.counterId counterAt lr = (.ok (), lr₁) ∧
        poflrAddGroupEntry group groupAt counterAt lr =
          (.ok (), mapGroupInsert (groupFill group (mapGroupCreate groupAt)) lr₁) := by
  unfold poflrAddGroupEntry
  split_ifs with hid hget
  · exact Or.inl ⟨_, rfl⟩
  · exact Or.inl ⟨_, rfl⟩
  · have hlt := UInt32.not_le.1 hid
    have hnone : poflrGetGroupWithID group.groupId lr = none := by simpa using hget
    rcases poflrCounterInit_cases group.counterId counterAt lr with ⟨e, heq⟩ | ⟨heq, _⟩ | ⟨heq, _, _⟩
    · exact Or.inl ⟨e, by rw [heq]⟩
    · exact Or.inr ⟨lr, hlt, hnone, heq, by rw [heq]⟩
    · exact Or.inr ⟨_, hlt, hnone, heq, by rw [heq]⟩

/-- What `poflr_modify_group_entry` can do: fail and change nothing, or refill the group, whose
counter stays the same. -/
theorem poflrModifyGroupEntry_cases (group : PofGroup) (lr : LocalResource) :
    (∃ e, poflrModifyGroupEntry group lr = (.error e, lr)) ∨
      ∃ old, poflrGetGroupWithID group.groupId lr = some old ∧ group.counterId = old.counterId ∧
        poflrModifyGroupEntry group lr =
          (.ok (), { lr with groupMap := lr.groupMap.modify old.addr (groupFill group) }) := by
  unfold poflrModifyGroupEntry
  split_ifs with hid
  · exact Or.inl ⟨_, rfl⟩
  · cases hold : poflrGetGroupWithID group.groupId lr with
    | none => exact Or.inl ⟨_, rfl⟩
    | some old =>
        simp only
        split_ifs with hcounter
        · exact Or.inl ⟨_, rfl⟩
        · exact Or.inr ⟨old, rfl, not_not.1 hcounter, rfl⟩

/-- What `poflr_delete_group_entry` can do: fail and change nothing, or delete the counter the
message names and then the group. -/
theorem poflrDeleteGroupEntry_cases (group : PofGroup) (lr : LocalResource) :
    (∃ e, poflrDeleteGroupEntry group lr = (.error e, lr)) ∨
      ∃ old lr₁, poflrGetGroupWithID group.groupId lr = some old ∧
        poflrCounterDelete group.counterId lr = (.ok (), lr₁) ∧
        poflrDeleteGroupEntry group lr = (.ok (), mapGroupDelete old lr₁) := by
  unfold poflrDeleteGroupEntry
  split_ifs with hid
  · exact Or.inl ⟨_, rfl⟩
  · cases hold : poflrGetGroupWithID group.groupId lr with
    | none => exact Or.inl ⟨_, rfl⟩
    | some old =>
        simp only
        rcases poflrCounterDelete_cases group.counterId lr with ⟨e, heq⟩ | ⟨heq, _⟩ | ⟨k, heq, _⟩
        · exact Or.inl ⟨e, by rw [heq]⟩
        · exact Or.inr ⟨old, lr, rfl, heq, by rw [heq]⟩
        · exact Or.inr ⟨old, _, rfl, heq, by rw [heq]⟩

/-! ### Meters -/

/-- `poflr_get_meter_with_ID`. -/
def poflrGetMeterWithID (id : UInt32) (lr : LocalResource) : Option MeterInfo :=
  lr.meterMap.nodeGetWithHash (hmapHashForLinear id)

/-- `map_meterInsert`. -/
def mapMeterInsert (meter : MeterInfo) (lr : LocalResource) : LocalResource :=
  { lr with meterMap := lr.meterMap.nodeInsert meter, meterNum := lr.meterNum + 1 }

/-- `map_meterDelete`. -/
def mapMeterDelete (meter : MeterInfo) (lr : LocalResource) : LocalResource :=
  { lr with meterMap := lr.meterMap.nodeDelete meter.addr, meterNum := lr.meterNum - 1 }

/-- `poflr_add_meter_entry`. -/
def poflrAddMeterEntry (meterId rate : UInt32) (newAt : ℕ) (lr : LocalResource) : Ret × LocalResource :=
  if meterId ≥ lr.meterNumMax then (.error ⟨.meterModFailed, .pofmmfcInvalidMeter⟩, lr)
  else if (poflrGetMeterWithID meterId lr).isSome then
    (.error ⟨.meterModFailed, .pofmmfcMeterExists⟩, lr)
  else
    (.ok (), mapMeterInsert ⟨newAt, rate, meterId, hmapHashForLinear meterId⟩ lr)

/-- `poflr_modify_meter_entry`. -/
def poflrModifyMeterEntry (meterId rate : UInt32) (lr : LocalResource) : Ret × LocalResource :=
  if meterId ≥ lr.meterNumMax then (.error ⟨.meterModFailed, .pofmmfcInvalidMeter⟩, lr)
  else
    match poflrGetMeterWithID meterId lr with
    | none => (.error ⟨.meterModFailed, .pofmmfcUnknownMeter⟩, lr)
    | some meter =>
        (.ok (), { lr with meterMap := lr.meterMap.modify meter.addr fun m => { m with rate := rate } })

/-- `poflr_delete_meter_entry`. -/
def poflrDeleteMeterEntry (meterId : UInt32) (lr : LocalResource) : Ret × LocalResource :=
  if meterId ≥ lr.meterNumMax then (.error ⟨.meterModFailed, .pofmmfcInvalidMeter⟩, lr)
  else
    match poflrGetMeterWithID meterId lr with
    | none => (.error ⟨.meterModFailed, .pofmmfcUnknownMeter⟩, lr)
    | some meter => (.ok (), mapMeterDelete meter lr)

/-- `poflr_empty_meter`. -/
def poflrEmptyMeter (lr : LocalResource) : LocalResource :=
  lr.meterMap.order.foldl (fun lr meter => mapMeterDelete meter lr) lr

/-! ### Ports -/

/-- `POFE_DISABLE`. -/
def pofeDisable : UInt8 := 0

/-- `poflr_get_port_with_pofindex`. -/
def poflrGetPortWithPofindex (pofIndex : UInt8) (lr : LocalResource) : Option PortInfo :=
  lr.portPofIndexMap.nodeGetWithHash (hmapHashForLinear pofIndex.toUInt32)

/-- `poflr_port_openflow_enable`; the port id is cut to eight bits by the lookup. -/
def poflrPortOpenflowEnable (portId : UInt32) (flag : UInt8) (lr : LocalResource) :
    Ret × LocalResource :=
  match poflrGetPortWithPofindex portId.toUInt8 lr with
  | none => (.error ⟨.portModFailed, .pofpmfcBadPortId⟩, lr)
  | some port =>
      (.ok (), { lr with portPofIndexMap := lr.portPofIndexMap.modify port.addr fun p =>
        { p with ofEnable := flag } })

/-- `port->of_enable = POFE_DISABLE;` -/
def disablePort (port : PortInfo) (lr : LocalResource) : LocalResource :=
  { lr with portPofIndexMap := lr.portPofIndexMap.modify port.addr fun p =>
      { p with ofEnable := pofeDisable } }

/-- `poflr_disable_all_port`. -/
def poflrDisableAllPort (lr : LocalResource) : LocalResource :=
  lr.portPofIndexMap.order.foldl (fun lr port => disablePort port lr) lr

end PofSwitch
