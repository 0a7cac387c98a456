/-
**What a controller knows of a slot.**

To a controller that has nothing to go by but its own requests, a slot is a handful of partial functions: a
table is named by its type and its number within the type, an entry of it by its index, and a group, a meter
or a counter by its identifier; what is stored there is what was sent.  Here it is said, in these terms, what a
request returns and what it changes.  There are no addresses, no hashes, buckets or trees, no identifiers
across the types of tables and no numbers of entries.  `PofSwitch/Pictured.lean` shows that the switch keeps
to it.

An addition for an index that is in use is not described: the switch stores a second entry.

Main definitions:

* `PofSwitch.Picture` — what is stored;
* `PofSwitch.PofFlowTable.stored`, `PofSwitch.PofFlowEntry.stored`, `PofSwitch.PofGroup.over` — the form in
  which it is;
* `PofSwitch.Picture.serve` — **what a request returns and changes**;
* `PofSwitch.Picture.Prudent` — the requests that are described.
-/

import PofSwitch.LrRequest
import Mathlib.Data.Set.Insert

set_option relaxedAutoImplicit false
set_option autoImplicit false

namespace PofSwitch

/-- The name of a table: its type and its number within the type. -/
abbrev TableKey := TableType × UInt8

/-- **What a slot stores.**  Of the counters it is known which there are. -/
@[ext] structure Picture where
  tables : TableKey → Option PofFlowTable
  entries : TableKey → UInt32 → Option PofFlowEntry
  groups : UInt32 → Option PofGroup
  meters : UInt32 → Option UInt32
  counters : Set UInt32

/-! ### The form in which it is stored -/

/-- A table is stored with the name up to its end and with the fields that are in use. -/
def PofFlowTable.stored (msg : PofFlowTable) : PofFlowTable :=
  { msg with
    tableName := strncpy msg.tableName nameMaxLength
    match_ := msg.match_.take msg.matchFieldNum.toNat ++
      (List.replicate maxMatchFieldNum default).drop msg.matchFieldNum.toNat }

/-- A linear table has no use for the priority of an entry. -/
def PofFlowEntry.stored (type : TableType) (flow : PofFlowEntry) : PofFlowEntry :=
  { flow with priority := if type = .linear then 0 else flow.priority }

/-- The actions in use are written over those there were. -/
def PofGroup.over (old : List PofAction) (group : PofGroup) : PofGroup :=
  { group with action := group.action.take group.actionNumber.toNat ++ old.drop group.actionNumber.toNat }

/-- The actions of a group before there is one. -/
def noActions : List PofAction := List.replicate maxActionNumberPerGroup ⟨0, 0, Buf.zeros maxActionLength⟩

/-- Whether the fields of an entry are as long as the key of the table.  Packing them does not come to an end
when one that is shorter than a byte crosses into the next.  A linear table has no use for them. -/
def fitsKey (type : TableType) (keyLen : UInt16) (flow : PofFlowEntry) : Option Bool :=
  let fields := matchFields flow.match_ flow.matchFieldNum
  if type = .linear then some true
  else if AssembleReturns fields 0 then some (decide (endOffset fields 0 = keyLen))
  else none

namespace Picture

variable (lim : Limits) (p : Picture)

/-- Nothing is stored. -/
def empty : Picture := ⟨fun _ => none, fun _ _ => none, fun _ => none, fun _ => none, ∅⟩

/-- The table has this name from now on, or there is none. -/
def setTable (k : TableKey) (table : Option PofFlowTable) : Picture :=
  { p with tables := Function.update p.tables k table }

/-- The table has this entry at the index from now on, or there is none. -/
def setEntry (k : TableKey) (index : UInt32) (entry : Option PofFlowEntry) : Picture :=
  { p with entries := Function.update p.entries k (Function.update (p.entries k) index entry) }

/-! ### Counters -/

/-- A counter is wanted. -/
def wantCounter (c : UInt32) : Ret × Picture :=
  if c = 0 then (.ok (), p)
  else if c ≥ lim.counterNumMax then (.error ⟨.counterModFailed, .pofcmfcBadCounterId⟩, p)
  else (.ok (), { p with counters := insert c p.counters })

open Classical in
/-- A counter is not wanted any more. -/
noncomputable def dropCounter (c : UInt32) : Ret × Picture :=
  if c = 0 then (.ok (), p)
  else if c ≥ lim.counterNumMax then (.error ⟨.counterModFailed, .pofcmfcBadCounterId⟩, p)
  else if c ∈ p.counters then (.ok (), { p with counters := p.counters \ {c} })
  else (.error ⟨.counterModFailed, .pofcmfcCounterUnexist⟩, p)

open Classical in
/-- A counter is to count from zero. -/
noncomputable def clearCounter (c : UInt32) : Ret :=
  if c = 0 then .ok ()
  else if c ≥ lim.counterNumMax then .error ⟨.counterModFailed, .pofcmfcBadCounterId⟩
  else if c ∈ p.counters then .ok ()
  else .error ⟨.counterModFailed, .pofcmfcCounterUnexist⟩

/-! ### Tables -/

/-- A table is created. -/
def createTable (msg : PofFlowTable) : Ret × Picture :=
  match TableType.ofUInt8 msg.type with
  | none => (.error ⟨.tableModFailed, .poftmfcBadTableType⟩, p)
  | some type =>
      if msg.tid.toUInt16 ≥ lim.tableNumMaxEachType.getD type.toNat 0 then
        (.error ⟨.tableModFailed, .poftmfcBadTableId⟩, p)
      else if (p.tables (type, msg.tid)).isSome then (.error ⟨.tableModFailed, .poftmfcTableExist⟩, p)
      else if msg.size > lim.tableSizeMax then (.error ⟨.tableModFailed, .poftmfcBadTableSize⟩, p)
      else if msg.keyLen > lim.keyLenEachType.getD type.toNat 0 then
        (.error ⟨.tableModFailed, .poftmfcBadKeyLen⟩, p)
      else (.ok (), p.setTable (type, msg.tid) (some msg.stored))

/-- The table has entries. -/
def HasEntries (k : TableKey) : Prop := ∃ index, (p.entries k index).isSome

open Classical in
/-- A table is deleted. -/
noncomputable def deleteTable (id type : UInt8) : Ret × Picture :=
  match TableType.ofUInt8 type with
  | none => (.error ⟨.tableModFailed, .poftmfcBadTableType⟩, p)
  | some type =>
      if id.toUInt16 ≥ lim.tableNumMaxEachType.getD type.toNat 0 then
        (.error ⟨.tableModFailed, .poftmfcBadTableId⟩, p)
      else if (p.tables (type, id)).isNone then (.error ⟨.tableModFailed, .poftmfcTableUnexist⟩, p)
      else if p.HasEntries (type, id) then (.error ⟨.tableModFailed, .poftmfcTableUnempty⟩, p)
      else (.ok (), p.setTable (type, id) none)

/-! ### Entries -/

/-- The table that a request for an entry is about. -/
def tableOf (flow : PofFlowEntry) : Except PofError (TableKey × PofFlowTable) :=
  match TableType.ofUInt8 flow.tableType with
  | none => .error ⟨.flowModFailed, .poffmfcBadTableType⟩
  | some type =>
      if flow.tableId.toUInt16 ≥ lim.tableNumMaxEachType.getD type.toNat 0 then
        .error ⟨.flowModFailed, .poffmfcBadTableId⟩
      else
        match p.tables (type, flow.tableId) with
        | none => .error ⟨.flowModFailed, .poffmfcBadTableId⟩
        | some table =>
            if flow.index ≥ table.size then .error ⟨.flowModFailed, .poffmfcBadEntryId⟩
            else .ok ((type, flow.tableId), table)

/-- An entry is added.  It stays when its counter is not allowed. -/
def addEntry (flow : PofFlowEntry) : Option (Ret × Picture) :=
  match p.tableOf lim flow with
  | .error e => some (.error e, p)
  | .ok (k, table) =>
      (fitsKey k.1 table.keyLen flow).map fun fits =>
        if fits then (p.setEntry k flow.index (some (flow.stored k.1))).wantCounter lim flow.counterId
        else (.error ⟨.flowModFailed, .poffmfcUnknown⟩, p)

/-- An entry is modified.  When the new one does not fit the key, the old one is gone. -/
def modifyEntry (flow : PofFlowEntry) : Option (Ret × Picture) :=
  match p.tableOf lim flow with
  | .error e => some (.error e, p)
  | .ok (k, table) =>
      match p.entries k flow.index with
      | none => some (.error ⟨.flowModFailed, .poffmfcEntryUnexist⟩, p)
      | some old =>
          match if old.counterId ≠ flow.counterId then p.wantCounter lim flow.counterId else (.ok (), p) with
          | (.error e, p) => some (.error e, p)
          | (.ok (), p) =>
              (fitsKey k.1 table.keyLen flow).map fun fits =>
                if fits then (.ok (), p.setEntry k flow.index (some (flow.stored k.1)))
                else (.error ⟨.flowModFailed, .poffmfcUnknown⟩, p.setEntry k flow.index none)

/-- An entry is deleted, with its counter. -/
noncomputable def deleteEntry (flow : PofFlowEntry) : Ret × Picture :=
  match p.tableOf lim flow with
  | .error e => (.error e, p)
  | .ok (k, _) =>
      match p.entries k flow.index with
      | none => (.error ⟨.flowModFailed, .poffmfcEntryUnexist⟩, p)
      | some old =>
          match p.dropCounter lim old.counterId with
          | (.error e, p) => (.error e, p)
          | (.ok (), p) => (.ok (), p.setEntry k flow.index none)

/-! ### Groups and meters -/

/-- A group is added. -/
def addGroup (group : PofGroup) : Ret × Picture :=
  if group.groupId ≥ lim.groupNumMax then (.error ⟨.groupModFailed, .pofgmfcInvalidGroup⟩, p)
  else if (p.groups group.groupId).isSome then (.error ⟨.groupModFailed, .pofgmfcGroupExists⟩, p)
  else
    match p.wantCounter lim group.counterId with
    | (.error e, p) => (.error e, p)
    | (.ok (), p) =>
        (.ok (), { p with groups := Function.update p.groups group.groupId (some (group.over noActions)) })

/-- A group is modified. -/
def modifyGroup (group : PofGroup) : Ret × Picture :=
  if group.groupId ≥ lim.groupNumMax then (.error ⟨.groupModFailed, .pofgmfcInvalidGroup⟩, p)
  else
    match p.groups group.groupId with
    | none => (.error ⟨.groupModFailed, .pofgmfcUnknownGroup⟩, p)
    | some old =>
        if group.counterId ≠ old.counterId then (.error ⟨.groupModFailed, .pofgmfcBadCounterId⟩, p)
        else
          (.ok (), { p with groups := Function.update p.groups group.groupId (some (group.over old.action)) })

/-- A group is deleted, with the counter that the request names. -/
noncomputable def deleteGroup (group : PofGroup) : Ret × Picture :=
  if group.groupId ≥ lim.groupNumMax then (.error ⟨.groupModFailed, .pofgmfcInvalidGroup⟩, p)
  else if (p.groups group.groupId).isNone then (.error ⟨.groupModFailed, .pofgmfcUnknownGroup⟩, p)
  else
    match p.dropCounter lim group.counterId with
    | (.error e, p) => (.error e, p)
    | (.ok (), p) => (.ok (), { p with groups := Function.update p.groups group.groupId none })

/-- A meter is added. -/
def addMeter (meterId rate : UInt32) : Ret × Picture :=
  if meterId ≥ lim.meterNumMax then (.error ⟨.meterModFailed, .pofmmfcInvalidMeter⟩, p)
  else if (p.meters meterId).isSome then (.error ⟨.meterModFailed, .pofmmfcMeterExists⟩, p)
  else (.ok (), { p with meters := Function.update p.meters meterId (some rate) })

/-- A meter is changed, to another rate or to none. -/
def changeMeter (meterId : UInt32) (rate : Option UInt32) : Ret × Picture :=
  if meterId ≥ lim.meterNumMax then (.error ⟨.meterModFailed, .pofmmfcInvalidMeter⟩, p)
  else if (p.meters meterId).isNone then (.error ⟨.meterModFailed, .pofmmfcUnknownMeter⟩, p)
  else (.ok (), { p with meters := Function.update p.meters meterId rate })

/-! ### Requests -/

open Classical in
/-- **What a request returns and what is stored afterwards**, in a slot with these limits and these ports; none
when it does not return. -/
noncomputable def serve (ports : Set UInt8) : LrOp → Option (Ret × Picture)
  | .createFlowTable msg _ => some (p.createTable lim msg)
  | .deleteFlowTable id type => some (p.deleteTable lim id type)
  | .addFlowEntry flow _ _ => p.addEntry lim flow
  | .modifyFlowEntry flow _ _ => p.modifyEntry lim flow
  | .deleteFlowEntry flow => some (p.deleteEntry lim flow)
  | .addGroupEntry group _ _ => some (p.addGroup lim group)
  | .modifyGroupEntry group => some (p.modifyGroup lim group)
  | .deleteGroupEntry group => some (p.deleteGroup lim group)
  | .addMeterEntry meterId rate _ => some (p.addMeter lim meterId rate)
  | .modifyMeterEntry meterId rate => some (p.changeMeter lim meterId (some rate))
  | .deleteMeterEntry meterId => some (p.changeMeter lim meterId none)
  | .counterInit counterId _ => some (p.wantCounter lim counterId)
  | .counterDelete counterId => some (p.dropCounter lim counterId)
  | .counterClear counterId => some (p.clearCounter lim counterId, p)
  | .portOpenflowEnable portId _ =>
      some (if portId.toUInt8 ∈ ports then .ok () else .error ⟨.portModFailed, .pofpmfcBadPortId⟩, p)
  | .clearResource => some (.ok (), empty)

/-- The request adds no entry for an index that is in use. -/
def Prudent : LrOp → Prop
  | .addFlowEntry flow _ _ => ∀ type, TableType.ofUInt8 flow.tableType = some type →
      p.entries (type, flow.tableId) flow.index = none
  | _ => True

end Picture

end PofSwitch
