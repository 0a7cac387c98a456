/-
**The replies in memory: tables, groups, meters and counters.**

`PofSwitch/EntryBytes.lean` has a flow entry as it stands in memory.  This module has the other structures
of `include/pof_global.h` with which the switch answers a query: `pof_flow_table` of 144 bytes, `pof_group`
of 208, `pof_meter` of 16 and `pof_counter` of 24.  Padding is taken from the memory that a structure is
written to.

Main definitions:

* `PofSwitch.flowTableOf`, `groupMsgOf`, `meterOf`, `counterOf` — reading a structure;
* `PofSwitch.flowTableBytes`, `groupBytes`, `meterBytes`, `counterBytes` — writing it;
* `PofSwitch.ActionCodable` — an action that the routine for both directions converts back.

Main results:

* `PofSwitch.flowTableOf_flowTableBytes`, `groupMsgOf_groupBytes`, … — **what is written is read**;
* `PofSwitch.pofNtoHTransferGroup_groupBytes` — a group whose actions are codable comes back.
-/

import PofSwitch.EntryBytes
import PofSwitch.Layout

set_option relaxedAutoImplicit false
set_option autoImplicit false

namespace PofSwitch

open Buf

/-! ### Fields -/

/-- A 64-bit number at index `p`. -/
def long (data : Buf) (p : ℕ) : UInt64 := UInt64.ofNat (data.loadWord p 8)

section Fields

variable {pieces : List Buf} {i p : ℕ}

theorem half_piece {v : UInt16} (h : pieces[i]? = some (storeLE v.toNat 2)) (hp : pieceStart pieces i = p) :
    half pieces.flatten p = v :=
  half_eq_of_loadWord (loadWord_piece h hp (length_storeLE _ _))

theorem word_piece {v : UInt32} (h : pieces[i]? = some (storeLE v.toNat 4)) (hp : pieceStart pieces i = p) :
    word pieces.flatten p = v :=
  word_eq_of_loadWord (loadWord_piece h hp (length_storeLE _ _))

theorem long_piece {v : UInt64} (h : pieces[i]? = some (storeLE v.toNat 8)) (hp : pieceStart pieces i = p) :
    long pieces.flatten p = v := by
  have hlt := v.toNat_lt
  rw [long, loadWord_piece h hp (length_storeLE _ _), loadWord_storeLE, show 256 ^ 8 = 2 ^ 64 from rfl,
    Nat.mod_eq_of_lt hlt, UInt64.ofNat_toNat]

end Fields

/-! ### Tables -/

/-- A `pof_match`. -/
def matchOf (s : Buf) : PofMatch := ⟨half s 0, half s 2, half s 4⟩

/-- A `pof_match`, with two bytes of padding. -/
def matchBytes (pad : Buf) (m : PofMatch) : Buf :=
  [storeLE m.fieldId.toNat 2, storeLE m.offset.toNat 2, storeLE m.len.toNat 2, bytesAt pad 6 2].flatten

@[simp] theorem length_matchBytes (pad : Buf) (m : PofMatch) : (matchBytes pad m).length = 8 := by
  simp [matchBytes]

theorem matchOf_matchBytes (pad : Buf) (m : PofMatch) : matchOf (matchBytes pad m) = m := by
  cases m with
  | mk fieldId offset len =>
      simp only [matchOf, PofMatch.mk.injEq]
      exact ⟨half_piece (i := 0) rfl rfl, half_piece (i := 1) rfl rfl, half_piece (i := 2) rfl rfl⟩

/-- A `pof_flow_table`. -/
def flowTableOf (b : Buf) : PofFlowTable where
  tid := b.rd 1
  type := b.rd 2
  matchFieldNum := b.rd 3
  size := word b 4
  keyLen := half b 8
  tableName := (b.drop 16).take nameMaxLength
  match_ := (List.range maxMatchFieldNum).map fun i => matchOf (element 8 i (b.drop 80))

/-- The pieces of a `pof_flow_table` in memory `mem`. -/
def flowTablePieces (mem : Buf) (command : UInt8) (slotID : UInt16) (t : PofFlowTable) : List Buf :=
  [[command, t.tid, t.type, t.matchFieldNum], storeLE t.size.toNat 4, storeLE t.keyLen.toNat 2,
    storeLE slotID.toNat 2, bytesAt mem 12 4, bytesAt t.tableName 0 nameMaxLength,
    (List.range maxMatchFieldNum).flatMap fun i =>
      matchBytes (element 8 i (mem.drop 80)) (t.match_.getD i default)]

/-- A `pof_flow_table` in memory `mem`. -/
def flowTableBytes (mem : Buf) (command : UInt8) (slotID : UInt16) (t : PofFlowTable) : Buf :=
  (flowTablePieces mem command slotID t).flatten

/-- The arrays of a table have the lengths of the C arrays. -/
structure PofFlowTable.Shaped (t : PofFlowTable) : Prop where
  length_tableName : t.tableName.length = nameMaxLength
  length_match : t.match_.length = maxMatchFieldNum

section FlowTable

variable {mem : Buf} {command : UInt8} {slotID : UInt16} {t : PofFlowTable}

@[simp] theorem length_flowTableBytes : (flowTableBytes mem command slotID t).length = 144 := by
  simp [flowTableBytes, flowTablePieces, nameMaxLength, maxMatchFieldNum]

/-- **A table is read again from where it is written to.** -/
theorem flowTableOf_flowTableBytes (h : t.Shaped) : flowTableOf (flowTableBytes mem command slotID t) = t := by
  have hname : ((flowTableBytes mem command slotID t).drop 16).take nameMaxLength = t.tableName := by
    have hslice : ((flowTableBytes mem command slotID t).drop 16).take nameMaxLength =
        bytesAt t.tableName 0 nameMaxLength := slice_piece (i := 5) (p := 16) rfl rfl (length_bytesAt _ _ _)
    exact hslice.trans (bytesAt_of_length h.length_tableName)
  have hmatch : (List.range maxMatchFieldNum).map (fun i =>
      matchOf (element 8 i ((flowTableBytes mem command slotID t).drop 80))) = t.match_ := by
    have hdrop : (flowTableBytes mem command slotID t).drop 80 = (List.range maxMatchFieldNum).flatMap
        (fun i => matchBytes (element 8 i (mem.drop 80)) (t.match_.getD i default)) ++ [] :=
      drop_piece (i := 6) (p := 80) rfl rfl
    rw [hdrop]
    exact map_element_flatMap h.length_match default (fun j => length_matchBytes _)
      (fun j a _ => matchOf_matchBytes _ a) _
  have hsize : word (flowTableBytes mem command slotID t) 4 = t.size := word_piece (i := 1) rfl rfl
  have hkeyLen : half (flowTableBytes mem command slotID t) 8 = t.keyLen := half_piece (i := 2) rfl rfl
  rw [flowTableOf, hname, hmatch, hsize, hkeyLen]
  rfl

/-- The slot of a table. -/
theorem half_flowTableBytes : half (flowTableBytes mem command slotID t) 10 = slotID :=
  half_piece (i := 3) rfl rfl

theorem pofNtoHTransferFlowTable_twice {b : Buf} (hb : b.length = 144) :
    pofNtoHTransferFlowTable (pofNtoHTransferFlowTable b) = b :=
  transfer_transfer (n := 144) (by decide) hb.ge

end FlowTable

/-! ### Groups -/

/-- A `pof_action`. -/
def actionOf (s : Buf) : PofAction where
  type := half s 0
  len := half s 2
  actionData := (s.drop 4).take maxActionLength

/-- A `pof_action` in memory. -/
def actionStruct (a : PofAction) : Buf :=
  [storeLE a.type.toNat 2, storeLE a.len.toNat 2, bytesAt a.actionData 0 maxActionLength].flatten

@[simp] theorem length_actionStruct (a : PofAction) : (actionStruct a).length = 48 := by
  simp [actionStruct, maxActionLength]

theorem actionOf_actionStruct {a : PofAction} (h : a.actionData.length = maxActionLength) :
    actionOf (actionStruct a) = a := by
  cases a with
  | mk type len data =>
      simp only [actionOf, PofAction.mk.injEq]
      refine ⟨half_piece (i := 0) rfl rfl, half_piece (i := 1) rfl rfl, ?_⟩
      have hslice : ((actionStruct ⟨type, len, data⟩).drop 4).take maxActionLength =
          bytesAt data 0 maxActionLength := slice_piece (i := 2) (p := 4) rfl rfl (length_bytesAt _ _ _)
      exact hslice.trans (bytesAt_of_length h)

/-- A `pof_group`. -/
def groupMsgOf (b : Buf) : PofGroup where
  type := b.rd 1
  actionNumber := b.rd 2
  groupId := word b 4
  counterId := word b 8
  action := (List.range maxActionNumberPerGroup).map fun i => actionOf (element 48 i (b.drop 16))

/-- The pieces of a `pof_group` in memory `mem`. -/
def groupPieces (mem : Buf) (command : UInt8) (slotID : UInt16) (g : PofGroup) : List Buf :=
  [[command, g.type, g.actionNumber, mem.rd 3], storeLE g.groupId.toNat 4, storeLE g.counterId.toNat 4,
    storeLE slotID.toNat 2, bytesAt mem 14 2,
    (List.range maxActionNumberPerGroup).flatMap fun i => actionStruct (g.action.getD i default)]

/-- A `pof_group` in memory `mem`. -/
def groupBytes (mem : Buf) (command : UInt8) (slotID : UInt16) (g : PofGroup) : Buf :=
  (groupPieces mem command slotID g).flatten

/-- The arrays of a group have the lengths of the C arrays. -/
structure PofGroup.Shaped (g : PofGroup) : Prop where
  length_action : g.action.length = maxActionNumberPerGroup
  data : ∀ a ∈ g.action, a.actionData.length = maxActionLength

/-- An action that the routine for actions converts back: it is as long as an action in host order is, or
nothing has been written to it. -/
def ActionCodable (a : PofAction) : Prop :=
  1 ≤ a.len.toNat ∧ a.len.toNat ≤ 255 ∨ a = ⟨0, 0, Buf.zeros maxActionLength⟩

instance (a : PofAction) : Decidable (ActionCodable a) :=
  inferInstanceAs (Decidable (1 ≤ a.len.toNat ∧ a.len.toNat ≤ 255 ∨ a = _))

section Group

variable {mem : Buf} {command : UInt8} {slotID : UInt16} {g : PofGroup}

@[simp] theorem length_groupBytes : (groupBytes mem command slotID g).length = 208 := by
  simp [groupBytes, groupPieces, maxActionNumberPerGroup]

theorem drop_groupBytes : (groupBytes mem command slotID g).drop 16 =
    (List.range maxActionNumberPerGroup).flatMap (fun i => actionStruct (g.action.getD i default)) ++ [] :=
  drop_piece (i := 5) (p := 16) rfl rfl

/-- **A group is read again from where it is written to.** -/
theorem groupMsgOf_groupBytes (h : g.Shaped) : groupMsgOf (groupBytes mem command slotID g) = g := by
  have haction : (List.range maxActionNumberPerGroup).map (fun i =>
      actionOf (element 48 i ((groupBytes mem command slotID g).drop 16))) = g.action := by
    rw [drop_groupBytes]
    exact map_element_flatMap h.length_action default (fun _ => length_actionStruct)
      (fun _ a ha => actionOf_actionStruct (h.data a ha)) _
  have hgroupId : word (groupBytes mem command slotID g) 4 = g.groupId := word_piece (i := 1) rfl rfl
  have hcounterId : word (groupBytes mem command slotID g) 8 = g.counterId := word_piece (i := 2) rfl rfl
  rw [groupMsgOf, haction, hgroupId, hcounterId]
  rfl

/-- The slot of a group. -/
theorem half_groupBytes : half (groupBytes mem command slotID g) 12 = slotID :=
  half_piece (i := 3) rfl rfl

/-- A codable action comes back. -/
theorem action_action_actionStruct {a : PofAction} (h : ActionCodable a) :
    action (action (actionStruct a)) = actionStruct a := by
  rcases h with hlen | rfl
  · have hread : (actionStruct a).loadWord 2 2 = a.len.toNat := by
      have hlt := a.len.toNat_lt
      have hpiece : (actionStruct a).loadWord 2 2 = (storeLE a.len.toNat 2).loadWord 0 2 :=
        loadWord_piece (i := 1) rfl rfl (length_storeLE _ _)
      rw [hpiece, loadWord_storeLE]
      exact Nat.mod_eq_of_lt hlt
    refine action_action (length_actionStruct a) (Or.inl ?_)
    rw [HostLen, hread]
    exact hlen
  · -- an output action of zeros
    decide

/-- **A group whose actions are codable comes back from the conversion.** -/
theorem pofNtoHTransferGroup_groupBytes (h : ∀ a ∈ g.action, ActionCodable a)
    (hlength : g.action.length = maxActionNumberPerGroup) :
    pofNtoHTransferGroup (pofNtoHTransferGroup (groupBytes mem command slotID g)) =
      groupBytes mem command slotID g := by
  refine pofNtoHTransferGroup_of_actions length_groupBytes fun i hi => ?_
  have helement : element 48 i ((groupBytes mem command slotID g).drop 16) =
      actionStruct (g.action.getD i default) := by
    rw [drop_groupBytes]
    exact element_flatMap (fun _ => length_actionStruct _) hi _
  have hget : g.action.getD i default ∈ g.action := by
    rw [List.getD_eq_getElem _ _ (hlength ▸ hi)]
    exact List.getElem_mem _
  change action (action (element 48 i ((groupBytes mem command slotID g).drop 16))) = element 48 i _
  rw [helement]
  exact action_action_actionStruct (h _ hget)

end Group

/-! ### Meters and counters -/

/-- A `pof_meter`: the id and the rate. -/
def meterOf (b : Buf) : UInt32 × UInt32 := (word b 4, word b 8)

/-- A `pof_meter` in memory `mem`. -/
def meterBytes (mem : Buf) (command : UInt8) (slotID : UInt16) (meterId rate : UInt32) : Buf :=
  [[command, mem.rd 1], storeLE slotID.toNat 2, storeLE meterId.toNat 4, storeLE rate.toNat 4,
    bytesAt mem 12 4].flatten

/-- A `pof_counter`: the id, the value and the bytes. -/
def counterOf (b : Buf) : UInt32 × UInt64 × UInt64 := (word b 4, long b 8, long b 16)

/-- A `pof_counter` in memory `mem`. -/
def counterBytes (mem : Buf) (command : UInt8) (slotID : UInt16) (counterId : UInt32)
    (value byteValue : UInt64) : Buf :=
  [[command, mem.rd 1], storeLE slotID.toNat 2, storeLE counterId.toNat 4, storeLE value.toNat 8,
    storeLE byteValue.toNat 8].flatten

section MeterCounter

variable {mem : Buf} {command : UInt8} {slotID : UInt16}

@[simp] theorem length_meterBytes {meterId rate : UInt32} :
    (meterBytes mem command slotID meterId rate).length = 16 := by
  simp [meterBytes]

@[simp] theorem length_counterBytes {counterId : UInt32} {value byteValue : UInt64} :
    (counterBytes mem command slotID counterId value byteValue).length = 24 := by
  simp [counterBytes]

theorem meterOf_meterBytes (meterId rate : UInt32) :
    meterOf (meterBytes mem command slotID meterId rate) = (meterId, rate) :=
  Prod.ext (word_piece (i := 2) rfl rfl) (word_piece (i := 3) rfl rfl)

theorem counterOf_counterBytes (counterId : UInt32) (value byteValue : UInt64) :
    counterOf (counterBytes mem command slotID counterId value byteValue) = (counterId, value, byteValue) :=
  Prod.ext (word_piece (i := 2) rfl rfl)
    (Prod.ext (long_piece (i := 3) rfl rfl) (long_piece (i := 4) rfl rfl))

/-- The slot of a meter. -/
theorem half_meterBytes {meterId rate : UInt32} :
    half (meterBytes mem command slotID meterId rate) 2 = slotID :=
  half_piece (i := 1) rfl rfl

/-- The slot of a counter. -/
theorem half_counterBytes {counterId : UInt32} {value byteValue : UInt64} :
    half (counterBytes mem command slotID counterId value byteValue) 2 = slotID :=
  half_piece (i := 1) rfl rfl

end MeterCounter

theorem pofNtoHTransferMeter_twice {b : Buf} (hb : b.length = 16) :
    pofNtoHTransferMeter (pofNtoHTransferMeter b) = b :=
  transfer_transfer (n := 16) (by decide) hb.ge

theorem pofNtoHTransferCounter_twice {b : Buf} (hb : b.length = 24) :
    pofNtoHTransferCounter (pofNtoHTransferCounter b) = b :=
  transfer_transfer (n := 24) (by decide) hb.ge

end PofSwitch
