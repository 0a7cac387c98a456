/-
**A flow entry in memory: `pof_flow_entry`.**

The structure has 40 bytes of header, eight `pof_match_x` of 40 bytes and six `pof_instruction` of 304
bytes, 2184 bytes together.  A message is read with `flowEntryOf`.  The other way the model has no
padding, nor the fields that no function reads (the cookie and the timeouts); what stands there is taken
from the memory the structure is written to.

Main definitions:

* `PofSwitch.matchXOf`, `PofSwitch.instructionOf`, `PofSwitch.flowEntryOf` — reading the structures;
* `PofSwitch.matchXBytes`, `PofSwitch.instructionBytes`, `PofSwitch.flowEntryBytes` — writing them.

Main results:

* `PofSwitch.flowEntryOf_flowEntryBytes` — **a flow entry that has been read from memory is read again
  from where it is written to**;
* `PofSwitch.flowEntryOk_flowEntryBytes` — it is as well formed for the byte-order codec as before.
-/

import PofSwitch.ByteTransfer
import PofSwitch.LittleEndian
import PofSwitch.Packet

set_option relaxedAutoImplicit false
set_option autoImplicit false

namespace PofSwitch

open Buf

/-! ### Reading -/

/-- A `pof_match_x`. -/
def matchXOf (s : Buf) : PofMatchX where
  fieldId := half s 0
  offset := half s 2
  len := half s 4
  value := (s.drop 8).take 16
  mask := (s.drop 24).take 16

/-- A `pof_instruction`. -/
def instructionOf (s : Buf) : PofInstruction where
  type := half s 0
  len := half s 2
  instructionData := (s.drop 8).take maxInstructionLength

/-- A `pof_flow_entry`. -/
def flowEntryOf (b : Buf) : PofFlowEntry where
  matchFieldNum := b.rd 1
  instructionNum := b.rd 2
  counterId := word b 4
  tableId := b.rd 24
  tableType := b.rd 25
  priority := half b 30
  index := word b 32
  match_ := (List.range maxMatchFieldNum).map fun i => matchXOf (element 40 i (b.drop 40))
  instruction := (List.range maxInstructionNum).map fun i => instructionOf (element 304 i (b.drop 360))

/-! ### Writing -/

/-- A `pof_match_x`, with two bytes of padding. -/
def matchXBytes (pad : Buf) (m : PofMatchX) : Buf :=
  storeLE m.fieldId.toNat 2 ++ storeLE m.offset.toNat 2 ++ storeLE m.len.toNat 2 ++ bytesAt pad 6 2 ++
    bytesAt m.value 0 16 ++ bytesAt m.mask 0 16

/-- A `pof_instruction`, with four bytes of padding. -/
def instructionBytes (pad : Buf) (ins : PofInstruction) : Buf :=
  storeLE ins.type.toNat 2 ++ storeLE ins.len.toNat 2 ++ bytesAt pad 4 4 ++
    bytesAt ins.instructionData 0 maxInstructionLength

/-- The header of a `pof_flow_entry` in memory `mem`: the cookie and the timeouts are not written. -/
def flowEntryHead (mem : Buf) (command : UInt8) (slotID : UInt16) (flow : PofFlowEntry) : Buf :=
  [command, flow.matchFieldNum, flow.instructionNum, mem.rd 3] ++ storeLE flow.counterId.toNat 4 ++
    bytesAt mem 8 16 ++ [flow.tableId, flow.tableType] ++ bytesAt mem 26 4 ++
    storeLE flow.priority.toNat 2 ++ storeLE flow.index.toNat 4 ++ storeLE slotID.toNat 2 ++ bytesAt mem 38 2

/-- A `pof_flow_entry` in memory `mem`. -/
def flowEntryBytes (mem : Buf) (command : UInt8) (slotID : UInt16) (flow : PofFlowEntry) : Buf :=
  flowEntryHead mem command slotID flow ++
    ((List.range maxMatchFieldNum).flatMap (fun i =>
        matchXBytes (element 40 i (mem.drop 40)) (flow.match_.getD i default)) ++
      (List.range maxInstructionNum).flatMap fun i =>
        instructionBytes (element 304 i (mem.drop 360)) (flow.instruction.getD i default))

/-! ### Sizes -/

@[simp] theorem length_matchXBytes (pad : Buf) (m : PofMatchX) : (matchXBytes pad m).length = 40 := by
  simp [matchXBytes]

@[simp] theorem length_instructionBytes (pad : Buf) (ins : PofInstruction) :
    (instructionBytes pad ins).length = 304 := by
  have hcap : maxInstructionLength = 296 := rfl
  simp [instructionBytes, hcap]

section FlowEntry

variable {mem : Buf} {command : UInt8} {slotID : UInt16} {flow : PofFlowEntry}

@[simp] theorem length_flowEntryHead : (flowEntryHead mem command slotID flow).length = 40 := by
  simp [flowEntryHead]

@[simp] theorem length_flowEntryBytes : (flowEntryBytes mem command slotID flow).length = 2184 := by
  rw [flowEntryBytes, List.length_append, List.length_append, length_flowEntryHead,
    length_flatMap_range fun i => length_matchXBytes _ _,
    length_flatMap_range fun i => length_instructionBytes _ _]
  rfl

/-! ### What is written is read -/

theorem half_eq_of_loadWord {b : Buf} {p : ℕ} {v : UInt16}
    (h : b.loadWord p 2 = (storeLE v.toNat 2).loadWord 0 2) : half b p = v := by
  have hlt := v.toNat_lt
  rw [half, h, loadWord_storeLE, show 256 ^ 2 = 2 ^ 16 from rfl, Nat.mod_eq_of_lt hlt, UInt16.ofNat_toNat]

theorem word_eq_of_loadWord {b : Buf} {p : ℕ} {v : UInt32}
    (h : b.loadWord p 4 = (storeLE v.toNat 4).loadWord 0 4) : word b p = v := by
  have hlt := v.toNat_lt
  rw [word, h, loadWord_storeLE, show 256 ^ 4 = 2 ^ 32 from rfl, Nat.mod_eq_of_lt hlt, UInt32.ofNat_toNat]

theorem bytesAt_of_length {b : Buf} {n : ℕ} (h : b.length = n) : b.bytesAt 0 n = b := by
  rw [← h, bytesAt_zero_length]

theorem matchXOf_matchXBytes (pad : Buf) {m : PofMatchX} (hvalue : m.value.length = 16)
    (hmask : m.mask.length = 16) : matchXOf (matchXBytes pad m) = m := by
  have hhead : (storeLE m.fieldId.toNat 2 ++ storeLE m.offset.toNat 2 ++ storeLE m.len.toNat 2 ++
      bytesAt pad 6 2).length = 8 := by simp
  cases m with
  | mk fieldId offset len value mask =>
      simp only [matchXOf, PofMatchX.mk.injEq]
      refine ⟨half_eq_of_loadWord rfl, half_eq_of_loadWord rfl, half_eq_of_loadWord rfl, ?_, ?_⟩
      · rw [matchXBytes, List.append_assoc, List.drop_left' hhead, List.take_left' (by simp)]
        exact bytesAt_of_length hvalue
      · rw [matchXBytes, List.drop_left' (by simp), List.take_of_length_le (by simp)]
        exact bytesAt_of_length hmask

theorem drop_instructionBytes (pad : Buf) {ins : PofInstruction}
    (hdata : ins.instructionData.length = maxInstructionLength) :
    (instructionBytes pad ins).drop 8 = ins.instructionData := by
  rw [instructionBytes, List.drop_left' (by simp)]
  exact bytesAt_of_length hdata

theorem instructionOf_instructionBytes (pad : Buf) {ins : PofInstruction}
    (hdata : ins.instructionData.length = maxInstructionLength) :
    instructionOf (instructionBytes pad ins) = ins := by
  have hdrop := drop_instructionBytes pad hdata
  cases ins with
  | mk type len data =>
      simp only [instructionOf, PofInstruction.mk.injEq]
      refine ⟨half_eq_of_loadWord rfl, half_eq_of_loadWord rfl, ?_⟩
      rw [hdrop]
      exact List.take_of_length_le hdata.le

/-- The arrays of a flow entry have the lengths of the C arrays. -/
structure Shaped (flow : PofFlowEntry) : Prop where
  length_match : flow.match_.length = maxMatchFieldNum
  fields : ∀ m ∈ flow.match_, m.value.length = 16 ∧ m.mask.length = 16
  length_instruction : flow.instruction.length = maxInstructionNum
  data : ∀ ins ∈ flow.instruction, ins.instructionData.length = maxInstructionLength

theorem length_element_drop {b : Buf} {n size i k : ℕ} (hb : b.length = n + size * k) (hi : i < k) :
    (element size i (b.drop n)).length = size := by
  have hmul : size * (i + 1) ≤ size * k := Nat.mul_le_mul_left size hi
  refine length_element ?_
  rw [List.length_drop]
  omega

/-- A flow entry in memory has such arrays. -/
theorem shaped_flowEntryOf {b : Buf} (hb : b.length = 2184) : Shaped (flowEntryOf b) := by
  have hlen : b.length = 40 + 40 * 8 + 304 * maxInstructionNum := hb
  constructor
  case length_match => simp [flowEntryOf]
  case fields =>
    intro m hm
    obtain ⟨i, hi, rfl⟩ := List.mem_map.1 hm
    have hi : i < 8 := List.mem_range.1 hi
    have helement : (element 40 i (b.drop 40)).length = 40 := by
      refine length_element ?_
      rw [List.length_drop]
      omega
    simp [matchXOf, helement]
  case length_instruction => simp [flowEntryOf]
  case data =>
    intro ins hins
    obtain ⟨i, hi, rfl⟩ := List.mem_map.1 hins
    have helement := length_element_drop (n := 360) hlen (List.mem_range.1 hi)
    have hcap : maxInstructionLength = 296 := rfl
    simp [instructionOf, helement, hcap]

theorem map_range_getD {α : Type} {l : List α} {n : ℕ} (h : l.length = n) (d : α) :
    (List.range n).map (fun i => l.getD i d) = l := by
  refine List.ext_getElem (by simp [h]) fun i hi hl => ?_
  simp [hl]

/-- The slices of the written structure. -/
theorem element_match {i : ℕ} (hi : i < maxMatchFieldNum) :
    element 40 i ((flowEntryBytes mem command slotID flow).drop 40) =
      matchXBytes (element 40 i (mem.drop 40)) (flow.match_.getD i default) := by
  rw [flowEntryBytes, List.drop_left' length_flowEntryHead]
  exact element_flatMap (fun _ => length_matchXBytes _ _) hi _

theorem element_instruction {i : ℕ} (hi : i < maxInstructionNum) :
    element 304 i ((flowEntryBytes mem command slotID flow).drop 360) =
      instructionBytes (element 304 i (mem.drop 360)) (flow.instruction.getD i default) := by
  have hfront : (flowEntryHead mem command slotID flow ++ (List.range maxMatchFieldNum).flatMap (fun i =>
      matchXBytes (element 40 i (mem.drop 40)) (flow.match_.getD i default))).length = 360 := by
    rw [List.length_append, length_flowEntryHead, length_flatMap_range fun i => length_matchXBytes _ _]
    rfl
  rw [flowEntryBytes, ← List.append_assoc, List.drop_left' hfront]
  have helement := element_flatMap (n := maxInstructionNum) (f := fun i =>
    instructionBytes (element 304 i (mem.drop 360)) (flow.instruction.getD i default))
    (fun _ => length_instructionBytes _ _) hi []
  rwa [List.append_nil] at helement

/-- **A flow entry is read again from where it is written to.** -/
theorem flowEntryOf_flowEntryBytes (h : Shaped flow) :
    flowEntryOf (flowEntryBytes mem command slotID flow) = flow := by
  have hmatch : (List.range maxMatchFieldNum).map (fun i =>
      matchXOf (element 40 i ((flowEntryBytes mem command slotID flow).drop 40))) = flow.match_ := by
    refine Eq.trans (List.map_congr_left fun i hi => ?_) (map_range_getD h.length_match default)
    have hlt := List.mem_range.1 hi
    rw [element_match hlt]
    rw [← h.length_match] at hlt
    obtain ⟨hvalue, hmask⟩ := h.fields _ (List.getElem_mem hlt)
    rw [List.getD_eq_getElem _ _ hlt]
    exact matchXOf_matchXBytes _ hvalue hmask
  have hinstruction : (List.range maxInstructionNum).map (fun i =>
      instructionOf (element 304 i ((flowEntryBytes mem command slotID flow).drop 360))) =
        flow.instruction := by
    refine Eq.trans (List.map_congr_left fun i hi => ?_) (map_range_getD h.length_instruction default)
    have hlt := List.mem_range.1 hi
    rw [element_instruction hlt]
    rw [← h.length_instruction] at hlt
    rw [List.getD_eq_getElem _ _ hlt]
    exact instructionOf_instructionBytes _ (h.data _ (List.getElem_mem hlt))
  have hhead : ∀ {p k : ℕ}, p + k ≤ 40 → (flowEntryBytes mem command slotID flow).loadWord p k =
      (flowEntryHead mem command slotID flow).loadWord p k :=
    fun h => loadWord_append (length_flowEntryHead.symm ▸ h)
  have hcounter : word (flowEntryBytes mem command slotID flow) 4 = flow.counterId :=
    word_eq_of_loadWord (hhead (by decide))
  have hpriority : half (flowEntryBytes mem command slotID flow) 30 = flow.priority := by
    refine half_eq_of_loadWord ((hhead (by decide)).trans ?_)
    rw [flowEntryHead, loadWord_append (by simp), loadWord_append (by simp)]
    exact loadWord_field (by simp) (by simp)
  have hindex : word (flowEntryBytes mem command slotID flow) 32 = flow.index := by
    refine word_eq_of_loadWord ((hhead (by decide)).trans ?_)
    rw [flowEntryHead, loadWord_append (by simp)]
    exact loadWord_field (by simp) (by simp)
  rw [flowEntryOf, hmatch, hinstruction, hpriority, hcounter, hindex]
  rfl

/-- An instruction is as well formed as before. -/
theorem instructionOk_instructionBytes (pad : Buf) {s : Buf} (hlen : s.length = 304) (h : InstructionOk s) :
    InstructionOk (instructionBytes pad (instructionOf s)) := by
  have hcap : maxInstructionLength = 296 := rfl
  have hdrop : (s.drop 8).length = 296 := by
    rw [List.length_drop]
    omega
  have hdata : (instructionOf s).instructionData = s.drop 8 := List.take_of_length_le hdrop.le
  have hback : (instructionBytes pad (instructionOf s)).drop 8 = s.drop 8 :=
    (drop_instructionBytes pad (hdata ▸ hdrop)).trans hdata
  have htype : (instructionBytes pad (instructionOf s)).loadWord 0 2 = s.loadWord 0 2 := by
    have hlt := loadWord_lt s 0 2
    have hhalf : (half s 0).toNat < 256 ^ 2 := (half s 0).toNat_lt
    have hread : (instructionBytes pad (instructionOf s)).loadWord 0 2 =
        (storeLE (half s 0).toNat 2).loadWord 0 2 := rfl
    rw [hread, loadWord_storeLE, Nat.mod_eq_of_lt hhalf, half, UInt16.toNat_ofNat']
    exact Nat.mod_eq_of_lt hlt
  rw [InstructionOk, htype, hback]
  exact h

/-- **A flow entry that is well formed is so where it is written to.** -/
theorem flowEntryOk_flowEntryBytes {msg : Buf} (hlen : msg.length = 2184) (h : FlowEntryOk msg) :
    FlowEntryOk (flowEntryBytes mem command slotID (flowEntryOf msg)) := by
  obtain ⟨hmatch, hins, hslices⟩ := h
  refine ⟨hmatch, hins, fun i hi => ?_⟩
  have hlt : i < maxInstructionNum := Nat.lt_of_lt_of_le hi hins
  have helement : (element 304 i (msg.drop 360)).length = 304 :=
    length_element_drop (n := 360) (k := maxInstructionNum) hlen hlt
  have hget : (flowEntryOf msg).instruction.getD i default = instructionOf (element 304 i (msg.drop 360)) := by
    simp [flowEntryOf, hlt]
  refine (congrArg InstructionOk ((element_instruction hlt).trans (congrArg _ hget))).mpr ?_
  exact instructionOk_instructionBytes _ helement (hslices i hi)

end FlowEntry

end PofSwitch
