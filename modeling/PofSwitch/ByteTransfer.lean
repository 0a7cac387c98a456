/-
**The byte-order codec: `common/pof_byte_transfer.c`.**

The routines convert a message in place.  On a little-endian machine each of `POF_NTOHS_FUNC`,
`POF_NTOHL_FUNC` and `POF_NTOH64_FUNC` reverses the bytes of one field, so a routine is the list of
the fields it converts, in the order of the source.  A routine gets the bytes of the structure its
pointer points to; the offsets are those of the C structures in the 1.4.0 configuration.

The two directions differ only in when the type of an instruction is read: before its conversion to
network order, after its conversion to host order.  The routine for actions serves both directions
and takes the direction from the length of the action: in host order it is below 256.

Main definitions:

* `PofSwitch.TransferItem`, `PofSwitch.transfer` — a field to convert, and a routine;
* `PofSwitch.action`, `PofSwitch.instructionHtoN`, `PofSwitch.instructionNtoH`;
* `PofSwitch.pofHtoNTransferFlowEntry`, `pofNtoHTransferFlowEntry`, `pofNtoHTransferGroup`,
  `pofNtoHTransferFlowTable`, `pofNtoHTransferMeter`, `pofNtoHTransferCounter`.

Main results:

* `PofSwitch.transfer_transfer` — a routine whose fields do not overlap, and whose type bytes are not
  among them, undoes itself;
* `PofSwitch.action_action` — so does the routine for actions, in both directions;
* `PofSwitch.transfer_round_trip` — **the conversions of flow entries undo each other, and those of
  groups, tables, meters and counters undo themselves.**
-/

import PofSwitch.ByteSwap
import PofSwitch.Global
import PofSwitch.LittleEndian

set_option relaxedAutoImplicit false
set_option autoImplicit false

namespace PofSwitch

open Buf

/-! ### Routines -/

/-- One statement of a routine: a field of two, four or eight bytes, a `pof_match`, or a value that
is a `uint32_t` or a `pof_match`, as the byte at index `type` says. -/
inductive TransferItem
  | half (p : ℕ)
  | word (p : ℕ)
  | long (p : ℕ)
  | match_ (p : ℕ)
  | value (type p : ℕ)

namespace TransferItem

/-- The fields of a `pof_match` at index `p`, which `match` converts. -/
def matchFields (p : ℕ) : List (ℕ × ℕ) := [(p, 2), (p + 2, 2), (p + 4, 2)]

/-- The fields a statement converts. -/
def fields (b : Buf) : TransferItem → List (ℕ × ℕ)
  | half p => [(p, 2)]
  | word p => [(p, 4)]
  | long p => [(p, 8)]
  | match_ p => matchFields p
  | value type p => if b.rd type = 0 then [(p, 4)] else matchFields p

/-- The bytes a statement may touch. -/
def extent : TransferItem → ℕ × ℕ
  | half p => (p, 2)
  | word p => (p, 4)
  | long p => (p, 8)
  | match_ p => (p, 6)
  | value _ p => (p, 6)

/-- The type bytes a statement reads. -/
def controls : TransferItem → List ℕ
  | value type _ => [type]
  | _ => []

end TransferItem

/-- A routine: its statements one after the other. -/
def transfer (items : List TransferItem) (b : Buf) : Buf :=
  items.foldl (fun b item => revAll (item.fields b) b) b

/-- The statements touch different bytes among the first `n` and none of the type bytes. -/
def ItemsOk (items : List TransferItem) (n : ℕ) : Prop :=
  items.Pairwise (fun x y => Apart x.extent y.extent) ∧
    (∀ x ∈ items, x.extent.1 + x.extent.2 ≤ n) ∧
    ∀ x ∈ items, ∀ i ∈ x.controls, ∀ y ∈ items, i < y.extent.1 ∨ y.extent.1 + y.extent.2 ≤ i

instance (items : List TransferItem) (n : ℕ) : Decidable (ItemsOk items n) :=
  inferInstanceAs (Decidable (items.Pairwise (fun x y => Apart x.extent y.extent) ∧
    (∀ x ∈ items, x.extent.1 + x.extent.2 ≤ n) ∧
    ∀ x ∈ items, ∀ i ∈ x.controls, ∀ y ∈ items, i < y.extent.1 ∨ y.extent.1 + y.extent.2 ≤ i))

namespace TransferItem

variable {b c : Buf} {item : TransferItem}

/-- The fields lie in the extent. -/
theorem fields_extent {x : ℕ × ℕ} (h : x ∈ item.fields b) :
    item.extent.1 ≤ x.1 ∧ x.1 + x.2 ≤ item.extent.1 + item.extent.2 := by
  cases item with
  | half p => simp_all [fields, extent]
  | word p => simp_all [fields, extent]
  | long p => simp_all [fields, extent]
  | match_ p =>
      simp only [fields, matchFields, List.mem_cons, List.not_mem_nil, or_false] at h
      simp only [extent]
      rcases h with rfl | rfl | rfl <;> exact ⟨by simp, by simp⟩
  | value type p =>
      simp only [fields] at h
      simp only [extent]
      split_ifs at h
      · rw [List.mem_singleton] at h
        subst h
        simp
      · simp only [matchFields, List.mem_cons, List.not_mem_nil, or_false] at h
        rcases h with rfl | rfl | rfl <;> exact ⟨by simp, by simp⟩

theorem pairwise_fields : (item.fields b).Pairwise Apart := by
  have hmatch : ∀ p, (matchFields p).Pairwise Apart := by
    intro p
    simp [matchFields, Apart]
  cases item with
  | half p => simp [fields]
  | word p => simp [fields]
  | long p => simp [fields]
  | match_ p => exact hmatch p
  | value type p =>
      simp only [fields]
      split_ifs
      · simp
      · exact hmatch p

/-- The fields depend on the type bytes only. -/
theorem fields_congr (h : ∀ i ∈ item.controls, c.rd i = b.rd i) : item.fields c = item.fields b := by
  cases item with
  | value type p => simp only [fields, h type (List.mem_singleton_self type)]
  | _ => rfl

end TransferItem

/-- The routine reverses the fields that the type bytes of `b` say, from any buffer with these type
bytes. -/
theorem transfer_eq_revAll {items : List TransferItem} {n : ℕ} (hok : ItemsOk items n) (b : Buf)
    {c : Buf} (hlen : n ≤ c.length) (hc : ∀ x ∈ items, ∀ i ∈ x.controls, c.rd i = b.rd i) :
    transfer items c = revAll (items.flatMap (TransferItem.fields b)) c := by
  induction items generalizing c with
  | nil => rfl
  | cons x items ih =>
      obtain ⟨hpair, hwithin, hcontrol⟩ := hok
      have hx : Within (x.fields b) c.length := fun f hf =>
        (TransferItem.fields_extent hf).2.trans ((hwithin x List.mem_cons_self).trans hlen)
      rw [transfer, List.foldl_cons, List.flatMap_cons, revAll_append_fields,
        TransferItem.fields_congr (hc x List.mem_cons_self)]
      refine ih ⟨(List.pairwise_cons.1 hpair).2, fun y hy => hwithin y (List.mem_cons_of_mem _ hy),
        fun y hy i hi z hz => hcontrol y (List.mem_cons_of_mem _ hy) i hi z (List.mem_cons_of_mem _ hz)⟩
        ?_ ?_
      · exact hlen.trans (length_revAll _ _).ge
      · -- the type bytes of the later statements are not touched
        intro y hy i hi
        refine (rd_revAll hx fun f hf => ?_).trans (hc y (List.mem_cons_of_mem _ hy) i hi)
        have hext := TransferItem.fields_extent hf
        have hout := hcontrol y (List.mem_cons_of_mem _ hy) i hi x List.mem_cons_self
        omega

section Transfer

variable {items : List TransferItem} {n : ℕ} {b : Buf}

theorem within_flatMap (hok : ItemsOk items n) (b : Buf) {m : ℕ} (hm : n ≤ m) :
    Within (items.flatMap (TransferItem.fields b)) m := by
  intro f hf
  obtain ⟨x, hx, hf⟩ := List.mem_flatMap.1 hf
  exact (TransferItem.fields_extent hf).2.trans ((hok.2.1 x hx).trans hm)

theorem pairwise_flatMap (hok : ItemsOk items n) (b : Buf) :
    (items.flatMap (TransferItem.fields b)).Pairwise Apart := by
  rw [List.pairwise_flatMap]
  refine ⟨fun x _ => TransferItem.pairwise_fields, hok.1.imp fun hxy f hf g hg => ?_⟩
  have hfx := TransferItem.fields_extent hf
  have hgy := TransferItem.fields_extent hg
  simp only [Apart] at hxy ⊢
  omega

@[simp] theorem length_transfer (items : List TransferItem) (b : Buf) :
    (transfer items b).length = b.length := by
  induction items generalizing b with
  | nil => rfl
  | cons x items ih => exact (ih _).trans (length_revAll _ _)

/-- The bytes no statement touches stay as they are. -/
theorem rd_transfer (hok : ItemsOk items n) (hlen : n ≤ b.length) {i : ℕ}
    (hi : ∀ x ∈ items, i < x.extent.1 ∨ x.extent.1 + x.extent.2 ≤ i) :
    (transfer items b).rd i = b.rd i := by
  rw [transfer_eq_revAll hok b hlen fun _ _ _ _ => rfl]
  refine rd_revAll (within_flatMap hok b hlen) fun f hf => ?_
  obtain ⟨x, hx, hf⟩ := List.mem_flatMap.1 hf
  have hext := TransferItem.fields_extent hf
  have hout := hi x hx
  omega

/-- **A routine whose statements touch different bytes, none of them a type byte, undoes itself.** -/
theorem transfer_transfer (hok : ItemsOk items n) (hlen : n ≤ b.length) :
    transfer items (transfer items b) = b := by
  have hcontrol : ∀ x ∈ items, ∀ i ∈ x.controls, (transfer items b).rd i = b.rd i :=
    fun x hx i hi => rd_transfer hok hlen fun y hy => hok.2.2 x hx i hi y hy
  rw [transfer_eq_revAll hok b (hlen.trans (length_transfer items b).ge) hcontrol,
    transfer_eq_revAll hok b hlen fun _ _ _ _ => rfl]
  exact revAll_revAll (within_flatMap hok b hlen) (pairwise_flatMap hok b)

/-- A routine on the first part of a buffer. -/
theorem transfer_append (hok : ItemsOk items n) (hlen : n ≤ b.length) (c : Buf)
    (hcontrols : ∀ x ∈ items, ∀ i ∈ x.controls, i < n) :
    transfer items (b ++ c) = transfer items b ++ c := by
  have hrd : ∀ x ∈ items, ∀ i ∈ x.controls, (b ++ c).rd i = b.rd i := by
    intro x hx i hi
    have hlt := hcontrols x hx i hi
    simp only [rd, List.getD_eq_getElem?_getD]
    rw [List.getElem?_append_left (by omega)]
  rw [transfer_eq_revAll hok b (by rw [List.length_append]; omega) hrd,
    transfer_eq_revAll hok b hlen fun _ _ _ _ => rfl, revAll_append (within_flatMap hok b hlen)]

end Transfer

/-! ### Actions -/

open TransferItem

/-- `match_x`, which converts the same three fields as `match`. -/
def matchX : Buf → Buf := transfer [.match_ 0]

/-- `action_OUTPUT`. -/
def actionOutput : List TransferItem := [.value 0 8, .half 2, .half 4, .half 6]

/-- `action_SET_FIELD`. -/
def actionSetField : List TransferItem := [.match_ 0]

/-- `action_SET_FIELD_FROM_METADATA`. -/
def actionSetFieldFromMetadata : List TransferItem := [.match_ 0, .half 8]

/-- `action_MODIFY_FIELD`. -/
def actionModifyField : List TransferItem := [.match_ 0, .word 8]

/-- `action_ADD_FIELD`: `tag_pos`, `tag_id`, `tag_len`. -/
def actionAddField : List TransferItem := [.half 2, .half 0, .word 4]

/-- `action_DELETE_FIELD`. -/
def actionDeleteField : List TransferItem := [.half 0, .value 2 8]

/-- `action_CALCULATE_CHECKSUM`. -/
def actionCalculateChecksum : List TransferItem := [.half 2, .half 4, .half 6, .half 8]

/-- `action_GROUP`, `action_DROP`, `action_PACKET_IN` and `action_COUNTER` convert one word. -/
def actionWord : List TransferItem := [.word 0]

/-- The routine of an action type; `action_EXPERIMENTER` converts nothing. -/
def actionItems : ActionType → List TransferItem
  | .output => actionOutput
  | .setField => actionSetField
  | .setFieldFromMetadata => actionSetFieldFromMetadata
  | .modifyField => actionModifyField
  | .addField => actionAddField
  | .deleteField => actionDeleteField
  | .calculateChecksum => actionCalculateChecksum
  | .group | .drop | .packetIn | .counter => actionWord
  | .experimenter => []

/-- The `switch` of `action` on a type, applied to the 44 bytes of the data; an unknown type is
reported and nothing is converted. -/
def actionData (type : ℕ) (data : Buf) : Buf :=
  match ActionType.ofCode type with
  | some t => transfer (actionItems t) data
  | none => data

/-- The first two fields of an action or an instruction, `type` and `len`. -/
def headItems : List TransferItem := [.half 0, .half 2]

/-- The data of a structure, behind its `n` bytes of header. -/
def onData (n : ℕ) (f : Buf → Buf) (b : Buf) : Buf := b.take n ++ f (b.drop n)

/-- `action`: an action in host order is shorter than 256. -/
def action (b : Buf) : Buf :=
  if b.loadWord 2 2 > 0x00FF then
    let b := transfer headItems b
    onData 4 (actionData (b.loadWord 0 2)) b
  else transfer headItems (onData 4 (actionData (b.loadWord 0 2)) b)

/-! ### Instructions -/

/-- The routine of an instruction type other than `APPLY_ACTIONS`; those that are not supported
convert nothing. -/
def instructionItems : InstructionType → List TransferItem
  | .gotoTable => .half 2 :: (List.range maxMatchFieldNum).map fun i => .match_ (8 + 8 * i)
  | .writeMetadata => [.half 0, .half 2]
  | .meter => [.word 0]
  | .writeMetadataFromPacket => [.half 0, .half 2, .half 4]
  | .gotoDirectTable => [.value 1 8, .half 2]
  | .conditionalJmp => [.match_ 8, .value 0 16, .value 2 24, .value 4 32, .value 6 40]
  | .calculateField => [.half 0, .match_ 8, .value 2 16]
  | .movePacketOffset => [.value 1 8]
  | .writeActions | .applyActions | .clearActions | .experimenter => []

/-- `instruction_APPLY_ACTIONS`: the first `action_num` actions. -/
def instructionApplyActions (data : Buf) : Buf :=
  onData 8 (eachSlice 48 action (data.rd 0).toNat) data

/-- A case of the `switch` on an instruction type, applied to the data. -/
def instructionData (type : InstructionType) (data : Buf) : Buf :=
  if type = .applyActions then instructionApplyActions data
  else transfer (instructionItems type) data

/-- `instruction_HtoN`: an instruction of unknown type stays as it is. -/
def instructionHtoN (b : Buf) : Buf :=
  match InstructionType.ofCode (b.loadWord 0 2) with
  | some t => transfer headItems (onData 8 (instructionData t) b)
  | none => b

/-- `instruction_NtoH`. -/
def instructionNtoH (b : Buf) : Buf :=
  let b := transfer headItems b
  match InstructionType.ofCode (b.loadWord 0 2) with
  | some t => onData 8 (instructionData t) b
  | none => b

/-! ### Messages -/

/-- The fields of a flow entry before its matches. -/
def flowEntryItems : List TransferItem :=
  [.word 4, .long 8, .long 16, .half 26, .half 28, .half 30, .word 32, .half 36]

/-- The body of `pof_HtoN_transfer_flow_entry` and `pof_NtoH_transfer_flow_entry`, with the routine
for the instructions. -/
def transferFlowEntry (instruction : Buf → Buf) (b : Buf) : Buf :=
  let b := transfer flowEntryItems b
  let b := onData 40 (eachSlice 40 matchX (b.rd 1).toNat) b
  onData 360 (eachSlice 304 instruction (b.rd 2).toNat) b

/-- `pof_HtoN_transfer_flow_entry`. -/
def pofHtoNTransferFlowEntry : Buf → Buf := transferFlowEntry instructionHtoN

/-- `pof_NtoH_transfer_flow_entry`. -/
def pofNtoHTransferFlowEntry : Buf → Buf := transferFlowEntry instructionNtoH

/-- The fields of a group before its actions. -/
def groupItems : List TransferItem := [.word 4, .word 8, .half 12]

/-- `pof_NtoH_transfer_group`. -/
def pofNtoHTransferGroup (b : Buf) : Buf :=
  onData 16 (eachSlice 48 action maxActionNumberPerGroup) (transfer groupItems b)

/-- `pof_NtoH_transfer_flow_table`. -/
def pofNtoHTransferFlowTable : Buf → Buf :=
  transfer (.word 4 :: .half 8 :: .half 10 ::
    (List.range maxMatchFieldNum).map fun i => .match_ (80 + 8 * i))

/-- `pof_NtoH_transfer_meter`. -/
def pofNtoHTransferMeter : Buf → Buf := transfer [.half 2, .word 8, .word 4]

/-- `pof_NtoH_transfer_counter`. -/
def pofNtoHTransferCounter : Buf → Buf := transfer [.word 4, .half 2, .long 8, .long 16]

/-! ### Headers and data -/

section Head

variable {hd d : Buf}

theorem onData_append {n : ℕ} (f : Buf → Buf) (h : hd.length = n) : onData n f (hd ++ d) = hd ++ f d := by
  rw [onData, List.take_left' h, List.drop_left' h]

theorem headItems_ok : ItemsOk headItems 4 := by decide

theorem transfer_head_append (h : 4 ≤ hd.length) :
    transfer headItems (hd ++ d) = transfer headItems hd ++ d :=
  transfer_append headItems_ok h d (by decide)

theorem transfer_head_head (h : 4 ≤ hd.length) : transfer headItems (transfer headItems hd) = hd :=
  transfer_transfer headItems_ok h

/-- The lengths before and after the conversion of the header. -/
theorem loadWord_transfer_head (h : 4 ≤ hd.length) :
    hd.loadWord 2 2 = (hd.rd 2).toNat + 256 * (hd.rd 3).toNat ∧
      (transfer headItems hd).loadWord 2 2 = (hd.rd 3).toNat + 256 * (hd.rd 2).toNat := by
  have hlen := length_rev 0 2 hd
  have hrd : ∀ i, 2 ≤ i → i < 4 → (transfer headItems hd).rd i = hd.rd (5 - i) := by
    intro i h₁ h₂
    have heq : transfer headItems hd = rev 2 2 (rev 0 2 hd) := rfl
    rw [heq, rd_rev (by omega), if_pos (by omega), rd_rev (by omega), if_neg (by omega)]
  refine ⟨by simp [loadWord], ?_⟩
  simp [loadWord, hrd 2 (by omega) (by omega), hrd 3 (by omega) (by omega)]

end Head

/-! ### Actions convert back -/

theorem actionItems_ok (t : ActionType) : ItemsOk (actionItems t) maxActionLength := by
  cases t <;> decide

@[simp] theorem length_actionData (type : ℕ) (d : Buf) : (actionData type d).length = d.length := by
  unfold actionData
  split
  · exact length_transfer _ _
  · rfl

theorem length_onData {n : ℕ} {f : Buf → Buf} (hf : ∀ d : Buf, (f d).length = d.length) (b : Buf) :
    (onData n f b).length = b.length := by
  rw [onData, List.length_append, hf, List.length_take, List.length_drop]
  omega

@[simp] theorem length_action (b : Buf) : (action b).length = b.length := by
  unfold action
  split_ifs
  · exact (length_onData (length_actionData _) _).trans (length_transfer _ _)
  · exact (length_transfer _ _).trans (length_onData (length_actionData _) _)

theorem actionData_actionData {type : ℕ} {d : Buf} (h : maxActionLength ≤ d.length) :
    actionData type (actionData type d) = d := by
  unfold actionData
  split
  · exact transfer_transfer (actionItems_ok _) h
  · rfl

/-- The length of an action in host order. -/
def HostLen (b : Buf) : Prop := 1 ≤ b.loadWord 2 2 ∧ b.loadWord 2 2 ≤ 255

instance (b : Buf) : Decidable (HostLen b) :=
  inferInstanceAs (Decidable (1 ≤ b.loadWord 2 2 ∧ b.loadWord 2 2 ≤ 255))

/-- The header is converted, and the data by the type in host order, as the length tells it. -/
theorem action_append {hd d : Buf} (h : hd.length = 4) :
    action (hd ++ d) = transfer headItems hd ++ actionData
      (if hd.loadWord 2 2 > 0x00FF then (transfer headItems hd).loadWord 0 2 else hd.loadWord 0 2) d := by
  have hlen : (transfer headItems hd).length = 4 := (length_transfer _ _).trans h
  rw [action, loadWord_append (by omega), loadWord_append (by omega)]
  split_ifs
  · simp only
    rw [transfer_head_append (by omega), loadWord_append (by omega), onData_append _ hlen]
  · rw [onData_append _ h, transfer_head_append (by omega)]

/-- An action as header and data. -/
theorem exists_head_data {b : Buf} {n m : ℕ} (h : b.length = n + m) :
    ∃ hd d, b = hd ++ d ∧ hd.length = n ∧ d.length = m := by
  refine ⟨b.take n, b.drop n, (List.take_append_drop n b).symm, ?_, ?_⟩
  · rw [List.length_take]
    omega
  · rw [List.length_drop]
    omega

/-- **The routine for actions undoes itself, on actions in host order and in network order.** -/
theorem action_action {b : Buf} (h : b.length = 48) (hlen : HostLen b ∨ HostLen (transfer headItems b)) :
    action (action b) = b := by
  obtain ⟨hd, d, rfl, hhd, hd'⟩ := exists_head_data (n := 4) (m := maxActionLength) h
  have hhd' : (transfer headItems hd).length = 4 := (length_transfer _ _).trans hhd
  obtain ⟨hhost, hnet⟩ := loadWord_transfer_head (show 4 ≤ hd.length by omega)
  simp only [HostLen, transfer_head_append (show 4 ≤ hd.length by omega),
    loadWord_append (show 2 + 2 ≤ hd.length by omega),
    loadWord_append (show 2 + 2 ≤ (transfer headItems hd).length by omega)] at hlen
  rw [action_append hhd, action_append hhd', transfer_head_head (by omega)]
  -- the type that was used in host order is used again
  have htype : (if (transfer headItems hd).loadWord 2 2 > 0x00FF then hd.loadWord 0 2
        else (transfer headItems hd).loadWord 0 2) =
      if hd.loadWord 2 2 > 0x00FF then (transfer headItems hd).loadWord 0 2 else hd.loadWord 0 2 := by
    rcases hlen with hlen | hlen
    · have hhigh : (hd.rd 3).toNat = 0 := by omega
      rw [if_pos (by omega), if_neg (by omega)]
    · have hhigh : (hd.rd 2).toNat = 0 := by omega
      rw [if_neg (by omega), if_pos (by omega)]
  rw [htype, actionData_actionData (by omega)]

theorem hostLen_action {b : Buf} (h : b.length = 48) :
    HostLen (action b) ↔ HostLen (transfer headItems b) := by
  obtain ⟨hd, d, rfl, hhd, hd'⟩ := exists_head_data (n := 4) (m := maxActionLength) h
  have hhd' : (transfer headItems hd).length = 4 := (length_transfer _ _).trans hhd
  rw [action_append hhd, transfer_head_append (by omega), HostLen, HostLen,
    loadWord_append (by omega), loadWord_append (by omega)]

/-! ### Instructions convert back -/

/-- An action in host order: a known type and a length below 256. -/
def ActionOk (b : Buf) : Prop := (ActionType.ofCode (b.loadWord 0 2)).isSome ∧ HostLen b

instance (b : Buf) : Decidable (ActionOk b) :=
  inferInstanceAs (Decidable ((ActionType.ofCode (b.loadWord 0 2)).isSome ∧ HostLen b))

/-- Actions in host order. -/
def ActionsOk (data : Buf) : Prop :=
  (data.rd 0).toNat ≤ maxActionNumberPerInstruction ∧
    AllSlices 48 ActionOk (data.rd 0).toNat (data.drop 8)

instance (data : Buf) : Decidable (ActionsOk data) :=
  inferInstanceAs (Decidable ((data.rd 0).toNat ≤ maxActionNumberPerInstruction ∧
    ∀ i < (data.rd 0).toNat, ActionOk (((data.drop 8).drop (48 * i)).take 48)))

/-- An instruction in host order: a known type, and known actions. -/
def InstructionOk (b : Buf) : Prop :=
  ∃ t, InstructionType.ofCode (b.loadWord 0 2) = some t ∧ (t = .applyActions → ActionsOk (b.drop 8))

theorem instructionItems_ok (t : InstructionType) : ItemsOk (instructionItems t) maxInstructionLength := by
  cases t <;> decide

/-- `instruction_APPLY_ACTIONS` on its header and its actions. -/
theorem instructionApplyActions_append {hd d : Buf} (h : hd.length = 8) :
    instructionApplyActions (hd ++ d) = hd ++ eachSlice 48 action (hd.rd 0).toNat d := by
  rw [instructionApplyActions, rd_append_left (by omega), onData_append _ h]

@[simp] theorem length_instructionData (t : InstructionType) (d : Buf) :
    (instructionData t d).length = d.length := by
  unfold instructionData
  split_ifs
  · exact length_onData (length_eachSlice length_action _) d
  · exact length_transfer _ d

/-- Data that is converted twice, when its actions, if any, are in host order before or after the
first time. -/
theorem instructionData_instructionData {t : InstructionType} {d : Buf}
    (h : d.length = maxInstructionLength)
    (hok : t = .applyActions → ActionsOk d ∨ ActionsOk (instructionData t d)) :
    instructionData t (instructionData t d) = d := by
  by_cases ht : t = .applyActions
  · obtain ⟨hd, as, rfl, hhd, has⟩ :=
      exists_head_data (n := 8) (m := 48 * maxActionNumberPerInstruction) h
    have hrd : ∀ c : Buf, ((hd ++ c).rd 0).toNat = (hd.rd 0).toNat := fun c => by
      rw [rd_append_left (by omega)]
    have hcap : maxActionNumberPerInstruction = 6 := rfl
    have hok' := hok ht
    simp only [instructionData, if_pos ht, instructionApplyActions_append hhd, ActionsOk, hrd,
      List.drop_left' hhd] at hok' ⊢
    have hnum : (hd.rd 0).toNat * 48 ≤ as.length := by
      rcases hok' with ⟨hle, _⟩ | ⟨hle, _⟩ <;> omega
    have hslices : AllSlices 48 (fun s => HostLen s ∨ HostLen (transfer headItems s)) (hd.rd 0).toNat as := by
      rcases hok' with ⟨_, hall⟩ | ⟨_, hall⟩
      · exact hall.imp (fun s _ hs => Or.inl hs.2) hnum
      · rw [allSlices_eachSlice length_action hnum] at hall
        exact hall.imp (fun s hs hP => Or.inr ((hostLen_action hs).1 hP.2)) hnum
    rw [eachSlice_eachSlice length_action (fun s => action_action) hnum hslices]
  · simp only [instructionData, if_neg ht]
    exact transfer_transfer (instructionItems_ok t) h.ge

section Instruction

variable {hd d : Buf}

theorem instructionHtoN_append {t : InstructionType} (h : hd.length = 8)
    (ht : InstructionType.ofCode (hd.loadWord 0 2) = some t) :
    instructionHtoN (hd ++ d) = transfer headItems hd ++ instructionData t d := by
  rw [instructionHtoN, loadWord_append (by omega), ht]
  simp only
  rw [onData_append _ h, transfer_head_append (by omega)]

theorem instructionNtoH_append {t : InstructionType} (h : hd.length = 8)
    (ht : InstructionType.ofCode ((transfer headItems hd).loadWord 0 2) = some t) :
    instructionNtoH (hd ++ d) = transfer headItems hd ++ instructionData t d := by
  have hlen : (transfer headItems hd).length = 8 := (length_transfer _ _).trans h
  rw [instructionNtoH, transfer_head_append (by omega), loadWord_append (by omega), ht]
  simp only
  rw [onData_append _ hlen]

end Instruction

/-- An instruction in host order comes back. -/
theorem instructionNtoH_instructionHtoN {b : Buf} (h : b.length = 304) (hok : InstructionOk b) :
    instructionNtoH (instructionHtoN b) = b := by
  obtain ⟨hd, d, rfl, hhd, hd'⟩ := exists_head_data (n := 8) (m := maxInstructionLength) h
  have hhd' : (transfer headItems hd).length = 8 := (length_transfer _ _).trans hhd
  obtain ⟨t, ht, hact⟩ := hok
  rw [loadWord_append (by omega)] at ht
  rw [List.drop_left' hhd] at hact
  have hback : transfer headItems (transfer headItems hd) = hd := transfer_head_head (by omega)
  rw [instructionHtoN_append hhd ht, instructionNtoH_append hhd' (hback.symm ▸ ht), hback,
    instructionData_instructionData hd' fun h => Or.inl (hact h)]

/-- An instruction in network order comes back, when it is well formed in host order. -/
theorem instructionHtoN_instructionNtoH {b : Buf} (h : b.length = 304)
    (hok : InstructionOk (instructionNtoH b)) : instructionHtoN (instructionNtoH b) = b := by
  obtain ⟨hd, d, rfl, hhd, hd'⟩ := exists_head_data (n := 8) (m := maxInstructionLength) h
  have hhd' : (transfer headItems hd).length = 8 := (length_transfer _ _).trans hhd
  -- the type is known, so the data has been converted
  obtain ⟨t, ht⟩ : ∃ t, InstructionType.ofCode ((transfer headItems hd).loadWord 0 2) = some t := by
    obtain ⟨t, ht, _⟩ := hok
    cases htype : InstructionType.ofCode ((transfer headItems hd).loadWord 0 2) with
    | some t' => exact ⟨t', rfl⟩
    | none =>
        rw [instructionNtoH, transfer_head_append (by omega)] at ht
        simp only [loadWord_append (show 0 + 2 ≤ (transfer headItems hd).length by omega), htype] at ht
        cases ht
  rw [instructionNtoH_append hhd ht] at hok ⊢
  obtain ⟨t', ht', hact⟩ := hok
  rw [loadWord_append (by omega)] at ht'
  cases ht.symm.trans ht'
  rw [List.drop_left' hhd'] at hact
  rw [instructionHtoN_append hhd' ht, transfer_head_head (by omega),
    instructionData_instructionData hd' fun h => Or.inr (hact h)]

/-! ### Messages convert back -/

@[simp] theorem length_instructionHtoN (b : Buf) : (instructionHtoN b).length = b.length := by
  unfold instructionHtoN
  split
  · exact (length_transfer _ _).trans (length_onData (length_instructionData _) b)
  · rfl

@[simp] theorem length_instructionNtoH (b : Buf) : (instructionNtoH b).length = b.length := by
  unfold instructionNtoH
  simp only
  split
  · exact (length_onData (length_instructionData _) _).trans (length_transfer _ b)
  · exact length_transfer _ b

theorem rd_onData {n i : ℕ} (f : Buf → Buf) {b : Buf} (hi : i < n) (hb : i < b.length) :
    (onData n f b).rd i = b.rd i := by
  have htake : i < (b.take n).length := by rw [List.length_take]; omega
  rw [onData, rd_append_left htake]
  simp only [rd, List.getD_eq_getElem?_getD, List.getElem?_take_of_lt hi]

@[simp] theorem length_matchX (b : Buf) : (matchX b).length = b.length := length_transfer _ b

theorem flowEntryItems_ok : ItemsOk flowEntryItems 40 := by decide

theorem length_transferFlowEntry {f : Buf → Buf} (hf : ∀ s : Buf, (f s).length = s.length) (b : Buf) :
    (transferFlowEntry f b).length = b.length := by
  simp only [transferFlowEntry]
  rw [length_onData (length_eachSlice hf _), length_onData (length_eachSlice length_matchX _),
    length_transfer]

/-- The counts of a flow entry are not converted. -/
theorem rd_transferFlowEntry (instruction : Buf → Buf) {b : Buf} (hb : 40 ≤ b.length) {i : ℕ}
    (hi : i < 40) (hcount : ∀ x ∈ flowEntryItems, i < x.extent.1 ∨ x.extent.1 + x.extent.2 ≤ i) :
    (transferFlowEntry instruction b).rd i = b.rd i := by
  have hlen : ∀ n, (onData 40 (eachSlice 40 matchX n) (transfer flowEntryItems b)).length = b.length :=
    fun n => (length_onData (length_eachSlice length_matchX n) _).trans (length_transfer _ b)
  simp only [transferFlowEntry]
  rw [rd_onData _ (by omega) (by rw [hlen]; omega), rd_onData _ hi (by simp; omega),
    rd_transfer flowEntryItems_ok hb hcount]

/-- The conversion of a flow entry, part by part. -/
theorem transferFlowEntry_append (instruction : Buf → Buf) {hd ms ins : Buf} (hhd : hd.length = 40)
    (hms : ms.length = 320) (hnum : (hd.rd 1).toNat ≤ maxMatchFieldNum) :
    transferFlowEntry instruction (hd ++ (ms ++ ins)) =
      transfer flowEntryItems hd ++ (eachSlice 40 matchX (hd.rd 1).toNat ms ++
        eachSlice 304 instruction (hd.rd 2).toNat ins) := by
  have hcap : maxMatchFieldNum = 8 := rfl
  have hhd' : (transfer flowEntryItems hd).length = 40 := (length_transfer _ hd).trans hhd
  have hms' : ∀ n, (eachSlice 40 matchX n ms).length = 320 :=
    fun n => (length_eachSlice length_matchX n ms).trans hms
  have hrd : ∀ i, i < 40 → (∀ x ∈ flowEntryItems, i < x.extent.1 ∨ x.extent.1 + x.extent.2 ≤ i) →
      ∀ c : Buf, (transfer flowEntryItems hd ++ c).rd i = hd.rd i := by
    intro i hi hcount c
    rw [rd_append_left (by omega), rd_transfer flowEntryItems_ok hhd.ge hcount]
  simp only [transferFlowEntry]
  rw [transfer_append flowEntryItems_ok hhd.ge _ (by decide), hrd 1 (by omega) (by decide),
    onData_append _ hhd', eachSlice_append (by omega), hrd 2 (by omega) (by decide),
    ← List.append_assoc, onData_append _ (by rw [List.length_append, hhd', hms']), List.append_assoc]

/-- A flow entry in host order: the counts fit the arrays and the instructions are well formed. -/
def FlowEntryOk (b : Buf) : Prop :=
  (b.rd 1).toNat ≤ maxMatchFieldNum ∧ (b.rd 2).toNat ≤ maxInstructionNum ∧
    AllSlices 304 InstructionOk (b.rd 2).toNat (b.drop 360)

theorem matchX_matchX {s : Buf} (h : s.length = 40) : matchX (matchX s) = s := by
  have hok : ItemsOk [.match_ 0] 40 := by decide
  exact transfer_transfer hok h.ge

/-- Two conversions of a flow entry, when the routines for the instructions undo each other. -/
theorem transferFlowEntry_transferFlowEntry {f g : Buf → Buf} {P : Buf → Prop}
    (hf : ∀ s : Buf, (f s).length = s.length) (hgf : ∀ s : Buf, s.length = 304 → P s → g (f s) = s)
    {b : Buf} (hb : b.length = 2184) (hmatch : (b.rd 1).toNat ≤ maxMatchFieldNum)
    (hins : (b.rd 2).toNat ≤ maxInstructionNum) (hP : AllSlices 304 P (b.rd 2).toNat (b.drop 360)) :
    transferFlowEntry g (transferFlowEntry f b) = b := by
  have hcap : maxMatchFieldNum = 8 ∧ maxInstructionNum = 6 := ⟨rfl, rfl⟩
  obtain ⟨hd, rest, rfl, hhd, hrest⟩ := exists_head_data (n := 40) (m := 2144) hb
  obtain ⟨ms, ins, rfl, hms, hins'⟩ := exists_head_data (n := 320) (m := 1824) hrest
  rw [rd_append_left (by omega)] at hmatch hins hP
  rw [← List.append_assoc, List.drop_left' (by rw [List.length_append]; omega)] at hP
  have hhd' : (transfer flowEntryItems hd).length = 40 := (length_transfer _ hd).trans hhd
  have hms' : (eachSlice 40 matchX (hd.rd 1).toNat ms).length = 320 :=
    (length_eachSlice length_matchX _ ms).trans hms
  have hrd₁ : (transfer flowEntryItems hd).rd 1 = hd.rd 1 :=
    rd_transfer flowEntryItems_ok hhd.ge (by decide)
  have hrd₂ : (transfer flowEntryItems hd).rd 2 = hd.rd 2 :=
    rd_transfer flowEntryItems_ok hhd.ge (by decide)
  rw [transferFlowEntry_append f hhd hms hmatch,
    transferFlowEntry_append g hhd' hms' (by rw [hrd₁]; exact hmatch), hrd₁, hrd₂,
    transfer_transfer flowEntryItems_ok hhd.ge,
    eachSlice_eachSlice (P := fun _ => True) length_matchX (fun s hs _ => matchX_matchX hs)
      (by omega) (fun _ _ => trivial),
    eachSlice_eachSlice hf hgf (by omega) hP]

/-- A flow entry in host order comes back. -/
theorem pofNtoH_pofHtoN_flowEntry {b : Buf} (hb : b.length = 2184) (hok : FlowEntryOk b) :
    pofNtoHTransferFlowEntry (pofHtoNTransferFlowEntry b) = b := by
  obtain ⟨hmatch, hins, hslices⟩ := hok
  refine transferFlowEntry_transferFlowEntry (P := InstructionOk) length_instructionHtoN ?_ hb hmatch
    hins hslices
  intro s hs hP
  exact instructionNtoH_instructionHtoN hs hP

/-- A flow entry in network order comes back, when it is well formed in host order. -/
theorem pofHtoN_pofNtoH_flowEntry {b : Buf} (hb : b.length = 2184)
    (hok : FlowEntryOk (pofNtoHTransferFlowEntry b)) :
    pofHtoNTransferFlowEntry (pofNtoHTransferFlowEntry b) = b := by
  obtain ⟨hmatch, hins, hslices⟩ := hok
  have hcap : maxMatchFieldNum = 8 ∧ maxInstructionNum = 6 := ⟨rfl, rfl⟩
  have hrd₁ : (pofNtoHTransferFlowEntry b).rd 1 = b.rd 1 :=
    rd_transferFlowEntry _ (by omega) (by omega) (by decide)
  have hrd₂ : (pofNtoHTransferFlowEntry b).rd 2 = b.rd 2 :=
    rd_transferFlowEntry _ (by omega) (by omega) (by decide)
  rw [hrd₁] at hmatch
  rw [hrd₂] at hins hslices
  refine transferFlowEntry_transferFlowEntry (P := fun s => InstructionOk (instructionNtoH s))
    length_instructionNtoH (fun s hs hP => instructionHtoN_instructionNtoH hs hP) hb hmatch hins ?_
  -- the converted instructions are those of the converted entry
  obtain ⟨hd, rest, rfl, hhd, hrest⟩ := exists_head_data (n := 40) (m := 2144) hb
  obtain ⟨ms, ins, rfl, hms, hins'⟩ := exists_head_data (n := 320) (m := 1824) hrest
  have hhd' : (transfer flowEntryItems hd).length = 40 := (length_transfer _ hd).trans hhd
  have hms' : (eachSlice 40 matchX (hd.rd 1).toNat ms).length = 320 :=
    (length_eachSlice length_matchX _ ms).trans hms
  rw [rd_append_left (by omega)] at hmatch hins hslices ⊢
  rw [pofNtoHTransferFlowEntry, transferFlowEntry_append _ hhd hms hmatch, ← List.append_assoc,
    List.drop_left' (by rw [List.length_append]; omega),
    allSlices_eachSlice length_instructionNtoH (by omega)] at hslices
  rw [← List.append_assoc, List.drop_left' (by rw [List.length_append]; omega)]
  exact hslices

theorem groupItems_ok : ItemsOk groupItems 16 := by decide

/-- A group comes back when each of its actions does. -/
theorem pofNtoHTransferGroup_of_actions {b : Buf} (hb : b.length = 208)
    (hok : AllSlices 48 (fun s => action (action s) = s) maxActionNumberPerGroup (b.drop 16)) :
    pofNtoHTransferGroup (pofNtoHTransferGroup b) = b := by
  have hcap : maxActionNumberPerGroup = 4 := rfl
  obtain ⟨hd, as, rfl, hhd, has⟩ := exists_head_data (n := 16) (m := 192) hb
  have hhd' : (transfer groupItems hd).length = 16 := (length_transfer _ hd).trans hhd
  have heq : ∀ hd as : Buf, hd.length = 16 → pofNtoHTransferGroup (hd ++ as) =
      transfer groupItems hd ++ eachSlice 48 action maxActionNumberPerGroup as := by
    intro hd as hhd
    rw [pofNtoHTransferGroup, transfer_append groupItems_ok hhd.ge _ (by decide),
      onData_append _ ((length_transfer _ hd).trans hhd)]
  rw [List.drop_left' hhd] at hok
  rw [heq hd as hhd, heq _ _ hhd', transfer_transfer groupItems_ok hhd.ge,
    eachSlice_eachSlice length_action (fun _ _ hs => hs) (by omega) hok]

/-- A group comes back, whichever order each of its actions is in. -/
theorem pofNtoHTransferGroup_twice {b : Buf} (hb : b.length = 208)
    (hok : AllSlices 48 (fun s => HostLen s ∨ HostLen (transfer headItems s)) maxActionNumberPerGroup
      (b.drop 16)) :
    pofNtoHTransferGroup (pofNtoHTransferGroup b) = b := by
  refine pofNtoHTransferGroup_of_actions hb fun i hi => action_action ?_ (hok i hi)
  have hcap : maxActionNumberPerGroup = 4 := rfl
  rw [List.length_take, List.length_drop, List.length_drop, hb]
  omega

/-- **The conversions of flow entries undo each other on well-formed entries, byte for byte; those of
groups, tables, meters and counters undo themselves.** -/
theorem transfer_round_trip :
    (∀ b : Buf, b.length = 2184 → FlowEntryOk b →
      pofNtoHTransferFlowEntry (pofHtoNTransferFlowEntry b) = b) ∧
    (∀ b : Buf, b.length = 2184 → FlowEntryOk (pofNtoHTransferFlowEntry b) →
      pofHtoNTransferFlowEntry (pofNtoHTransferFlowEntry b) = b) ∧
    (∀ b : Buf, b.length = 208 →
      AllSlices 48 (fun s => HostLen s ∨ HostLen (transfer headItems s)) maxActionNumberPerGroup
        (b.drop 16) → pofNtoHTransferGroup (pofNtoHTransferGroup b) = b) ∧
    (∀ b : Buf, b.length = 144 → pofNtoHTransferFlowTable (pofNtoHTransferFlowTable b) = b) ∧
    (∀ b : Buf, b.length = 16 → pofNtoHTransferMeter (pofNtoHTransferMeter b) = b) ∧
    ∀ b : Buf, b.length = 24 → pofNtoHTransferCounter (pofNtoHTransferCounter b) = b := by
  refine ⟨fun _ => pofNtoH_pofHtoN_flowEntry, fun _ => pofHtoN_pofNtoH_flowEntry,
    fun _ => pofNtoHTransferGroup_twice, fun b hb => ?_, fun b hb => ?_, fun b hb => ?_⟩
  · exact transfer_transfer (n := 144) (by decide) hb.ge
  · exact transfer_transfer (n := 16) (by decide) hb.ge
  · exact transfer_transfer (n := 24) (by decide) hb.ge

/-- A flow entry in host order with one instruction, `APPLY_ACTIONS` with one `OUTPUT`. -/
def outputFlowEntry : Buf :=
  [0, 1, 1, 0, 5, 0, 0, 0] ++ Buf.zeros 352 ++ [4, 0, 64, 0, 0, 0, 0, 0, 1, 0, 0, 0, 0, 0, 0, 0] ++
    [0, 0, 20, 0, 0, 0, 0, 0, 0, 0, 0, 0, 2, 0, 0, 0] ++ Buf.zeros 1792

theorem length_outputFlowEntry : outputFlowEntry.length = 2184 := by simp [outputFlowEntry]

theorem flowEntryOk_outputFlowEntry : FlowEntryOk outputFlowEntry := by
  refine ⟨by decide, by decide, fun i hi => ?_⟩
  obtain rfl : i = 0 := by
    have hcount : (outputFlowEntry.rd 2).toNat = 1 := by decide
    omega
  exact ⟨.applyActions, by decide, fun _ => by decide⟩

/-- It comes back, and so does its form in network order. -/
theorem transfer_round_trip_output :
    pofNtoHTransferFlowEntry (pofHtoNTransferFlowEntry outputFlowEntry) = outputFlowEntry ∧
      pofHtoNTransferFlowEntry (pofNtoHTransferFlowEntry (pofHtoNTransferFlowEntry outputFlowEntry)) =
        pofHtoNTransferFlowEntry outputFlowEntry := by
  obtain ⟨hto, hback, _⟩ := transfer_round_trip
  have hnet := hto _ length_outputFlowEntry flowEntryOk_outputFlowEntry
  have hlen : (pofHtoNTransferFlowEntry outputFlowEntry).length = 2184 :=
    (length_transferFlowEntry length_instructionHtoN _).trans length_outputFlowEntry
  exact ⟨hnet, hback _ hlen (by rw [hnet]; exact flowEntryOk_outputFlowEntry)⟩

end PofSwitch
