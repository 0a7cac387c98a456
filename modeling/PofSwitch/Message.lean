/-
**Messages of the controller as bytes, and their conversion in place.**

Every message starts with a `pof_header` of eight bytes.  `pof_parse_msg_from_controller` converts
the message in the receive buffer: first the header, then the structure behind it that the type of
the message calls for.  The routines work from a pointer and know nothing of the length of the
message: a message that is shorter than its structure has bytes behind it converted too.

Main definitions:

* `PofSwitch.Header.version`, `Header.type`, `Header.length` — the header at the front of some bytes;
* `PofSwitch.IsMessage` — a message whose header gives its length;
* `PofSwitch.MsgType`, `PofSwitch.bodyTransfer`, `PofSwitch.parseTransfer` — the conversions of
  `pof_parse_msg_from_controller`;
* `PofSwitch.SelfContained` — a message whose conversion stays inside it.

Main results:

* `PofSwitch.IsMessage.split` — the header of a message separates it from what follows;
* `PofSwitch.parseTransfer_append`, `PofSwitch.selfContained_of_extent` — **the conversion of a
  message stays inside it when the message is as long as the structure of its type is used.**
-/

import PofSwitch.ByteTransfer

set_option relaxedAutoImplicit false
set_option autoImplicit false

namespace PofSwitch

open Buf

/-! ### Headers -/

/-- `sizeof(pof_header)`. -/
def headerSize : ℕ := 8

/-- `POF_VERSION`. -/
def pofVersion : UInt8 := 4

namespace Header

/-- The version in the header that the bytes start with. -/
def version (b : Buf) : UInt8 := b.rd 0

/-- The type in the header that the bytes start with. -/
def type (b : Buf) : UInt8 := b.rd 1

/-- `POF_NTOHS` of the length in the header that the bytes start with. -/
def length (b : Buf) : ℕ := (b.rd 2).toNat * 256 + (b.rd 3).toNat

variable {b : Buf}

theorem version_append (h : headerSize ≤ b.length) (c : Buf) : version (b ++ c) = version b :=
  rd_append_left (by simp only [headerSize] at h; omega)

theorem type_append (h : headerSize ≤ b.length) (c : Buf) : type (b ++ c) = type b :=
  rd_append_left (by simp only [headerSize] at h; omega)

theorem length_append (h : 4 ≤ b.length) (c : Buf) : length (b ++ c) = length b := by
  rw [length, length, rd_append_left (by omega), rd_append_left (by omega)]

end Header

/-- A message: it has a header, and the header gives its length. -/
structure IsMessage (m : Buf) : Prop where
  headerSize_le : headerSize ≤ m.length
  length_eq : Header.length m = m.length

/-- The header of a message does not depend on what follows the message. -/
theorem IsMessage.length_append {m : Buf} (h : IsMessage m) (c : Buf) :
    Header.length (m ++ c) = m.length := by
  rw [Header.length_append (Nat.le_trans (by decide) h.headerSize_le), h.length_eq]

/-- The first message of some bytes is found by its header. -/
theorem IsMessage.split {m rest b : Buf} (h : IsMessage m) (hb : b = m ++ rest) :
    m = b.take (Header.length b) ∧ rest = b.drop (Header.length b) := by
  subst hb
  rw [h.length_append]
  exact ⟨(List.take_left' rfl).symm, (List.drop_left' rfl).symm⟩

/-! ### Types and conversions -/

/-- The `POFT_*` types that the switch receives. -/
inductive MsgType
  | hello | echoRequest | echoReply | featuresRequest | getConfigRequest | setConfig | packetOut
  | flowMod | groupMod | portMod | tableMod | meterMod | counterMod | counterRequest
  | queryallRequest
deriving DecidableEq, Repr

namespace MsgType

/-- The number of a type. -/
def code : MsgType → UInt8
  | hello => 0
  | echoRequest => 2
  | echoReply => 3
  | featuresRequest => 5
  | getConfigRequest => 7
  | setConfig => 9
  | packetOut => 14
  | flowMod => 15
  | groupMod => 16
  | portMod => 17
  | tableMod => 18
  | meterMod => 30
  | counterMod => 31
  | counterRequest => 32
  | queryallRequest => 34

/-- The type with a number. -/
def ofCode (n : UInt8) : Option MsgType :=
  match n.toNat with
  | 0 => some hello
  | 2 => some echoRequest
  | 3 => some echoReply
  | 5 => some featuresRequest
  | 7 => some getConfigRequest
  | 9 => some setConfig
  | 14 => some packetOut
  | 15 => some flowMod
  | 16 => some groupMod
  | 17 => some portMod
  | 18 => some tableMod
  | 30 => some meterMod
  | 31 => some counterMod
  | 32 => some counterRequest
  | 34 => some queryallRequest
  | _ => none

@[simp] theorem ofCode_code (t : MsgType) : ofCode t.code = some t := by
  cases t <;> rfl

end MsgType

/-- `pof_NtoH_transfer_header`: `length` and `xid`. -/
def pofNtoHTransferHeader : Buf → Buf := transfer [.half 2, .word 4]

/-- `pof_HtoN_transfer_switch_config`: `dev_id`, `flags`, `miss_send_len`. -/
def pofHtoNTransferSwitchConfig : Buf → Buf := transfer [.word 0, .half 4, .half 6]

/-- `pof_NtoH_transfer_port`. -/
def pofNtoHTransferPort : Buf → Buf :=
  transfer [.half 0, .half 2, .word 4, .word 80, .word 84, .word 88, .word 92, .word 96, .word 100,
    .word 104, .word 108]

/-- `pof_HtoN_transfer_queryall_request`: `slotID`. -/
def pofHtoNTransferQueryallRequest : Buf → Buf := transfer [.half 0]

/-- `pof_NtoH_transfer_packet_out`: `bufferId`, `inPort`, `packetLen`, and the first `actionNum`
actions. -/
def pofNtoHTransferPacketOut (b : Buf) : Buf :=
  let b := transfer [.word 0, .word 4, .word 12] b
  onData 16 (eachSlice 48 action (b.rd 8).toNat) b

/-- The conversion a case of `pof_parse_msg_from_controller` makes behind the header.  The port of a
`POFT_PORT_MOD` stands behind the first eight bytes of a `pof_port_status`. -/
def bodyTransfer : MsgType → Buf → Buf
  | .setConfig => pofHtoNTransferSwitchConfig
  | .packetOut => pofNtoHTransferPacketOut
  | .flowMod => pofNtoHTransferFlowEntry
  | .groupMod => pofNtoHTransferGroup
  | .portMod => onData 8 pofNtoHTransferPort
  | .tableMod => pofNtoHTransferFlowTable
  | .meterMod => pofNtoHTransferMeter
  | .counterMod | .counterRequest => pofNtoHTransferCounter
  | .queryallRequest => pofHtoNTransferQueryallRequest
  | .hello | .echoRequest | .echoReply | .featuresRequest | .getConfigRequest => id

/-- What `pof_parse_msg_from_controller` does to the bytes its pointer points to.  The conversion of
the header leaves the type alone. -/
def parseTransfer (b : Buf) : Buf :=
  match MsgType.ofCode (Header.type b) with
  | some t => onData headerSize (bodyTransfer t) (pofNtoHTransferHeader b)
  | none => pofNtoHTransferHeader b

/-- A flow entry before its instructions are converted: its matches have been, all of those it says it has. -/
def flowMatches (b : Buf) : Buf :=
  let b := transfer flowEntryItems b
  onData 40 (eachSlice 40 matchX (b.rd 1).toNat) b

/-- No `APPLY_ACTIONS` instruction of a flow entry, whose matches have been converted, says that it has more
actions than its array holds. -/
def FlowCountsFit (b : Buf) : Prop :=
  ∀ i < (b.rd 2).toNat,
    InstructionType.ofCode ((b.rd (360 + 304 * i)).toNat * 256 + (b.rd (361 + 304 * i)).toNat) =
        some .applyActions →
      (b.rd (368 + 304 * i)).toNat ≤ maxActionNumberPerInstruction

instance (b : Buf) : Decidable (FlowCountsFit b) :=
  inferInstanceAs (Decidable (∀ i < (b.rd 2).toNat, _ → _))

/-- The action counts of a `POFT_FLOW_MOD` fit.  `instruction_APPLY_ACTIONS` does not look: it would leave
the instruction. -/
def ActionCountsFit (b : Buf) : Prop :=
  Header.type b = MsgType.flowMod.code → FlowCountsFit (flowMatches (b.drop headerSize))

instance (b : Buf) : Decidable (ActionCountsFit b) :=
  inferInstanceAs (Decidable (_ → FlowCountsFit _))

/-- What `pofsc_run_process` does to the bytes its pointer points to: an echo reply is not parsed. -/
def runTransfer (b : Buf) : Buf :=
  if Header.type b = MsgType.echoReply.code then b else parseTransfer b

theorem length_bodyTransfer (t : MsgType) (b : Buf) : (bodyTransfer t b).length = b.length := by
  cases t with
  | packetOut =>
      exact (length_onData (length_eachSlice length_action _) _).trans (length_transfer _ b)
  | flowMod => exact length_transferFlowEntry length_instructionNtoH b
  | groupMod =>
      exact (length_onData (length_eachSlice length_action _) _).trans (length_transfer _ b)
  | portMod => exact length_onData (length_transfer _) b
  | hello | echoRequest | echoReply | featuresRequest | getConfigRequest => rfl
  | setConfig | tableMod | meterMod | counterMod | counterRequest | queryallRequest =>
      exact length_transfer _ b

@[simp] theorem length_parseTransfer (b : Buf) : (parseTransfer b).length = b.length := by
  unfold parseTransfer
  split
  · exact (length_onData (length_bodyTransfer _) _).trans (length_transfer _ b)
  · exact length_transfer _ b

@[simp] theorem length_runTransfer (b : Buf) : (runTransfer b).length = b.length := by
  unfold runTransfer
  split
  · rfl
  · exact length_parseTransfer b

/-! ### Conversions that stay inside the message -/

/-- The bytes of the structure behind the header that a conversion may touch: the whole structure, or
its arrays as far as they are used. -/
def bodyExtent : MsgType → Buf → ℕ
  | .setConfig, _ => 8
  | .packetOut, b => 16 + (b.rd 8).toNat * 48
  | .flowMod, b =>
      max (40 + (b.rd 1).toNat * 40) (if (b.rd 2).toNat = 0 then 0 else 360 + (b.rd 2).toNat * 304)
  | .groupMod, _ => 16 + maxActionNumberPerGroup * 48
  | .portMod, _ => 8 + 112
  | .tableMod, _ => 144
  | .meterMod, _ => 12
  | .counterMod, _ | .counterRequest, _ => 24
  | .queryallRequest, _ => 2
  | .hello, _ | .echoRequest, _ | .echoReply, _ | .featuresRequest, _ | .getConfigRequest, _ => 0

/-- The bytes from its pointer on that `pof_parse_msg_from_controller` may convert. -/
def parseExtent (b : Buf) : ℕ :=
  match MsgType.ofCode (Header.type b) with
  | some t => headerSize + bodyExtent t (b.drop headerSize)
  | none => headerSize

/-- The bytes that `pofsc_run_process` may convert. -/
def runExtent (b : Buf) : ℕ := if Header.type b = MsgType.echoReply.code then 0 else parseExtent b

theorem onData_append_right {n : ℕ} {f : Buf → Buf} {b c : Buf} (h : n ≤ b.length)
    (hf : f (b.drop n ++ c) = f (b.drop n) ++ c) : onData n f (b ++ c) = onData n f b ++ c := by
  rw [onData, onData, List.take_append_of_le_length h, List.drop_append_of_le_length h, hf,
    List.append_assoc]

/-- A run of slices behind a header of `n` bytes. -/
theorem onData_eachSlice_append {n size k : ℕ} {f : Buf → Buf} {b c : Buf}
    (h : n + k * size ≤ b.length) :
    onData n (eachSlice size f k) (b ++ c) = onData n (eachSlice size f k) b ++ c :=
  onData_append_right (by omega) (eachSlice_append (by rw [List.length_drop]; omega))

theorem transferFlowEntry_append_right {f : Buf → Buf} {b c : Buf}
    (h : bodyExtent .flowMod b ≤ b.length) :
    transferFlowEntry f (b ++ c) = transferFlowEntry f b ++ c := by
  simp only [bodyExtent, max_le_iff] at h
  obtain ⟨hmatch, hins⟩ := h
  have hlen : (transfer flowEntryItems b).length = b.length := length_transfer _ b
  have hrd : ∀ i, i < 40 → (∀ x ∈ flowEntryItems, i < x.extent.1 ∨ x.extent.1 + x.extent.2 ≤ i) →
      (transfer flowEntryItems b).rd i = b.rd i :=
    fun i hi hcount => rd_transfer flowEntryItems_ok (by omega) hcount
  have hmlen : ∀ k, (onData 40 (eachSlice 40 matchX k) (transfer flowEntryItems b)).length =
      b.length := fun k => (length_onData (length_eachSlice length_matchX k) _).trans hlen
  have hnum : ∀ k, (onData 40 (eachSlice 40 matchX k) (transfer flowEntryItems b)).rd 2 = b.rd 2 := by
    intro k
    rw [rd_onData _ (by omega) (by omega), hrd 2 (by omega) (by decide)]
  simp only [transferFlowEntry]
  rw [transfer_append flowEntryItems_ok (by omega) _ (by decide), rd_append_left (by omega),
    hrd 1 (by omega) (by decide), onData_eachSlice_append (by omega),
    rd_append_left (by rw [hmlen]; omega), hnum]
  by_cases hzero : (b.rd 2).toNat = 0
  · rw [hzero]
    simp only [eachSlice, onData, List.take_append_drop]
  · rw [if_neg hzero] at hins
    exact onData_eachSlice_append (by rw [hmlen]; omega)

/-- The conversion of a structure that is there as far as it is used does not depend on what
follows. -/
theorem bodyTransfer_append {t : MsgType} {b : Buf} (h : bodyExtent t b ≤ b.length) (c : Buf) :
    bodyTransfer t (b ++ c) = bodyTransfer t b ++ c := by
  cases t with
  | hello | echoRequest | echoReply | featuresRequest | getConfigRequest => rfl
  | setConfig => exact transfer_append (n := 8) (by decide) h c (by decide)
  | packetOut =>
      simp only [bodyExtent] at h
      simp only [bodyTransfer, pofNtoHTransferPacketOut]
      have hrd : (transfer [.word 0, .word 4, .word 12] b).rd 8 = b.rd 8 :=
        rd_transfer (n := 16) (by decide) (by omega) (by decide)
      rw [transfer_append (n := 16) (by decide) (by omega) c (by decide),
        rd_append_left (by rw [length_transfer]; omega), hrd]
      exact onData_eachSlice_append (by rw [length_transfer]; omega)
  | flowMod => exact transferFlowEntry_append_right h
  | groupMod =>
      simp only [bodyExtent] at h
      simp only [bodyTransfer, pofNtoHTransferGroup]
      rw [transfer_append groupItems_ok (by omega) c (by decide)]
      exact onData_eachSlice_append (by rw [length_transfer]; omega)
  | portMod =>
      simp only [bodyExtent] at h
      refine onData_append_right (by omega) ?_
      exact transfer_append (n := 112) (by decide) (by rw [List.length_drop]; omega) c (by decide)
  | tableMod => exact transfer_append (n := 144) (by decide) h c (by decide)
  | meterMod => exact transfer_append (n := 12) (by decide) h c (by decide)
  | counterMod | counterRequest => exact transfer_append (n := 24) (by decide) h c (by decide)
  | queryallRequest => exact transfer_append (n := 2) (by decide) h c (by decide)

/-- **The conversion of a message stays inside it when the message is as long as the structure of its
type is used.** -/
theorem parseTransfer_append {m : Buf} (hm : headerSize ≤ m.length)
    (h : ∀ t, MsgType.ofCode (Header.type m) = some t →
      headerSize + bodyExtent t (m.drop headerSize) ≤ m.length) (c : Buf) :
    parseTransfer (m ++ c) = parseTransfer m ++ c := by
  have hhead : pofNtoHTransferHeader (m ++ c) = pofNtoHTransferHeader m ++ c :=
    transfer_append (n := 8) (by decide) hm c (by decide)
  have hdrop : (pofNtoHTransferHeader m).drop headerSize = m.drop headerSize := by
    have hsplit : pofNtoHTransferHeader (m.take headerSize ++ m.drop headerSize) =
        pofNtoHTransferHeader (m.take headerSize) ++ m.drop headerSize :=
      transfer_append (n := 8) (by decide)
        (by rw [List.length_take]; simp only [headerSize] at hm ⊢; omega) _ (by decide)
    rw [List.take_append_drop] at hsplit
    rw [hsplit]
    exact List.drop_left' (by
      rw [pofNtoHTransferHeader, length_transfer, List.length_take]
      omega)
  unfold parseTransfer
  rw [Header.type_append hm]
  cases ht : MsgType.ofCode (Header.type m) with
  | none => exact hhead
  | some t =>
      simp only
      have hext := h t ht
      rw [hhead]
      refine onData_append_right ?_ ?_
      · rw [pofNtoHTransferHeader, length_transfer]
        exact hm
      · rw [hdrop]
        refine bodyTransfer_append ?_ c
        rw [List.length_drop]
        omega

/-- A message whose handling in the receive buffer does not touch the bytes behind it. -/
def SelfContained (m : Buf) : Prop := ∀ c, runTransfer (m ++ c) = runTransfer m ++ c

theorem selfContained_of_extent {m : Buf} (hm : headerSize ≤ m.length)
    (h : ∀ t, MsgType.ofCode (Header.type m) = some t →
      headerSize + bodyExtent t (m.drop headerSize) ≤ m.length) : SelfContained m := by
  intro c
  unfold runTransfer
  rw [Header.type_append hm]
  split
  · rfl
  · exact parseTransfer_append hm h c

/-- A message of which no byte behind it may be converted. -/
theorem selfContained_of_parseExtent {m : Buf} (hm : headerSize ≤ m.length) (h : parseExtent m ≤ m.length) :
    SelfContained m := by
  refine selfContained_of_extent hm fun t ht => ?_
  rw [parseExtent, ht] at h
  exact h

end PofSwitch
