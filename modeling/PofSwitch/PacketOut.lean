/-
**Packets from the controller: case `POFT_PACKET_OUT` of `pof_parse_msg_from_controller`.**

The message carries a packet and a list of actions, which the switch executes as an `APPLY_ACTIONS`
instruction would execute them on a packet it has received.  Both paths end in
`pofdp_action_execute`, and each builds the record of the packet on its own.  A received packet has
128 bytes of head room, metadata that `init_packet_metadata` has filled, and the local resource of
its slot; for a packet of the controller the buffer begins with the packet, `dpp->metadata` is
`NULL`, `dpp->metadata_len` is zero, and the variable `lr` handed on has not been set.

So the actions that read the metadata or the local resource go different ways, and the others do the
same.  Two executions are compared turn by turn: their records differ in the buffer, where the window
of the received packet is the beginning of the other one, and in the metadata.

Main definitions:

* `PofSwitch.PofPacketOut`, `PofSwitch.packetOutPacket`, `PofSwitch.packetOutWork`,
  `PofSwitch.packetOutExecute`, `PofSwitch.pofParsePacketOut`;
* `PofSwitch.receivedOn` — the packet as if it were received on the port;
* `PofSwitch.Served` — the action does not need what has not been set;
* `PofSwitch.SameEffect` — the message has the effect of the instruction;
* `PofSwitch.SamePacket` — the records of the two executions.

Main results:

* `PofSwitch.agree_packetOutWork` — an action that is served does the same in both executions;
* `PofSwitch.agree_packetOutExecute` — so do the loops when every action that has its turn is served;
* `PofSwitch.packet_out_same_effect` — **then the message has the effect of the instruction.**
-/

import PofSwitch.Checksum
import PofSwitch.GroupChain
import PofSwitch.TagFields

set_option relaxedAutoImplicit false
set_option autoImplicit false

namespace PofSwitch

open Buf Prog

/-! ### The message and its handling -/

/-- `pof_packet_out` in host order, the fields used here. -/
structure PofPacketOut where
  inPort : UInt32
  actionNum : UInt8
  packetLen : UInt32
  actionList : List PofAction
  data : Buf

/-- The packet of the message. -/
def PofPacketOut.packet (m : PofPacketOut) : Buf := m.data.bytesAt 0 m.packetLen.toNat

/-- The record that the case fills.  The buffer begins with the packet, and the metadata, which is
`NULL`, is the empty buffer. -/
def packetOutPacket (m : PofPacketOut) : DpPacket where
  oriPortId := m.inPort
  oriLen := m.packetLen
  buf := (Buf.zeros packetRawMaxLen).paste 0 m.packet
  outputPortId := 0
  outputSlotId := 0
  outputPacketLen := 0
  outputPacketOffset := 0
  outputMetadataLen := 0
  outputMetadataOffset := 0
  outputWholeLen := 0
  bufOut := Buf.zeros packetRawMaxLen
  outputPacketBuf := 0
  offset := 0
  bufOffset := 0
  leftLen := toInt32 m.packetLen.toNat
  metadata := []
  metadataLen := 0
  tableType := 0
  tableId := 0
  flowEntry := none
  ins := ⟨none, 0⟩
  insTodoNum := 0
  insDoneNum := 0
  act := m.actionList
  actNum := m.actionNum
  packetDone := false
  rate := 0

/-- `pofdp_get_32value` finds no buffer for a field of the metadata; a length of more than 32 bits is
refused before. -/
def noMetadataValue (type : UInt8) (pm : PofMatch) : Dp Unit :=
  failIf (type ≠ 0 ∧ pm.len ≤ 32 ∧ pm.fieldId = metadataFieldId) .softwareFailed .pofError

/-- `execute_OUTPUT` without metadata: its checks up to the port, and then as it is. -/
def packetOutOutput (env : DpEnv) (data : Buf) : Dp Unit := do
  let s ← get
  failIf (((half data 6).toNat : ℤ) > s.dpp.leftLen) .softwareFailed .pofPacketLenError
  failIf (bytenumCeil ((half data 4).toNat + (half data 2).toNat) > s.dpp.metadataLen.toNat)
    .softwareFailed .pofMetadataLenError
  noMetadataValue (data.rd 0) (matchAt data 8)
  outputAction env data

/-- The work of an action when `dpp->metadata` is `NULL` and `lr` has not been set. -/
def packetOutWork (env : DpEnv) (data : Buf) : ActionType → Dp Unit
  | .output => packetOutOutput env data
  | .setField => setFieldAction data
  | .setFieldFromMetadata => do
      setFieldFromMetadataAction data
      -- `pofbf_copy_bit` has returned at once, and the bytes stored have never been set
      throw .undefined
  | .modifyField => do
      -- `POFVT_FIELD`
      noMetadataValue 1 (matchAt data 0)
      modifyFieldAction data
  | .addField => do
      addFieldAction data
      -- the length in the metadata is the last thing updated
      throw .undefined
  | .deleteField => do
      noMetadataValue (data.rd 2) (matchAt data 8)
      deleteFieldAction data
      throw .undefined
  | .calculateChecksum => do
      failIf (half data 4 > 64) .badAction .pofbacBadLen
      -- a sum over `NULL` reads zeros, but nothing can be stored there
      check (data.rd 0 ≠ 0) .undefined
      calculateChecksumAction data
  | .drop => dropAction
  -- the counter with identifier `0` is left before `lr` is looked at
  | .counter => check (word data 0 ≠ 0) .undefined
  | .packetIn | .group => throw .undefined
  | .experimenter => fail .badAction .pofbacBadType

/-- The `switch` of `pofdp_action_execute`. -/
def packetOutAction (env : DpEnv) (action : PofAction) : Dp Unit :=
  match ActionType.ofCode action.type.toNat with
  | none => fail .badAction .pofbacBadType
  | some type => do
      packetOutWork env action.actionData type
      actionUpdate

/-- One turn of the loop. -/
def packetOutStep (env : DpEnv) : Dp Unit := do
  let s ← get
  let action ← liftOption s.dpp.act.head? .undefined
  logged (packetOutAction env action)

/-- The loop of `pofdp_action_execute`. -/
def packetOutExecute (env : DpEnv) : ℕ → Dp Unit
  | 0 => throw .fuel
  | fuel + 1 => do
      let s ← get
      if s.dpp.packetDone = false ∧ s.dpp.actNum > 0 then do
        packetOutStep env
        packetOutExecute env fuel
      else pure ()

/-- Case `POFT_PACKET_OUT`, in a switch with the slot `lr`.  Every turn of the loop takes one from
`act_num`. -/
def pofParsePacketOut (env : DpEnv) (m : PofPacketOut) (lr : LocalResource) : Except Halt Unit × DpState :=
  exec (packetOutExecute env (m.actionNum.toNat + 1)) ⟨packetOutPacket m, lr, []⟩

/-! ### What the actions leave alone -/

theorem lr_packetOutWork (env : DpEnv) (data : Buf) (type : ActionType) :
    Frame DpState.lr (packetOutWork env data type) := by
  have hwork : ∀ type : ActionType, type ≠ .counter → Frame DpState.lr (actionWork env data type) :=
    fun _ => lr_actionWork env data
  cases type with
  | output =>
      exact Frame.get_bind fun _ => (frame_failIf _ _ _).bind fun _ => (frame_failIf _ _ _).bind fun _ =>
        (frame_failIf _ _ _).bind fun _ => hwork .output (by decide)
  | setField => exact hwork .setField (by decide)
  | setFieldFromMetadata => exact (hwork .setFieldFromMetadata (by decide)).bind fun _ => Frame.throw _
  | modifyField => exact (frame_failIf _ _ _).bind fun _ => hwork .modifyField (by decide)
  | addField => exact (hwork .addField (by decide)).bind fun _ => Frame.throw _
  | deleteField =>
      exact (frame_failIf _ _ _).bind fun _ => (hwork .deleteField (by decide)).bind fun _ => Frame.throw _
  | calculateChecksum =>
      exact (frame_failIf _ _ _).bind fun _ => (Frame.check _ _).bind fun _ =>
        hwork .calculateChecksum (by decide)
  | drop => exact hwork .drop (by decide)
  | counter => exact Frame.check _ _
  | packetIn | group | experimenter => exact Frame.throw _

theorem lr_packetOutStep (env : DpEnv) : Frame DpState.lr (packetOutStep env) := by
  refine Frame.get_bind fun _ => (Frame.liftOption _ _).bind fun action => Frame.onError ?_ fun e s => ?_
  · unfold packetOutAction
    split
    · exact Frame.throw _
    · exact (lr_packetOutWork env _ _).bind fun _ => Frame.lr_of_held held_actionUpdate
  · cases e <;> rfl

theorem lr_packetOutExecute (env : DpEnv) (fuel : ℕ) : Frame DpState.lr (packetOutExecute env fuel) := by
  induction fuel with
  | zero => exact Frame.throw _
  | succ fuel ih =>
      refine Frame.get_bind fun s => ?_
      split
      · exact (lr_packetOutStep env).bind fun _ => ih
      · exact Frame.pure _

/-- **The message leaves the slot alone.** -/
theorem lr_pofParsePacketOut (env : DpEnv) (m : PofPacketOut) (lr : LocalResource) :
    (pofParsePacketOut env m lr).2.lr = lr :=
  lr_packetOutExecute env _ _

/-! ### The instruction it stands for -/

/-- The packet received on a port, with fresh metadata; `init_packet_metadata` cuts the port to eight
bits. -/
def receivedOn (port : UInt32) (packet : Buf) (lr : LocalResource) : DpState where
  dpp := { receivedPacket port.toUInt8 packet with oriPortId := port }
  lr := lr
  trace := []

/-- The body of the instruction holds the list of the message. -/
def PofPacketOut.SameList (m : PofPacketOut) (data : Buf) : Prop :=
  m.actionList = applyActionsList data ∧ m.actionNum = data.rd 0

/-- The message and the instruction have one observable effect: what is returned, the frames and
messages sent, and the local resource with its counters. -/
def SameEffect (env : DpEnv) (m : PofPacketOut) (data : Buf) (lr : LocalResource) : Prop :=
  ∃ fuel r t, exec (executeApplyActions (pofdpActionExecute env fuel) data)
      (receivedOn m.inPort m.packet lr) = (r, t) ∧
    r ≠ .error .fuel ∧ (pofParsePacketOut env m lr).1 = r ∧
    (pofParsePacketOut env m lr).2.trace = t.trace ∧ (pofParsePacketOut env m lr).2.lr = t.lr

/-- The field is not in the metadata, or asking for it fails alike. -/
def FieldServed (pm : PofMatch) : Prop :=
  pm.fieldId ≠ metadataFieldId ∨ pm.len > 32 ∨ pm.len.toNat + pm.offset.toNat > 8 * metadataMaxLen

/-- The bytes of the buffer of a received packet behind the head room. -/
def windowBytes : ℕ := packetRawMaxLen - packetPrebufLen

/-- The words of a checksum, if there are any, are in the packet and in the buffer of a received one. -/
def SumServed (data : Buf) : Prop :=
  (half data 8).toNat < (half data 4).toNat ∨
    data.rd 1 = 0 ∧ (half data 6).toNat + (half data 8).toNat ≤ 8 * windowBytes

/-- One of the two stores of an `ADD_FIELD` does not return, and what is stored before is inside `buf`. -/
structure AddHangs (data : Buf) (s : DpState) : Prop where
  copied : (behindAdded data s).toNat ≤ 8 * packetRawMaxLen
  tag : s.dpp.bufOffset + lastStored (half data 2) (word data 4).toUInt16 < packetRawMaxLen
  hangs : Straddles (half data 2) (word data 4).toUInt16 ∨
    s.dpp.bufOffset + lastStored ((half data 2).toUInt32 + word data 4).toUInt16 (behindAdded data s) <
        packetRawMaxLen ∧
      Straddles ((half data 2).toUInt32 + word data 4).toUInt16 (behindAdded data s)

/-- The action does not need the metadata or the local resource: it does not use them, or it fails or loops
before. -/
def Served (s : DpState) (action : PofAction) : Prop :=
  let data := action.actionData
  match ActionType.ofCode action.type.toNat with
  | some .output =>
      s.dpp.leftLen < (half data 6).toNat ∨
        bytenumCeil ((half data 4).toNat + (half data 2).toNat) > metadataMaxLen ∨
        half data 4 = 0 ∧ half data 2 = 0 ∧ (data.rd 0 = 0 ∨ FieldServed (matchAt data 8))
  | some .modifyField => FieldServed (matchAt data 0)
  | some .calculateChecksum =>
      half data 4 > 64 ∨ data.rd 0 = 0 ∧
        (half data 2).toNat + (half data 4).toNat ≤ 8 * windowBytes ∧ SumServed data
  | some .setFieldFromMetadata =>
      s.dpp.leftLen * 8 < ((matchAt data 0).offset.toNat + (matchAt data 0).len.toNat : ℤ) ∨
        Straddles (matchAt data 0).offset (matchAt data 0).len
  | some .addField =>
      word data 4 > 128 ∨
        toUInt32 (s.dpp.offset + s.dpp.leftLen) + (word data 4 + 7) / 8 > UInt32.ofNat packetRawMaxLen ∨
        AddHangs data s
  | some .deleteField =>
      (data.rd 2 = 0 ∨ FieldServed (matchAt data 8)) ∧ ∀ len ∈ deletedBits data s,
        behindDeleted data len s ≥ 0x8000 ∨ Straddles (half data 0) (behindDeleted data len s)
  | some .counter => word data 0 = 0
  | some .packetIn | some .group => False
  | some .setField | some .drop | some .experimenter | none => True

/-! ### The two records -/

/-- What the records have in common. -/
structure Shared where
  oriPortId : UInt32
  outputPortId : UInt16
  outputSlotId : UInt16
  outputPacketLen : UInt16
  outputPacketOffset : UInt16
  outputMetadataLen : UInt16
  outputMetadataOffset : UInt16
  outputWholeLen : UInt16
  bufOut : Buf
  offset : ℤ
  leftLen : ℤ
  act : List PofAction
  actNum : UInt8
  packetDone : Bool
  trace : List DpEvent
  lr : LocalResource

/-- The common part of a state. -/
def DpState.shared (s : DpState) : Shared where
  oriPortId := s.dpp.oriPortId
  outputPortId := s.dpp.outputPortId
  outputSlotId := s.dpp.outputSlotId
  outputPacketLen := s.dpp.outputPacketLen
  outputPacketOffset := s.dpp.outputPacketOffset
  outputMetadataLen := s.dpp.outputMetadataLen
  outputMetadataOffset := s.dpp.outputMetadataOffset
  outputWholeLen := s.dpp.outputWholeLen
  bufOut := s.dpp.bufOut
  offset := s.dpp.offset
  leftLen := s.dpp.leftLen
  act := s.dpp.act
  actNum := s.dpp.actNum
  packetDone := s.dpp.packetDone
  trace := s.trace
  lr := s.lr

/-- What can be seen from outside. -/
def Seen (s t : DpState) : Prop := s.trace = t.trace ∧ s.lr = t.lr

/-- The packet of the controller in `s` is the received packet in `t`. -/
structure SamePacket (s t : DpState) : Prop where
  shared : s.shared = t.shared
  start : s.dpp.bufOffset = 0
  headRoom : t.dpp.bufOffset = packetPrebufLen
  length : t.dpp.buf.length = packetRawMaxLen
  window : t.dpp.window = s.dpp.window.take windowBytes
  leftLen_le : t.dpp.leftLen ≤ mtuLength
  noMetadata : s.dpp.metadataLen = 0
  metadata : t.dpp.metadataLen = UInt16.ofNat metadataMaxLen

namespace SamePacket

variable {s t : DpState} (h : SamePacket s t)

include h

theorem seen : Seen s t := ⟨congrArg Shared.trace h.shared, congrArg Shared.lr h.shared⟩

theorem leftLen : s.dpp.leftLen = t.dpp.leftLen := congrArg Shared.leftLen h.shared

theorem offset : s.dpp.offset = t.dpp.offset := congrArg Shared.offset h.shared

theorem hasAction : s.HasAction ↔ t.HasAction := by
  have hdone : s.dpp.packetDone = t.dpp.packetDone := congrArg Shared.packetDone h.shared
  have hnum : s.dpp.actNum = t.dpp.actNum := congrArg Shared.actNum h.shared
  rw [DpState.HasAction, DpState.HasAction, hdone, hnum]

/-- A change of the common part. -/
theorem change {s' t' : DpState} (hshared : s'.shared = t'.shared)
    (hs : s'.dpp.bufOffset = s.dpp.bufOffset ∧ s'.dpp.buf = s.dpp.buf ∧
      s'.dpp.metadataLen = s.dpp.metadataLen)
    (ht : t'.dpp.bufOffset = t.dpp.bufOffset ∧ t'.dpp.buf = t.dpp.buf ∧
      t'.dpp.metadataLen = t.dpp.metadataLen) (hleft : t'.dpp.leftLen = t.dpp.leftLen) :
    SamePacket s' t' where
  shared := hshared
  start := hs.1.trans h.start
  headRoom := ht.1.trans h.headRoom
  length := ht.2.1 ▸ h.length
  window := by
    rw [DpPacket.window, DpPacket.window, hs.1, ht.1, hs.2.1, ht.2.1]
    exact h.window
  leftLen_le := hleft ▸ h.leftLen_le
  noMetadata := hs.2.2.trans h.noMetadata
  metadata := ht.2.2.trans h.metadata

/-- One event in both histories. -/
theorem emit (ev : DpEvent) :
    SamePacket { s with trace := s.trace ++ [ev] } { t with trace := t.trace ++ [ev] } :=
  h.change (congrArg (fun u => { u with trace := u.trace ++ [ev] }) h.shared) ⟨rfl, rfl, rfl⟩
    ⟨rfl, rfl, rfl⟩ rfl

/-- A store to both windows. -/
theorem setWindow {w : Buf} (hw : w.length = s.dpp.window.length) :
    SamePacket { s with dpp := s.dpp.setWindow w }
      { t with dpp := t.dpp.setWindow (w.take windowBytes) } where
  shared := h.shared
  start := h.start
  headRoom := h.headRoom
  length := by
    have hlen := congrArg List.length h.window
    rw [List.length_take, ← hw, ← List.length_take, DpPacket.window, List.length_drop, h.length,
      h.headRoom] at hlen
    rw [DpPacket.setWindow, List.length_append, List.length_take, h.length, h.headRoom, ← hlen]
    rfl
  window := by
    have hhead : (t.dpp.buf.take t.dpp.bufOffset.toNat).length = t.dpp.bufOffset.toNat := by
      rw [List.length_take, h.length, h.headRoom]
      rfl
    simp only [DpPacket.window, DpPacket.setWindow, h.start, Int.toNat_zero, List.take_zero,
      List.nil_append, List.drop_zero]
    rw [List.drop_left' hhead]
  leftLen_le := h.leftLen_le
  noMetadata := h.noMetadata
  metadata := h.metadata

end SamePacket

/-! ### Operations on both records -/

section Agree

variable {s t : DpState}

theorem agree_failIf (h : SamePacket s t) {c c' : Prop} [Decidable c] [Decidable c'] (hc : c ↔ c')
    (type : ErrType) (code : ErrCode) :
    Agree (fun s t => SamePacket s t ∧ ¬ c) Seen (exec (failIf c type code) s)
      (exec (failIf c' type code) t) :=
  Agree.check hc (fun _ => h.seen) fun hnot => ⟨h, hnot⟩

theorem agree_coverWindow (h : SamePacket s t) (value : Buf) (pos len : UInt16) :
    Agree SamePacket Seen (exec (coverWindow value pos len) s) (exec (coverWindow value pos len) t) := by
  refine Agree.get_bind (Agree.liftOption_bind ?_ h.seen fun w w' hw hw' => Agree.ok ?_)
  · rw [pofbfCoverBit_eq_none_iff, pofbfCoverBit_eq_none_iff]
  · rw [h.window, pofbfCoverBit_take, hw] at hw'
    cases hw'
    exact h.setWindow (length_pofbfCoverBit hw)

theorem agree_get32valueFromField (h : SamePacket s t) {pm : PofMatch}
    (hpm : pm.len ≤ 32 → pm.fieldId ≠ metadataFieldId) :
    Agree (fun s t => SamePacket s t ∧ ¬ pm.len > 32) Seen (exec (get32valueFromField pm) s)
      (exec (get32valueFromField pm) t) := by
  refine (agree_failIf h Iff.rfl _ _).bind fun _ s t hst => ?_
  obtain ⟨h, hlen⟩ := hst
  have hfield : pm.fieldId ≠ metadataFieldId := hpm (UInt16.not_lt.1 hlen)
  refine Agree.get_bind (Agree.liftOption_bind ?_ h.seen fun w w' hw hw' => ?_)
  · rw [pofdpGetFieldBuf, pofdpGetFieldBuf, if_neg hfield, if_neg hfield, h.leftLen]
    split <;> simp
  · rw [pofdpGetFieldBuf, if_neg hfield] at hw hw'
    split_ifs at hw hw' with hs ht
    cases hw
    cases hw'
    have hmtu := h.leftLen_le
    have hin : pm.offset.toNat + pm.len.toNat ≤ 8 * windowBytes := by
      simp only [mtuLength, windowBytes, packetRawMaxLen, packetPrebufLen] at *
      omega
    rw [h.window, pofdpGet32valueFromBuf, pofdpGet32valueFromBuf, pofbfCopyBit_take _ _ hin]
    exact Agree.ok ⟨h, hlen⟩

theorem agree_pofdpGet32value (h : SamePacket s t) {type : UInt8} {data : Buf} {p : ℕ}
    (hpm : ¬ (type ≠ 0 ∧ (matchAt data p).len ≤ 32 ∧ (matchAt data p).fieldId = metadataFieldId)) :
    Agree SamePacket Seen (exec (pofdpGet32value type data p) s)
      (exec (pofdpGet32value type data p) t) := by
  unfold pofdpGet32value
  split
  · exact Agree.ok h
  · next htype =>
      exact (agree_get32valueFromField h fun hlen hfield => hpm ⟨htype, hlen, hfield⟩).conseq
        (fun _ _ hst => hst.1) fun _ _ => id

theorem exec_actionUpdate_last (h : s.dpp.actNum - 1 < 1) : exec actionUpdate s =
    (.ok (), { s with dpp := { s.dpp with actNum := s.dpp.actNum - 1 } }) := by
  rw [actionUpdate, modifyDpp, exec_modify, if_pos h]

theorem exec_actionUpdate_more (h : ¬ s.dpp.actNum - 1 < 1) : exec actionUpdate s =
    (.ok (), { s with dpp := { s.dpp with actNum := s.dpp.actNum - 1, act := s.dpp.act.tail } }) := by
  rw [actionUpdate, modifyDpp, exec_modify, if_neg h]

theorem agree_actionUpdate (h : SamePacket s t) :
    Agree SamePacket Seen (exec actionUpdate s) (exec actionUpdate t) := by
  have hnum : s.dpp.actNum = t.dpp.actNum := congrArg Shared.actNum h.shared
  by_cases hlast : t.dpp.actNum - 1 < 1
  · rw [exec_actionUpdate_last (hnum.symm ▸ hlast), exec_actionUpdate_last hlast]
    refine Agree.ok (h.change ?_ ⟨rfl, rfl, rfl⟩ ⟨rfl, rfl, rfl⟩ rfl)
    exact congrArg (fun u => { u with actNum := u.actNum - 1 }) h.shared
  · rw [exec_actionUpdate_more (hnum.symm ▸ hlast), exec_actionUpdate_more hlast]
    refine Agree.ok (h.change ?_ ⟨rfl, rfl, rfl⟩ ⟨rfl, rfl, rfl⟩ rfl)
    exact congrArg (fun u => { u with actNum := u.actNum - 1, act := u.act.tail }) h.shared

theorem agree_setFieldAction (h : SamePacket s t) (data : Buf) :
    Agree SamePacket Seen (exec (setFieldAction data) s) (exec (setFieldAction data) t) := by
  refine Agree.get_bind ((agree_failIf h ?_ _ _).bind fun _ s t hst => agree_coverWindow hst.1 _ _ _)
  rw [h.leftLen]

theorem agree_dropAction (h : SamePacket s t) :
    Agree SamePacket Seen (exec dropAction s) (exec dropAction t) := by
  have hdone : SamePacket { s with dpp := { s.dpp with packetDone := true } }
      { t with dpp := { t.dpp with packetDone := true } } :=
    h.change (congrArg (fun u => { u with packetDone := true }) h.shared) ⟨rfl, rfl, rfl⟩
      ⟨rfl, rfl, rfl⟩ rfl
  exact Agree.ok (hdone.emit .dropped)

theorem agree_modifyFieldAction (h : SamePacket s t) {data : Buf}
    (hpm : (matchAt data 0).len ≤ 32 → (matchAt data 0).fieldId ≠ metadataFieldId) :
    Agree SamePacket Seen (exec (modifyFieldAction data) s) (exec (modifyFieldAction data) t) := by
  refine (agree_get32valueFromField h hpm).bind fun value s t hst => ?_
  obtain ⟨h, hlen⟩ := hst
  have hfield := hpm (UInt16.not_lt.1 hlen)
  refine (agree_failIf h Iff.rfl _ _).bind fun _ s t hst => Agree.get_bind ?_
  rw [if_pos hfield, if_pos hfield, hst.1.leftLen]
  exact (agree_failIf hst.1 Iff.rfl _ _).bind fun _ s t hst => agree_coverWindow hst.1 _ _ _

/-! #### Frames -/

/-- The packet bytes of a frame. -/
def DpPacket.payload (dpp : DpPacket) : Buf :=
  dpp.buf.bytesAt (dpp.outputPacketBuf + dpp.outputPacketOffset.toNat).toNat dpp.outputPacketLen.toNat

/-- The records before a frame without metadata is sent. -/
structure SameFrame (s t : DpState) : Prop where
  packet : SamePacket s t
  metadataLen : t.dpp.outputMetadataLen = 0
  payload : s.dpp.payload = t.dpp.payload

theorem pofbfCopyBit_zero (d res : Buf) (off : UInt16) : pofbfCopyBit d res off 0 = res := rfl

theorem outputBytes_payload {dpp : DpPacket} (h : dpp.outputMetadataLen = 0) :
    outputBytes dpp = dpp.bufOut.paste 0 dpp.payload := by
  rw [outputBytes, h, UInt16.zero_mul, pofbfCopyBit_zero]
  rfl

theorem SameFrame.outputBytes (h : SameFrame s t) :
    PofSwitch.outputBytes s.dpp = PofSwitch.outputBytes t.dpp := by
  have hlen : s.dpp.outputMetadataLen = t.dpp.outputMetadataLen :=
    congrArg Shared.outputMetadataLen h.packet.shared
  have hout : s.dpp.bufOut = t.dpp.bufOut := congrArg Shared.bufOut h.packet.shared
  rw [outputBytes_payload (hlen.trans h.metadataLen), outputBytes_payload h.metadataLen, hout,
    h.payload]

/-- A change of the common part that leaves the frame alone. -/
theorem SameFrame.change (h : SameFrame s t) {s' t' : DpState} (hpacket : SamePacket s' t')
    (hmeta : t'.dpp.outputMetadataLen = t.dpp.outputMetadataLen) (hs : s'.dpp.payload = s.dpp.payload)
    (ht : t'.dpp.payload = t.dpp.payload) : SameFrame s' t' where
  packet := hpacket
  metadataLen := hmeta.trans h.metadataLen
  payload := hs.trans (h.payload.trans ht.symm)

theorem agree_sendRaw (h : SameFrame s t) (env : DpEnv) (lrPort : LocalResource) :
    Agree SameFrame Seen (exec (sendRaw env lrPort) s) (exec (sendRaw env lrPort) t) := by
  have hport : s.dpp.outputPortId = t.dpp.outputPortId :=
    congrArg Shared.outputPortId h.packet.shared
  have hout : s.dpp.bufOut = t.dpp.bufOut := congrArg Shared.bufOut h.packet.shared
  have hlen : s.dpp.outputWholeLen = t.dpp.outputWholeLen :=
    congrArg Shared.outputWholeLen h.packet.shared
  refine Agree.get_bind (Agree.liftOption_bind ?_ h.packet.seen fun port port' hp hp' => ?_)
  · rw [hport]
  · rw [hport, hp'] at hp
    cases hp
    rw [hout, hlen, h.packet.seen.1]
    refine Agree.bind (Agree.check Iff.rfl (fun _ => h.packet.seen) fun _ => h) fun _ s t h => ?_
    exact Agree.ok (h.change (h.packet.emit _) rfl rfl rfl)

theorem agree_pofdpSendRaw (h : SameFrame s t) (env : DpEnv) (lrPort : LocalResource) :
    Agree SameFrame Seen (exec (pofdpSendRaw env lrPort) s) (exec (pofdpSendRaw env lrPort) t) := by
  have hfilled : SameFrame { s with dpp := { s.dpp with bufOut := outputBytes s.dpp } }
      { t with dpp := { t.dpp with bufOut := outputBytes t.dpp } } := by
    refine h.change (h.packet.change ?_ ⟨rfl, rfl, rfl⟩ ⟨rfl, rfl, rfl⟩ rfl) rfl rfl rfl
    rw [h.outputBytes]
    exact congrArg (fun u => { u with bufOut := outputBytes t.dpp }) h.packet.shared
  refine Agree.bind (Agree.ok hfilled) fun _ s t h => Agree.get_bind ?_
  have hlen : s.dpp.outputWholeLen = t.dpp.outputWholeLen :=
    congrArg Shared.outputWholeLen h.packet.shared
  rw [hlen]
  exact Agree.bind (Agree.check Iff.rfl (fun _ => h.packet.seen) fun _ => h) fun _ s t h =>
    agree_sendRaw h env lrPort

theorem agree_floodLoop (env : DpEnv) (lrPort : LocalResource) (ports : List PortInfo) :
    ∀ {s t : DpState}, SameFrame s t → Agree SameFrame Seen (exec (floodLoop env lrPort ports) s)
      (exec (floodLoop env lrPort ports) t) := by
  induction ports with
  | nil =>
      intro s t h
      exact Agree.ok h
  | cons port ports ih =>
      intro s t h
      have hori : s.dpp.oriPortId = t.dpp.oriPortId := congrArg Shared.oriPortId h.packet.shared
      have hto : floodTo env s.dpp port = floodTo env t.dpp port := by
        rw [floodTo, floodTo, hori]
      refine Agree.get_bind ?_
      rw [hto]
      split
      · refine Agree.bind (Agree.ok (Q := SameFrame) ?_) fun _ s t h =>
          (agree_pofdpSendRaw h env lrPort).bind fun _ s t h => ih h
        refine h.change (h.packet.change ?_ ⟨rfl, rfl, rfl⟩ ⟨rfl, rfl, rfl⟩ rfl) rfl rfl rfl
        exact congrArg (fun u => { u with outputPortId := port.pofIndex.toUInt16 }) h.packet.shared
      · exact ih h

/-- `execute_OUTPUT` from the port on. -/
def outputTo (env : DpEnv) (data : Buf) (lr : LocalResource) (value : UInt32) : Dp Unit := do
  modifyDpp fun dpp =>
    { dpp with outputSlotId := (value >>> 16).toUInt16, outputPortId := value.toUInt16 }
  let lrPort ← liftOption (pofdpGetLocalResource env (value >>> 16).toUInt16 lr)
    (.error ⟨.softwareFailed, .pofInvalidSlotId⟩)
  modifyDpp (fillOutput data)
  if value.toUInt16 = 255 then floodLoop env lrPort lrPort.portPofIndexMap.order
  else pofdpSendRaw env lrPort

theorem exec_outputAction (env : DpEnv) {data : Buf}
    (hlen : ¬ ((half data 6).toNat : ℤ) > s.dpp.leftLen)
    (hmeta : ¬ bytenumCeil ((half data 4).toNat + (half data 2).toNat) > s.dpp.metadataLen.toNat) :
    exec (outputAction env data) s =
      exec (pofdpGet32value (data.rd 0) data 8 >>= outputTo env data s.lr) s := by
  rw [outputAction, exec_bind_ok exec_get, exec_bind_ok (exec_failIf_neg hlen _ _ _),
    exec_bind_ok (exec_failIf_neg hmeta _ _ _)]
  rfl

/-- A byte of the packet. -/
theorem SamePacket.rd_window (h : SamePacket s t) {i : ℕ} (hi : i < windowBytes) :
    rd t.dpp.window i = rd s.dpp.window i := by
  rw [h.window, rd_take _ hi]

/-- The frame is the rest of the packet. -/
theorem payload_fillOutput (data : Buf) {dpp : DpPacket} (hoff : 0 ≤ dpp.bufOffset) :
    (fillOutput data dpp).payload = dpp.window.bytesAt (half data 6).toNat
      (toUInt16 (dpp.leftLen - (half data 6).toNat)).toNat := by
  refine List.map_congr_left fun i _ => ?_
  have hindex : (dpp.bufOffset + ((half data 6).toNat : ℤ)).toNat + i =
      dpp.bufOffset.toNat + ((half data 6).toNat + i) := by
    omega
  rw [DpPacket.window, rd_drop, ← hindex]
  rfl

theorem sameFrame_fillOutput (h : SamePacket s t) {data : Buf}
    (hlen : ((half data 6).toNat : ℤ) ≤ t.dpp.leftLen) (hmeta : half data 4 = 0) :
    SameFrame { s with dpp := fillOutput data s.dpp } { t with dpp := fillOutput data t.dpp } where
  packet := by
    refine h.change ?_ ⟨rfl, rfl, rfl⟩ ⟨rfl, rfl, rfl⟩ rfl
    exact congrArg (fun u => { u with
      outputPacketOffset := half data 6
      outputPacketLen := toUInt16 (u.leftLen - (half data 6).toNat)
      outputMetadataLen := UInt16.ofNat (bytenumCeil (half data 4).toNat)
      outputMetadataOffset := half data 2
      outputWholeLen := toUInt16 (u.leftLen - (half data 6).toNat) +
        UInt16.ofNat (bytenumCeil (half data 4).toNat) }) h.shared
  metadataLen := by
    change UInt16.ofNat (bytenumCeil (half data 4).toNat) = 0
    rw [hmeta]
    rfl
  payload := by
    have hmtu := h.leftLen_le
    rw [payload_fillOutput data (by rw [h.start]),
      payload_fillOutput data (by rw [h.headRoom]; exact Int.natCast_nonneg _), h.leftLen]
    refine List.map_congr_left fun i hi => (h.rd_window ?_).symm
    have hi := List.mem_range.1 hi
    rw [toUInt16, UInt16.toNat_ofNat', Int.emod_eq_of_lt (by omega) (by
      simp only [mtuLength] at hmtu
      omega)] at hi
    simp only [mtuLength, windowBytes, packetRawMaxLen, packetPrebufLen] at *
    omega

theorem agree_outputTo (h : SamePacket s t) (env : DpEnv) {data : Buf} (value : UInt32)
    (hlen : ((half data 6).toNat : ℤ) ≤ t.dpp.leftLen) (hmeta : half data 4 = 0) :
    Agree SamePacket Seen (exec (outputTo env data s.lr value) s)
      (exec (outputTo env data t.lr value) t) := by
  have hchosen : SamePacket
      { s with dpp := { s.dpp with
        outputSlotId := (value >>> 16).toUInt16, outputPortId := value.toUInt16 } }
      { t with dpp := { t.dpp with
        outputSlotId := (value >>> 16).toUInt16, outputPortId := value.toUInt16 } } := by
    refine h.change ?_ ⟨rfl, rfl, rfl⟩ ⟨rfl, rfl, rfl⟩ rfl
    exact congrArg (fun u => { u with
      outputSlotId := (value >>> 16).toUInt16, outputPortId := value.toUInt16 }) h.shared
  rw [h.seen.2]
  refine Agree.bind_ok (Agree.ok hchosen) fun _ s' t' _ ht' h' => ?_
  refine Agree.liftOption_bind Iff.rfl h'.seen fun lrPort lrPort' hl hl' => ?_
  rw [hl] at hl'
  cases hl'
  cases ht'
  refine Agree.bind (Agree.ok (sameFrame_fillOutput h' hlen hmeta)) fun _ s t h => ?_
  refine Agree.conseq (Q := SameFrame) ?_ (fun _ _ h => h.packet) fun _ _ => id
  split
  · exact agree_floodLoop env lrPort _ h
  · exact agree_pofdpSendRaw h env lrPort

/-- The field is asked for in vain in the received packet, too. -/
theorem exec_pofdpGet32value_beyond (h : SamePacket s t) {type : UInt8} {data : Buf} {p : ℕ}
    (hno : type ≠ 0 ∧ (matchAt data p).len ≤ 32 ∧ (matchAt data p).fieldId = metadataFieldId)
    (hserved : FieldServed (matchAt data p)) :
    exec (pofdpGet32value type data p) t = (.error (.error ⟨.softwareFailed, .pofError⟩), t) := by
  obtain ⟨htype, hlen, hfield⟩ := hno
  have hbeyond : (matchAt data p).len.toNat + (matchAt data p).offset.toNat >
      t.dpp.metadataLen.toNat * 8 := by
    rcases hserved with hne | hlong | hbeyond
    · exact absurd hfield hne
    · exact absurd hlong (UInt16.not_lt.2 hlen)
    · rw [h.metadata]
      exact hbeyond
  rw [pofdpGet32value, if_neg htype, get32valueFromField,
    exec_bind_ok (exec_failIf_neg (UInt16.not_lt.2 hlen) _ _ _), exec_bind_ok exec_get,
    pofdpGetFieldBuf, if_pos hfield, if_pos hbeyond]
  rfl

/-- `execute_OUTPUT`. -/
theorem agree_packetOutOutput (h : SamePacket s t) (env : DpEnv) {data : Buf}
    (hserved : t.dpp.leftLen < (half data 6).toNat ∨
      bytenumCeil ((half data 4).toNat + (half data 2).toNat) > metadataMaxLen ∨
      half data 4 = 0 ∧ half data 2 = 0 ∧ (data.rd 0 = 0 ∨ FieldServed (matchAt data 8))) :
    Agree SamePacket Seen (exec (packetOutOutput env data) s) (exec (outputAction env data) t) := by
  refine Agree.get_bind ?_
  by_cases hlen : ((half data 6).toNat : ℤ) > t.dpp.leftLen
  · rw [exec_bind_error (exec_failIf_pos (h.leftLen ▸ hlen) _ _ _),
      exec_bind_error (exec_failIf_pos hlen _ _ _)]
    exact Agree.error h.seen
  have hlen' : ¬ ((half data 6).toNat : ℤ) > s.dpp.leftLen := h.leftLen ▸ hlen
  rw [exec_bind_ok (exec_failIf_neg hlen' _ _ _)]
  rcases hserved with hshort | hmany | ⟨hmeta, hoff, hport⟩
  · exact absurd hshort hlen
  · have hs : bytenumCeil ((half data 4).toNat + (half data 2).toNat) > s.dpp.metadataLen.toNat := by
      rw [h.noMetadata]
      exact Nat.zero_lt_of_lt hmany
    have ht : bytenumCeil ((half data 4).toNat + (half data 2).toNat) > t.dpp.metadataLen.toNat := by
      rw [h.metadata]
      exact hmany
    rw [exec_bind_ok (exec_failIf_neg hlen _ _ _), exec_bind_error (exec_failIf_pos hs _ _ _),
      exec_bind_error (exec_failIf_pos ht _ _ _)]
    exact Agree.error h.seen
  · have hnone : ∀ n, ¬ bytenumCeil ((half data 4).toNat + (half data 2).toNat) > n := by
      intro n
      rw [hmeta, hoff]
      exact Nat.not_lt_zero n
    rw [exec_bind_ok (exec_failIf_neg (hnone _) _ _ _)]
    change Agree _ _ _ (exec (outputAction env data) t)
    by_cases hno : data.rd 0 ≠ 0 ∧ (matchAt data 8).len ≤ 32 ∧
        (matchAt data 8).fieldId = metadataFieldId
    · have hfield := hport.resolve_left hno.1
      rw [noMetadataValue, exec_bind_error (exec_failIf_pos hno _ _ _),
        exec_outputAction env hlen (hnone _),
        exec_bind_error (exec_pofdpGet32value_beyond h hno hfield)]
      exact Agree.error h.seen
    · rw [noMetadataValue, exec_bind_ok (exec_failIf_neg hno _ _ _),
        exec_outputAction env hlen' (hnone _), exec_outputAction env hlen (hnone _)]
      refine (agree_pofdpGet32value h hno).bind_ok fun value s' t' hs' ht' _ => ?_
      obtain rfl := Frame.same (frame_pofdpGet32value _ _ _) hs'
      obtain rfl := Frame.same (frame_pofdpGet32value _ _ _) ht'
      exact agree_outputTo h env value (Int.not_lt.1 hlen) hmeta

/-! #### Actions that do not come to their end -/

/-- The lengths in both records. -/
structure SameLength (s t : DpState) : Prop where
  seen : Seen s t
  leftLen : s.dpp.leftLen = t.dpp.leftLen

theorem SamePacket.sameLength (h : SamePacket s t) : SameLength s t := ⟨h.seen, h.leftLen⟩

/-- Whether `pofbf_cover_bit` returns does not depend on the value. -/
theorem agree_coverWindow_length (h : SameLength s t) (value value' : Buf) (pos len : UInt16) :
    Agree SameLength Seen (exec (coverWindow value pos len) s)
      (exec (coverWindow value' pos len) t) := by
  refine Agree.get_bind (Agree.liftOption_bind ?_ h.seen fun w w' _ _ => Agree.ok ⟨h.seen, h.leftLen⟩)
  rw [pofbfCoverBit_eq_none_iff, pofbfCoverBit_eq_none_iff]

theorem Straddles.cover_eq_none {pos len : UInt16} (h : Straddles pos len) (d value : Buf) :
    pofbfCoverBit d value pos len = none := by
  rw [pofbfCoverBit_eq_none_iff]
  unfold Straddles at h
  omega

theorem agree_setFieldFromMetadataAction (h : SamePacket s t) (data : Buf) :
    Agree SameLength Seen (exec (setFieldFromMetadataAction data) s)
      (exec (setFieldFromMetadataAction data) t) := by
  refine Agree.get_bind ((agree_failIf h ?_ _ _).bind fun _ s t hst => ?_)
  · rw [h.leftLen]
  · refine (Agree.check (Q := SameLength) Iff.rfl (fun _ => hst.1.seen) fun _ => hst.1.sameLength).bind ?_
    exact fun _ s t hst => agree_coverWindow_length hst _ _ _ _

/-- A field that is refused, or whose stores do not return. -/
theorem exec_setFieldFromMetadataAction_ne_ok {data : Buf}
    (hstops : t.dpp.leftLen * 8 < ((matchAt data 0).offset.toNat + (matchAt data 0).len.toNat : ℤ) ∨
      Straddles (matchAt data 0).offset (matchAt data 0).len) (u : Unit) :
    (exec (setFieldFromMetadataAction data) t).1 ≠ .ok u := by
  rw [setFieldFromMetadataAction, exec_bind_ok exec_get]
  by_cases hlen : t.dpp.leftLen * 8 < ((matchAt data 0).offset.toNat + (matchAt data 0).len.toNat : ℤ)
  · rw [exec_bind_error (exec_failIf_pos hlen _ _ t)]
    simp
  · have hstraddles := hstops.resolve_left hlen
    have hvalue : ¬ (matchAt data 0).len.toNat > 8 * maxFieldLengthInByte := by
      have hshort := hstraddles.1
      simp only [maxFieldLengthInByte]
      omega
    rw [exec_bind_ok (exec_failIf_neg hlen _ _ t), exec_bind_ok (exec_checkUndefined_neg hvalue t),
      exec_coverWindow_none (hstraddles.cover_eq_none _ _)]
    simp

/-- The buffer of the received packet has less room. -/
theorem AddHangs.of_samePacket (h : SamePacket s t) {data : Buf} (hhangs : AddHangs data t) :
    AddHangs data s := by
  obtain ⟨hcopied, htag, hstops⟩ := hhangs
  have hbehind : behindAdded data s = behindAdded data t := by rw [behindAdded, behindAdded, h.leftLen]
  have hroom : s.dpp.bufOffset ≤ t.dpp.bufOffset := by
    rw [h.start, h.headRoom]
    decide
  refine ⟨hbehind ▸ hcopied, by omega, hstops.imp_right fun hsecond => ?_⟩
  rw [hbehind]
  exact ⟨by omega, hsecond.2⟩

/-- An `ADD_FIELD` whose stores do not return. -/
theorem exec_addFieldAction_hang {data : Buf} (h128 : ¬ word data 4 > 128)
    (hroom : ¬ toUInt32 (s.dpp.offset + s.dpp.leftLen) + (word data 4 + 7) / 8 > UInt32.ofNat packetRawMaxLen)
    (hhangs : AddHangs data s) : ∃ u, exec (addFieldAction data) s = (.error .hang, u) ∧ Seen u s := by
  have hpos : (half data 2).toUInt32.toUInt16 = half data 2 := UInt16.toUInt16_toUInt32 _
  have hbehind : (toUInt32 (s.dpp.leftLen * 8 - (half data 2).toUInt32.toNat)).toUInt16 =
      behindAdded data s := by
    rw [behindAdded, UInt16.toNat_toUInt32]
  rw [addFieldAction, exec_bind_ok (exec_failIf_neg h128 _ _ s), insertTagToPacket, exec_bind_ok exec_get]
  dsimp only
  rw [exec_bind_ok (exec_failIf_neg hroom _ _ s), hpos, hbehind,
    exec_bind_ok (exec_checkUndefined_neg (Nat.not_lt.2 hhangs.copied) s)]
  cases hw : pofbfCoverBit s.dpp.window (data.bytesAt 8 maxFieldLengthInByte) (half data 2)
      (word data 4).toUInt16 with
  | none =>
      rw [exec_bind_error ((exec_coverInBuf hhangs.tag).trans (exec_coverWindow_none hw))]
      exact ⟨s, rfl, rfl, rfl⟩
  | some w =>
      rw [exec_bind_ok ((exec_coverInBuf hhangs.tag).trans (exec_coverWindow hw))]
      obtain ⟨hinside, hstraddles⟩ := hhangs.hangs.resolve_left fun hfirst => by
        rw [hfirst.cover_eq_none] at hw
        cases hw
      rw [exec_bind_error ((exec_coverInBuf (s := { s with dpp := s.dpp.setWindow w }) hinside).trans
        (exec_coverWindow_none (hstraddles.cover_eq_none _ _)))]
      exact ⟨_, rfl, rfl, rfl⟩

/-- An `ADD_FIELD` that does not come to the metadata. -/
theorem agree_addFieldAction (h : SamePacket s t) {data : Buf} (hstops : word data 4 > 128 ∨
      toUInt32 (t.dpp.offset + t.dpp.leftLen) + (word data 4 + 7) / 8 > UInt32.ofNat packetRawMaxLen ∨
      AddHangs data t) :
    Agree SamePacket Seen (exec (addFieldAction data >>= fun _ => (throw .undefined : Dp Unit)) s)
      (exec (addFieldAction data) t) := by
  by_cases h128 : word data 4 > 128
  · rw [exec_bind, addFieldAction, exec_bind_error (exec_failIf_pos h128 _ _ s),
      exec_bind_error (exec_failIf_pos h128 _ _ t)]
    exact Agree.error h.seen
  by_cases hroom : toUInt32 (t.dpp.offset + t.dpp.leftLen) + (word data 4 + 7) / 8 >
      UInt32.ofNat packetRawMaxLen
  · have hroom' := hroom
    rw [← h.leftLen, ← h.offset] at hroom'
    rw [exec_bind, addFieldAction, exec_bind_ok (exec_failIf_neg h128 _ _ s),
      exec_bind_ok (exec_failIf_neg h128 _ _ t), insertTagToPacket, exec_bind_ok exec_get,
      exec_bind_ok exec_get]
    dsimp only
    rw [exec_bind_error (exec_failIf_pos hroom _ _ t), exec_bind_error (exec_failIf_pos hroom' _ _ s)]
    exact Agree.error h.seen
  · have hhangs := (hstops.resolve_left h128).resolve_left hroom
    obtain ⟨u, hu, hseen⟩ := exec_addFieldAction_hang h128 hroom hhangs
    rw [← h.leftLen, ← h.offset] at hroom
    obtain ⟨u', hu', hseen'⟩ := exec_addFieldAction_hang h128 hroom (hhangs.of_samePacket h)
    rw [exec_bind_error hu', hu]
    exact Agree.error ⟨hseen'.1.trans (h.seen.1.trans hseen.1.symm),
      hseen'.2.trans (h.seen.2.trans hseen.2.symm)⟩

theorem agree_deleteFieldAction (h : SamePacket s t) {data : Buf}
    (hno : ¬ (data.rd 2 ≠ 0 ∧ (matchAt data 8).len ≤ 32 ∧ (matchAt data 8).fieldId = metadataFieldId)) :
    Agree Seen Seen (exec (deleteFieldAction data) s) (exec (deleteFieldAction data) t) := by
  refine (agree_pofdpGet32value h hno).bind fun tagLen s t h => Agree.get_bind ?_
  rw [h.leftLen]
  refine (agree_failIf h Iff.rfl _ _).bind fun _ s t hst => ?_
  exact (agree_coverWindow_length hst.1.sameLength _ _ _ _).bind fun _ s t hst => Agree.ok hst.seen

/-- A deletion whose length cannot be read, or is found negative, or whose store does not return. -/
theorem exec_deleteFieldAction_ne_ok {data : Buf} (hstops : ∀ len ∈ deletedBits data t,
      behindDeleted data len t ≥ 0x8000 ∨ Straddles (half data 0) (behindDeleted data len t)) (u : Unit) :
    (exec (deleteFieldAction data) t).1 ≠ .ok u := by
  cases hlen : deletedBits data t with
  | none =>
      rcases hget : exec (pofdpGet32value (data.rd 2) data 8) t with ⟨e | len, t'⟩
      · rw [deleteFieldAction, exec_bind_error hget]
        simp
      · rw [deletedBits, hget] at hlen
        cases hlen
  | some len =>
      by_cases hneg : behindDeleted data len t ≥ 0x8000
      · rw [exec_deleteFieldAction_error hlen hneg]
        simp
      · have hstraddles := (hstops len hlen).resolve_left hneg
        rw [exec_deleteFieldAction_hang hlen hneg (hstraddles.cover_eq_none _ _)]
        simp

/-! #### Checksums -/

/-- A sum over no word does not look at the buffer. -/
theorem checksum_of_lt (d d' : Buf) {pos len cs : UInt16} (h : len.toNat < cs.toNat) :
    checksum d pos len cs = checksum d' pos len cs := by
  simp only [checksum, Nat.div_eq_of_lt h]
  rfl

theorem agree_calculateChecksumAction (h : SamePacket s t) {data : Buf} (hcs : data.rd 0 = 0)
    (hcal : SumServed data) :
    Agree SamePacket Seen (exec (calculateChecksumAction data) s)
      (exec (calculateChecksumAction data) t) := by
  refine (agree_failIf h Iff.rfl _ _).bind fun _ s t hst => Agree.get_bind ?_
  obtain ⟨h, _⟩ := hst
  rw [hcs]
  refine Agree.liftOption_bind ?_ h.seen fun w w' hw hw' => ?_
  · change bzeroBit s.dpp.window _ _ = none ↔ bzeroBit t.dpp.window _ _ = none
    rw [h.window, bzeroBit_take, Option.map_eq_none_iff]
  · replace hw' : bzeroBit t.dpp.window (half data 2) (half data 4) = some w' := hw'
    replace hw : bzeroBit s.dpp.window (half data 2) (half data 4) = some w := hw
    rw [h.window, bzeroBit_take, hw] at hw'
    cases hw'
    refine Agree.bind (Agree.ok (h.setWindow (length_bzeroBit hw))) fun _ s t h => Agree.get_bind ?_
    have hsum : checksum (checksumBuf (data.rd 1) t.dpp) (half data 6) (half data 8) (half data 4) =
        checksum (checksumBuf (data.rd 1) s.dpp) (half data 6) (half data 8) (half data 4) := by
      rcases hcal with hnone | ⟨hcal, hin⟩
      · exact checksum_of_lt _ _ hnone
      · rw [hcal]
        change checksum t.dpp.window _ _ _ = _
        rw [h.window, checksum_take _ (by decide) hin]
        rfl
    rw [hsum]
    refine Agree.liftOption_bind Iff.rfl h.seen fun value value' hv hv' => ?_
    rw [hv] at hv'
    cases hv'
    refine Agree.liftOption_bind ?_ h.seen fun c c' hc hc' => ?_
    · rw [pofbfCoverBit_eq_none_iff, pofbfCoverBit_eq_none_iff]
    · replace hc' : pofbfCoverBit t.dpp.window value (half data 2) (half data 4) = some c' := hc'
      replace hc : pofbfCoverBit s.dpp.window value (half data 2) (half data 4) = some c := hc
      rw [h.window, pofbfCoverBit_take, hc] at hc'
      cases hc'
      exact Agree.ok (h.setWindow (length_pofbfCoverBit hc))

/-! #### One action -/

theorem exec_counterAction_zero {data : Buf} (hzero : word data 0 = 0) :
    exec (counterAction data) t = (.ok (), t) := by
  have hcount : poflrCounterIncreace 0 0 t.lr = some (.ok (), t.lr) := by
    rw [poflrCounterIncreace, if_pos rfl]
  rw [counterAction, hzero, exec_bind_ok (exec_counterIncreace hcount)]
  rfl

/-- **An action that is served does the same in both executions.** -/
theorem agree_packetOutWork (h : SamePacket s t) (env : DpEnv) {action : PofAction} {type : ActionType}
    (htype : ActionType.ofCode action.type.toNat = some type) (hserved : Served t action) :
    Agree SamePacket Seen (exec (packetOutWork env action.actionData type) s)
      (exec (actionWork env action.actionData type) t) := by
  simp only [Served, htype] at hserved
  cases type with
  | output => exact agree_packetOutOutput h env hserved
  | setField => exact agree_setFieldAction h _
  | setFieldFromMetadata =>
      exact (agree_setFieldFromMetadataAction h _).bind_throw (exec_setFieldFromMetadataAction_ne_ok hserved)
  | modifyField =>
      by_cases hno : (1 : UInt8) ≠ 0 ∧ (matchAt action.actionData 0).len ≤ 32 ∧
          (matchAt action.actionData 0).fieldId = metadataFieldId
      · have hbeyond := exec_pofdpGet32value_beyond h hno hserved
        rw [pofdpGet32value, if_neg (by decide)] at hbeyond
        rw [packetOutWork, noMetadataValue, exec_bind_error (exec_failIf_pos hno _ _ _), actionWork,
          modifyFieldAction, exec_bind_error hbeyond]
        exact Agree.error h.seen
      · rw [packetOutWork, noMetadataValue, exec_bind_ok (exec_failIf_neg hno _ _ _)]
        exact agree_modifyFieldAction h fun hlen hfield => hno ⟨by decide, hlen, hfield⟩
  | addField => exact agree_addFieldAction h hserved
  | deleteField =>
      obtain ⟨hfield, hfail⟩ := hserved
      by_cases hno : action.actionData.rd 2 ≠ 0 ∧ (matchAt action.actionData 8).len ≤ 32 ∧
          (matchAt action.actionData 8).fieldId = metadataFieldId
      · have hbeyond := exec_pofdpGet32value_beyond h hno (hfield.resolve_left hno.1)
        rw [packetOutWork, noMetadataValue, exec_bind_error (exec_failIf_pos hno _ _ _), actionWork,
          deleteFieldAction, exec_bind_error hbeyond]
        exact Agree.error h.seen
      · rw [packetOutWork, noMetadataValue, exec_bind_ok (exec_failIf_neg hno _ _ _)]
        exact (agree_deleteFieldAction h hno).bind_throw (exec_deleteFieldAction_ne_ok hfail)
  | calculateChecksum =>
      by_cases hlong : half action.actionData 4 > 64
      · rw [packetOutWork, exec_bind_error (exec_failIf_pos hlong _ _ _), actionWork,
          calculateChecksumAction, exec_bind_error (exec_failIf_pos hlong _ _ _)]
        exact Agree.error h.seen
      · obtain ⟨hcs, -, hcal⟩ := hserved.resolve_left hlong
        have hstored : exec (check (action.actionData.rd 0 ≠ 0) .undefined : Dp Unit) s = (.ok (), s) := by
          rw [check, if_neg (not_not.2 hcs)]
          rfl
        rw [packetOutWork, exec_bind_ok (exec_failIf_neg hlong _ _ _), exec_bind_ok hstored]
        exact agree_calculateChecksumAction h hcs hcal
  | drop => exact agree_dropAction h
  | packetIn => exact hserved.elim
  | counter =>
      rw [actionWork, exec_counterAction_zero hserved, packetOutWork, check,
        if_neg (not_not.2 hserved)]
      exact Agree.ok h
  | experimenter => exact Agree.error h.seen
  | group => exact hserved.elim

theorem not_group_of_served {action : PofAction} (hserved : Served t action) : action.isGroup = false := by
  cases htype : ActionType.ofCode action.type.toNat with
  | none => simp [PofAction.isGroup, htype]
  | some type =>
      cases type with
      | group =>
          simp only [Served, htype] at hserved
      | _ => simp [PofAction.isGroup, htype]

theorem agree_packetOutAction (h : SamePacket s t) (env : DpEnv) (again : Dp Unit) {action : PofAction}
    (hserved : Served t action) :
    Agree SamePacket Seen (exec (packetOutAction env action) s)
      (exec (executeAction env again action) t) := by
  cases htype : ActionType.ofCode action.type.toNat with
  | none =>
      rw [packetOutAction, executeAction, htype]
      exact Agree.error h.seen
  | some type =>
      have hgroup : type ≠ .group := by
        rintro rfl
        simp only [Served, htype] at hserved
      rw [executeAction_some again htype hgroup, packetOutAction, htype]
      exact (agree_packetOutWork h env htype hserved).bind fun _ s t h => agree_actionUpdate h

/-! #### The loop -/

theorem agree_logged {m m' : Dp Unit} (h : Agree SamePacket Seen (exec m s) (exec m' t)) :
    Agree SamePacket Seen (exec (logged m) s) (exec (logged m') t) := by
  refine h.onError fun e s t hst => ?_
  cases e with
  | error e => exact ⟨by rw [hst.1], hst.2⟩
  | hang => exact hst
  | undefined => exact hst
  | fuel => exact hst

/-- Every action that has its turn in an execution is served. -/
def AllServed (env : DpEnv) (t : DpState) : Prop :=
  ∀ u, ActRun env t u → u.HasAction → ∀ action, u.dpp.act.head? = some action → Served u action

theorem AllServed.turn {env : DpEnv} {t' : DpState} (h : AllServed env t) (ht : t.HasAction)
    (hturn : exec (actTurn env) t = (.ok (), t')) : AllServed env t' := by
  intro u hu
  refine h u ?_
  induction hu with
  | start => exact ActRun.start.turn ht hturn
  | turn _ hs hturn ih => exact ih.turn hs hturn

/-- **The loops agree when every action that has its turn is served.** -/
theorem agree_packetOutExecute (env : DpEnv) : ∀ (fuel : ℕ) {s t : DpState}, SamePacket s t →
    AllServed env t → Agree SamePacket Seen (exec (packetOutExecute env fuel) s)
      (exec (pofdpActionExecute env fuel) t) := by
  intro fuel
  induction fuel with
  | zero =>
      intro s t h _
      exact Agree.error h.seen
  | succ fuel ih =>
      intro s t h hserved
      by_cases ht : t.HasAction
      · have hs := h.hasAction.2 ht
        unfold DpState.HasAction at hs
        rw [exec_actionExecute_turn ht, packetOutExecute, exec_bind_ok exec_get, if_pos hs]
        have hact : s.dpp.act = t.dpp.act := congrArg Shared.act h.shared
        cases hhead : t.dpp.act.head? with
        | none =>
            have hnone : exec (packetOutStep env) s = (.error .undefined, s) := by
              rw [packetOutStep, exec_bind_ok exec_get, hact, hhead]
              rfl
            rw [exec_bind_error (exec_actionStep_none _ hhead), exec_bind_error hnone]
            exact Agree.error h.seen
        | some action =>
            have hone := hserved t ActRun.start ht action hhead
            have hstep : Agree SamePacket Seen (exec (packetOutStep env) s)
                (exec (actionStep env (pofdpActionExecute env fuel)) t) := by
              rw [exec_actionStep _ _ hhead, packetOutStep, exec_bind_ok exec_get, hact, hhead]
              exact agree_logged (agree_packetOutAction h env _ hone)
            refine hstep.bind_ok fun _ s' t' _ ht' h' => ih h' (hserved.turn ht ?_)
            -- a turn without `GROUP` does not look at the loop around it
            rw [exec_actTurn hhead]
            rw [exec_actionStep _ _ hhead, logged, exec_onError, exec_executeAction,
              not_group_of_served hone, if_neg Bool.false_ne_true] at ht'
            rcases hexec : exec (executeAction env (pure ()) action) t with ⟨e | u, t₁⟩
            · rw [hexec] at ht'
              cases ht'
            · rw [hexec] at ht'
              cases ht'
              rfl
      · have hs : ¬ s.HasAction := fun hs => ht (h.hasAction.1 hs)
        unfold DpState.HasAction at hs
        rw [exec_actionExecute_done ht, packetOutExecute, exec_bind_ok exec_get, if_neg hs]
        exact Agree.ok h

end Agree

/-! ### The whole execution -/

section Effect

variable {env : DpEnv} {m : PofPacketOut} {data : Buf} {lr : LocalResource} {s t : DpState}

/-- Without `GROUP` actions a loop makes at most `act_num` turns. -/
theorem execute_ne_fuel : ∀ {fuel : ℕ} {t : DpState}, AllServed env t → t.dpp.actNum.toNat < fuel →
    (exec (pofdpActionExecute env fuel) t).1 ≠ .error .fuel := by
  intro fuel
  induction fuel with
  | zero =>
      intro t _ hfuel
      exact absurd hfuel (Nat.not_lt_zero _)
  | succ fuel ih =>
      intro t hserved hfuel
      by_cases ht : t.HasAction
      · rcases hturn : exec (actTurn env) t with ⟨e | u, t'⟩
        · obtain ⟨t₁, hexec, _⟩ := exec_actionExecute_fail ht hturn
          rw [hexec]
          intro he
          cases he
          exact Avoids.actTurn (Or.inl rfl) env (fun hh => by cases hh) t' hturn
        · obtain ⟨action, hhead⟩ := head_of_actTurn hturn
          have hgroup := not_group_of_served (hserved t ActRun.start ht action hhead)
          have hpred := actNum_pred ht
          rw [exec_actionExecute_ok fuel ht hhead hturn, hgroup, passedOn_false]
          refine ih (hserved.turn ht hturn) ?_
          rw [(actTurn_cursor hhead hgroup hturn).1]
          omega
      · rw [exec_actionExecute_done ht]
        simp

theorem length_packet (m : PofPacketOut) : m.packet.length = m.packetLen.toNat := by
  rw [PofPacketOut.packet, bytesAt, List.length_map, List.length_range]

/-- The two buffers before the first action. -/
theorem window_start (packet : Buf) :
    ((Buf.zeros packetRawMaxLen).paste packetPrebufLen packet).drop packetPrebufLen =
      ((Buf.zeros packetRawMaxLen).paste 0 packet).take windowBytes := by
  refine ext_rd ?_ fun i hi => ?_
  · rw [List.length_drop, List.length_take, length_paste, length_paste, length_zeros]
    rfl
  · rw [List.length_drop, length_paste, length_zeros] at hi
    change i < windowBytes at hi
    rw [rd_drop, rd_take _ hi, rd_paste, rd_paste, rd_zeros, rd_zeros, length_zeros,
      Nat.add_sub_cancel_left, Nat.sub_zero]
    simp only [windowBytes] at hi
    congr 1
    simp only [eq_iff_iff]
    omega

theorem samePacket_start (hlist : m.SameList data) (hlen : m.packetLen.toNat ≤ mtuLength) :
    SamePacket ⟨packetOutPacket m, lr, []⟩ (applied data (receivedOn m.inPort m.packet lr)) where
  shared := by
    have hleft : toInt32 m.packetLen.toNat = m.packet.length := by
      rw [length_packet]
      refine toInt32_of_range ?_ ?_ <;> simp only [mtuLength] at hlen <;> omega
    simp only [DpState.shared, packetOutPacket, applied, receivedOn, receivedPacket, hleft, hlist.1,
      hlist.2]
  start := rfl
  headRoom := rfl
  length := by
    change ((Buf.zeros packetRawMaxLen).paste packetPrebufLen m.packet).length = _
    rw [length_paste, length_zeros]
  window := window_start m.packet
  leftLen_le := by
    change (m.packet.length : ℤ) ≤ mtuLength
    rw [length_packet]
    exact Int.ofNat_le.2 hlen
  noMetadata := rfl
  metadata := rfl

theorem exec_executeApplyActions (actions : Dp Unit) (data : Buf) (s : DpState) :
    exec (executeApplyActions actions data) s =
      exec (actions >>= fun _ => instructionUpdate) (applied data s) :=
  rfl

/-- **A message whose actions that have their turn are all served has the effect of the
instruction.** -/
theorem packet_out_same_effect (hlist : m.SameList data) (hlen : m.packetLen.toNat ≤ mtuLength)
    (hserved : AllServed env (applied data (receivedOn m.inPort m.packet lr))) :
    SameEffect env m data lr := by
  have hstart : SamePacket ⟨packetOutPacket m, lr, []⟩
      (applied data (receivedOn m.inPort m.packet lr)) :=
    samePacket_start hlist hlen
  have hagree := agree_packetOutExecute env (m.actionNum.toNat + 1) hstart hserved
  have hfuel : (exec (pofdpActionExecute env (m.actionNum.toNat + 1))
      (applied data (receivedOn m.inPort m.packet lr))).1 ≠ .error .fuel := by
    refine execute_ne_fuel hserved ?_
    rw [hlist.2]
    exact Nat.lt_succ_self _
  refine ⟨m.actionNum.toNat + 1, ?_⟩
  rw [pofParsePacketOut, exec_executeApplyActions]
  generalize exec (packetOutExecute env (m.actionNum.toNat + 1)) ⟨packetOutPacket m, lr, []⟩ = x at *
  rcases hexec : exec (pofdpActionExecute env (m.actionNum.toNat + 1))
    (applied data (receivedOn m.inPort m.packet lr)) with ⟨e | u, t⟩
  · rw [hexec] at hagree hfuel
    rw [exec_bind_error hexec]
    have hseen := hagree.states fun _ _ h => h.seen
    exact ⟨_, _, rfl, hfuel, hagree.result, hseen.1, hseen.2⟩
  · rw [hexec] at hagree
    rw [exec_bind_ok hexec]
    have hseen := hagree.states fun _ _ h => h.seen
    exact ⟨_, _, rfl, by simp, hagree.result, hseen.1, hseen.2⟩

/-- Actions that are served in every state. -/
theorem allServed_of_forall (h : ∀ action ∈ t.dpp.act, ∀ u, Served u action) : AllServed env t := by
  have hsub : ∀ u, ActRun env t u → ∀ action ∈ u.dpp.act, action ∈ t.dpp.act := by
    intro u hu
    induction hu with
    | start => exact fun _ => id
    | @turn u u' _ _ hturn ih =>
        obtain ⟨action, hhead⟩ := head_of_actTurn hturn
        have hmem : action ∈ u.dpp.act := List.mem_of_mem_head? hhead
        have hgroup := not_group_of_served (h action (ih action hmem) u)
        rw [(actTurn_cursor hhead hgroup hturn).2]
        intro b hb
        split_ifs at hb
        · exact ih b hb
        · exact ih b (List.mem_of_mem_tail hb)
  intro u hu _ action hhead
  exact h action (hsub u hu action (List.mem_of_mem_head? hhead)) u

end Effect

/-! ### Two messages -/

/-- A switch with port `1`. -/
def onePort : LocalResource :=
  pofLocalresourceInit { smallConfig with ports := (Hmap.create 1).nodeInsert ⟨1, 1, 1, 1, 0, 1, 0⟩ }

/-- An action in an instruction body. -/
def actionBytes (type : UInt8) (data : Buf) : Buf :=
  [type, 0, 48, 0] ++ data ++ Buf.zeros (maxActionLength - data.length)

/-- An `OUTPUT` to port `1` with bits of the metadata in front of the packet. -/
def outputBits (bits : UInt8) : Buf := actionBytes 0 [0, 0, 0, 0, bits, 0, 0, 0, 1]

/-- The first byte is increased and the packet is sent. -/
def countAndSend : Buf :=
  [2, 0, 0, 0, 0, 0, 0, 0] ++ actionBytes 3 [0, 0, 0, 0, 8, 0, 0, 0, 1] ++ outputBits 0

/-- The packet is sent behind eight bits of the metadata. -/
def sendTagged : Buf := [1, 0, 0, 0, 0, 0, 0, 0] ++ outputBits 8

/-- Three bytes from port `2` with the list of an instruction. -/
def threeBytes (data : Buf) : PofPacketOut where
  inPort := 2
  actionNum := data.rd 0
  packetLen := 3
  actionList := applyActionsList data
  data := [7, 8, 9]

/-- The list needs neither metadata nor the local resource, and the packet is sent. -/
theorem packet_out_same_effect_send : SameEffect openEnv (threeBytes countAndSend) countAndSend onePort ∧
    ((pofParsePacketOut openEnv (threeBytes countAndSend) onePort).2.trace.map fun ev =>
      match ev with
      | .output _ _ frame => frame
      | _ => []) = [[8, 8, 9]] := by
  have hkind : ∀ action ∈ applyActionsList countAndSend,
      action.type = 3 ∧ (matchAt action.actionData 0).fieldId ≠ metadataFieldId ∨
        action.type = 0 ∧ half action.actionData 4 = 0 ∧ half action.actionData 2 = 0 ∧
          action.actionData.rd 0 = 0 := by
    decide +kernel
  refine ⟨packet_out_same_effect ⟨rfl, rfl⟩ (by decide) (allServed_of_forall ?_), by decide +kernel⟩
  intro action hmem u
  rcases hkind action hmem with ⟨htype, hfield⟩ | ⟨htype, hmeta, hoff, hport⟩
  · unfold Served
    rw [htype]
    exact Or.inl hfield
  · unfold Served
    rw [htype]
    exact Or.inr (Or.inr ⟨hmeta, hoff, Or.inl hport⟩)

/-- The instruction sends the frame behind a byte of the metadata, the message fails. -/
theorem packet_out_refuses_metadata : (threeBytes sendTagged).SameList sendTagged ∧
    (threeBytes sendTagged).actionNum ≤ 6 ∧ (threeBytes sendTagged).packetLen ≤ 1514 ∧
    ¬ SameEffect openEnv (threeBytes sendTagged) sendTagged onePort := by
  refine ⟨⟨rfl, rfl⟩, by decide, by decide, ?_⟩
  rintro ⟨fuel, r, t, hexec, hr, hres, _⟩
  have hmessage : (pofParsePacketOut openEnv (threeBytes sendTagged) onePort).1 =
      .error (.error ⟨.softwareFailed, .pofMetadataLenError⟩) := by decide +kernel
  have hinstruction : (exec (pofdpActionExecute openEnv 2)
      (applied sendTagged (receivedOn 2 [7, 8, 9] onePort))).1 = .ok () := by decide +kernel
  rw [hmessage] at hres
  subst hres
  rw [exec_executeApplyActions] at hexec
  rcases hact : exec (pofdpActionExecute openEnv fuel)
    (applied sendTagged (receivedOn 2 [7, 8, 9] onePort)) with ⟨e | u, t'⟩
  · replace hexec := (exec_bind_error hact).symm.trans hexec
    cases hexec
    have hmore := pofdpActionExecute_mono 2 hact (by simp)
    have hmore' := pofdpActionExecute_mono fuel (Prod.ext hinstruction rfl) (by simp)
    rw [Nat.add_comm, hmore] at hmore'
    cases hmore'
  · replace hexec := (exec_bind_ok hact).symm.trans hexec
    cases hexec

end PofSwitch
