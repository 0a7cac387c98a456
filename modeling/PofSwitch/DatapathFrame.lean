/-
**What the datapath leaves alone.**

Most of what instructions and actions do is work on the bytes of the packet and the metadata.  Such
work moves no cursor, does not end the processing of the packet and shows nothing outside.  The
actions that send something or drop the packet do not move the cursor into the instructions either.
The two facts are stated as frames, for the primitive operations first and then for everything put
together from them.

Main definitions:

* `PofSwitch.DpState.cursor` — the current entry, the cursor into its instructions, and the tables;
* `PofSwitch.DpState.silent` — the cursor, the flag `packet_done` and the history.

Main results:

* `PofSwitch.frame_instructionWork` — the work of an instruction is silent;
* `PofSwitch.frame_pofdpActionExecute` — **actions do not move the cursor into the instructions.**
-/

import PofSwitch.Instruction

set_option relaxedAutoImplicit false
set_option autoImplicit false

namespace PofSwitch

open Buf Prog

/-! ### The parts -/

/-- The cursor into the instructions, with what it depends on. -/
structure Cursor where
  flowEntry : Option EntryInfo
  ins : InsPtr
  insTodoNum : UInt8
  insDoneNum : UInt8
  tableIdMap : Hmap TableInfo

/-- The cursor of a state. -/
def DpState.cursor (s : DpState) : Cursor where
  flowEntry := s.dpp.flowEntry
  ins := s.dpp.ins
  insTodoNum := s.dpp.insTodoNum
  insDoneNum := s.dpp.insDoneNum
  tableIdMap := s.lr.tableIdMap

/-- The cursor, whether the packet is done, and what has become visible. -/
def DpState.silent (s : DpState) : Cursor × Bool × List DpEvent := (s.cursor, s.dpp.packetDone, s.trace)

/-- Silent work does not move the cursor. -/
theorem frame_cursor {α : Type} {m : Dp α} (h : Frame DpState.silent m) : Frame DpState.cursor m :=
  h.comp Prod.fst

/-! ### Primitive operations -/

theorem exec_failIf_pos {c : Prop} [Decidable c] (h : c) (type : ErrType) (code : ErrCode)
    (s : DpState) : exec (failIf c type code) s = (.error (.error ⟨type, code⟩), s) := by
  rw [failIf, check, if_pos h]
  rfl

theorem exec_failIf_neg {c : Prop} [Decidable c] (h : ¬ c) (type : ErrType) (code : ErrCode)
    (s : DpState) : exec (failIf c type code) s = (.ok (), s) := by
  rw [failIf, check, if_neg h]
  rfl

theorem exec_checkUndefined_pos {c : Prop} [Decidable c] (h : c) (s : DpState) :
    exec (check c .undefined : Dp Unit) s = (.error .undefined, s) := by
  rw [check, if_pos h]
  rfl

theorem exec_checkUndefined_neg {c : Prop} [Decidable c] (h : ¬ c) (s : DpState) :
    exec (check c .undefined : Dp Unit) s = (.ok (), s) := by
  rw [check, if_neg h]
  rfl

/-- What is stored through `buf_offset` is read back. -/
theorem DpPacket.window_setWindow {dpp : DpPacket} (h : dpp.bufOffset.toNat ≤ dpp.buf.length) (w : Buf) :
    (dpp.setWindow w).window = w := by
  refine List.drop_left' ?_
  rw [List.length_take, Nat.min_eq_left h]
  rfl

theorem DpPacket.setWindow_setWindow {dpp : DpPacket} (h : dpp.bufOffset.toNat ≤ dpp.buf.length)
    (w w' : Buf) : (dpp.setWindow w).setWindow w' = dpp.setWindow w' := by
  simp only [DpPacket.setWindow]
  rw [List.take_left' (by rw [List.length_take, Nat.min_eq_left h])]

theorem DpPacket.setWindow_window (dpp : DpPacket) : dpp.setWindow dpp.window = dpp := by
  rw [DpPacket.setWindow, DpPacket.window, List.take_append_drop]

theorem exec_coverWindow {value w : Buf} {posB lenB : UInt16} {s : DpState}
    (h : pofbfCoverBit s.dpp.window value posB lenB = some w) :
    exec (coverWindow value posB lenB) s = (.ok (), { s with dpp := s.dpp.setWindow w }) := by
  rw [coverWindow, exec_bind_ok exec_get, h, exec_bind_ok (exec_liftOption_some w _)]
  rfl

theorem exec_coverWindow_none {value : Buf} {posB lenB : UInt16} {s : DpState}
    (h : pofbfCoverBit s.dpp.window value posB lenB = none) :
    exec (coverWindow value posB lenB) s = (.error .hang, s) := by
  rw [coverWindow, exec_bind_ok exec_get, h]
  rfl

/-- Stores behind `buf`. -/
theorem exec_coverInBuf_undefined {value : Buf} {posB lenB : UInt16} {s : DpState}
    (h : (packetRawMaxLen : ℤ) ≤ s.dpp.bufOffset + lastStored posB lenB) :
    exec (coverInBuf value posB lenB) s = (.error .undefined, s) := by
  rw [coverInBuf, exec_bind_ok exec_get]
  exact exec_bind_error (exec_checkUndefined_pos h s)

/-- Stores inside `buf` are those of `pofbf_cover_bit`. -/
theorem exec_coverInBuf {value : Buf} {posB lenB : UInt16} {s : DpState}
    (h : s.dpp.bufOffset + lastStored posB lenB < packetRawMaxLen) :
    exec (coverInBuf value posB lenB) s = exec (coverWindow value posB lenB) s := by
  rw [coverInBuf, exec_bind_ok exec_get, exec_bind_ok (exec_checkUndefined_neg (Int.not_le.2 h) s)]

theorem exec_coverMetadata {value m : Buf} {posB lenB : UInt16} {s : DpState}
    (h : pofbfCoverBit s.dpp.metadata value posB lenB = some m) :
    exec (coverMetadata value posB lenB) s = (.ok (), { s with dpp := { s.dpp with metadata := m } }) := by
  rw [coverMetadata, exec_bind_ok exec_get, h, exec_bind_ok (exec_liftOption_some m _)]
  rfl

theorem frame_failIf {γ : Type} {part : DpState → γ} (c : Prop) [Decidable c] (type : ErrType)
    (code : ErrCode) : Frame part (failIf c type code) :=
  Frame.check c _

theorem frame_checkRetvalue {γ : Type} {part : DpState → γ} (ret : Ret) :
    Frame part (checkRetvalue ret) := by
  intro s
  rcases ret with e | u <;> rfl

/-- Increasing a counter writes to the counters only. -/
theorem poflrCounterIncreace_frame {β : Type} (part : LocalResource → β)
    (hpart : ∀ lr counters, part { lr with counterMap := counters } = part lr) {c : UInt32} {n : UInt16}
    {lr lr' : LocalResource} {ret : Ret} (h : poflrCounterIncreace c n lr = some (ret, lr')) :
    part lr' = part lr := by
  unfold poflrCounterIncreace at h
  split_ifs at h
  · cases h
    rfl
  · cases h
    rfl
  · obtain ⟨counter, _, heq⟩ := Option.map_eq_some_iff.1 h
    cases heq
    exact hpart _ _

theorem frame_counterIncreace (c : UInt32) (n : UInt16) : Frame DpState.silent (counterIncreace c n) := by
  intro s
  rw [counterIncreace, exec_bind_ok exec_get]
  cases hc : poflrCounterIncreace c n s.lr with
  | none => rfl
  | some x =>
      obtain ⟨ret, lr'⟩ := x
      have htables := poflrCounterIncreace_frame LocalResource.tableIdMap (fun _ _ => rfl) hc
      change DpState.silent { s with lr := lr' } = s.silent
      simp only [DpState.silent, DpState.cursor, htables]

theorem frame_setTable (ID : UInt8) : Frame DpState.silent (setTable ID) :=
  Frame.get_bind fun _ => (Frame.liftOption _ _).bind fun _ => Frame.modify fun _ => rfl

theorem frame_movePacketBufOffset (offset : ℤ) : Frame DpState.silent (movePacketBufOffset offset) :=
  Frame.get_bind fun _ => (frame_failIf _ _ _).bind fun _ => Frame.modify fun _ => rfl

theorem frame_coverWindow (value : Buf) (pos len : UInt16) :
    Frame DpState.silent (coverWindow value pos len) :=
  Frame.get_bind fun _ => (Frame.liftOption _ _).bind fun _ => Frame.modify fun _ => rfl

theorem frame_coverInBuf (value : Buf) (pos len : UInt16) : Frame DpState.silent (coverInBuf value pos len) :=
  Frame.get_bind fun _ => (Frame.check _ _).bind fun _ => frame_coverWindow _ _ _

theorem frame_coverMetadata (value : Buf) (pos len : UInt16) :
    Frame DpState.silent (coverMetadata value pos len) :=
  Frame.get_bind fun _ => (Frame.liftOption _ _).bind fun _ => Frame.modify fun _ => rfl

theorem frame_get32valueFromField {γ : Type} {part : DpState → γ} (pm : PofMatch) :
    Frame part (get32valueFromField pm) :=
  (frame_failIf _ _ _).bind fun _ => Frame.get_bind fun _ =>
    (Frame.liftOption _ _).bind fun _ => Frame.pure _

theorem frame_pofdpGet32value {γ : Type} {part : DpState → γ} (type : UInt8) (data : Buf) (p : ℕ) :
    Frame part (pofdpGet32value type data p) := by
  unfold pofdpGet32value
  split
  · exact Frame.pure _
  · exact frame_get32valueFromField _

theorem frame_pofdpWrite32valueToField (value : UInt32) (pm : PofMatch) :
    Frame DpState.silent (pofdpWrite32valueToField value pm) := by
  refine (frame_failIf _ _ _).bind fun _ => Frame.get_bind fun s => ?_
  split
  · exact (frame_failIf _ _ _).bind fun _ => frame_coverWindow _ _ _
  · exact (frame_failIf _ _ _).bind fun _ => frame_coverMetadata _ _ _

/-! ### Silent actions -/

theorem frame_insertTagToPacket (pos len : UInt32) (value : Buf) :
    Frame DpState.silent (insertTagToPacket pos len value) :=
  Frame.get_bind fun _ => (frame_failIf _ _ _).bind fun _ => (Frame.check _ _).bind fun _ =>
    (frame_coverInBuf _ _ _).bind fun _ => (frame_coverInBuf _ _ _).bind fun _ =>
      Frame.modify fun _ => rfl

theorem frame_setChecksumBuf (type : UInt8) (b : Buf) :
    Frame DpState.silent (modifyDpp (setChecksumBuf type b)) := by
  refine Frame.modify fun s => ?_
  unfold setChecksumBuf
  split <;> rfl

theorem frame_calChecksum (t₁ t₂ : UInt8) (calPos calLen csPos csLen : UInt16) :
    Frame DpState.silent (calChecksum t₁ t₂ calPos calLen csPos csLen) :=
  Frame.get_bind fun _ => (Frame.liftOption _ _).bind fun _ =>
    (frame_setChecksumBuf _ _).bind fun _ => Frame.get_bind fun _ =>
      (Frame.liftOption _ _).bind fun _ => (Frame.liftOption _ _).bind fun _ =>
        frame_setChecksumBuf _ _

theorem silent_setRelLen (s : DpState) (dpp : DpPacket) (n : ℤ) :
    DpState.silent { s with dpp := dpp.setRelLen n } = DpState.silent { s with dpp := dpp } := rfl

theorem silent_clearTail (s : DpState) (n : ℕ) (dpp : DpPacket) :
    DpState.silent { s with dpp := clearTail n dpp } = DpState.silent { s with dpp := dpp } := by
  unfold clearTail
  split <;> rfl

theorem silent_leftLen (s : DpState) (n : ℤ) :
    DpState.silent { s with dpp := { s.dpp with leftLen := n } } = s.silent := rfl

theorem frame_deleteFieldAction (data : Buf) : Frame DpState.silent (deleteFieldAction data) := by
  refine (frame_pofdpGet32value _ _ _).bind fun _ => Frame.get_bind fun _ =>
    (frame_failIf _ _ _).bind fun _ => (frame_coverWindow _ _ _).bind fun _ => Frame.modify fun s => ?_
  rw [silent_clearTail, silent_setRelLen, silent_leftLen]

/-- The action types whose work shows nothing outside and does not end the packet. -/
def ActionType.isSilent : ActionType → Bool
  | .output | .packetIn | .drop => false
  | _ => true

theorem frame_actionWork_silent (env : DpEnv) (data : Buf) {type : ActionType}
    (h : type.isSilent = true) : Frame DpState.silent (actionWork env data type) := by
  cases type with
  | output => cases h
  | packetIn => cases h
  | drop => cases h
  | setField => exact Frame.get_bind fun _ => (frame_failIf _ _ _).bind fun _ => frame_coverWindow _ _ _
  | setFieldFromMetadata =>
      exact Frame.get_bind fun _ => (frame_failIf _ _ _).bind fun _ => (Frame.check _ _).bind fun _ =>
        frame_coverWindow _ _ _
  | modifyField =>
      exact (frame_get32valueFromField _).bind fun _ => frame_pofdpWrite32valueToField _ _
  | addField => exact (frame_failIf _ _ _).bind fun _ => frame_insertTagToPacket _ _ _
  | deleteField => exact frame_deleteFieldAction data
  | calculateChecksum => exact (frame_failIf _ _ _).bind fun _ => frame_calChecksum _ _ _ _ _ _
  | counter => exact (frame_counterIncreace _ _).bind fun _ => frame_checkRetvalue _
  | experimenter => exact Frame.throw _
  | group => exact Frame.throw _

theorem frame_actionUpdate : Frame DpState.silent actionUpdate := by
  refine Frame.modify fun s => ?_
  dsimp only
  split <;> rfl

/-! ### Silent instructions -/

/-- **The work of an instruction is silent.** -/
theorem frame_instructionWork (data : Buf) (type : InstructionType) :
    Frame DpState.silent (instructionWork data type) := by
  cases type with
  | meter =>
      exact Frame.get_bind fun _ => (Frame.liftOption _ _).bind fun _ => Frame.modify fun _ => rfl
  | writeMetadata => exact frame_coverMetadata _ _ _
  | writeMetadataFromPacket =>
      exact Frame.get_bind fun _ => (frame_failIf _ _ _).bind fun _ => frame_coverMetadata _ _ _
  | calculateField =>
      exact (frame_get32valueFromField _).bind fun _ => (frame_pofdpGet32value _ _ _).bind fun _ =>
        (Frame.liftOption _ _).bind fun _ => frame_pofdpWrite32valueToField _ _
  | movePacketOffset =>
      refine (frame_pofdpGet32value _ _ _).bind fun _ => ?_
      split
      · exact frame_movePacketBufOffset _
      · exact frame_movePacketBufOffset _
  | gotoTable => exact Frame.throw _
  | writeActions => exact Frame.throw _
  | applyActions => exact Frame.throw _
  | clearActions => exact Frame.throw _
  | gotoDirectTable => exact Frame.throw _
  | conditionalJmp => exact Frame.throw _
  | experimenter => exact Frame.throw _

theorem frame_conditionalJmpTarget {γ : Type} {part : DpState → γ} (data : Buf) :
    Frame part (conditionalJmpTarget data) := by
  refine (frame_get32valueFromField _).bind fun _ => (frame_pofdpGet32value _ _ _).bind fun _ => ?_
  split
  · exact (frame_pofdpGet32value _ _ _).bind fun _ => Frame.pure _
  · split
    · exact (frame_pofdpGet32value _ _ _).bind fun _ => Frame.pure _
    · exact (frame_pofdpGet32value _ _ _).bind fun _ => Frame.pure _

/-! ### The cursor under actions -/

theorem frame_sendRaw (env : DpEnv) (lrPort : LocalResource) :
    Frame DpState.cursor (sendRaw env lrPort) :=
  Frame.get_bind fun _ => (Frame.liftOption _ _).bind fun _ => (frame_failIf _ _ _).bind fun _ =>
    Frame.modify fun _ => rfl

theorem frame_pofdpSendRaw (env : DpEnv) (lrPort : LocalResource) :
    Frame DpState.cursor (pofdpSendRaw env lrPort) := by
  refine Frame.bind (Frame.modify fun _ => rfl) fun _ => Frame.get_bind fun _ => ?_
  exact (frame_failIf _ _ _).bind fun _ => frame_sendRaw env lrPort

theorem frame_floodLoop (env : DpEnv) (lrPort : LocalResource) (ports : List PortInfo) :
    Frame DpState.cursor (floodLoop env lrPort ports) := by
  induction ports with
  | nil => exact Frame.pure _
  | cons port ports ih =>
      refine Frame.get_bind fun s => ?_
      split
      · refine Frame.bind (Frame.modify fun _ => rfl) fun _ => ?_
        exact (frame_pofdpSendRaw env lrPort).bind fun _ => ih
      · exact ih

theorem frame_outputAction (env : DpEnv) (data : Buf) : Frame DpState.cursor (outputAction env data) := by
  refine Frame.get_bind fun _ => (frame_failIf _ _ _).bind fun _ => (frame_failIf _ _ _).bind fun _ =>
    (frame_pofdpGet32value _ _ _).bind fun _ => ?_
  refine Frame.bind (Frame.modify fun _ => rfl) fun _ => (Frame.liftOption _ _).bind fun _ => ?_
  refine Frame.bind (Frame.modify fun _ => rfl) fun _ => ?_
  split
  · exact frame_floodLoop _ _ _
  · exact frame_pofdpSendRaw _ _

theorem frame_pofdpSendPacketInToController (env : DpEnv) (reason : UInt32) (ID : UInt8) :
    Frame DpState.cursor (pofdpSendPacketInToController env reason ID) := by
  refine Frame.get_bind fun _ => (frame_failIf _ _ _).bind fun _ => ?_
  split
  · exact Frame.modify fun _ => rfl
  · exact Frame.pure _
  · exact Frame.throw _

theorem frame_pofdpEntryNomatch (env : DpEnv) : Frame DpState.cursor (pofdpEntryNomatch env) := by
  unfold pofdpEntryNomatch
  split
  · exact Frame.get_bind fun _ => frame_pofdpSendPacketInToController _ _ _
  · exact Frame.pure _

theorem frame_actionWork (env : DpEnv) (data : Buf) (type : ActionType) :
    Frame DpState.cursor (actionWork env data type) := by
  cases hs : type.isSilent with
  | true => exact frame_cursor (frame_actionWork_silent env data hs)
  | false =>
      cases type with
      | output => exact frame_outputAction env data
      | packetIn => exact Frame.get_bind fun _ => frame_pofdpSendPacketInToController _ _ _
      | drop => exact Frame.bind (Frame.modify fun _ => rfl) fun _ => Frame.modify fun _ => rfl
      | _ => cases hs

theorem frame_executeAction (env : DpEnv) {again : Dp Unit} (h : Frame DpState.cursor again)
    (action : PofAction) : Frame DpState.cursor (executeAction env again action) := by
  unfold executeAction
  split
  · exact Frame.throw _
  · refine Frame.get_bind fun _ => (Frame.liftOption _ _).bind fun _ =>
      (frame_cursor (frame_counterIncreace _ _)).bind fun _ => (frame_checkRetvalue _).bind fun _ => ?_
    exact Frame.bind (Frame.modify fun _ => rfl) fun _ => h
  · exact (frame_actionWork _ _ _).bind fun _ => frame_cursor frame_actionUpdate

theorem frame_logged {m : Dp Unit} (h : Frame DpState.cursor m) : Frame DpState.cursor (logged m) := by
  refine h.onError fun e s => ?_
  cases e <;> rfl

/-- **Actions do not move the cursor into the instructions.** -/
theorem frame_pofdpActionExecute (env : DpEnv) (fuel : ℕ) :
    Frame DpState.cursor (pofdpActionExecute env fuel) := by
  induction fuel with
  | zero => exact Frame.throw _
  | succ fuel ih =>
      refine Frame.get_bind fun s => ?_
      split
      · refine Frame.bind ?_ fun _ => ih
        exact Frame.get_bind fun _ => (Frame.liftOption _ _).bind fun _ =>
          frame_logged (frame_executeAction env ih _)
      · exact Frame.pure _

end PofSwitch
