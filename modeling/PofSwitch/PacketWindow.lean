/-
**The window on the packet.**

`offset`, `buf_offset` and `left_len` say which bytes of the buffer instructions and actions work on.
`movePacketBufOffset` moves the window and changes all three; `ADD_FIELD` and `DELETE_FIELD` change
its length; nothing else touches it.  Most of the work touches neither the metadata nor the local
resource, and this is stated together with it, as a frame.

A move is refused when it leads behind the packet or more than `POFDP_PACKET_PREBUF_LEN` bytes in
front of it.  Within these limits nothing is cut to a width, so `offset + left_len` stays what it
was.

Main definitions:

* `PofSwitch.DpState.extent`, `PofSwitch.DpState.held` — the window; the window with the metadata and
  the local resource;
* `PofSwitch.WindowOk` — where the window may be;
* `PofSwitch.OnlyMoves` — the current instruction goes to a table or moves the window.

Main results:

* `PofSwitch.held_actionWork`, `PofSwitch.extent_actionWork`, `PofSwitch.extent_instructionWork` —
  what leaves the window alone;
* `PofSwitch.windowOk_movePacketBufOffset` — a move keeps the window where it may be;
* `PofSwitch.windowOk_of_run` — **so does every run of moves and table lookups.**
-/

import PofSwitch.DatapathRun
import PofSwitch.LrRun

set_option relaxedAutoImplicit false
set_option autoImplicit false

namespace PofSwitch

open Buf Prog

/-! ### Frames -/

/-- A window. -/
structure Extent where
  offset : ℤ
  bufOffset : ℤ
  leftLen : ℤ
deriving DecidableEq

/-- The window of a state. -/
def DpState.extent (s : DpState) : Extent := ⟨s.dpp.offset, s.dpp.bufOffset, s.dpp.leftLen⟩

/-- The window, the metadata and the local resource. -/
def DpState.held (s : DpState) : Extent × Buf × LocalResource :=
  (s.extent, s.dpp.metadata, s.lr)

section Held

variable {α : Type} {m : Dp α}

theorem Frame.extent_of_held (h : Frame DpState.held m) : Frame DpState.extent m := h.comp Prod.fst

theorem Frame.lr_of_held (h : Frame DpState.held m) : Frame DpState.lr m := h.comp fun x => x.2.2

end Held

theorem held_setTable (ID : UInt8) : Frame DpState.held (setTable ID) :=
  Frame.get_bind fun _ => (Frame.liftOption _ _).bind fun _ => Frame.modify fun _ => rfl

theorem held_coverWindow (value : Buf) (pos len : UInt16) :
    Frame DpState.held (coverWindow value pos len) :=
  Frame.get_bind fun _ => (Frame.liftOption _ _).bind fun _ => Frame.modify fun _ => rfl

theorem held_coverInBuf (value : Buf) (pos len : UInt16) : Frame DpState.held (coverInBuf value pos len) :=
  Frame.get_bind fun _ => (Frame.check _ _).bind fun _ => held_coverWindow _ _ _

theorem held_pofdpSendRaw (env : DpEnv) (lrPort : LocalResource) :
    Frame DpState.held (pofdpSendRaw env lrPort) := by
  refine Frame.bind (Frame.modify fun _ => rfl) fun _ => Frame.get_bind fun _ => ?_
  refine (frame_failIf _ _ _).bind fun _ => Frame.get_bind fun _ => ?_
  exact (Frame.liftOption _ _).bind fun _ => (frame_failIf _ _ _).bind fun _ =>
    Frame.modify fun _ => rfl

theorem held_floodLoop (env : DpEnv) (lrPort : LocalResource) (ports : List PortInfo) :
    Frame DpState.held (floodLoop env lrPort ports) := by
  induction ports with
  | nil => exact Frame.pure _
  | cons port ports ih =>
      refine Frame.get_bind fun s => ?_
      split
      · refine Frame.bind (Frame.modify fun _ => rfl) fun _ => ?_
        exact (held_pofdpSendRaw env lrPort).bind fun _ => ih
      · exact ih

theorem held_outputAction (env : DpEnv) (data : Buf) : Frame DpState.held (outputAction env data) := by
  refine Frame.get_bind fun _ => (frame_failIf _ _ _).bind fun _ => (frame_failIf _ _ _).bind fun _ =>
    (frame_pofdpGet32value _ _ _).bind fun _ => ?_
  refine Frame.bind (Frame.modify fun _ => rfl) fun _ => (Frame.liftOption _ _).bind fun _ => ?_
  refine Frame.bind (Frame.modify fun _ => rfl) fun _ => ?_
  split
  · exact held_floodLoop _ _ _
  · exact held_pofdpSendRaw _ _

theorem held_pofdpSendPacketInToController (env : DpEnv) (reason : UInt32) (ID : UInt8) :
    Frame DpState.held (pofdpSendPacketInToController env reason ID) := by
  refine Frame.get_bind fun _ => (frame_failIf _ _ _).bind fun _ => ?_
  split
  · exact Frame.modify fun _ => rfl
  · exact Frame.pure _
  · exact Frame.throw _

theorem held_pofdpEntryNomatch (env : DpEnv) : Frame DpState.held (pofdpEntryNomatch env) := by
  unfold pofdpEntryNomatch
  split
  · exact Frame.get_bind fun _ => held_pofdpSendPacketInToController _ _ _
  · exact Frame.pure _

theorem held_actionUpdate : Frame DpState.held actionUpdate := by
  refine Frame.modify fun s => ?_
  dsimp only
  split <;> rfl

theorem held_instructionUpdate : Frame DpState.held instructionUpdate := by
  refine Frame.modify fun s => ?_
  dsimp only [nextInstruction]
  split <;> rfl

theorem held_executeConditionalJmp (data : Buf) : Frame DpState.held (executeConditionalJmp data) := by
  refine (frame_conditionalJmpTarget data).bind fun _ => Frame.get_bind fun _ => ?_
  split
  · exact (frame_failIf _ _ _).bind fun _ => Frame.modify fun _ => rfl
  · exact (frame_failIf _ _ _).bind fun _ => Frame.modify fun _ => rfl

/-- The action types that leave the window, the metadata and the local resource alone. -/
def ActionType.holds : ActionType → Bool
  | .addField | .deleteField | .modifyField | .calculateChecksum | .counter => false
  | _ => true

/-- **The work of most actions leaves the window, the metadata and the local resource alone.** -/
theorem held_actionWork (env : DpEnv) (data : Buf) {type : ActionType} (h : type.holds = true) :
    Frame DpState.held (actionWork env data type) := by
  cases type with
  | output => exact held_outputAction env data
  | setField => exact Frame.get_bind fun _ => (frame_failIf _ _ _).bind fun _ => held_coverWindow _ _ _
  | setFieldFromMetadata =>
      exact Frame.get_bind fun _ => (frame_failIf _ _ _).bind fun _ => (Frame.check _ _).bind fun _ =>
        held_coverWindow _ _ _
  | drop => exact Frame.bind (Frame.modify fun _ => rfl) fun _ => Frame.modify fun _ => rfl
  | packetIn => exact Frame.get_bind fun _ => held_pofdpSendPacketInToController _ _ _
  | experimenter => exact Frame.throw _
  | group => exact Frame.throw _
  | _ => cases h

/-! ### What touches the metadata or a counter -/

theorem body_counterIncreace (c : UInt32) (n : UInt16) :
    Frame (fun s : DpState => (s.extent, s.dpp.metadata)) (counterIncreace c n) :=
  Frame.get_bind fun _ => (Frame.liftOption _ _).bind fun _ =>
    Frame.bind (Frame.modify fun _ => rfl) fun _ => Frame.pure _

theorem extent_coverMetadata (value : Buf) (pos len : UInt16) :
    Frame (fun s => (s.extent, s.lr)) (coverMetadata value pos len) :=
  Frame.get_bind fun _ => (Frame.liftOption _ _).bind fun _ => Frame.modify fun _ => rfl

theorem extent_pofdpWrite32valueToField (value : UInt32) (pm : PofMatch) :
    Frame (fun s => (s.extent, s.lr)) (pofdpWrite32valueToField value pm) := by
  refine (frame_failIf _ _ _).bind fun _ => Frame.get_bind fun s => ?_
  split
  · exact (frame_failIf _ _ _).bind fun _ => (held_coverWindow _ _ _).comp fun x => (x.1, x.2.2)
  · exact (frame_failIf _ _ _).bind fun _ => extent_coverMetadata _ _ _

theorem extent_setChecksumBuf (type : UInt8) (b : Buf) :
    Frame (fun s => (s.extent, s.lr)) (modifyDpp (setChecksumBuf type b)) := by
  refine Frame.modify fun s => ?_
  unfold setChecksumBuf
  split <;> rfl

theorem extent_calChecksum (t₁ t₂ : UInt8) (calPos calLen csPos csLen : UInt16) :
    Frame (fun s => (s.extent, s.lr)) (calChecksum t₁ t₂ calPos calLen csPos csLen) :=
  Frame.get_bind fun _ => (Frame.liftOption _ _).bind fun _ =>
    (extent_setChecksumBuf _ _).bind fun _ => Frame.get_bind fun _ =>
      (Frame.liftOption _ _).bind fun _ => (Frame.liftOption _ _).bind fun _ =>
        extent_setChecksumBuf _ _

/-- **Only `ADD_FIELD` and `DELETE_FIELD` change the length of the window, and no action moves it.** -/
theorem extent_actionWork (env : DpEnv) (data : Buf) {type : ActionType} (hadd : type ≠ .addField)
    (hdelete : type ≠ .deleteField) : Frame DpState.extent (actionWork env data type) := by
  cases hholds : type.holds with
  | true => exact Frame.extent_of_held (held_actionWork env data hholds)
  | false =>
      cases type with
      | addField => exact absurd rfl hadd
      | deleteField => exact absurd rfl hdelete
      | modifyField =>
          exact (frame_get32valueFromField _).bind fun _ =>
            (extent_pofdpWrite32valueToField _ _).comp Prod.fst
      | calculateChecksum =>
          exact (frame_failIf _ _ _).bind fun _ => (extent_calChecksum _ _ _ _ _ _).comp Prod.fst
      | counter =>
          exact ((body_counterIncreace _ _).comp Prod.fst).bind fun _ => frame_checkRetvalue _
      | _ => cases hholds

/-- **Only `COUNTER` changes the local resource.** -/
theorem lr_actionWork (env : DpEnv) (data : Buf) {type : ActionType} (h : type ≠ .counter) :
    Frame DpState.lr (actionWork env data type) := by
  cases hholds : type.holds with
  | true => exact Frame.lr_of_held (held_actionWork env data hholds)
  | false =>
      cases type with
      | addField =>
          exact (frame_failIf _ _ _).bind fun _ => Frame.get_bind fun _ =>
            (frame_failIf _ _ _).bind fun _ => (Frame.check _ _).bind fun _ =>
              (Frame.lr_of_held (held_coverInBuf _ _ _)).bind fun _ =>
                (Frame.lr_of_held (held_coverInBuf _ _ _)).bind fun _ => Frame.modify fun _ => rfl
      | deleteField =>
          exact (frame_pofdpGet32value _ _ _).bind fun _ => Frame.get_bind fun _ =>
            (frame_failIf _ _ _).bind fun _ => (Frame.lr_of_held (held_coverWindow _ _ _)).bind fun _ =>
              Frame.modify fun _ => rfl
      | modifyField =>
          exact (frame_get32valueFromField _).bind fun _ =>
            (extent_pofdpWrite32valueToField _ _).comp Prod.snd
      | calculateChecksum =>
          exact (frame_failIf _ _ _).bind fun _ => (extent_calChecksum _ _ _ _ _ _).comp Prod.snd
      | counter => exact absurd rfl h
      | _ => cases hholds

/-- **Of the instructions that stay in their entry only `MOVE_PACKET_OFFSET` touches the window.** -/
theorem extent_instructionWork (data : Buf) {type : InstructionType} (h : type ≠ .movePacketOffset) :
    Frame DpState.extent (instructionWork data type) := by
  cases type with
  | meter =>
      exact Frame.get_bind fun _ => (Frame.liftOption _ _).bind fun _ => Frame.modify fun _ => rfl
  | writeMetadata => exact (extent_coverMetadata _ _ _).comp Prod.fst
  | writeMetadataFromPacket =>
      exact Frame.get_bind fun _ => (frame_failIf _ _ _).bind fun _ =>
        (extent_coverMetadata _ _ _).comp Prod.fst
  | calculateField =>
      exact (frame_get32valueFromField _).bind fun _ => (frame_pofdpGet32value _ _ _).bind fun _ =>
        (Frame.liftOption _ _).bind fun _ => (extent_pofdpWrite32valueToField _ _).comp Prod.fst
  | movePacketOffset => exact absurd rfl h
  | gotoTable => exact Frame.throw _
  | writeActions => exact Frame.throw _
  | applyActions => exact Frame.throw _
  | clearActions => exact Frame.throw _
  | gotoDirectTable => exact Frame.throw _
  | conditionalJmp => exact Frame.throw _
  | experimenter => exact Frame.throw _

/-! ### Moves -/

theorem toInt16_of_range {x : ℤ} (h₁ : -2 ^ 15 ≤ x) (h₂ : x < 2 ^ 15) : toInt16 x = x :=
  Int.bmod_eq_of_le (by omega) (by omega)

theorem toInt32_of_range {x : ℤ} (h₁ : -2 ^ 31 ≤ x) (h₂ : x < 2 ^ 31) : toInt32 x = x :=
  Int.bmod_eq_of_le (by omega) (by omega)

/-- Where the window on a packet of `n` bytes may be. -/
structure WindowOk (n : ℤ) (w : Extent) : Prop where
  place : w.bufOffset = packetPrebufLen + w.offset
  front : -packetPrebufLen ≤ w.offset
  left : 0 ≤ w.leftLen
  sum : w.offset + w.leftLen = n

/-- A move that is refused changes nothing. -/
theorem movePacketBufOffset_error {d : ℤ} {s t : DpState} {h : Halt}
    (hr : exec (movePacketBufOffset d) s = (.error h, t)) : t = s := by
  rw [movePacketBufOffset, exec_bind_ok exec_get] at hr
  simp only [failIf, check] at hr
  split_ifs at hr
  · cases hr
    rfl
  · cases hr

/-- **A move keeps the window where it may be.**  Its two checks are what keeps the sums within the
widths of the fields. -/
theorem windowOk_move {n d : ℤ} {s t : DpState} {r : Except Halt Unit} (hn : n < 2 ^ 15)
    (hs : WindowOk n s.extent) (hr : exec (movePacketBufOffset d) s = (r, t)) :
    WindowOk n t.extent := by
  cases r with
  | error h =>
      rw [movePacketBufOffset_error hr]
      exact hs
  | ok u =>
      rw [movePacketBufOffset, exec_bind_ok exec_get] at hr
      simp only [failIf, check] at hr
      split_ifs at hr with hrange
      · cases hr
      · cases hr
        obtain ⟨hplace, hfront, hleft, hsum⟩ := hs
        simp only [DpState.extent, packetPrebufLen] at hplace hfront hleft hsum hrange
        have hoffset : toInt16 (s.dpp.offset + d) = s.dpp.offset + d :=
          toInt16_of_range (by omega) (by omega)
        have hlen : toInt32 (s.dpp.leftLen - d) = s.dpp.leftLen - d :=
          toInt32_of_range (by omega) (by omega)
        refine ⟨?_, ?_, ?_, ?_⟩ <;> simp only [DpState.extent, packetPrebufLen, hoffset, hlen] <;> omega

/-! ### Properties of the window and the metadata -/

/-- The window and the metadata. -/
def DpState.body (s : DpState) : Extent × Buf := (s.extent, s.dpp.metadata)

/-- However the computation ends, the window and the metadata have the property they had before. -/
def Keeps {α : Type} (K : Extent × Buf → Prop) (m : Dp α) : Prop :=
  Meets (fun s => K s.body) m (fun _ s => K s.body) fun _ s => K s.body

section Keeps

variable {α β : Type} {K : Extent × Buf → Prop} {m : Dp α} {f : α → Dp β}

theorem Frame.body_of_held (h : Frame DpState.held m) : Frame DpState.body m :=
  h.comp fun x => (x.1, x.2.1)

theorem Keeps.of_frame (h : Frame DpState.body m) : Keeps K m :=
  Meets.of_frame h (K := K) (fun _ hs => hs) (fun _ _ hs => hs) fun _ _ hs => hs

theorem Keeps.of_held (h : Frame DpState.held m) : Keeps K m := Keeps.of_frame (Frame.body_of_held h)

theorem Keeps.bind (hm : Keeps K m) (hf : ∀ a, Keeps K (f a)) : Keeps K (m >>= f) := Meets.bind hm hf

theorem Keeps.get_bind {g : DpState → Dp β} (h : ∀ s, Keeps K (g s)) : Keeps K (get >>= g) :=
  Keeps.bind (Keeps.of_frame Frame.get) h

theorem keeps_iff : Keeps K m ↔ ∀ s r t, K s.body → exec m s = (r, t) → K t.body := by
  constructor
  · intro h s r t hs hr
    cases r with
    | error e => exact h.error hs hr
    | ok a => exact h.ok hs hr
  · intro h
    exact ⟨fun hs hr => h _ _ _ hs hr, fun hs hr => h _ _ _ hs hr⟩

theorem Keeps.after (h : Keeps K m) {s : DpState} (hs : K s.body) : K (exec m s).2.body :=
  keeps_iff.1 h s _ _ hs rfl

/-- A property of the window alone. -/
theorem Keeps.of_extent {L : Extent → Prop} (h : Frame DpState.extent m) :
    Keeps (fun x => L x.1) m :=
  Meets.of_frame h (K := L) (fun _ hs => hs) (fun _ _ hs => hs) fun _ _ hs => hs

end Keeps

/-- The instructions that write the metadata. -/
def InstructionType.writes : InstructionType → Bool
  | .writeMetadata | .writeMetadataFromPacket | .calculateField => true
  | _ => false

section Instructions

variable {K : Extent × Buf → Prop} (hmove : ∀ d, Keeps K (movePacketBufOffset d))
include hmove

theorem keeps_executeGotoTable (env : DpEnv) (data : Buf) : Keeps K (executeGotoTable env data) := by
  refine (hmove _).bind fun _ => Keeps.of_frame ?_
  refine (Frame.body_of_held (held_setTable _)).bind fun _ => Frame.get_bind fun s => ?_
  refine (Frame.liftOption _ _).bind fun _ => (Frame.liftOption _ _).bind fun _ =>
    (Frame.liftOption _ _).bind fun found => ?_
  refine Frame.bind (Frame.modify fun _ => rfl) fun _ => ?_
  cases found with
  | none =>
      refine Frame.bind (fun s => ?_) fun _ =>
        Frame.bind (Frame.modify fun _ => rfl) fun _ => Frame.modify fun _ => rfl
      have hframe := Frame.body_of_held (held_pofdpEntryNomatch env) s
      rw [exec_onError]
      rcases hr : exec (pofdpEntryNomatch env) s with ⟨e | u, t⟩
      · rw [hr] at hframe
        exact hframe
      · rw [hr] at hframe
        exact hframe
  | some entry =>
      refine (body_counterIncreace _ _).bind fun ret => ?_
      exact Frame.bind (Frame.modify fun _ => rfl) fun _ => frame_checkRetvalue ret

theorem keeps_executeGotoDirectTable (data : Buf) : Keeps K (executeGotoDirectTable data) := by
  refine (hmove _).bind fun _ => Keeps.of_frame ?_
  refine (Frame.body_of_held (held_setTable _)).bind fun _ =>
    (frame_pofdpGet32value _ _ _).bind fun _ => Frame.get_bind fun s => ?_
  refine (Frame.liftOption _ _).bind fun _ => (frame_failIf _ _ _).bind fun _ => ?_
  refine Frame.bind (Frame.modify fun _ => rfl) fun _ => (Frame.liftOption _ _).bind fun _ => ?_
  exact (body_counterIncreace _ _).bind fun ret =>
    (frame_checkRetvalue ret).bind fun _ => Frame.modify fun _ => rfl

/-- The work of an instruction that does not write the metadata. -/
theorem keeps_instructionWork (data : Buf) {type : InstructionType} (h : type.writes = false) :
    Keeps K (instructionWork data type) := by
  cases type with
  | meter =>
      exact Keeps.of_frame (Frame.get_bind fun _ => (Frame.liftOption _ _).bind fun _ =>
        Frame.modify fun _ => rfl)
  | movePacketOffset =>
      refine (Keeps.of_frame (frame_pofdpGet32value _ _ _)).bind fun _ => ?_
      split
      · exact hmove _
      · exact hmove _
  | gotoTable => exact Keeps.of_frame (Frame.throw _)
  | writeActions => exact Keeps.of_frame (Frame.throw _)
  | applyActions => exact Keeps.of_frame (Frame.throw _)
  | clearActions => exact Keeps.of_frame (Frame.throw _)
  | gotoDirectTable => exact Keeps.of_frame (Frame.throw _)
  | conditionalJmp => exact Keeps.of_frame (Frame.throw _)
  | experimenter => exact Keeps.of_frame (Frame.throw _)
  | _ => cases h

/-- **One turn of the loop over instructions**, when the current instruction keeps the property if
it is one that writes the metadata. -/
theorem keeps_dpTurn_ins (env : DpEnv) {s t : DpState} {r : Except Halt DpLoop} (hs : K s.body)
    (hwrite : ∀ ins type, s.dpp.ins.read = some ins →
      InstructionType.ofCode ins.type.toNat = some type → type.writes = true →
      Keeps K (instructionWork ins.instructionData type))
    (hr : exec (dpTurn env .ins) s = (r, t)) : K t.body := by
  cases hread : s.dpp.ins.read with
  | none =>
      rw [exec_dpTurn_ins_none hread] at hr
      cases hr
      exact hs
  | some ins =>
      by_cases htype : InstructionType.ofCode ins.type.toNat = some .applyActions
      · rw [exec_dpTurn_apply env hread htype] at hr
        cases hr
        exact hs
      · rw [exec_dpTurn_ins env hread htype] at hr
        refine keeps_iff.1 ?_ s r t hs hr
        refine Keeps.bind ?_ fun _ => Keeps.of_frame (Frame.pure _)
        unfold executeInstruction
        split
        next => exact Keeps.of_frame (Frame.throw _)
        next => exact keeps_executeGotoTable hmove env _
        next => exact keeps_executeGotoDirectTable hmove _
        next hcode => exact absurd hcode htype
        next => exact Keeps.of_held (held_executeConditionalJmp _)
        next type _ _ _ _ hcode =>
          refine Keeps.bind ?_ fun _ => Keeps.of_held held_instructionUpdate
          cases hwrites : type.writes with
          | true => exact hwrite ins type hread hcode hwrites
          | false => exact keeps_instructionWork hmove _ hwrites

end Instructions

/-- The actions that change the length of the packet or write the metadata. -/
def ActionType.edits : ActionType → Bool
  | .addField | .deleteField | .modifyField | .calculateChecksum => true
  | _ => false

/-- **One turn of a loop over actions**, when the current action keeps the property if it is one that
changes the length of the packet or writes the metadata. -/
theorem keeps_dpTurn_act {K : Extent × Buf → Prop} (env : DpEnv) {s t : DpState}
    {r : Except Halt DpLoop} (hs : K s.body)
    (hedit : ∀ action type r u, s.HasAction → s.dpp.act.head? = some action →
      ActionType.ofCode action.type.toNat = some type → type.edits = true →
      exec (actionWork env action.actionData type) s = (r, u) → K u.body)
    (hr : exec (dpTurn env .act) s = (r, t)) : K t.body := by
  by_cases hhas : s.HasAction
  · rw [exec_dpTurn_act env hhas, exec_bind] at hr
    have hturn : K (exec (actTurn env) s).2.body := by
      cases ha : s.dpp.act.head? with
      | none =>
          rw [exec_actTurn_none ha]
          exact hs
      | some action =>
          rw [exec_actTurn ha]
          unfold executeAction
          split
          next => exact hs
          next =>
            refine Keeps.after (Keeps.of_frame ?_) hs
            refine Frame.get_bind fun _ => (Frame.liftOption _ _).bind fun _ =>
              (body_counterIncreace _ _).bind fun _ => (frame_checkRetvalue _).bind fun _ => ?_
            exact Frame.bind (Frame.modify fun _ => rfl) fun _ => Frame.pure _
          next type _ hcode =>
            have hwork : K (exec (actionWork env action.actionData type) s).2.body := by
              cases hedits : type.edits with
              | true => exact hedit action type _ _ hhas ha hcode hedits rfl
              | false =>
                  refine Keeps.after ?_ hs
                  cases type with
                  | counter =>
                      exact Keeps.of_frame ((body_counterIncreace _ _).bind fun _ =>
                        frame_checkRetvalue _)
                  | addField => cases hedits
                  | deleteField => cases hedits
                  | modifyField => cases hedits
                  | calculateChecksum => cases hedits
                  | _ => exact Keeps.of_held (held_actionWork env _ rfl)
            rw [exec_bind]
            rcases hw : exec (actionWork env action.actionData type) s with ⟨e | u, v⟩
            · rw [hw] at hwork
              exact hwork
            · rw [hw] at hwork
              exact (Keeps.of_held held_actionUpdate).after hwork
    rcases ht : exec (actTurn env) s with ⟨e | u, v⟩
    · rw [ht] at hr hturn
      cases hr
      exact hturn
    · rw [ht] at hr hturn
      cases hr
      exact hturn
  · rw [exec_dpTurn_act_done hhas] at hr
    cases hr
    exact (Keeps.of_held held_instructionUpdate).after hs

/-! ### Runs -/

/-- The current instruction goes to a table or moves the window. -/
def OnlyMoves (l : DpLoop) (s : DpState) : Prop :=
  l = .ins ∧ ∀ ins ∈ s.dpp.ins.read, InstructionType.ofCode ins.type.toNat ∈
    [some .gotoTable, some .gotoDirectTable, some .movePacketOffset]

instance (l : DpLoop) (s : DpState) : Decidable (OnlyMoves l s) :=
  inferInstanceAs (Decidable (_ ∧ _))

theorem windowOk_pofdpForward (portId : UInt8) (packet : Buf) (lr : LocalResource) :
    WindowOk packet.length (pofdpForward portId packet lr).extent := by
  refine ⟨?_, ?_, ?_, ?_⟩
  · exact (add_zero _).symm
  · exact Int.neg_nonpos_of_nonneg (Int.natCast_nonneg _)
  · exact Int.natCast_nonneg _
  · exact zero_add _

/-- **In every run of `GOTO_TABLE`, `GOTO_DIRECT_TABLE` and `MOVE_PACKET_OFFSET` the three fields of
the window agree, the window starts at most `POFDP_PACKET_PREBUF_LEN` bytes in front of the packet,
it ends where the packet ends, and its length is not negative** — between instructions and after one
that returns an error.  A move that is refused leaves the window alone. -/
theorem windowOk_of_run {env : DpEnv} {portId : UInt8} {packet : Buf} {lr : LocalResource}
    {l : DpLoop} {s : DpState} (hlen : packet.length ≤ mtuLength)
    (hrun : DpRun OnlyMoves env (pofdpForward portId packet lr) l s) :
    WindowOk packet.length s.extent ∧
      (∀ r t, OnlyMoves l s → exec (dpTurn env l) s = (r, t) → WindowOk packet.length t.extent) ∧
      ∀ d h t, exec (movePacketBufOffset d) s = (.error h, t) → t.extent = s.extent := by
  have hn : (packet.length : ℤ) < 2 ^ 15 := by
    rw [mtuLength] at hlen
    omega
  have hmove : ∀ d, Keeps (fun x => WindowOk packet.length x.1) (movePacketBufOffset d) :=
    fun d => keeps_iff.2 fun s r t hs hr => windowOk_move hn hs hr
  have hturn : ∀ l s r t, OnlyMoves l s → WindowOk packet.length s.extent →
      exec (dpTurn env l) s = (r, t) → WindowOk packet.length t.extent := by
    intro l s r t hmoves hs hexec
    rw [hmoves.1] at hexec
    refine keeps_dpTurn_ins hmove env hs (fun ins type hread hcode hwrites => ?_) hexec
    exact Keeps.of_extent (extent_instructionWork _ fun hmv => by rw [hmv] at hwrites; cases hwrites)
  have hs : WindowOk packet.length s.extent :=
    DpRun.induction (windowOk_pofdpForward portId packet lr)
      (fun l s l' s' hC hs hexec => hturn l s _ s' hC hs hexec) hrun
  refine ⟨hs, fun r t hmoves hexec => hturn l s r t hmoves hs hexec, fun d h t hexec => ?_⟩
  rw [movePacketBufOffset_error hexec]

/-- A `MOVE_PACKET_OFFSET` backward by `n` bytes. -/
def moveBack (n : UInt8) : PofInstruction where
  type := 11
  len := 16
  instructionData := [1, 0, 0, 0, 0, 0, 0, 0, n] ++ Buf.zeros 287

/-- A packet of three bytes for which the first table has such a move. -/
def movedState : DpState := pofdpForward 1 [7, 8, 9] (matchAll 1 (List.replicate 6 (moveBack 5)))

/-- A move of five bytes into the head room. -/
theorem windowOk_of_run_back : ∃ l s, DpRun OnlyMoves openEnv movedState l s ∧
    s.extent = ⟨-5, 123, 8⟩ ∧ WindowOk 3 s.extent := by
  obtain ⟨l, s, hrun, hextent⟩ := exists_dpRun (C := OnlyMoves) (P := fun _ s => s.extent = ⟨-5, 123, 8⟩)
    openEnv movedState 2 (by decide +kernel)
  exact ⟨l, s, hrun, hextent, (windowOk_of_run (by decide) hrun).1⟩

end PofSwitch
