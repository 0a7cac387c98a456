/-
**Nothing leaves the switch for a packet that has been given up.**

A packet is given up when a `DROP` action has been executed, when a table miss has been handled, or
when an instruction or an action has returned an error.  The first two are signalled by the flag
`packet_done` and the third by return codes, through three interpreters that call each other: the
loop over instructions, the loop over actions, and the call of the latter from a `GROUP` action.

The history of a packet records the frames and messages sent and the events that give it up.  While
nothing has given the packet up, an instruction or action may send; when it returns `POF_OK` with the
flag not set, the packet has still not been given up.

Main definitions:

* `PofSwitch.DpEvent.Emits`, `PofSwitch.DpEvent.Stops` — the two kinds of events;
* `PofSwitch.Ordered`, `PofSwitch.Going` — nothing is emitted after the packet has been given up; it
  has not been given up;
* `PofSwitch.Tame` — the specification that every handler meets.

Main results:

* `PofSwitch.tame_executeAction`, `PofSwitch.tame_executeInstruction` — one action, one instruction;
* `PofSwitch.tame_pofdpActionExecute`, `PofSwitch.tame_pofdpInstructionExecute` — the loops;
* `PofSwitch.nothing_emitted_after_stop` — **no frame and no packet-in follows a drop, a miss or an
  error.**
-/

import PofSwitch.DatapathFrame
import PofSwitch.LrRun

set_option relaxedAutoImplicit false
set_option autoImplicit false

namespace PofSwitch

open Buf Prog

/-! ### Histories -/

/-- A frame or a packet-in. -/
def DpEvent.Emits : DpEvent → Prop
  | .output .. | .packetIn .. => True
  | .dropped | .missed | .failed _ => False

/-- The packet is given up. -/
def DpEvent.Stops : DpEvent → Prop
  | .output .. | .packetIn .. => False
  | .dropped | .missed | .failed _ => True

theorem DpEvent.not_emits {ev : DpEvent} (h : ev.Stops) : ¬ ev.Emits := by
  cases ev with
  | output => exact h.elim
  | packetIn => exact h.elim
  | dropped => exact id
  | missed => exact id
  | failed => exact id

/-- Nothing is emitted after the packet has been given up. -/
def Ordered (trace : List DpEvent) : Prop := trace.Pairwise fun ev later => ev.Stops → ¬ later.Emits

/-- The packet has not been given up. -/
def Going (trace : List DpEvent) : Prop := ∀ ev ∈ trace, ¬ ev.Stops

section Trace

variable {trace : List DpEvent} {ev : DpEvent}

theorem Going.ordered (h : Going trace) : Ordered trace :=
  List.pairwise_of_forall_mem_list fun x hx _ _ hstop => absurd hstop (h x hx)

theorem Going.append (h : Going trace) (hev : ¬ ev.Stops) : Going (trace ++ [ev]) := by
  intro x hx
  rcases List.mem_append.1 hx with hx | hx
  · exact h x hx
  · rw [List.mem_singleton.1 hx]
    exact hev

/-- Giving the packet up keeps the order. -/
theorem Ordered.append (h : Ordered trace) (hev : ev.Stops) : Ordered (trace ++ [ev]) := by
  refine List.pairwise_append.2 ⟨h, List.pairwise_singleton _ _, fun x _ y hy _ => ?_⟩
  rw [List.mem_singleton.1 hy]
  exact DpEvent.not_emits hev

end Trace

/-! ### The specification of a handler -/

/-- What holds after a handler that returns `POF_OK`: the history is in order, and unless the packet
is done it has not been given up. -/
structure Sound (s : DpState) : Prop where
  ordered : Ordered s.trace
  going : s.dpp.packetDone = false → Going s.trace

/-- From a packet that has not been given up to a sound state; the history is in order after a
failure, too. -/
def Tame (m : Dp Unit) : Prop :=
  Meets (fun s => Going s.trace) m (fun _ => Sound) fun _ s => Ordered s.trace

/-- The packet has not been given up, and is not by the end of `m`. -/
def Harmless {α : Type} (m : Dp α) : Prop :=
  Meets (fun s => Going s.trace) m (fun _ s => Going s.trace) fun _ s => Going s.trace

theorem Sound.of_going {s : DpState} (h : Going s.trace) : Sound s := ⟨h.ordered, fun _ => h⟩

theorem Harmless.tame {m : Dp Unit} (h : Harmless m) : Tame m :=
  h.conseq (fun _ hs => hs) (fun _ _ hs => Sound.of_going hs) fun _ _ hs => hs.ordered

theorem harmless_of_silent {α : Type} {m : Dp α} (h : Frame DpState.silent m) : Harmless m :=
  Meets.of_frame h (K := fun x => Going x.2.2) (fun _ hs => hs) (fun _ _ hs => hs) fun _ _ hs => hs

theorem Harmless.bind {α β : Type} {m : Dp α} {f : α → Dp β} (hm : Harmless m)
    (hf : ∀ a, Harmless (f a)) : Harmless (m >>= f) :=
  Meets.bind hm hf

theorem Harmless.get_bind {β : Type} {f : DpState → Dp β} (hf : ∀ s, Harmless (f s)) :
    Harmless (get >>= f) :=
  Harmless.bind (harmless_of_silent Frame.get) hf

/-- A change of the packet does not touch the history. -/
theorem harmless_modifyDpp (f : DpPacket → DpPacket) : Harmless (modifyDpp f) :=
  Meets.of_frame (Frame.modify fun _ => rfl) (K := Going) (fun _ hs => hs) (fun _ _ hs => hs)
    fun _ _ hs => hs

/-- A handler after harmless work. -/
theorem Harmless.bind_tame {α : Type} {m : Dp α} {f : α → Dp Unit} (hm : Harmless m)
    (hf : ∀ a, Tame (f a)) : Tame (m >>= f) :=
  Meets.bind (hm.conseq (fun _ hs => hs) (fun _ _ hs => hs) fun _ _ hs => hs.ordered) hf

/-- A silent step after a handler. -/
theorem Tame.bind_silent {m : Dp Unit} {f : Unit → Dp Unit} (hm : Tame m)
    (hf : ∀ a, Frame DpState.silent (f a)) : Tame (m >>= f) :=
  Meets.bind hm fun a => Meets.of_frame (hf a)
    (K := fun x => Ordered x.2.2 ∧ (x.2.1 = false → Going x.2.2)) (fun _ hs => ⟨hs.1, hs.2⟩)
    (fun _ _ hs => ⟨hs.1, hs.2⟩) fun _ _ hs => hs.1

/-- An error that goes into the history. -/
theorem Tame.logged {m : Dp Unit} (h : Tame m) : Tame (logged m) := by
  refine Meets.onError h fun e s hs => ?_
  cases e with
  | error e => exact hs.append trivial
  | hang => exact hs
  | undefined => exact hs
  | fuel => exact hs

/-! ### Sending -/

theorem harmless_emit {ev : DpEvent} (h : ¬ ev.Stops) : Harmless (emit ev) :=
  ⟨fun hs hr => by cases hr; exact hs.append h, fun _ hr => by cases hr⟩

theorem harmless_pofdpSendRaw (env : DpEnv) (lrPort : LocalResource) :
    Harmless (pofdpSendRaw env lrPort) := by
  refine Harmless.bind (harmless_modifyDpp _) fun _ => ?_
  refine Harmless.get_bind fun _ => (harmless_of_silent (frame_failIf _ _ _)).bind fun _ => ?_
  refine Harmless.get_bind fun _ => (harmless_of_silent (Frame.liftOption _ _)).bind fun _ => ?_
  exact (harmless_of_silent (frame_failIf _ _ _)).bind fun _ => harmless_emit id

theorem harmless_floodLoop (env : DpEnv) (lrPort : LocalResource) (ports : List PortInfo) :
    Harmless (floodLoop env lrPort ports) := by
  induction ports with
  | nil => exact harmless_of_silent (Frame.pure _)
  | cons port ports ih =>
      refine Harmless.get_bind fun s => ?_
      split
      · refine Harmless.bind (harmless_modifyDpp _) fun _ => ?_
        exact (harmless_pofdpSendRaw env lrPort).bind fun _ => ih
      · exact ih

theorem harmless_outputAction (env : DpEnv) (data : Buf) : Harmless (outputAction env data) := by
  refine Harmless.get_bind fun _ => (harmless_of_silent (frame_failIf _ _ _)).bind fun _ => ?_
  refine (harmless_of_silent (frame_failIf _ _ _)).bind fun _ => ?_
  refine (harmless_of_silent (frame_pofdpGet32value _ _ _)).bind fun _ => ?_
  refine Harmless.bind (harmless_modifyDpp _) fun _ => ?_
  refine (harmless_of_silent (Frame.liftOption _ _)).bind fun _ => ?_
  refine Harmless.bind (harmless_modifyDpp _) fun _ => ?_
  split
  · exact harmless_floodLoop _ _ _
  · exact harmless_pofdpSendRaw _ _

theorem harmless_pofdpSendPacketInToController (env : DpEnv) (reason : UInt32) (ID : UInt8) :
    Harmless (pofdpSendPacketInToController env reason ID) := by
  refine Harmless.get_bind fun _ => (harmless_of_silent (frame_failIf _ _ _)).bind fun _ => ?_
  split
  · exact harmless_emit id
  · exact harmless_of_silent (Frame.pure _)
  · exact harmless_of_silent (Frame.throw _)

theorem harmless_pofdpEntryNomatch (env : DpEnv) : Harmless (pofdpEntryNomatch env) := by
  unfold pofdpEntryNomatch
  split
  · exact Harmless.get_bind fun _ => harmless_pofdpSendPacketInToController _ _ _
  · exact harmless_of_silent (Frame.pure _)

/-! ### Actions -/

/-- A drop gives the packet up and sets the flag. -/
theorem tame_dropAction : Tame dropAction := by
  refine Meets.bind (Q := fun _ s => Going s.trace ∧ s.dpp.packetDone = true)
    (Meets.modify fun _ hs => ⟨hs, rfl⟩) fun _ => Meets.modify fun _ hs => ?_
  exact ⟨hs.1.ordered.append trivial, fun hnot => absurd (hs.2.symm.trans hnot) Bool.noConfusion⟩

theorem tame_actionWork (env : DpEnv) (data : Buf) (type : ActionType) :
    Tame (actionWork env data type) := by
  cases hs : type.isSilent with
  | true => exact (harmless_of_silent (frame_actionWork_silent env data hs)).tame
  | false =>
      cases type with
      | output => exact (harmless_outputAction env data).tame
      | packetIn =>
          exact (Harmless.get_bind fun _ => harmless_pofdpSendPacketInToController _ _ _).tame
      | drop => exact tame_dropAction
      | _ => cases hs

/-- A computation that runs only while the packet is not done. -/
def Resumes (m : Dp Unit) : Prop := Meets Sound m (fun _ => Sound) fun _ s => Ordered s.trace

theorem Resumes.tame {m : Dp Unit} (h : Resumes m) : Tame m :=
  h.conseq (fun _ hs => Sound.of_going hs) (fun _ _ hs => hs) fun _ _ hs => hs

/-- **One action.**  A `GROUP` action calls the interpreter again. -/
theorem tame_executeAction (env : DpEnv) {again : Dp Unit} (h : Resumes again) (action : PofAction) :
    Tame (executeAction env again action) := by
  unfold executeAction
  split
  · exact (harmless_of_silent (Frame.throw _)).tame
  · refine Harmless.bind_tame (harmless_of_silent Frame.get) fun _ => ?_
    refine Harmless.bind_tame (harmless_of_silent (Frame.liftOption _ _)) fun _ => ?_
    refine Harmless.bind_tame (harmless_of_silent (frame_counterIncreace _ _)) fun _ => ?_
    refine Harmless.bind_tame (harmless_of_silent (frame_checkRetvalue _)) fun _ => ?_
    exact Harmless.bind_tame (harmless_modifyDpp _) fun _ => h.tame
  · exact (tame_actionWork _ _ _).bind_silent fun _ => frame_actionUpdate

theorem tame_actionStep (env : DpEnv) {again : Dp Unit} (h : Resumes again) :
    Tame (actionStep env again) :=
  Harmless.bind_tame (harmless_of_silent Frame.get) fun _ =>
    Harmless.bind_tame (harmless_of_silent (Frame.liftOption _ _)) fun _ =>
      (tame_executeAction env h _).logged

/-- A loop that makes its turn when the packet is not done. -/
theorem Resumes.loop {c : DpState → Prop} [DecidablePred c] {turn rest : Dp Unit}
    (hc : ∀ s, c s → s.dpp.packetDone = false) (hturn : Tame turn) (hrest : Resumes rest) :
    Resumes (do
      let s ← get
      if c s then do
        turn
        rest
      else pure ()) := by
  refine Meets.get_bind fun s₀ hs₀ => ?_
  split
  next hturning =>
    have hgoing : Going s₀.trace := hs₀.going (hc s₀ hturning)
    refine Meets.bind (hturn.conseq ?_ (fun _ _ hs => hs) fun _ _ hs => hs) fun _ => hrest
    intro s hs
    rw [hs]
    exact hgoing
  next =>
    refine Meets.pure fun s hs => ?_
    rw [hs]
    exact hs₀

/-- **The action interpreter.** -/
theorem tame_pofdpActionExecute (env : DpEnv) (fuel : ℕ) : Resumes (pofdpActionExecute env fuel) := by
  induction fuel with
  | zero => exact Meets.throw fun _ hs => hs.ordered
  | succ fuel ih => exact Resumes.loop (fun _ hs => hs.1) (tame_actionStep env ih) ih

/-! ### Instructions -/

/-- The end of an instruction, after which the packet may be done. -/
theorem sound_instructionUpdate :
    Meets Sound instructionUpdate (fun _ => Sound) fun _ s => Ordered s.trace := by
  refine Meets.modify fun s hs => ⟨hs.ordered, fun hnot => hs.going ?_⟩
  dsimp only [nextInstruction] at hnot
  split_ifs at hnot
  exact hnot

/-- A table lookup: a miss gives the packet up and sets the flag, whether or not the controller
could be told. -/
theorem tame_executeGotoTable (env : DpEnv) (data : Buf) : Tame (executeGotoTable env data) := by
  unfold executeGotoTable
  refine Harmless.bind_tame (harmless_of_silent (frame_movePacketBufOffset _)) fun _ => ?_
  refine Harmless.bind_tame (harmless_of_silent (frame_setTable _)) fun _ => ?_
  refine Harmless.bind_tame (harmless_of_silent Frame.get) fun _ => ?_
  refine Harmless.bind_tame (harmless_of_silent (Frame.liftOption _ _)) fun _ => ?_
  refine Harmless.bind_tame (harmless_of_silent (Frame.liftOption _ _)) fun _ => ?_
  refine Harmless.bind_tame (harmless_of_silent (Frame.liftOption _ _)) fun found => ?_
  refine Harmless.bind_tame (harmless_modifyDpp _) fun _ => ?_
  cases found with
  | none =>
      refine Meets.bind (Q := fun _ s => Going s.trace) ?_ fun _ => ?_
      · exact Meets.onError (harmless_pofdpEntryNomatch env) fun _ _ hs => hs.ordered.append trivial
      · refine Meets.bind (Q := fun _ s => Going s.trace ∧ s.dpp.packetDone = true)
          (Meets.modify fun _ hs => ⟨hs, rfl⟩) fun _ => Meets.modify fun _ hs => ?_
        exact ⟨hs.1.ordered.append trivial, fun hnot => absurd (hs.2.symm.trans hnot) Bool.noConfusion⟩
  | some entry =>
      refine Harmless.bind_tame (harmless_of_silent (frame_counterIncreace _ _)) fun _ => ?_
      refine Harmless.bind_tame (harmless_modifyDpp _) fun _ => ?_
      exact (harmless_of_silent (frame_checkRetvalue _)).tame

theorem tame_executeGotoDirectTable (data : Buf) : Tame (executeGotoDirectTable data) := by
  unfold executeGotoDirectTable
  refine Harmless.bind_tame (harmless_of_silent (frame_movePacketBufOffset _)) fun _ => ?_
  refine Harmless.bind_tame (harmless_of_silent (frame_setTable _)) fun _ => ?_
  refine Harmless.bind_tame (harmless_of_silent (frame_pofdpGet32value _ _ _)) fun _ => ?_
  refine Harmless.bind_tame (harmless_of_silent Frame.get) fun _ => ?_
  refine Harmless.bind_tame (harmless_of_silent (Frame.liftOption _ _)) fun _ => ?_
  refine Harmless.bind_tame (harmless_of_silent (frame_failIf _ _ _)) fun _ => ?_
  refine Harmless.bind_tame (harmless_modifyDpp _) fun _ => ?_
  refine Harmless.bind_tame (harmless_of_silent (Frame.liftOption _ _)) fun _ => ?_
  refine Harmless.bind_tame (harmless_of_silent (frame_counterIncreace _ _)) fun _ => ?_
  refine Harmless.bind_tame (harmless_of_silent (frame_checkRetvalue _)) fun _ => ?_
  exact (harmless_modifyDpp _).tame

theorem tame_executeApplyActions (env : DpEnv) (fuel : ℕ) (data : Buf) :
    Tame (executeApplyActions (pofdpActionExecute env fuel) data) := by
  refine Harmless.bind_tame (harmless_modifyDpp _) fun _ => ?_
  exact Meets.bind (tame_pofdpActionExecute env fuel).tame fun _ => sound_instructionUpdate

theorem tame_executeConditionalJmp (data : Buf) : Tame (executeConditionalJmp data) := by
  refine Harmless.bind_tame (harmless_of_silent (frame_conditionalJmpTarget data)) fun _ => ?_
  refine Harmless.bind_tame (harmless_of_silent Frame.get) fun _ => ?_
  split
  · exact Harmless.bind_tame (harmless_of_silent (frame_failIf _ _ _)) fun _ =>
      (harmless_modifyDpp _).tame
  · exact Harmless.bind_tame (harmless_of_silent (frame_failIf _ _ _)) fun _ =>
      (harmless_modifyDpp _).tame

/-- **One instruction.** -/
theorem tame_executeInstruction (env : DpEnv) (fuel : ℕ) (ins : PofInstruction) :
    Tame (executeInstruction env (pofdpActionExecute env fuel) ins) := by
  unfold executeInstruction
  split
  · exact (harmless_of_silent (Frame.throw _)).tame
  · exact tame_executeGotoTable env _
  · exact tame_executeGotoDirectTable _
  · exact tame_executeApplyActions env fuel _
  · exact tame_executeConditionalJmp _
  · exact Meets.bind (harmless_of_silent (frame_instructionWork _ _)).tame fun _ =>
      sound_instructionUpdate

theorem tame_insStep (env : DpEnv) (fuel : ℕ) : Tame (insStep env fuel) :=
  Harmless.bind_tame (harmless_of_silent Frame.get) fun _ =>
    Harmless.bind_tame (harmless_of_silent (Frame.liftOption _ _)) fun _ =>
      (tame_executeInstruction env fuel _).logged

/-- **The instruction interpreter.** -/
theorem tame_pofdpInstructionExecute (env : DpEnv) (fuel : ℕ) :
    Resumes (pofdpInstructionExecute env fuel) := by
  induction fuel with
  | zero => exact Meets.throw fun _ hs => hs.ordered
  | succ fuel ih => exact Resumes.loop (fun _ hs => hs) (tame_insStep env fuel) ih

/-- **No frame and no packet-in follows a drop, a miss or an error**, whatever the packet, the tables,
groups and counters, and however far the run is followed. -/
theorem nothing_emitted_after_stop (env : DpEnv) (portId : UInt8) (packet : Buf) (lr : LocalResource)
    (fuel : ℕ) (before after : List DpEvent) (ev : DpEvent) :
    (exec (pofdpInstructionExecute env fuel) (pofdpForward portId packet lr)).2.trace =
      before ++ ev :: after → ev.Stops → ∀ later ∈ after, ¬ later.Emits := by
  intro htrace hstop later hlater
  have hstart : Sound (pofdpForward portId packet lr) := Sound.of_going fun _ h => by cases h
  have hordered : Ordered
      (exec (pofdpInstructionExecute env fuel) (pofdpForward portId packet lr)).2.trace := by
    rcases hr : exec (pofdpInstructionExecute env fuel) (pofdpForward portId packet lr) with ⟨e | u, s⟩
    · exact (tame_pofdpInstructionExecute env fuel).error hstart hr
    · exact ((tame_pofdpInstructionExecute env fuel).ok hstart hr).ordered
  rw [htrace] at hordered
  have hrest := (List.pairwise_append.1 hordered).2.1
  exact (List.pairwise_cons.1 hrest).1 later hlater hstop

/-- Three actions: a packet-in, a group that does not exist, and another packet-in. -/
def lostActions : PofInstruction where
  type := 4
  len := 8
  instructionData := [3, 0, 0, 0, 0, 0, 0, 0] ++ ([9, 0, 12, 0] ++ Buf.zeros 44) ++
    ([7, 0, 12, 0, 1, 0, 0, 0] ++ Buf.zeros 40) ++ ([9, 0, 12, 0] ++ Buf.zeros 188)

/-- The error is returned by the action and then by the instruction, and nothing is sent after it. -/
theorem nothing_emitted_after_stop_group :
    (exec (pofdpInstructionExecute openEnv 8)
        (pofdpForward 1 [0xab] (matchAll 1 (List.replicate 6 lostActions)))).2.trace =
      [.packetIn 1 0 0 0 0 1 [0xab], .failed ⟨.groupModFailed, .pofgmfcUnknownGroup⟩,
        .failed ⟨.groupModFailed, .pofgmfcUnknownGroup⟩] ∧
      ¬ (DpEvent.failed ⟨.groupModFailed, .pofgmfcUnknownGroup⟩).Emits :=
  ⟨by decide +kernel,
    nothing_emitted_after_stop openEnv 1 [0xab] (matchAll 1 (List.replicate 6 lostActions)) 8
      [.packetIn 1 0 0 0 0 1 [0xab]] [.failed ⟨.groupModFailed, .pofgmfcUnknownGroup⟩]
      (.failed ⟨.groupModFailed, .pofgmfcUnknownGroup⟩) (by decide +kernel) trivial _
      (List.mem_singleton.2 rfl)⟩

end PofSwitch
