/-
**The handshake.**

Before the channel is in `POFCS_CHANNEL_RUN` the controller sends four messages, in a fixed order; the
first one clears the slots.  The invariant follows the control task through the handshake: in each
case the bytes read since the last connect are the messages of the cases before it, followed by the
bytes that are not handled yet.  It needs that the handling of a message leaves the bytes behind it
alone, and `pof_parse_msg_from_controller` does not see to that: it converts the eight bytes behind
the header of a `POFT_SET_CONFIG` also when the message ends with its header.  The next message is
then not the one the controller sent.

Main definitions:

* `PofSwitch.Received` — bytes that start with whole messages the given cases accept;
* `PofSwitch.Assumed` — what is assumed of the controller during the handshake;
* `PofSwitch.ConfigWhole` — the conversion of the configuration stays inside its message;
* `PofSwitch.HandshakeInv` — the invariant.

Main results:

* `PofSwitch.run_after_handshake` — **`POFCS_CHANNEL_RUN` is reached only through the four messages,
  and it is entered with every slot cleared**;
* `PofSwitch.run_without_getConfigRequest` — a controller that sends a header-only `POFT_SET_CONFIG`
  gets the channel there without a `POFT_GET_CONFIG_REQUEST`.
-/

import PofSwitch.Channel

set_option relaxedAutoImplicit false
set_option autoImplicit false

namespace PofSwitch

open Buf

/-! ### The messages of the handshake -/

namespace RecvCase

/-- The cases of the handshake before a case. -/
def before : RecvCase → List RecvCase
  | hello => []
  | requestFeature => [hello]
  | setConfig => [hello, requestFeature]
  | requestGetConfig => [hello, requestFeature, setConfig]
  | run => [hello, requestFeature, setConfig, requestGetConfig]

/-- The case of the state a case moves to. -/
def succ : RecvCase → RecvCase
  | hello => requestFeature
  | requestFeature => setConfig
  | setConfig => requestGetConfig
  | requestGetConfig => run
  | run => run

theorem state_succ (c : RecvCase) : c.succ.state = c.next := by
  cases c <;> rfl

theorem before_succ {c : RecvCase} (h : c ≠ run) : c.succ.before = c.before ++ [c] := by
  cases c with
  | run => exact absurd rfl h
  | _ => rfl

theorem accepts_append {c : RecvCase} {m : Buf} (hm : headerSize ≤ m.length) (d : Buf) :
    c.Accepts (m ++ d) ↔ c.Accepts m := by
  cases c <;> simp only [Accepts, Header.version_append hm, Header.type_append hm]

end RecvCase

/-- The bytes start with whole messages that the cases accept, in this order, and `rest` follows. -/
def Received (cs : List RecvCase) (got rest : Buf) : Prop :=
  ∃ ms, List.Forall₂ (fun c m => IsMessage m ∧ c.Accepts m) cs ms ∧ got = ms.flatten ++ rest

namespace Received

variable {cs : List RecvCase} {got rest : Buf}

theorem read (h : Received cs got rest) (chunk : Buf) : Received cs (got ++ chunk) (rest ++ chunk) := by
  obtain ⟨ms, hms, rfl⟩ := h
  exact ⟨ms, hms, List.append_assoc _ _ _⟩

/-- One more message. -/
theorem snoc {c : RecvCase} {m rest' : Buf} (h : Received cs got rest) (hrest : rest = m ++ rest')
    (hm : IsMessage m) (hc : c.Accepts m) : Received (cs ++ [c]) got rest' := by
  obtain ⟨ms, hms, rfl⟩ := h
  refine ⟨ms ++ [m], List.rel_append hms (.cons ⟨hm, hc⟩ .nil), ?_⟩
  rw [hrest, List.flatten_append, List.flatten_singleton, List.append_assoc]

end Received

/-! ### Assumptions -/

/-- What is assumed of the controller during the handshake: a read leaves a whole header of the message
that is waited for, the message fits the buffer behind the messages before it, and its header gives a
length of at least eight. -/
@[mk_iff]
structure Assumed (t : Task) : Prop where
  header : ∀ c, c ≠ .run → t.pc = .loop c → headerSize ≤ t.totalLen
  fits : ∀ c, c ≠ .run → t.pc = .loop c →
    t.processLen + Header.length (t.at_ t.processLen) ≤ recvBufMaxSize
  length : ∀ c, c ≠ .run → t.pc = .check c → t.processLen + headerSize ≤ t.rcvLen →
    headerSize ≤ Header.length (t.at_ t.processLen)

/-- The `POFT_SET_CONFIG` that is checked has a `pof_switch_config` behind its header, or nothing has
been received behind it. -/
def ConfigWhole (t : Task) : Prop :=
  t.pc = .check .setConfig → t.state ≠ .invalid →
    headerSize + 8 ≤ Header.length (t.at_ t.processLen) ∨
      t.rcvLen = t.processLen + Header.length (t.at_ t.processLen)

instance : DecidablePred Assumed := fun t => decidable_of_iff' _ (assumed_iff t)

instance : DecidablePred ConfigWhole := fun t =>
  inferInstanceAs (Decidable (t.pc = .check .setConfig → t.state ≠ .invalid → _ ∨ _))

/-! ### The invariant -/

/-- In a case: the messages before it have been received, what is left of the bytes is in the buffer,
no message has been handed on yet, and the slots are cleared. -/
structure Between (c : RecvCase) (t : Task) : Prop where
  processLen_le : t.processLen ≤ t.rcvLen
  rcvLen_le : t.rcvLen ≤ recvBufMaxSize
  received : Received c.before t.got t.unread
  handed : t.handed = []
  cleared : ∀ lr ∈ t.dp.slots, lr.Cleared

/-- Where the task is, and what holds there. -/
inductive HandshakeInv : Task → Prop
  | down {t : Task} : t.pc = .top → t.state = .invalid ∨ t.state = .connecting → HandshakeInv t
  | fresh {t : Task} : t.pc = .top → t.state = .connected ∨ t.state = .hello → t.got = [] →
      t.handed = [] → HandshakeInv t
  | waiting {t : Task} (c : RecvCase) : c ≠ .hello → c ≠ .run → t.pc = .top → t.state = c.state →
      Between c t → t.leftLen = (t.rcvLen : ℤ) - t.processLen → HandshakeInv t
  | reading {t : Task} (c : RecvCase) : c ≠ .run → t.pc = .loop c → t.state = c.next →
      Between c t → t.totalLen = (t.rcvLen : ℤ) - t.processLen → t.headPtr = t.processLen →
      HandshakeInv t
  | checking {t : Task} (c : RecvCase) : c ≠ .run → t.pc = .check c → t.state ≠ .invalid →
      (c = .hello → t.state = .requestFeature ∧ t.headPtr = t.processLen) → Between c t →
      t.processLen + headerSize ≤ t.rcvLen →
      t.processLen + Header.length (t.at_ t.processLen) ≤ t.rcvLen → HandshakeInv t
  | closed {t : Task} (c : RecvCase) : t.pc = .check c → t.state = .invalid → HandshakeInv t
  | running {t : Task} : t.state = .run → t.pc = .top ∨ t.pc = .loop .run ∨ t.pc = .check .run →
      (∃ rest, Received RecvCase.run.before t.got rest) → HandshakeInv t

/-- What is kept by a step: the invariant, and the whole handshake is behind a step that enters
`POFCS_CHANNEL_RUN`. -/
structure StepOk (t t' : Task) : Prop where
  inv : HandshakeInv t'
  enters : t.entry ≠ .run → t'.pc = .top → t'.state = .run →
    Between .run t' ∧ t'.leftLen = (t'.rcvLen : ℤ) - t'.processLen

section Steps

variable {env : Env} {t t' : Task} {c : RecvCase}

theorem cleared_clear (dp : Slots) : ∀ lr ∈ dp.clear.slots, lr.Cleared := by
  intro lr hlr
  obtain ⟨lr₀, -, rfl⟩ := List.mem_map.1 hlr
  exact poflrClearResource_cleared lr₀

/-- A step that ends the connection. -/
theorem StepOk.down (hpc : t'.pc = .top) (hstate : t'.state = .invalid) : StepOk t t' := by
  refine ⟨.down hpc (.inl hstate), fun _ _ hrun => ?_⟩
  rw [hstate] at hrun
  cases hrun

/-- A step that does not get to the top. -/
theorem StepOk.inside (hinv : HandshakeInv t') (hpc : t'.pc ≠ .top) : StepOk t t' :=
  ⟨hinv, fun _ h => absurd h hpc⟩

theorem Between.read {chunk : Buf} (h : Between c t) (hfit : t.rcvLen + chunk.length ≤ recvBufMaxSize) :
    Between c (t.store chunk) where
  processLen_le := Nat.le_add_right_of_le h.processLen_le
  rcvLen_le := hfit
  received := by
    rw [Task.unread_store h.processLen_le hfit]
    exact h.received.read chunk
  handed := h.handed
  cleared := h.cleared

theorem step_down (hpc : t.pc = .top) (hstate : t.state = .invalid ∨ t.state = .connecting)
    (h : pofscMainTask env t = some t') : StepOk t t' := by
  rcases hstate with hstate | hstate
  · simp only [pofscMainTask, hpc, hstate] at h
    split_ifs at h
    rw [Task.iterate_cases h]
    exact ⟨.down rfl (.inr rfl), fun _ _ hrun => by cases hrun⟩
  · simp only [pofscMainTask, hpc, hstate] at h
    split_ifs at h
    · rw [Task.iterate_cases h]
      exact ⟨.fresh rfl (.inl rfl) rfl rfl, fun _ _ hrun => by cases hrun⟩
    · rw [Task.iterate_cases h]
      exact .down rfl rfl

theorem step_fresh (hpc : t.pc = .top) (hstate : t.state = .connected ∨ t.state = .hello)
    (hgot : t.got = []) (hhanded : t.handed = []) (h : pofscMainTask env t = some t') :
    StepOk t t' := by
  rcases hstate with hstate | hstate
  · simp only [pofscMainTask, hpc, hstate] at h
    split_ifs at h
    · rw [Task.iterate_cases h]
      exact ⟨.fresh rfl (.inr rfl) hgot hhanded, fun _ _ hrun => by cases hrun⟩
    · rw [Task.iterate_cases h]
      exact .down rfl rfl
  · simp only [pofscMainTask, hpc, hstate] at h
    rcases Task.helloTop_cases h with ⟨hpc', hstate'⟩ | ⟨chunk, -, hle, rfl⟩
    · exact .down hpc' hstate'
    · -- the first bytes of the connection are stored at the front of the buffer
      have hfit : t.reset.rcvLen + chunk.length ≤ recvBufMaxSize := (Nat.zero_add _).trans_le hle
      have hunread := Task.unread_store (Nat.le_refl t.reset.processLen) hfit
      rw [Task.unread_reset, List.nil_append] at hunread
      refine .inside (.reading .hello (by decide) rfl rfl ⟨Nat.zero_le _, hfit, ?_, hhanded, ?_⟩
        ?_ rfl) (by simp)
      · exact ⟨[], .nil, (congrArg (· ++ chunk) hgot).trans hunread.symm⟩
      · exact cleared_clear t.dp
      · simp [Task.store, Task.reset]

theorem step_waiting (hhello : c ≠ .hello) (hrun : c ≠ .run) (hpc : t.pc = .top)
    (hstate : t.state = c.state) (hbet : Between c t)
    (hleft : t.leftLen = (t.rcvLen : ℤ) - t.processLen) (h : pofscMainTask env t = some t') :
    StepOk t t' := by
  have hproc := hbet.processLen_le
  have htop : t.handshakeTop env c = some t' := by
    cases c with
    | hello => exact absurd rfl hhello
    | run => exact absurd rfl hrun
    | _ =>
        simp only [pofscMainTask, hpc, hstate, RecvCase.state] at h
        exact h
  unfold Task.handshakeTop at htop
  split_ifs at htop with hready
  · obtain rfl := Option.some.inj htop
    obtain ⟨hsize, hlen⟩ := hready
    refine .inside (.checking c hrun rfl ?_ (fun hc => absurd hc hhello)
      ⟨hbet.1, hbet.2, hbet.3, hbet.4, hbet.5⟩ ?_ ?_) (by simp)
    · simp only [hstate]
      cases c <;> simp [RecvCase.state]
    · simp only
      omega
    · simp only [Task.at_] at hlen ⊢
      omega
  · rcases Task.firstRead_cases htop with ⟨hpc', hstate'⟩ | ⟨-, rfl⟩ | ⟨chunk, -, hfit, rfl⟩
    · exact .down hpc' hstate'
    · refine ⟨.waiting c hhello hrun rfl hstate ⟨hbet.1, hbet.2, hbet.3, hbet.4, hbet.5⟩ hleft, ?_⟩
      intro _ _ hrun'
      have hrun' : c.state = .run := hstate.symm.trans hrun'
      cases c with
      | run => exact absurd rfl hrun
      | _ => cases hrun'
    · have hread := hbet.read hfit
      refine .inside (.reading c hrun rfl rfl ⟨hread.1, hread.2, hread.3, hread.4, hread.5⟩ ?_ rfl) (by simp)
      simp only [Task.store, hleft, Nat.cast_add]
      omega

theorem step_reading (hasm : Assumed t) (hrun : c ≠ .run) (hpc : t.pc = .loop c)
    (hstate : t.state = c.next) (hbet : Between c t)
    (htotal : t.totalLen = (t.rcvLen : ℤ) - t.processLen) (hhead : t.headPtr = t.processLen)
    (h : pofscMainTask env t = some t') : StepOk t t' := by
  have hsize := hasm.header c hrun hpc
  have hfits := hasm.fits c hrun hpc
  simp only [pofscMainTask, hpc, Task.loopStep, hhead, if_neg hrun] at h
  split_ifs at h with hmore
  · obtain rfl := Option.some.inj h
    rcases Task.nextRead_cases env t c with heq | ⟨hfull, -⟩ | ⟨chunk, hne, hfit, heq⟩
    · rw [heq]
      exact .inside (.closed c rfl rfl) (by simp)
    · -- a message that fits the buffer is never cut off by its end
      omega
    · rw [heq]
      have hread := hbet.read hfit
      refine .inside (.reading c hrun hpc hstate ⟨hread.1, hread.2, hread.3, hread.4, hread.5⟩ ?_ hhead)
        (by simp [Task.store, hpc])
      simp only [Task.store, htotal, Nat.cast_add]
      omega
  · obtain rfl := Option.some.inj h
    refine .inside (.checking c hrun rfl ?_ ?_ ⟨hbet.1, hbet.2, hbet.3, hbet.4, hbet.5⟩ ?_ ?_) (by simp)
    · simp only [hstate]
      cases c <;> simp [RecvCase.next]
    · rintro rfl
      exact ⟨hstate, rfl⟩
    · simp only
      omega
    · simp only [Task.at_] at hmore ⊢
      omega

/-- The end of a case of the handshake. -/
theorem StepOk.next (hrun : c ≠ .run) (hpc : t'.pc = .top) (hstate : t'.state = c.next)
    (hbet : Between c.succ t') (hleft : t'.leftLen = (t'.rcvLen : ℤ) - t'.processLen) :
    StepOk t t' := by
  by_cases hlast : c.succ = .run
  · have hnext : c.next = .run := by rw [← c.state_succ, hlast, RecvCase.state]
    exact ⟨.running (hstate.trans hnext) (.inl hpc) ⟨_, hlast ▸ hbet.received⟩,
      fun _ _ _ => ⟨hlast ▸ hbet, hleft⟩⟩
  · have hfirst : c.succ ≠ .hello := by cases c <;> simp [RecvCase.succ]
    refine ⟨.waiting c.succ hfirst hlast hpc (hstate.trans c.state_succ.symm) hbet hleft, ?_⟩
    intro _ _ hrun'
    have hrun' : c.next = .run := hstate.symm.trans hrun'
    cases c with
    | requestGetConfig => exact absurd rfl hlast
    | run => exact absurd rfl hrun
    | _ => cases hrun'

/-- A message that is accepted and handled is one more received message. -/
theorem Between.handled (h : Between c t) (hrun : c ≠ .run)
    (hsize : headerSize ≤ Header.length (t.at_ t.processLen))
    (hlen : t.processLen + Header.length (t.at_ t.processLen) ≤ t.rcvLen)
    (hacc : c.Accepts (t.at_ t.processLen)) (hproc : t'.processLen ≤ t'.rcvLen)
    (hrcv : t'.rcvLen ≤ t.rcvLen)
    (hunread : t'.unread = t.unread.drop (Header.length (t.at_ t.processLen)))
    (hgot : t'.got = t.got) (hhanded : t'.handed = t.handed) (hdp : t'.dp = t.dp) :
    Between c.succ t' := by
  obtain ⟨hmsg, d, hat⟩ := Task.message_at h.processLen_le h.rcvLen_le hsize hlen
  refine ⟨hproc, hrcv.trans h.rcvLen_le, ?_, hhanded.trans h.handed, by rw [hdp]; exact h.cleared⟩
  rw [RecvCase.before_succ hrun, hgot, hunread]
  refine h.received.snoc (List.take_append_drop _ _).symm hmsg ?_
  rw [hat] at hacc
  exact (RecvCase.accepts_append hmsg.headerSize_le d).1 hacc

/-- The conversions of the handshake stay inside their messages. -/
theorem parseTransfer_accepted {m : Buf} (hm : headerSize ≤ m.length) (hhello : c ≠ .hello)
    (hrun : c ≠ .run) (hacc : c.Accepts m) (hconf : c = .setConfig → headerSize + 8 ≤ m.length)
    (d : Buf) : parseTransfer (m ++ d) = parseTransfer m ++ d := by
  refine parseTransfer_append hm (fun type htype => ?_) d
  cases c with
  | hello => exact absurd rfl hhello
  | run => exact absurd rfl hrun
  | setConfig =>
      rw [hacc.2, MsgType.ofCode_code] at htype
      obtain rfl := Option.some.inj htype
      exact hconf rfl
  | requestFeature | requestGetConfig =>
      rw [show Header.type m = _ from hacc, MsgType.ofCode_code] at htype
      obtain rfl := Option.some.inj htype
      exact hm

theorem step_checking (hasm : Assumed t) (hwhole : ConfigWhole t) (hrun : c ≠ .run)
    (hpc : t.pc = .check c) (hstate : t.state ≠ .invalid)
    (hhello : c = .hello → t.state = .requestFeature ∧ t.headPtr = t.processLen)
    (hbet : Between c t) (hheader : t.processLen + headerSize ≤ t.rcvLen)
    (hlen : t.processLen + Header.length (t.at_ t.processLen) ≤ t.rcvLen)
    (h : pofscMainTask env t = some t') : StepOk t t' := by
  have hsize := hasm.length c hrun hpc hheader
  by_cases hfirst : c = .hello
  · subst hfirst
    obtain ⟨hnext, hhead⟩ := hhello rfl
    simp only [pofscMainTask, hpc, if_neg hstate, Task.checkHello, hhead] at h
    rw [Task.iterate_cases h]
    split_ifs with hacc
    · obtain ⟨hproc, hrcv, hleft⟩ := Task.advance_lengths hlen
      refine .next hrun rfl hnext ?_ hleft
      exact hbet.handled hrun hsize hlen hacc hproc hrcv (t.unread_advance _) rfl rfl rfl
    · exact .down rfl rfl
  · have hcheck : t.checkHandshake env c = some t' := by
      cases c with
      | hello => exact absurd rfl hfirst
      | run => exact absurd rfl hrun
      | _ =>
          simp only [pofscMainTask, hpc, if_neg hstate] at h
          exact h
    rcases Task.checkHandshake_cases hcheck with ⟨-, rfl⟩ | ⟨hacc, b, hb, rfl⟩
    · exact .down rfl rfl
    · obtain ⟨hproc, hrcv, hleft⟩ := Task.advance_lengths
        (t := { t with state := c.next, recvBuf := b }) hlen
      refine .next hrun rfl rfl ?_ hleft
      refine hbet.handled hrun hsize hlen hacc hproc hrcv ?_ rfl rfl rfl
      refine (Task.unread_advance _ _).trans ?_
      refine Task.unread_convert hb hbet.processLen_le hbet.rcvLen_le hlen ?_
      obtain ⟨hmsg, d, hat⟩ := Task.message_at hbet.processLen_le hbet.rcvLen_le hsize hlen
      rw [hat] at hacc
      have hacc := (RecvCase.accepts_append hmsg.headerSize_le d).1 hacc
      by_cases hconf : c = .setConfig
      · subst hconf
        rcases hwhole hpc hstate with hbody | hnone
        · refine .inl (parseTransfer_accepted hmsg.headerSize_le hfirst hrun hacc fun _ => ?_)
          rw [List.length_take, Task.length_unread hbet.rcvLen_le]
          omega
        · exact .inr hnone
      · exact .inl (parseTransfer_accepted hmsg.headerSize_le hfirst hrun hacc
          fun hc => absurd hc hconf)

theorem step_closed (hpc : t.pc = .check c) (hstate : t.state = .invalid)
    (h : pofscMainTask env t = some t') : StepOk t t' := by
  simp only [pofscMainTask, hpc, if_pos hstate] at h
  rw [Task.iterate_cases h]
  exact .down rfl hstate

/-- Once the four messages have been received, they stay received until the connection ends. -/
theorem inv_running (hstate : t.state = .run)
    (hpc : t.pc = .top ∨ t.pc = .loop .run ∨ t.pc = .check .run)
    (hgot : ∃ rest, Received RecvCase.run.before t.got rest) (h : pofscMainTask env t = some t') :
    HandshakeInv t' := by
  obtain ⟨rest, hrest⟩ := hgot
  rcases hpc with hpc | hpc | hpc
  · simp only [pofscMainTask, hpc, hstate, Task.runTop] at h
    split_ifs at h
    · obtain rfl := Option.some.inj h
      exact .running rfl (.inr (.inr rfl)) ⟨rest, hrest⟩
    · obtain ⟨u, hu, hfirst⟩ := Option.bind_eq_some_iff.1 h
      obtain ⟨hustate, hupc, hugot, -, -⟩ := Task.compact_frame hu
      rcases Task.firstRead_cases hfirst with ⟨hpc', hstate'⟩ | ⟨-, rfl⟩ | ⟨chunk, -, -, rfl⟩
      · exact .down hpc' (.inl hstate')
      · exact .running (hustate.trans hstate) (.inl rfl) ⟨rest, hugot ▸ hrest⟩
      · exact .running rfl (.inr (.inl rfl)) ⟨rest ++ chunk, (hugot ▸ hrest).read chunk⟩
  · simp only [pofscMainTask, hpc, Task.loopStep, if_pos] at h
    split_ifs at h
    · obtain ⟨u, hu, rfl⟩ := Option.map_eq_some_iff.1 h
      obtain ⟨hustate, hupc, hugot, -, -⟩ := Task.compact_frame hu
      rcases Task.nextRead_cases env u .run with heq | ⟨-, heq⟩ | ⟨chunk, -, -, heq⟩
      · rw [heq]
        exact .closed .run rfl rfl
      · rw [heq]
        exact .running (hustate.trans hstate) (.inr (.inr rfl)) ⟨rest, hugot ▸ hrest⟩
      · rw [heq]
        exact .running (hustate.trans hstate) (.inr (.inl hupc))
          ⟨rest ++ chunk, (hugot ▸ hrest).read chunk⟩
    · obtain rfl := Option.some.inj h
      exact .running hstate (.inr (.inr rfl)) ⟨rest, hrest⟩
  · have hvalid : t.state ≠ .invalid := by rw [hstate]; decide
    simp only [pofscMainTask, hpc, if_neg hvalid] at h
    obtain ⟨b, -, rfl⟩ := Task.checkRun_cases h
    exact .running hstate (.inl rfl) ⟨rest, hrest⟩

theorem step_running (hstate : t.state = .run)
    (hpc : t.pc = .top ∨ t.pc = .loop .run ∨ t.pc = .check .run)
    (hgot : ∃ rest, Received RecvCase.run.before t.got rest) (h : pofscMainTask env t = some t') :
    StepOk t t' := by
  refine ⟨inv_running hstate hpc hgot h, fun hentry => absurd ?_ hentry⟩
  rcases hpc with hpc | hpc | hpc
  · simp only [Task.entry, hpc, hstate]
  · simp only [Task.entry, hpc, RecvCase.state]
  · simp only [Task.entry, hpc, RecvCase.state]

/-- A step keeps the invariant, if the assumptions hold in the state it starts from. -/
theorem HandshakeInv.step (hinv : HandshakeInv t) (hasm : Assumed t) (hwhole : ConfigWhole t)
    (h : pofscMainTask env t = some t') : StepOk t t' := by
  cases hinv with
  | down hpc hstate => exact step_down hpc hstate h
  | fresh hpc hstate hgot hhanded => exact step_fresh hpc hstate hgot hhanded h
  | waiting c hhello hrun hpc hstate hbet hleft =>
      exact step_waiting hhello hrun hpc hstate hbet hleft h
  | reading c hrun hpc hstate hbet htotal hhead =>
      exact step_reading hasm hrun hpc hstate hbet htotal hhead h
  | checking c hrun hpc hstate hhello hbet hheader hlen =>
      exact step_checking hasm hwhole hrun hpc hstate hhello hbet hheader hlen h
  | closed c hpc hstate => exact step_closed hpc hstate h
  | running hstate hpc hgot => exact step_running hstate hpc hgot h

end Steps

/-! ### Runs -/

theorem handshakeInv_of_run {t : Task} (h : TaskRun (fun t => Assumed t ∧ ConfigWhole t) t) :
    HandshakeInv t ∧ Assumed t ∧ ConfigWhole t := by
  obtain ⟨s, hs, hpath⟩ := h
  induction hpath with
  | start hP => exact ⟨.down hs.pc (.inl hs.state), hP⟩
  | step _ hstep hP ih => exact ⟨(ih.1.step ih.2.1 ih.2.2 hstep).inv, hP⟩

/-- **`POFCS_CHANNEL_RUN` is reached only through the handshake.**  In every run in which no
`POFT_SET_CONFIG` is shorter than its structure while more bytes are there, the channel is in
`POFCS_CHANNEL_RUN` at the top of the loop only if the bytes read since the last connect start with
the four messages of the handshake; and every slot is cleared in the step that gets there. -/
theorem run_after_handshake {t : Task} (h : TaskRun (fun t => Assumed t ∧ ConfigWhole t) t) :
    (t.pc = .top → t.state = .run →
      ∃ rest, Received [.hello, .requestFeature, .setConfig, .requestGetConfig] t.got rest) ∧
    ∀ env t', pofscMainTask env t = some t' → t.entry ≠ .run → t'.pc = .top → t'.state = .run →
      ∀ lr ∈ t'.dp.slots, lr.Cleared := by
  obtain ⟨hinv, hasm, hwhole⟩ := handshakeInv_of_run h
  refine ⟨fun hpc hstate => ?_, fun env t' hstep hentry hpc hstate =>
    ((hinv.step hasm hwhole hstep).enters hentry hpc hstate).1.cleared⟩
  cases hinv with
  | down _ hstate' => rcases hstate' with hstate' | hstate' <;> cases hstate.symm.trans hstate'
  | fresh _ hstate' _ _ => rcases hstate' with hstate' | hstate' <;> cases hstate.symm.trans hstate'
  | waiting c _ hrun _ hstate' _ _ =>
      cases c with
      | run => exact absurd rfl hrun
      | _ => cases hstate.symm.trans hstate'
  | reading c _ hpc' _ _ _ _ => cases hpc.symm.trans hpc'
  | checking c _ hpc' _ _ _ _ _ => cases hpc.symm.trans hpc'
  | closed c hpc' _ => cases hpc.symm.trans hpc'
  | running _ _ hgot => exact hgot

/-- The four messages of a handshake: the third one has a `pof_switch_config`. -/
def handshakeBytes : Buf :=
  [4, 0, 0, 8, 0, 0, 0, 1, 4, 5, 0, 8, 0, 0, 0, 2, 4, 9, 0, 16, 0, 0, 0, 3, 0, 0, 0, 0, 0, 0, 0, 128,
    4, 7, 0, 8, 0, 0, 0, 4]

/-- The handshake in two reads, the second from the middle of the third message on. -/
def handshakeInTwo : List Env :=
  List.replicate 8 (Env.sends (handshakeBytes.take 26)) ++
    List.replicate 5 (Env.sends (handshakeBytes.drop 26))

/-- It leads to `POFCS_CHANNEL_RUN`. -/
theorem run_after_handshake_two_reads :
    ∃ t, TaskRun (fun t => Assumed t ∧ ConfigWhole t) t ∧ t.pc = .top ∧ t.state = .run ∧
      ∃ rest, Received [.hello, .requestFeature, .setConfig, .requestGetConfig] t.got rest := by
  have hsteps : ((Task.steps (fun t => Assumed t ∧ ConfigWhole t)
      handshakeInTwo .start).map fun t =>
        decide (t.pc = .top ∧ t.state = .run)) = some true := by decide +kernel
  obtain ⟨t, ht, hrun⟩ := Option.map_eq_some_iff.1 hsteps
  obtain ⟨hpc, hstate⟩ := of_decide_eq_true hrun
  have hpath : TaskRun (fun t => Assumed t ∧ ConfigWhole t) t :=
    ⟨.start, Task.initial_start, (TaskPath.start (by decide +kernel)).steps ht⟩
  exact ⟨t, hpath, hpc, hstate, (run_after_handshake hpath).1 hpc hstate⟩

theorem Received.cons {c : RecvCase} {cs : List RecvCase} {got rest : Buf}
    (h : Received (c :: cs) got rest) :
    c.Accepts got ∧ Received cs (got.drop (Header.length got)) rest := by
  obtain ⟨ms, hms, hgot⟩ := h
  obtain ⟨m, ms', ⟨hm, hc⟩, hrest, rfl⟩ := List.forall₂_cons_left_iff.1 hms
  rw [List.flatten_cons, List.append_assoc] at hgot
  rw [← (hm.split hgot).2, hgot]
  exact ⟨(RecvCase.accepts_append hm.headerSize_le _).2 hc, ms', hrest, rfl⟩

/-- A `POFT_HELLO`, a `POFT_FEATURES_REQUEST`, a `POFT_SET_CONFIG` without a configuration, and the
header of a `POFT_HELLO` of `0x704` bytes, which looks like a `POFT_GET_CONFIG_REQUEST` when its first
word is reversed. -/
def headerOnlyConfig : Buf :=
  [4, 0, 0, 8, 0, 0, 0, 1, 4, 5, 0, 8, 0, 0, 0, 2, 4, 9, 0, 8, 0, 0, 0, 3, 8, 0, 7, 4, 0, 0, 0, 4]

/-- The conversion of a configuration that is not there makes a `POFT_GET_CONFIG_REQUEST` of the next
message: the channel gets to `POFCS_CHANNEL_RUN` without one. -/
theorem run_without_getConfigRequest :
    ¬ ∀ t, TaskRun Assumed t → t.pc = .top → t.state = .run →
      ∃ rest, Received [.hello, .requestFeature, .setConfig, .requestGetConfig] t.got rest := by
  intro hclaim
  have hsteps : ((Task.steps Assumed (List.replicate 12 (Env.sends headerOnlyConfig)) .start).map
      fun t => decide (t.pc = .top ∧ t.state = .run ∧ t.got = headerOnlyConfig)) = some true := by
    decide +kernel
  obtain ⟨t, ht, hrun⟩ := Option.map_eq_some_iff.1 hsteps
  obtain ⟨hpc, hstate, hgot⟩ := of_decide_eq_true hrun
  have hpath : TaskRun Assumed t :=
    ⟨.start, Task.initial_start, (TaskPath.start (by decide +kernel)).steps ht⟩
  obtain ⟨rest, hrest⟩ := hclaim t hpath hpc hstate
  rw [hgot] at hrest
  have hlast := hrest.cons.2.cons.2.cons.2.cons.1
  revert hlast
  decide

end PofSwitch
