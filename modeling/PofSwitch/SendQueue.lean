/-
**The send queue: `pofsc_send_msg_task` of `switch_control/pof_switch.c`.**

The tasks of the switch put their messages for the controller into one queue, and the send task takes
them out and writes them to the connection.  Between two steps of the send task any task may put a
message into the queue, and the control task may close the connection and make a new one.  A write may
fail, and it may accept only the first bytes of a message.

The send task takes a write that accepts some bytes for a success, and it puts a message whose write
failed at the end of the queue.  So the controller gets what was enqueued when every write that does not
fail accepts the whole message, and nothing stands in the queue when a message is put back.

Main definitions:

* `PofSwitch.pofscBuildHeader`, `PofSwitch.upwardMsg` — the messages of the switch;
* `PofSwitch.pofbfQueueWrite`, `PofSwitch.pofbfQueueRead` — the queue;
* `PofSwitch.SendSys`, `PofSwitch.SendAct`, `PofSwitch.pofscSendMsgTask`, `PofSwitch.SendSys.act` — the
  system and its steps;
* `PofSwitch.SendRun` — the states it reaches;
* `PofSwitch.SendSys.InOrder` — what the controller is to see.

Main results:

* `PofSwitch.message_store` — a message that is taken out of the queue is found by its header;
* `PofSwitch.SendInv.act` — **no step loses, doubles or overtakes a message;**
* `PofSwitch.sends_in_order` — **the controller receives what was enqueued, in order.**
-/

import PofSwitch.Channel

set_option relaxedAutoImplicit false
set_option autoImplicit false

namespace PofSwitch

open Buf

/-! ### The messages of the switch -/

/-- `pofsc_build_header`: the header in network order.  The length is a 16-bit number. -/
def pofscBuildHeader (type : UInt8) (len : ℕ) (xid : UInt32) : Buf :=
  [pofVersion, type] ++ storeBE len 2 ++ storeBE xid.toNat 4

/-- A message as the tasks build it: `pofec_reply_msg`, `pofsc_build_error_msg` and
`pofsc_echo_timer`. -/
def upwardMsg (type : UInt8) (xid : UInt32) (body : Buf) : Buf :=
  pofscBuildHeader type (headerSize + body.length) xid ++ body

@[simp] theorem length_pofscBuildHeader (type : UInt8) (len : ℕ) (xid : UInt32) :
    (pofscBuildHeader type len xid).length = headerSize := rfl

@[simp] theorem length_upwardMsg (type : UInt8) (xid : UInt32) (body : Buf) :
    (upwardMsg type xid body).length = headerSize + body.length := by
  rw [upwardMsg, List.length_append, length_pofscBuildHeader]

/-- The header tells the length, when that fits its field. -/
theorem isMessage_upwardMsg {type : UInt8} {xid : UInt32} {body : Buf}
    (h : headerSize + body.length < 2 ^ 16) : IsMessage (upwardMsg type xid body) where
  headerSize_le := by
    rw [length_upwardMsg]
    exact Nat.le_add_right _ _
  length_eq := by
    rw [upwardMsg, Header.length_append (by rw [length_pofscBuildHeader]; decide), ← upwardMsg,
      length_upwardMsg]
    generalize headerSize + body.length = n at h ⊢
    change (u8 (n >>> 8)).toNat * 256 + (u8 (n >>> 0)).toNat = n
    rw [toNat_u8, toNat_u8, Nat.shiftRight_eq_div_pow, Nat.shiftRight_zero]
    omega

/-! ### The queue -/

/-- What a message in the queue is: its header gives its length, and it fits the buffers. -/
structure QueueMsg (m : Buf) : Prop where
  isMessage : IsMessage m
  length_le : m.length ≤ recvBufMaxSize

/-- `pofbf_queue_write`, which waits for room: a message that is longer than `POF_MESSAGE_SIZE` is
refused. -/
def pofbfQueueWrite (queue : List Buf) (m : Buf) : Option (List Buf) :=
  if recvBufMaxSize < m.length then none else some (queue ++ [m])

/-- `pofbf_queue_read`, which waits for a message: the first one, and the rest of the queue. -/
def pofbfQueueRead : List Buf → Option (Buf × List Buf)
  | [] => none
  | m :: queue => some (m, queue)

theorem pofbfQueueWrite_cases {queue queue' : List Buf} {m : Buf}
    (h : pofbfQueueWrite queue m = some queue') : m.length ≤ recvBufMaxSize ∧ queue' = queue ++ [m] := by
  unfold pofbfQueueWrite at h
  split_ifs at h with hlong
  exact ⟨Nat.le_of_not_lt hlong, (Option.some.inj h).symm⟩

theorem pofbfQueueRead_cases {queue queue' : List Buf} {m : Buf}
    (h : pofbfQueueRead queue = some (m, queue')) : queue = m :: queue' := by
  cases queue with
  | nil => cases h
  | cons n rest =>
      cases h
      rfl

/-! ### The system -/

/-- The points between two steps of the send task: the `switch` on the state of the channel, the call of
`pofbf_queue_read`, the call of `pofsc_send`, the reset of the connection after a failure, and the call
of `pofbf_queue_write`. -/
inductive SendPc
  | poll | fetch | send | hangUp | putBack
deriving DecidableEq, Repr

/-- What `write(2)` returns: `-1`, or the number of bytes it accepts. -/
inductive WriteResult
  | failed
  | accepted (n : ℕ)
deriving DecidableEq, Repr

/-- The connection as `pofsc_conn_desc` has it, the point of the send task, its buffer `msg_buf` and the
queue.  `enqueued` and `written` record a history: the messages that the tasks put into the queue, and
the bytes of every write with the descriptor they were written to. -/
structure SendSys where
  state : ChannelState
  sfd : ℕ
  pc : SendPc
  msgBuf : RecvBuf
  queue : List Buf
  enqueued : List Buf
  written : List (ℕ × Buf)

/-- A step: a task puts a message into the queue, the control task changes the connection, or the send
task goes on. -/
inductive SendAct
  | enqueue (type : UInt8) (xid : UInt32) (body : Buf)
  | control (state : ChannelState) (sfd : ℕ)
  | task (result : WriteResult)

/-- The states in which the send task takes a message from the queue. -/
def ChannelState.sends : ChannelState → Bool
  | .invalid | .connecting | .connected | .hello => false
  | .setConfig | .requestFeature | .requestGetConfig | .run => true

namespace SendSys

variable (s : SendSys)

/-- The message in `msg_buf`, as long as its header says. -/
def message : Buf := s.msgBuf.bytes.take (Header.length s.msgBuf.bytes)

/-- `pofsc_send`: a failure closes the connection, and everything else is a success. -/
def pofscSend : WriteResult → Option SendSys
  | .failed => some { s with state := .invalid, pc := .hangUp }
  | .accepted n =>
      if 0 < n ∧ n ≤ s.message.length then
        some { s with written := s.written ++ [(s.sfd, s.message.take n)], pc := .poll }
      else none

end SendSys

/-- A step of `pofsc_send_msg_task`.  There is none while it waits for a message. -/
def pofscSendMsgTask (result : WriteResult) (s : SendSys) : Option SendSys :=
  match s.pc with
  | .poll => some { s with pc := if s.state.sends then .fetch else .poll }
  | .fetch =>
      (pofbfQueueRead s.queue).map fun mq =>
        { s with msgBuf := s.msgBuf.store 0 mq.1, queue := mq.2, pc := .send }
  | .send => s.pofscSend result
  | .hangUp => some { s with sfd := 0, state := .invalid, pc := .putBack }
  | .putBack =>
      -- the message goes behind everything that stands in the queue by now
      some { s with queue := (pofbfQueueWrite s.queue s.message).getD s.queue, pc := .poll }

/-- A step of the system.  The control task may leave any state and any descriptor, as it does not see
what the send task writes to them. -/
def SendSys.act (s : SendSys) : SendAct → Option SendSys
  | .enqueue type xid body =>
      match pofbfQueueWrite s.queue (upwardMsg type xid body) with
      | some queue =>
          some { s with queue := queue, enqueued := s.enqueued ++ [upwardMsg type xid body] }
      | none => some s
  | .control state sfd => some { s with state := state, sfd := sfd }
  | .task result => pofscSendMsgTask result s

/-- The system at start-up. -/
structure SendSys.Initial (s : SendSys) : Prop where
  pc : s.pc = .poll
  queue : s.queue = []
  enqueued : s.enqueued = []
  written : s.written = []

/-- The states the system reaches by steps that satisfy `P`. -/
inductive SendRun (P : SendSys → SendAct → Prop) : SendSys → Prop
  | start {s : SendSys} : s.Initial → SendRun P s
  | step {s s' : SendSys} {a : SendAct} : SendRun P s → P s a → s.act a = some s' → SendRun P s'

namespace SendSys

variable (s : SendSys)

/-- What the controller receives, write by write.  Descriptor `0` is none of its connections. -/
def received : List Buf := (s.written.filter fun w => w.1 ≠ 0).map Prod.snd

/-- **The controller received enqueued messages, each whole, at most once and in the order of the queue.** -/
def InOrder : Prop := s.received.Sublist s.enqueued

/-- The message that the send task has taken out of the queue and not written yet. -/
def held : List Buf :=
  match s.pc with
  | .poll | .fetch => []
  | .send | .hangUp | .putBack => [s.message]

/-- A write that does not fail accepts the whole message. -/
def WritesWhole : SendAct → Prop
  | .task (.accepted n) => s.pc = .send → n = s.message.length
  | _ => True

/-- No message stands in the queue when one is put back. -/
def PutsBackFirst : SendAct → Prop
  | .task _ => s.pc = .putBack → s.queue = []
  | _ => True

instance (a : SendAct) : Decidable (s.WritesWhole a) :=
  match a with
  | .task (.accepted n) => inferInstanceAs (Decidable (s.pc = .send → n = s.message.length))
  | .task .failed | .enqueue .. | .control .. => inferInstanceAs (Decidable True)

instance (a : SendAct) : Decidable (s.PutsBackFirst a) :=
  match a with
  | .task _ => inferInstanceAs (Decidable (s.pc = .putBack → s.queue = []))
  | .enqueue .. | .control .. => inferInstanceAs (Decidable True)

instance : Decidable s.InOrder := inferInstanceAs (Decidable (s.received.Sublist s.enqueued))

/-- The state after some steps, if all of them satisfy `P`. -/
def acts (P : SendSys → SendAct → Prop) [∀ s a, Decidable (P s a)] :
    List SendAct → SendSys → Option SendSys
  | [], s => some s
  | a :: as, s => if P s a then (s.act a).bind (acts P as) else none

end SendSys

/-! ### What a step preserves -/

/-- A message that is stored at the start of the buffer is the one that its header delimits. -/
theorem message_store {m : Buf} (hm : QueueMsg m) (s : SendSys) (queue : List Buf) (pc : SendPc) :
    { s with msgBuf := s.msgBuf.store 0 m, queue := queue, pc := pc }.message = m := by
  have hbytes : s.msgBuf.bytes.paste 0 m = m ++ s.msgBuf.bytes.drop m.length := by
    rw [paste, List.take_zero, List.nil_append, Nat.sub_zero, Nat.zero_add,
      List.take_of_length_le (s.msgBuf.length_bytes ▸ hm.length_le)]
  exact (hm.isMessage.split hbytes).1.symm

/-- **The account of the messages**: what is written, what the send task holds and what is queued make up
what was enqueued, in this order. -/
structure SendInv (s : SendSys) : Prop where
  queued : ∀ m ∈ s.queue, QueueMsg m
  held : ∀ m ∈ s.held, QueueMsg m
  account : s.written.map Prod.snd ++ s.held ++ s.queue = s.enqueued

namespace SendInv

variable {s s' : SendSys}

/-- At start-up there is nothing to account for. -/
theorem start (h : s.Initial) : SendInv s := by
  have hheld : s.held = [] := by simp only [SendSys.held, h.pc]
  refine ⟨?_, ?_, ?_⟩
  · simp [h.queue]
  · simp [hheld]
  · simp [hheld, h.queue, h.enqueued, h.written]

/-- A task puts a message behind the others. -/
theorem enqueue {m : Buf} (h : SendInv s) (hm : QueueMsg m) :
    SendInv { s with queue := s.queue ++ [m], enqueued := s.enqueued ++ [m] } where
  queued n hn := by
    rcases List.mem_append.1 hn with hn | hn
    · exact h.queued n hn
    · exact List.mem_singleton.1 hn ▸ hm
  held := h.held
  account := by
    rw [← List.append_assoc]
    exact congrArg (· ++ [m]) h.account

/-- The first message leaves the queue and is held. -/
theorem fetch {m : Buf} {queue : List Buf} (h : SendInv s) (hpc : s.pc = .fetch)
    (hqueue : s.queue = m :: queue) :
    SendInv { s with msgBuf := s.msgBuf.store 0 m, queue := queue, pc := .send } := by
  have hm : QueueMsg m := h.queued m (by rw [hqueue]; exact List.mem_cons_self)
  have hheld : { s with msgBuf := s.msgBuf.store 0 m, queue := queue, pc := .send }.held = [m] := by
    simp only [SendSys.held, message_store hm]
  have hbefore : s.held = [] := by simp only [SendSys.held, hpc]
  refine ⟨?_, ?_, ?_⟩
  · intro n hn
    exact h.queued n (by rw [hqueue]; exact List.mem_cons_of_mem m hn)
  · intro n hn
    rw [hheld] at hn
    exact List.mem_singleton.1 hn ▸ hm
  · rw [hheld, ← h.account, hbefore, hqueue, List.append_nil, List.append_assoc]
    rfl

/-- The message that is held is written. -/
theorem write (h : SendInv s) (hpc : s.pc = .send) :
    SendInv { s with written := s.written ++ [(s.sfd, s.message)], pc := .poll } where
  queued := h.queued
  held m hm := by cases hm
  account := by
    have hheld : s.held = [s.message] := by simp only [SendSys.held, hpc]
    rw [← h.account, hheld, List.map_append]
    change _ ++ [s.message] ++ [] ++ s.queue = _
    rw [List.append_nil]

/-- The message that is held goes to an empty queue. -/
theorem putBack (h : SendInv s) (hpc : s.pc = .putBack) (hqueue : s.queue = []) :
    SendInv { s with queue := [s.message], pc := .poll } where
  queued m hm := h.held m (by simpa only [SendSys.held, hpc] using hm)
  held m hm := by cases hm
  account := by
    have hheld : s.held = [s.message] := by simp only [SendSys.held, hpc]
    rw [← h.account, hheld, hqueue, List.append_nil]
    change _ ++ [] ++ [s.message] = _
    rw [List.append_nil]

/-- A step that leaves the queue, the history and the message that is held. -/
theorem keep (h : SendInv s) (hqueue : s'.queue = s.queue) (hheld : s'.held = s.held)
    (henqueued : s'.enqueued = s.enqueued) (hwritten : s'.written = s.written) : SendInv s' where
  queued := by
    rw [hqueue]
    exact h.queued
  held := by
    rw [hheld]
    exact h.held
  account := by
    rw [hqueue, hheld, henqueued, hwritten]
    exact h.account

/-- A step of the send task. -/
theorem sendTask {result : WriteResult} (h : SendInv s) (hwhole : s.WritesWhole (.task result))
    (hfirst : s.PutsBackFirst (.task result)) (hstep : pofscSendMsgTask result s = some s') :
    SendInv s' := by
  unfold pofscSendMsgTask at hstep
  split at hstep
  · rename_i hpc
    cases hstep
    refine h.keep rfl ?_ rfl rfl
    cases hstate : s.state.sends
    · simp [SendSys.held, hpc]
    · simp [SendSys.held, hpc]
  · rename_i hpc
    obtain ⟨⟨m, queue⟩, hread, rfl⟩ := Option.map_eq_some_iff.1 hstep
    exact h.fetch hpc (pofbfQueueRead_cases hread)
  · rename_i hpc
    cases result with
    | failed =>
        cases hstep
        exact h.keep rfl (by simp [SendSys.held, hpc, SendSys.message]) rfl rfl
    | accepted n =>
        obtain rfl := hwhole hpc
        simp only [SendSys.pofscSend, List.take_length] at hstep
        split_ifs at hstep with hn
        cases hstep
        exact h.write hpc
  · rename_i hpc
    cases hstep
    exact h.keep rfl (by simp [SendSys.held, hpc, SendSys.message]) rfl rfl
  · rename_i hpc
    cases hstep
    have hqueue : s.queue = [] := hfirst hpc
    have hlength : s.message.length ≤ recvBufMaxSize := by
      rw [SendSys.message, List.length_take, s.msgBuf.length_bytes]
      exact Nat.min_le_right _ _
    rw [pofbfQueueWrite, if_neg (Nat.not_lt.2 hlength), hqueue]
    exact h.putBack hpc hqueue

/-- **A step of the system keeps the account.** -/
theorem act {a : SendAct} (h : SendInv s) (hwhole : s.WritesWhole a) (hfirst : s.PutsBackFirst a)
    (hstep : s.act a = some s') : SendInv s' := by
  cases a with
  | enqueue type xid body =>
      simp only [SendSys.act] at hstep
      split at hstep
      · rename_i queue hwrite
        obtain ⟨hlength, rfl⟩ := pofbfQueueWrite_cases hwrite
        cases hstep
        rw [length_upwardMsg] at hlength
        have hfits : headerSize + body.length < 2 ^ 16 :=
          Nat.lt_of_le_of_lt hlength (by decide)
        exact h.enqueue ⟨isMessage_upwardMsg hfits, by rwa [length_upwardMsg]⟩
      · cases hstep
        exact h
  | control state sfd =>
      cases hstep
      exact h.keep rfl rfl rfl rfl
  | task result => exact h.sendTask hwhole hfirst hstep

end SendInv

/-! ### Runs -/

/-- The account in every state of a run. -/
theorem sendInv_of_run {s : SendSys}
    (h : SendRun (fun s a => s.WritesWhole a ∧ s.PutsBackFirst a) s) : SendInv s := by
  induction h with
  | start hs => exact SendInv.start hs
  | step _ hP hstep ih => exact ih.act hP.1 hP.2 hstep

/-- **The controller receives what was enqueued, in order**: in a run in which every write that does not
fail accepts the whole message, and no message stands in the queue when one is put back.  And none is
lost: what is not written yet is held by the send task or queued. -/
theorem sends_in_order {s : SendSys}
    (h : SendRun (fun s a => s.WritesWhole a ∧ s.PutsBackFirst a) s) :
    s.InOrder ∧ s.written.map Prod.snd ++ s.held ++ s.queue = s.enqueued := by
  have haccount := (sendInv_of_run h).account
  refine ⟨?_, haccount⟩
  rw [SendSys.InOrder, ← haccount, List.append_assoc]
  exact (List.filter_sublist.map Prod.snd).trans (List.sublist_append_left _ _)

/-- The system at start-up, with nothing in its buffer. -/
def SendSys.start : SendSys where
  state := .invalid
  sfd := 0
  pc := .poll
  msgBuf := Task.start.recvBuf
  queue := []
  enqueued := []
  written := []

/-- A run can be found by computing it. -/
theorem SendRun.acts {P : SendSys → SendAct → Prop} [∀ s a, Decidable (P s a)] {as : List SendAct}
    {s s' : SendSys} (h : SendRun P s) (hacts : s.acts P as = some s') : SendRun P s' := by
  induction as generalizing s with
  | nil => exact Option.some.inj hacts ▸ h
  | cons a as ih =>
      simp only [SendSys.acts] at hacts
      split_ifs at hacts with hP
      obtain ⟨u, hu, hrest⟩ := Option.bind_eq_some_iff.1 hacts
      exact ih (h.step hP hu) hrest

/-- The control task sets up a connection. -/
def connects (sfd : ℕ) : List SendAct :=
  [.connecting, .connected, .hello, .requestFeature, .setConfig, .requestGetConfig, .run].map
    fun state => .control state sfd

/-- The timer puts a `POFT_ECHO_REQUEST` into the queue. -/
def echoTimer (xid : UInt32) : SendAct := .enqueue 2 xid []

/-- The send task takes a message from the queue and writes it. -/
def sendsOne (result : WriteResult) : List SendAct := [.task .failed, .task .failed, .task result]

/-- A message whose write fails is sent on the next connection, before the one that follows it. -/
theorem sends_in_order_again : ∃ s,
    SendRun (fun s a => s.WritesWhole a ∧ s.PutsBackFirst a) s ∧
      s.received = [upwardMsg 2 9 [], upwardMsg 2 10 []] ∧ s.InOrder := by
  have hacts : ((SendSys.start.acts (fun s a => s.WritesWhole a ∧ s.PutsBackFirst a)
      (connects 5 ++ [echoTimer 9] ++ sendsOne .failed ++ [.task .failed, .task .failed] ++ connects 6 ++
        [echoTimer 10] ++ sendsOne (.accepted 8) ++ sendsOne (.accepted 8))).map fun s =>
          decide (s.received = [upwardMsg 2 9 [], upwardMsg 2 10 []])) = some true := by
    decide +kernel
  obtain ⟨s, hs, hend⟩ := Option.map_eq_some_iff.1 hacts
  have hrun := (SendRun.start ⟨rfl, rfl, rfl, rfl⟩).acts hs
  exact ⟨s, hrun, of_decide_eq_true hend, (sends_in_order hrun).1⟩

/-- Each of the conditions is needed: three bytes of a message may be all that is ever sent of it, and a
message that is put back is overtaken by the one behind it. -/
theorem sends_part_or_out_of_order :
    ¬ (∀ s, SendRun (fun s a => s.PutsBackFirst a) s → s.InOrder) ∧
      ¬ (∀ s, SendRun (fun s a => s.WritesWhole a) s → s.InOrder) := by
  have hpart : ((SendSys.start.acts (fun s a => s.PutsBackFirst a)
      (connects 5 ++ [echoTimer 9] ++ sendsOne (.accepted 3))).map fun s =>
        decide (s.InOrder)) = some false := by decide +kernel
  have hlate : ((SendSys.start.acts (fun s a => s.WritesWhole a)
      (connects 5 ++ [echoTimer 9, echoTimer 10] ++ sendsOne .failed ++ [.task .failed, .task .failed] ++
        connects 6 ++ sendsOne (.accepted 8) ++ sendsOne (.accepted 8))).map fun s =>
          decide (s.InOrder)) = some false := by decide +kernel
  constructor
  · intro hclaim
    obtain ⟨s, hs, hend⟩ := Option.map_eq_some_iff.1 hpart
    exact of_decide_eq_false hend (hclaim s ((SendRun.start ⟨rfl, rfl, rfl, rfl⟩).acts hs))
  · intro hclaim
    obtain ⟨s, hs, hend⟩ := Option.map_eq_some_iff.1 hlate
    exact of_decide_eq_false hend (hclaim s ((SendRun.start ⟨rfl, rfl, rfl, rfl⟩).acts hs))

end PofSwitch
