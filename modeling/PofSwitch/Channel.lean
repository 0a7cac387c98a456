/-
**The control task: `pofsc_main_task` of `switch_control/pof_switch.c`.**

The task is an endless loop around a `switch` on the state of the channel.  Five of its cases receive
a message: they read into the receive buffer until the message at `process_len` is there, check it,
have it handled and move on.  A step of the model goes from one of three points of such a case to the
next: from the top of the loop, from the test of the inner loop that waits for the rest of a message,
or from the check of the message.

What the rest of the world does in a step is in an environment: whether the calls succeed, which bytes
`read(2)` could return, and how the handler of a message leaves the slots.  A step has no result when
the process exits, or when it copies memory onto itself or leaves an array.

Main definitions:

* `PofSwitch.ChannelState`, `PofSwitch.RecvCase`, `PofSwitch.Pc`, `PofSwitch.Task` — the task;
* `PofSwitch.Env`, `PofSwitch.pofscRecv` — the environment of a step, and one `read(2)`;
* `PofSwitch.pofscMainTask` — a step;
* `PofSwitch.TaskPath`, `PofSwitch.TaskRun` — the states the task reaches.

Main results:

* `PofSwitch.Task.unread_store`, `PofSwitch.Task.unread_advance`, `PofSwitch.Task.unread_convert` —
  **what a read, the end of a message and its conversion do to the bytes that are received and not yet handled.**
-/

import Mathlib.Data.Fintype.Basic
import PofSwitch.LrRequest
import PofSwitch.Message

set_option relaxedAutoImplicit false
set_option autoImplicit false

namespace PofSwitch

open Buf

/-! ### The state of the task -/

/-- `POF_RECV_BUF_MAX_SIZE`. -/
def recvBufMaxSize : ℕ := 2560

/-- `pof_channel_state`. -/
inductive ChannelState
  | invalid | connecting | connected | hello | requestFeature | setConfig | requestGetConfig | run
deriving DecidableEq, Repr

/-- The cases of the `switch` that receive a message. -/
inductive RecvCase
  | hello | requestFeature | setConfig | requestGetConfig | run
deriving DecidableEq, Repr

namespace RecvCase

instance : Fintype RecvCase where
  elems := {hello, requestFeature, setConfig, requestGetConfig, run}
  complete c := by cases c <;> decide

/-- The state of a case. -/
def state : RecvCase → ChannelState
  | hello => .hello
  | requestFeature => .requestFeature
  | setConfig => .setConfig
  | requestGetConfig => .requestGetConfig
  | run => .run

/-- The state a case moves to, already when the first bytes of the message are there. -/
def next : RecvCase → ChannelState
  | hello => .requestFeature
  | requestFeature => .setConfig
  | setConfig => .requestGetConfig
  | requestGetConfig => .run
  | run => .run

/-- What a case checks in the header of a message. -/
def Accepts (c : RecvCase) (m : Buf) : Prop :=
  match c with
  | hello => Header.version m ≤ pofVersion ∧ Header.type m = MsgType.hello.code
  | requestFeature => Header.type m = MsgType.featuresRequest.code
  | setConfig => Header.version m ≤ pofVersion ∧ Header.type m = MsgType.setConfig.code
  | requestGetConfig => Header.type m = MsgType.getConfigRequest.code
  | run => True

instance (c : RecvCase) (m : Buf) : Decidable (c.Accepts m) :=
  match c with
  | hello | setConfig => inferInstanceAs (Decidable (_ ∧ _))
  | requestFeature | requestGetConfig => inferInstanceAs (Decidable (_ = _))
  | run => inferInstanceAs (Decidable True)

end RecvCase

/-- The points between two steps: the top of the loop, the test of the inner loop of a case, and the
check of the message of a case. -/
inductive Pc
  | top
  | loop (c : RecvCase)
  | check (c : RecvCase)
deriving DecidableEq, Repr

/-- The receive buffer of `pofsc_dev_conn_desc`. -/
structure RecvBuf where
  bytes : Buf
  length_bytes : bytes.length = recvBufMaxSize

/-- The state of the channel, the local variables of `pofsc_main_task`, the receive buffer and the
slots.  `got` and `handed` record a history: the bytes read since the last successful connect, and the
messages given to `pofsc_run_process` since then. -/
structure Task where
  state : ChannelState
  pc : Pc
  recvBuf : RecvBuf
  rcvLen : ℕ
  processLen : ℕ
  leftLen : ℤ
  totalLen : ℤ
  headPtr : ℕ
  dp : Slots
  got : Buf
  handed : List Buf

/-- What happens around one step: the results of `pofsc_create_socket`, of `pofsc_connect` and of
`pofsc_send`, the bytes that are there for `read(2)` (none when it fails or the connection is closed),
the result of `pof_parse_msg_from_controller` in the handshake, whether the report of an error gets
into the send queue, `pof_auto_clear()`, and the slots as the handler of a message leaves them. -/
structure Env where
  socketOk : Bool
  connectOk : Bool
  sendOk : Bool
  ready : Buf
  parseOk : Bool
  reportOk : Bool
  autoClear : Bool
  dp : Slots

/-- `poflr_clear_resource` in every slot. -/
def Slots.clear (dp : Slots) : Slots where
  slotNum := dp.slotNum
  slots := dp.slots.map poflrClearResource
  slotNum_eq := by rw [List.length_map, dp.slotNum_eq]

/-! ### Receiving -/

/-- The three outcomes of `pofsc_recv`: there is no room for a byte, `read(2)` returns nothing, or it
returns bytes. -/
inductive Recv
  | noRoom
  | closed
  | data (chunk : Buf)
deriving DecidableEq, Repr

/-- `pofsc_recv`. -/
def pofscRecv (env : Env) (buflen : ℕ) : Recv :=
  if buflen = 0 then .noRoom
  else if env.ready.take buflen = [] then .closed
  else .data (env.ready.take buflen)

/-- Bytes stored in the buffer from index `p` on. -/
def RecvBuf.store (b : RecvBuf) (p : ℕ) (src : Buf) : RecvBuf where
  bytes := b.bytes.paste p src
  length_bytes := by rw [length_paste, b.length_bytes]

/-- A routine that keeps the length, applied to the buffer from index `p` on; the conversion of `n` bytes must
not leave the buffer. -/
def RecvBuf.convert (b : RecvBuf) (p n : ℕ) (f : Buf → Buf) (hf : ∀ d, (f d).length = d.length) :
    Option RecvBuf :=
  if p + n ≤ recvBufMaxSize then some ⟨onData p f b.bytes, by rw [length_onData hf, b.length_bytes]⟩ else none

@[simp] theorem RecvBuf.bytes_store (b : RecvBuf) (p : ℕ) (src : Buf) :
    (b.store p src).bytes = b.bytes.paste p src := rfl

/-- A conversion that stays inside the buffer. -/
theorem RecvBuf.convert_eq_some {b c : RecvBuf} {p n : ℕ} {f : Buf → Buf} {hf : ∀ d, (f d).length = d.length}
    (h : b.convert p n f hf = some c) : c.bytes = onData p f b.bytes := by
  unfold RecvBuf.convert at h
  split_ifs at h
  rw [← Option.some.inj h]

theorem RecvBuf.exists_convert (b : RecvBuf) {p n : ℕ} {f : Buf → Buf} (hf : ∀ d, (f d).length = d.length)
    (h : p + n ≤ recvBufMaxSize) : ∃ c, b.convert p n f hf = some c := ⟨_, if_pos h⟩

namespace Task

variable (env : Env) (t : Task)

/-- The bytes at an index of the receive buffer, as `recv_buf + p` points to them. -/
def at_ (p : ℕ) : Buf := t.recvBuf.bytes.drop p

/-- The bytes that are received and not handled yet. -/
def unread : Buf := (t.recvBuf.bytes.take t.rcvLen).drop t.processLen

/-- A `read(2)` into the buffer behind `rcv_len`. -/
def store (chunk : Buf) : Task :=
  { t with
    recvBuf := t.recvBuf.store t.rcvLen chunk
    rcvLen := t.rcvLen + chunk.length
    got := t.got ++ chunk }

/-- `pofsc_performance_after_ctrl_disconn`, compiled to reconnect. -/
def pofscPerformanceAfterCtrlDisconn : Task :=
  { t with
    state := .invalid
    dp := if env.autoClear then t.dp.clear else t.dp }

/-- The end of an iteration.  An error is reported through the send queue; when that fails the process
exits. -/
def iterate : Option Task := if env.reportOk then some { t with pc := .top } else none

/-- The test in front of a read: a whole header and a whole message are there.  `left_len` is compared
with the size of a header as an unsigned number, and with the length of the message as a signed one. -/
def Ready : Prop :=
  (t.leftLen < 0 ∨ headerSize ≤ t.leftLen) ∧ Header.length (t.at_ t.processLen) ≤ t.leftLen

instance : Decidable t.Ready :=
  inferInstanceAs (Decidable ((t.leftLen < 0 ∨ headerSize ≤ t.leftLen) ∧ _))

/-- `memcpy` of the rest to the front of a full buffer.  Its size is taken as an unsigned number, and
its arguments must not overlap. -/
def compact : Option Task :=
  if t.rcvLen = recvBufMaxSize then
    if 0 ≤ t.leftLen ∧ t.leftLen ≤ t.processLen then
      some { t with
        recvBuf := t.recvBuf.store 0 ((t.at_ t.processLen).take t.leftLen.toNat)
        rcvLen := t.leftLen.toNat
        processLen := 0 }
    else none
  else some t

/-- The end of a case: `process_len` moves behind the message. -/
def advance (len : ℕ) : Task :=
  { t with
    processLen := if t.rcvLen = t.processLen + len then 0 else t.processLen + len
    rcvLen := if t.rcvLen = t.processLen + len then 0 else t.rcvLen
    leftLen := (t.rcvLen : ℤ) - (t.processLen + len) }

/-! ### The cases -/

/-- The buffer is taken as empty. -/
def reset : Task := { t with rcvLen := 0, processLen := 0, leftLen := 0, totalLen := 0 }

/-- The top of `case POFCS_HELLO`. -/
def helloTop : Option Task :=
  match pofscRecv env recvBufMaxSize with
  | .data chunk =>
      some { t.reset.store chunk with
        totalLen := chunk.length
        headPtr := 0
        dp := t.dp.clear
        state := .requestFeature
        pc := .loop .hello }
  | .closed => (t.reset.pofscPerformanceAfterCtrlDisconn env).iterate env
  | .noRoom => t.reset.iterate env

/-- The first read of a case other than `POFCS_HELLO`, when no whole message is left. -/
def firstRead (c : RecvCase) : Option Task :=
  match pofscRecv env (recvBufMaxSize - t.rcvLen) with
  | .data chunk =>
      some { t.store chunk with
        totalLen := chunk.length + t.leftLen
        headPtr := t.processLen
        state := c.next
        pc := .loop c }
  | .closed => (t.pofscPerformanceAfterCtrlDisconn env).iterate env
  | .noRoom => t.iterate env

/-- The top of `case POFCS_REQUEST_FEATURE`, `POFCS_SET_CONFIG` and `POFCS_REQUEST_GET_CONFIG`. -/
def handshakeTop (c : RecvCase) : Option Task :=
  if t.Ready then some { t with pc := .check c } else t.firstRead env c

/-- The top of `case POFCS_CHANNEL_RUN`: a full buffer is compacted before the read. -/
def runTop : Option Task :=
  if t.Ready then some { t with pc := .check .run }
  else t.compact.bind (firstRead env · .run)

/-- A further read of a case.  When it fails the inner loop is left. -/
def nextRead (c : RecvCase) : Task :=
  match pofscRecv env (recvBufMaxSize - t.rcvLen) with
  | .data chunk => { t.store chunk with totalLen := t.totalLen + chunk.length }
  | .closed => { t.pofscPerformanceAfterCtrlDisconn env with pc := .check c }
  | .noRoom => { t with pc := .check c }

/-- The test of the inner loop, and its body.  In `case POFCS_CHANNEL_RUN` the body first compacts a
full buffer; `head_ptr` stays where it was. -/
def loopStep (c : RecvCase) : Option Task :=
  if t.totalLen < Header.length (t.at_ t.headPtr) then
    if c = .run then
      { t with leftLen := (t.rcvLen : ℤ) - t.processLen }.compact.map (nextRead env · c)
    else some (t.nextRead env c)
  else some { t with pc := .check c }

/-- The check of `case POFCS_HELLO`, which moves on also when the message is refused. -/
def checkHello : Option Task :=
  let m := t.at_ t.headPtr
  let t := if RecvCase.hello.Accepts m then t else { t with state := .invalid }
  (t.advance (Header.length m)).iterate env

/-- The check of the other cases of the handshake, and the handling of the message: the replies leave
the slots alone. -/
def checkHandshake (c : RecvCase) : Option Task :=
  let m := t.at_ t.processLen
  if c.Accepts m then
    if env.parseOk then
      (t.recvBuf.convert t.processLen (parseExtent m) parseTransfer length_parseTransfer).bind fun b =>
        ({ t with state := c.next, recvBuf := b }.advance (Header.length m)).iterate env
    else none
  else { t with state := .invalid }.iterate env

/-- `case POFCS_CHANNEL_RUN` from the check on: `pofsc_run_process` gets the message. -/
def checkRun : Option Task :=
  let m := t.at_ t.processLen
  if ActionCountsFit m then
    (t.recvBuf.convert t.processLen (runExtent m) runTransfer length_runTransfer).bind fun b =>
      ({ t with
        recvBuf := b
        dp := env.dp
        handed := t.handed ++ [m.take (Header.length m)] }.advance (Header.length m)).iterate env
  else none

end Task

/-! ### The task -/

/-- A step of `pofsc_main_task`. -/
def pofscMainTask (env : Env) (t : Task) : Option Task :=
  match t.pc with
  | .top =>
      match t.state with
      | .invalid => if env.socketOk then { t with state := .connecting }.iterate env else none
      | .connecting =>
          if env.connectOk then
            { t with state := .connected, got := [], handed := [] }.iterate env
          else { t with state := .invalid }.iterate env
      | .connected =>
          if env.sendOk then { t with state := .hello }.iterate env
          else (t.pofscPerformanceAfterCtrlDisconn env).iterate env
      | .hello => t.helloTop env
      | .requestFeature => t.handshakeTop env .requestFeature
      | .setConfig => t.handshakeTop env .setConfig
      | .requestGetConfig => t.handshakeTop env .requestGetConfig
      | .run => t.runTop env
  | .loop c => t.loopStep env c
  | .check c =>
      if t.state = .invalid then t.iterate env
      else
        match c with
        | .hello => t.checkHello env
        | .requestFeature => t.checkHandshake env .requestFeature
        | .setConfig => t.checkHandshake env .setConfig
        | .requestGetConfig => t.checkHandshake env .requestGetConfig
        | .run => t.checkRun env

/-- The state in which the current iteration began: the case of the `switch` the task is in. -/
def Task.entry (t : Task) : ChannelState :=
  match t.pc with
  | .top => t.state
  | .loop c | .check c => c.state

/-- The states the task reaches from `s` when every one of them satisfies `P`. -/
inductive TaskPath (P : Task → Prop) (s : Task) : Task → Prop
  | start : P s → TaskPath P s s
  | step {t t' : Task} {env : Env} : TaskPath P s t → pofscMainTask env t = some t' → P t' →
      TaskPath P s t'

/-- A task at start-up. -/
structure Task.Initial (t : Task) : Prop where
  state : t.state = .invalid
  pc : t.pc = .top
  rcvLen : t.rcvLen = 0
  processLen : t.processLen = 0

/-- The states the task reaches from start-up when every one of them satisfies `P`. -/
def TaskRun (P : Task → Prop) (t : Task) : Prop := ∃ s, s.Initial ∧ TaskPath P s t

/-- The task after a step in each of the environments, if every state on the way satisfies `P`. -/
def Task.steps (P : Task → Prop) [DecidablePred P] : List Env → Task → Option Task
  | [], t => some t
  | env :: envs, t => (pofscMainTask env t).bind fun t => if P t then t.steps P envs else none

theorem TaskPath.steps {P : Task → Prop} [DecidablePred P] {envs : List Env} {s t t' : Task}
    (h : TaskPath P s t) (hsteps : t.steps P envs = some t') : TaskPath P s t' := by
  induction envs generalizing t with
  | nil => exact Option.some.inj hsteps ▸ h
  | cons env envs ih =>
      obtain ⟨u, hu, hrest⟩ := Option.bind_eq_some_iff.1 hsteps
      split_ifs at hrest with hP
      exact ih (h.step hu hP) hrest

theorem TaskPath.mono {P Q : Task → Prop} (hPQ : ∀ t, P t → Q t) {s t : Task} (h : TaskPath P s t) :
    TaskPath Q s t := by
  induction h with
  | start hP => exact .start (hPQ _ hP)
  | step _ hstep hP ih => exact .step ih hstep (hPQ _ hP)

/-- A task at start-up, with no slot. -/
def Task.start : Task where
  state := .invalid
  pc := .top
  recvBuf := ⟨zeros recvBufMaxSize, List.length_replicate⟩
  rcvLen := 0
  processLen := 0
  leftLen := 0
  totalLen := 0
  headPtr := 0
  dp := ⟨0, [], rfl⟩
  got := []
  handed := []

theorem Task.initial_start : Task.start.Initial := ⟨rfl, rfl, rfl, rfl⟩

/-- An environment in which every call succeeds and `read(2)` has these bytes. -/
def Env.sends (b : Buf) : Env where
  socketOk := true
  connectOk := true
  sendOk := true
  ready := b
  parseOk := true
  reportOk := true
  autoClear := false
  dp := ⟨0, [], rfl⟩

/-! ### What the pieces of a step do -/

theorem pofscRecv_cases (env : Env) (buflen : ℕ) :
    (buflen = 0 ∧ pofscRecv env buflen = .noRoom) ∨ pofscRecv env buflen = .closed ∨
      ∃ chunk, chunk ≠ [] ∧ chunk.length ≤ buflen ∧ pofscRecv env buflen = .data chunk := by
  unfold pofscRecv
  split_ifs with hroom hempty
  · exact .inl ⟨hroom, rfl⟩
  · exact .inr (.inl rfl)
  · exact .inr (.inr ⟨_, hempty, List.length_take_le _ _, rfl⟩)

/-- With room in the buffer and bytes to read, a read returns bytes. -/
theorem pofscRecv_data {env : Env} {buflen : ℕ} (hroom : 0 < buflen) (hready : env.ready ≠ []) :
    pofscRecv env buflen = .data (env.ready.take buflen) := by
  have hne : env.ready.take buflen ≠ [] := by
    rw [Ne, List.take_eq_nil_iff]
    rintro (hzero | hnil)
    · omega
    · exact hready hnil
  rw [pofscRecv, if_neg (by omega), if_neg hne]

namespace Task

variable {env : Env} {t t' : Task} {c : RecvCase}

theorem iterate_cases (h : t.iterate env = some t') : t' = { t with pc := .top } := by
  unfold iterate at h
  split_ifs at h
  exact (Option.some.inj h).symm

/-- A message of the handshake is refused, or it is converted and handled. -/
theorem checkHandshake_cases (h : t.checkHandshake env c = some t') :
    (¬ c.Accepts (t.at_ t.processLen) ∧ t' = { t with state := .invalid, pc := .top }) ∨
      c.Accepts (t.at_ t.processLen) ∧ ∃ b,
        t.recvBuf.convert t.processLen (parseExtent (t.at_ t.processLen)) parseTransfer
            length_parseTransfer = some b ∧
          t' = { ({ t with state := c.next, recvBuf := b } : Task).advance
            (Header.length (t.at_ t.processLen)) with pc := .top } := by
  simp only [checkHandshake] at h
  split_ifs at h with hacc
  · obtain ⟨b, hb, h⟩ := Option.bind_eq_some_iff.1 h
    exact .inr ⟨hacc, b, hb, iterate_cases h⟩
  · exact .inl ⟨hacc, iterate_cases h⟩

/-- `pofsc_run_process` gets the message at `process_len`, which is converted. -/
theorem checkRun_cases (h : t.checkRun env = some t') :
    ∃ b, t.recvBuf.convert t.processLen (runExtent (t.at_ t.processLen)) runTransfer
        length_runTransfer = some b ∧
      t' = { ({ t with
        recvBuf := b
        dp := env.dp
        handed := t.handed ++ [(t.at_ t.processLen).take (Header.length (t.at_ t.processLen))]
        } : Task).advance (Header.length (t.at_ t.processLen)) with pc := .top } := by
  simp only [checkRun] at h
  split_ifs at h
  obtain ⟨b, hb, h⟩ := Option.bind_eq_some_iff.1 h
  exact ⟨b, hb, iterate_cases h⟩

/-- The message is given on when its action counts fit and its conversion stays inside the buffer. -/
theorem exists_checkRun (hcounts : ActionCountsFit (t.at_ t.processLen))
    (hfits : t.processLen + runExtent (t.at_ t.processLen) ≤ recvBufMaxSize) (hreport : env.reportOk = true) :
    ∃ t', t.checkRun env = some t' ∧ t'.state = t.state := by
  obtain ⟨b, hb⟩ := t.recvBuf.exists_convert length_runTransfer hfits
  simp only [checkRun, if_pos hcounts, hb, Option.bind_some, iterate, if_pos hreport]
  exact ⟨_, rfl, rfl⟩

theorem helloTop_cases (h : t.helloTop env = some t') :
    (t'.pc = .top ∧ t'.state = .invalid) ∨
      ∃ chunk, chunk ≠ [] ∧ chunk.length ≤ recvBufMaxSize ∧
        t' = { t.reset.store chunk with
          totalLen := chunk.length
          headPtr := 0
          dp := t.dp.clear
          state := .requestFeature
          pc := .loop .hello } := by
  unfold helloTop at h
  rcases pofscRecv_cases env recvBufMaxSize with ⟨hroom, -⟩ | hrecv | ⟨chunk, hne, hle, hrecv⟩
  · exact absurd hroom (by decide)
  · rw [hrecv] at h
    rw [iterate_cases h]
    exact .inl ⟨rfl, rfl⟩
  · rw [hrecv] at h
    exact .inr ⟨chunk, hne, hle, (Option.some.inj h).symm⟩

theorem firstRead_cases (h : t.firstRead env c = some t') :
    (t'.pc = .top ∧ t'.state = .invalid) ∨
      (recvBufMaxSize ≤ t.rcvLen ∧ t' = { t with pc := .top }) ∨
      ∃ chunk, chunk ≠ [] ∧ t.rcvLen + chunk.length ≤ recvBufMaxSize ∧
        t' = { t.store chunk with
          totalLen := chunk.length + t.leftLen
          headPtr := t.processLen
          state := c.next
          pc := .loop c } := by
  unfold firstRead at h
  rcases pofscRecv_cases env (recvBufMaxSize - t.rcvLen) with
    ⟨hroom, hrecv⟩ | hrecv | ⟨chunk, hne, hle, hrecv⟩
  · rw [hrecv] at h
    exact .inr (.inl ⟨by omega, iterate_cases h⟩)
  · rw [hrecv] at h
    rw [iterate_cases h]
    exact .inl ⟨rfl, rfl⟩
  · rw [hrecv] at h
    have hpos := List.length_pos_iff.2 hne
    exact .inr (.inr ⟨chunk, hne, by omega, (Option.some.inj h).symm⟩)

theorem nextRead_cases (env : Env) (t : Task) (c : RecvCase) :
    t.nextRead env c = { t.pofscPerformanceAfterCtrlDisconn env with pc := .check c } ∨
      (recvBufMaxSize ≤ t.rcvLen ∧ t.nextRead env c = { t with pc := .check c }) ∨
      ∃ chunk, chunk ≠ [] ∧ t.rcvLen + chunk.length ≤ recvBufMaxSize ∧
        t.nextRead env c = { t.store chunk with totalLen := t.totalLen + chunk.length } := by
  unfold nextRead
  rcases pofscRecv_cases env (recvBufMaxSize - t.rcvLen) with
    ⟨hroom, hrecv⟩ | hrecv | ⟨chunk, hne, hle, hrecv⟩
  · rw [hrecv]
    exact .inr (.inl ⟨by omega, rfl⟩)
  · rw [hrecv]
    exact .inl rfl
  · rw [hrecv]
    have hpos := List.length_pos_iff.2 hne
    exact .inr (.inr ⟨chunk, hne, by omega, rfl⟩)

theorem compact_cases (h : t.compact = some t') :
    (t.rcvLen ≠ recvBufMaxSize ∧ t' = t) ∨
      (t.rcvLen = recvBufMaxSize ∧ 0 ≤ t.leftLen ∧ t.leftLen ≤ t.processLen ∧
        t' = { t with
          recvBuf := t.recvBuf.store 0 ((t.at_ t.processLen).take t.leftLen.toNat)
          rcvLen := t.leftLen.toNat
          processLen := 0 }) := by
  unfold compact at h
  split_ifs at h with hfull hfits
  · exact .inr ⟨hfull, hfits.1, hfits.2, (Option.some.inj h).symm⟩
  · exact .inl ⟨hfull, (Option.some.inj h).symm⟩

/-- Compacting is defined when the buffer is not full, or its rest fits the bytes before it. -/
theorem exists_compact (hleft : 0 ≤ t.leftLen)
    (hapart : t.rcvLen = recvBufMaxSize → t.leftLen ≤ t.processLen) : ∃ u, t.compact = some u := by
  unfold compact
  split_ifs with hfull hfits
  · exact ⟨_, rfl⟩
  · exact absurd ⟨hleft, hapart hfull⟩ hfits
  · exact ⟨t, rfl⟩

theorem compact_frame (h : t.compact = some t') :
    t'.state = t.state ∧ t'.pc = t.pc ∧ t'.got = t.got ∧ t'.handed = t.handed ∧
      t'.leftLen = t.leftLen := by
  rcases compact_cases h with ⟨-, rfl⟩ | ⟨-, -, -, rfl⟩ <;> exact ⟨rfl, rfl, rfl, rfl, rfl⟩

/-! ### The bytes that are not handled yet -/

theorem unread_reset : t.reset.unread = [] := by
  rw [unread, reset, List.take_zero, List.drop_nil]

theorem length_unread (hrcv : t.rcvLen ≤ recvBufMaxSize) :
    t.unread.length = t.rcvLen - t.processLen := by
  rw [unread, List.length_drop, List.length_take, t.recvBuf.length_bytes, Nat.min_eq_left hrcv]

/-- The buffer at `process_len` starts with the bytes that are not handled yet. -/
theorem at_processLen (hproc : t.processLen ≤ t.rcvLen) (hrcv : t.rcvLen ≤ recvBufMaxSize) :
    t.at_ t.processLen = t.unread ++ t.recvBuf.bytes.drop t.rcvLen := by
  have hlen : (t.recvBuf.bytes.take t.rcvLen).length = t.rcvLen := by
    rw [List.length_take, t.recvBuf.length_bytes, Nat.min_eq_left hrcv]
  rw [unread, at_, ← List.drop_append_of_le_length (by omega), List.take_append_drop]

/-- **A read appends to the bytes that are not handled yet.** -/
theorem unread_store {chunk : Buf} (hproc : t.processLen ≤ t.rcvLen)
    (hfit : t.rcvLen + chunk.length ≤ recvBufMaxSize) :
    (t.store chunk).unread = t.unread ++ chunk := by
  have hlen : (t.recvBuf.bytes.take t.rcvLen).length = t.rcvLen := by
    rw [List.length_take, t.recvBuf.length_bytes, Nat.min_eq_left (by omega)]
  have hchunk : chunk.take (t.recvBuf.bytes.length - t.rcvLen) = chunk :=
    List.take_of_length_le (by rw [t.recvBuf.length_bytes]; omega)
  simp only [unread, store, RecvBuf.bytes_store, paste, hchunk]
  rw [List.take_append_of_le_length (by rw [List.length_append, hlen]),
    List.take_of_length_le (by rw [List.length_append, hlen]),
    List.drop_append_of_le_length (by omega)]

/-- **The end of a message drops it from the bytes that are not handled yet.** -/
theorem unread_advance (t : Task) (len : ℕ) : (t.advance len).unread = t.unread.drop len := by
  by_cases hall : t.rcvLen = t.processLen + len
  · have hnil : t.unread.drop len = [] :=
      List.drop_eq_nil_of_le (by
        rw [unread, List.length_drop]
        exact Nat.sub_le_of_le_add ((List.length_take_le _ _).trans (by omega)))
    simp only [unread, advance, if_pos hall, List.take_zero, List.drop_nil]
    exact hnil.symm
  · simp only [unread, advance, if_neg hall, List.drop_drop]

theorem advance_lengths {len : ℕ} (hlen : t.processLen + len ≤ t.rcvLen) :
    (t.advance len).processLen ≤ (t.advance len).rcvLen ∧ (t.advance len).rcvLen ≤ t.rcvLen ∧
      (t.advance len).leftLen = ((t.advance len).rcvLen : ℤ) - (t.advance len).processLen := by
  simp only [advance]
  split_ifs with hall
  · exact ⟨Nat.le_refl 0, Nat.zero_le _, by omega⟩
  · exact ⟨hlen, Nat.le_refl _, by omega⟩

/-- A conversion of the message at `process_len` that stays inside the message leaves the bytes behind
it as they are; when there are none, any conversion does. -/
theorem unread_convert {len n : ℕ} {f : Buf → Buf} {hf : ∀ d, (f d).length = d.length} {b : RecvBuf}
    (hb : t.recvBuf.convert t.processLen n f hf = some b)
    (hproc : t.processLen ≤ t.rcvLen) (hrcv : t.rcvLen ≤ recvBufMaxSize)
    (hlen : t.processLen + len ≤ t.rcvLen)
    (hin : (∀ d, f (t.unread.take len ++ d) = f (t.unread.take len) ++ d) ∨
      t.rcvLen = t.processLen + len) :
    ({ t with recvBuf := b } : Task).unread.drop len = t.unread.drop len := by
  have hunread := length_unread (t := t) hrcv
  rcases hin with hin | hall
  case inr =>
    have hunread' := length_unread (t := { t with recvBuf := b }) hrcv
    simp only at hunread'
    rw [List.drop_eq_nil_of_le (by omega), List.drop_eq_nil_of_le (by omega)]
  have hpre : (t.recvBuf.bytes.take t.processLen ++ f (t.unread.take len)).length =
      t.processLen + len := by
    rw [List.length_append, hf, List.length_take, List.length_take, t.recvBuf.length_bytes]
    omega
  have hbytes : b.bytes =
      (t.recvBuf.bytes.take t.processLen ++ f (t.unread.take len)) ++
        (t.unread.drop len ++ t.recvBuf.bytes.drop t.rcvLen) := by
    have hat : t.recvBuf.bytes.drop t.processLen =
        t.unread.take len ++ (t.unread.drop len ++ t.recvBuf.bytes.drop t.rcvLen) := by
      rw [← List.append_assoc, List.take_append_drop]
      exact at_processLen hproc hrcv
    rw [RecvBuf.convert_eq_some hb, onData, hat, hin, List.append_assoc]
  have htake : t.rcvLen = (t.processLen + len) + (t.unread.drop len).length := by
    rw [List.length_drop]
    omega
  have hrest : ({ t with recvBuf := b } : Task).unread.drop len =
      (b.bytes.take t.rcvLen).drop (t.processLen + len) := by
    simp only [unread, List.drop_drop]
  rw [hrest, hbytes, htake, ← hpre, List.take_length_add_append, List.take_left' rfl,
    List.drop_left' rfl]

/-- **Moving the rest to the front of a full buffer keeps the bytes that are not handled yet, and makes
room.** -/
theorem unread_compact (h : t.compact = some t') (hproc : t.processLen ≤ t.rcvLen)
    (hrcv : t.rcvLen ≤ recvBufMaxSize) (hleft : t.leftLen = (t.rcvLen : ℤ) - t.processLen) :
    t'.unread = t.unread ∧ t'.processLen ≤ t'.rcvLen ∧ t'.rcvLen < recvBufMaxSize ∧
      t.leftLen = (t'.rcvLen : ℤ) - t'.processLen := by
  rcases compact_cases h with ⟨hroom, rfl⟩ | ⟨hfull, hnonneg, hapart, rfl⟩
  · exact ⟨rfl, hproc, lt_of_le_of_ne hrcv hroom, hleft⟩
  · refine ⟨?_, Nat.zero_le _, ?_, by simp only; omega⟩
    case refine_2 =>
      simp only [recvBufMaxSize] at hfull ⊢
      omega
    have hrest : ((t.at_ t.processLen).take t.leftLen.toNat) = t.unread := by
      rw [at_processLen hproc hfull.le, List.take_left' (by rw [length_unread hfull.le]; omega)]
    have hlen : t.leftLen.toNat = t.unread.length := by
      rw [length_unread hfull.le]
      omega
    have hfits : t.unread.length ≤ t.recvBuf.bytes.length := by
      rw [length_unread hfull.le, t.recvBuf.length_bytes]
      omega
    calc (((t.recvBuf.store 0 ((t.at_ t.processLen).take t.leftLen.toNat)).bytes).take
          t.leftLen.toNat).drop 0
        = ((t.recvBuf.bytes.paste 0 t.unread).take t.unread.length).drop 0 := by
          rw [RecvBuf.bytes_store, hrest, hlen]
      _ = t.unread := by rw [take_paste_zero hfits, List.drop_zero]

/-- A message that has been received whole is the first of the bytes that are not handled yet. -/
theorem message_at (hproc : t.processLen ≤ t.rcvLen) (hrcv : t.rcvLen ≤ recvBufMaxSize)
    (hsize : headerSize ≤ Header.length (t.at_ t.processLen))
    (hlen : t.processLen + Header.length (t.at_ t.processLen) ≤ t.rcvLen) :
    IsMessage (t.unread.take (Header.length (t.at_ t.processLen))) ∧
      ∃ d, t.at_ t.processLen = t.unread.take (Header.length (t.at_ t.processLen)) ++ d := by
  have hunread := length_unread (t := t) hrcv
  have htake : (t.unread.take (Header.length (t.at_ t.processLen))).length =
      Header.length (t.at_ t.processLen) := by
    rw [List.length_take]
    omega
  have hat : t.at_ t.processLen = t.unread.take (Header.length (t.at_ t.processLen)) ++
      (t.unread.drop (Header.length (t.at_ t.processLen)) ++ t.recvBuf.bytes.drop t.rcvLen) := by
    rw [← List.append_assoc, List.take_append_drop]
    exact at_processLen hproc hrcv
  refine ⟨⟨by rw [htake]; exact hsize, ?_⟩, _, hat⟩
  have hheader := congrArg Header.length hat
  rw [Header.length_append (by rw [htake]; exact Nat.le_trans (by decide) hsize)] at hheader
  rw [← hheader, htake]

end Task

end PofSwitch
