/-
**The messages of the controller in `POFCS_CHANNEL_RUN`.**

The controller sends a sequence of messages, and `read(2)` cuts their bytes as it likes.  The case
finds the messages again and hands them to `pofsc_run_process`.  Five things can go wrong.  The inner
loop reads the length of a message of which fewer than four bytes have come, and takes what was in the
buffer before for the rest.  It moves the message to the front of a full buffer and goes on reading
its length where it was.  `memcpy` moves a rest that is longer than the bytes before it.  And the
conversion of a message can go beyond its end, into the next one, or beyond the end of the buffer, into
the state of the channel.

The invariant says that the bytes read so far are the messages handed on, followed by the bytes that
are not handled yet.  In a run in which none of the five happens, it is kept, every message is handed
on, and the run ends only when the case waits for bytes that the controller has not sent.

Main definitions:

* `PofSwitch.RecvOk` — none of the five happens in the next step;
* `PofSwitch.Task.Reads` — the next step calls `read(2)`;
* `PofSwitch.Framed`, `PofSwitch.RunInv` — the invariant;
* `PofSwitch.Task.remaining` — what is left to do.

Main results:

* `PofSwitch.run_hands_messages` — **the messages are handed on one by one, whole and unchanged, and
  none is left behind**;
* `PofSwitch.hands_empty_message` — three bytes of a message make the case hand on an empty one.
-/

import PofSwitch.Handshake

set_option relaxedAutoImplicit false
set_option autoImplicit false

namespace PofSwitch

open Buf

/-! ### Conditions -/

/-- In `POFCS_CHANNEL_RUN` at the top of the loop, with what is left of the bytes in the buffer and no
message handed on yet. -/
structure Task.Entered (t : Task) : Prop where
  pc : t.pc = .top
  processLen_le : t.processLen ≤ t.rcvLen
  rcvLen_le : t.rcvLen ≤ recvBufMaxSize
  leftLen_eq : t.leftLen = (t.rcvLen : ℤ) - t.processLen
  handed_nil : t.handed = []

/-- The next step calls `read(2)`. -/
def Task.Reads (t : Task) : Prop :=
  (t.pc = .top ∧ ¬ t.Ready) ∨
    (t.pc = .loop .run ∧ t.totalLen < Header.length (t.at_ t.headPtr))

/-- The next step goes well: the length of the awaited message has come when the inner loop reads it,
the buffer is not full when the inner loop reads on, the rest of a full buffer fits the bytes before
it, and the conversion of a message stays inside it or nothing has been received behind it.  It stays inside
the buffer in any case, and the action counts fit. -/
@[mk_iff]
structure RecvOk (t : Task) : Prop where
  header : t.pc = .loop .run → 4 ≤ t.totalLen
  room : t.pc = .loop .run → t.totalLen < Header.length (t.at_ t.headPtr) →
    t.rcvLen ≠ recvBufMaxSize
  apart : t.pc = .top → ¬ t.Ready → t.rcvLen = recvBufMaxSize → t.leftLen ≤ t.processLen
  inside : t.pc = .check .run →
    SelfContained ((t.at_ t.processLen).take (Header.length (t.at_ t.processLen))) ∨
      t.rcvLen = t.processLen + Header.length (t.at_ t.processLen)
  counts : t.pc = .check .run → ActionCountsFit (t.at_ t.processLen)
  fits : t.pc = .check .run → t.processLen + runExtent (t.at_ t.processLen) ≤ recvBufMaxSize

/-! ### The invariant -/

/-- The bytes read so far are those before the stream, the messages handed on, and the bytes that are
not handled yet. -/
structure Framed (pre : Buf) (msgs : List Buf) (t : Task) : Prop where
  processLen_le : t.processLen ≤ t.rcvLen
  rcvLen_le : t.rcvLen ≤ recvBufMaxSize
  handed : t.handed <+: msgs
  got : t.got = pre ++ (t.handed.flatten ++ t.unread)

/-- The invariant at the three points of the case. -/
inductive RunInv (pre : Buf) (msgs : List Buf) : Task → Prop
  | waiting {t : Task} : t.pc = .top → Framed pre msgs t →
      t.leftLen = (t.rcvLen : ℤ) - t.processLen → RunInv pre msgs t
  | reading {t : Task} : t.pc = .loop .run → Framed pre msgs t →
      t.totalLen = (t.rcvLen : ℤ) - t.processLen → t.headPtr = t.processLen → RunInv pre msgs t
  | checking {t : Task} : t.pc = .check .run → Framed pre msgs t →
      t.processLen + 4 ≤ t.rcvLen →
      t.processLen + Header.length (t.at_ t.processLen) ≤ t.rcvLen → RunInv pre msgs t

/-- What is left to do: bytes to be read count most, then bytes to be handled, then the steps of the
case for one message. -/
def Task.remaining (stream : Buf) (t : Task) : ℕ :=
  4 * (stream.length - t.got.length) + 2 * t.unread.length + (if t.pc = .check .run then 0 else 1)

section Steps

variable {pre : Buf} {msgs : List Buf} {env : Env} {t t' : Task}

namespace Framed

theorem length_unread (h : Framed pre msgs t) : t.unread.length = t.rcvLen - t.processLen :=
  Task.length_unread h.rcvLen_le

/-- The bytes that are not handled yet start the messages that are still to be handed on. -/
theorem todo (h : Framed pre msgs t) (hstream : t.got <+: pre ++ msgs.flatten) :
    ∃ ms, msgs = t.handed ++ ms ∧ t.unread <+: ms.flatten := by
  obtain ⟨ms, hms⟩ := h.handed
  refine ⟨ms, hms.symm, ?_⟩
  rw [h.got, ← hms, List.flatten_append, List.prefix_append_right_inj,
    List.prefix_append_right_inj] at hstream
  exact hstream

/-- Four bytes are enough to know the length of the next message. -/
theorem next (h : Framed pre msgs t) (hmsgs : ∀ m ∈ msgs, IsMessage m)
    (hstream : t.got <+: pre ++ msgs.flatten) (hfour : t.processLen + 4 ≤ t.rcvLen) :
    ∃ m ms, msgs = t.handed ++ m :: ms ∧ Header.length (t.at_ t.processLen) = m.length ∧
      t.unread <+: m ++ ms.flatten := by
  have hlen := h.length_unread
  obtain ⟨ms, hms, hprefix⟩ := h.todo hstream
  cases ms with
  | nil =>
      have hnil := List.prefix_nil.1 hprefix
      rw [hnil, List.length_nil] at hlen
      omega
  | cons m ms =>
      have hm : IsMessage m := hmsgs m (by rw [hms]; simp)
      refine ⟨m, ms, hms, ?_, hprefix⟩
      obtain ⟨d, hd⟩ := hprefix
      rw [List.flatten_cons] at hd
      calc Header.length (t.at_ t.processLen)
          = Header.length t.unread := by
            rw [Task.at_processLen h.processLen_le h.rcvLen_le,
              Header.length_append (by omega)]
        _ = Header.length (t.unread ++ d) := (Header.length_append (by omega) d).symm
        _ = m.length := by rw [hd, hm.length_append]

theorem read {chunk : Buf} (h : Framed pre msgs t)
    (hfit : t.rcvLen + chunk.length ≤ recvBufMaxSize) : Framed pre msgs (t.store chunk) where
  processLen_le := Nat.le_add_right_of_le h.processLen_le
  rcvLen_le := hfit
  handed := h.handed
  got := by
    rw [Task.unread_store h.processLen_le hfit]
    simp only [Task.store, h.got, List.append_assoc]

/-- A message that has come whole is the next message of the controller. -/
theorem whole (h : Framed pre msgs t) (hmsgs : ∀ m ∈ msgs, IsMessage m)
    (hstream : t.got <+: pre ++ msgs.flatten) (hfour : t.processLen + 4 ≤ t.rcvLen)
    (hlen : t.processLen + Header.length (t.at_ t.processLen) ≤ t.rcvLen) :
    ∃ m ms, msgs = t.handed ++ m :: ms ∧ IsMessage m ∧
      Header.length (t.at_ t.processLen) = m.length ∧
      (t.at_ t.processLen).take m.length = m ∧ t.unread.take m.length = m := by
  obtain ⟨m, ms, hms, heq, hprefix⟩ := h.next hmsgs hstream hfour
  have hunread := h.length_unread
  have htake : t.unread.take m.length = m := by
    have hm : m <+: t.unread :=
      List.prefix_of_prefix_length_le (List.prefix_append m ms.flatten) hprefix (by omega)
    exact (List.prefix_iff_eq_take.1 hm).symm
  refine ⟨m, ms, hms, hmsgs m (by rw [hms]; simp), heq, ?_, htake⟩
  rw [Task.at_processLen h.processLen_le h.rcvLen_le, List.take_append_of_le_length (by omega), htake]

end Framed

/-- A read leaves less to do. -/
theorem remaining_read {stream chunk : Buf} (hne : chunk ≠ []) (hgot : t'.got = t.got ++ chunk)
    (hunread : t'.unread = t.unread ++ chunk) (hpc : t.pc ≠ .check .run)
    (hle : t'.got.length ≤ stream.length) : t'.remaining stream < t.remaining stream := by
  have hpos := List.length_pos_iff.2 hne
  rw [hgot, List.length_append] at hle
  simp only [Task.remaining, hgot, hunread, List.length_append, if_neg hpc]
  split_ifs <;> omega

/-- A message that is handed on leaves less to do. -/
theorem remaining_handed {stream : Buf} (hgot : t'.got = t.got)
    (hunread : t'.unread.length + headerSize ≤ t.unread.length) :
    t'.remaining stream < t.remaining stream := by
  simp only [headerSize] at hunread
  simp only [Task.remaining, hgot]
  split_ifs <;> omega

/-- The step from the top of the loop. -/
theorem waiting_step {stream : Buf} (hstate : t.state = .run) (hpc : t.pc = .top)
    (hfr : Framed pre msgs t) (hleft : t.leftLen = (t.rcvLen : ℤ) - t.processLen)
    (h : pofscMainTask env t = some t') (hstate' : t'.state = .run) :
    RunInv pre msgs t' ∧ (t'.got.length ≤ stream.length →
      t'.remaining stream < t.remaining stream) := by
  have hproc := hfr.processLen_le
  simp only [pofscMainTask, hpc, hstate, Task.runTop] at h
  split_ifs at h with hready
  · obtain rfl := Option.some.inj h
    obtain ⟨hsize, hlen⟩ := hready
    refine ⟨.checking rfl ⟨hfr.1, hfr.2, hfr.3, hfr.4⟩ ?_ ?_, fun _ => ?_⟩
    · simp only [headerSize] at hsize ⊢
      omega
    · simp only [Task.at_] at hlen ⊢
      omega
    · simp [Task.remaining, Task.unread, hpc]
  · obtain ⟨u, hu, hfirst⟩ := Option.bind_eq_some_iff.1 h
    obtain ⟨hunread, huproc, huroom, huleft⟩ := Task.unread_compact hu hproc hfr.rcvLen_le hleft
    obtain ⟨-, -, hugot, huhanded, huleft'⟩ := Task.compact_frame hu
    have hufr : Framed pre msgs u :=
      ⟨huproc, huroom.le, huhanded ▸ hfr.handed, by rw [hugot, huhanded, hunread]; exact hfr.got⟩
    rcases Task.firstRead_cases hfirst with ⟨-, hinvalid⟩ | ⟨hfull, -⟩ | ⟨chunk, hne, hfit, rfl⟩
    · cases hstate'.symm.trans hinvalid
    · omega
    · have hread := hufr.read hfit
      refine ⟨.reading rfl ⟨hread.1, hread.2, hread.3, hread.4⟩ ?_ rfl, ?_⟩
      · simp only [Task.store, huleft', huleft, Nat.cast_add]
        omega
      · refine remaining_read hne ?_ ?_ (by rw [hpc]; decide)
        · exact congrArg (· ++ chunk) hugot
        · exact (Task.unread_store huproc hfit).trans (congrArg (· ++ chunk) hunread)

/-- The step from the test of the inner loop. -/
theorem reading_step {stream : Buf} (hok : RecvOk t)
    (hpc : t.pc = .loop .run) (hfr : Framed pre msgs t)
    (htotal : t.totalLen = (t.rcvLen : ℤ) - t.processLen) (hhead : t.headPtr = t.processLen)
    (h : pofscMainTask env t = some t') (hstate' : t'.state = .run) :
    RunInv pre msgs t' ∧ (t'.got.length ≤ stream.length →
      t'.remaining stream < t.remaining stream) := by
  have hheader := hok.header hpc
  have hroom := hok.room hpc
  simp only [pofscMainTask, hpc, Task.loopStep, if_true] at h
  split_ifs at h with hmore
  · have hnotfull := hroom hmore
    obtain ⟨u, hu, rfl⟩ := Option.map_eq_some_iff.1 h
    -- the buffer is not full: nothing is moved
    obtain ⟨-, rfl⟩ | ⟨hfull, -⟩ := Task.compact_cases hu
    case inr => exact absurd hfull hnotfull
    have hroom := lt_of_le_of_ne hfr.rcvLen_le hnotfull
    rcases Task.nextRead_cases env
      { t with leftLen := (t.rcvLen : ℤ) - t.processLen, pc := .loop .run } .run with
      heq | ⟨hfull, -⟩ | ⟨chunk, hne, hfit, heq⟩
    · rw [heq] at hstate'
      cases hstate'
    · exact absurd hroom (Nat.not_lt.2 hfull)
    · rw [heq]
      have hread := hfr.read hfit
      refine ⟨.reading rfl ⟨hread.1, hread.2, hread.3, hread.4⟩ ?_ hhead, ?_⟩
      · simp only [Task.store, htotal, Nat.cast_add]
        omega
      · exact remaining_read hne rfl (Task.unread_store hfr.processLen_le hfit) (by rw [hpc]; decide)
  · obtain rfl := Option.some.inj h
    rw [hhead] at hmore
    refine ⟨.checking rfl ⟨hfr.1, hfr.2, hfr.3, hfr.4⟩ ?_ ?_, fun _ => ?_⟩
    · simp only
      omega
    · simp only [Task.at_] at hmore ⊢
      omega
    · simp [Task.remaining, Task.unread, hpc]

/-- The step that hands on a message. -/
theorem checking_step {stream : Buf} (hmsgs : ∀ m ∈ msgs, IsMessage m) (hok : RecvOk t)
    (hstate : t.state = .run) (hpc : t.pc = .check .run) (hfr : Framed pre msgs t)
    (hstream : t.got <+: pre ++ msgs.flatten) (hfour : t.processLen + 4 ≤ t.rcvLen)
    (hlen : t.processLen + Header.length (t.at_ t.processLen) ≤ t.rcvLen)
    (h : pofscMainTask env t = some t') :
    RunInv pre msgs t' ∧ t'.remaining stream < t.remaining stream := by
  obtain ⟨m, ms, hms, hm, heq, hat, hunread⟩ := hfr.whole hmsgs hstream hfour hlen
  have hinside := hok.inside hpc
  rw [heq] at hlen hinside
  rw [hat] at hinside
  have hsize : 8 ≤ m.length := hm.headerSize_le
  have hvalid : t.state ≠ .invalid := by rw [hstate]; decide
  simp only [pofscMainTask, hpc, if_neg hvalid] at h
  obtain ⟨b, hb, ht'⟩ := Task.checkRun_cases h
  rw [heq, hat] at ht'
  subst ht'
  obtain ⟨hproc', hrcv', hleft'⟩ := Task.advance_lengths (t := { t with
    recvBuf := b
    dp := env.dp
    handed := t.handed ++ [m] }) hlen
  have hrest : ({ t with
      recvBuf := b
      dp := env.dp
      handed := t.handed ++ [m] }.advance m.length).unread = t.unread.drop m.length := by
    refine (Task.unread_advance _ _).trans ?_
    refine Task.unread_convert hb hfr.processLen_le hfr.rcvLen_le hlen ?_
    rw [hunread]
    exact hinside
  have hgot : t.got = pre ++ ((t.handed ++ [m]).flatten ++ t.unread.drop m.length) := by
    rw [hfr.got, List.flatten_append, List.flatten_singleton, List.append_assoc t.handed.flatten]
    congr 2
    rw [← List.take_append_drop m.length t.unread, hunread, List.drop_left' rfl]
  refine ⟨.waiting rfl ⟨hproc', hrcv'.trans hfr.rcvLen_le, ?_, ?_⟩ hleft', ?_⟩
  · exact ⟨ms, by rw [hms]; simp [Task.advance]⟩
  · exact hgot.trans (congrArg (fun d => pre ++ ((t.handed ++ [m]).flatten ++ d)) hrest.symm)
  · refine remaining_handed rfl ?_
    have hlength := hfr.length_unread
    have hdrop := (congrArg List.length hrest).trans List.length_drop
    simp only [headerSize]
    exact (congrArg (· + 8) hdrop).trans_le (by omega)

/-- A step keeps the invariant and leaves less to do. -/
theorem RunInv.step (hinv : RunInv pre msgs t) (hmsgs : ∀ m ∈ msgs, IsMessage m) (hok : RecvOk t)
    (hstate : t.state = .run) (hstream : t.got <+: pre ++ msgs.flatten)
    (h : pofscMainTask env t = some t') (hstate' : t'.state = .run) :
    RunInv pre msgs t' ∧ (t'.got <+: pre ++ msgs.flatten →
      t'.remaining (pre ++ msgs.flatten) < t.remaining (pre ++ msgs.flatten)) := by
  cases hinv with
  | waiting hpc hfr hleft =>
      obtain ⟨hinv', hless⟩ := waiting_step hstate hpc hfr hleft h hstate'
      exact ⟨hinv', fun hstream' => hless hstream'.length_le⟩
  | reading hpc hfr htotal hhead =>
      obtain ⟨hinv', hless⟩ := reading_step hok hpc hfr htotal hhead h hstate'
      exact ⟨hinv', fun hstream' => hless hstream'.length_le⟩
  | checking hpc hfr hfour hlen =>
      obtain ⟨hinv', hless⟩ := checking_step hmsgs hok hstate hpc hfr hstream hfour hlen h
      exact ⟨hinv', fun _ => hless⟩

/-- There is a next step, unless the case waits for bytes. -/
theorem RunInv.exists_step (hinv : RunInv pre msgs t) (hok : RecvOk t) (hstate : t.state = .run)
    (hreport : env.reportOk = true) (hready : t.Reads → env.ready ≠ []) :
    ∃ t', pofscMainTask env t = some t' ∧ t'.state = .run := by
  cases hinv with
  | waiting hpc hfr hleft =>
      have hproc := hfr.processLen_le
      simp only [pofscMainTask, hpc, hstate, Task.runTop]
      by_cases hwhole : t.Ready
      · rw [if_pos hwhole]
        exact ⟨_, rfl, rfl⟩
      · obtain ⟨u, hu⟩ := Task.exists_compact (by omega) (hok.apart hpc hwhole)
        obtain ⟨-, -, huroom, -⟩ := Task.unread_compact hu hproc hfr.rcvLen_le hleft
        have hrecv := pofscRecv_data (Nat.sub_pos_of_lt huroom) (hready (.inl ⟨hpc, hwhole⟩))
        rw [if_neg hwhole, hu, Option.bind_some, Task.firstRead, hrecv]
        exact ⟨_, rfl, rfl⟩
  | reading hpc hfr htotal hhead =>
      simp only [pofscMainTask, hpc, Task.loopStep, if_true]
      split_ifs with hmore
      · have hnotfull := hok.room hpc hmore
        have hroom := lt_of_le_of_ne hfr.rcvLen_le hnotfull
        have hrecv := pofscRecv_data (Nat.sub_pos_of_lt hroom) (hready (.inr ⟨hpc, hmore⟩))
        rw [Task.compact, if_neg hnotfull, Option.map_some, Task.nextRead, hrecv]
        exact ⟨_, rfl, hstate⟩
      · exact ⟨_, rfl, hstate⟩
  | checking hpc hfr hfour hlen =>
      have hvalid : t.state ≠ .invalid := by rw [hstate]; decide
      obtain ⟨t', ht', hstate'⟩ := Task.exists_checkRun (hok.counts hpc) (hok.fits hpc) hreport
      simp only [pofscMainTask, hpc, if_neg hvalid]
      exact ⟨t', ht', hstate'.trans hstate⟩

/-- When the whole stream has come, either every message has been handed on or the next one is there
as a whole. -/
theorem Framed.next_whole (h : Framed pre msgs t) (hmsgs : ∀ m ∈ msgs, IsMessage m)
    (hall : t.got = pre ++ msgs.flatten) (hne : t.handed ≠ msgs) :
    t.processLen + headerSize ≤ t.rcvLen ∧
      t.processLen + Header.length (t.at_ t.processLen) ≤ t.rcvLen := by
  have hstream : t.got <+: pre ++ msgs.flatten := hall ▸ List.prefix_rfl
  have hlen := h.length_unread
  obtain ⟨ms, hms, -⟩ := h.todo hstream
  have hunread : t.unread = ms.flatten := by
    have hgot := h.got.symm.trans hall
    rw [hms, List.flatten_append] at hgot
    exact List.append_cancel_left (List.append_cancel_left hgot)
  cases ms with
  | nil => exact absurd (hms.trans (List.append_nil _)).symm hne
  | cons m ms =>
      have hm : headerSize ≤ m.length := (hmsgs m (by rw [hms]; simp)).headerSize_le
      rw [hunread, List.flatten_cons, List.length_append] at hlen
      simp only [headerSize] at hm ⊢
      obtain ⟨m', ms', hms', heq, -⟩ := h.next hmsgs hstream (by omega)
      have hsame := List.append_cancel_left (hms.symm.trans hms')
      rw [heq, ← (List.cons.inj hsame).1]
      omega

/-- When the case waits for bytes and the whole stream has come, every message has been handed on. -/
theorem RunInv.handed_all (hinv : RunInv pre msgs t) (hmsgs : ∀ m ∈ msgs, IsMessage m)
    (hreads : t.Reads) (hall : t.got = pre ++ msgs.flatten) : t.handed = msgs := by
  by_contra hne
  cases hinv with
  | waiting hpc hfr hleft =>
      obtain ⟨hsize, hlen⟩ := hfr.next_whole hmsgs hall hne
      rcases hreads with ⟨-, hready⟩ | ⟨hpc', -⟩
      · exact hready ⟨.inr (by omega), by omega⟩
      · cases hpc.symm.trans hpc'
  | reading hpc hfr htotal hhead =>
      obtain ⟨-, hlen⟩ := hfr.next_whole hmsgs hall hne
      rcases hreads with ⟨hpc', -⟩ | ⟨-, hmore⟩
      · cases hpc.symm.trans hpc'
      · rw [hhead] at hmore
        omega
  | checking hpc _ _ _ =>
      rcases hreads with ⟨hpc', -⟩ | ⟨hpc', -⟩ <;> cases hpc.symm.trans hpc'

end Steps

/-! ### Runs -/

section Runs

variable {pre : Buf} {msgs : List Buf} {s t : Task}

/-- A state of a run of the case on the stream: no more has been read than the controller sends, and
the next step goes well. -/
structure OnStream (pre : Buf) (msgs : List Buf) (t : Task) : Prop where
  state : t.state = .run
  stream : t.got <+: pre ++ msgs.flatten
  ok : RecvOk t

theorem runInv_of_path (hmsgs : ∀ m ∈ msgs, IsMessage m) (hs : s.Entered)
    (hpre : s.got = pre ++ s.unread) (h : TaskPath (OnStream pre msgs) s t) :
    RunInv pre msgs t ∧ OnStream pre msgs t := by
  induction h with
  | start hP =>
      refine ⟨.waiting hs.pc ⟨hs.processLen_le, hs.rcvLen_le, ?_, ?_⟩ hs.leftLen_eq, hP⟩
      · rw [hs.handed_nil]
        exact List.nil_prefix
      · rw [hs.handed_nil, List.flatten_nil, List.nil_append]
        exact hpre
  | step _ hstep hP ih =>
      obtain ⟨hinv, hon⟩ := ih
      exact ⟨(hinv.step hmsgs hon.ok hon.state hon.stream hstep hP.state).1, hP⟩

/-- **The messages are handed on one by one, whole and unchanged, and none is left behind.**  The
controller sends messages, of which some bytes may have been read when the case is entered.  In every
run in which the steps go well, the messages handed to `pofsc_run_process` are the first ones of the
controller, in order; all of them are handed on when the case waits although the whole stream has
come; a step is possible unless the case waits for bytes that are not there; and every step leaves
less to do, so that no run goes on for ever. -/
theorem run_hands_messages (hmsgs : ∀ m ∈ msgs, IsMessage m) (hs : s.Entered)
    (hpre : s.got = pre ++ s.unread) (h : TaskPath (OnStream pre msgs) s t) :
    t.handed <+: msgs ∧ (t.Reads → t.got = pre ++ msgs.flatten → t.handed = msgs) ∧
    (∀ env, env.reportOk = true → (t.Reads → env.ready ≠ []) →
      ∃ t', pofscMainTask env t = some t' ∧ t'.state = .run) ∧
    ∀ env t', pofscMainTask env t = some t' → OnStream pre msgs t' →
      t'.remaining (pre ++ msgs.flatten) < t.remaining (pre ++ msgs.flatten) := by
  obtain ⟨hinv, hon⟩ := runInv_of_path hmsgs hs hpre h
  refine ⟨?_, hinv.handed_all hmsgs, fun env => hinv.exists_step hon.ok hon.state, ?_⟩
  · cases hinv with
    | waiting _ hfr _ => exact hfr.handed
    | reading _ hfr _ _ => exact hfr.handed
    | checking _ hfr _ _ => exact hfr.handed
  · intro env t' hstep hon'
    exact (hinv.step hmsgs hon.ok hon.state hon.stream hstep hon'.state).2 hon'.stream

end Runs

/-- The handshake leaves the task as the results above need it. -/
theorem entered_after_handshake {t t' : Task} {env : Env}
    (h : TaskRun (fun t => Assumed t ∧ ConfigWhole t) t) (hstep : pofscMainTask env t = some t')
    (hentry : t.entry ≠ .run) (hpc : t'.pc = .top) (hstate : t'.state = .run) :
    t'.Entered ∧ ∃ pre, t'.got = pre ++ t'.unread := by
  obtain ⟨hinv, hasm, hwhole⟩ := handshakeInv_of_run h
  obtain ⟨hbet, hleft⟩ := (hinv.step hasm hwhole hstep).enters hentry hpc hstate
  obtain ⟨ms, -, hgot⟩ := hbet.received
  exact ⟨⟨hpc, hbet.processLen_le, hbet.rcvLen_le, hleft, hbet.handed⟩, ms.flatten, hgot⟩

/-- A `POFT_ECHO_REQUEST`. -/
def echoRequest : Buf := [4, 2, 0, 8, 0, 0, 0, 9]

theorem isMessage_echoRequest : ∀ m ∈ [echoRequest], IsMessage m := by
  intro m hm
  obtain rfl := List.mem_singleton.1 hm
  exact ⟨by decide, by decide⟩

/-- Two of them. -/
def echoRequests : List Buf := [echoRequest, [4, 2, 0, 8, 0, 0, 0, 10]]

theorem isMessage_echoRequests : ∀ m ∈ echoRequests, IsMessage m := by
  intro m hm
  simp only [echoRequests, List.mem_cons, List.not_mem_nil, or_false] at hm
  rcases hm with rfl | rfl
  · exact ⟨by decide, by decide⟩
  · exact ⟨by decide, by decide⟩

/-- The environments in which they come in three reads: both messages are cut. -/
def echoEnvs : List Env :=
  [echoRequests.flatten.take 5, (echoRequests.flatten.drop 5).take 8, [], [], echoRequests.flatten.drop 13,
    [], []].map Env.sends

/-- Two messages that come in three reads are both handed on. -/
theorem run_hands_messages_echo :
    ∃ t, TaskPath (OnStream [] echoRequests) { Task.start with state := .run } t ∧ t.Reads ∧
      t.got = echoRequests.flatten ∧ t.handed = echoRequests := by
  have hsteps : ((Task.steps (fun t => t.state = .run ∧ t.got <+: [] ++ echoRequests.flatten ∧
      (t.pc = .loop .run → 4 ≤ t.totalLen) ∧ t.rcvLen ≠ recvBufMaxSize ∧
      (t.pc = .check .run →
        headerSize ≤ ((t.at_ t.processLen).take (Header.length (t.at_ t.processLen))).length ∧
        parseExtent ((t.at_ t.processLen).take (Header.length (t.at_ t.processLen))) ≤
          ((t.at_ t.processLen).take (Header.length (t.at_ t.processLen))).length) ∧
      ActionCountsFit (t.at_ t.processLen) ∧
      (t.pc = .check .run → t.processLen + runExtent (t.at_ t.processLen) ≤ recvBufMaxSize)) echoEnvs
      { Task.start with state := .run }).map fun t =>
        decide (t.pc = .top ∧ ¬ t.Ready ∧ t.got = echoRequests.flatten)) = some true := by decide +kernel
  obtain ⟨t, ht, hend⟩ := Option.map_eq_some_iff.1 hsteps
  obtain ⟨hpc, hready, hgot⟩ := of_decide_eq_true hend
  have hpath : TaskPath (OnStream [] echoRequests) { Task.start with state := .run } t := by
    refine ((TaskPath.start (by decide +kernel)).steps ht).mono ?_
    rintro u ⟨hstate, hstream, hheader, hroom, hinside, hcounts, hfits⟩
    exact ⟨hstate, hstream, hheader, fun _ _ => hroom, fun _ _ hfull => absurd hfull hroom,
      fun hcheck => .inl (selfContained_of_parseExtent (hinside hcheck).1 (hinside hcheck).2),
      fun _ => hcounts, hfits⟩
  refine ⟨t, hpath, .inl ⟨hpc, hready⟩, hgot, ?_⟩
  exact (run_hands_messages isMessage_echoRequests ⟨rfl, by decide, by decide, by decide, rfl⟩
    (by decide +kernel) hpath).2.1 (.inl ⟨hpc, hready⟩) hgot

/-- The bytes of a handshake, in four reads. -/
def handshakeReads : List Buf :=
  [[4, 0, 0, 8, 0, 0, 0, 1], [4, 5, 0, 8, 0, 0, 0, 2],
    [4, 9, 0, 16, 0, 0, 0, 3, 0, 0, 0, 0, 0, 0, 0, 128], [4, 7, 0, 8, 0, 0, 0, 4]]

/-- When three bytes of a message come first, the fourth one is taken from the message before it,
which was converted: the length is read as zero, and an empty message is handed on. -/
theorem hands_empty_message :
    ¬ ∀ (s t : Task) (pre : Buf) (msgs : List Buf), TaskRun (fun _ => True) s → s.Entered →
      s.got = pre ++ s.unread → (∀ m ∈ msgs, IsMessage m ∧ m.length ≤ recvBufMaxSize) →
      TaskPath (fun t => t.state = .run ∧ t.got <+: pre ++ msgs.flatten) s t → t.handed <+: msgs := by
  intro hclaim
  have hsteps : ((Task.steps (fun _ => True) (List.replicate 3 (Env.sends []) ++
      handshakeReads.flatMap fun b => List.replicate 3 (Env.sends b)) .start).bind fun s =>
        (Task.steps (fun t => t.state = .run ∧
          t.got <+: handshakeReads.flatten ++ [echoRequest].flatten)
          (List.replicate 3 (Env.sends (echoRequest.take 3))) s).map fun t =>
            decide ((s.pc = .top ∧ s.processLen ≤ s.rcvLen ∧ s.rcvLen ≤ recvBufMaxSize ∧
              s.leftLen = (s.rcvLen : ℤ) - s.processLen ∧ s.handed = []) ∧
              s.state = .run ∧ s.got = handshakeReads.flatten ++ s.unread ∧ 
              s.got = handshakeReads.flatten ∧ t.handed = [[]])) = some true := by
    decide +kernel
  obtain ⟨s, hs, hrest⟩ := Option.bind_eq_some_iff.1 hsteps
  obtain ⟨t, ht, hend⟩ := Option.map_eq_some_iff.1 hrest
  obtain ⟨⟨hpc, hproc, hrcv, hleft, hnil⟩, hstate, hpre, hgot, hhanded⟩ := of_decide_eq_true hend
  have hrun : TaskRun (fun _ => True) s :=
    ⟨.start, Task.initial_start, (TaskPath.start trivial).steps hs⟩
  have hpath := (TaskPath.start ⟨hstate, hgot ▸ List.prefix_append _ _⟩).steps ht
  have hprefix := hclaim s t _ [echoRequest] hrun ⟨hpc, hproc, hrcv, hleft, hnil⟩ hpre
    (fun m hm => ⟨isMessage_echoRequest m hm, by
      obtain rfl := List.mem_singleton.1 hm
      decide⟩) hpath
  rw [hhanded] at hprefix
  revert hprefix
  decide

end PofSwitch
