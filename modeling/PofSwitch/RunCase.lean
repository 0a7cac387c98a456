/-
**The bounds of the receive buffer in `case POFCS_CHANNEL_RUN` of `pofsc_main_task`.**

The length of a message is read from its header before anything is known about it: it may be any 16-bit
number.  This module says under which conditions the indices into the receive buffer stay in order all
the same, the messages given to `pofsc_run_process` lie one behind the other in the bytes received, and
each of them takes eight bytes at least.  What is given on is a range of the stream: the position of its
first byte among the bytes of the connection, and its length.

`Framing` asks for more, that the controller sends well-formed messages, and gets more, the messages.

Main definitions:

* `PofSwitch.Task.handled`, `PofSwitch.Task.dispatch` — the position in the stream, and the range that
  the next step gives on;
* `PofSwitch.DispatchPath` — a path with the ranges that are given on;
* `PofSwitch.LengthsOk` — the conditions on the lengths;
* `PofSwitch.StreamOk` — the bounds;
* `PofSwitch.LengthInv` — the invariant, over every case of the task.

Main results:

* `PofSwitch.lengthInv_of_run` — the invariant holds from start-up on;
* `PofSwitch.RunLog.step` — **a step of the case keeps the ranges apart;**
* `PofSwitch.run_keeps_bounds` — **the bounds hold in every state, and there is a next one.**
-/

import PofSwitch.Framing

set_option relaxedAutoImplicit false
set_option autoImplicit false

namespace PofSwitch

open Buf

/-! ### Ranges of the stream -/

/-- How many bytes of the stream lie before `process_len`. -/
def Task.handled (t : Task) : ℕ := t.got.length - (t.rcvLen - t.processLen)

/-- The range of the stream that the next step gives to `pofsc_run_process`. -/
def Task.dispatch (t : Task) : List (ℕ × ℕ) :=
  if t.pc = .check .run ∧ t.state ≠ .invalid then
    [(t.handled, Header.length (t.at_ t.processLen))]
  else []

/-- The states the task reaches from `s` when every one of them satisfies `P`, with the ranges that are
given on in between. -/
inductive DispatchPath (P : Task → Prop) (s : Task) : List (ℕ × ℕ) → Task → Prop
  | start : P s → DispatchPath P s [] s
  | step {rs : List (ℕ × ℕ)} {t t' : Task} {env : Env} : DispatchPath P s rs t →
      pofscMainTask env t = some t' → P t' → DispatchPath P s (rs ++ t.dispatch) t'

/-- **The bounds**: the indices are in order; a message that is given on lies inside the bytes received;
every range that was given on has eight bytes at least, lies inside the stream and behind the ranges
before it; so the ranges are no more than the stream has room for. -/
structure StreamOk (s : Task) (rs : List (ℕ × ℕ)) (t : Task) : Prop where
  processLen_le : t.processLen ≤ t.rcvLen
  rcvLen_le : t.rcvLen ≤ recvBufMaxSize
  inside : t.pc = .check .run → t.processLen + Header.length (t.at_ t.processLen) ≤ t.rcvLen
  handed : t.handed.map List.length = s.handed.map List.length ++ rs.map Prod.snd
  ranges : ∀ r ∈ rs, headerSize ≤ r.2 ∧ r.1 + r.2 ≤ t.got.length
  apart : rs.Pairwise fun r r' => r.1 + r.2 ≤ r'.1
  finite : headerSize * rs.length ≤ t.got.length

/-! ### Conditions -/

/-- The next step calls `read(2)` in `case POFCS_CHANNEL_RUN`. -/
def Task.RunReads (t : Task) : Prop :=
  (t.pc = .top ∧ t.state = .run ∧ ¬ t.Ready) ∨
    (t.pc = .loop .run ∧ t.totalLen < Header.length (t.at_ t.headPtr))

instance : DecidablePred Task.RunReads := fun t =>
  inferInstanceAs (Decidable ((t.pc = .top ∧ t.state = .run ∧ ¬ t.Ready) ∨
    (t.pc = .loop .run ∧ t.totalLen < Header.length (t.at_ t.headPtr))))

/-- The conditions on the lengths: a message that is given on has a length of eight at least; the inner
loop reads the length of the message at `process_len` although the message may have been moved; when the
rest of a full buffer is moved to its front, it fits the bytes before it; no message of the handshake
reaches the end of the buffer; and the conversion of a message that is given on stays inside the buffer and
the arrays of its instructions. -/
@[mk_iff]
structure LengthsOk (t : Task) : Prop where
  size : t.pc = .check .run → t.state = .run → headerSize ≤ Header.length (t.at_ t.processLen)
  pointer : t.pc = .loop .run →
    Header.length (t.at_ t.headPtr) = Header.length (t.at_ t.processLen)
  room : t.RunReads → t.rcvLen = recvBufMaxSize → t.rcvLen - t.processLen ≤ t.processLen
  handshake : ∀ c, c ≠ .run → t.pc = .loop c → t.totalLen < Header.length (t.at_ t.headPtr) →
    t.rcvLen ≠ recvBufMaxSize
  counts : t.pc = .check .run → ActionCountsFit (t.at_ t.processLen)
  fits : t.pc = .check .run → t.processLen + runExtent (t.at_ t.processLen) ≤ recvBufMaxSize

instance : DecidablePred LengthsOk := fun t => decidable_of_iff' _ (lengthsOk_iff t)

theorem RecvCase.eq_run {c : RecvCase} (h : c.state = .run) : c = .run := by
  cases c with
  | run => rfl
  | _ => cases h

/-! ### The invariant -/

/-- The indices are in order, and what is not handled yet was read from the connection. -/
structure Bounded (t : Task) : Prop where
  processLen_le : t.processLen ≤ t.rcvLen
  rcvLen_le : t.rcvLen ≤ recvBufMaxSize
  read : t.rcvLen ≤ t.got.length + t.processLen

/-- Where the task is, and what holds there. -/
inductive LengthInv : Task → Prop
  | down {t : Task} : t.pc = .top →
      t.state = .invalid ∨ t.state = .connecting ∨ t.state = .connected ∨ t.state = .hello → LengthInv t
  | waiting {t : Task} (c : RecvCase) : c ≠ .hello → t.pc = .top → t.state = c.state → Bounded t →
      t.leftLen = (t.rcvLen : ℤ) - t.processLen → LengthInv t
  | reading {t : Task} (c : RecvCase) : t.pc = .loop c → t.state = c.next → Bounded t →
      t.totalLen = (t.rcvLen : ℤ) - t.processLen → (c ≠ .run → t.headPtr = t.processLen) → LengthInv t
  | checking {t : Task} (c : RecvCase) : t.pc = .check c → t.state ≠ .invalid →
      (c = .hello → t.state = .requestFeature ∧ t.headPtr = t.processLen) →
      (c = .run → t.state = .run) → Bounded t →
      t.processLen + Header.length (t.at_ t.processLen) ≤ t.rcvLen → LengthInv t
  | closed {t : Task} (c : RecvCase) : t.pc = .check c → t.state = .invalid → LengthInv t

section Steps

variable {env : Env} {t t' : Task} {c : RecvCase}

namespace Bounded

/-- A read. -/
theorem store {chunk : Buf} (h : Bounded t) (hfit : t.rcvLen + chunk.length ≤ recvBufMaxSize) :
    Bounded (t.store chunk) where
  processLen_le := Nat.le_add_right_of_le h.processLen_le
  rcvLen_le := hfit
  read := by
    have := h.read
    simp only [Task.store, List.length_append]
    omega

/-- A read does not move the position. -/
theorem handled_store {chunk : Buf} (h : Bounded t) : (t.store chunk).handled = t.handled := by
  have := h.processLen_le
  have := h.read
  simp only [Task.handled, Task.store, List.length_append]
  omega

/-- The end of a message. -/
theorem advance {len : ℕ} (h : Bounded t) (hlen : t.processLen + len ≤ t.rcvLen) :
    Bounded (t.advance len) where
  processLen_le := (Task.advance_lengths hlen).1
  rcvLen_le := (Task.advance_lengths hlen).2.1.trans h.rcvLen_le
  read := by
    have := h.read
    simp only [Task.advance]
    split_ifs <;> omega

/-- The end of a message moves the position behind it. -/
theorem handled_advance {len : ℕ} (h : Bounded t) (hlen : t.processLen + len ≤ t.rcvLen) :
    (t.advance len).handled = t.handled + len := by
  have := h.read
  simp only [Task.handled, Task.advance]
  split_ifs <;> omega

/-- The rest of a full buffer is moved to its front. -/
theorem compact (h : Bounded t) (hcompact : t.compact = some t')
    (hleft : t.leftLen = (t.rcvLen : ℤ) - t.processLen) :
    Bounded t' ∧ t'.rcvLen < recvBufMaxSize ∧ t'.leftLen = (t'.rcvLen : ℤ) - t'.processLen ∧
      t'.handled = t.handled := by
  obtain ⟨-, hproc', hroom', hleft'⟩ :=
    Task.unread_compact hcompact h.processLen_le h.rcvLen_le hleft
  obtain ⟨-, -, hgot, -, hsame⟩ := Task.compact_frame hcompact
  have := h.processLen_le
  have := h.read
  have hrest : t'.rcvLen - t'.processLen = t.rcvLen - t.processLen := by omega
  refine ⟨⟨hproc', hroom'.le, ?_⟩, hroom', hsame.trans hleft', ?_⟩
  · rw [hgot]
    omega
  · rw [Task.handled, Task.handled, hgot, hrest]

end Bounded

/-- What a step of a case does that gives no message on: while the connection lasts, the position and
the messages given on stay, and `case POFCS_CHANNEL_RUN` is not left. -/
structure ReadsOn (c : RecvCase) (t t' : Task) : Prop where
  inv : LengthInv t'
  stays : t'.state = .run →
    t'.handled = t.handled ∧ t'.handed = t.handed ∧ (c = .run → t'.entry = .run)

/-- A step that ends the connection. -/
theorem ReadsOn.ends (hinv : LengthInv t') (hstate : t'.state = .invalid) : ReadsOn c t t' := by
  refine ⟨hinv, fun hrun => ?_⟩
  rw [hstate] at hrun
  cases hrun

/-! ### Reading -/

/-- A step before the first message. -/
theorem LengthInv.step_down (hpc : t.pc = .top)
    (hstate : t.state = .invalid ∨ t.state = .connecting ∨ t.state = .connected ∨ t.state = .hello)
    (h : pofscMainTask env t = some t') : LengthInv t' := by
  rcases hstate with hstate | hstate | hstate | hstate
  · simp only [pofscMainTask, hpc, hstate] at h
    split_ifs at h
    rw [Task.iterate_cases h]
    exact .down rfl (.inr (.inl rfl))
  · simp only [pofscMainTask, hpc, hstate] at h
    split_ifs at h
    · rw [Task.iterate_cases h]
      exact .down rfl (.inr (.inr (.inl rfl)))
    · rw [Task.iterate_cases h]
      exact .down rfl (.inl rfl)
  · simp only [pofscMainTask, hpc, hstate] at h
    split_ifs at h
    · rw [Task.iterate_cases h]
      exact .down rfl (.inr (.inr (.inr rfl)))
    · rw [Task.iterate_cases h]
      exact .down rfl (.inl rfl)
  · simp only [pofscMainTask, hpc, hstate] at h
    rcases Task.helloTop_cases h with ⟨hpc', hstate'⟩ | ⟨chunk, -, hle, rfl⟩
    · exact .down hpc' (.inl hstate')
    · -- the buffer is taken as empty, whatever the connection before has left in it
      have hreset : Bounded t.reset := ⟨Nat.le_refl 0, Nat.zero_le _, Nat.zero_le _⟩
      have hstore := hreset.store ((Nat.zero_add _).trans_le hle)
      refine .reading .hello rfl rfl ⟨hstore.1, hstore.2, hstore.3⟩ ?_ fun _ => rfl
      simp [Task.store, Task.reset]

/-- A whole message is left of the bytes read before. -/
theorem readsOn_ready (hhello : c ≠ .hello) (hstate : t.state = c.state)
    (hb : Bounded t) (hleft : t.leftLen = (t.rcvLen : ℤ) - t.processLen) (hready : t.Ready) :
    ReadsOn c t { t with pc := .check c } := by
  have hproc := hb.processLen_le
  obtain ⟨-, hlen⟩ := hready
  refine ⟨.checking c rfl ?_ (fun hc => absurd hc hhello) ?_ ⟨hb.1, hb.2, hb.3⟩ ?_, ?_⟩
  · simp only [hstate]
    cases c <;> simp [RecvCase.state]
  · rintro rfl
    exact hstate
  · simp only [Task.at_] at hlen ⊢
    omega
  · intro _
    exact ⟨rfl, rfl, fun hc => congrArg RecvCase.state hc⟩

/-- The first read of a case. -/
theorem readsOn_firstRead (hhello : c ≠ .hello) (hstate : t.state = c.state)
    (hb : Bounded t) (hleft : t.leftLen = (t.rcvLen : ℤ) - t.processLen)
    (h : t.firstRead env c = some t') : ReadsOn c t t' := by
  rcases Task.firstRead_cases h with ⟨hpc', hstate'⟩ | ⟨-, rfl⟩ | ⟨chunk, -, hfit, rfl⟩
  · exact .ends (.down hpc' (.inl hstate')) hstate'
  · refine ⟨.waiting c hhello rfl hstate ⟨hb.1, hb.2, hb.3⟩ hleft, ?_⟩
    intro hrun
    exact ⟨rfl, rfl, fun _ => hrun⟩
  · have hstore := hb.store hfit
    refine ⟨.reading c rfl rfl ⟨hstore.1, hstore.2, hstore.3⟩ ?_ fun _ => rfl, ?_⟩
    · simp only [Task.store, hleft, Nat.cast_add]
      omega
    · intro _
      exact ⟨hb.handled_store, rfl, fun hc => congrArg RecvCase.state hc⟩

/-- A further read of a case, with room in the buffer. -/
theorem readsOn_nextRead (hpc : t.pc = .loop c) (hstate : t.state = c.next) (hb : Bounded t)
    (htotal : t.totalLen = (t.rcvLen : ℤ) - t.processLen) (hhead : c ≠ .run → t.headPtr = t.processLen)
    (hroom : t.rcvLen < recvBufMaxSize) : ReadsOn c t (t.nextRead env c) := by
  rcases Task.nextRead_cases env t c with heq | ⟨hfull, -⟩ | ⟨chunk, -, hfit, heq⟩
  · rw [heq]
    exact .ends (.closed c rfl rfl) rfl
  · exact absurd hroom (Nat.not_lt.2 hfull)
  · rw [heq]
    have hstore := hb.store hfit
    refine ⟨.reading c hpc hstate ⟨hstore.1, hstore.2, hstore.3⟩ ?_ hhead, ?_⟩
    · simp only [Task.store, htotal, Nat.cast_add]
      omega
    · intro _
      refine ⟨hb.handled_store, rfl, ?_⟩
      rintro rfl
      simp only [Task.entry, Task.store, hpc, RecvCase.state]

/-- The step from the top of a case. -/
theorem readsOn_top (hhello : c ≠ .hello) (hpc : t.pc = .top) (hstate : t.state = c.state)
    (hb : Bounded t) (hleft : t.leftLen = (t.rcvLen : ℤ) - t.processLen)
    (h : pofscMainTask env t = some t') : ReadsOn c t t' := by
  by_cases hrun : c = .run
  · subst hrun
    simp only [pofscMainTask, hpc, hstate, RecvCase.state, Task.runTop] at h
    split_ifs at h with hready
    · obtain rfl := Option.some.inj h
      simpa only [hstate, RecvCase.state] using readsOn_ready hhello hstate hb hleft hready
    · obtain ⟨u, hu, hfirst⟩ := Option.bind_eq_some_iff.1 h
      obtain ⟨hub, -, huleft, huhandled⟩ := hb.compact hu hleft
      obtain ⟨hustate, -, -, huhanded, -⟩ := Task.compact_frame hu
      obtain ⟨hinv, hstays⟩ := readsOn_firstRead hhello (hustate.trans hstate) hub huleft hfirst
      refine ⟨hinv, fun hrun' => ?_⟩
      obtain ⟨hhandled, hhanded, hentry⟩ := hstays hrun'
      exact ⟨hhandled.trans huhandled, hhanded.trans huhanded, hentry⟩
  · have htop : t.handshakeTop env c = some t' := by
      cases c with
      | hello => exact absurd rfl hhello
      | run => exact absurd rfl hrun
      | _ =>
          simp only [pofscMainTask, hpc, hstate, RecvCase.state] at h
          exact h
    unfold Task.handshakeTop at htop
    split_ifs at htop with hready
    · obtain rfl := Option.some.inj htop
      exact readsOn_ready hhello hstate hb hleft hready
    · exact readsOn_firstRead hhello hstate hb hleft htop

/-- The inner loop ends with the message at `process_len`. -/
theorem readsOn_loopEnd (hstate : t.state = c.next) (hb : Bounded t)
    (hhead : c ≠ .run → t.headPtr = t.processLen)
    (hlen : t.processLen + Header.length (t.at_ t.processLen) ≤ t.rcvLen) :
    ReadsOn c t { t with pc := .check c } := by
  refine ⟨.checking c rfl ?_ ?_ ?_ ⟨hb.1, hb.2, hb.3⟩ hlen, ?_⟩
  · simp only [hstate]
    cases c <;> simp [RecvCase.next]
  · rintro rfl
    exact ⟨hstate, hhead (by decide)⟩
  · rintro rfl
    exact hstate
  · intro _
    exact ⟨rfl, rfl, fun hc => congrArg RecvCase.state hc⟩

/-- The step from the test of the inner loop. -/
theorem readsOn_loop (hok : LengthsOk t) (hpc : t.pc = .loop c) (hstate : t.state = c.next)
    (hb : Bounded t) (htotal : t.totalLen = (t.rcvLen : ℤ) - t.processLen)
    (hhead : c ≠ .run → t.headPtr = t.processLen) (h : pofscMainTask env t = some t') :
    ReadsOn c t t' := by
  have hpointer : Header.length (t.at_ t.headPtr) = Header.length (t.at_ t.processLen) := by
    by_cases hrun : c = .run
    · subst hrun
      exact hok.pointer hpc
    · rw [hhead hrun]
  simp only [pofscMainTask, hpc, Task.loopStep] at h
  split_ifs at h with hmore hrun
  · subst hrun
    obtain ⟨u, hu, rfl⟩ := Option.map_eq_some_iff.1 h
    -- in this case the buffer is compacted, which makes room
    have hb' : Bounded { t with leftLen := (t.rcvLen : ℤ) - t.processLen, pc := .loop .run } :=
      ⟨hb.1, hb.2, hb.3⟩
    obtain ⟨hub, huroom, huleft, huhandled⟩ := hb'.compact hu rfl
    obtain ⟨hustate, hupc, -, huhanded, huleft'⟩ := Task.compact_frame hu
    have hutotal : u.totalLen = t.totalLen := by
      rcases Task.compact_cases hu with ⟨-, rfl⟩ | ⟨-, -, -, rfl⟩ <;> rfl
    have hread : ReadsOn .run u (u.nextRead env .run) := readsOn_nextRead hupc (hustate.trans hstate) hub
      (hutotal.trans (htotal.trans (huleft'.symm.trans huleft))) (fun hne => absurd rfl hne) huroom
    refine ⟨hread.inv, fun hrun' => ?_⟩
    obtain ⟨hhandled, hhanded, hentry⟩ := hread.stays hrun'
    exact ⟨hhandled.trans huhandled, hhanded.trans huhanded, hentry⟩
  · obtain rfl := Option.some.inj h
    have hnotfull := hok.handshake c hrun hpc hmore
    exact readsOn_nextRead hpc hstate hb htotal hhead (lt_of_le_of_ne hb.rcvLen_le hnotfull)
  · obtain rfl := Option.some.inj h
    have hproc := hb.processLen_le
    exact readsOn_loopEnd hstate hb hhead (by omega)

/-! ### Giving a message on -/

/-- The end of a message is the top of the next case. -/
theorem LengthInv.next {len : ℕ} (hhello : c ≠ .hello) (hstate : t.state = c.state) (hb : Bounded t)
    (hlen : t.processLen + len ≤ t.rcvLen) : LengthInv { t.advance len with pc := .top } := by
  have hb' := hb.advance hlen
  exact .waiting c hhello rfl hstate ⟨hb'.1, hb'.2, hb'.3⟩ (Task.advance_lengths hlen).2.2

/-- The check of the first message. -/
theorem LengthInv.step_checkHello (hstate : t.state = .requestFeature)
    (hhead : t.headPtr = t.processLen) (hb : Bounded t)
    (hlen : t.processLen + Header.length (t.at_ t.processLen) ≤ t.rcvLen)
    (h : t.checkHello env = some t') : LengthInv t' := by
  simp only [Task.checkHello, hhead] at h
  split_ifs at h
  · rw [Task.iterate_cases h]
    exact .next (c := .requestFeature) (by decide) hstate hb hlen
  · rw [Task.iterate_cases h]
    exact .down rfl (.inl rfl)

/-- The check of a further message of the handshake. -/
theorem LengthInv.step_checkHandshake (hb : Bounded t)
    (hlen : t.processLen + Header.length (t.at_ t.processLen) ≤ t.rcvLen)
    (h : t.checkHandshake env c = some t') : LengthInv t' := by
  rcases Task.checkHandshake_cases h with ⟨-, rfl⟩ | ⟨-, b, -, rfl⟩
  · exact .down rfl (.inl rfl)
  · have hfirst : c.succ ≠ .hello := by cases c <;> simp [RecvCase.succ]
    exact .next hfirst c.state_succ.symm ⟨hb.1, hb.2, hb.3⟩ hlen

theorem LengthInv.step_checkRun (hstate : t.state = .run) (hb : Bounded t)
    (hlen : t.processLen + Header.length (t.at_ t.processLen) ≤ t.rcvLen)
    (h : t.checkRun env = some t') : LengthInv t' := by
  obtain ⟨b, -, rfl⟩ := Task.checkRun_cases h
  exact .next (c := .run) (by decide) hstate ⟨hb.1, hb.2, hb.3⟩ hlen

/-- **A step keeps the invariant.** -/
theorem LengthInv.step (hinv : LengthInv t) (hok : LengthsOk t) (h : pofscMainTask env t = some t') :
    LengthInv t' := by
  cases hinv with
  | down hpc hstate => exact .step_down hpc hstate h
  | waiting c hhello hpc hstate hb hleft => exact (readsOn_top hhello hpc hstate hb hleft h).inv
  | reading c hpc hstate hb htotal hhead => exact (readsOn_loop hok hpc hstate hb htotal hhead h).inv
  | checking c hpc hvalid hhello hrun hb hlen =>
      simp only [pofscMainTask, hpc, if_neg hvalid] at h
      cases c with
      | hello => exact .step_checkHello (hhello rfl).1 (hhello rfl).2 hb hlen h
      | run => exact .step_checkRun (hrun rfl) hb hlen h
      | _ => exact .step_checkHandshake hb hlen h
  | closed c hpc hinvalid =>
      simp only [pofscMainTask, hpc, if_pos hinvalid] at h
      rw [Task.iterate_cases h]
      exact .down rfl (.inl hinvalid)

end Steps

/-! ### Runs -/

/-- The invariant from start-up on. -/
theorem lengthInv_of_run {t : Task} (h : TaskRun LengthsOk t) : LengthInv t ∧ LengthsOk t := by
  obtain ⟨s, hs, hpath⟩ := h
  induction hpath with
  | start hok => exact ⟨.down hs.pc (.inl hs.state), hok⟩
  | step _ hstep hok ih => exact ⟨ih.1.step ih.2 hstep, hok⟩

/-- The ranges given on since `s`: they lie one behind the other before the position. -/
structure RunLog (s : Task) (rs : List (ℕ × ℕ)) (t : Task) : Prop where
  inv : LengthInv t
  entry : t.entry = .run
  handed : t.handed.map List.length = s.handed.map List.length ++ rs.map Prod.snd
  ranges : ∀ r ∈ rs, headerSize ≤ r.2 ∧ r.1 + r.2 ≤ t.handled
  apart : rs.Pairwise fun r r' => r.1 + r.2 ≤ r'.1
  finite : headerSize * rs.length ≤ t.handled

namespace RunLog

variable {s t t' : Task} {rs : List (ℕ × ℕ)} {env : Env}

/-- A step that gives no message on. -/
theorem keep (hlog : RunLog s rs t) (hreads : ReadsOn .run t t') (hstate' : t'.state = .run) :
    RunLog s rs t' := by
  obtain ⟨hhandled, hhanded, hentry⟩ := hreads.stays hstate'
  refine ⟨hreads.inv, hentry rfl, ?_, ?_, hlog.apart, ?_⟩
  · rw [hhanded]
    exact hlog.handed
  · rw [hhandled]
    exact hlog.ranges
  · rw [hhandled]
    exact hlog.finite

/-- A step that gives a message on. -/
theorem give (hlog : RunLog s rs t) (hstate : t.state = .run) (hb : Bounded t)
    (hsize : headerSize ≤ Header.length (t.at_ t.processLen))
    (hlen : t.processLen + Header.length (t.at_ t.processLen) ≤ t.rcvLen)
    (h : t.checkRun env = some t') :
    RunLog s (rs ++ [(t.handled, Header.length (t.at_ t.processLen))]) t' := by
  have hinv' := LengthInv.step_checkRun hstate hb hlen h
  obtain ⟨b, -, ht'⟩ := Task.checkRun_cases h
  have hhandled : t'.handled = t.handled + Header.length (t.at_ t.processLen) := by
    rw [ht']
    exact Bounded.handled_advance ⟨hb.1, hb.2, hb.3⟩ hlen
  have htake : ((t.at_ t.processLen).take (Header.length (t.at_ t.processLen))).length =
      Header.length (t.at_ t.processLen) := by
    have := hb.rcvLen_le
    rw [List.length_take, Task.at_, List.length_drop, t.recvBuf.length_bytes, ← Task.at_]
    omega
  refine ⟨hinv', ?_, ?_, ?_, ?_, ?_⟩
  · rw [ht']
    exact hstate
  · rw [ht']
    simp only [Task.advance, List.map_append, hlog.handed, List.map_cons, List.map_nil, htake,
      List.append_assoc]
  · intro r hr
    rw [hhandled]
    rcases List.mem_append.1 hr with hr | hr
    · exact ⟨(hlog.ranges r hr).1, (hlog.ranges r hr).2.trans (Nat.le_add_right _ _)⟩
    · obtain rfl := List.mem_singleton.1 hr
      exact ⟨hsize, Nat.le_refl _⟩
  · -- the new range starts at the position, where the ranges before it have ended
    refine List.pairwise_append.2 ⟨hlog.apart, List.pairwise_singleton _ _, ?_⟩
    intro r hr r' hr'
    obtain rfl := List.mem_singleton.1 hr'
    exact (hlog.ranges r hr).2
  · rw [hhandled, List.length_append, List.length_singleton, Nat.mul_add, Nat.mul_one]
    exact Nat.add_le_add hlog.finite hsize

/-- Where a task that handles messages is. -/
inductive RunAt (t : Task) : Prop
  | waiting : t.pc = .top → Bounded t → t.leftLen = (t.rcvLen : ℤ) - t.processLen → RunAt t
  | reading : t.pc = .loop .run → Bounded t → t.totalLen = (t.rcvLen : ℤ) - t.processLen → RunAt t
  | checking : t.pc = .check .run → Bounded t →
      t.processLen + Header.length (t.at_ t.processLen) ≤ t.rcvLen → RunAt t

theorem runAt (hlog : RunLog s rs t) (hstate : t.state = .run) : RunAt t := by
  cases hlog.inv with
  | down hpc hdown =>
      rw [hstate] at hdown
      simp at hdown
  | waiting c _ hpc _ hb hleft => exact .waiting hpc hb hleft
  | reading c hpc _ hb htotal _ =>
      obtain rfl := RecvCase.eq_run (by simpa only [Task.entry, hpc] using hlog.entry)
      exact .reading hpc hb htotal
  | checking c hpc _ _ _ hb hlen =>
      obtain rfl := RecvCase.eq_run (by simpa only [Task.entry, hpc] using hlog.entry)
      exact .checking hpc hb hlen
  | closed c _ hinvalid =>
      rw [hstate] at hinvalid
      cases hinvalid

/-- **A step of `case POFCS_CHANNEL_RUN` keeps the ranges apart.** -/
theorem step (hlog : RunLog s rs t) (hok : LengthsOk t) (hstate : t.state = .run)
    (h : pofscMainTask env t = some t') (hstate' : t'.state = .run) :
    RunLog s (rs ++ t.dispatch) t' := by
  have hvalid : t.state ≠ .invalid := by
    rw [hstate]
    decide
  cases hlog.runAt hstate with
  | waiting hpc hb hleft =>
      have hhello : RecvCase.run ≠ .hello := by decide
      rw [Task.dispatch, if_neg (by simp [hpc]), List.append_nil]
      exact hlog.keep (readsOn_top hhello hpc hstate hb hleft h) hstate'
  | reading hpc hb htotal =>
      rw [Task.dispatch, if_neg (by simp [hpc]), List.append_nil]
      exact hlog.keep (readsOn_loop hok hpc hstate hb htotal (fun hne => absurd rfl hne) h) hstate'
  | checking hpc hb hlen =>
      rw [Task.dispatch, if_pos ⟨hpc, hvalid⟩]
      simp only [pofscMainTask, hpc, if_neg hvalid] at h
      exact hlog.give hstate hb (hok.size hpc hstate) hlen h

/-- There is a next step: what is copied inside the buffer does not overlap, and the conversion of a
message stays inside. -/
theorem exists_step (hlog : RunLog s rs t) (hok : LengthsOk t) (hstate : t.state = .run)
    (hreport : env.reportOk = true) : ∃ t', pofscMainTask env t = some t' := by
  have hvalid : t.state ≠ .invalid := by
    rw [hstate]
    decide
  cases hlog.runAt hstate with
  | waiting hpc hb hleft =>
      have hproc := hb.processLen_le
      simp only [pofscMainTask, hpc, hstate, Task.runTop]
      split_ifs with hready
      · exact ⟨_, rfl⟩
      · have hapart : t.rcvLen = recvBufMaxSize → t.leftLen ≤ t.processLen := by
          intro hfull
          have := hok.room (.inl ⟨hpc, hstate, hready⟩) hfull
          omega
        obtain ⟨u, hu⟩ := Task.exists_compact (by omega) hapart
        rw [hu, Option.bind_some, Task.firstRead]
        cases pofscRecv env (recvBufMaxSize - u.rcvLen) with
        | data chunk => exact ⟨_, rfl⟩
        | _ =>
            simp only [Task.iterate, if_pos hreport]
            exact ⟨_, rfl⟩
  | reading hpc hb htotal =>
      have hproc := hb.processLen_le
      simp only [pofscMainTask, hpc, Task.loopStep, if_true]
      split_ifs with hmore
      · have hapart : t.rcvLen = recvBufMaxSize → (t.rcvLen : ℤ) - t.processLen ≤ t.processLen := by
          intro hfull
          have := hok.room (.inr ⟨hpc, hmore⟩) hfull
          omega
        obtain ⟨u, hu⟩ := Task.exists_compact
          (t := { t with leftLen := (t.rcvLen : ℤ) - t.processLen, pc := .loop .run })
          (by simp only; omega) hapart
        exact ⟨_, Option.map_eq_some_iff.2 ⟨u, hu, rfl⟩⟩
      · exact ⟨_, rfl⟩
  | checking hpc hb hlen =>
      obtain ⟨t', ht', -⟩ := Task.exists_checkRun (hok.counts hpc) (hok.fits hpc) hreport
      simp only [pofscMainTask, hpc, if_neg hvalid]
      exact ⟨t', ht'⟩

/-- The bounds are those of the ranges. -/
theorem streamOk (hlog : RunLog s rs t) (hstate : t.state = .run) : StreamOk s rs t := by
  have hb : Bounded t ∧
      (t.pc = .check .run → t.processLen + Header.length (t.at_ t.processLen) ≤ t.rcvLen) := by
    cases hlog.runAt hstate with
    | waiting hpc hb _ => exact ⟨hb, fun hcheck => by rw [hpc] at hcheck; cases hcheck⟩
    | reading hpc hb _ => exact ⟨hb, fun hcheck => by rw [hpc] at hcheck; cases hcheck⟩
    | checking _ hb hlen => exact ⟨hb, fun _ => hlen⟩
  have hle : t.handled ≤ t.got.length := Nat.sub_le _ _
  exact ⟨hb.1.processLen_le, hb.1.rcvLen_le, hb.2, hlog.handed,
    fun r hr => ⟨(hlog.ranges r hr).1, (hlog.ranges r hr).2.trans hle⟩, hlog.apart, hlog.finite.trans hle⟩

end RunLog

section Paths

variable {s t : Task} {rs : List (ℕ × ℕ)}

theorem runLog_of_path (hs : LengthInv s) (hpc : s.pc = .top) (hstate : s.state = .run)
    (h : DispatchPath (fun t => t.state = .run ∧ LengthsOk t) s rs t) :
    RunLog s rs t ∧ t.state = .run ∧ LengthsOk t := by
  induction h with
  | start hok =>
      refine ⟨⟨hs, ?_, ?_, ?_, .nil, Nat.zero_le _⟩, hok⟩
      · rw [Task.entry, hpc]
        exact hstate
      · rw [List.map_nil, List.append_nil]
      · simp
  | step _ hstep hok ih => exact ⟨ih.1.step ih.2.2 ih.2.1 hstep hok.1, hok⟩

/-- **The bounds of the receive buffer**: from the start-up of the switch on, and with lengths that
satisfy the conditions, the indices stay in order in `POFCS_CHANNEL_RUN`, every message that is given on
lies inside the bytes received, has eight bytes at least and begins behind the messages before it; and
there is a next step. -/
theorem run_keeps_bounds (hs : TaskRun LengthsOk s) (hpc : s.pc = .top) (hstate : s.state = .run)
    (h : DispatchPath (fun t => t.state = .run ∧ LengthsOk t) s rs t) :
    StreamOk s rs t ∧ ∀ env : Env, env.reportOk = true → ∃ t', pofscMainTask env t = some t' := by
  obtain ⟨hlog, hrun, hok⟩ := runLog_of_path (lengthInv_of_run hs).1 hpc hstate h
  exact ⟨hlog.streamOk hrun, fun env hreport => hlog.exists_step hok hrun hreport⟩

/-- Every path gives some ranges on. -/
theorem exists_dispatchPath {P : Task → Prop} (h : TaskPath P s t) : ∃ rs, DispatchPath P s rs t := by
  induction h with
  | start hP => exact ⟨[], .start hP⟩
  | step _ hstep hP ih =>
      obtain ⟨rs, hrs⟩ := ih
      exact ⟨_, hrs.step hstep hP⟩

end Paths

/-- The environments of the handshake. -/
def handshakeEnvs : List Env :=
  List.replicate 3 (Env.sends []) ++
    handshakeReads.flatMap fun b => List.replicate 3 (Env.sends b)

/-- Two messages that come in three reads after the handshake are given on once each. -/
theorem run_keeps_bounds_echo : ∃ s t rs, TaskRun LengthsOk s ∧ s.pc = .top ∧ s.state = .run ∧
    DispatchPath (fun t => t.state = .run ∧ LengthsOk t) s rs t ∧ t.handed = echoRequests ∧
    StreamOk s rs t := by
  have hsteps : ((Task.steps LengthsOk handshakeEnvs .start).bind fun s =>
      (Task.steps (fun t => t.state = .run ∧ LengthsOk t) echoEnvs s).map fun t =>
        decide (s.pc = .top ∧ (s.state = .run ∧ LengthsOk s) ∧ t.handed = echoRequests)) =
          some true := by
    decide +kernel
  obtain ⟨s, hs, hrest⟩ := Option.bind_eq_some_iff.1 hsteps
  obtain ⟨t, ht, hend⟩ := Option.map_eq_some_iff.1 hrest
  obtain ⟨hpc, hok, hhanded⟩ := of_decide_eq_true hend
  have hrun : TaskRun LengthsOk s :=
    ⟨.start, Task.initial_start, (TaskPath.start (by decide +kernel)).steps hs⟩
  obtain ⟨rs, hpath⟩ := exists_dispatchPath ((TaskPath.start hok).steps ht)
  exact ⟨s, t, rs, hrun, hpc, hok.1, hpath, hhanded, (run_keeps_bounds hrun hpc hok.1 hpath).1⟩

/-- A header that gives the length zero. -/
def emptyRequest : Buf := [4, 2, 0, 0, 0, 0, 0, 9]

/-- A header that gives the length zero is given on as an empty message, again and again. -/
theorem hands_empty_forever :
    ¬ ∀ (s t : Task) (rs : List (ℕ × ℕ)), TaskRun (fun _ => True) s → s.pc = .top → s.state = .run →
      DispatchPath (fun t => t.state = .run) s rs t → StreamOk s rs t := by
  intro hclaim
  have hsteps : ((Task.steps (fun _ => True) handshakeEnvs .start).bind fun s =>
      (Task.steps (fun t => t.state = .run)
        ([emptyRequest, [], [], [], []].map Env.sends) s).map fun t =>
          decide (s.pc = .top ∧ s.state = .run ∧ s.handed = [] ∧ t.handed = [[], []] ∧
            t.pc = .top)) = some true := by
    decide +kernel
  obtain ⟨s, hs, hrest⟩ := Option.bind_eq_some_iff.1 hsteps
  obtain ⟨t, ht, hend⟩ := Option.map_eq_some_iff.1 hrest
  obtain ⟨hpc, hstate, hnil, hhanded, -⟩ := of_decide_eq_true hend
  have hrun : TaskRun (fun _ => True) s :=
    ⟨.start, Task.initial_start, (TaskPath.start trivial).steps hs⟩
  obtain ⟨rs, hpath⟩ := exists_dispatchPath ((TaskPath.start hstate).steps ht)
  have hok := hclaim s t rs hrun hpc hstate hpath
  have hlengths := hok.handed
  rw [hhanded, hnil] at hlengths
  have hzero : 0 ∈ rs.map Prod.snd := by
    rw [List.map_nil, List.nil_append] at hlengths
    rw [← hlengths]
    exact List.mem_cons_self
  obtain ⟨r, hr, hsnd⟩ := List.mem_map.1 hzero
  have hsize := (hok.ranges r hr).1
  rw [hsnd] at hsize
  exact absurd hsize (by decide)

end PofSwitch
