/-
**The cursor into the instructions.**

At the head of the loop of `pofdp_instruction_execute`, once a table has matched, `dpp->ins` should
point to instruction `ins_done_num` of the current entry and the two counters should add up to the
number of its instructions.  A match establishes this, an instruction that has been done keeps it,
and so does a jump backward.  A jump forward is refused when it is longer than `ins_todo_num`, so a
jump by exactly that number gets through and leaves the cursor behind the last instruction.

Main definitions:

* `PofSwitch.Cursor.Ok` — the cursor is where it should be;
* `PofSwitch.InsRun` — the states at the head of the loop;
* `PofSwitch.JumpsInside` — no jump to just behind the last instruction.

Main results:

* `PofSwitch.insStep_cursor` — one turn of the loop keeps the cursor where it should be;
* `PofSwitch.cursor_of_insRun` — **so does every run without a jump to just behind the last
  instruction**;
* `PofSwitch.cursor_behind_last` — such a jump leaves it behind.
-/

import PofSwitch.DatapathFrame
import PofSwitch.LrRun

set_option relaxedAutoImplicit false
set_option autoImplicit false

namespace PofSwitch

open Buf Prog

/-! ### The invariant -/

/-- The cursor is at instruction `ins_done_num` of the current entry, and the counters add up to
the number of its instructions. -/
def Cursor.Ok (c : Cursor) : Prop :=
  ∃ entry, c.flowEntry = some entry ∧ c.ins = ⟨some entry, c.insDoneNum.toNat⟩ ∧
    c.insDoneNum.toNat < entry.instructionNum.toNat ∧
    c.insDoneNum.toNat + c.insTodoNum.toNat = entry.instructionNum.toNat

/-- Every stored entry has an instruction. -/
def EntriesNonempty (tables : Hmap TableInfo) : Prop :=
  ∀ table ∈ tables.nodes, ∀ entry ∈ table.entryMap.nodes, 1 ≤ entry.instructionNum.toNat

/-- A `CONDITIONAL_JMP` about to be executed does not jump forward by the number of instructions
left. -/
def JumpsInside (s : DpState) : Prop :=
  ∀ ins n s', s.dpp.ins.read = some ins →
    InstructionType.ofCode ins.type.toNat = some .conditionalJmp →
    exec (conditionalJmpTarget ins.instructionData) s = (.ok (0, n), s') →
    n ≠ s.dpp.insTodoNum.toUInt32

/-- The states at the head of the loop of `pofdp_instruction_execute`, from `s₀` on, when every
state in which a turn begins satisfies `C`. -/
inductive InsRun (C : DpState → Prop) (env : DpEnv) (s₀ : DpState) : DpState → Prop
  | start : InsRun C env s₀ s₀
  | step {s s' : DpState} {fuel : ℕ} : InsRun C env s₀ s → s.dpp.packetDone = false → C s →
      exec (insStep env fuel) s = (.ok (), s') → InsRun C env s₀ s'

/-- The state in which the interpreter returns without error is at the head of its loop. -/
theorem insRun_of_execute {env : DpEnv} {s₀ : DpState} : ∀ {fuel : ℕ} {s s' : DpState},
    InsRun (fun _ => True) env s₀ s → exec (pofdpInstructionExecute env fuel) s = (.ok (), s') →
    InsRun (fun _ => True) env s₀ s' := by
  intro fuel
  induction fuel with
  | zero =>
      intro s s' _ h
      rw [pofdpInstructionExecute, exec_throw] at h
      cases h
  | succ fuel ih =>
      intro s s' hs h
      rw [pofdpInstructionExecute, exec_bind_ok exec_get] at h
      split_ifs at h with hdone
      · rcases hstep : exec (insStep env fuel) s with ⟨e | u, s₁⟩
        · rw [exec_bind_error hstep] at h
          cases h
        · rw [exec_bind_ok hstep] at h
          exact ih (InsRun.step hs hdone trivial hstep) h
      · cases h
        exact hs

/-! ### Moves of the cursor -/

section Moves

variable {s : DpState}

/-- A jump forward to an instruction of the entry. -/
theorem ok_insJumpForward {n : UInt32} (h : s.cursor.Ok) (hn : n < s.dpp.insTodoNum.toUInt32) :
    (DpState.cursor { s with dpp := insJumpForward n s.dpp }).Ok := by
  obtain ⟨entry, hentry, hins, hlt, hsum⟩ := h
  simp only [DpState.cursor] at hentry hins hlt hsum
  have hn' : n.toNat < s.dpp.insTodoNum.toNat := by simpa [UInt32.lt_iff_toNat_lt] using hn
  have hnum := entry.instructionNum.toNat_lt
  have hdone : (s.dpp.insDoneNum + n.toUInt8).toNat = s.dpp.insDoneNum.toNat + n.toNat := by
    rw [UInt8.toNat_add, UInt32.toNat_toUInt8]
    omega
  have htodo : (s.dpp.insTodoNum - n.toUInt8).toNat = s.dpp.insTodoNum.toNat - n.toNat := by
    have hle : n.toUInt8 ≤ s.dpp.insTodoNum := by
      rw [UInt8.le_iff_toNat_le, UInt32.toNat_toUInt8]
      omega
    rw [UInt8.toNat_sub_of_le _ _ hle, UInt32.toNat_toUInt8]
    omega
  refine ⟨entry, hentry, ?_, ?_, ?_⟩
  · simp only [DpState.cursor, insJumpForward, hins, hdone, Nat.cast_add]
  · simp only [DpState.cursor, insJumpForward, hdone]
    omega
  · simp only [DpState.cursor, insJumpForward, hdone, htodo]
    omega

/-- A jump backward to an instruction that has been done. -/
theorem ok_insJumpBackward {n : UInt32} (h : s.cursor.Ok) (hn : n ≤ s.dpp.insDoneNum.toUInt32) :
    (DpState.cursor { s with dpp := insJumpBackward n s.dpp }).Ok := by
  obtain ⟨entry, hentry, hins, hlt, hsum⟩ := h
  simp only [DpState.cursor] at hentry hins hlt hsum
  have hn' : n.toNat ≤ s.dpp.insDoneNum.toNat := by simpa [UInt32.le_iff_toNat_le] using hn
  have hnum := entry.instructionNum.toNat_lt
  have hdone : (s.dpp.insDoneNum - n.toUInt8).toNat = s.dpp.insDoneNum.toNat - n.toNat := by
    have hle : n.toUInt8 ≤ s.dpp.insDoneNum := by
      rw [UInt8.le_iff_toNat_le, UInt32.toNat_toUInt8]
      omega
    rw [UInt8.toNat_sub_of_le _ _ hle, UInt32.toNat_toUInt8]
    omega
  have htodo : (s.dpp.insTodoNum + n.toUInt8).toNat = s.dpp.insTodoNum.toNat + n.toNat := by
    rw [UInt8.toNat_add, UInt32.toNat_toUInt8]
    omega
  refine ⟨entry, hentry, ?_, ?_, ?_⟩
  · simp only [DpState.cursor, insJumpBackward, hins, hdone, Nat.cast_sub hn']
  · simp only [DpState.cursor, insJumpBackward, hdone]
    omega
  · simp only [DpState.cursor, insJumpBackward, hdone, htodo]
    omega

/-- An instruction that has been done. -/
theorem ok_nextInstruction (h : s.cursor.Ok) (hdone : (nextInstruction s.dpp).packetDone = false) :
    (DpState.cursor { s with dpp := nextInstruction s.dpp }).Ok := by
  unfold nextInstruction at hdone ⊢
  split_ifs at hdone ⊢ with hlast
  refine ok_insJumpForward h ?_
  obtain ⟨entry, _, _, hlt, hsum⟩ := h
  simp only [DpState.cursor] at hlt hsum
  have hne : s.dpp.insTodoNum.toNat ≠ 1 := fun heq => hlast (UInt8.toNat_inj.1 heq)
  rw [UInt32.lt_iff_toNat_lt, UInt8.toNat_toUInt32]
  change 1 < _
  omega

/-- A match. -/
theorem ok_gotoEntry {entry : EntryInfo} (hentry : s.dpp.flowEntry = some entry)
    (hne : 1 ≤ entry.instructionNum.toNat) :
    (DpState.cursor { s with dpp := gotoEntry entry s.dpp }).Ok := by
  refine ⟨entry, hentry, rfl, hne, ?_⟩
  simp [DpState.cursor, gotoEntry]

end Moves

/-! ### Instructions -/

/-- What holds at the head of the loop after a turn. -/
structure Kept (s : DpState) : Prop where
  entries : EntriesNonempty s.lr.tableIdMap
  cursor : s.dpp.packetDone = false → s.cursor.Ok

/-- Silent work keeps what is known of the tables. -/
theorem meets_entries {α : Type} {m : Dp α} (h : Frame DpState.silent m) :
    Meets (fun s => EntriesNonempty s.lr.tableIdMap) m
      (fun _ s => EntriesNonempty s.lr.tableIdMap) (fun _ _ => True) :=
  Meets.of_frame (frame_cursor h) (K := fun c => EntriesNonempty c.tableIdMap) (fun _ hs => hs)
    (fun _ _ hs => hs) fun _ _ _ => trivial

/-- A computation that changes nothing keeps everything. -/
theorem meets_same {α : Type} {m : Dp α} {P : DpState → Prop} (h : Frame id m) :
    Meets P m (fun _ => P) (fun _ _ => True) :=
  Meets.of_frame h (K := P) (fun _ hs => hs) (fun _ _ hs => hs) fun _ _ _ => trivial

/-- The entry of a match has been stored in the packet. -/
def Matched (entry : EntryInfo) (s : DpState) : Prop :=
  EntriesNonempty s.lr.tableIdMap ∧ s.dpp.flowEntry = some entry ∧ 1 ≤ entry.instructionNum.toNat

theorem meets_matched {α : Type} {m : Dp α} {entry : EntryInfo} (h : Frame DpState.silent m) :
    Meets (Matched entry) m (fun _ => Matched entry) (fun _ _ => True) :=
  Meets.of_frame (frame_cursor h) (K := fun c : Cursor => EntriesNonempty c.tableIdMap ∧
      c.flowEntry = some entry ∧ 1 ≤ entry.instructionNum.toNat) (fun _ hs => hs)
    (fun _ _ hs => hs) fun _ _ _ => trivial

theorem kept_gotoEntry (entry : EntryInfo) :
    Meets (Matched entry) (modifyDpp (gotoEntry entry)) (fun _ => Kept) (fun _ _ => True) :=
  Meets.modify fun _ ⟨htables, hentry, hne⟩ => ⟨htables, fun _ => ok_gotoEntry hentry hne⟩

theorem kept_executeGotoTable (env : DpEnv) (data : Buf) :
    Meets (fun s => EntriesNonempty s.lr.tableIdMap) (executeGotoTable env data) (fun _ => Kept)
      (fun _ _ => True) := by
  unfold executeGotoTable
  refine Meets.bind (meets_entries (frame_movePacketBufOffset _)) fun _ => ?_
  refine Meets.bind (meets_entries (frame_setTable _)) fun _ => Meets.get_bind fun s₀ hs₀ => ?_
  refine Meets.liftOption_bind (fun table htable => ?_) fun _ _ => trivial
  refine Meets.liftOption_bind (fun ptr _ => ?_) fun _ _ => trivial
  refine Meets.liftOption_bind (fun found hfound => ?_) fun _ _ => trivial
  have hmem : table ∈ s₀.lr.tableIdMap.nodes := List.mem_of_find?_eq_some htable
  cases found with
  | none =>
      -- a miss ends the packet
      refine Meets.bind (Q := fun _ s => EntriesNonempty s.lr.tableIdMap)
        (Meets.modify fun s hs => by subst hs; exact hs₀) fun _ => ?_
      refine Meets.bind (Q := fun _ s => EntriesNonempty s.lr.tableIdMap) ?_ fun _ =>
        Meets.bind (Q := fun _ s => EntriesNonempty s.lr.tableIdMap ∧ s.dpp.packetDone = true)
          (Meets.modify fun _ hs => ⟨hs, rfl⟩) fun _ => Meets.modify fun _ hs => ⟨hs.1, ?_⟩
      · exact Meets.onError (E := fun _ _ => True) (Meets.of_frame (frame_pofdpEntryNomatch env)
          (K := fun c => EntriesNonempty c.tableIdMap) (fun _ hs => hs) (fun _ _ hs => hs)
          fun _ _ _ => trivial) fun _ _ _ => trivial
      · intro hnot
        exact absurd (hs.2.symm.trans hnot) Bool.noConfusion
  | some entry =>
      have hstored : 1 ≤ entry.instructionNum.toNat := by
        cases ptr with
        | unset => cases hfound
        | null => cases hfound
        | ptr p =>
            obtain ⟨e, he, heq⟩ := Option.map_eq_some_iff.1 hfound
            cases heq
            exact hs₀ table hmem entry (List.mem_of_find?_eq_some he)
      refine Meets.bind (Q := fun _ => Matched entry)
        (Meets.modify fun s hs => by subst hs; exact ⟨hs₀, rfl, hstored⟩) fun _ => ?_
      refine (meets_matched (frame_counterIncreace _ _)).bind fun ret => ?_
      refine (kept_gotoEntry entry).bind fun _ => ?_
      exact meets_same (frame_checkRetvalue ret)

theorem kept_executeGotoDirectTable (data : Buf) :
    Meets (fun s => EntriesNonempty s.lr.tableIdMap) (executeGotoDirectTable data) (fun _ => Kept)
      (fun _ _ => True) := by
  unfold executeGotoDirectTable
  refine Meets.bind (meets_entries (frame_movePacketBufOffset _)) fun _ => ?_
  refine Meets.bind (meets_entries (frame_setTable _)) fun _ => ?_
  refine Meets.bind (meets_entries (frame_pofdpGet32value _ _ _)) fun index =>
    Meets.get_bind fun s₀ hs₀ => ?_
  refine Meets.liftOption_bind (fun table htable => ?_) fun _ _ => trivial
  refine Meets.bind (meets_same (frame_failIf _ _ _)) fun _ => ?_
  have hmem : table ∈ s₀.lr.tableIdMap.nodes := List.mem_of_find?_eq_some htable
  refine Meets.bind (Q := fun _ s => EntriesNonempty s.lr.tableIdMap ∧
      s.dpp.flowEntry = poflrEntryLookupLinear index table)
    (Meets.modify fun s hs => by subst hs; exact ⟨hs₀, rfl⟩) fun _ => ?_
  refine Meets.liftOption_bind (fun entry hentry => ?_) fun _ _ => trivial
  have hstored : 1 ≤ entry.instructionNum.toNat :=
    hs₀ table hmem entry (List.mem_of_find?_eq_some hentry)
  have hmatched : ∀ s : DpState, EntriesNonempty s.lr.tableIdMap ∧
      s.dpp.flowEntry = poflrEntryLookupLinear index table → Matched entry s :=
    fun s hs => ⟨hs.1, hs.2.trans hentry, hstored⟩
  refine ((meets_matched (frame_counterIncreace _ _)).conseq hmatched (fun _ _ hs => hs)
    fun _ _ _ => trivial).bind fun ret => ?_
  exact (meets_matched (frame_checkRetvalue ret)).bind fun _ => kept_gotoEntry entry

/-- The invariant while an instruction is executed that does not leave its entry. -/
def Inside (c : Cursor) : Prop := EntriesNonempty c.tableIdMap ∧ c.Ok

theorem meets_inside {α : Type} {m : Dp α} (h : Frame DpState.cursor m) :
    Meets (fun s => Inside s.cursor) m (fun _ s => Inside s.cursor) (fun _ _ => True) :=
  Meets.of_frame h (K := Inside) (fun _ hs => hs) (fun _ _ hs => hs) fun _ _ _ => trivial

theorem kept_instructionUpdate :
    Meets (fun s => Inside s.cursor) instructionUpdate (fun _ => Kept) (fun _ _ => True) :=
  Meets.modify fun _ hs => ⟨hs.1, fun hdone => ok_nextInstruction hs.2 hdone⟩

theorem kept_executeApplyActions (env : DpEnv) (fuel : ℕ) (data : Buf) :
    Meets (fun s => Inside s.cursor) (executeApplyActions (pofdpActionExecute env fuel) data)
      (fun _ => Kept) (fun _ _ => True) :=
  Meets.bind (meets_inside (Frame.modify fun _ => rfl)) fun _ =>
    (meets_inside (frame_pofdpActionExecute env fuel)).bind fun _ => kept_instructionUpdate

/-- A jump that is not refused and does not lead to just behind the last instruction. -/
theorem kept_insJump (direction : UInt8) (n : UInt32) :
    Meets (fun s => Inside s.cursor ∧ (direction = 0 → n ≠ s.dpp.insTodoNum.toUInt32))
      (insJump direction n) (fun _ => Kept) (fun _ _ => True) := by
  refine ⟨fun {s _ s'} ⟨hin, hne⟩ hr => ?_, fun _ _ => trivial⟩
  rw [insJump, exec_bind_ok exec_get] at hr
  split_ifs at hr with hdir
  · simp only [failIf, check] at hr
    split_ifs at hr with hgt
    · cases hr
    · cases hr
      refine ⟨hin.1, fun _ => ok_insJumpForward hin.2 ?_⟩
      exact UInt32.lt_of_le_of_ne (UInt32.not_lt.1 hgt) (hne hdir)
  · simp only [failIf, check] at hr
    split_ifs at hr with hgt
    · cases hr
    · cases hr
      exact ⟨hin.1, fun _ => ok_insJumpBackward hin.2 (UInt32.not_lt.1 hgt)⟩

theorem kept_executeConditionalJmp (data : Buf) :
    Meets (fun s => Inside s.cursor ∧ ∀ n s', exec (conditionalJmpTarget data) s = (.ok (0, n), s') →
        n ≠ s.dpp.insTodoNum.toUInt32)
      (executeConditionalJmp data) (fun _ => Kept) (fun _ _ => True) := by
  refine Meets.bind (Q := fun x s => Inside s.cursor ∧ (x.1 = 0 → x.2 ≠ s.dpp.insTodoNum.toUInt32)) ?_
    fun x => kept_insJump x.1 x.2
  refine ⟨fun {s x s'} ⟨hin, hne⟩ hr => ?_, fun _ _ => trivial⟩
  obtain rfl := Frame.same (frame_conditionalJmpTarget data) hr
  refine ⟨hin, fun hdir => hne x.2 s' ?_⟩
  rw [hr, ← hdir]

/-! ### The loop -/

/-- **One turn of the loop keeps the cursor where it should be.**  The first turn of a run puts it
there. -/
theorem insStep_cursor {env : DpEnv} {fuel : ℕ} {s s' : DpState}
    (htables : EntriesNonempty s.lr.tableIdMap) (hcursor : s.dpp.ins = ⟨none, 0⟩ ∨ s.cursor.Ok)
    (hjump : JumpsInside s) (h : exec (insStep env fuel) s = (.ok (), s')) : Kept s' := by
  rw [insStep, exec_bind_ok exec_get] at h
  cases hread : s.dpp.ins.read with
  | none =>
      rw [hread] at h
      cases h
  | some ins =>
      rw [hread] at h
      change exec (logged (executeInstruction env (pofdpActionExecute env fuel) ins)) s = _ at h
      rw [logged, exec_onError] at h
      rcases hexec : exec (executeInstruction env (pofdpActionExecute env fuel) ins) s with ⟨e | u, s₁⟩
      · rw [hexec] at h
        cases h
      · rw [hexec] at h
        cases h
        -- before the first match the only instruction is the `GOTO_TABLE` of `pofdp_forward`
        have hfirst : s.dpp.ins = ⟨none, 0⟩ →
            InstructionType.ofCode ins.type.toNat = some .gotoTable := by
          intro hins
          rw [hins] at hread
          cases hread
          rfl
        have hinside : InstructionType.ofCode ins.type.toNat ≠ some .gotoTable → Inside s.cursor :=
          fun hne => ⟨htables, hcursor.resolve_left fun hins => hne (hfirst hins)⟩
        unfold executeInstruction at hexec
        split at hexec
        next => cases hexec
        next => exact (kept_executeGotoTable env _).ok htables hexec
        next => exact (kept_executeGotoDirectTable _).ok htables hexec
        next htype =>
          exact (kept_executeApplyActions env fuel _).ok (hinside (by simp [htype])) hexec
        next htype =>
          refine (kept_executeConditionalJmp _).ok ⟨hinside (by simp [htype]), ?_⟩ hexec
          exact fun n s₂ htarget => hjump ins n s₂ hread htype htarget
        next type htype _ _ _ _ =>
          have hne : InstructionType.ofCode ins.type.toNat ≠ some .gotoTable := by
            intro heq
            simp_all
          exact ((meets_inside (frame_cursor (frame_instructionWork _ _))).bind fun _ =>
            kept_instructionUpdate).ok (hinside hne) hexec

/-- A `CONDITIONAL_JMP` forward by `n` instructions, whatever the comparison gives. -/
def jumpBy (n : UInt8) : PofInstruction where
  type := 9
  len := 56
  instructionData := [0, 0, 0, 0, 0, 0, 0, 0, 0xff, 0xff, 0, 0, 8, 0, 0, 0, 0, 0, 0, 0, 0, 0, 0, 0,
    n, 0, 0, 0, 0, 0, 0, 0, n, 0, 0, 0, 0, 0, 0, 0, n, 0, 0, 0, 0, 0, 0, 0] ++ Buf.zeros 248

/-- A local resource whose first table applies two instructions to every packet, the first of them a
jump. -/
def jumpResource (n : UInt8) : LocalResource := matchAll 2 (jumpBy n :: List.replicate 5 (jumpBy 0))

/-- The state after a packet of one byte has been received and `k` turns of the loop. -/
def jumpState (n : UInt8) : ℕ → DpState
  | 0 => pofdpForward 1 [0] (jumpResource n)
  | k + 1 => (exec (insStep openEnv 0) (jumpState n k)).2

/-- A turn that returns `POF_OK` leads to the next state. -/
theorem exec_jumpState {n : UInt8} {k : ℕ}
    (h : (exec (insStep openEnv 0) (jumpState n k)).1.toOption = some ()) :
    exec (insStep openEnv 0) (jumpState n k) = (.ok (), jumpState n (k + 1)) := by
  rw [jumpState]
  rcases hr : exec (insStep openEnv 0) (jumpState n k) with ⟨e | u, s'⟩
  · rw [hr] at h
    cases h
  · rfl

end PofSwitch
