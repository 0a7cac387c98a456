/-
**Runs of the two interpreters, turn by turn.**

`pofdp_instruction_execute` calls `pofdp_action_execute`, which calls itself for a `GROUP` action.
The recursion of the latter is idle: `execute_GROUP` moves the cursor to the actions of the group
before the call, and when the call returns without an error nothing is left for the loop it was made
from.  So a packet is processed by one sequence of turns, each of them an instruction, an action, the
entry into the actions of an instruction or the return from them, and a `GROUP` action is a turn that
moves the cursor.

The interpreters take fuel; a sequence of turns does not.  What the interpreters return, however much
fuel they have, is the end of a sequence of turns, up to the errors that the loops record in the
history on the way out.

Main definitions:

* `PofSwitch.actTurn`, `PofSwitch.dpTurn` — one turn;
* `PofSwitch.DpRun` — the states between turns, with a condition on the states turns begin in;
* `PofSwitch.DpEnds` — how a sequence of turns ends.

Main results:

* `PofSwitch.pofdpActionExecute_mono` — more fuel does not change what is returned;
* `PofSwitch.dpEnds_of_execute` — **what the interpreters return is the end of a sequence of turns**;
* `PofSwitch.dpRun_of_ends` — all of its states are states of a run.
-/

import PofSwitch.DatapathFrame

set_option relaxedAutoImplicit false
set_option autoImplicit false

namespace PofSwitch

open Buf Prog

/-! ### Turns -/

/-- The loop whose head is reached. -/
inductive DpLoop
  | ins | act
deriving DecidableEq, Repr

/-- The condition of the loop of `pofdp_action_execute`. -/
def DpState.HasAction (s : DpState) : Prop := s.dpp.packetDone = false ∧ s.dpp.actNum > 0

instance (s : DpState) : Decidable s.HasAction := inferInstanceAs (Decidable (_ ∧ _))

/-- One action; a `GROUP` action has done its part when it has moved the cursor. -/
def actTurn (env : DpEnv) : Dp Unit := do
  let s ← get
  let action ← liftOption s.dpp.act.head? .undefined
  executeAction env (pure ()) action

/-- One turn, and the loop it leads to. -/
def dpTurn (env : DpEnv) : DpLoop → Dp DpLoop
  | .ins => do
      let s ← get
      let ins ← liftOption s.dpp.ins.read .undefined
      if InstructionType.ofCode ins.type.toNat = some .applyActions then do
        modifyDpp fun dpp =>
          { dpp with act := applyActionsList ins.instructionData, actNum := ins.instructionData.rd 0 }
        pure .act
      else do
        executeInstruction env (pure ()) ins
        pure .ins
  | .act => do
      let s ← get
      if s.HasAction then do
        actTurn env
        pure .act
      else do
        instructionUpdate
        pure .ins

/-- The processing of the packet goes on. -/
def DpState.Goes (s : DpState) : DpLoop → Prop
  | .ins => s.dpp.packetDone = false
  | .act => True

/-- The states between turns, from `s₀` at the head of the loop over instructions on, when every
state in which a turn begins satisfies `C`. -/
inductive DpRun (C : DpLoop → DpState → Prop) (env : DpEnv) (s₀ : DpState) : DpLoop → DpState → Prop
  | start : DpRun C env s₀ .ins s₀
  | turn {l l' : DpLoop} {s s' : DpState} : DpRun C env s₀ l s → s.Goes l → C l s →
      exec (dpTurn env l) s = (.ok l', s') → DpRun C env s₀ l' s'

/-- How a sequence of turns from a state ends. -/
inductive DpEnds (env : DpEnv) : DpLoop → DpState → Except Halt Unit → DpState → Prop
  | done {s : DpState} : s.dpp.packetDone = true → DpEnds env .ins s (.ok ()) s
  | fail {l : DpLoop} {s t : DpState} {h : Halt} : s.Goes l →
      exec (dpTurn env l) s = (.error h, t) → DpEnds env l s (.error h) t
  | turn {l l' : DpLoop} {s s' t : DpState} {r : Except Halt Unit} : s.Goes l →
      exec (dpTurn env l) s = (.ok l', s') → DpEnds env l' s' r t → DpEnds env l s r t

/-- A run with a weaker condition. -/
theorem DpRun.mono {C D : DpLoop → DpState → Prop} {env : DpEnv} {s₀ s : DpState} {l : DpLoop}
    (h : DpRun C env s₀ l s) (hCD : ∀ l s, C l s → D l s) : DpRun D env s₀ l s := by
  induction h with
  | start => exact DpRun.start
  | turn _ hgo hC hturn ih => exact DpRun.turn ih hgo (hCD _ _ hC) hturn

/-- **What every turn keeps holds throughout a run.** -/
theorem DpRun.induction {C : DpLoop → DpState → Prop} {I : DpState → Prop} {env : DpEnv}
    {s₀ s : DpState} {l : DpLoop} (hstart : I s₀)
    (hturn : ∀ l s l' s', C l s → I s → exec (dpTurn env l) s = (.ok l', s') → I s')
    (h : DpRun C env s₀ l s) : I s := by
  induction h with
  | start => exact hstart
  | turn _ _ hC hexec ih => exact hturn _ _ _ _ hC ih hexec

/-- Every sequence of turns that ends passes through states of a run, and what ends it is the flag
`packet_done` or a turn that fails. -/
theorem dpRun_of_ends {env : DpEnv} {s₀ : DpState} {l : DpLoop} {s t : DpState}
    {r : Except Halt Unit} (hrun : DpRun (fun _ _ => True) env s₀ l s) (h : DpEnds env l s r t) :
    (r = .ok () ∧ DpRun (fun _ _ => True) env s₀ .ins t ∧ t.dpp.packetDone = true) ∨
      ∃ l' u e, r = .error e ∧ DpRun (fun _ _ => True) env s₀ l' u ∧ u.Goes l' ∧
        exec (dpTurn env l') u = (.error e, t) := by
  induction h with
  | done hdone => exact Or.inl ⟨rfl, hrun, hdone⟩
  | fail hgo hturn => exact Or.inr ⟨_, _, _, rfl, hrun, hgo, hturn⟩
  | turn hgo hturn _ ih => exact ih (DpRun.turn hrun hgo trivial hturn)

/-! ### Computing a run -/

instance (s : DpState) (l : DpLoop) : Decidable (s.Goes l) :=
  match l with
  | .ins => inferInstanceAs (Decidable (s.dpp.packetDone = false))
  | .act => inferInstanceAs (Decidable True)

/-- The loop and the state after `k` turns that all succeed and begin in states with `C`. -/
def dpAfter (C : DpLoop → DpState → Prop) [∀ l s, Decidable (C l s)] (env : DpEnv) :
    ℕ → DpLoop → DpState → Option (DpLoop × DpState)
  | 0, l, s => some (l, s)
  | k + 1, l, s =>
      if s.Goes l ∧ C l s then
        match exec (dpTurn env l) s with
        | (.ok l', s') => dpAfter C env k l' s'
        | (.error _, _) => none
      else none

/-- Such turns are a run. -/
theorem dpRun_of_dpAfter {C : DpLoop → DpState → Prop} [∀ l s, Decidable (C l s)] {env : DpEnv}
    {s₀ : DpState} : ∀ {k : ℕ} {l l' : DpLoop} {s s' : DpState}, DpRun C env s₀ l s →
    dpAfter C env k l s = some (l', s') → DpRun C env s₀ l' s' := by
  intro k
  induction k with
  | zero =>
      intro l l' s s' hrun h
      cases h
      exact hrun
  | succ k ih =>
      intro l l' s s' hrun h
      rw [dpAfter] at h
      split_ifs at h with hC
      rcases hr : exec (dpTurn env l) s with ⟨e | l₁, s₁⟩
      · rw [hr] at h
        cases h
      · rw [hr] at h
        exact ih (DpRun.turn hrun hC.1 hC.2 hr) h

/-- A run to a state with a property that is decided there. -/
theorem exists_dpRun {C : DpLoop → DpState → Prop} [∀ l s, Decidable (C l s)]
    {P : DpLoop → DpState → Prop} (env : DpEnv) (s₀ : DpState) (k : ℕ)
    (h : ∃ c ∈ dpAfter C env k .ins s₀, P c.1 c.2) : ∃ l s, DpRun C env s₀ l s ∧ P l s := by
  obtain ⟨⟨l, s⟩, hafter, hP⟩ := h
  exact ⟨l, s, dpRun_of_dpAfter DpRun.start hafter, hP⟩

/-! ### Errors on the way out -/

/-- The history with which a loop returns an error. -/
def recorded (h : Halt) (s : DpState) : DpState :=
  match h with
  | .error e => { s with trace := s.trace ++ [.failed e] }
  | _ => s

theorem exec_logged_ok {m : Dp Unit} {s t : DpState} {u : Unit} (h : exec m s = (.ok u, t)) :
    exec (logged m) s = (.ok u, t) := by
  rw [logged, exec_onError, h]

theorem exec_logged_error {m : Dp Unit} {s t : DpState} {e : Halt} (h : exec m s = (.error e, t)) :
    exec (logged m) s = (.error e, recorded e t) := by
  rw [logged, exec_onError, h]
  cases e <;> rfl

/-- The two states differ at most by errors at the end of the history. -/
def Recorded (s t : DpState) : Prop :=
  ∃ evs, t = { s with trace := s.trace ++ evs } ∧ ∀ ev ∈ evs, ∃ e, ev = DpEvent.failed e

theorem Recorded.refl (s : DpState) : Recorded s s := by
  refine ⟨[], ?_, fun ev hev => ?_⟩
  · rw [List.append_nil]
  · cases hev

theorem Recorded.recorded {s t : DpState} (h : Recorded s t) (e : Halt) :
    Recorded s (PofSwitch.recorded e t) := by
  obtain ⟨evs, rfl, hevs⟩ := h
  cases e with
  | error e =>
      refine ⟨evs ++ [.failed e], ?_, fun ev hev => ?_⟩
      · rw [← List.append_assoc]
        rfl
      · rcases List.mem_append.1 hev with hev | hev
        · exact hevs ev hev
        · exact ⟨e, List.mem_singleton.1 hev⟩
  | hang => exact ⟨evs, rfl, hevs⟩
  | undefined => exact ⟨evs, rfl, hevs⟩
  | fuel => exact ⟨evs, rfl, hevs⟩

theorem Recorded.trans {s t u : DpState} (h : Recorded s t) (h' : Recorded t u) : Recorded s u := by
  obtain ⟨evs, rfl, hevs⟩ := h
  obtain ⟨evs', rfl, hevs'⟩ := h'
  refine ⟨evs ++ evs', ?_, fun ev hev => ?_⟩
  · rw [← List.append_assoc]
  · rcases List.mem_append.1 hev with hev | hev
    · exact hevs ev hev
    · exact hevs' ev hev

theorem Recorded.lr_eq {s t : DpState} (h : Recorded s t) : t.lr = s.lr := by
  obtain ⟨evs, rfl, _⟩ := h
  rfl

/-! ### The loop over actions -/

/-- The action is a `GROUP` action. -/
def PofAction.isGroup (action : PofAction) : Bool :=
  ActionType.ofCode action.type.toNat = some .group

/-- The call that `execute_GROUP` makes comes last, and no other action makes one. -/
theorem exec_executeAction (env : DpEnv) (again : Dp Unit) (action : PofAction) :
    executeAction env again action =
      if action.isGroup then do
        executeAction env (pure ()) action
        again
      else executeAction env (pure ()) action := by
  unfold PofAction.isGroup
  cases htype : ActionType.ofCode action.type.toNat with
  | none => rw [if_neg (by simp), executeAction, executeAction, htype]
  | some type =>
      cases type with
      | group =>
          rw [if_pos (by simp), executeAction, executeAction, htype]
          simp only [executeGroup, bind_assoc, pure_bind]
      | _ =>
          rw [if_neg (by simp), executeAction, executeAction, htype]

/-- What a loop returns when the loop after a turn of it returns `x`; the errors of the loop that a
`GROUP` action makes are recorded once more. -/
def passedOn (group : Bool) : Except Halt Unit × DpState → Except Halt Unit × DpState
  | (.error h, t) => (.error h, if group then recorded h t else t)
  | (.ok u, t) => (.ok u, t)

theorem passedOn_false (x : Except Halt Unit × DpState) : passedOn false x = x := by
  rcases x with ⟨h | u, t⟩ <;> rfl

theorem fst_passedOn (group : Bool) (x : Except Halt Unit × DpState) :
    (passedOn group x).1 = x.1 := by
  rcases x with ⟨h | u, t⟩ <;> rfl

theorem passedOn_eq {group : Bool} {r r' : Except Halt Unit} {t t' : DpState}
    (h : passedOn group (r, t) = (r', t')) : r = r' ∧ Recorded t t' ∧ (r' = .ok () → t = t') := by
  rcases r with e | u
  · cases h
    refine ⟨rfl, ?_, fun hok => by cases hok⟩
    split
    · exact (Recorded.refl t).recorded e
    · exact Recorded.refl t
  · cases h
    exact ⟨rfl, Recorded.refl t, fun _ => rfl⟩

/-- An action other than `GROUP` is its work followed by `action_update`. -/
theorem executeAction_some {env : DpEnv} (again : Dp Unit) {action : PofAction} {type : ActionType}
    (htype : ActionType.ofCode action.type.toNat = some type) (hgroup : type ≠ .group) :
    executeAction env again action =
      (actionWork env action.actionData type >>= fun _ => actionUpdate) := by
  rw [executeAction, htype]
  cases type with
  | group => exact absurd rfl hgroup
  | _ => rfl

/-- The cursor into the actions is moved. -/
def setActions (l : List PofAction) (n : UInt8) (s : DpState) : DpState :=
  { s with dpp := { s.dpp with act := l, actNum := n } }

theorem exec_counterIncreace {c : UInt32} {n : UInt16} {s : DpState} {ret : Ret} {lr : LocalResource}
    (h : poflrCounterIncreace c n s.lr = some (ret, lr)) :
    exec (counterIncreace c n) s = (.ok ret, { s with lr := lr }) := by
  rw [counterIncreace, exec_bind_ok exec_get, h]
  rfl

theorem exec_counterIncreace_none {c : UInt32} {n : UInt16} {s : DpState}
    (h : poflrCounterIncreace c n s.lr = none) :
    exec (counterIncreace c n) s = (.error .undefined, s) := by
  rw [counterIncreace, exec_bind_ok exec_get, h]
  rfl

/-- What comes after an increment. -/
theorem exec_counterIncreace_cases {α : Type} {c : UInt32} {n : UInt16} {f : Ret → Dp α} {s t : DpState}
    {r : Except Halt α} (h : exec (counterIncreace c n >>= f) s = (r, t)) :
    (poflrCounterIncreace c n s.lr = none ∧ r = .error .undefined ∧ t = s) ∨
      ∃ ret lr, poflrCounterIncreace c n s.lr = some (ret, lr) ∧
        exec (f ret) { s with lr := lr } = (r, t) := by
  cases hx : poflrCounterIncreace c n s.lr with
  | none =>
      rw [exec_bind_error (exec_counterIncreace_none hx)] at h
      cases h
      exact Or.inl ⟨rfl, rfl, rfl⟩
  | some x =>
      rw [exec_bind_ok (exec_counterIncreace hx)] at h
      exact Or.inr ⟨x.1, x.2, rfl, h⟩

/-- A `GROUP` action succeeds when the group is found and its counter can be increased; it moves the
cursor to the actions of the group. -/
theorem exec_executeGroup_ok {data : Buf} {s s' : DpState} :
    exec (executeGroup (pure ()) data) s = (.ok (), s') ↔
      ∃ group lr, poflrGetGroupWithID (word data 0) s.lr = some group ∧
        poflrCounterIncreace group.counterId s.dpp.relLen s.lr = some (.ok (), lr) ∧
        s' = setActions group.action group.actionNumber { s with lr := lr } := by
  rw [executeGroup, exec_bind_ok exec_get]
  cases hgroup : poflrGetGroupWithID (word data 0) s.lr with
  | none =>
      constructor
      · intro h
        cases h
      · rintro ⟨_, _, h, _⟩
        cases h
  | some group =>
      rw [exec_bind_ok (show exec (liftOption (some group) _) s = (.ok group, s) from rfl)]
      cases hinc : poflrCounterIncreace group.counterId s.dpp.relLen s.lr with
      | none =>
          rw [exec_bind_error (exec_counterIncreace_none hinc)]
          constructor
          · intro h
            cases h
          · rintro ⟨_, _, h, h', _⟩
            cases h
            rw [hinc] at h'
            cases h'
      | some x =>
          obtain ⟨ret, lr⟩ := x
          rw [exec_bind_ok (exec_counterIncreace hinc)]
          constructor
          · intro h
            rcases ret with e | u
            · cases h
            · cases h
              exact ⟨group, lr, rfl, hinc, rfl⟩
          · rintro ⟨_, _, h, h', rfl⟩
            cases h
            rw [hinc] at h'
            cases h'
            rfl

/-- How a sequence of actions ends. -/
inductive ActEnds (env : DpEnv) : DpState → Except Halt Unit → DpState → Prop
  | done {s : DpState} : ¬ s.HasAction → ActEnds env s (.ok ()) s
  | fail {s t : DpState} {h : Halt} : s.HasAction → exec (actTurn env) s = (.error h, t) →
      ActEnds env s (.error h) t
  | turn {s s' t : DpState} {r : Except Halt Unit} : s.HasAction →
      exec (actTurn env) s = (.ok (), s') → ActEnds env s' r t → ActEnds env s r t

section Loop

variable {env : DpEnv} {fuel : ℕ} {s t : DpState} {r : Except Halt Unit}

theorem exec_actionExecute_done (h : ¬ s.HasAction) :
    exec (pofdpActionExecute env (fuel + 1)) s = (.ok (), s) := by
  unfold DpState.HasAction at h
  rw [pofdpActionExecute, exec_bind_ok exec_get, if_neg h]
  rfl

theorem exec_actionExecute_turn (h : s.HasAction) : exec (pofdpActionExecute env (fuel + 1)) s =
    exec (actionStep env (pofdpActionExecute env fuel) >>= fun _ => pofdpActionExecute env fuel) s := by
  unfold DpState.HasAction at h
  rw [pofdpActionExecute, exec_bind_ok exec_get, if_pos h]

/-- The loop ends without an error only when its condition fails. -/
theorem not_hasAction_of_execute : ∀ {fuel : ℕ} {s t : DpState},
    exec (pofdpActionExecute env fuel) s = (.ok (), t) → 0 < fuel ∧ ¬ t.HasAction := by
  intro fuel
  induction fuel with
  | zero =>
      intro s t h
      cases h
  | succ fuel ih =>
      intro s t h
      refine ⟨Nat.succ_pos fuel, ?_⟩
      by_cases hs : s.HasAction
      · rw [exec_actionExecute_turn hs, exec_bind] at h
        rcases hstep : exec (actionStep env (pofdpActionExecute env fuel)) s with ⟨e | u, s'⟩
        · rw [hstep] at h
          cases h
        · rw [hstep] at h
          exact (ih h).2
      · rw [exec_actionExecute_done hs] at h
        cases h
        exact hs

/-- A loop whose condition fails does nothing. -/
theorem exec_actionExecute_idle (hfuel : 0 < fuel) (h : ¬ s.HasAction) :
    exec (pofdpActionExecute env fuel) s = (.ok (), s) := by
  obtain ⟨k, rfl⟩ := Nat.exists_eq_succ_of_ne_zero hfuel.ne'
  exact exec_actionExecute_done h

/-- A turn with the call of `execute_GROUP` that follows it. -/
theorem exec_actionStep (env : DpEnv) (again : Dp Unit) {action : PofAction} (ha : s.dpp.act.head? = some action) :
    exec (actionStep env again) s = exec (logged (executeAction env again action)) s := by
  rw [actionStep, exec_bind_ok exec_get, ha]
  rfl

theorem exec_actTurn {action : PofAction} (ha : s.dpp.act.head? = some action) :
    exec (actTurn env) s = exec (executeAction env (pure ()) action) s := by
  rw [actTurn, exec_bind_ok exec_get, ha]
  rfl

theorem exec_actTurn_none (ha : s.dpp.act.head? = none) :
    exec (actTurn env) s = (.error .undefined, s) := by
  rw [actTurn, exec_bind_ok exec_get, ha]
  rfl

theorem exec_actionStep_none (again : Dp Unit) (ha : s.dpp.act.head? = none) :
    exec (actionStep env again) s = (.error .undefined, s) := by
  rw [actionStep, exec_bind_ok exec_get, ha]
  rfl

/-- A turn that fails ends the loop it is made in. -/
theorem exec_actionExecute_fail {h : Halt} (hs : s.HasAction)
    (hturn : exec (actTurn env) s = (.error h, t)) :
    ∃ t', (∀ fuel, exec (pofdpActionExecute env (fuel + 1)) s = (.error h, t')) ∧ Recorded t t' := by
  cases ha : s.dpp.act.head? with
  | none =>
      rw [exec_actTurn_none ha] at hturn
      cases hturn
      refine ⟨s, fun fuel => ?_, Recorded.refl s⟩
      rw [exec_actionExecute_turn hs]
      exact exec_bind_error (exec_actionStep_none _ ha)
  | some action =>
      rw [exec_actTurn ha] at hturn
      refine ⟨recorded h t, fun fuel => ?_, (Recorded.refl t).recorded h⟩
      rw [exec_actionExecute_turn hs]
      refine exec_bind_error ?_
      rw [exec_actionStep _ _ ha]
      refine exec_logged_error ?_
      rw [exec_executeAction]
      split
      · exact exec_bind_error hturn
      · exact hturn

/-- A turn that succeeds, and the loop after it; the loop that a `GROUP` action makes does the rest,
and the loop it is made from ends. -/
theorem exec_actionExecute_ok {s' : DpState} {action : PofAction} (fuel : ℕ) (hs : s.HasAction)
    (ha : s.dpp.act.head? = some action) (hturn : exec (actTurn env) s = (.ok (), s')) :
    exec (pofdpActionExecute env (fuel + 1)) s =
      passedOn action.isGroup (exec (pofdpActionExecute env fuel) s') := by
  rw [exec_actionExecute_turn hs]
  rw [exec_actTurn ha] at hturn
  have hstep := exec_actionStep env (pofdpActionExecute env fuel) ha
  cases hgroup : action.isGroup with
  | false =>
      have hexec : exec (executeAction env (pofdpActionExecute env fuel) action) s = (.ok (), s') := by
        rw [exec_executeAction, hgroup, if_neg Bool.false_ne_true, hturn]
      rw [exec_logged_ok hexec] at hstep
      rw [exec_bind_ok hstep, passedOn_false]
  | true =>
      rcases hrest : exec (pofdpActionExecute env fuel) s' with ⟨h | u, t⟩
      · have hexec : exec (executeAction env (pofdpActionExecute env fuel) action) s =
            (.error h, t) := by
          rw [exec_executeAction, hgroup, if_pos rfl, exec_bind_ok hturn, hrest]
        rw [exec_logged_error hexec] at hstep
        exact exec_bind_error hstep
      · have hexec : exec (executeAction env (pofdpActionExecute env fuel) action) s = (.ok u, t) := by
          rw [exec_executeAction, hgroup, if_pos rfl, exec_bind_ok hturn, hrest]
        rw [exec_logged_ok hexec] at hstep
        rw [exec_bind_ok hstep]
        obtain ⟨hfuel, hnot⟩ := not_hasAction_of_execute hrest
        exact exec_actionExecute_idle hfuel hnot

/-- A turn that succeeds has found an action. -/
theorem head_of_actTurn {s' : DpState} (hturn : exec (actTurn env) s = (.ok (), s')) :
    ∃ action, s.dpp.act.head? = some action := by
  cases ha : s.dpp.act.head? with
  | none =>
      rw [exec_actTurn_none ha] at hturn
      cases hturn
  | some action => exact ⟨action, rfl⟩

/-- **What `pofdp_action_execute` returns is the end of a sequence of actions.** -/
theorem actEnds_of_execute : ∀ {fuel : ℕ} {s t : DpState} {r : Except Halt Unit},
    exec (pofdpActionExecute env fuel) s = (r, t) → r ≠ .error .fuel →
    ∃ t', ActEnds env s r t' ∧ Recorded t' t ∧ (r = .ok () → t' = t) := by
  intro fuel
  induction fuel with
  | zero =>
      intro s t r h hr
      cases h
      exact absurd rfl hr
  | succ fuel ih =>
      intro s t r h hr
      by_cases hs : s.HasAction
      · rcases hturn : exec (actTurn env) s with ⟨e | u, s'⟩
        · obtain ⟨t', ht', hrec⟩ := exec_actionExecute_fail hs hturn
          rw [ht'] at h
          cases h
          exact ⟨s', ActEnds.fail hs hturn, hrec, fun hok => by cases hok⟩
        · obtain ⟨action, ha⟩ := head_of_actTurn hturn
          rcases hrest : exec (pofdpActionExecute env fuel) s' with ⟨r', u'⟩
          rw [exec_actionExecute_ok fuel hs ha hturn, hrest] at h
          obtain ⟨rfl, hrec, hok⟩ := passedOn_eq h
          obtain ⟨v, hends, hrec', hok'⟩ := ih hrest hr
          exact ⟨v, ActEnds.turn hs hturn hends, hrec'.trans hrec, fun h => (hok' h).trans (hok h)⟩
      · rw [exec_actionExecute_done hs] at h
        cases h
        exact ⟨s, ActEnds.done hs, Recorded.refl s, fun _ => rfl⟩

/-- **More fuel does not change what is returned.** -/
theorem pofdpActionExecute_mono : ∀ {fuel : ℕ} {s t : DpState} {r : Except Halt Unit} (k : ℕ),
    exec (pofdpActionExecute env fuel) s = (r, t) → r ≠ .error .fuel →
    exec (pofdpActionExecute env (fuel + k)) s = (r, t) := by
  intro fuel
  induction fuel with
  | zero =>
      intro s t r k h hr
      cases h
      exact absurd rfl hr
  | succ fuel ih =>
      intro s t r k h hr
      rw [Nat.succ_add]
      by_cases hs : s.HasAction
      · rcases hturn : exec (actTurn env) s with ⟨e | u, s'⟩
        · obtain ⟨t', ht', _⟩ := exec_actionExecute_fail hs hturn
          rw [ht'] at h ⊢
          exact h
        · obtain ⟨action, ha⟩ := head_of_actTurn hturn
          rcases hrest : exec (pofdpActionExecute env fuel) s' with ⟨r', u'⟩
          rw [exec_actionExecute_ok fuel hs ha hturn, hrest] at h
          obtain ⟨rfl, _⟩ := passedOn_eq h
          rw [exec_actionExecute_ok (fuel + k) hs ha hturn, ih k hrest hr, h]
      · rw [exec_actionExecute_done hs] at h ⊢
        exact h

end Loop

/-! ### The loop over instructions -/

section Instructions

variable {env : DpEnv} {s t u : DpState} {r : Except Halt Unit}

theorem exec_dpTurn_act (env : DpEnv) (h : s.HasAction) :
    exec (dpTurn env .act) s = exec (actTurn env >>= fun _ => pure DpLoop.act) s := by
  rw [dpTurn, exec_bind_ok exec_get, if_pos h]

theorem exec_dpTurn_act_done (h : ¬ s.HasAction) :
    exec (dpTurn env .act) s = (.ok .ins, { s with dpp := nextInstruction s.dpp }) := by
  rw [dpTurn, exec_bind_ok exec_get, if_neg h]
  rfl

theorem exec_dpTurn_ins_none (h : s.dpp.ins.read = none) :
    exec (dpTurn env .ins) s = (.error .undefined, s) := by
  rw [dpTurn, exec_bind_ok exec_get, h]
  rfl

theorem exec_dpTurn_ins (env : DpEnv) {ins : PofInstruction} (h : s.dpp.ins.read = some ins)
    (htype : InstructionType.ofCode ins.type.toNat ≠ some .applyActions) :
    exec (dpTurn env .ins) s =
      exec (executeInstruction env (pure ()) ins >>= fun _ => pure DpLoop.ins) s := by
  rw [dpTurn, exec_bind_ok exec_get, h]
  change exec (if _ then _ else _) s = _
  rw [if_neg htype]

/-- The state in which `execute_APPLY_ACTIONS` calls the action interpreter. -/
def applied (data : Buf) (s : DpState) : DpState :=
  { s with dpp := { s.dpp with act := applyActionsList data, actNum := data.rd 0 } }

theorem exec_dpTurn_apply (env : DpEnv) {ins : PofInstruction} (h : s.dpp.ins.read = some ins)
    (htype : InstructionType.ofCode ins.type.toNat = some .applyActions) :
    exec (dpTurn env .ins) s = (.ok .act, applied ins.instructionData s) := by
  rw [dpTurn, exec_bind_ok exec_get, h]
  change exec (if _ then _ else _) s = _
  rw [if_pos htype]
  rfl

/-- The actions of an instruction fail. -/
theorem DpEnds.of_actEnds_error {h : Halt} (hends : ActEnds env s r t) (hr : r = .error h) :
    DpEnds env .act s (.error h) t := by
  induction hends with
  | done _ => cases hr
  | fail hs hturn =>
      cases hr
      refine DpEnds.fail trivial ?_
      rw [exec_dpTurn_act env hs]
      exact exec_bind_error hturn
  | turn hs hturn _ ih =>
      have hgo := exec_dpTurn_act env hs
      rw [exec_bind_ok hturn] at hgo
      exact DpEnds.turn trivial hgo (ih hr)

/-- The actions of an instruction have been done and the interpreter returns to the instructions. -/
theorem DpEnds.of_actEnds_ok {r' : Except Halt Unit} (hends : ActEnds env s r' t) (hr : r' = .ok ())
    (hrest : DpEnds env .ins { t with dpp := nextInstruction t.dpp } r u) : DpEnds env .act s r u := by
  induction hends with
  | done hs => exact DpEnds.turn trivial (exec_dpTurn_act_done hs) hrest
  | fail _ _ => cases hr
  | turn hs hturn _ ih =>
      have hgo := exec_dpTurn_act env hs
      rw [exec_bind_ok hturn] at hgo
      exact DpEnds.turn trivial hgo (ih hr hrest)

/-- Only `APPLY_ACTIONS` calls the action interpreter. -/
theorem executeInstruction_congr (actions : Dp Unit) {ins : PofInstruction}
    (htype : InstructionType.ofCode ins.type.toNat ≠ some .applyActions) :
    executeInstruction env actions ins = executeInstruction env (pure ()) ins := by
  cases hcode : InstructionType.ofCode ins.type.toNat with
  | none => rw [executeInstruction, executeInstruction, hcode]
  | some type =>
      cases type with
      | applyActions => exact absurd hcode htype
      | _ => rw [executeInstruction, executeInstruction, hcode]

theorem exec_insStep {fuel : ℕ} {ins : PofInstruction} (h : s.dpp.ins.read = some ins) :
    exec (insStep env fuel) s =
      exec (logged (executeInstruction env (pofdpActionExecute env fuel) ins)) s := by
  rw [insStep, exec_bind_ok exec_get, h]
  rfl

/-- An instruction and what comes after it. -/
theorem dpEnds_of_insStep {fuel : ℕ} {r₁ : Except Halt Unit} {s' : DpState}
    (hdone : s.dpp.packetDone = false) (hstep : exec (insStep env fuel) s = (r₁, s'))
    (hr₁ : r₁ ≠ .error .fuel) :
    (∃ h t', r₁ = .error h ∧ DpEnds env .ins s (.error h) t' ∧ Recorded t' s') ∨
      (r₁ = .ok () ∧ ∀ r u, DpEnds env .ins s' r u → DpEnds env .ins s r u) := by
  cases hread : s.dpp.ins.read with
  | none =>
      rw [insStep, exec_bind_ok exec_get, hread] at hstep
      cases hstep
      exact Or.inl ⟨_, s, rfl, DpEnds.fail hdone (exec_dpTurn_ins_none hread), Recorded.refl s⟩
  | some ins =>
      rw [exec_insStep hread] at hstep
      by_cases htype : InstructionType.ofCode ins.type.toNat = some .applyActions
      · have hturn := exec_dpTurn_apply env hread htype
        have hexec : exec (executeInstruction env (pofdpActionExecute env fuel) ins) s =
            exec (pofdpActionExecute env fuel >>= fun _ => instructionUpdate)
              (applied ins.instructionData s) := by
          rw [executeInstruction, htype]
          rfl
        rcases hacts : exec (pofdpActionExecute env fuel) (applied ins.instructionData s) with ⟨e | v, w⟩
        · rw [exec_bind_error hacts] at hexec
          rw [exec_logged_error hexec] at hstep
          cases hstep
          obtain ⟨t', hends, hrec, _⟩ := actEnds_of_execute hacts hr₁
          exact Or.inl ⟨e, t', rfl, DpEnds.turn hdone hturn (DpEnds.of_actEnds_error hends rfl),
            hrec.recorded e⟩
        · rw [exec_bind_ok hacts] at hexec
          rw [exec_logged_ok hexec] at hstep
          cases hstep
          obtain ⟨t', hends, _, hok⟩ := actEnds_of_execute hacts (by simp)
          cases hok rfl
          exact Or.inr ⟨rfl, fun r u hrest =>
            DpEnds.turn hdone hturn (DpEnds.of_actEnds_ok hends rfl hrest)⟩
      · have hturn := exec_dpTurn_ins env hread htype
        rw [executeInstruction_congr _ htype] at hstep
        rcases hexec : exec (executeInstruction env (pure ()) ins) s with ⟨e | v, w⟩
        · rw [exec_logged_error hexec] at hstep
          cases hstep
          rw [exec_bind_error hexec] at hturn
          exact Or.inl ⟨e, w, rfl, DpEnds.fail hdone hturn, (Recorded.refl w).recorded e⟩
        · rw [exec_logged_ok hexec] at hstep
          cases hstep
          rw [exec_bind_ok hexec] at hturn
          exact Or.inr ⟨rfl, fun r u hrest => DpEnds.turn hdone hturn hrest⟩

/-- **What `pofdp_instruction_execute` returns is the end of a sequence of turns.** -/
theorem dpEnds_of_execute : ∀ {fuel : ℕ} {s t : DpState} {r : Except Halt Unit},
    exec (pofdpInstructionExecute env fuel) s = (r, t) → r ≠ .error .fuel →
    ∃ t', DpEnds env .ins s r t' ∧ Recorded t' t := by
  intro fuel
  induction fuel with
  | zero =>
      intro s t r h hr
      cases h
      exact absurd rfl hr
  | succ fuel ih =>
      intro s t r h hr
      rw [pofdpInstructionExecute, exec_bind_ok exec_get] at h
      split_ifs at h with hdone
      · rcases hstep : exec (insStep env fuel) s with ⟨e | v, w⟩
        · rw [exec_bind_error hstep] at h
          cases h
          rcases dpEnds_of_insStep hdone hstep hr with ⟨h, t', heq, hends, hrec⟩ | ⟨heq, _⟩
          · cases heq
            exact ⟨t', hends, hrec⟩
          · cases heq
        · rw [exec_bind_ok hstep] at h
          obtain ⟨t', hends, hrec⟩ := ih h hr
          rcases dpEnds_of_insStep hdone hstep (by simp) with ⟨_, _, heq, _⟩ | ⟨_, hrest⟩
          · cases heq
          · exact ⟨t', hrest r t' hends, hrec⟩
      · cases h
        exact ⟨s, DpEnds.done (by simpa using hdone), Recorded.refl s⟩

end Instructions

end PofSwitch
