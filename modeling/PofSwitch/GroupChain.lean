/-
**Chains of groups.**

A `GROUP` action leads to the actions of a group, and the first `GROUP` action among those leads on.
Nothing is executed after a `GROUP` action, so a group has at most one successor and executing actions
follows a chain.  The protocol has an error code for a group entry that would cause a loop, but
neither `poflr_add_group_entry` nor `poflr_modify_group_entry` looks for one: a group may lead back to
itself, and `pofdp_action_execute` then never returns.

If no request stores a group whose chain leads back to it, no chain of any reachable group table
revisits a group.  The chain that an execution follows is then finite, and what is left is one loop
that may not end: that of `pofbf_cover_bit` on a field shorter than a byte that crosses into the next
one.

Main definitions:

* `PofSwitch.GroupInfo.next`, `PofSwitch.Follows` — the successor of a group;
* `PofSwitch.NoLoop` — requests that close no chain;
* `PofSwitch.CoversShort` — actions on which `pofbf_cover_bit` does not return.

Main results:

* `PofSwitch.acyclic_add_edges` — edges from one vertex to vertices that do not reach it close no cycle;
* `PofSwitch.acyclic_of_path` — no chain revisits a group;
* `PofSwitch.actions_end_of_path` — **every execution returns.**
-/

import Mathlib.Data.FinEnum
import Mathlib.Order.Preorder.Finite
import PofSwitch.ActionList
import PofSwitch.PacketWindow
import PofSwitch.WellFormed

set_option relaxedAutoImplicit false
set_option autoImplicit false

/-! ### Relations without cycles -/

namespace Relation

variable {α : Type*} {r r' : α → α → Prop} {g : α}

/-- Edges from `g` do not help to reach `g`. -/
theorem reflTransGen_of_add_edges (hnew : ∀ a b, r' a b → r a b ∨ a = g) {a : α}
    (h : ReflTransGen r' a g) : ReflTransGen r a g := by
  induction h using ReflTransGen.head_induction_on with
  | refl => exact ReflTransGen.refl
  | head hab _ ih =>
      rcases hnew _ _ hab with hold | rfl
      · exact ReflTransGen.head hold ih
      · exact ReflTransGen.refl

/-- **Edges from one vertex to vertices that do not reach it close no cycle.** -/
theorem acyclic_add_edges (hr : ∀ a, ¬ TransGen r a a)
    (hnew : ∀ a b, r' a b → r a b ∨ a = g ∧ ¬ ReflTransGen r b g) (a : α) : ¬ TransGen r' a a := by
  have hback : ∀ {c : α}, ReflTransGen r' c g → ReflTransGen r c g := fun hc =>
    reflTransGen_of_add_edges (fun a b hab => (hnew a b hab).imp id And.left) hc
  -- a walk without a new edge is a walk of `r`, and otherwise it passes from `g` to some `c`
  have hsplit : ∀ {b : α}, TransGen r' a b → TransGen r a b ∨
      ∃ c, ¬ ReflTransGen r c g ∧ ReflTransGen r' a g ∧ ReflTransGen r' c b := by
    intro b hab
    induction hab with
    | single hab =>
        rcases hnew _ _ hab with hold | ⟨rfl, hc⟩
        · exact Or.inl (TransGen.single hold)
        · exact Or.inr ⟨_, hc, ReflTransGen.refl, ReflTransGen.refl⟩
    | tail hab hbc ih =>
        rcases hnew _ _ hbc with hold | ⟨rfl, hc⟩
        · rcases ih with hwalk | ⟨c, hc, hag, hcb⟩
          · exact Or.inl (hwalk.tail hold)
          · exact Or.inr ⟨c, hc, hag, hcb.tail hbc⟩
        · exact Or.inr ⟨_, hc, hab.to_reflTransGen, ReflTransGen.refl⟩
  intro hcycle
  rcases hsplit hcycle with hold | ⟨c, hc, hag, hca⟩
  · exact hr a hold
  · exact hc (hback (hca.trans hag))

/-- On a finite type, a walk in a relation without cycles ends. -/
theorem wellFounded_of_acyclic [Finite α] (hr : ∀ a, ¬ TransGen r a a) :
    WellFounded fun b a => r a b := by
  have : IsTrans α fun b a => TransGen r a b := ⟨fun _ _ _ hab hbc => hbc.trans hab⟩
  have : Std.Irrefl fun b a => TransGen r a b := ⟨hr⟩
  have hwf : WellFounded fun b a => TransGen r a b := Finite.wellFounded_of_trans_of_irrefl _
  exact hwf.mono fun b a hab => TransGen.single hab

end Relation

namespace PofSwitch

open Buf Prog Relation

/-! ### The successor of a group -/

/-- The group that a list of actions leads to. -/
def firstGroup (l : List PofAction) : Option UInt32 :=
  (l.find? PofAction.isGroup).map fun action => word action.actionData 0

/-- The group that the actions of a group lead to. -/
def GroupInfo.next (group : GroupInfo) : Option UInt32 :=
  firstGroup (group.action.take group.actionNumber.toNat)

/-- Group `h` follows group `g`. -/
def Follows (groups : Hmap GroupInfo) (g h : UInt32) : Prop :=
  ∃ group ∈ groups.nodes, group.hash = hmapHashForLinear g ∧ group.next = some h

/-- A request stores no group from whose successor its own identifier can be reached, whatever
stands behind the array of its actions. -/
def NoLoop (lr : LocalResource) (op : LrOp) : Prop :=
  ∀ group, StoresGroup lr op group → ∀ old h, (groupFill group old).next = some h →
    ¬ ReflTransGen (Follows lr.groupMap) h group.groupId

/-- A request that stores no such group closes no chain. -/
theorem NoLoop.acyclic {op : LrOp} {lr lr' : LocalResource} {ret : Ret} (hQ : NoLoop lr op)
    (hexec : op.exec lr = some (ret, lr')) (hacyc : ∀ g, ¬ TransGen (Follows lr.groupMap) g g) (g : UInt32) :
    ¬ TransGen (Follows lr'.groupMap) g g := by
  -- a request stores at most one group
  by_cases hstores : ∃ group, StoresGroup lr op group
  · obtain ⟨group, hgroup⟩ := hstores
    refine acyclic_add_edges (g := group.groupId) hacyc ?_ g
    rintro a b ⟨i, hi, hia, hib⟩
    rcases LrOp.groups_cases hexec i hi with hold | ⟨group', old, hgroup', rfl⟩
    · exact Or.inl ⟨i, hold, hia, hib⟩
    · obtain rfl := hgroup.unique hgroup'
      exact Or.inr ⟨hia.symm, hQ group hgroup old b hib⟩
  · intro hcycle
    refine hacyc g (hcycle.lift id ?_)
    rintro a b ⟨i, hi, hia, hib⟩
    rcases LrOp.groups_cases hexec i hi with hold | ⟨group', old, hgroup', rfl⟩
    · exact ⟨i, hold, hia, hib⟩
    · exact absurd ⟨group', hgroup'⟩ hstores

/-- At first there are no chains. -/
theorem acyclic_init (cfg : LrConfig) (g : UInt32) :
    ¬ TransGen (Follows (pofLocalresourceInit cfg).groupMap) g g := by
  intro hcycle
  obtain ⟨k, ⟨group, hgroup, _⟩, _⟩ := TransGen.head'_iff.1 hcycle
  rw [groups_pofLocalresourceInit] at hgroup
  simp at hgroup

/-- **No chain revisits a group.** -/
theorem acyclic_of_path {lr : LocalResource} (h : LrPath NoLoop lr) (g : UInt32) :
    ¬ TransGen (Follows lr.groupMap) g g := by
  induction h generalizing g with
  | init cfg => exact acyclic_init cfg g
  | step _ hQ _ hexec ih => exact hQ.acyclic hexec ih g

/-! ### Outcomes that actions do not have -/

/-- `pofbf_cover_bit` does not return for this field. -/
def Straddles (pos len : UInt16) : Prop := len.toNat < 8 ∧ 8 < pos.toNat % 8 + len.toNat

/-- The action covers a field shorter than a byte that crosses into the next one. -/
def CoversShort (s : DpState) (action : PofAction) : Prop :=
  let data := action.actionData
  match ActionType.ofCode action.type.toNat with
  | some .setField | some .setFieldFromMetadata | some .modifyField =>
      Straddles (matchAt data 0).offset (matchAt data 0).len
  | some .addField =>
      let tagPosB := (half data 2).toUInt32
      Straddles tagPosB.toUInt16 (word data 4).toUInt16 ∨
        Straddles (tagPosB + word data 4).toUInt16
          (toUInt32 (s.dpp.leftLen * 8 - tagPosB.toNat)).toUInt16
  | some .deleteField => ∃ tagLenB, exec (pofdpGet32value (data.rd 2) data 8) s = (.ok tagLenB, s) ∧
      Straddles (half data 0)
        (toUInt32 (s.dpp.leftLen * 8) - ((half data 0).toUInt32 + tagLenB)).toUInt16
  | some .calculateChecksum => Straddles (half data 2) (half data 4)
  | _ => False

/-- From the state `s` the computation does not fail in the way `h`. -/
def Avoids {α : Type} (h : Halt) (m : Dp α) (s : DpState) : Prop := ∀ t, exec m s ≠ (.error h, t)

namespace Avoids

variable {α β : Type} {h : Halt} {m : Dp α} {f : α → Dp β} {s : DpState}

theorem pure (a : α) : Avoids h (Pure.pure a : Dp α) s := by
  intro t ht
  cases ht

theorem throw {e : Halt} (he : e ≠ h) : Avoids h (MonadExcept.throw e : Dp α) s := by
  intro t ht
  cases ht
  exact he rfl

theorem modify (g : DpState → DpState) : Avoids h (modify g : Dp PUnit) s := by
  intro t ht
  cases ht

theorem bind_ok (hm : Avoids h m s) (hf : ∀ a s', exec m s = (.ok a, s') → Avoids h (f a) s') :
    Avoids h (m >>= f) s := by
  intro t ht
  rw [exec_bind] at ht
  rcases hr : exec m s with ⟨e | a, s'⟩
  · rw [hr] at ht
    cases ht
    exact hm t hr
  · rw [hr] at ht
    exact hf a s' hr t ht

theorem bind (hm : Avoids h m s) (hf : ∀ a s', Avoids h (f a) s') : Avoids h (m >>= f) s :=
  bind_ok hm fun a s' _ => hf a s'

theorem get_bind {g : DpState → Dp β} (hg : Avoids h (g s) s) : Avoids h (get >>= g) s := hg

theorem liftOption {o : Option α} {e : Halt} (he : o = none → e ≠ h) :
    Avoids h (liftOption o e : Dp α) s := by
  cases o with
  | none => exact throw (he rfl)
  | some a => exact pure a

/-! The ways in which only the loops fail: no return code and nothing undefined. -/

variable (hloop : h = .fuel ∨ h = .hang)
include hloop

theorem failIf (c : Prop) [Decidable c] (type : ErrType) (code : ErrCode) :
    Avoids h (failIf c type code) s := by
  unfold PofSwitch.failIf check
  split
  · exact throw (by rcases hloop with rfl | rfl <;> simp)
  · exact pure ()

theorem checkUndefined (c : Prop) [Decidable c] : Avoids h (check c .undefined : Dp Unit) s := by
  unfold check
  split
  · exact throw (by rcases hloop with rfl | rfl <;> simp)
  · exact pure ()

theorem liftError {o : Option α} {e : PofError} : Avoids h (Prog.liftOption o (.error e) : Dp α) s :=
  liftOption fun _ => by rcases hloop with rfl | rfl <;> simp

theorem liftUndefined {o : Option α} : Avoids h (Prog.liftOption o .undefined : Dp α) s :=
  liftOption fun _ => by rcases hloop with rfl | rfl <;> simp

theorem counterIncreace (c : UInt32) (n : UInt16) : Avoids h (counterIncreace c n) s :=
  get_bind ((liftUndefined hloop).bind fun _ _ => (modify _).bind fun _ _ => pure _)

theorem checkRetvalue (ret : Ret) : Avoids h (checkRetvalue ret) s := by
  rcases ret with e | u
  · exact throw (by rcases hloop with rfl | rfl <;> simp)
  · exact pure ()

omit hloop in
/-- A field that is covered. -/
theorem cover {d value : Buf} {pos len : UInt16} (hshort : h = .hang → ¬ Straddles pos len) :
    Avoids h (Prog.liftOption (pofbfCoverBit d value pos len) .hang) s := by
  refine liftOption fun hnone hhang => hshort hhang.symm ?_
  rw [pofbfCoverBit_eq_none_iff] at hnone
  unfold Straddles
  omega

omit hloop in
theorem coverWindow {value : Buf} {pos len : UInt16} (hshort : h = .hang → ¬ Straddles pos len) :
    Avoids h (coverWindow value pos len) s :=
  get_bind ((cover hshort).bind fun _ _ => modify _)

omit hloop in
theorem coverMetadata {value : Buf} {pos len : UInt16} (hshort : h = .hang → ¬ Straddles pos len) :
    Avoids h (coverMetadata value pos len) s :=
  get_bind ((cover hshort).bind fun _ _ => modify _)

theorem coverInBuf {value : Buf} {pos len : UInt16} (hshort : h = .hang → ¬ Straddles pos len) :
    Avoids h (coverInBuf value pos len) s :=
  get_bind ((checkUndefined hloop _).bind fun _ _ => coverWindow hshort)

theorem get32valueFromField (pm : PofMatch) : Avoids h (get32valueFromField pm) s :=
  (failIf hloop _ _ _).bind fun _ _ => get_bind ((liftError hloop).bind fun _ _ => pure _)

theorem pofdpGet32value (type : UInt8) (data : Buf) (p : ℕ) :
    Avoids h (pofdpGet32value type data p) s := by
  unfold PofSwitch.pofdpGet32value
  split
  · exact pure _
  · exact get32valueFromField hloop _

theorem pofdpWrite32valueToField {value : UInt32} {pm : PofMatch}
    (hshort : h = .hang → ¬ Straddles pm.offset pm.len) :
    Avoids h (pofdpWrite32valueToField value pm) s := by
  refine (failIf hloop _ _ _).bind fun _ _ => get_bind ?_
  split
  · exact (failIf hloop _ _ _).bind fun _ _ => coverWindow hshort
  · exact (failIf hloop _ _ _).bind fun _ _ => coverMetadata hshort

theorem pofdpSendRaw (env : DpEnv) (lrPort : LocalResource) : Avoids h (pofdpSendRaw env lrPort) s :=
  (modify _).bind fun _ _ => get_bind ((failIf hloop _ _ _).bind fun _ _ =>
    get_bind ((liftError hloop).bind fun _ _ => (failIf hloop _ _ _).bind fun _ _ => modify _))

theorem floodLoop (env : DpEnv) (lrPort : LocalResource) (ports : List PortInfo) :
    Avoids h (floodLoop env lrPort ports) s := by
  induction ports generalizing s with
  | nil => exact pure ()
  | cons port ports ih =>
      refine get_bind ?_
      split
      · exact (modify _).bind fun _ _ => (pofdpSendRaw hloop env lrPort).bind fun _ _ => ih
      · exact ih

theorem outputAction (env : DpEnv) (data : Buf) : Avoids h (outputAction env data) s := by
  refine get_bind ((failIf hloop _ _ _).bind fun _ _ => (failIf hloop _ _ _).bind fun _ _ =>
    (pofdpGet32value hloop _ _ _).bind fun _ _ => (modify _).bind fun _ _ =>
      (liftError hloop).bind fun _ _ => (modify _).bind fun _ _ => ?_)
  split
  · exact floodLoop hloop _ _ _
  · exact pofdpSendRaw hloop _ _

theorem packetInAction (env : DpEnv) (data : Buf) : Avoids h (packetInAction env data) s := by
  refine get_bind (get_bind ((failIf hloop _ _ _).bind fun _ _ => ?_))
  split
  · exact modify _
  · exact pure _
  · exact throw (by rcases hloop with rfl | rfl <;> simp)

theorem calChecksum (t₁ t₂ : UInt8) {calPos calLen csPos csLen : UInt16}
    (hshort : h = .hang → ¬ Straddles csPos csLen) :
    Avoids h (calChecksum t₁ t₂ calPos calLen csPos csLen) s := by
  refine get_bind (bind ?_ fun _ _ => (modify _).bind fun _ _ => get_bind
    ((liftUndefined hloop).bind fun _ _ => (cover hshort).bind fun _ _ => modify _))
  unfold bzeroBit
  split
  · exact pure _
  · exact cover hshort

theorem deleteFieldAction {data : Buf} (hshort : h = .hang → ∀ tagLenB,
      exec (PofSwitch.pofdpGet32value (data.rd 2) data 8) s = (.ok tagLenB, s) →
      ¬ Straddles (half data 0)
        (toUInt32 (s.dpp.leftLen * 8) - ((half data 0).toUInt32 + tagLenB)).toUInt16) :
    Avoids h (deleteFieldAction data) s := by
  refine (pofdpGet32value hloop _ _ _).bind_ok fun tagLenB s' hr => ?_
  obtain rfl := Frame.same (frame_pofdpGet32value _ _ _) hr
  refine get_bind ((failIf hloop _ _ _).bind fun _ _ => ?_)
  exact (coverWindow fun hh => hshort hh tagLenB hr).bind fun _ _ => modify _

/-- The work of an action that is neither `GROUP` nor covers a short field. -/
theorem actionWork (env : DpEnv) {action : PofAction} {type : ActionType}
    (htype : ActionType.ofCode action.type.toNat = some type)
    (hshort : h = .hang → ¬ CoversShort s action) :
    Avoids h (actionWork env action.actionData type) s := by
  simp only [CoversShort, htype] at hshort
  cases type with
  | output => exact outputAction hloop env _
  | setField => exact get_bind ((failIf hloop _ _ _).bind fun _ _ => coverWindow hshort)
  | setFieldFromMetadata =>
      exact get_bind ((failIf hloop _ _ _).bind fun _ _ => (checkUndefined hloop _).bind fun _ _ =>
        coverWindow hshort)
  | modifyField =>
      exact (get32valueFromField hloop _).bind fun _ _ => pofdpWrite32valueToField hloop hshort
  | addField =>
      refine (failIf hloop _ _ _).bind_ok fun _ s' hr => ?_
      obtain rfl := Frame.same (frame_failIf _ _ _) hr
      exact get_bind ((failIf hloop _ _ _).bind fun _ _ => (checkUndefined hloop _).bind fun _ _ =>
        (coverInBuf hloop fun hh hs => hshort hh (Or.inl hs)).bind fun _ _ =>
          (coverInBuf hloop fun hh hs => hshort hh (Or.inr hs)).bind fun _ _ => modify _)
  | deleteField =>
      exact deleteFieldAction hloop fun hh tagLenB hr hs => hshort hh ⟨tagLenB, hr, hs⟩
  | calculateChecksum => exact (failIf hloop _ _ _).bind fun _ _ => calChecksum hloop _ _ hshort
  | drop => exact (modify _).bind fun _ _ => modify _
  | packetIn => exact packetInAction hloop env _
  | counter => exact (counterIncreace hloop _ _).bind fun _ _ => checkRetvalue hloop _
  | experimenter => exact throw (by rcases hloop with rfl | rfl <;> simp)
  | group => exact throw (by rcases hloop with rfl | rfl <;> simp)

/-- A turn of the loop over actions. -/
theorem actTurn (env : DpEnv) (hshort : h = .hang → ∀ action, s.dpp.act.head? = some action →
      ¬ CoversShort s action) : Avoids h (actTurn env) s := by
  cases ha : s.dpp.act.head? with
  | none =>
      intro t ht
      rw [exec_actTurn_none ha] at ht
      cases ht
      rcases hloop with heq | heq <;> cases heq
  | some action =>
      intro t ht
      rw [exec_actTurn ha] at ht
      cases htype : ActionType.ofCode action.type.toNat with
      | none =>
          rw [executeAction, htype] at ht
          exact throw (by rcases hloop with rfl | rfl <;> simp) t ht
      | some type =>
          by_cases hgroup : type = .group
          · subst hgroup
            rw [executeAction, htype] at ht
            exact get_bind ((liftError hloop).bind fun _ _ => (counterIncreace hloop _ _).bind
              fun _ _ => (checkRetvalue hloop _).bind fun _ _ => (modify _).bind fun _ _ => pure ()) t ht
          · rw [executeAction_some _ htype hgroup] at ht
            exact (actionWork hloop env htype fun hh => hshort hh action ha).bind
              (fun _ _ => modify _) t ht

end Avoids

/-! ### Executions -/

/-- The states between the actions of an execution. -/
inductive ActRun (env : DpEnv) (s₀ : DpState) : DpState → Prop
  | start : ActRun env s₀ s₀
  | turn {s s' : DpState} : ActRun env s₀ s → s.HasAction → exec (actTurn env) s = (.ok (), s') →
      ActRun env s₀ s'

/-- The group that the remaining actions lead to. -/
def DpState.next (s : DpState) : Option UInt32 := firstGroup (s.dpp.act.take s.dpp.actNum.toNat)

section Executions

variable {env : DpEnv} {s s' t : DpState}

/-- What an execution fails with is what one of its turns fails with. -/
theorem exists_turn_of_actEnds {s₀ : DpState} {r : Except Halt Unit} {e : Halt}
    (hrun : ActRun env s₀ s) (h : ActEnds env s r t) (hr : r = .error e) :
    ∃ u, ActRun env s₀ u ∧ u.HasAction ∧ exec (actTurn env) u = (.error e, t) := by
  induction h with
  | done _ => cases hr
  | fail hs hturn =>
      cases hr
      exact ⟨_, hrun, hs, hturn⟩
  | turn hs hturn _ ih => exact ih (hrun.turn hs hturn) hr

theorem groups_counterIncreace (c : UInt32) (n : UInt16) :
    Frame (fun s : DpState => s.lr.groupMap) (counterIncreace c n) := by
  intro s
  cases hc : poflrCounterIncreace c n s.lr with
  | none => rw [exec_counterIncreace_none hc]
  | some x =>
      rw [exec_counterIncreace hc]
      exact poflrCounterIncreace_frame LocalResource.groupMap (fun _ _ => rfl) hc

/-- **Actions do not change the groups.** -/
theorem groups_actTurn (env : DpEnv) : Frame (fun s : DpState => s.lr.groupMap) (actTurn env) := by
  refine Frame.get_bind fun _ => (Frame.liftOption _ _).bind fun action => ?_
  unfold executeAction
  split
  · exact Frame.throw _
  · refine Frame.get_bind fun _ => (Frame.liftOption _ _).bind fun _ =>
      (groups_counterIncreace _ _).bind fun _ => (frame_checkRetvalue _).bind fun _ => ?_
    exact Frame.bind (Frame.modify fun _ => rfl) fun _ => Frame.pure _
  · rename_i type _ _
    refine Frame.bind ?_ fun _ => Frame.modify fun _ => rfl
    by_cases hcounter : type = .counter
    · subst hcounter
      exact (groups_counterIncreace _ _).bind fun _ => frame_checkRetvalue _
    · exact (lr_actionWork env _ hcounter).comp LocalResource.groupMap

theorem actions_actionWork (env : DpEnv) (data : Buf) (type : ActionType) :
    Frame (fun s : DpState => (s.dpp.act, s.dpp.actNum)) (actionWork env data type) :=
  Commutes.frame (fun c => commutes_actionWork (l := c.1) (n := c.2) env data type) (fun _ => rfl)
    fun _ _ => rfl

/-- The cursor after an action other than `GROUP`. -/
theorem actTurn_cursor {action : PofAction} (ha : s.dpp.act.head? = some action)
    (hgroup : action.isGroup = false) (h : exec (actTurn env) s = (.ok (), s')) :
    s'.dpp.actNum = s.dpp.actNum - 1 ∧
      s'.dpp.act = if s.dpp.actNum - 1 < 1 then s.dpp.act else s.dpp.act.tail := by
  rw [exec_actTurn ha] at h
  cases htype : ActionType.ofCode action.type.toNat with
  | none =>
      rw [executeAction, htype] at h
      cases h
  | some type =>
      have hne : type ≠ .group := by
        rintro rfl
        simp [PofAction.isGroup, htype] at hgroup
      rw [executeAction_some _ htype hne] at h
      rcases hwork : exec (actionWork env action.actionData type) s with ⟨e | u, s₁⟩
      · rw [exec_bind_error hwork] at h
        cases h
      · rw [exec_bind_ok hwork] at h
        have hsame := actions_actionWork env action.actionData type s
        rw [hwork] at hsame
        have hact : s₁.dpp.act = s.dpp.act := (Prod.mk.inj hsame).1
        have hnum : s₁.dpp.actNum = s.dpp.actNum := (Prod.mk.inj hsame).2
        rw [actionUpdate, modifyDpp, exec_modify] at h
        cases h
        rw [← hact, ← hnum]
        split_ifs <;> exact ⟨rfl, rfl⟩

theorem actNum_pred (hs : s.HasAction) : (s.dpp.actNum - 1).toNat + 1 = s.dpp.actNum.toNat := by
  have hpos : 0 < s.dpp.actNum.toNat := UInt8.lt_iff_toNat_lt.1 hs.2
  have hle : (1 : UInt8) ≤ s.dpp.actNum := UInt8.le_iff_toNat_le.2 hpos
  rw [UInt8.toNat_sub_of_le _ _ hle]
  exact Nat.succ_pred_eq_of_pos hpos

/-- What is left to do after a turn: the actions of a group, or one action less. -/
theorem actTurn_next (hs : s.HasAction) (h : exec (actTurn env) s = (.ok (), s')) :
    (∃ g group, s.next = some g ∧ poflrGetGroupWithID g s.lr = some group ∧ s'.next = group.next) ∨
      (s'.dpp.actNum.toNat + 1 = s.dpp.actNum.toNat ∧
        (s'.dpp.actNum.toNat ≠ 0 → s'.next = s.next)) := by
  obtain ⟨action, ha⟩ := head_of_actTurn h
  obtain ⟨l, hl⟩ : ∃ l, s.dpp.act = action :: l := List.head?_eq_some_iff.1 ha
  have hpred := actNum_pred hs
  cases hgroup : action.isGroup with
  | true =>
      rw [exec_actTurn ha] at h
      have htype : ActionType.ofCode action.type.toNat = some .group := by
        simpa [PofAction.isGroup] using hgroup
      rw [executeAction, htype] at h
      obtain ⟨group, lr, hfound, _, rfl⟩ := exec_executeGroup_ok.1 h
      refine Or.inl ⟨_, group, ?_, hfound, rfl⟩
      rw [DpState.next, firstGroup, hl, ← hpred, List.take_succ_cons, List.find?_cons_of_pos hgroup]
      rfl
  | false =>
      obtain ⟨hnum, hact⟩ := actTurn_cursor ha hgroup h
      refine Or.inr ⟨by rw [hnum, hpred], fun hmore => ?_⟩
      have hlast : ¬ s.dpp.actNum - 1 < 1 := by
        rw [UInt8.lt_iff_toNat_lt, ← hnum]
        exact fun hlt => hmore (Nat.lt_one_iff.1 hlt)
      rw [DpState.next, DpState.next, firstGroup, firstGroup, hact, if_neg hlast, hl, hnum, ← hpred,
        List.tail_cons, List.take_succ_cons, List.find?_cons_of_neg (by rw [hgroup]; exact Bool.false_ne_true)]

/-- A turn in front of an execution that returns. -/
theorem ends_of_turn {r : Except Halt Unit} (hs : s.HasAction)
    (hturn : exec (actTurn env) s = (.ok (), s')) (h : Ends env s' r t) : ∃ t', Ends env s r t' := by
  obtain ⟨action, ha⟩ := head_of_actTurn hturn
  obtain ⟨hr, fuel, u, hexec, _⟩ := h
  rcases hpass : passedOn action.isGroup (r, u) with ⟨r', u'⟩
  obtain ⟨rfl, _⟩ := passedOn_eq hpass
  refine ⟨_, hr, fuel + 1, u', ?_, rfl⟩
  rw [exec_actionExecute_ok fuel hs ha hturn, hexec, hpass]

/-- An execution returns when those do that begin in the group it leads to. -/
theorem ends_of_next {groups : Hmap GroupInfo} (hgroups : s.lr.groupMap = groups)
    (hnext : ∀ g, s.next = some g → ∀ u : DpState, u.lr.groupMap = groups →
      (∀ k, u.next = some k → Follows groups g k) → ∃ r t, Ends env u r t) : ∃ r t, Ends env s r t := by
  induction hn : s.dpp.actNum.toNat generalizing s with
  | zero =>
      refine ⟨_, _, (ends_idle_iff fun hs => ?_).2 ⟨rfl, rfl⟩⟩
      exact absurd (UInt8.lt_iff_toNat_lt.1 hs.2) (by rw [hn]; exact Nat.lt_irrefl 0)
  | succ n ih =>
      by_cases hs : s.HasAction
      · rcases hturn : exec (actTurn env) s with ⟨e | u, s'⟩
        · obtain ⟨t', hexec, _⟩ := exec_actionExecute_fail hs hturn
          refine ⟨.error e, _, fun hfuel => ?_, 1, t', hexec 0, rfl⟩
          cases hfuel
          exact Avoids.actTurn (Or.inl rfl) env (fun hh => by cases hh) s' hturn
        · have hkept : s'.lr.groupMap = groups := by
            have hframe := groups_actTurn env s
            rw [hturn] at hframe
            exact hframe.trans hgroups
          have hrest : ∃ r t, Ends env s' r t := by
            rcases actTurn_next hs hturn with ⟨g, group, hg, hfound, heq⟩ | ⟨hnum, heq⟩
            · refine hnext g hg s' hkept fun k hk => ?_
              rw [heq] at hk
              obtain ⟨hmem, hhash⟩ := Hmap.nodeGetWithHash_eq_some hfound
              exact ⟨group, hgroups ▸ hmem, hhash, hk⟩
            · rw [hn] at hnum
              have hn' : s'.dpp.actNum.toNat = n := Nat.succ.inj hnum
              by_cases hzero : n = 0
              · refine ih hkept (fun g hg => ?_) hn'
                rw [DpState.next, hn', hzero] at hg
                cases hg
              · refine ih hkept (fun g hg => hnext g ?_) hn'
                rw [← heq (by rw [hn']; exact hzero)]
                exact hg
          obtain ⟨r, t, hends⟩ := hrest
          exact ⟨r, ends_of_turn hs hturn hends⟩
      · exact ⟨_, _, (ends_idle_iff hs).2 ⟨rfl, rfl⟩⟩

/-- **Without cycles among the groups every execution returns.** -/
theorem ends_of_acyclic (env : DpEnv) {groups : Hmap GroupInfo} (hacyc : ∀ g, ¬ TransGen (Follows groups) g g)
    (hgroups : s.lr.groupMap = groups) : ∃ r t, Ends env s r t := by
  have hwf := wellFounded_of_acyclic hacyc
  have hfrom : ∀ g, ∀ u : DpState, u.lr.groupMap = groups →
      (∀ k, u.next = some k → Follows groups g k) → ∃ r t, Ends env u r t := by
    intro g
    induction g using hwf.induction with
    | _ g ih =>
        intro u hu hfollows
        exact ends_of_next hu fun k hk => ih k (hfollows k hk)
  exact ends_of_next hgroups fun g _ => hfrom g

/-- **Along requests that close no chain, no chain of groups revisits a group, and every execution
whose actions cover no short field returns.** -/
theorem actions_end_of_path {lr : LocalResource} (h : LrPath NoLoop lr) :
    (∀ g, ¬ TransGen (Follows lr.groupMap) g g) ∧
      ∀ (env : DpEnv) (s : DpState), s.lr.groupMap = lr.groupMap →
        (∀ u, ActRun env s u → u.HasAction → ∀ action, u.dpp.act.head? = some action →
          ¬ CoversShort u action) →
        ∃ r t, Ends env s r t ∧ r ≠ .error .hang := by
  refine ⟨acyclic_of_path h, fun env s hgroups hshort => ?_⟩
  obtain ⟨r, t, hends⟩ := ends_of_acyclic env (acyclic_of_path h) hgroups
  refine ⟨r, t, hends, ?_⟩
  rintro rfl
  obtain ⟨_, fuel, v, hexec, _⟩ := hends
  obtain ⟨t', hacts, _⟩ := actEnds_of_execute hexec (by simp)
  obtain ⟨u, hrun, hu, hturn⟩ := exists_turn_of_actEnds ActRun.start hacts rfl
  exact Avoids.actTurn (Or.inr rfl) env (fun _ => hshort u hrun hu) t' hturn

end Executions

section OneGroup

variable {action : PofAction}

theorem oneGroup_path {Q : LocalResource → LrOp → Prop}
    (hQ : Q (pofLocalresourceInit smallConfig) (.addGroupEntry ⟨0, 1, 1, 0, [action]⟩ 1 2)) :
    LrPath Q (oneGroup action) := by
  have hnodup : [1, 2].Nodup := by decide
  have hdead : ∀ a ∈ [1, 2], a ≠ 0 ∧ a ∉ (pofLocalresourceInit smallConfig).liveAddrs := by decide
  exact (LrPath.init smallConfig).next _ hQ ⟨hnodup, fun a ha =>
    ⟨(hdead a ha).1, fun hlive => absurd hlive (hdead a ha).2⟩⟩ rfl

/-- The state in which the actions of group `1` are executed. -/
def entered (action : PofAction) (s : DpState) : DpState :=
  setActions (groupFill ⟨0, 1, 1, 0, [action]⟩ (mapGroupCreate 1)).action 1 s

theorem actTurn_oneGroup {s : DpState} (hlr : s.lr = oneGroup action)
    (ha : s.dpp.act.head? = some (anAction 7 [1])) :
    exec (actTurn openEnv) s = (.ok (), entered action s) := by
  have hfound : poflrGetGroupWithID 1 s.lr =
      some (groupFill ⟨0, 1, 1, 0, [action]⟩ (mapGroupCreate 1)) := by rw [hlr]; rfl
  have hinc : poflrCounterIncreace 0 s.dpp.relLen s.lr = some (.ok (), s.lr) := rfl
  rw [exec_actTurn ha]
  exact exec_executeGroup_ok.2 ⟨_, s.lr, hfound, hinc, rfl⟩

/-- An execution that begins with group `1`. -/
def groupState (action : PofAction) : DpState :=
  withActions [anAction 7 [1]] (pofdpForward 1 [7, 8, 9] (oneGroup action))

end OneGroup

/-- Group `1` leads to group `2`, which does not exist: its chain ends with an error. -/
theorem actions_end_of_path_chain :
    ∃ r t, Ends openEnv (groupState (anAction 7 [2])) r t ∧ r ≠ .error .hang := by
  refine (actions_end_of_path (oneGroup_path ?_)).2 openEnv (groupState (anAction 7 [2])) rfl ?_
  · rintro group ⟨⟩ old h hnext hchain
    rcases ReflTransGen.cases_head hchain with rfl | ⟨k, ⟨i, hi, _⟩, _⟩
    · cases hnext
    · rw [groups_pofLocalresourceInit] at hi
      simp at hi
  · have hfirst : exec (actTurn openEnv) (groupState (anAction 7 [2])) = (.ok (), _) :=
      actTurn_oneGroup rfl rfl
    have hsecond : (exec (actTurn openEnv)
        (entered (anAction 7 [2]) (groupState (anAction 7 [2])))).1 =
          .error (.error ⟨.groupModFailed, .pofgmfcUnknownGroup⟩) := by decide +kernel
    have hrun : ∀ u, ActRun openEnv (groupState (anAction 7 [2])) u →
        u = groupState (anAction 7 [2]) ∨
          u = entered (anAction 7 [2]) (groupState (anAction 7 [2])) := by
      intro u hu
      induction hu with
      | start => exact Or.inl rfl
      | turn _ _ hturn ih =>
          rcases ih with rfl | rfl
          · rw [hfirst] at hturn
            cases hturn
            exact Or.inr rfl
          · rw [hturn] at hsecond
            cases hsecond
    intro u hu _ action ha
    rcases hrun u hu with rfl | rfl
    · cases ha
      exact id
    · cases ha
      exact id

/-- A group that leads back to itself is stored, and its actions are executed for ever. -/
theorem group_loop_never_returns : LrReachable (oneGroup (anAction 7 [1])) ∧
    TransGen (Follows (oneGroup (anAction 7 [1])).groupMap) 1 1 ∧
    ∀ fuel, (exec (pofdpActionExecute openEnv fuel) (groupState (anAction 7 [1]))).1 = .error .fuel := by
  refine ⟨(oneGroup_path (Q := fun _ _ => True) trivial).reachable, TransGen.single ?_, fun fuel => ?_⟩
  · exact ⟨_, List.mem_singleton_self _, rfl, rfl⟩
  · have hloop : ∀ s : DpState, s.lr = oneGroup (anAction 7 [1]) →
        s.dpp.act.head? = some (anAction 7 [1]) → s.HasAction →
        (exec (pofdpActionExecute openEnv fuel) s).1 = .error .fuel := by
      induction fuel with
      | zero => exact fun _ _ _ _ => rfl
      | succ fuel ih =>
          intro s hlr ha hs
          rw [exec_actionExecute_ok fuel hs ha (actTurn_oneGroup hlr ha), fst_passedOn]
          exact ih _ hlr rfl ⟨hs.1, show (0 : UInt8) < 1 by decide⟩
    exact hloop _ rfl rfl ⟨rfl, by decide⟩

end PofSwitch
