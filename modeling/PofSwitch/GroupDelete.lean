/-
**What the deletion of a group takes away.**

`poflr_delete_group_entry` finds the group by the identifier in the message, and deletes the counter
that the *message* names.  `poflr_modify_group_entry` compares the two counters first, and
`poflr_delete_flow_entry` deletes the counter of the stored entry; here nothing of the kind is done.
So a message with another counter takes the counter of another owner along, and a message with
counter `0` leaves the counter of the group behind.

Main definitions:

* `PofSwitch.GroupsHashed` — every group is stored under the hash of its identifier;
* `PofSwitch.DeletesOnly` — a group and its counter are gone, and nothing else.

Main results:

* `PofSwitch.groupsHashed_of_switchRun` — requests and packets in any order keep the hashes;
* `PofSwitch.deletesOnly_iff` — **exactly when a successful deletion takes the group and its own
  counter**.
-/

import PofSwitch.CounterTotals
import PofSwitch.WellFormed

set_option relaxedAutoImplicit false
set_option autoImplicit false

namespace PofSwitch

open HmapNode

/-! ### The hashes of the groups -/

/-- Every group is stored under the hash of its identifier. -/
def GroupsHashed (lr : LocalResource) : Prop :=
  ∀ g ∈ lr.groupMap.nodes, g.hash = hmapHashForLinear g.id

/-- **Requests and packets in any order keep every group under the hash of its identifier.** -/
theorem groupsHashed_of_switchRun {lr : LocalResource} (h : SwitchRun lr) : GroupsHashed lr := by
  induction h with
  | init cfg =>
      intro g hg
      rw [groups_pofLocalresourceInit] at hg
      simp at hg
  | request _ _ hexec ih =>
      intro g hg
      rcases LrOp.groups_cases hexec g hg with hold | ⟨group, old, _, rfl⟩
      · exact ih g hold
      · rfl
  | packet _ hexec hr ih =>
      intro g hg
      rw [frame_packet LocalResource.groupMap (fun _ _ => rfl) hexec hr] at hg
      exact ih g hg

/-! ### A deletion -/

/-- The group is gone, and its counter if it has one; every other group and counter is where it was, and
so are the tables with their entries, the meters and the ports. -/
structure DeletesOnly (group : GroupInfo) (lr lr' : LocalResource) : Prop where
  groups : lr'.groupMap.nodes = lr.groupMap.nodes.filter fun g => g.id ≠ group.id
  counters : lr'.counterMap.nodes =
    lr.counterMap.nodes.filter fun c => group.counterId = 0 ∨ c.id ≠ group.counterId
  tables : lr'.tableIdMap = lr.tableIdMap
  meters : lr'.meterMap = lr.meterMap
  ports : lr'.portPofIndexMap = lr.portPofIndexMap

section Deletion

variable {lr lr' : LocalResource} {group : PofGroup}

/-- The counters after the deletion of the counter with an identifier, `0` for none. -/
theorem nodes_poflrCounterDelete (h : StoreOk lr) {c : UInt32}
    (hdel : poflrCounterDelete c lr = (.ok (), lr')) :
    lr'.counterMap.nodes = lr.counterMap.nodes.filter fun k => c = 0 ∨ k.id ≠ c := by
  rcases poflrCounterDelete_cases c lr with ⟨e, heq⟩ | ⟨heq, hzero⟩ | ⟨counter, heq, hne, hget⟩
  · rw [heq] at hdel
    cases hdel
  · rw [heq] at hdel
    cases hdel
    simp [hzero]
  · rw [heq] at hdel
    cases hdel
    obtain ⟨hmem, hid⟩ := h.counter_of_get hget
    have hhash : HmapNode.hash counter = c := (h.counter_hash counter hmem).trans hid
    refine (h.counters.nodes_nodeDelete_addr hmem).trans (List.filter_congr fun k hk => ?_)
    have hk_hash : HmapNode.hash k = k.id := h.counter_hash k hk
    rw [hhash, hk_hash]
    simp [hne]

/-- What a successful deletion finds and leaves: the counter that goes is the one of the message. -/
structure DeletedGroup (group : PofGroup) (lr lr' : LocalResource) (old : GroupInfo) : Prop where
  mem : old ∈ lr.groupMap.nodes
  id_eq : old.id = group.groupId
  groups : lr'.groupMap.nodes = lr.groupMap.nodes.filter fun g => g.id ≠ old.id
  counters : lr'.counterMap.nodes =
    lr.counterMap.nodes.filter fun c => group.counterId = 0 ∨ c.id ≠ group.counterId
  named : group.counterId = 0 ∨ ∃ c ∈ lr.counterMap.nodes, c.id = group.counterId
  tables : lr'.tableIdMap = lr.tableIdMap
  meters : lr'.meterMap = lr.meterMap
  ports : lr'.portPofIndexMap = lr.portPofIndexMap

theorem exists_deletedGroup (h : StoreOk lr) (hhash : GroupsHashed lr)
    (hdel : poflrDeleteGroupEntry group lr = (.ok (), lr')) : ∃ old, DeletedGroup group lr lr' old := by
  rcases poflrDeleteGroupEntry_cases group lr with ⟨e, heq⟩ | ⟨old, lr₁, hget, hcounter, heq⟩
  · rw [heq] at hdel
    cases hdel
  rw [heq] at hdel
  cases hdel
  obtain ⟨hmem, hid⟩ := Hmap.nodeGetWithHash_eq_some hget
  have hold : old.hash = old.id := hhash old hmem
  have hsame : ∀ {β : Type} (part : LocalResource → β), (∀ lr m n, part { lr with counterMap := m, counterNum := n } =
      part lr) → part lr₁ = part lr := by
    intro β part hpart
    have hframe := poflrCounterDelete_frame part lr hpart group.counterId
    rw [hcounter] at hframe
    exact hframe
  refine ⟨old, ?_⟩
  constructor
  case mem => exact hmem
  case id_eq => exact hold.symm.trans hid
  case groups =>
    have hgroups := hsame LocalResource.groupMap fun _ _ _ => rfl
    refine (congrArg (fun m => (m.nodeDelete old.addr).nodes) hgroups).trans ?_
    refine (h.groups.nodes_nodeDelete_addr hmem).trans (List.filter_congr fun g hg => ?_)
    have hg_hash : HmapNode.hash g = g.id := hhash g hg
    have hold_hash : HmapNode.hash old = old.id := hold
    rw [hg_hash, hold_hash]
  case counters =>
    have hcounters := nodes_poflrCounterDelete h hcounter
    exact hcounters
  case named =>
    rcases poflrCounterDelete_cases group.counterId lr with ⟨e, heq'⟩ | ⟨_, hzero⟩ | ⟨counter, _, _, hfind⟩
    · rw [heq'] at hcounter
      cases hcounter
    · exact Or.inl hzero
    · exact Or.inr ⟨counter, h.counter_of_get hfind⟩
  case tables => exact hsame LocalResource.tableIdMap fun _ _ _ => rfl
  case meters => exact hsame LocalResource.meterMap fun _ _ _ => rfl
  case ports => exact hsame LocalResource.portPofIndexMap fun _ _ _ => rfl

end Deletion

/-- A filter that keeps the elements outside one class is the filter for another class exactly when the
two classes have the same elements of the list. -/
theorem filter_eq_filter_iff {α : Type} {l : List α} {p q : α → Bool} :
    l.filter p = l.filter q ↔ ∀ a ∈ l, p a = q a := by
  constructor
  · intro h a ha
    have hp : a ∈ l.filter p ↔ p a = true := by simp [ha]
    have hq : a ∈ l.filter q ↔ q a = true := by simp [ha]
    rw [Bool.eq_iff_iff, ← hp, ← hq, h]
  · intro h
    exact List.filter_congr h

/-- **In every local resource that requests and packets lead to, a successful deletion takes exactly the
group and its own counter if and only if the message names the counter of the group, or names none while
the counter of the group does not exist.** -/
theorem deletesOnly_iff {lr lr' : LocalResource} (h : SwitchRun lr) (group : PofGroup)
    (hdel : poflrDeleteGroupEntry group lr = (.ok (), lr')) :
    ∃ old ∈ lr.groupMap.nodes, old.id = group.groupId ∧
      (DeletesOnly old lr lr' ↔ group.counterId = old.counterId ∨
        group.counterId = 0 ∧ ∀ c ∈ lr.counterMap.nodes, c.id ≠ old.counterId) := by
  obtain ⟨old, hold⟩ := exists_deletedGroup (storeOk_of_switchRun h) (groupsHashed_of_switchRun h) hdel
  refine ⟨old, hold.mem, hold.id_eq, ?_⟩
  have hiff : DeletesOnly old lr lr' ↔ ∀ c ∈ lr.counterMap.nodes,
      (group.counterId = 0 ∨ c.id ≠ group.counterId) ↔ (old.counterId = 0 ∨ c.id ≠ old.counterId) := by
    constructor
    · intro honly c hc
      have hcounters := hold.counters.symm.trans honly.counters
      exact decide_eq_decide.1 (filter_eq_filter_iff.1 hcounters c hc)
    · intro hsame
      refine ⟨hold.groups, hold.counters.trans (List.filter_congr fun c hc => ?_), hold.tables, hold.meters,
        hold.ports⟩
      exact decide_eq_decide.2 (hsame c hc)
  rw [hiff]
  constructor
  · intro hsame
    by_cases hzero : group.counterId = 0
    · by_cases hold_zero : old.counterId = 0
      · exact Or.inl (hzero.trans hold_zero.symm)
      · refine Or.inr ⟨hzero, fun c hc => ?_⟩
        exact ((hsame c hc).1 (Or.inl hzero)).resolve_left hold_zero
    · obtain ⟨c, hc, hid⟩ := hold.named.resolve_left hzero
      -- the counter that the message names goes, so it is the one of the group
      have hgone : ¬ (old.counterId = 0 ∨ c.id ≠ old.counterId) := by
        rw [← hsame c hc]
        exact not_or.2 ⟨hzero, not_not.2 hid⟩
      exact Or.inl (hid.symm.trans (not_not.1 (not_or.1 hgone).2))
  · rintro (heq | ⟨hzero, hnone⟩) c hc
    · rw [heq]
    · exact iff_of_true (Or.inl hzero) (Or.inr (hnone c hc))

/-- A message about group `1`, which has no actions. -/
def emptyGroup (counterId : UInt32) : PofGroup where
  type := 0
  actionNumber := 0
  groupId := 1
  counterId := counterId
  action := []

/-- An entry counted with counter `3` and group `1` with counter `2`. -/
def countedGroup : LocalResource :=
  (LrOp.addGroupEntry (emptyGroup 2) 4 5).next
    ((LrOp.addFlowEntry (oneFieldEntry 2 8 0 3 [1] []) 2 3).next
      ((LrOp.createFlowTable (oneFieldTable 2 8) 1).next (pofLocalresourceInit smallConfig)))

theorem switchRun_countedGroup : SwitchRun countedGroup :=
  SwitchRun.of_reachable <|
    (((LrRun.init smallConfig trivial).next (.createFlowTable _ _) (by decide) rfl trivial).next
      (.addFlowEntry _ _ _) (by decide) rfl trivial).next (.addGroupEntry _ _ _) (by decide) rfl trivial

/-- A message with the counter of the group. -/
theorem deletesOnly_own_counter : ∃ old ∈ countedGroup.groupMap.nodes, old.id = 1 ∧
    DeletesOnly old countedGroup (poflrDeleteGroupEntry (emptyGroup 2) countedGroup).2 := by
  have hcounter : ∀ g ∈ countedGroup.groupMap.nodes, g.counterId = 2 := by decide
  obtain ⟨old, hmem, hid, hiff⟩ :=
    deletesOnly_iff switchRun_countedGroup (emptyGroup 2) (Prod.ext rfl rfl)
  exact ⟨old, hmem, hid, hiff.2 (Or.inl (hcounter old hmem).symm)⟩

/-- The deletion of the group takes the counter of the entry, which the message names. -/
theorem deletesOnly_foreign_counter : ¬ ∀ (lr lr' : LocalResource) (group : PofGroup), SwitchRun lr →
    poflrDeleteGroupEntry group lr = (.ok (), lr') →
    ∃ old ∈ lr.groupMap.nodes, old.id = group.groupId ∧ DeletesOnly old lr lr' := by
  intro hall
  obtain ⟨old, hmem, _, honly⟩ := hall countedGroup (poflrDeleteGroupEntry (emptyGroup 3) countedGroup).2
    (emptyGroup 3) switchRun_countedGroup (Prod.ext rfl rfl)
  have hcounter : ∀ g ∈ countedGroup.groupMap.nodes, g.counterId = 2 := by decide
  have hids := congrArg (List.map CounterInfo.id) honly.counters
  rw [hcounter old hmem] at hids
  exact absurd hids (by decide)

end PofSwitch
