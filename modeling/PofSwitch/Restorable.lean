/-
**What is stored can be requested again.**

A request has checked what it stores: the size and the key length of a table, the identifiers of groups and
meters, the counter of a group.  The checks would pass again, since the limits do not change after start-up
and nothing that is stored is changed in these fields.  A table has been created from a message and keeps its
fields; a modified group keeps its counter; groups and meters stay under the hashes of their identifiers.

Entries are not among them: one may be stored although its counter is not allowed.

Main definitions:

* `PofSwitch.MetersBy` — where the meters come from;
* `PofSwitch.Restorable` — what stands in the way of no request for it.

Main results:

* `PofSwitch.poflrAddFlowEntry_frame`, `PofSwitch.poflrModifyFlowEntry_frame`,
  `PofSwitch.poflrDeleteFlowEntry_frame` — the requests for flow entries change tables and counters only;
* `PofSwitch.LrOp.meters_cases` — the possible changes of the meters;
* `PofSwitch.restorable_of_run` — **what codable requests and any packets leave behind can be requested
  again.**
-/

import PofSwitch.Codable
import PofSwitch.GroupDelete
import PofSwitch.LrAtomic

set_option relaxedAutoImplicit false
set_option autoImplicit false

namespace PofSwitch

open HmapNode

/-! ### Meters -/

section Meters

variable {lr lr' : LocalResource} {ret : Ret}

/-- The identifier and the hash of every meter of `lr'` are those of a meter of `lr`, or they agree. -/
def MetersBy (lr lr' : LocalResource) : Prop :=
  ∀ m' ∈ lr'.meterMap.nodes, (∃ m ∈ lr.meterMap.nodes, m'.id = m.id ∧ m'.hash = m.hash) ∨
    m'.hash = hmapHashForLinear m'.id

theorem metersBy_of_eq (h : lr'.meterMap = lr.meterMap) : MetersBy lr lr' :=
  fun m hm => Or.inl ⟨m, h ▸ hm, rfl, rfl⟩

/-! The requests for flow entries change tables and counters only. -/

section FlowFrame

variable {β : Type} (part : LocalResource → β)
  (hcounters : ∀ (lr : LocalResource) m n, part { lr with counterMap := m, counterNum := n } = part lr)
  (htables : ∀ (lr : LocalResource) t, part (lr.setTable t) = part lr)
include hcounters

theorem modifyCounter_frame (old : EntryInfo) (flow : PofFlowEntry) (a : ℕ) (lr : LocalResource) :
    part (modifyCounter old flow a lr).2 = part lr := by
  unfold modifyCounter
  split_ifs
  · exact poflrCounterInit_frame part lr hcounters flow.counterId a
  · rfl

include htables

theorem poflrAddFlowEntry_frame {flow : PofFlowEntry} {entryAt counterAt : ℕ}
    (h : poflrAddFlowEntry flow entryAt counterAt lr = some (ret, lr')) : part lr' = part lr := by
  rcases poflrAddFlowEntry_cases flow entryAt counterAt lr with
    ⟨_, heq, _⟩ | ⟨_, _, _, _, heq⟩ | ⟨t, e, _, _, _, heq⟩
  · cases heq.symm.trans h
    rfl
  · cases heq.symm.trans h
  · have hpart := poflrCounterInit_frame part (lr.setTable (entryLink e t)) hcounters flow.counterId counterAt
    rw [Option.some.inj (heq.symm.trans h), htables] at hpart
    exact hpart

theorem poflrModifyFlowEntry_frame {flow : PofFlowEntry} {entryAt counterAt : ℕ}
    (h : poflrModifyFlowEntry flow entryAt counterAt lr = some (ret, lr')) : part lr' = part lr := by
  rcases poflrModifyFlowEntry_cases flow entryAt counterAt lr with
    ⟨_, heq, _⟩ | ⟨t, old, lr₁, _, _, hcounter, hrest⟩
  · cases heq.symm.trans h
    rfl
  · have hpart := modifyCounter_frame part hcounters old flow counterAt lr
    rw [hcounter] at hpart
    rcases hrest with ⟨_, e, _, heq⟩ | ⟨_, _, heq⟩ | ⟨_, _, heq⟩
    · cases heq.symm.trans h
      exact (htables _ _).trans hpart
    · cases heq.symm.trans h
      exact (htables _ _).trans hpart
    · cases heq.symm.trans h

theorem poflrDeleteFlowEntry_frame (flow : PofFlowEntry) (lr : LocalResource) :
    part (poflrDeleteFlowEntry flow lr).2 = part lr := by
  rcases poflrDeleteFlowEntry_cases flow lr with ⟨_, heq⟩ | ⟨_, old, lr₁, _, _, hcounter, heq⟩
  · rw [heq]
  · have hpart := poflrCounterDelete_frame part lr hcounters old.counterId
    rw [hcounter] at hpart
    rw [heq]
    exact (htables _ _).trans hpart

end FlowFrame

theorem metersBy_poflrAddMeterEntry (meterId rate : UInt32) (newAt : ℕ) (lr : LocalResource) :
    MetersBy lr (poflrAddMeterEntry meterId rate newAt lr).2 := by
  unfold poflrAddMeterEntry
  split_ifs
  · exact metersBy_of_eq rfl
  · exact metersBy_of_eq rfl
  · intro m hm
    rcases List.mem_cons.1 hm with rfl | hm
    · exact Or.inr rfl
    · exact Or.inl ⟨m, hm, rfl, rfl⟩

theorem metersBy_poflrModifyMeterEntry (meterId rate : UInt32) (lr : LocalResource) :
    MetersBy lr (poflrModifyMeterEntry meterId rate lr).2 := by
  unfold poflrModifyMeterEntry
  split_ifs
  · exact metersBy_of_eq rfl
  · split
    · exact metersBy_of_eq rfl
    · intro m' hm'
      obtain ⟨m, hm, rfl⟩ := List.mem_map.1 hm'
      refine Or.inl ⟨m, hm, ?_⟩
      split_ifs
      · exact ⟨rfl, rfl⟩
      · exact ⟨rfl, rfl⟩

theorem metersBy_poflrDeleteMeterEntry (meterId : UInt32) (lr : LocalResource) :
    MetersBy lr (poflrDeleteMeterEntry meterId lr).2 := by
  unfold poflrDeleteMeterEntry
  split_ifs
  · exact metersBy_of_eq rfl
  · split
    · exact metersBy_of_eq rfl
    · intro m hm
      rw [mapMeterDelete, Hmap.nodes_nodeDelete] at hm
      exact Or.inl ⟨m, List.mem_of_mem_filter hm, rfl, rfl⟩

/-- **The possible changes of the meters**, as far as their identifiers and hashes go. -/
theorem LrOp.meters_cases {op : LrOp} (h : op.exec lr = some (ret, lr')) : MetersBy lr lr' := by
  have hsnd : ∀ {r : Ret × LocalResource}, some r = some (ret, lr') → MetersBy lr r.2 → MetersBy lr lr' := by
    rintro r hr hmeters
    cases hr
    exact hmeters
  cases op with
  | createFlowTable msg newAt =>
      refine hsnd h (metersBy_of_eq ?_)
      rcases poflrCreateFlowTable_cases msg newAt lr with ⟨_, heq⟩ | ⟨_, _, heq⟩
      · rw [heq]
      · rw [heq]
        rfl
  | deleteFlowTable id type =>
      refine hsnd h (metersBy_of_eq ?_)
      rcases poflrDeleteFlowTable_cases id type lr with ⟨_, heq⟩ | ⟨_, _, _, heq⟩
      · rw [heq]
      · rw [heq]
        rfl
  | addFlowEntry flow entryAt counterAt =>
      exact metersBy_of_eq
        (poflrAddFlowEntry_frame LocalResource.meterMap (fun _ _ _ => rfl) (fun _ _ => rfl) h)
  | modifyFlowEntry flow entryAt counterAt =>
      exact metersBy_of_eq
        (poflrModifyFlowEntry_frame LocalResource.meterMap (fun _ _ _ => rfl) (fun _ _ => rfl) h)
  | deleteFlowEntry flow =>
      exact hsnd h (metersBy_of_eq
        (poflrDeleteFlowEntry_frame LocalResource.meterMap (fun _ _ _ => rfl) (fun _ _ => rfl) flow lr))
  | addGroupEntry group groupAt counterAt =>
      refine hsnd h (metersBy_of_eq ?_)
      have hmeters := poflrCounterInit_frame LocalResource.meterMap lr (fun _ _ _ => rfl) group.counterId
        counterAt
      rcases poflrAddGroupEntry_cases group groupAt counterAt lr with ⟨_, heq⟩ | ⟨lr₁, _, _, hcounter, heq⟩
      · rw [heq]
      · rw [hcounter] at hmeters
        rw [heq]
        exact hmeters
  | modifyGroupEntry group =>
      refine hsnd h (metersBy_of_eq ?_)
      rcases poflrModifyGroupEntry_cases group lr with ⟨_, heq⟩ | ⟨_, _, _, heq⟩
      · rw [heq]
      · rw [heq]
  | deleteGroupEntry group =>
      refine hsnd h (metersBy_of_eq ?_)
      have hmeters := poflrCounterDelete_frame LocalResource.meterMap lr (fun _ _ _ => rfl) group.counterId
      rcases poflrDeleteGroupEntry_cases group lr with ⟨_, heq⟩ | ⟨_, lr₁, _, hcounter, heq⟩
      · rw [heq]
      · rw [hcounter] at hmeters
        rw [heq]
        exact hmeters
  | addMeterEntry meterId rate newAt => exact hsnd h (metersBy_poflrAddMeterEntry meterId rate newAt lr)
  | modifyMeterEntry meterId rate => exact hsnd h (metersBy_poflrModifyMeterEntry meterId rate lr)
  | deleteMeterEntry meterId => exact hsnd h (metersBy_poflrDeleteMeterEntry meterId lr)
  | counterInit counterId newAt =>
      exact hsnd h (metersBy_of_eq (poflrCounterInit_frame LocalResource.meterMap lr (fun _ _ _ => rfl) _ _))
  | counterDelete counterId =>
      exact hsnd h (metersBy_of_eq (poflrCounterDelete_frame LocalResource.meterMap lr (fun _ _ _ => rfl) _))
  | counterClear counterId =>
      exact hsnd h (metersBy_of_eq (poflrCounterClear_frame LocalResource.meterMap lr (fun _ _ _ => rfl) _))
  | portOpenflowEnable portId flag =>
      exact hsnd h (metersBy_of_eq
        (poflrPortOpenflowEnable_frame LocalResource.meterMap lr (fun _ _ => rfl) _ _))
  | clearResource =>
      cases h
      intro m hm
      rw [(poflrClearResource_cleared lr).meters] at hm
      simp at hm

end Meters

/-! ### What is stored -/

/-- What stands in the way of no request for it: a table within the limits that a message could have
created, groups and meters under the hashes of their identifiers, and groups whose counter is allowed. -/
structure Restorable (lr : LocalResource) : Prop where
  tables : ∀ t ∈ lr.tableIdMap.nodes, ∃ msg type newAt ID, SameShape (newTable msg type ID newAt) t ∧
    msg.match_.length = maxMatchFieldNum ∧ msg.size ≤ lr.tableSizeMax ∧
    msg.keyLen ≤ lr.keyLenEachType.getD type.toNat 0
  group_hash : GroupsHashed lr
  group_counter : ∀ g ∈ lr.groupMap.nodes, CounterIdOk g.counterId lr
  meter_hash : ∀ m ∈ lr.meterMap.nodes, m.hash = hmapHashForLinear m.id

namespace Restorable

variable {lr lr' : LocalResource}

/-- A request keeps what is stored within the limits. -/
theorem request {op : LrOp} {ret : Ret} (h : Restorable lr) (hop : op.Codable) (hfresh : op.Fresh lr)
    (hhash : GroupsHashed lr') (hexec : op.exec lr = some (ret, lr')) : Restorable lr' := by
  obtain ⟨htables, hlimits⟩ := LrOp.tables_cases hexec hfresh
  have hsize : lr'.tableSizeMax = lr.tableSizeMax := congrArg Limits.tableSizeMax hlimits
  have hkeys : lr'.keyLenEachType = lr.keyLenEachType := congrArg Limits.keyLenEachType hlimits
  have hcounters : lr'.counterNumMax = lr.counterNumMax := congrArg Limits.counterNumMax hlimits
  refine ⟨fun t' ht' => ?_, hhash, fun g hg => ?_, fun m' hm' => ?_⟩
  · rw [hsize, hkeys]
    rcases htables t' ht' with ⟨t, ht, hchange⟩ | ⟨msg, type, newAt, rfl, hadmits, rfl⟩
    · obtain ⟨msg, type, newAt, ID, hshape, hrest⟩ := h.tables t ht
      exact ⟨msg, type, newAt, ID, hshape.trans hchange.tableChange.sameShape, hrest⟩
    · exact ⟨msg, type, newAt, _, SameShape.refl _, hop, hadmits.size_le, hadmits.keyLen_le⟩
  · rw [CounterIdOk, hcounters]
    rcases LrOp.groups_cases hexec g hg with hold | ⟨group, old, hstores, rfl⟩
    · exact h.group_counter g hold
    · cases hstores with
      | add _ _ hcounter => exact (poflrCounterInit_fst _ _ _).1 hcounter
      | modify hget hcounter =>
          have hok := h.group_counter _ (Hmap.nodeGetWithHash_eq_some hget).1
          rwa [← hcounter] at hok
  · rcases LrOp.meters_cases hexec m' hm' with ⟨m, hm, hid, hhash⟩ | hhash
    · rw [hhash, hid]
      exact h.meter_hash m hm
    · exact hhash

end Restorable

/-- **What codable requests and any packets leave behind can be requested again.** -/
theorem restorable_of_run {lr : LocalResource} (h : CodableRun lr) : Restorable lr := by
  induction h with
  | init cfg =>
      have hmeters : (pofLocalresourceInit cfg).meterMap.nodes = [] := by
        refine List.foldlRecOn (motive := fun lr : LocalResource => lr.meterMap.nodes = []) _ _ rfl ?_
        exact fun _ h _ _ => h
      refine ⟨fun t ht => ?_, groupsHashed_of_switchRun (SwitchRun.init cfg), fun g hg => ?_, fun m hm => ?_⟩
      · rw [tables_pofLocalresourceInit] at ht
        simp at ht
      · rw [groups_pofLocalresourceInit] at hg
        simp at hg
      · rw [hmeters] at hm
        simp at hm
  | request hrun hop hfresh hexec ih =>
      exact ih.request hop hfresh (groupsHashed_of_switchRun (hrun.request hop hfresh hexec).switchRun) hexec
  | packet hrun hexec hr ih =>
      have hframe : ∀ {β : Type} (part : LocalResource → β),
          (∀ lr counters, part { lr with counterMap := counters } = part lr) → _ :=
        fun part hpart => frame_packet part hpart hexec hr
      obtain ⟨htables, _, hgroups, hmeters⟩ := ih
      have hhash := groupsHashed_of_switchRun (hrun.packet hexec hr).switchRun
      refine ⟨?_, hhash, ?_, ?_⟩
      · rw [hframe LocalResource.tableIdMap fun _ _ => rfl, hframe LocalResource.tableSizeMax fun _ _ => rfl,
          hframe LocalResource.keyLenEachType fun _ _ => rfl]
        exact htables
      · simp only [CounterIdOk] at hgroups ⊢
        rw [hframe LocalResource.groupMap fun _ _ => rfl, hframe LocalResource.counterNumMax fun _ _ => rfl]
        exact hgroups
      · rw [hframe LocalResource.meterMap fun _ _ => rfl]
        exact hmeters

end PofSwitch
