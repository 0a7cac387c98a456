/-
**Requests that fail.**

A request that returns an error should leave the local resource as it found it.  Twelve of the
requests check everything before they write, or leave their first write to an operation that checks
before it writes itself.  The two requests that insert a flow entry do not: an addition links the
entry and then looks at the counter id, a modification takes the old entry out and then looks at the
lengths of the new one's fields.  For these two the module says exactly which requests are affected.

Main definitions:

* `PofSwitch.LrOp.ChecksFirst` — the twelve requests;
* `PofSwitch.CounterIdOk` — the counter ids `poflr_counter_init` accepts.

Main results:

* `PofSwitch.failed_request_unchanged` — **a failed request of the twelve changes nothing**;
* `PofSwitch.poflrAddFlowEntry_atomic_iff` — a failed addition changes nothing exactly when no entry is
  accepted with a counter id out of range;
* `PofSwitch.poflrModifyFlowEntry_atomic_iff` — a failed modification changes nothing exactly when no
  stored entry is given up for one whose fields are not as long as the key.
-/

import PofSwitch.LrRun

set_option relaxedAutoImplicit false
set_option autoImplicit false

namespace PofSwitch

open HmapNode

/-! ### Requests that check first -/

/-- The requests that check everything before they write. -/
def LrOp.ChecksFirst : LrOp → Prop
  | .createFlowTable _ _ | .deleteFlowTable _ _ | .deleteFlowEntry _ => True
  | .addGroupEntry _ _ _ | .modifyGroupEntry _ | .deleteGroupEntry _ => True
  | .addMeterEntry _ _ _ | .modifyMeterEntry _ _ | .deleteMeterEntry _ => True
  | .counterInit _ _ | .counterDelete _ | .counterClear _ => True
  | .addFlowEntry _ _ _ | .modifyFlowEntry _ _ _ | .portOpenflowEnable _ _ | .clearResource => False

section Failure

variable {lr lr' : LocalResource} {e : PofError}

theorem poflrCounterClear_error {c : UInt32} (h : poflrCounterClear c lr = (.error e, lr')) :
    lr' = lr := by
  unfold poflrCounterClear at h
  split_ifs at h with h₀ hmax
  · cases h
  · cases h
    rfl
  · split at h
    · cases h
      rfl
    · cases h

theorem poflrAddMeterEntry_error {m r : UInt32} {a : ℕ}
    (h : poflrAddMeterEntry m r a lr = (.error e, lr')) : lr' = lr := by
  unfold poflrAddMeterEntry at h
  split_ifs at h
  · cases h
    rfl
  · cases h
    rfl
  · cases h

theorem poflrModifyMeterEntry_error {m r : UInt32} (h : poflrModifyMeterEntry m r lr = (.error e, lr')) :
    lr' = lr := by
  unfold poflrModifyMeterEntry at h
  split_ifs at h
  · cases h
    rfl
  · split at h
    · cases h
      rfl
    · cases h

theorem poflrDeleteMeterEntry_error {m : UInt32} (h : poflrDeleteMeterEntry m lr = (.error e, lr')) :
    lr' = lr := by
  unfold poflrDeleteMeterEntry at h
  split_ifs at h
  · cases h
    rfl
  · split at h
    · cases h
      rfl
    · cases h

/-- **A request that checks first and fails changes nothing.** -/
theorem failed_request_unchanged {op : LrOp} (hop : op.ChecksFirst)
    (h : op.exec lr = some (.error e, lr')) : lr' = lr := by
  cases op with
  | createFlowTable msg newAt =>
      rcases poflrCreateFlowTable_cases msg newAt lr with ⟨_, heq⟩ | ⟨_, _, heq⟩
      · cases heq.symm.trans (Option.some.inj h)
        rfl
      · cases heq.symm.trans (Option.some.inj h)
  | deleteFlowTable id type =>
      rcases poflrDeleteFlowTable_cases id type lr with ⟨_, heq⟩ | ⟨_, _, _, heq⟩
      · cases heq.symm.trans (Option.some.inj h)
        rfl
      · cases heq.symm.trans (Option.some.inj h)
  | deleteFlowEntry flow =>
      rcases poflrDeleteFlowEntry_cases flow lr with ⟨_, heq⟩ | ⟨_, _, _, _, _, _, heq⟩
      · cases heq.symm.trans (Option.some.inj h)
        rfl
      · cases heq.symm.trans (Option.some.inj h)
  | addGroupEntry group groupAt counterAt =>
      rcases poflrAddGroupEntry_cases group groupAt counterAt lr with ⟨_, heq⟩ | ⟨_, _, _, _, heq⟩
      · cases heq.symm.trans (Option.some.inj h)
        rfl
      · cases heq.symm.trans (Option.some.inj h)
  | modifyGroupEntry group =>
      rcases poflrModifyGroupEntry_cases group lr with ⟨_, heq⟩ | ⟨_, _, _, heq⟩
      · cases heq.symm.trans (Option.some.inj h)
        rfl
      · cases heq.symm.trans (Option.some.inj h)
  | deleteGroupEntry group =>
      rcases poflrDeleteGroupEntry_cases group lr with ⟨_, heq⟩ | ⟨_, _, _, _, heq⟩
      · cases heq.symm.trans (Option.some.inj h)
        rfl
      · cases heq.symm.trans (Option.some.inj h)
  | addMeterEntry m r a => exact poflrAddMeterEntry_error (Option.some.inj h)
  | modifyMeterEntry m r => exact poflrModifyMeterEntry_error (Option.some.inj h)
  | deleteMeterEntry m => exact poflrDeleteMeterEntry_error (Option.some.inj h)
  | counterInit c a =>
      rcases poflrCounterInit_cases c a lr with ⟨_, heq⟩ | ⟨heq, _⟩ | ⟨heq, _⟩
      · cases heq.symm.trans (Option.some.inj h)
        rfl
      · cases heq.symm.trans (Option.some.inj h)
      · cases heq.symm.trans (Option.some.inj h)
  | counterDelete c =>
      rcases poflrCounterDelete_cases c lr with ⟨_, heq⟩ | ⟨heq, _⟩ | ⟨_, heq, _⟩
      · cases heq.symm.trans (Option.some.inj h)
        rfl
      · cases heq.symm.trans (Option.some.inj h)
      · cases heq.symm.trans (Option.some.inj h)
  | counterClear c => exact poflrCounterClear_error (Option.some.inj h)
  | addFlowEntry flow entryAt counterAt => exact hop.elim
  | modifyFlowEntry flow entryAt counterAt => exact hop.elim
  | portOpenflowEnable portId flag => exact hop.elim
  | clearResource => exact hop.elim

end Failure

/-- Deleting a group whose message names a counter that is not there: the group stays. -/
theorem failed_request_unchanged_group :
    (LrOp.deleteGroupEntry ⟨0, 0, 1, 7, []⟩).exec
        ((LrOp.addGroupEntry ⟨0, 0, 1, 5, []⟩ 1 2).next (pofLocalresourceInit smallConfig)) =
      some (.error ⟨.counterModFailed, .pofcmfcCounterUnexist⟩,
        (LrOp.addGroupEntry ⟨0, 0, 1, 5, []⟩ 1 2).next (pofLocalresourceInit smallConfig)) ∧
      ((LrOp.deleteGroupEntry ⟨0, 0, 1, 7, []⟩).next
        ((LrOp.addGroupEntry ⟨0, 0, 1, 5, []⟩ 1 2).next (pofLocalresourceInit smallConfig))) =
          (LrOp.addGroupEntry ⟨0, 0, 1, 5, []⟩ 1 2).next (pofLocalresourceInit smallConfig) :=
  ⟨rfl, @failed_request_unchanged _ _ ⟨.counterModFailed, .pofcmfcCounterUnexist⟩
    (.deleteGroupEntry ⟨0, 0, 1, 7, []⟩) trivial rfl⟩

/-! ### Adding an entry -/

/-- The counter ids `poflr_counter_init` accepts. -/
def CounterIdOk (c : UInt32) (lr : LocalResource) : Prop := c = 0 ∨ c < lr.counterNumMax

theorem poflrCounterInit_fst (c : UInt32) (a : ℕ) (lr : LocalResource) :
    (poflrCounterInit c a lr).1 = .ok () ↔ CounterIdOk c lr := by
  unfold poflrCounterInit
  split_ifs with h₀ hmax
  · exact iff_of_true rfl (Or.inl h₀)
  · refine iff_of_false (by simp) ?_
    rintro (hzero | hlt)
    · exact h₀ hzero
    · exact UInt32.not_le.2 hlt hmax
  · refine iff_of_true ?_ (Or.inr (UInt32.not_le.1 hmax))
    split <;> rfl

/-- A write that changes the number of entries of a stored table changes the local resource. -/
theorem ne_of_setTable {lr lr' lr₁ : LocalResource} {t t' : TableInfo} (ht : t ∈ lr.tableIdMap.nodes)
    (hsame : lr₁.tableIdMap = lr.tableIdMap) (hlr' : lr'.tableIdMap = (lr₁.setTable t').tableIdMap)
    (haddr : t'.addr = t.addr) (hlen : t'.entryMap.nodes.length ≠ t.entryMap.nodes.length) :
    lr' ≠ lr := by
  rintro rfl
  have hmap : lr'.tableIdMap.nodes.map (fun u => if addr u = t'.addr then t' else u) =
      lr'.tableIdMap.nodes.map id := by
    rw [List.map_id]
    have hnodes := congrArg Hmap.nodes hlr'
    rw [LocalResource.setTable, hsame] at hnodes
    exact hnodes.symm
  have heq := List.map_inj_left.1 hmap t ht
  have haddr' : addr t = t'.addr := haddr.symm
  rw [if_pos haddr'] at heq
  exact hlen (by rw [heq]; rfl)

/-- **A failed addition changes nothing exactly when no entry is accepted with a counter id that is
out of range.** -/
theorem poflrAddFlowEntry_atomic_iff (flow : PofFlowEntry) (entryAt counterAt : ℕ)
    (lr : LocalResource) :
    (∀ e lr', poflrAddFlowEntry flow entryAt counterAt lr = some (.error e, lr') → lr' = lr) ↔
      ∀ t, flowModTable flow lr = .ok t → Accepts flow t → CounterIdOk flow.counterId lr := by
  rcases poflrAddFlowEntry_cases flow entryAt counterAt lr with
    ⟨e, heq, hrefuse⟩ | ⟨t, ht, hacc, _, heq⟩ | ⟨t, entry, ht, hacc, _, heq⟩
  · refine iff_of_true ?_ ?_
    · intro e' lr' h
      cases heq.symm.trans h
      rfl
    · intro t ht hacc
      exact absurd hacc (hrefuse t ht).not_accepts
  · refine iff_of_true ?_ ?_
    · intro e lr' h
      cases heq.symm.trans h
    · intro t' ht' hacc'
      cases ht.symm.trans ht'
      exact absurd hacc' hacc
  · -- the entry is linked; what is left is the counter
    have hfst := poflrCounterInit_fst flow.counterId counterAt (lr.setTable (entryLink entry t))
    constructor
    · intro hall t' ht' _
      by_contra hbad
      rcases hinit : poflrCounterInit flow.counterId counterAt (lr.setTable (entryLink entry t)) with
        ⟨e | u, lr'⟩
      · have hlr' : lr'.tableIdMap = (lr.setTable (entryLink entry t)).tableIdMap := by
          have hsame := sameTables_poflrCounterInit (lr.setTable (entryLink entry t)) flow.counterId
            counterAt
          rw [hinit] at hsame
          exact hsame.1
        refine ne_of_setTable (flowModTable_mem ht) rfl hlr' (sameShape_entryLink entry t).addr_eq ?_
          (hall e lr' (by rw [heq, hinit]))
        simp
      · exact hbad (hfst.1 (by rw [hinit]))
    · intro hok e lr' h
      have hzero := hfst.2 (hok t ht hacc)
      rw [Option.some.inj (heq.symm.trans h)] at hzero
      cases hzero

/-- A masked-match table of one byte without entries. -/
def emptyMm : LocalResource :=
  (LrOp.createFlowTable (oneFieldTable 0 8) 1).next (pofLocalresourceInit smallConfig)

/-- An entry with a counter id out of range: the request fails and the entry stays in the table. -/
theorem poflrAddFlowEntry_leaves_entry : ¬ ∀ (lr lr' : LocalResource) (flow : PofFlowEntry)
    (entryAt counterAt : ℕ) (e : PofError), LrReachable lr →
      (LrOp.addFlowEntry flow entryAt counterAt).Fresh lr →
      poflrAddFlowEntry flow entryAt counterAt lr = some (.error e, lr') → lr' = lr := by
  intro hall
  have hrun : LrReachable emptyMm := (LrRun.init smallConfig trivial).next _ (by decide) rfl trivial
  have heq := hall emptyMm _ (oneFieldEntry 0 8 0 100 [0xA0] [0xF0]) 2 3
    ⟨.counterModFailed, .pofcmfcBadCounterId⟩ hrun (by decide) rfl
  have hnum := congrArg (fun lr => lr.tableIdMap.nodes.map TableInfo.entryNum) heq
  revert hnum
  decide

/-! ### Modifying an entry -/

theorem modifyCounter_fst {old : EntryInfo} {flow : PofFlowEntry} {a : ℕ} {lr : LocalResource} :
    (modifyCounter old flow a lr).1 = .ok () ↔
      old.counterId = flow.counterId ∨ CounterIdOk flow.counterId lr := by
  unfold modifyCounter
  split_ifs with hne
  · rw [poflrCounterInit_fst]
    exact ⟨Or.inr, fun h => h.resolve_left hne⟩
  · exact iff_of_true rfl (Or.inl (not_not.1 hne))

/-- **A failed modification changes nothing exactly when no stored entry is given up for one whose
fields are not as long as the key.** -/
theorem poflrModifyFlowEntry_atomic_iff (flow : PofFlowEntry) (entryAt counterAt : ℕ)
    (lr : LocalResource) :
    (∀ e lr', poflrModifyFlowEntry flow entryAt counterAt lr = some (.error e, lr') → lr' = lr) ↔
      ∀ t old, flowModTable flow lr = .ok t → poflrEntryGetWithIndex flow.index t = some old →
        old.counterId = flow.counterId ∨ CounterIdOk flow.counterId lr → ¬ Refuses flow t := by
  rcases poflrModifyFlowEntry_cases flow entryAt counterAt lr with
    ⟨e, heq, hcounter⟩ | ⟨t, old, lr₁, ht, hold, hinit, hrest⟩
  · refine iff_of_true ?_ ?_
    · intro e' lr' h
      cases heq.symm.trans h
      rfl
    · intro t old ht hold hok
      exact absurd (modifyCounter_fst.2 hok) (hcounter t old ht hold)
  · have hok : old.counterId = flow.counterId ∨ CounterIdOk flow.counterId lr :=
      modifyCounter_fst (a := counterAt).1 (by rw [hinit])
    have hsole : ∀ {P : TableInfo → Prop}, P t → ∀ t' old', flowModTable flow lr = .ok t' →
        poflrEntryGetWithIndex flow.index t' = some old' →
        old'.counterId = flow.counterId ∨ CounterIdOk flow.counterId lr → P t' := by
      intro P hP t' old' ht' _ _
      cases ht.symm.trans ht'
      exact hP
    rcases hrest with ⟨hacc, entry, _, heq⟩ | ⟨hrefuse, e, heq⟩ | ⟨_, hrefuse, heq⟩
    · refine iff_of_true (fun e lr' h => by cases heq.symm.trans h) (hsole ?_)
      intro hrefuse
      exact hrefuse.not_accepts hacc
    · refine iff_of_false (fun hall => ?_) fun hall => hall t old ht hold hok hrefuse
      -- the old entry is gone
      have hsame := sameTables_modifyCounter lr old flow counterAt
      rw [hinit] at hsame
      refine ne_of_setTable (flowModTable_mem ht) hsame.1 rfl (sameShape_entryDelete old t).addr_eq ?_
        (hall e _ heq)
      rw [nodes_entryDelete]
      refine Nat.ne_of_lt (List.length_filter_lt_length_iff_exists.2 ⟨old, ?_, by simp [addr]⟩)
      exact poflrEntryGetWithIndex_mem hold
    · exact iff_of_true (fun e lr' h => by cases heq.symm.trans h) (hsole hrefuse)

/-- A masked-match table of one byte with one entry. -/
def oneEntryMm : LocalResource := (LrOp.addFlowEntry (oneFieldEntry 0 8 0 0 [0xA0] [0xF0]) 2 3).next emptyMm

/-- A modification with a field of sixteen bits: the request fails and the old entry is gone. -/
theorem poflrModifyFlowEntry_loses_entry : ¬ ∀ (lr lr' : LocalResource) (flow : PofFlowEntry)
    (entryAt counterAt : ℕ) (e : PofError), LrReachable lr →
      (LrOp.modifyFlowEntry flow entryAt counterAt).Fresh lr →
      poflrModifyFlowEntry flow entryAt counterAt lr = some (.error e, lr') → lr' = lr := by
  intro hall
  have hrun : LrReachable oneEntryMm :=
    ((LrRun.init smallConfig trivial).next _ (by decide) rfl trivial).next _ (by decide) rfl trivial
  have heq := hall oneEntryMm _ (oneFieldEntry 0 16 0 0 [0xA0] [0xF0]) 4 5
    ⟨.flowModFailed, .poffmfcUnknown⟩ hrun (by decide) rfl
  have hnum := congrArg (fun lr => lr.tableIdMap.nodes.map TableInfo.entryNum) heq
  revert hnum
  decide

end PofSwitch
