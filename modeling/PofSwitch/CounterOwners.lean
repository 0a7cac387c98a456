/-
**Counters and their owners.**

A flow entry or a group names a counter, and 0 stands for none.  The counter is created with its
first owner: `poflr_counter_init` accepts a counter that is there already, so several owners may name
the same one.  There is no count of the owners.  Deleting an entry deletes its counter, and deleting
a group deletes the counter the message names, whoever else names it.

Main definitions:

* `PofSwitch.OwnersCounted` — every entry and every group that names a counter has one;
* `PofSwitch.SparesOthers` — the counter a request deletes is named by nobody but the entry or the
  group that goes with it;
* `PofSwitch.ModRun` — runs of successful requests for tables, entries and groups.

Main results:

* `PofSwitch.ownersCounted_of_run` — **in every run whose deletions spare the other owners, every
  owner has its counter in every state**;
* `PofSwitch.ownersCounted_shared` — two entries with one counter, of which one is deleted.
-/

import PofSwitch.LrRun

set_option relaxedAutoImplicit false
set_option autoImplicit false

namespace PofSwitch

open HmapNode

/-! ### Counters -/

/-- There is a counter with that identifier, within the limit. -/
def HasCounter (lr : LocalResource) (c : UInt32) : Prop :=
  c < lr.counterNumMax ∧ c ∈ lr.counterIds

/-- The counters are at different addresses and are stored under their identifiers. -/
structure CounterOk (lr : LocalResource) : Prop where
  nodup : (lr.counterMap.nodes.map CounterInfo.addr).Nodup
  hash_eq : ∀ k ∈ lr.counterMap.nodes, k.hash = hmapHashForLinear k.id

theorem CounterOk.of_eq {lr lr' : LocalResource} (h : CounterOk lr) (heq : lr'.counterMap = lr.counterMap) :
    CounterOk lr' := ⟨heq ▸ h.nodup, heq ▸ h.hash_eq⟩

/-- The counter found for an identifier has it. -/
theorem CounterOk.id_eq {lr : LocalResource} (h : CounterOk lr) {c : UInt32} {k : CounterInfo}
    (hk : poflrGetCounterWithID c lr = some k) : k ∈ lr.counterMap.nodes ∧ k.id = c := by
  obtain ⟨hmem, hhash⟩ := Hmap.nodeGetWithHash_eq_some hk
  exact ⟨hmem, (h.hash_eq k hmem).symm.trans hhash⟩

/-- A successful initialisation provides the counter and keeps the others. -/
theorem poflrCounterInit_spec {lr lr' : LocalResource} {c : UInt32} {a : ℕ} (hok : CounterOk lr)
    (ha : a ∉ lr.counterMap.nodes.map CounterInfo.addr)
    (h : poflrCounterInit c a lr = (.ok (), lr')) :
    CounterOk lr' ∧ (c ≠ 0 → HasCounter lr' c) ∧ (∀ c', HasCounter lr c' → HasCounter lr' c') ∧
      lr'.tableIdMap = lr.tableIdMap ∧ lr'.groupMap = lr.groupMap := by
  rcases poflrCounterInit_cases c a lr with ⟨e, heq⟩ | ⟨heq, hc⟩ | ⟨heq, hlt, _⟩
  · cases heq.symm.trans h
  · cases heq.symm.trans h
    refine ⟨hok, fun hne => ?_, fun _ h => h, rfl, rfl⟩
    rcases hc with hzero | ⟨hlt, hsome⟩
    · exact absurd hzero hne
    · obtain ⟨k, hk⟩ := Option.isSome_iff_exists.1 hsome
      obtain ⟨hmem, hid⟩ := hok.id_eq hk
      exact ⟨hlt, hid ▸ List.mem_map_of_mem hmem⟩
  · cases heq.symm.trans h
    refine ⟨⟨?_, ?_⟩, fun _ => ⟨hlt, List.mem_cons_self⟩, ?_, rfl, rfl⟩
    · exact List.nodup_cons.2 ⟨ha, hok.nodup⟩
    · intro k hk
      rcases List.mem_cons.1 hk with rfl | hk
      · rfl
      · exact hok.hash_eq k hk
    · rintro c' ⟨hlt', hmem⟩
      exact ⟨hlt', List.mem_cons_of_mem _ hmem⟩

/-- A successful deletion takes away at most the counter it names. -/
theorem poflrCounterDelete_spec {lr lr' : LocalResource} {c : UInt32} (hok : CounterOk lr)
    (h : poflrCounterDelete c lr = (.ok (), lr')) :
    CounterOk lr' ∧ (∀ c' ≠ 0, (c ≠ 0 → c' ≠ c) → HasCounter lr c' → HasCounter lr' c') ∧
      lr'.tableIdMap = lr.tableIdMap ∧ lr'.groupMap = lr.groupMap := by
  rcases poflrCounterDelete_cases c lr with ⟨e, heq⟩ | ⟨heq, _⟩ | ⟨k, heq, hne, hk⟩
  · cases heq.symm.trans h
  · cases heq.symm.trans h
    exact ⟨hok, fun _ _ _ h => h, rfl, rfl⟩
  · cases heq.symm.trans h
    obtain ⟨hmem, hid⟩ := hok.id_eq hk
    have hnodes : (mapCounterDelete k lr).counterMap.nodes =
        lr.counterMap.nodes.filter fun k' => addr k' ≠ k.addr := Hmap.nodes_nodeDelete _ _
    refine ⟨⟨?_, ?_⟩, ?_, rfl, rfl⟩
    · rw [hnodes]
      exact hok.nodup.sublist (List.filter_sublist.map _)
    · intro k' hk'
      rw [hnodes] at hk'
      exact hok.hash_eq k' (List.mem_of_mem_filter hk')
    · rintro c' _ hother ⟨hlt, hmem'⟩
      obtain ⟨k', hk', rfl⟩ := List.mem_map.1 hmem'
      refine ⟨hlt, List.mem_map_of_mem ?_⟩
      rw [hnodes, List.mem_filter, decide_eq_true_eq]
      refine ⟨hk', fun haddr => hother hne ?_⟩
      -- two counters at one address are the same
      rw [List.inj_on_of_nodup_map hok.nodup hk' hmem haddr, hid]

/-! ### Owners -/

/-- Every entry and every group that names a counter has one. -/
structure OwnersCounted (lr : LocalResource) : Prop where
  entries : ∀ t ∈ lr.tableIdMap.nodes, ∀ e ∈ t.entryMap.nodes, e.counterId ≠ 0 →
    HasCounter lr e.counterId
  groups : ∀ g ∈ lr.groupMap.nodes, g.counterId ≠ 0 → HasCounter lr g.counterId

/-- The requests for tables, entries and groups. -/
def LrOp.IsMod : LrOp → Prop
  | .createFlowTable _ _ | .deleteFlowTable _ _ => True
  | .addFlowEntry _ _ _ | .modifyFlowEntry _ _ _ | .deleteFlowEntry _ => True
  | .addGroupEntry _ _ _ | .modifyGroupEntry _ | .deleteGroupEntry _ => True
  | _ => False

/-- The counter a request deletes, if any, is named by nobody but the entry or the group the request
deletes.  An entry goes with the counter it names, a group with the counter the message names. -/
def SparesOthers (lr : LocalResource) : LrOp → Prop
  | .deleteFlowEntry flow => ∀ t old, flowModTable flow lr = .ok t →
      poflrEntryGetWithIndex flow.index t = some old → old.counterId ≠ 0 →
      (∀ t' ∈ lr.tableIdMap.nodes, ∀ e ∈ t'.entryMap.nodes, e.counterId = old.counterId →
        t'.addr = t.addr ∧ e.addr = old.addr) ∧
      ∀ g ∈ lr.groupMap.nodes, g.counterId ≠ old.counterId
  | .deleteGroupEntry group => ∀ old, poflrGetGroupWithID group.groupId lr = some old →
      group.counterId ≠ 0 →
      (∀ t ∈ lr.tableIdMap.nodes, ∀ e ∈ t.entryMap.nodes, e.counterId ≠ group.counterId) ∧
      ∀ g ∈ lr.groupMap.nodes, g.counterId = group.counterId → g.addr = old.addr
  | _ => True

/-- The states reached by successful requests for tables, entries and groups that all satisfy `Q` in
the state they are made in. -/
inductive ModRun (Q : LocalResource → LrOp → Prop) : LocalResource → Prop
  | init (cfg : LrConfig) : ModRun Q (pofLocalresourceInit cfg)
  | step {lr lr' : LocalResource} {op : LrOp} : ModRun Q lr → op.IsMod → op.Fresh lr → Q lr op →
      op.exec lr = some (.ok (), lr') → ModRun Q lr'

/-- What is kept along a run. -/
structure CounterInv (lr : LocalResource) : Prop where
  ok : CounterOk lr
  owners : OwnersCounted lr

theorem counterInv_init (cfg : LrConfig) : CounterInv (pofLocalresourceInit cfg) := by
  have htables : (pofLocalresourceInit cfg).tableIdMap.nodes = [] :=
    congrArg Hmap.nodes (poflrDisableAllPort_frame LocalResource.tableIdMap _ fun _ _ => rfl)
  have hgroups := groups_pofLocalresourceInit cfg
  have hcounters : (pofLocalresourceInit cfg).counterMap.nodes = [] :=
    congrArg Hmap.nodes (poflrDisableAllPort_frame LocalResource.counterMap _ fun _ _ => rfl)
  constructor
  · constructor
    · simp [hcounters]
    · simp [hcounters]
  · constructor
    · simp [htables]
    · simp [hgroups]

/-- The entries of the tables after the writes to one of them. -/
theorem OwnersCounted.setTable {lr : LocalResource} {table : TableInfo}
    (hother : ∀ t ∈ lr.tableIdMap.nodes, t.addr ≠ table.addr → ∀ e ∈ t.entryMap.nodes,
      e.counterId ≠ 0 → HasCounter lr e.counterId)
    (hself : ∀ e ∈ table.entryMap.nodes, e.counterId ≠ 0 → HasCounter lr e.counterId)
    (hgroups : ∀ g ∈ lr.groupMap.nodes, g.counterId ≠ 0 → HasCounter lr g.counterId) :
    OwnersCounted (lr.setTable table) := by
  refine ⟨fun t ht e he hne => ?_, hgroups⟩
  rcases mem_setTable ht with rfl | ⟨ht, haddr⟩
  · exact hself e he hne
  · exact hother t ht haddr e he hne

/-! ### One request -/

section Step

variable {lr lr' : LocalResource}

theorem CounterInv.addFlowEntry (h : CounterInv lr) {flow : PofFlowEntry} {entryAt counterAt : ℕ}
    (hfresh : (LrOp.addFlowEntry flow entryAt counterAt).Fresh lr)
    (hexec : poflrAddFlowEntry flow entryAt counterAt lr = some (.ok (), lr')) : CounterInv lr' := by
  rcases poflrAddFlowEntry_cases flow entryAt counterAt lr with
    ⟨e, heq, _⟩ | ⟨t, _, _, _, heq⟩ | ⟨t, entry, ht, _, hfill, heq⟩
  · cases heq.symm.trans hexec
  · cases heq.symm.trans hexec
  · have ha := notMem_counters
      (hfresh.notMem_live (a := counterAt) (by simp [LrOp.allocs]) (by simp [LrOp.frees]))
    have hinit : poflrCounterInit flow.counterId counterAt (lr.setTable (entryLink entry t)) =
        (.ok (), lr') := Option.some.inj (heq.symm.trans hexec)
    have hok : CounterOk (lr.setTable (entryLink entry t)) := h.ok.of_eq rfl
    obtain ⟨hok', hnew, hkeep, htables, hgroups⟩ := poflrCounterInit_spec hok ha hinit
    refine ⟨hok', ⟨?_, ?_⟩⟩
    · rw [htables]
      intro t' ht' e he hne
      rcases mem_setTable ht' with rfl | ⟨ht', _⟩
      · rw [nodes_entryLink] at he
        rcases List.mem_cons.1 he with rfl | he
        · rw [hfill.counterId_eq] at hne ⊢
          exact hnew hne
        · exact hkeep _ (h.owners.entries t (flowModTable_mem ht) e he hne)
      · exact hkeep _ (h.owners.entries t' ht' e he hne)
    · rw [hgroups]
      intro g hg hne
      exact hkeep _ (h.owners.groups g hg hne)

theorem CounterInv.modifyFlowEntry (h : CounterInv lr) {flow : PofFlowEntry} {entryAt counterAt : ℕ}
    (hfresh : (LrOp.modifyFlowEntry flow entryAt counterAt).Fresh lr)
    (hexec : poflrModifyFlowEntry flow entryAt counterAt lr = some (.ok (), lr')) : CounterInv lr' := by
  rcases poflrModifyFlowEntry_cases flow entryAt counterAt lr with
    ⟨e, heq, _⟩ | ⟨t, old, lr₁, ht, hold, hinit, hrest⟩
  · cases heq.symm.trans hexec
  · rcases hrest with ⟨_, entry, hfill, heq⟩ | ⟨_, e, heq⟩ | ⟨_, _, heq⟩
    rotate_left
    · cases heq.symm.trans hexec
    · cases heq.symm.trans hexec
    · cases heq.symm.trans hexec
      have htmem := flowModTable_mem ht
      have ha := notMem_counters
        (hfresh.notMem_live (a := counterAt) (by simp [LrOp.allocs]) (counterAt_notMem_frees hfresh))
      -- the counter of the new entry is there: initialised now, or that of the old entry
      obtain ⟨hok, hnew, hkeep, htables, hgroups⟩ : CounterOk lr₁ ∧
          (flow.counterId ≠ 0 → HasCounter lr₁ flow.counterId) ∧
          (∀ c', HasCounter lr c' → HasCounter lr₁ c') ∧ lr₁.tableIdMap = lr.tableIdMap ∧
          lr₁.groupMap = lr.groupMap := by
        unfold modifyCounter at hinit
        split_ifs at hinit with hne
        · exact poflrCounterInit_spec h.ok ha hinit
        · cases hinit
          refine ⟨h.ok, fun hc => ?_, fun _ h => h, rfl, rfl⟩
          rw [← not_not.1 hne] at hc ⊢
          exact h.owners.entries t htmem old (poflrEntryGetWithIndex_mem hold) hc
      refine ⟨hok.of_eq rfl, OwnersCounted.setTable ?_ ?_ ?_⟩
      · rw [htables]
        intro t' ht' _ e he hne
        exact hkeep _ (h.owners.entries t' ht' e he hne)
      · intro e he hne
        rw [nodes_entryLink] at he
        rcases List.mem_cons.1 he with rfl | he
        · rw [hfill.counterId_eq] at hne ⊢
          exact hnew hne
        · rw [nodes_entryDelete] at he
          exact hkeep _ (h.owners.entries t htmem e (List.mem_of_mem_filter he) hne)
      · rw [hgroups]
        intro g hg hne
        exact hkeep _ (h.owners.groups g hg hne)

theorem CounterInv.deleteFlowEntry (h : CounterInv lr) {flow : PofFlowEntry}
    (hspare : SparesOthers lr (.deleteFlowEntry flow))
    (hexec : poflrDeleteFlowEntry flow lr = (.ok (), lr')) : CounterInv lr' := by
  rcases poflrDeleteFlowEntry_cases flow lr with ⟨e, heq⟩ | ⟨t, old, lr₁, ht, hold, hdel, heq⟩
  · cases heq.symm.trans hexec
  · cases heq.symm.trans hexec
    have htmem := flowModTable_mem ht
    obtain ⟨hok, hkeep, htables, hgroups⟩ := poflrCounterDelete_spec h.ok hdel
    have hspare' := hspare t old ht hold
    refine ⟨hok.of_eq rfl, OwnersCounted.setTable ?_ ?_ ?_⟩
    · rw [htables]
      intro t' ht' haddr e he hne
      refine hkeep _ hne (fun hold' hc => ?_) (h.owners.entries t' ht' e he hne)
      exact haddr (((hspare' hold').1 t' ht' e he hc).1.trans (sameShape_entryDelete old t).addr_eq.symm)
    · intro e he hne
      rw [nodes_entryDelete, List.mem_filter, decide_eq_true_eq] at he
      refine hkeep _ hne (fun hold' hc => ?_) (h.owners.entries t htmem e he.1 hne)
      exact he.2 ((hspare' hold').1 t htmem e he.1 hc).2
    · rw [hgroups]
      intro g hg hne
      exact hkeep _ hne (fun hold' => (hspare' hold').2 g hg) (h.owners.groups g hg hne)

theorem CounterInv.addGroupEntry (h : CounterInv lr) {group : PofGroup} {groupAt counterAt : ℕ}
    (hfresh : (LrOp.addGroupEntry group groupAt counterAt).Fresh lr)
    (hexec : poflrAddGroupEntry group groupAt counterAt lr = (.ok (), lr')) : CounterInv lr' := by
  have ha := notMem_counters
    (hfresh.notMem_live (a := counterAt) (by simp [LrOp.allocs]) (by simp [LrOp.frees]))
  rcases poflrAddGroupEntry_cases group groupAt counterAt lr with ⟨e, heq⟩ | ⟨lr₁, _, _, hinit, heq⟩
  · cases heq.symm.trans hexec
  · cases heq.symm.trans hexec
    obtain ⟨hok, hnew, hkeep, htables, hgroups⟩ := poflrCounterInit_spec h.ok ha hinit
    refine ⟨hok.of_eq rfl, ⟨?_, ?_⟩⟩
    · intro t ht e he hne
      exact hkeep _ (h.owners.entries t (htables ▸ ht) e he hne)
    · intro g hg hne
      rcases List.mem_cons.1 hg with rfl | hg
      · exact hnew hne
      · exact hkeep _ (h.owners.groups g (hgroups ▸ hg) hne)

theorem CounterInv.modifyGroupEntry (h : CounterInv lr) {group : PofGroup}
    (hexec : poflrModifyGroupEntry group lr = (.ok (), lr')) : CounterInv lr' := by
  rcases poflrModifyGroupEntry_cases group lr with ⟨e, heq⟩ | ⟨old, hold, hcounter, heq⟩
  · cases heq.symm.trans hexec
  · cases heq.symm.trans hexec
    refine ⟨h.ok.of_eq rfl, ⟨h.owners.entries, ?_⟩⟩
    intro g hg hne
    obtain ⟨g₀, hg₀, rfl⟩ := List.mem_map.1 hg
    split_ifs at hne ⊢
    · -- the group keeps the counter it has
      have hid : (groupFill group g₀).counterId = old.counterId := hcounter
      rw [hid] at hne ⊢
      exact h.owners.groups old (List.mem_of_find?_eq_some hold) hne
    · exact h.owners.groups g₀ hg₀ hne

theorem CounterInv.deleteGroupEntry (h : CounterInv lr) {group : PofGroup}
    (hspare : SparesOthers lr (.deleteGroupEntry group))
    (hexec : poflrDeleteGroupEntry group lr = (.ok (), lr')) : CounterInv lr' := by
  rcases poflrDeleteGroupEntry_cases group lr with ⟨e, heq⟩ | ⟨old, lr₁, hold, hdel, heq⟩
  · cases heq.symm.trans hexec
  · cases heq.symm.trans hexec
    obtain ⟨hok, hkeep, htables, hgroups⟩ := poflrCounterDelete_spec h.ok hdel
    have hspare' := hspare old hold
    refine ⟨hok.of_eq rfl, ⟨?_, ?_⟩⟩
    · intro t ht e he hne
      have ht' : t ∈ lr.tableIdMap.nodes := htables ▸ ht
      exact hkeep _ hne (fun hc => (hspare' hc).1 t ht' e he) (h.owners.entries t ht' e he hne)
    · intro g hg hne
      rw [mapGroupDelete, Hmap.nodes_nodeDelete, hgroups, List.mem_filter, decide_eq_true_eq] at hg
      refine hkeep _ hne (fun hc heq => ?_) (h.owners.groups g hg.1 hne)
      exact hg.2 ((hspare' hc).2 g hg.1 heq)

/-- **A successful request whose deletions spare the other owners keeps the invariant.** -/
theorem CounterInv.step {op : LrOp} (h : CounterInv lr) (hmod : op.IsMod) (hfresh : op.Fresh lr)
    (hspare : SparesOthers lr op) (hexec : op.exec lr = some (.ok (), lr')) : CounterInv lr' := by
  cases op with
  | createFlowTable msg newAt =>
      rcases poflrCreateFlowTable_cases msg newAt lr with ⟨e, heq⟩ | ⟨type, _, heq⟩
      · cases heq.symm.trans (Option.some.inj hexec)
      · cases heq.symm.trans (Option.some.inj hexec)
        refine ⟨h.ok.of_eq rfl, ⟨?_, h.owners.groups⟩⟩
        intro t ht e he hne
        rcases List.mem_cons.1 ht with rfl | ht
        · simp [newTable] at he
        · exact h.owners.entries t ht e he hne
  | deleteFlowTable id type =>
      rcases poflrDeleteFlowTable_cases id type lr with ⟨e, heq⟩ | ⟨t, _, _, heq⟩
      · cases heq.symm.trans (Option.some.inj hexec)
      · cases heq.symm.trans (Option.some.inj hexec)
        refine ⟨h.ok.of_eq rfl, ⟨?_, h.owners.groups⟩⟩
        intro t' ht' e he hne
        rw [mapTableDelete, Hmap.nodes_nodeDelete] at ht'
        exact h.owners.entries t' (List.mem_of_mem_filter ht') e he hne
  | addFlowEntry flow entryAt counterAt => exact h.addFlowEntry hfresh hexec
  | modifyFlowEntry flow entryAt counterAt => exact h.modifyFlowEntry hfresh hexec
  | deleteFlowEntry flow => exact h.deleteFlowEntry hspare (Option.some.inj hexec)
  | addGroupEntry group groupAt counterAt => exact h.addGroupEntry hfresh (Option.some.inj hexec)
  | modifyGroupEntry group => exact h.modifyGroupEntry (Option.some.inj hexec)
  | deleteGroupEntry group => exact h.deleteGroupEntry hspare (Option.some.inj hexec)
  | _ => exact hmod.elim

end Step

/-! ### Runs -/

/-- **In every run of successful requests whose deletions spare the other owners, every stored entry
and every stored group with a counter identifier other than 0 has a counter, within the limit, in
every state reached.** -/
theorem ownersCounted_of_run {lr : LocalResource} (h : ModRun SparesOthers lr) : OwnersCounted lr := by
  have hinv : CounterInv lr := by
    induction h with
    | init cfg => exact counterInv_init cfg
    | step _ hmod hfresh hspare hexec ih => exact ih.step hmod hfresh hspare hexec
  exact hinv.owners

/-- Two entries of an exact-match table that name counter 5. -/
def sharedCounter : LocalResource :=
  (LrOp.addFlowEntry (oneFieldEntry 2 8 1 5 [2] []) 4 5).next
    ((LrOp.addFlowEntry (oneFieldEntry 2 8 0 5 [1] []) 2 3).next
      ((LrOp.createFlowTable (oneFieldTable 2 8) 1).next (pofLocalresourceInit smallConfig)))

theorem ModRun.next {Q : LocalResource → LrOp → Prop} {lr : LocalResource} (h : ModRun Q lr) (op : LrOp)
    (hmod : op.IsMod) (hfresh : op.Fresh lr) (hQ : Q lr op)
    (hexec : (op.exec lr).map Prod.fst = some (.ok ())) : ModRun Q (op.next lr) := by
  obtain ⟨⟨ret, lr'⟩, hr, hret⟩ := Option.map_eq_some_iff.1 hexec
  cases hret
  have hnext : op.next lr = lr' := by rw [LrOp.next, hr]
  rw [hnext]
  exact ModRun.step h hmod hfresh hQ hr

theorem sharedCounter_run (Q : LocalResource → LrOp → Prop)
    (hQ : ∀ lr flow a b, Q lr (.addFlowEntry flow a b)) (hQ' : ∀ lr msg a, Q lr (.createFlowTable msg a)) :
    ModRun Q sharedCounter :=
  (((ModRun.init smallConfig).next (.createFlowTable _ _) trivial (by decide) (hQ' _ _ _) rfl).next
    (.addFlowEntry _ _ _) trivial (by decide) (hQ _ _ _ _) rfl).next
    (.addFlowEntry _ _ _) trivial (by decide) (hQ _ _ _ _) rfl

/-- Both entries have their counter. -/
theorem ownersCounted_two : OwnersCounted sharedCounter :=
  ownersCounted_of_run (sharedCounter_run _ (fun _ _ _ _ => trivial) fun _ _ _ => trivial)

/-- When one of the two entries is deleted, the counter of the other one is gone. -/
theorem ownersCounted_shared : ¬ ∀ lr : LocalResource, ModRun (fun _ _ => True) lr → OwnersCounted lr := by
  intro hall
  have hrun := (sharedCounter_run (fun _ _ => True) (fun _ _ _ _ => trivial) fun _ _ _ => trivial).next
    (.deleteFlowEntry (oneFieldEntry 2 8 0 0 [] [])) trivial (by decide) trivial rfl
  obtain ⟨t, e, ht, he, hne, hno⟩ : ∃ t e, t ∈ ((LrOp.deleteFlowEntry (oneFieldEntry 2 8 0 0 [] [])).next
      sharedCounter).tableIdMap.nodes ∧ e ∈ t.entryMap.nodes ∧ e.counterId ≠ 0 ∧
      e.counterId ∉ ((LrOp.deleteFlowEntry (oneFieldEntry 2 8 0 0 [] [])).next sharedCounter).counterIds :=
    ⟨_, _, List.mem_cons_self, List.mem_cons_self, by decide, by decide⟩
  exact hno ((hall _ hrun).entries t ht e he hne).2

end PofSwitch
