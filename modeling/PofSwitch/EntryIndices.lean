/-
**The indices of the entries of a table.**

An entry is addressed by its index: a request to modify or delete takes the first entry of a
traversal that has the index of the message.  `poflr_add_flow_entry` is documented to reject an
entry that is already there, but it only compares the index with the size of the table, so the same
index can be added again and again.  In runs without such an addition the indices of a table are
different, and a table holds no more entries than its size says.

Main definitions:

* `PofSwitch.FreshIndex` — an addition that is not rejected for another reason brings a new index;
* `PofSwitch.IndicesOk` — the indices of a table are different and below its size.

Main results:

* `PofSwitch.indicesOk_of_path` — the invariant of runs;
* `PofSwitch.indices_of_path` — **in such runs the indices are different, the number of entries is at
  most the size of the table, and a known index is rejected.**
-/

import PofSwitch.LrStore

set_option relaxedAutoImplicit false
set_option autoImplicit false

namespace PofSwitch

open HmapNode

/-- An addition brings an index that the table does not have, unless it is rejected for another
reason. -/
def FreshIndex (lr : LocalResource) : LrOp → Prop
  | .addFlowEntry flow _ _ => ∀ t, flowModTable flow lr = .ok t → Accepts flow t →
      ∀ e ∈ t.entryMap.nodes, e.index ≠ flow.index
  | _ => True

/-- The indices of a table are different and below its size. -/
structure IndicesOk (t : TableInfo) : Prop where
  nodup : (t.entryMap.nodes.map EntryInfo.index).Nodup
  lt_size : ∀ e ∈ t.entryMap.nodes, e.index < t.size

section Step

variable {t : TableInfo} {e : EntryInfo}

theorem nodup_entryLink (h : (t.entryMap.nodes.map EntryInfo.index).Nodup)
    (hnew : ∀ b ∈ t.entryMap.nodes, b.index ≠ e.index) :
    ((entryLink e t).entryMap.nodes.map EntryInfo.index).Nodup := by
  rw [nodes_entryLink, List.map_cons, List.nodup_cons]
  refine ⟨fun hmem => ?_, h⟩
  obtain ⟨b, hb, hbe⟩ := List.mem_map.1 hmem
  exact hnew b hb hbe

theorem nodup_entryDelete (h : (t.entryMap.nodes.map EntryInfo.index).Nodup) (e : EntryInfo) :
    ((entryDelete e t).entryMap.nodes.map EntryInfo.index).Nodup := by
  rw [nodes_entryDelete]
  exact h.sublist (List.filter_sublist.map _)

/-- Once the entry is out, its index is free. -/
theorem IndicesOk.index_ne (h : IndicesOk t) (he : e ∈ t.entryMap.nodes) :
    ∀ b ∈ (PofSwitch.entryDelete e t).entryMap.nodes, b.index ≠ e.index := by
  intro b hb hbe
  rw [nodes_entryDelete, List.mem_filter, decide_eq_true_eq] at hb
  exact hb.2 (congrArg EntryInfo.addr (List.inj_on_of_nodup_map h.nodup hb.1 he hbe))

theorem flowModTable_index {flow : PofFlowEntry} {lr : LocalResource}
    (h : flowModTable flow lr = .ok t) : flow.index < t.size := by
  unfold flowModTable at h
  split at h
  · cases h
  · split_ifs at h
    split at h
    · cases h
    · split_ifs at h with hsize
      cases h
      exact UInt32.not_le.1 hsize

/-- What a request does to a table keeps the indices below the size. -/
theorem OpChange.index_lt {lr : LocalResource} {op : LrOp} {t' : TableInfo} (hchange : OpChange lr op t t')
    (h : ∀ e ∈ t.entryMap.nodes, e.index < t.size) : ∀ e ∈ t'.entryMap.nodes, e.index < t'.size := by
  intro e he
  rw [hchange.tableChange.sameShape.size_eq]
  have hdelete : ∀ {old : EntryInfo}, e ∈ (entryDelete old t).entryMap.nodes → e.index < t.size := by
    intro old hmem
    rw [nodes_entryDelete] at hmem
    exact h e (List.mem_of_mem_filter hmem)
  cases hchange with
  | same => exact h e he
  | insert ht _ hfill _ =>
      rw [nodes_entryLink] at he
      rcases List.mem_cons.1 he with rfl | he
      · rw [hfill.index_eq]
        exact flowModTable_index ht
      · exact h e he
  | delete _ _ _ => exact hdelete he
  | lose _ _ _ _ => exact hdelete he
  | replace ht _ _ _ hfill _ =>
      rw [nodes_entryLink] at he
      rcases List.mem_cons.1 he with rfl | he
      · rw [hfill.index_eq]
        exact flowModTable_index ht
      · exact hdelete he

/-- **What a request does to a table keeps the indices different.** -/
theorem IndicesOk.change {lr : LocalResource} {op : LrOp} {t' : TableInfo} (h : IndicesOk t)
    (hQ : FreshIndex lr op) (hchange : OpChange lr op t t') : IndicesOk t' where
  nodup := by
    cases hchange with
    | same => exact h.nodup
    | insert ht hacc hfill _ =>
        refine nodup_entryLink h.nodup fun b hb => ?_
        rw [hfill.index_eq]
        exact hQ t ht hacc b hb
    | delete _ _ _ => exact nodup_entryDelete h.nodup _
    | lose _ _ _ _ => exact nodup_entryDelete h.nodup _
    | replace _ hold _ _ hfill _ =>
        refine nodup_entryLink (nodup_entryDelete h.nodup _) fun b hb => ?_
        rw [hfill.index_eq, ← poflrEntryGetWithIndex_index hold]
        exact h.index_ne (poflrEntryGetWithIndex_mem hold) b hb
  lt_size := hchange.index_lt h.lt_size

/-- A table has at most as many entries as its size says. -/
theorem IndicesOk.entryNum_le (h : IndicesOk t) (hentries : EntriesOk t) : t.entryNum ≤ t.size := by
  have hle : t.entryMap.nodes.length ≤ t.size.toNat :=
    length_le_of_nodup_lt h.nodup fun e he => UInt32.lt_iff_toNat_lt.1 (h.lt_size e he)
  rw [UInt32.le_iff_toNat_le, hentries.entryNum_eq, hentries.wf.n_eq, UInt32.toNat_ofNat']
  exact (Nat.mod_le _ _).trans hle

end Step

theorem indicesOk_of_path {lr : LocalResource} (h : LrPath FreshIndex lr) :
    ∀ t ∈ lr.tableIdMap.nodes, IndicesOk t := by
  refine LrPath.table_induction ?_ (fun _ _ _ _ _ hQ _ hchange hI => hI.change hQ hchange) h
  rintro _ _ _ _ _ ⟨msg, type, newAt, _, _, rfl⟩
  constructor
  · exact List.nodup_nil
  · simp [newTable]

/-- **In every run whose additions bring new indices, the entries of every table have different
indices, their number is at most the size of the table, and an addition with a known index is
rejected and changes nothing.** -/
theorem indices_of_path {lr : LocalResource} (h : LrPath FreshIndex lr) :
    (∀ t ∈ lr.tableIdMap.nodes, (t.entryMap.nodes.map EntryInfo.index).Nodup ∧ t.entryNum ≤ t.size) ∧
      ∀ flow entryAt counterAt t ret lr', FreshIndex lr (.addFlowEntry flow entryAt counterAt) →
        flowModTable flow lr = .ok t → (∃ e ∈ t.entryMap.nodes, e.index = flow.index) →
        poflrAddFlowEntry flow entryAt counterAt lr = some (ret, lr') → ret ≠ .ok () ∧ lr' = lr := by
  constructor
  · intro t ht
    have hok := indicesOk_of_path h t ht
    exact ⟨hok.nodup, hok.entryNum_le (entriesOk_of_reachable h.reachable t ht)⟩
  · intro flow entryAt counterAt t ret lr' hfresh ht hknown hexec
    obtain ⟨e, he, hindex⟩ := hknown
    rcases poflrAddFlowEntry_cases flow entryAt counterAt lr with
      ⟨_, heq, _⟩ | ⟨_, _, _, _, heq⟩ | ⟨t', _, ht', hacc, _, _⟩
    · cases heq.symm.trans hexec
      exact ⟨by simp, rfl⟩
    · cases heq.symm.trans hexec
    · cases ht.symm.trans ht'
      exact absurd hindex (hfresh t ht hacc e he)

/-- A masked-match table after the addition of one entry. -/
def indexed : LocalResource :=
  (LrOp.addFlowEntry (oneFieldEntry 0 8 0 0 [0xA0] [0xF0]) 2 3).next
    ((LrOp.createFlowTable (oneFieldTable 0 8) 1).next (pofLocalresourceInit smallConfig))

/-- The table after the addition of another entry under another index. -/
def indexedTwice : LocalResource :=
  (LrOp.addFlowEntry (oneFieldEntry 0 8 1 0 [0xB0] [0xF0]) 4 5).next indexed

/-- Two entries, two indices. -/
theorem indices_of_path_two : LrPath FreshIndex indexedTwice ∧
    (∀ t ∈ indexedTwice.tableIdMap.nodes, t.entryMap.nodes.map EntryInfo.index = [1, 0]) ∧
    ∀ t ∈ indexedTwice.tableIdMap.nodes, (t.entryMap.nodes.map EntryInfo.index).Nodup ∧
      t.entryNum ≤ t.size := by
  have htable : LrPath FreshIndex ((LrOp.createFlowTable (oneFieldTable 0 8) 1).next
      (pofLocalresourceInit smallConfig)) :=
    (LrPath.init smallConfig).next (.createFlowTable (oneFieldTable 0 8) 1) trivial (by decide) rfl
  have hempty : ∀ t ∈ ((LrOp.createFlowTable (oneFieldTable 0 8) 1).next
      (pofLocalresourceInit smallConfig)).tableIdMap.nodes, t.entryMap.nodes = [] := by decide
  have hone : ∀ t ∈ indexed.tableIdMap.nodes, ∀ e ∈ t.entryMap.nodes, e.index ≠ 1 := by decide
  have hpath : LrPath FreshIndex indexed := by
    refine htable.next _ (fun t ht _ e he => ?_) (by decide) rfl
    rw [hempty t (flowModTable_mem ht)] at he
    simp at he
  have hpath' : LrPath FreshIndex indexedTwice :=
    hpath.next _ (fun t ht _ e he => hone t (flowModTable_mem ht) e he) (by decide) rfl
  exact ⟨hpath', by decide, (indices_of_path hpath').1⟩

/-- An entry is added twice under index 0. -/
theorem indices_added_twice : ¬ ∀ lr : LocalResource, LrReachable lr → ∀ t ∈ lr.tableIdMap.nodes,
    (t.entryMap.nodes.map EntryInfo.index).Nodup ∧ t.entryNum ≤ t.size := by
  intro hall
  have hrun : LrReachable ((LrOp.addFlowEntry (oneFieldEntry 0 8 0 0 [0xB0] [0xF0]) 4 5).next indexed) :=
    (((LrRun.init smallConfig trivial).next _ (by decide) rfl trivial).next _ (by decide) rfl
      trivial).next _ (by decide) rfl trivial
  obtain ⟨t, ht⟩ : ∃ t, ((LrOp.addFlowEntry (oneFieldEntry 0 8 0 0 [0xB0] [0xF0]) 4 5).next
    indexed).tableIdMap.nodes = [t] := ⟨_, rfl⟩
  have htwice : ∀ t ∈ ((LrOp.addFlowEntry (oneFieldEntry 0 8 0 0 [0xB0] [0xF0]) 4 5).next
      indexed).tableIdMap.nodes, t.entryMap.nodes.map EntryInfo.index = [0, 0] := by decide
  have hmem := ht ▸ List.mem_singleton_self t
  have hnodup := (hall _ hrun t hmem).1
  rw [htwice t hmem] at hnodup
  simp at hnodup

end PofSwitch
