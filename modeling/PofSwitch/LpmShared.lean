/-
**Longest-prefix matching without the promise of different prefixes.**

The tree of an LPM table is built from the number of ones of a mask and keeps one pointer for a
prefix.  Two things can go wrong.  A mask that is not a prefix puts the entry at a path that has
nothing to do with the bits the mask selects, and the lookup then returns entries that the scan of
the same function would not match.  And when two entries share a prefix, the removal of one of them
takes the only pointer out, so the other is in the map but no lookup finds it.

Main definitions:

* `PofSwitch.PrefixMasks` — the requests store prefix masks only;
* `PofSwitch.SparesPrefix` — the requests remove no entry whose prefix another entry has, unless they
  store an entry with that prefix again;
* `PofSwitch.PrefixTree`, `PofSwitch.SharedTree` — the invariants of such runs.

Main results:

* `PofSwitch.entryLookupLPM_maskMatch` — **with prefix masks, a lookup returns only entries the scan
  would match**;
* `PofSwitch.prefixes_kept` — **when the removals spare shared prefixes, the node of every stored
  prefix points to a stored entry with that prefix, and the tree counts the entries**.
-/

import PofSwitch.FlowTableLpm
import PofSwitch.FlowTableMm

set_option relaxedAutoImplicit false
set_option autoImplicit false

namespace PofSwitch

open Buf HmapNode

/-! ### Conditions on the requests -/

/-- The value and the mask assembled from a message for a table that takes it. -/
def Assembles (flow : PofFlowEntry) (t : TableInfo) (value mask : Buf) : Prop :=
  assembleLoop true (matchFields flow.match_ flow.matchFieldNum) 0 (Buf.zeros entryKeyBytes)
    (Buf.zeros entryKeyBytes) = some (t.keyLen, value, mask)

/-- Two values with masks stand for the same prefix. -/
def SamePrefix (value mask value' mask' : Buf) : Prop :=
  ∃ p, MaskPrefix mask p ∧ MaskPrefix mask' p ∧ ∀ i < p, value.bit i = value'.bit i

/-- Whatever the request stores in the LPM table with the global id `ID` has a prefix mask. -/
def PrefixMasks (ID : UInt8) (lr : LocalResource) (op : LrOp) : Prop :=
  ∀ flow t value mask, Stores lr op flow t → t.id = ID → t.type = .lpm →
    Assembles flow t value mask → ∃ p ≤ t.keyLen.toNat, MaskPrefix mask p

/-- When the request removes an entry of the LPM table with the global id `ID`, no other entry of the
table has the same prefix, or the request stores an entry with that prefix again. -/
def SparesPrefix (ID : UInt8) (lr : LocalResource) (op : LrOp) : Prop :=
  ∀ t old, Removes lr op t old → t.id = ID → t.type = .lpm →
    (∀ e ∈ t.entryMap.nodes, SamePrefix e.value e.mask old.value old.mask → e.addr = old.addr) ∨
      ∃ flow value mask, Stores lr op flow t ∧ Assembles flow t value mask ∧
        SamePrefix value mask old.value old.mask

section Paths

variable {t : TableInfo} {e e' : EntryInfo}

/-- Entries with prefix masks sit at the same path exactly when they have the same prefix. -/
theorem entryPath_eq_iff (he : HasPrefix t.keyLen.toNat e) (he' : HasPrefix t.keyLen.toNat e') :
    entryPath e t = entryPath e' t ↔ SamePrefix e.value e.mask e'.value e'.mask := by
  obtain ⟨p, hp, hmask⟩ := he
  obtain ⟨p', hp', hmask'⟩ := he'
  rw [entryPath_eq hmask hp, entryPath_eq hmask' hp', bitPath_eq_iff]
  constructor
  · rintro ⟨rfl, hbits⟩
    exact ⟨p, hmask, hmask', hbits⟩
  · rintro ⟨q, hq, hq', hbits⟩
    obtain rfl := hmask.unique hq
    obtain rfl := hmask'.unique hq'
    exact ⟨rfl, hbits⟩

theorem PrefixMatches.maskMatch {key : Buf} (h : PrefixMatches e key) (lenB : UInt16) :
    maskMatch e.mask e.value key lenB = true := by
  obtain ⟨p, hmask, hbits⟩ := h
  rw [maskMatch_iff]
  intro i _ hi
  rw [hmask, decide_eq_true_eq] at hi
  exact (hbits i hi).symm

theorem Filled.assembles {flow : PofFlowEntry} {newAt : ℕ} (h : Filled flow newAt t e)
    (htype : t.type = .lpm) : Assembles flow t e.value e.mask := by
  have hassembled := h.assembled (by rw [htype]; decide)
  rwa [htype, decide_eq_true (by decide)] at hassembled

end Paths

/-! ### Prefix masks -/

/-- The tree of an LPM table whose entries have prefix masks. -/
structure PrefixTree (t : TableInfo) : Prop where
  tree : LpmTree t
  contig_mask : ∀ e ∈ t.entryMap.nodes, HasPrefix t.keyLen.toNat e

section Masks

variable {t : TableInfo} {e : EntryInfo} {flow : PofFlowEntry} {newAt : ℕ}

theorem PrefixTree.entryLink (h : PrefixTree t) (htype : t.type = .lpm)
    (hfill : Filled flow newAt t e) (hfresh : ∀ b ∈ t.entryMap.nodes, b.addr ≠ newAt)
    (hmask : HasPrefix t.keyLen.toNat e) : PrefixTree (entryLink e t) where
  tree := h.tree.entryLink htype hfill hfresh hmask.bits_le
  contig_mask := by
    rw [nodes_entryLink, (sameShape_entryLink e t).keyLen_eq]
    exact List.forall_mem_cons.2 ⟨hmask, h.contig_mask⟩

theorem PrefixTree.entryDelete (h : PrefixTree t) (htype : t.type = .lpm)
    (he : e ∈ t.entryMap.nodes) : PrefixTree (entryDelete e t) where
  tree := h.tree.entryDelete htype (h.contig_mask e he).bits_le he
  contig_mask := by
    rw [(sameShape_entryDelete e t).keyLen_eq]
    exact fun b hb => h.contig_mask b ((mem_entryDelete b).1 hb).1

/-- **What a request does to a table keeps the tree pointing to stored entries**, when the masks that
are stored have no more ones than the tree has levels. -/
theorem LpmTree.change {M : EntryInfo → Prop} {lr : LocalResource} {op : LrOp} {t' : TableInfo}
    (h : LpmTree t) (hbits : ∀ e, M e → prefixBits e t ≤ t.keyLen.toNat)
    (hall : ∀ e ∈ t.entryMap.nodes, M e)
    (hnew : ∀ flow newAt e, Stores lr op flow t → Filled flow newAt t e → M e) (htype : t.type = .lpm)
    (hchange : OpChange lr op t t') : LpmTree t' ∧ ∀ e ∈ t'.entryMap.nodes, M e := by
  have hdelete : ∀ old ∈ t.entryMap.nodes,
      LpmTree (PofSwitch.entryDelete old t) ∧ ∀ e ∈ (PofSwitch.entryDelete old t).entryMap.nodes, M e :=
    fun old hold => ⟨h.entryDelete htype (hbits old (hall old hold)) hold,
      fun e he => hall e ((mem_entryDelete e).1 he).1⟩
  cases hchange with
  | same => exact ⟨h, hall⟩
  | insert ht hacc hfill hfresh =>
      have hM := hnew _ _ _ (Stores.add ht hacc) hfill
      refine ⟨h.entryLink htype hfill hfresh (hbits _ hM), ?_⟩
      rw [nodes_entryLink]
      exact List.forall_mem_cons.2 ⟨hM, hall⟩
  | delete _ hold _ => exact hdelete _ (poflrEntryGetWithIndex_mem hold)
  | lose _ hold _ _ => exact hdelete _ (poflrEntryGetWithIndex_mem hold)
  | @replace _ _ _ _ old entry ht hold hcounter hacc hfill hfresh =>
      obtain ⟨htree, hrest⟩ := hdelete old (poflrEntryGetWithIndex_mem hold)
      have hshape := sameShape_entryDelete old t
      have hM := hnew _ _ _ (Stores.modify ht hold hcounter hacc) (hfill.of_sameShape hshape)
      have hle := hbits entry hM
      rw [← prefixBits_congr hshape.keyLen_eq, ← hshape.keyLen_eq] at hle
      refine ⟨htree.entryLink (hshape.type_eq.trans htype) hfill hfresh hle, ?_⟩
      rw [nodes_entryLink]
      exact List.forall_mem_cons.2 ⟨hM, hrest⟩

/-- What a request does to a table keeps the masks prefixes. -/
theorem PrefixTree.change {ID : UInt8} {lr : LocalResource} {op : LrOp} {t' : TableInfo}
    (h : PrefixTree t) (hQ : PrefixMasks ID lr op) (hid : t.id = ID) (htype : t.type = .lpm)
    (hchange : OpChange lr op t t') : PrefixTree t' := by
  obtain ⟨htree, hmasks⟩ := h.tree.change (fun e he => HasPrefix.bits_le he) h.contig_mask
    (fun flow newAt e hstores hfill => hQ flow t _ _ hstores hid htype (hfill.assembles htype)) htype hchange
  rw [← hchange.tableChange.sameShape.keyLen_eq] at hmasks
  exact ⟨htree, hmasks⟩

end Masks

theorem prefixTree_of_path {ID : UInt8} {lr : LocalResource} (h : LrPath (PrefixMasks ID) lr) :
    ∀ t ∈ lr.tableIdMap.nodes, t.id = ID → t.type = .lpm → PrefixTree t := by
  refine LrPath.table_induction ?_ ?_ h
  · rintro _ _ _ _ _ ⟨msg, type, newAt, _, _, rfl⟩ _ htype
    obtain rfl : type = .lpm := htype
    exact ⟨lpmTree_newTable msg _ newAt, by simp [newTable]⟩
  · intro lr op t t' _ hQ _ hchange hI hid htype
    have hshape := hchange.tableChange.sameShape
    have hid₀ : t.id = ID := hshape.id_eq ▸ hid
    have htype₀ : t.type = .lpm := hshape.type_eq ▸ htype
    exact (hI hid₀ htype₀).change hQ hid₀ htype₀ hchange

/-- **In every run whose requests store prefix masks in the LPM table, an entry that a lookup returns
is one that the scan of the table would match.** -/
theorem entryLookupLPM_maskMatch {ID : UInt8} {lr : LocalResource} (h : LrPath (PrefixMasks ID) lr)
    {t : TableInfo} (ht : t ∈ lr.tableIdMap.nodes) (hid : t.id = ID) (htype : t.type = .lpm)
    {key : Buf} (hkey : key.length = bytenumCeil t.keyLen.toNat) {a : ℕ}
    (hlook : entryLookupLPM key t = some a) :
    ∃ e ∈ t.entryMap.nodes, e.addr = a ∧ maskMatch e.mask e.value key t.keyLen = true := by
  have hinv := prefixTree_of_path h t ht hid htype
  rw [entryLookupLPM_eq_walk hinv.tree hkey] at hlook
  obtain ⟨path, hpath, hget, _⟩ := Trie.exists_of_walk_eq_some hlook
  obtain ⟨e, he, hea, rfl⟩ := hinv.tree.get_sound path a hget
  have hmatch := (entryPath_prefix_iff (hinv.contig_mask e he) key).1 hpath
  exact ⟨e, he, hea, hmatch.maskMatch t.keyLen⟩

/-- A request with a default route: an entry with an empty prefix. -/
def defaultEntry (index : UInt32) : PofFlowEntry :=
  oneFieldEntry 1 8 index 0 (Buf.zeros 16) (Buf.zeros 16)

theorem mask_of_assembles_defaultEntry {index : UInt32} {t : TableInfo} {value mask : Buf}
    (h : Assembles (defaultEntry index) t value mask) : MaskPrefix mask 0 := by
  have hfields : matchFields (defaultEntry index).match_ (defaultEntry index).matchFieldNum =
      [⟨0, 0, 8, Buf.zeros 16, Buf.zeros 16⟩] := rfl
  have hzero : (assembleLoop true [⟨0, 0, 8, Buf.zeros 16, Buf.zeros 16⟩] 0 (Buf.zeros entryKeyBytes)
      (Buf.zeros entryKeyBytes)).map (fun r => r.2.2) = some (Buf.zeros entryKeyBytes) := by decide
  rw [Assembles, hfields] at h
  rw [h, Option.map_some, Option.some.injEq] at hzero
  obtain rfl : mask = Buf.zeros entryKeyBytes := hzero
  intro i
  rw [bit_zeros]
  simp

theorem prefixMasks_defaultEntry (ID : UInt8) (lr : LocalResource) (index : UInt32) (a c : ℕ) :
    PrefixMasks ID lr (.addFlowEntry (defaultEntry index) a c) ∧
      PrefixMasks ID lr (.modifyFlowEntry (defaultEntry index) a c) := by
  constructor
  · intro flow t value mask hstores _ _ hassembles
    cases hstores
    exact ⟨0, Nat.zero_le _, mask_of_assembles_defaultEntry hassembles⟩
  · intro flow t value mask hstores _ _ hassembles
    cases hstores
    exact ⟨0, Nat.zero_le _, mask_of_assembles_defaultEntry hassembles⟩

/-- An LPM table with two default routes under different indices. -/
def twoDefaults : LocalResource := (LrOp.addFlowEntry (defaultEntry 1) 4 5).next defaultRoute

theorem prefixMasks_defaultRoute (ID : UInt8) : LrPath (PrefixMasks ID) defaultRoute := by
  refine LrPath.next (LrPath.next (LrPath.init smallConfig) _ ?_ (by decide) rfl) _ ?_ (by decide) rfl
  · intro flow t value mask hstores
    cases hstores
  · exact (prefixMasks_defaultEntry ID _ 0 2 3).1

/-- An entry with one field of a byte whose mask is that of a prefix. -/
theorem prefixMasks_oneField {index : UInt32} {v m : UInt8} {p : ℕ} (hp : p ≤ 8)
    (hmask : ∀ k < 8, bitOf m k = decide (k < p))
    (hassembled : (assembleLoop true [⟨0, 0, 8, [v], [m]⟩] 0 (Buf.zeros entryKeyBytes)
      (Buf.zeros entryKeyBytes)).map (fun r => (r.1, r.2.2)) = some (8, m :: Buf.zeros 127))
    (ID : UInt8) (lr : LocalResource) (a c : ℕ) :
    PrefixMasks ID lr (.addFlowEntry (oneFieldEntry 1 8 index 0 [v] [m]) a c) := by
  intro flow t value mask hstores _ _ hassembles
  cases hstores
  have hfields : matchFields (oneFieldEntry 1 8 index 0 [v] [m]).match_
      (oneFieldEntry 1 8 index 0 [v] [m]).matchFieldNum = [⟨0, 0, 8, [v], [m]⟩] := rfl
  rw [Assembles, hfields] at hassembles
  rw [hassembles, Option.map_some, Option.some.injEq, Prod.mk.injEq] at hassembled
  obtain ⟨hlen, rfl⟩ := hassembled
  have hkey : t.keyLen = 8 := hlen
  refine ⟨p, ?_, maskPrefix_cons_zeros hp hmask 127⟩
  rw [hkey]
  exact hp

theorem prefixMasks_nestedRoutes (ID : UInt8) : LrPath (PrefixMasks ID) nestedRoutes := by
  have htable : LrPath (PrefixMasks ID)
      ((LrOp.createFlowTable (oneFieldTable 1 8) 1).next (pofLocalresourceInit smallConfig)) := by
    refine LrPath.next (LrPath.init smallConfig) _ ?_ (by decide) rfl
    intro flow t value mask hstores
    cases hstores
  have hlong := htable.next (.addFlowEntry (oneFieldEntry 1 8 0 0 [0xA0] [0xF0]) 2 3)
    (prefixMasks_oneField (p := 4) (by decide) (by decide) (by decide) ID _ 2 3) (by decide) rfl
  exact hlong.next (.addFlowEntry (oneFieldEntry 1 8 1 0 [0x80] [0xC0]) 4 5)
    (prefixMasks_oneField (p := 2) (by decide) (by decide) (by decide) ID _ 4 5) (by decide) rfl

/-- The key `a5` is found at the longer of its two prefixes, whose entry matches it. -/
theorem entryLookupLPM_maskMatch_nested : ∃ t ∈ nestedRoutes.tableIdMap.nodes,
    LrPath (PrefixMasks 1) nestedRoutes ∧ entryLookupLPM [0xA5] t = some 2 ∧
      ∃ e ∈ t.entryMap.nodes, e.addr = 2 ∧ maskMatch e.mask e.value [0xA5] t.keyLen = true := by
  obtain ⟨t, ht⟩ : ∃ t, nestedRoutes.tableIdMap.nodes = [t] := ⟨_, rfl⟩
  have hmem : t ∈ nestedRoutes.tableIdMap.nodes := by rw [ht]; simp
  have hfacts : ∀ t ∈ nestedRoutes.tableIdMap.nodes, t.id = 1 ∧ t.type = .lpm ∧ t.keyLen.toNat = 8 ∧
      entryLookupLPM [0xA5] t = some 2 := by decide
  obtain ⟨hid, htype, hlen, hlook⟩ := hfacts t hmem
  have hpath := prefixMasks_nestedRoutes 1
  exact ⟨t, hmem, hpath, hlook,
    entryLookupLPM_maskMatch hpath hmem hid htype (by rw [hlen]; rfl) hlook⟩

/-- An LPM table of one byte whose single entry has the mask `01`. -/
def lastBitRoute : LocalResource :=
  (LrOp.addFlowEntry (oneFieldEntry 1 8 0 0 [0x01] [0x01]) 2 3).next
    ((LrOp.createFlowTable (oneFieldTable 1 8) 1).next (pofLocalresourceInit smallConfig))

/-- The tree puts the entry at the first bit of its value, so the key `00` finds it. -/
theorem entryLookupLPM_not_maskMatch : ¬ ∀ (lr : LocalResource) (t : TableInfo) (key : Buf) (a : ℕ),
    LrReachable lr → t ∈ lr.tableIdMap.nodes → t.type = .lpm →
      key.length = bytenumCeil t.keyLen.toNat → entryLookupLPM key t = some a →
        ∃ e ∈ t.entryMap.nodes, e.addr = a ∧ maskMatch e.mask e.value key t.keyLen = true := by
  intro hall
  have hrun : LrReachable lastBitRoute :=
    ((LrRun.init smallConfig trivial).next _ (by decide) rfl trivial).next _ (by decide) rfl trivial
  obtain ⟨t, ht⟩ : ∃ t, lastBitRoute.tableIdMap.nodes = [t] := ⟨_, rfl⟩
  have hmem : t ∈ lastBitRoute.tableIdMap.nodes := by rw [ht]; simp
  have hfacts : ∀ t ∈ lastBitRoute.tableIdMap.nodes, t.type = .lpm ∧ t.keyLen.toNat = 8 ∧
      entryLookupLPM [0x00] t = some 2 ∧ ∀ e ∈ t.entryMap.nodes,
        maskMatch e.mask e.value [0x00] t.keyLen = false := by decide
  obtain ⟨htype, hlen, hlook, hno⟩ := hfacts t hmem
  obtain ⟨e, he, _, hmatch⟩ := hall _ t [0x00] 2 hrun hmem htype (by rw [hlen]; rfl) hlook
  rw [hno e he] at hmatch
  cases hmatch

/-! ### Shared prefixes -/

/-- The tree of an LPM table whose entries may share prefixes: the node of every stored prefix points
to an entry, and the tree counts the entries. -/
structure SharedTree (t : TableInfo) : Prop where
  prefixTree : PrefixTree t
  stored : ∀ e ∈ t.entryMap.nodes, t.tree.root.get (entryPath e t) ≠ none
  count_eq : t.tree.count = t.entryNum

section Shared

variable {t : TableInfo} {e old : EntryInfo} {flow : PofFlowEntry} {newAt : ℕ}

theorem count_entryLink (htype : t.type = .lpm) : (entryLink e t).tree.count = t.tree.count + 1 := by
  simp only [entryLink, htype, if_true, lpmInsert, treeNodeInsert]

/-- After an insertion every path that was in the tree is there, and so is that of the new entry. -/
theorem get_entryLink (h : PrefixTree t) (htype : t.type = .lpm) (hfill : Filled flow newAt t e)
    (hmask : HasPrefix t.keyLen.toNat e) (path : List Bool) :
    (entryLink e t).tree.root.get path =
      if path = entryPath e t then some e.addr else t.tree.root.get path := by
  rw [root_entryLink htype h.tree.root_ne hmask.bits_le hfill.length_value hfill.length_mask, Trie.get_insert]

theorem SharedTree.entryLink (h : SharedTree t) (htype : t.type = .lpm)
    (hfill : Filled flow newAt t e) (hfresh : ∀ b ∈ t.entryMap.nodes, b.addr ≠ newAt)
    (hmask : HasPrefix t.keyLen.toNat e) : SharedTree (entryLink e t) where
  prefixTree := h.prefixTree.entryLink htype hfill hfresh hmask
  stored := by
    intro b hb
    rw [entryPath_congr (sameShape_entryLink e t).keyLen_eq, get_entryLink h.prefixTree htype hfill hmask]
    split_ifs with hpath
    · simp
    · rw [nodes_entryLink] at hb
      rcases List.mem_cons.1 hb with rfl | hb
      · exact absurd rfl hpath
      · exact h.stored b hb
  count_eq := by
    rw [count_entryLink htype, entryNum_entryLink, h.count_eq]

/-- A removal takes the path of the entry out of the tree and counts down. -/
theorem SharedTree.count_entryDelete (h : SharedTree t) (htype : t.type = .lpm)
    (hold : old ∈ t.entryMap.nodes) :
    (PofSwitch.entryDelete old t).tree.count = (PofSwitch.entryDelete old t).entryNum := by
  obtain ⟨hv, hm⟩ := h.prefixTree.tree.lengths old hold
  rcases tree_entryDelete htype (h.prefixTree.contig_mask old hold).bits_le hv hm with ⟨_, hnone⟩ | htree
  · exact absurd hnone (h.stored old hold)
  · rw [htree, entryNum_entryDelete, h.count_eq]

/-- Entries with another prefix stay in the tree. -/
theorem SharedTree.stored_entryDelete (h : SharedTree t) (htype : t.type = .lpm)
    (hold : old ∈ t.entryMap.nodes) (he : e ∈ t.entryMap.nodes)
    (hpath : entryPath e t ≠ entryPath old t) :
    (PofSwitch.entryDelete old t).tree.root.get (entryPath e t) ≠ none := by
  obtain ⟨hv, hm⟩ := h.prefixTree.tree.lengths old hold
  rw [get_entryDelete htype (h.prefixTree.contig_mask old hold).bits_le hv hm, if_neg hpath]
  exact h.stored e he

/-- **The removal of an entry whose prefix no other entry has.** -/
theorem SharedTree.entryDelete (h : SharedTree t) (htype : t.type = .lpm)
    (hold : old ∈ t.entryMap.nodes)
    (halone : ∀ b ∈ t.entryMap.nodes, SamePrefix b.value b.mask old.value old.mask →
      b.addr = old.addr) : SharedTree (entryDelete old t) where
  prefixTree := h.prefixTree.entryDelete htype hold
  stored := by
    intro b hb
    obtain ⟨hb, hne⟩ := (mem_entryDelete b).1 hb
    rw [entryPath_congr (sameShape_entryDelete old t).keyLen_eq]
    refine h.stored_entryDelete htype hold hb fun hpath => hne (halone b hb ?_)
    have hmasks := h.prefixTree.contig_mask
    exact (entryPath_eq_iff (hmasks b hb) (hmasks old hold)).1 hpath
  count_eq := h.count_entryDelete htype hold

/-- **The replacement of an entry by one with the same prefix.** -/
theorem SharedTree.replace (h : SharedTree t) (htype : t.type = .lpm) (hold : old ∈ t.entryMap.nodes)
    (hfill : Filled flow newAt (PofSwitch.entryDelete old t) e)
    (hfresh : ∀ b ∈ (PofSwitch.entryDelete old t).entryMap.nodes, b.addr ≠ newAt)
    (hmask : HasPrefix t.keyLen.toNat e) (hsame : SamePrefix e.value e.mask old.value old.mask) :
    SharedTree (PofSwitch.entryLink e (PofSwitch.entryDelete old t)) := by
  have hkey := (sameShape_entryDelete old t).keyLen_eq
  have htype' := (sameShape_entryDelete old t).type_eq.trans htype
  have hmask' : HasPrefix (PofSwitch.entryDelete old t).keyLen.toNat e := hkey ▸ hmask
  have hdelete := h.prefixTree.entryDelete htype hold
  have hpath : entryPath e t = entryPath old t :=
    (entryPath_eq_iff hmask (h.prefixTree.contig_mask old hold)).2 hsame
  constructor
  case prefixTree => exact hdelete.entryLink htype' hfill hfresh hmask'
  case count_eq =>
    rw [count_entryLink htype', entryNum_entryLink, h.count_entryDelete htype hold]
  case stored =>
    intro b hb
    rw [entryPath_congr (sameShape_entryLink e _).keyLen_eq, get_entryLink hdelete htype' hfill hmask',
      entryPath_congr hkey, entryPath_congr hkey]
    split_ifs with hb'
    · simp
    · rw [nodes_entryLink] at hb
      rcases List.mem_cons.1 hb with rfl | hb
      · exact absurd rfl hb'
      · exact h.stored_entryDelete htype hold ((mem_entryDelete b).1 hb).1 (hpath ▸ hb')

/-- What a request does to a table keeps the stored prefixes in the tree. -/
theorem SharedTree.change {ID : UInt8} {lr : LocalResource} {op : LrOp} {t' : TableInfo}
    (h : SharedTree t) (hmasks : PrefixMasks ID lr op) (hspares : SparesPrefix ID lr op)
    (hid : t.id = ID) (htype : t.type = .lpm) (hchange : OpChange lr op t t') : SharedTree t' := by
  cases hchange with
  | same => exact h
  | insert ht hacc hfill hfresh =>
      exact h.entryLink htype hfill hfresh
        (hmasks _ t _ _ (Stores.add ht hacc) hid htype (hfill.assembles htype))
  | delete ht hold hcounter =>
      rcases hspares t _ (Removes.delete ht hold hcounter) hid htype with
        halone | ⟨_, _, _, hstores, _⟩
      · exact h.entryDelete htype (poflrEntryGetWithIndex_mem hold) halone
      · cases hstores
  | lose ht hold hcounter hrefuse =>
      rcases hspares t _ (Removes.modify ht hold hcounter) hid htype with
        halone | ⟨_, _, _, hstores, _⟩
      · exact h.entryDelete htype (poflrEntryGetWithIndex_mem hold) halone
      · cases hstores with
        | modify _ _ _ hacc => exact absurd hacc (Refuses.not_accepts hrefuse)
  | @replace flow _ _ _ old entry ht hold hcounter hacc hfill hfresh =>
      have hshape := sameShape_entryDelete old t
      have htype' := hshape.type_eq.trans htype
      have hassembles := (hfill.of_sameShape hshape).assembles htype
      have hmask := hmasks flow t _ _ (Stores.modify ht hold hcounter hacc) hid htype hassembles
      have hmem := poflrEntryGetWithIndex_mem hold
      rcases hspares t old (Removes.modify ht hold hcounter) hid htype with
        halone | ⟨_, value, mask, hstores, hassembles', hsame⟩
      · exact (h.entryDelete htype hmem halone).entryLink htype' hfill hfresh (hshape.keyLen_eq ▸ hmask)
      · cases hstores
        cases hassembles.symm.trans hassembles'
        exact h.replace htype hmem hfill hfresh hmask hsame

end Shared

/-- The requests store prefix masks and spare shared prefixes. -/
def PrefixRequests (ID : UInt8) (lr : LocalResource) (op : LrOp) : Prop :=
  PrefixMasks ID lr op ∧ SparesPrefix ID lr op

theorem sharedTree_of_path {ID : UInt8} {lr : LocalResource} (h : LrPath (PrefixRequests ID) lr) :
    ∀ t ∈ lr.tableIdMap.nodes, t.id = ID → t.type = .lpm → SharedTree t := by
  refine LrPath.table_induction ?_ ?_ h
  · rintro _ _ _ _ _ ⟨msg, type, newAt, _, _, rfl⟩ _ htype
    obtain rfl : type = .lpm := htype
    exact ⟨⟨lpmTree_newTable msg _ newAt, by simp [newTable]⟩, by simp [newTable], rfl⟩
  · intro lr op t t' _ hQ _ hchange hI hid htype
    have hshape := hchange.tableChange.sameShape
    have hid₀ : t.id = ID := hshape.id_eq ▸ hid
    have htype₀ : t.type = .lpm := hshape.type_eq ▸ htype
    exact (hI hid₀ htype₀).change hQ.1 hQ.2 hid₀ htype₀ hchange

/-- **In every run whose requests store prefix masks in the LPM table and spare shared prefixes, the
node of the prefix of every stored entry points to a stored entry with that prefix, so that every key
an entry matches is found, and the tree counts the entries.** -/
theorem prefixes_kept {ID : UInt8} {lr : LocalResource} (h : LrPath (PrefixRequests ID) lr)
    {t : TableInfo} (ht : t ∈ lr.tableIdMap.nodes) (hid : t.id = ID) (htype : t.type = .lpm) :
    (∀ e ∈ t.entryMap.nodes, ∃ e' ∈ t.entryMap.nodes,
      SamePrefix e.value e.mask e'.value e'.mask ∧
        t.tree.root.get (entryPath e t) = some e'.addr) ∧
      (∀ e ∈ t.entryMap.nodes, ∀ key : Buf, key.length = bytenumCeil t.keyLen.toNat →
        PrefixMatches e key → entryLookupLPM key t ≠ none) ∧
      t.tree.count = t.entryNum := by
  have hinv := sharedTree_of_path h t ht hid htype
  have hmasks := hinv.prefixTree.contig_mask
  refine ⟨fun e he => ?_, fun e he key hkey hmatch => ?_, hinv.count_eq⟩
  · obtain ⟨a, ha⟩ := Option.ne_none_iff_exists'.1 (hinv.stored e he)
    obtain ⟨e', he', rfl, hpath⟩ := hinv.prefixTree.tree.get_sound _ a ha
    exact ⟨e', he', (entryPath_eq_iff (hmasks e he) (hmasks e' he')).1 hpath.symm, ha⟩
  · rw [entryLookupLPM_eq_walk hinv.prefixTree.tree hkey, Ne, Trie.walk_eq_none_iff]
    intro hnone
    exact hinv.stored e he (hnone _ ((entryPath_prefix_iff (hmasks e he) key).2 hmatch))

/-- One of two default routes is modified and stays a default route. -/
theorem prefixes_kept_modified : ∃ lr, LrPath (PrefixRequests 1) lr ∧ ∃ t ∈ lr.tableIdMap.nodes,
    t.entryNum = 2 ∧ t.tree.count = t.entryNum := by
  have hdefault : ∀ t ∈ twoDefaults.tableIdMap.nodes, Accepts (defaultEntry 0) t ∧
      ∀ e ∈ t.entryMap.nodes, e.mask = Buf.zeros entryKeyBytes := by decide
  have htable : LrPath (PrefixRequests 1)
      ((LrOp.createFlowTable (oneFieldTable 1 8) 1).next (pofLocalresourceInit smallConfig)) := by
    refine (LrPath.init smallConfig).next _ ⟨?_, ?_⟩ (by decide) rfl
    · intro flow t value mask hstores
      cases hstores
    · intro t old hremoves
      cases hremoves
  have hone : LrPath (PrefixRequests 1) defaultRoute := by
    refine htable.next _ ⟨(prefixMasks_defaultEntry 1 _ 0 2 3).1, ?_⟩ (by decide) rfl
    intro t old hremoves
    cases hremoves
  have htwo : LrPath (PrefixRequests 1) twoDefaults := by
    refine hone.next _ ⟨(prefixMasks_defaultEntry 1 _ 1 4 5).1, ?_⟩ (by decide) rfl
    intro t old hremoves
    cases hremoves
  have hmod : LrPath (PrefixRequests 1)
      ((LrOp.modifyFlowEntry (defaultEntry 0) 6 7).next twoDefaults) := by
    refine htwo.next _ ⟨(prefixMasks_defaultEntry 1 _ 0 6 7).2, ?_⟩ (by decide) rfl
    intro t old hremoves _ _
    cases hremoves with
    | modify ht hold hcounter =>
        obtain ⟨hacc, hzero⟩ := hdefault t (flowModTable_mem ht)
        have hmask : MaskPrefix old.mask 0 := by
          rw [hzero old (poflrEntryGetWithIndex_mem hold)]
          intro i
          rw [bit_zeros]
          simp
        obtain ⟨hret, hlen⟩ := hacc.resolve_left (by simp_all)
        obtain ⟨value, mask, hloop⟩ := assembleLoop_returns true hret (Buf.zeros entryKeyBytes)
          (Buf.zeros entryKeyBytes)
        have hassembles : Assembles (defaultEntry 0) t value mask := by rw [Assembles, hloop, hlen]
        exact Or.inr ⟨defaultEntry 0, value, mask, Stores.modify ht hold hcounter hacc, hassembles,
          0, mask_of_assembles_defaultEntry hassembles, hmask, by simp⟩
  obtain ⟨t, ht⟩ : ∃ t, ((LrOp.modifyFlowEntry (defaultEntry 0) 6 7).next twoDefaults).tableIdMap.nodes =
    [t] := ⟨_, rfl⟩
  have hmem := ht ▸ List.mem_singleton_self t
  have hfacts : ∀ t ∈ ((LrOp.modifyFlowEntry (defaultEntry 0) 6 7).next twoDefaults).tableIdMap.nodes,
      t.id = 1 ∧ t.type = .lpm ∧ t.entryNum = 2 := by decide
  obtain ⟨hid, htype, hnum⟩ := hfacts t hmem
  exact ⟨_, hmod, t, hmem, hnum, (prefixes_kept hmod hmem hid htype).2.2⟩

/-- Of two default routes one is deleted; the other is stored and no longer in the tree. -/
theorem prefix_lost : ¬ ∀ (ID : UInt8) (lr : LocalResource) (t : TableInfo), LrPath (PrefixMasks ID) lr →
    t ∈ lr.tableIdMap.nodes → t.id = ID → t.type = .lpm →
      (∀ e ∈ t.entryMap.nodes, ∃ e' ∈ t.entryMap.nodes,
        SamePrefix e.value e.mask e'.value e'.mask ∧
          t.tree.root.get (entryPath e t) = some e'.addr) ∧ t.tree.count = t.entryNum := by
  intro hall
  have hpath : LrPath (PrefixMasks 1) ((LrOp.deleteFlowEntry (defaultEntry 0)).next twoDefaults) := by
    refine LrPath.next (LrPath.next (prefixMasks_defaultRoute 1) _ (prefixMasks_defaultEntry 1 _ 1 4 5).1
      (by decide) rfl) _ ?_ (by decide) rfl
    intro flow t value mask hstores
    cases hstores
  obtain ⟨t, ht⟩ : ∃ t, ((LrOp.deleteFlowEntry (defaultEntry 0)).next twoDefaults).tableIdMap.nodes =
    [t] := ⟨_, rfl⟩
  have hmem := ht ▸ List.mem_singleton_self t
  have hfacts : ∀ t ∈ ((LrOp.deleteFlowEntry (defaultEntry 0)).next twoDefaults).tableIdMap.nodes,
      t.id = 1 ∧ t.type = .lpm ∧ t.entryMap.nodes ≠ [] ∧
        ∀ e ∈ t.entryMap.nodes, t.tree.root.get (entryPath e t) = none := by decide
  obtain ⟨hid, htype, hne, hnone⟩ := hfacts t hmem
  obtain ⟨e, he⟩ := List.exists_mem_of_ne_nil _ hne
  obtain ⟨e', _, _, hget⟩ := (hall 1 _ t hpath hmem hid htype).1 e he
  rw [hnone e he] at hget
  cases hget

end PofSwitch
