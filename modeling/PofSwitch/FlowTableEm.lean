/-
**Exact-match tables: lookup by hash.**

`entryLookup_EM` hashes the key and takes the first entry of that hash.  It does not compare the
value of the entry with the key, as `entryLookup_MM` does through `maskMatch`, so a packet is matched
to an entry installed for another key when the two have the same 32-bit hash and no later entry of
that hash hides it.

Main definitions:

* `PofSwitch.EmInv` — the node of every entry carries the hash of its value;
* `PofSwitch.NewestCollides` — the most recent entry with the hash of the key is for another key.

Main results:

* `PofSwitch.entryLookupEM_exact_iff` — **a lookup is exact just when the newest entry of the key's
  hash does not collide with the key**;
* `PofSwitch.entryLookupEM_collision` — two keys of five bytes that collide.
-/

import PofSwitch.LrRun

set_option relaxedAutoImplicit false
set_option autoImplicit false

namespace PofSwitch

open HmapNode

/-! ### The hashes of the entries -/

/-- Every entry of an exact-match table is stored under the hash of its value. -/
def EmInv (t : TableInfo) : Prop :=
  t.type = .em → ∀ e ∈ t.entryMap.nodes, e.hash = entryHashByValue e.value t.keyLen

theorem EmInv.entryLink {t : TableInfo} (h : EmInv t) {flow : PofFlowEntry} {newAt : ℕ}
    {e : EntryInfo} (hfill : Filled flow newAt t e) : EmInv (PofSwitch.entryLink e t) := by
  have hshape := sameShape_entryLink e t
  intro htype e' he'
  rw [hshape.type_eq] at htype
  rw [hshape.keyLen_eq]
  rw [nodes_entryLink] at he'
  rcases List.mem_cons.1 he' with rfl | he'
  · rw [hfill.hash_eq, if_pos htype]
  · exact h htype e' he'

theorem EmInv.entryDelete {t : TableInfo} (h : EmInv t) (e : EntryInfo) :
    EmInv (PofSwitch.entryDelete e t) := by
  have hshape := sameShape_entryDelete e t
  intro htype e' he'
  rw [hshape.type_eq] at htype
  rw [hshape.keyLen_eq]
  rw [nodes_entryDelete] at he'
  exact h htype e' (List.mem_of_mem_filter he')

theorem EmInv.change {t t' : TableInfo} (h : EmInv t) (hchange : TableChange t t') : EmInv t' := by
  cases hchange with
  | same => exact h
  | insert hfill _ => exact h.entryLink hfill
  | delete _ => exact h.entryDelete _
  | replace _ hfill _ => exact (h.entryDelete _).entryLink hfill

theorem emInv_of_reachable {lr : LocalResource} (h : LrReachable lr) :
    ∀ t ∈ lr.tableIdMap.nodes, EmInv t := by
  refine LrReachable.table_induction ?_ ?_ h
  · intro msg type ID newAt _ _ e he
    simp [newTable] at he
  · intro t t' hchange hinv
    exact hinv.change hchange

/-! ### Lookup -/

/-- The assembled value bytes of an entry, as many as the key of the table has. -/
def valueBytes (t : TableInfo) (e : EntryInfo) : Buf := e.value.take (bytenumCeil t.keyLen.toNat)

/-- The stored value and the key have the same hash and are different. -/
def Collides (t : TableInfo) (key : Buf) (e : EntryInfo) : Prop :=
  entryHashByValue e.value t.keyLen = entryHashByValue key t.keyLen ∧ valueBytes t e ≠ key

/-- Of the entries whose value has the hash of the key, the most recently stored one collides with
the key. -/
def NewestCollides (t : TableInfo) (key : Buf) : Prop :=
  ∃ newer e older, t.entryMap.nodes = newer ++ e :: older ∧ Collides t key e ∧
    ∀ e' ∈ newer, entryHashByValue e'.value t.keyLen ≠ entryHashByValue key t.keyLen

/-- The lookup answers with the newest entry whose value has the hash of the key. -/
theorem entryLookupEM_eq_some_iff {t : TableInfo} (hinv : EmInv t) (htype : t.type = .em) {key : Buf}
    {e : EntryInfo} :
    entryLookupEM key t = some e ↔
      entryHashByValue e.value t.keyLen = entryHashByValue key t.keyLen ∧
        ∃ newer older, t.entryMap.nodes = newer ++ e :: older ∧
          ∀ e' ∈ newer, entryHashByValue e'.value t.keyLen ≠ entryHashByValue key t.keyLen := by
  have hhash := hinv htype
  rw [entryLookupEM, Hmap.nodeGetWithHash, List.find?_eq_some_iff_append]
  simp only [decide_eq_true_eq, Bool.not_eq_true', decide_eq_false_iff_not]
  constructor
  · rintro ⟨heq, newer, older, hnodes, hnewer⟩
    have he : e ∈ t.entryMap.nodes := by rw [hnodes]; simp
    refine ⟨(hhash e he).symm.trans heq, newer, older, hnodes, fun e' he' hcol => ?_⟩
    have hmem : e' ∈ t.entryMap.nodes := by rw [hnodes]; exact List.mem_append_left _ he'
    exact hnewer e' he' ((hhash e' hmem).trans hcol)
  · rintro ⟨heq, newer, older, hnodes, hnewer⟩
    have he : e ∈ t.entryMap.nodes := by rw [hnodes]; simp
    refine ⟨(hhash e he).trans heq, newer, older, hnodes, fun e' he' hcol => ?_⟩
    have hmem : e' ∈ t.entryMap.nodes := by rw [hnodes]; exact List.mem_append_left _ he'
    exact hnewer e' he' ((hhash e' hmem).symm.trans hcol)

/-- **In every reachable exact-match table the entry a lookup returns is for the key looked up, unless
the newest entry with the hash of the key collides with it.** -/
theorem entryLookupEM_exact_iff {lr : LocalResource} (h : LrReachable lr) {t : TableInfo}
    (ht : t ∈ lr.tableIdMap.nodes) (htype : t.type = .em) (key : Buf) :
    (∀ e, entryLookupEM key t = some e → valueBytes t e = key) ↔ ¬ NewestCollides t key := by
  have hinv := emInv_of_reachable h t ht
  constructor
  · rintro hexact ⟨newer, e, older, hnodes, ⟨heq, hne⟩, hnewer⟩
    exact hne (hexact e ((entryLookupEM_eq_some_iff hinv htype).2 ⟨heq, newer, older, hnodes, hnewer⟩))
  · intro hno e he
    obtain ⟨heq, newer, older, hnodes, hnewer⟩ := (entryLookupEM_eq_some_iff hinv htype).1 he
    by_contra hne
    exact hno ⟨newer, e, older, hnodes, ⟨heq, hne⟩, hnewer⟩

/-- An exact-match table of 40-bit keys with the single entry `80 00 00 00 00`. -/
def collidingEm : LocalResource :=
  (LrOp.addFlowEntry (oneFieldEntry 2 40 0 0 [0x80, 0, 0, 0, 0] []) 2 3).next
    ((LrOp.createFlowTable (oneFieldTable 2 40) 1).next (pofLocalresourceInit smallConfig))

theorem collidingEm_reachable : LrReachable collidingEm :=
  ((LrRun.init smallConfig trivial).next _ (by decide) rfl trivial).next _ (by decide) rfl trivial

/-- The entry is found for its own key. -/
theorem entryLookupEM_exact_own : ∃ t ∈ collidingEm.tableIdMap.nodes, ∃ e,
    entryLookupEM [0x80, 0, 0, 0, 0] t = some e ∧ valueBytes t e = [0x80, 0, 0, 0, 0] := by
  have hall : ∀ t ∈ collidingEm.tableIdMap.nodes, t.type = .em ∧
      (∀ e ∈ t.entryMap.nodes, valueBytes t e = [0x80, 0, 0, 0, 0]) ∧
      (entryLookupEM [0x80, 0, 0, 0, 0] t).isSome := by decide
  obtain ⟨t, ht⟩ : ∃ t, collidingEm.tableIdMap.nodes = [t] := ⟨_, rfl⟩
  have hmem : t ∈ collidingEm.tableIdMap.nodes := by rw [ht]; simp
  obtain ⟨htype, hvalue, hfound⟩ := hall t hmem
  have hno : ¬ NewestCollides t [0x80, 0, 0, 0, 0] := by
    rintro ⟨newer, e, older, hnodes, ⟨-, hne⟩, -⟩
    exact hne (hvalue e (by rw [hnodes]; simp))
  obtain ⟨e, he⟩ := Option.isSome_iff_exists.1 hfound
  exact ⟨t, hmem, e, he, (entryLookupEM_exact_iff collidingEm_reachable hmem htype _).2 hno e he⟩

/-- The key `00 00 00 00 80` has the words of `80 00 00 00 00` in the other order and is matched to
its entry. -/
theorem entryLookupEM_collision : ¬ ∀ (lr : LocalResource) (t : TableInfo) (key : Buf) (e : EntryInfo),
    LrReachable lr → t ∈ lr.tableIdMap.nodes → t.type = .em →
      key.length = bytenumCeil t.keyLen.toNat → entryLookupEM key t = some e →
        valueBytes t e = key := by
  intro hall
  obtain ⟨t, ht⟩ : ∃ t, collidingEm.tableIdMap.nodes = [t] := ⟨_, rfl⟩
  have hmem : t ∈ collidingEm.tableIdMap.nodes := by rw [ht]; simp
  have hfacts : ∀ t ∈ collidingEm.tableIdMap.nodes, t.type = .em ∧ t.keyLen.toNat = 40 ∧
      ((entryLookupEM [0, 0, 0, 0, 0x80] t).map (valueBytes t)) = some [0x80, 0, 0, 0, 0] := by decide
  obtain ⟨htype, hlen, hlook⟩ := hfacts t hmem
  obtain ⟨e, he, hvalue⟩ := Option.map_eq_some_iff.1 hlook
  have hkey : ([0, 0, 0, 0, 0x80] : Buf).length = bytenumCeil t.keyLen.toNat := by rw [hlen]; rfl
  have hsame := hall _ t _ e collidingEm_reachable hmem htype hkey he
  rw [hvalue] at hsame
  exact absurd hsame (by decide)

end PofSwitch
