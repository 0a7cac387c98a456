/-
**Longest-prefix matching.**

An LPM table keeps its entries in the hash map and their addresses in the bit tree.  As long as the
masks of the stored entries are contiguous prefixes and no two of them share a prefix, the tree is
exactly the map: it holds the address of an entry at the entry's prefix, and nothing else.  The
invariant survives additions, modifications and deletions, and a lookup then returns the entry with
the longest matching prefix.

Main definitions:

* `PofSwitch.MaskPrefix` — a mask of the first `p` bits;
* `PofSwitch.PrefixTable` — the entries of a table have prefix masks and different prefixes;
* `PofSwitch.LpmTree` — the tree points to stored entries, each at its prefix;
* `PofSwitch.LpmInv` — the tree and the map are in step.

Main results:

* `PofSwitch.LpmTree.entryLink`, `PofSwitch.LpmTree.entryDelete`, `PofSwitch.LpmInv.entryLink`,
  `PofSwitch.LpmInv.entryDelete` — insertion and deletion keep the invariants;
* `PofSwitch.lpmInv_of_run` — it holds in every state of a run;
* `PofSwitch.entryLookupLPM_longest` — **a lookup returns the stored entry with the longest matching
  prefix, and `NULL` exactly when no prefix matches**.
-/

import PofSwitch.LrRun

set_option relaxedAutoImplicit false
set_option autoImplicit false

namespace PofSwitch

open Buf HmapNode

/-! ### Prefix masks -/

/-- The mask of the first `p` bits. -/
def MaskPrefix (mask : Buf) (p : ℕ) : Prop := ∀ i, mask.bit i = decide (i < p)

theorem MaskPrefix.unique {mask : Buf} {p q : ℕ} (hp : MaskPrefix mask p) (hq : MaskPrefix mask q) :
    p = q := by
  rcases Nat.lt_trichotomy p q with h | h | h
  · have := (hp p).symm.trans (hq p)
    simp [h] at this
  · exact h
  · have := (hp q).symm.trans (hq q)
    simp [h] at this

theorem MaskPrefix.le_length {mask : Buf} {p : ℕ} (h : MaskPrefix mask p) : p ≤ 8 * mask.length := by
  by_contra hlt
  have hbit := h (p - 1)
  rw [bit_of_length_le (by omega)] at hbit
  simp at hbit
  omega

/-- The number of ones of a byte that starts with `c` ones. -/
theorem get1sCountInByte_prefix {v : UInt8} {c : ℕ} (hc : c ≤ 8)
    (h : ∀ k < 8, bitOf v k = decide (k < c)) : get1sCountInByte v = c := by
  have hv : v = u8 (0xff <<< (8 - c)) := by
    refine byte_ext fun k hk => ?_
    rw [h k hk, bitOf, testBit_u8, testBit_255_shiftLeft, ← Bool.decide_and, decide_eq_decide]
    omega
  subst hv
  have hall : ∀ c ≤ 8, get1sCountInByte (u8 (0xff <<< (8 - c))) = c := by decide
  exact hall c hc

/-- Counting the ones of a prefix mask gives the length of the prefix. -/
theorem get1sCountInBytes_prefix {mask : Buf} {p : ℕ} (h : MaskPrefix mask p) (n : ℕ) :
    get1sCountInBytes mask n = min p (8 * n) := by
  have hbyte : ∀ i, get1sCountInByte (mask.rd i) = min 8 (p - 8 * i) := by
    intro i
    refine get1sCountInByte_prefix (by omega) fun k hk => ?_
    rw [← bit_mul_add _ _ hk, h, decide_eq_decide]
    omega
  induction n with
  | zero => simp [get1sCountInBytes]
  | succ n ih =>
      rw [get1sCountInBytes] at ih ⊢
      rw [List.range_succ, List.map_append, List.sum_append, ih]
      simp only [List.map_cons, List.map_nil, List.sum_cons, List.sum_nil, hbyte]
      omega

theorem onesLoop_le (turns value : ℕ) : onesLoop turns value ≤ turns := by
  induction turns generalizing value with
  | zero => exact Nat.le_refl 0
  | succ turns ih =>
      rw [onesLoop]
      split_ifs
      · exact Nat.succ_le_succ (ih _)
      · exact Nat.zero_le _

/-- There are no more ones than bits. -/
theorem get1sCountInBytes_le (value : Buf) (n : ℕ) : get1sCountInBytes value n ≤ 8 * min n value.length := by
  induction n with
  | zero => simp [get1sCountInBytes]
  | succ n ih =>
      have hsum : get1sCountInBytes value (n + 1) = get1sCountInBytes value n + get1sCountInByte (value.rd n) := by
        simp [get1sCountInBytes, List.range_succ]
      have hbyte : get1sCountInByte (value.rd n) ≤ 8 := onesLoop_le 8 _
      rcases Nat.lt_or_ge n value.length with hlt | hge
      · omega
      · have hzero : get1sCountInByte (value.rd n) = 0 := by
          rw [rd_of_length_le hge]
          rfl
        omega

theorem bit_take_eq_and (b : Buf) (n i : ℕ) : Buf.bit (b.take n) i = (decide (i < 8 * n) && b.bit i) := by
  rw [bit, bit, rd, rd, List.getD_eq_getElem?_getD, List.getD_eq_getElem?_getD, List.getElem?_take]
  by_cases h : i < 8 * n
  · rw [if_pos (by omega)]
    simp [h]
  · rw [if_neg (by omega)]
    simp [h]

/-! ### Paths of entries -/

/-- Where the tree functions put an entry. -/
def entryPath (entry : EntryInfo) (table : TableInfo) : List Bool :=
  bitPath (prefixValue entry table) (prefixBits entry table)

/-- The entry has a prefix mask of at most `keyLen` bits. -/
def HasPrefix (keyLen : ℕ) (entry : EntryInfo) : Prop := ∃ p ≤ keyLen, MaskPrefix entry.mask p

/-- The entries of the table have prefix masks, and no two of them the same prefix. -/
structure PrefixTable (t : TableInfo) : Prop where
  contig_mask : ∀ e ∈ t.entryMap.nodes, HasPrefix t.keyLen.toNat e
  distinct : ∀ e ∈ t.entryMap.nodes, ∀ e' ∈ t.entryMap.nodes, ∀ p, MaskPrefix e.mask p →
    MaskPrefix e'.mask p → (∀ i < p, e.value.bit i = e'.value.bit i) → e = e'

section Paths

variable {e : EntryInfo} {t : TableInfo} {p : ℕ}

theorem prefixBits_eq (h : MaskPrefix e.mask p) (hp : p ≤ t.keyLen.toNat) : prefixBits e t = p := by
  rw [prefixBits, get1sCountInBytes_prefix h, bytenumCeil]
  omega

theorem entryPath_eq (h : MaskPrefix e.mask p) (hp : p ≤ t.keyLen.toNat) :
    entryPath e t = bitPath e.value p := by
  rw [entryPath, prefixBits_eq h hp, bitPath, bitPath]
  refine List.map_congr_left fun i hi => ?_
  rw [prefixValue, bit_take_eq_and, bytenumCeil]
  have hi := List.mem_range.1 hi
  simp only [Bool.and_eq_right_iff_imp, decide_eq_true_eq]
  omega

theorem HasPrefix.bits_le (h : HasPrefix t.keyLen.toNat e) : prefixBits e t ≤ t.keyLen.toNat := by
  obtain ⟨p, hp, hmask⟩ := h
  rw [prefixBits_eq hmask hp]
  exact hp

end Paths

/-! ### The invariant -/

/-- What the tree of an LPM table points to: every address in the tree is that of a stored entry, at
the path of the entry. -/
structure LpmTree (t : TableInfo) : Prop where
  wf : t.entryMap.Wf
  lengths : ∀ e ∈ t.entryMap.nodes, e.value.length = entryKeyBytes ∧ e.mask.length = entryKeyBytes
  root_ne : t.tree.root ≠ .nil
  depth : Trie.DepthLe t.keyLen.toNat t.tree.root
  get_sound : ∀ path a, t.tree.root.get path = some a →
    ∃ e ∈ t.entryMap.nodes, e.addr = a ∧ entryPath e t = path

/-- The tree and the map of an LPM table are in step. -/
structure LpmInv (t : TableInfo) : Prop where
  wf : t.entryMap.Wf
  lengths : ∀ e ∈ t.entryMap.nodes, e.value.length = entryKeyBytes ∧ e.mask.length = entryKeyBytes
  root_ne : t.tree.root ≠ .nil
  depth : Trie.DepthLe t.keyLen.toNat t.tree.root
  get_iff : ∀ path a, t.tree.root.get path = some a ↔
    ∃ e ∈ t.entryMap.nodes, e.addr = a ∧ entryPath e t = path

theorem LpmInv.lpmTree {t : TableInfo} (h : LpmInv t) : LpmTree t :=
  ⟨h.wf, h.lengths, h.root_ne, h.depth, fun path a => (h.get_iff path a).1⟩

theorem lpmTree_newTable (msg : PofFlowTable) (ID : UInt8) (newAt : ℕ) :
    LpmTree (newTable msg .lpm ID newAt) where
  wf := Hmap.wf_create _
  lengths := by simp [newTable]
  root_ne := by simp [newTable, treeCreate]
  depth := Trie.depthLe_node_nil _ _
  get_sound := by
    intro path a hget
    rcases path with _ | ⟨_ | _, path⟩ <;> simp [newTable, treeCreate, Trie.get] at hget

theorem LpmTree.lpmInv {t : TableInfo} (h : LpmTree t)
    (hget : ∀ e ∈ t.entryMap.nodes, t.tree.root.get (entryPath e t) = some e.addr) : LpmInv t := by
  refine ⟨h.wf, h.lengths, h.root_ne, h.depth, fun path a => ⟨h.get_sound path a, ?_⟩⟩
  rintro ⟨e, he, rfl, rfl⟩
  exact hget e he

section Step

variable {t : TableInfo} {e : EntryInfo}

theorem prefixBits_congr {t' : TableInfo} (h : t'.keyLen = t.keyLen) (e : EntryInfo) :
    prefixBits e t' = prefixBits e t := by
  rw [prefixBits, prefixBits, h]

/-- The path of an entry depends on the key length of the table only. -/
theorem entryPath_congr {t' : TableInfo} (h : t'.keyLen = t.keyLen) (e : EntryInfo) :
    entryPath e t' = entryPath e t := by
  rw [entryPath, entryPath, prefixValue, prefixValue, prefixBits_congr h, h]

/-- Entries with one path have one prefix. -/
theorem PrefixTable.eq_of_path (h : PrefixTable t) {e e' : EntryInfo} (he : e ∈ t.entryMap.nodes)
    (he' : e' ∈ t.entryMap.nodes) (hpath : entryPath e t = entryPath e' t) : e = e' := by
  obtain ⟨p, hp, hmask⟩ := h.contig_mask e he
  obtain ⟨p', hp', hmask'⟩ := h.contig_mask e' he'
  rw [entryPath_eq hmask hp, entryPath_eq hmask' hp', bitPath_eq_iff] at hpath
  obtain ⟨rfl, hbits⟩ := hpath
  exact h.distinct e he e' he' p hmask hmask' hbits

/-- The number of bits of a prefix in 32 bits, and the buffer that holds them. -/
theorem prefixBits_bounds (hbits : prefixBits e t ≤ t.keyLen.toNat)
    (hv : e.value.length = entryKeyBytes) (hm : e.mask.length = entryKeyBytes) :
    (UInt32.ofNat (prefixBits e t)).toNat = prefixBits e t ∧
      prefixBits e t ≤ 8 * (prefixValue e t).length ∧ prefixBits e t < 2 ^ 31 := by
  have hmax := t.keyLen.toNat_lt
  have hcount := get1sCountInBytes_le e.mask (bytenumCeil t.keyLen.toNat)
  refine ⟨UInt32.toNat_ofNat_of_lt' ?_, ?_, by omega⟩
  · simp only [UInt32.size]
    omega
  · rw [prefixValue, List.length_take, hv, ← hm]
    exact hcount

/-- The tree after an insertion. -/
theorem root_entryLink (htype : t.type = .lpm) (hroot : t.tree.root ≠ .nil)
    (hbits : prefixBits e t ≤ t.keyLen.toNat) (hv : e.value.length = entryKeyBytes)
    (hm : e.mask.length = entryKeyBytes) :
    (entryLink e t).tree.root = t.tree.root.insert e.addr (entryPath e t) := by
  obtain ⟨hto, hle, hmax⟩ := prefixBits_bounds hbits hv hm
  simp only [entryLink, htype, if_true, lpmInsert, treeNodeInsert]
  change insertLoop e.addr (UInt32.ofNat (prefixBits e t)).toNat t.tree.root (prefixValue e t) = _
  rw [entryPath, hto, insertLoop_eq _ hroot hle hmax]

/-- The tree after a deletion: the value at the path of the entry is gone.  Where nothing is stored,
the tree stays as it is, or a node without an entry is taken out. -/
theorem tree_entryDelete (htype : t.type = .lpm) (hbits : prefixBits e t ≤ t.keyLen.toNat)
    (hv : e.value.length = entryKeyBytes) (hm : e.mask.length = entryKeyBytes) :
    (entryDelete e t).tree = t.tree ∧ t.tree.root.get (entryPath e t) = none ∨
      (entryDelete e t).tree = { root := t.tree.root.remove (entryPath e t), count := t.tree.count - 1 } := by
  obtain ⟨hto, hle, hmax⟩ := prefixBits_bounds hbits hv hm
  have htree : (entryDelete e t).tree =
      treeNodeDelete t.tree (prefixValue e t) (UInt32.ofNat (prefixBits e t)) := by
    simp only [entryDelete, htype, if_true]
    rfl
  rw [htree, treeNodeDelete, entryPath, hto]
  cases hrem : removeLoop true (prefixBits e t) t.tree.root (prefixValue e t) with
  | none => exact Or.inl ⟨rfl, get_eq_none_of_removeLoop hle hmax hrem⟩
  | some root =>
      rw [removeLoop_eq_some hle hmax hrem]
      exact Or.inr rfl

theorem get_entryDelete (htype : t.type = .lpm) (hbits : prefixBits e t ≤ t.keyLen.toNat)
    (hv : e.value.length = entryKeyBytes) (hm : e.mask.length = entryKeyBytes) (path : List Bool) :
    (entryDelete e t).tree.root.get path =
      if path = entryPath e t then none else t.tree.root.get path := by
  rcases tree_entryDelete htype hbits hv hm with ⟨heq, hnone⟩ | heq
  · rw [heq]
    split_ifs with hpath
    · rw [hpath, hnone]
    · rfl
  · rw [heq, Trie.get_remove]

theorem mem_entryDelete (e' : EntryInfo) : e' ∈ (entryDelete e t).entryMap.nodes ↔
    e' ∈ t.entryMap.nodes ∧ e'.addr ≠ e.addr := by
  rw [nodes_entryDelete, List.mem_filter, decide_eq_true_eq]
  rfl

/-- **Inserting an entry with no more ones in its mask than the key has bits keeps the tree pointing to
stored entries.** -/
theorem LpmTree.entryLink (h : LpmTree t) (htype : t.type = .lpm) {flow : PofFlowEntry} {newAt : ℕ}
    (hfill : Filled flow newAt t e) (hfresh : ∀ e' ∈ t.entryMap.nodes, e'.addr ≠ newAt)
    (hbits : prefixBits e t ≤ t.keyLen.toNat) : LpmTree (entryLink e t) := by
  have hkey : (PofSwitch.entryLink e t).keyLen = t.keyLen := (sameShape_entryLink e t).keyLen_eq
  have hroot := root_entryLink htype h.root_ne hbits hfill.length_value hfill.length_mask
  constructor
  case wf =>
    rw [entryMap_entryLink]
    exact h.wf.nodeInsert fun b hb hba => hfresh b hb (hba.trans hfill.addr_eq)
  case lengths =>
    intro e' he'
    rw [nodes_entryLink] at he'
    rcases List.mem_cons.1 he' with rfl | he'
    · exact ⟨hfill.length_value, hfill.length_mask⟩
    · exact h.lengths e' he'
  case root_ne =>
    rw [hroot]
    exact Trie.insert_ne_nil _ _ _
  case depth =>
    rw [hroot, hkey]
    refine h.depth.insert _ ?_
    rw [entryPath, length_bitPath]
    exact hbits
  case get_sound =>
    intro path a
    rw [hroot, Trie.get_insert, nodes_entryLink]
    simp only [entryPath_congr hkey]
    split_ifs with hpath
    · intro ha
      exact ⟨e, List.mem_cons_self, Option.some.inj ha, hpath.symm⟩
    · intro ha
      obtain ⟨e', he', hea, hpath'⟩ := h.get_sound path a ha
      exact ⟨e', List.mem_cons_of_mem _ he', hea, hpath'⟩

/-- **Deleting an entry keeps the tree pointing to stored entries.** -/
theorem LpmTree.entryDelete (h : LpmTree t) (htype : t.type = .lpm)
    (hbits : prefixBits e t ≤ t.keyLen.toNat) (he : e ∈ t.entryMap.nodes) : LpmTree (entryDelete e t) := by
  have hkey : (PofSwitch.entryDelete e t).keyLen = t.keyLen := (sameShape_entryDelete e t).keyLen_eq
  obtain ⟨hv, hm⟩ := h.lengths e he
  have htree := tree_entryDelete htype hbits hv hm
  constructor
  case wf =>
    rw [entryMap_entryDelete]
    exact h.wf.nodeDelete _
  case lengths =>
    intro e' he'
    exact h.lengths e' ((mem_entryDelete e').1 he').1
  case root_ne =>
    rcases htree with ⟨heq, _⟩ | heq
    · rw [heq]
      exact h.root_ne
    · rw [heq]
      exact Trie.remove_ne_nil h.root_ne _
  case depth =>
    rw [hkey]
    rcases htree with ⟨heq, _⟩ | heq
    · rw [heq]
      exact h.depth
    · rw [heq]
      exact h.depth.remove _
  case get_sound =>
    intro path a
    rw [get_entryDelete htype hbits hv hm]
    simp only [mem_entryDelete, entryPath_congr hkey]
    split_ifs with hpath
    · intro hnone
      cases hnone
    · intro ha
      obtain ⟨e', he', hea, hpath'⟩ := h.get_sound path a ha
      refine ⟨e', ⟨he', fun hne => hpath ?_⟩, hea, hpath'⟩
      have heq : e' = e := List.inj_on_of_nodup_map h.wf.nodup he' he hne
      rw [← hpath', heq]

/-- **Inserting an entry keeps the tree and the map in step.** -/
theorem LpmInv.entryLink (h : LpmInv t) (htype : t.type = .lpm) {flow : PofFlowEntry} {newAt : ℕ}
    (hfill : Filled flow newAt t e) (hfresh : ∀ e' ∈ t.entryMap.nodes, e'.addr ≠ newAt)
    (hcontig : PrefixTable (entryLink e t)) : LpmInv (entryLink e t) := by
  have hkey : (PofSwitch.entryLink e t).keyLen = t.keyLen := (sameShape_entryLink e t).keyLen_eq
  have hself : e ∈ (PofSwitch.entryLink e t).entryMap.nodes := by simp
  have hmask : HasPrefix t.keyLen.toNat e := hkey ▸ hcontig.contig_mask e hself
  have hroot := root_entryLink htype h.root_ne hmask.bits_le hfill.length_value hfill.length_mask
  refine (h.lpmTree.entryLink htype hfill hfresh hmask.bits_le).lpmInv fun e' he' => ?_
  rw [hroot, Trie.get_insert, entryPath_congr hkey]
  split_ifs with hpath
  · have heq := hcontig.eq_of_path hself he' (by rw [entryPath_congr hkey, entryPath_congr hkey, hpath])
    rw [heq]
  · rw [nodes_entryLink] at he'
    rcases List.mem_cons.1 he' with rfl | he'
    · exact absurd rfl hpath
    · exact (h.get_iff _ _).2 ⟨e', he', rfl, rfl⟩

/-- **Deleting an entry keeps the tree and the map in step.** -/
theorem LpmInv.entryDelete (h : LpmInv t) (htype : t.type = .lpm) (hcontig : PrefixTable t)
    (he : e ∈ t.entryMap.nodes) : LpmInv (entryDelete e t) := by
  have hkey : (PofSwitch.entryDelete e t).keyLen = t.keyLen := (sameShape_entryDelete e t).keyLen_eq
  obtain ⟨hv, hm⟩ := h.lengths e he
  have hbits := (hcontig.contig_mask e he).bits_le
  refine (h.lpmTree.entryDelete htype hbits he).lpmInv fun e' he' => ?_
  obtain ⟨he', hne⟩ := (mem_entryDelete e').1 he'
  rw [get_entryDelete htype hbits hv hm, entryPath_congr hkey, if_neg]
  · exact (h.get_iff _ _).2 ⟨e', he', rfl, rfl⟩
  · intro hpath
    exact hne (congrArg EntryInfo.addr (hcontig.eq_of_path he' he hpath))

end Step

theorem PrefixTable.entryDelete {t : TableInfo} (h : PrefixTable t) (e : EntryInfo) :
    PrefixTable (entryDelete e t) := by
  have hsub : ∀ e' ∈ (PofSwitch.entryDelete e t).entryMap.nodes, e' ∈ t.entryMap.nodes := by
    intro e' he'
    rw [nodes_entryDelete] at he'
    exact List.mem_of_mem_filter he'
  constructor
  · intro e' he'
    rw [(sameShape_entryDelete e t).keyLen_eq]
    exact h.contig_mask e' (hsub e' he')
  · intro e₁ he₁ e₂ he₂
    exact h.distinct e₁ (hsub e₁ he₁) e₂ (hsub e₂ he₂)

/-! ### Runs and lookups -/

/-- What a run may put into the table with the global id `ID`: if it is an LPM table, entries with
prefix masks and different prefixes. -/
def PrefixRun (ID : UInt8) (lr : LocalResource) : Prop :=
  ∀ t ∈ lr.tableIdMap.nodes, t.id = ID → t.type = .lpm → PrefixTable t

/-- The tree and the map are in step in every state of a run. -/
theorem lpmInv_of_run {ID : UInt8} {lr : LocalResource} (h : LrRun (PrefixRun ID) lr) :
    ∀ t ∈ lr.tableIdMap.nodes, t.id = ID → t.type = .lpm → LpmInv t := by
  refine LrRun.table_induction (Q := fun t => t.id = ID → t.type = .lpm → PrefixTable t) ?_ ?_ h
  · intro msg type ID' newAt _ _ htype
    have htype : type = .lpm := htype
    subst htype
    exact (lpmTree_newTable msg ID' newAt).lpmInv (by simp [newTable])
  · intro t t' hchange hQ hQ' hI hid htype
    have hshape := hchange.sameShape
    have hid₀ : t.id = ID := hshape.id_eq ▸ hid
    have htype₀ : t.type = .lpm := hshape.type_eq ▸ htype
    have hinv := hI hid₀ htype₀
    cases hchange with
    | same => exact hinv
    | insert hfill hfresh => exact hinv.entryLink htype₀ hfill hfresh (hQ' hid htype)
    | delete hold => exact hinv.entryDelete htype₀ (hQ hid₀ htype₀) hold
    | @replace old _ _ _ hold hfill hfresh =>
        have htype₁ := (sameShape_entryDelete old t).type_eq.trans htype₀
        exact (hinv.entryDelete htype₀ (hQ hid₀ htype₀) hold).entryLink htype₁ hfill hfresh
          (hQ' hid htype)

/-- The prefix of the entry matches the key. -/
def PrefixMatches (e : EntryInfo) (key : Buf) : Prop :=
  ∃ p, MaskPrefix e.mask p ∧ ∀ i < p, e.value.bit i = key.bit i

/-- An entry matches a key when its path is a prefix of the key. -/
theorem entryPath_prefix_iff {t : TableInfo} {e : EntryInfo} (he : HasPrefix t.keyLen.toNat e)
    (key : Buf) : entryPath e t <+: bitPath key t.keyLen.toNat ↔ PrefixMatches e key := by
  obtain ⟨p, hp, hmask⟩ := he
  rw [entryPath_eq hmask hp, bitPath_prefix_iff hp]
  constructor
  · intro hbits
    exact ⟨p, hmask, hbits⟩
  · rintro ⟨p', hmask', hbits⟩
    obtain rfl := hmask.unique hmask'
    exact hbits

/-- A lookup is the longest-prefix walk of the tree along the key. -/
theorem entryLookupLPM_eq_walk {t : TableInfo} (h : LpmTree t) {key : Buf}
    (hkey : key.length = bytenumCeil t.keyLen.toNat) :
    entryLookupLPM key t = t.tree.root.walk (bitPath key t.keyLen.toNat) := by
  have hto : t.keyLen.toUInt32.toNat = t.keyLen.toNat := UInt16.toNat_toUInt32 _
  have hmax := t.keyLen.toNat_lt
  rw [entryLookupLPM, lpmLookup, treeNodeLookup, lookupLoop_eq, hto, Option.or_none]
  · rw [hto]
    exact h.depth
  · rw [hto, hkey, bytenumCeil]
    omega
  · rw [hto]
    omega

/-- **In every state of a run in which the entries of the LPM table have prefix masks and different
prefixes, a lookup returns the stored entry whose prefix matches the key and is longest, and `NULL`
exactly when no stored prefix matches.** -/
theorem entryLookupLPM_longest {ID : UInt8} {lr : LocalResource} (h : LrRun (PrefixRun ID) lr)
    {t : TableInfo} (ht : t ∈ lr.tableIdMap.nodes) (hid : t.id = ID) (htype : t.type = .lpm)
    {key : Buf} (hkey : key.length = bytenumCeil t.keyLen.toNat) :
    (∀ a, entryLookupLPM key t = some a → ∃ e ∈ t.entryMap.nodes, e.addr = a ∧ PrefixMatches e key ∧
      ∀ e' ∈ t.entryMap.nodes, PrefixMatches e' key → ∀ p p', MaskPrefix e.mask p →
        MaskPrefix e'.mask p' → p' ≤ p) ∧
      (entryLookupLPM key t = none ↔ ∀ e ∈ t.entryMap.nodes, ¬ PrefixMatches e key) := by
  have hinv := lpmInv_of_run h t ht hid htype
  have hcontig := h.holds t ht hid htype
  rw [entryLookupLPM_eq_walk hinv.lpmTree hkey]
  constructor
  · intro a ha
    obtain ⟨path, hpath, hget, hlongest⟩ := Trie.exists_of_walk_eq_some ha
    obtain ⟨e, he, hea, rfl⟩ := (hinv.get_iff path a).1 hget
    refine ⟨e, he, hea, (entryPath_prefix_iff (hcontig.contig_mask e he) key).1 hpath, ?_⟩
    intro e' he' hmatch p p' hp hp'
    -- the entry `e'` sits in the tree at a prefix of the key
    have hin : t.tree.root.get (entryPath e' t) = some e'.addr :=
      (hinv.get_iff _ _).2 ⟨e', he', rfl, rfl⟩
    have hle := hlongest _ ((entryPath_prefix_iff (hcontig.contig_mask e' he') key).2 hmatch) (by simp [hin])
    obtain ⟨q, hq, hmask⟩ := hcontig.contig_mask e he
    obtain ⟨q', hq', hmask'⟩ := hcontig.contig_mask e' he'
    rw [entryPath_eq hmask hq, entryPath_eq hmask' hq', length_bitPath, length_bitPath] at hle
    rw [hp.unique hmask, hp'.unique hmask']
    exact hle
  · rw [Trie.walk_eq_none_iff]
    constructor
    · intro hnone e he hmatch
      have hin := (hinv.get_iff (entryPath e t) e.addr).2 ⟨e, he, rfl, rfl⟩
      rw [hnone _ ((entryPath_prefix_iff (hcontig.contig_mask e he) key).2 hmatch)] at hin
      cases hin
    · intro hno path hpath
      cases hget : t.tree.root.get path with
      | none => rfl
      | some a =>
          obtain ⟨e, he, _, rfl⟩ := (hinv.get_iff path a).1 hget
          exact absurd ((entryPath_prefix_iff (hcontig.contig_mask e he) key).1 hpath) (hno e he)

/-- An LPM table with a default route: a single entry with an empty prefix. -/
def defaultRoute : LocalResource :=
  (LrOp.addFlowEntry (oneFieldEntry 1 8 0 0 (Buf.zeros 16) (Buf.zeros 16)) 2 3).next
    ((LrOp.createFlowTable (oneFieldTable 1 8) 1).next (pofLocalresourceInit smallConfig))

/-- An LPM table with the prefixes `1010` and `10`. -/
def nestedRoutes : LocalResource :=
  (LrOp.addFlowEntry (oneFieldEntry 1 8 1 0 [0x80] [0xC0]) 4 5).next
    ((LrOp.addFlowEntry (oneFieldEntry 1 8 0 0 [0xA0] [0xF0]) 2 3).next
      ((LrOp.createFlowTable (oneFieldTable 1 8) 1).next (pofLocalresourceInit smallConfig)))

theorem maskPrefix_cons_zeros {b : UInt8} {p : ℕ} (hp : p ≤ 8) (h : ∀ k < 8, bitOf b k = decide (k < p))
    (n : ℕ) : MaskPrefix (b :: Buf.zeros n) p := by
  intro i
  rcases Nat.lt_or_ge i 8 with hi | hi
  · rw [bit, Nat.div_eq_of_lt hi, Nat.mod_eq_of_lt hi]
    exact h i hi
  · obtain ⟨q, hq⟩ : ∃ q, i / 8 = q + 1 := ⟨i / 8 - 1, by omega⟩
    have hbyte : Buf.rd (b :: Buf.zeros n) (q + 1) = Buf.rd (Buf.zeros n) q := rfl
    rw [bit, hq, hbyte, rd_zeros, bitOf_zero, eq_comm, decide_eq_false_iff_not]
    omega

/-- The two masks of the table. -/
def nestedMasks : List (Buf × ℕ) := [(0xF0 :: Buf.zeros 127, 4), (0xC0 :: Buf.zeros 127, 2)]

theorem maskPrefix_nestedMasks : ∀ m ∈ nestedMasks, m.2 ≤ 8 ∧ MaskPrefix m.1 m.2 := by
  simp only [nestedMasks, List.forall_mem_cons, List.not_mem_nil, false_implies, implies_true, and_true]
  exact ⟨⟨by decide, maskPrefix_cons_zeros (by decide) (by decide) 127⟩,
    ⟨by decide, maskPrefix_cons_zeros (by decide) (by decide) 127⟩⟩

/-- A table whose entries have one of the masks each, and no two the same, has different prefixes. -/
theorem prefixRun_of_nestedMasks {lr : LocalResource}
    (h : ∀ t ∈ lr.tableIdMap.nodes, t.keyLen.toNat = 8 ∧ (t.entryMap.nodes.map EntryInfo.mask).Nodup ∧
      ∀ e ∈ t.entryMap.nodes, ∃ m ∈ nestedMasks, e.mask = m.1) (ID : UInt8) : PrefixRun ID lr := by
  intro t ht _ _
  obtain ⟨hlen, hnodup, hmasks⟩ := h t ht
  refine ⟨fun e he => ?_, fun e he e' he' p hp hp' _ => ?_⟩
  · obtain ⟨m, hm, hmask⟩ := hmasks e he
    obtain ⟨hle, hprefix⟩ := maskPrefix_nestedMasks m hm
    exact ⟨m.2, hlen ▸ hle, hmask ▸ hprefix⟩
  · obtain ⟨m, hm, hmask⟩ := hmasks e he
    obtain ⟨m', hm', hmask'⟩ := hmasks e' he'
    -- the two masks are for prefixes of different lengths
    have hdiffer : ∀ a ∈ nestedMasks, ∀ b ∈ nestedMasks, a.2 = b.2 → a = b := by decide
    have hsame : m = m' := by
      refine hdiffer m hm m' hm' ?_
      rw [hmask] at hp
      rw [hmask'] at hp'
      rw [← hp.unique (maskPrefix_nestedMasks m hm).2, hp'.unique (maskPrefix_nestedMasks m' hm').2]
    exact List.inj_on_of_nodup_map hnodup he he' (by rw [hmask, hmask', hsame])

/-- The key `a5` has both prefixes, and is routed to the entry with the longer one. -/
theorem entryLookupLPM_longest_nested : ∃ t ∈ nestedRoutes.tableIdMap.nodes,
    t.entryMap.nodes.length = 2 ∧ entryLookupLPM [0xA5] t = some 2 ∧
      ∃ e ∈ t.entryMap.nodes, e.addr = 2 ∧ PrefixMatches e [0xA5] ∧
        ∀ e' ∈ t.entryMap.nodes, PrefixMatches e' [0xA5] → ∀ p p', MaskPrefix e.mask p →
          MaskPrefix e'.mask p' → p' ≤ p := by
  have hrun : LrRun (PrefixRun 1) nestedRoutes :=
    (((LrRun.init smallConfig (prefixRun_of_nestedMasks (by decide) 1)).next _ (by decide) rfl
      (prefixRun_of_nestedMasks (by decide) 1)).next _ (by decide) rfl
        (prefixRun_of_nestedMasks (by decide) 1)).next _ (by decide) rfl (prefixRun_of_nestedMasks (by decide) 1)
  obtain ⟨t, ht⟩ : ∃ t, nestedRoutes.tableIdMap.nodes = [t] := ⟨_, rfl⟩
  have hmem : t ∈ nestedRoutes.tableIdMap.nodes := by rw [ht]; simp
  have hall : ∀ t ∈ nestedRoutes.tableIdMap.nodes, t.id = 1 ∧ t.type = .lpm ∧ t.keyLen.toNat = 8 ∧
      t.entryMap.nodes.length = 2 ∧ entryLookupLPM [0xA5] t = some 2 := by decide
  obtain ⟨hid, htype, hlen, htwo, hlook⟩ := hall t hmem
  have hkey : ([0xA5] : Buf).length = bytenumCeil t.keyLen.toNat := by rw [hlen]; rfl
  exact ⟨t, hmem, htwo, hlook, (entryLookupLPM_longest hrun hmem hid htype hkey).1 2 hlook⟩

end PofSwitch
