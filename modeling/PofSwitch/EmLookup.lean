/-
**Exact-match tables: a stored entry is found.**

An entry of an exact-match table is stored under the hash of its assembled value, and a packet is
looked up by the hash of its assembled key.  The value is packed from the fields of the message, the
key from the fields that are copied out of the packet, and both are hashed over the bytes of the key,
the padding of the last byte included.  When the packet has the values of the entry in its fields,
the two buffers agree in every byte, so the bucket of the key is not empty.

Main definitions:

* `PofSwitch.FieldEquals`, `PofSwitch.PacketHas` — the fields of a packet have the values of an entry;
* `PofSwitch.EmConforms` — the entry uses the fields of the table;
* `PofSwitch.EmPacked` — the values of the stored entries are assembled from their fields.

Main results:

* `PofSwitch.packedBit_equal` — equal fields are packed to equal bits;
* `PofSwitch.poflrEntryLookup_em` — **a lookup of the fields of a stored entry does not return
  `NULL`, exactly when no field is longer than its local copy.**
-/

import PofSwitch.FlowTableEm
import PofSwitch.FlowTableMm

set_option relaxedAutoImplicit false
set_option autoImplicit false

namespace PofSwitch

open Buf HmapNode

/-! ### Equal buffers, equal hashes -/

theorem loadWord_congr {a b : Buf} (h : ∀ i, a.rd i = b.rd i) (p k : ℕ) :
    a.loadWord p k = b.loadWord p k := by
  induction k generalizing p with
  | zero => rfl
  | succ k ih => rw [loadWord, loadWord, h, ih]

theorem hashWords_congr {a b : Buf} (h : ∀ i, a.rd i = b.rd i) (k p : ℕ) (hash : UInt32) :
    hashWords a k p hash = hashWords b k p hash := by
  induction k generalizing p hash with
  | zero => rfl
  | succ k ih => rw [hashWords, hashWords, loadWord_congr h, ih]

/-- The hash depends on the bytes of the buffer only. -/
theorem entryHashByValue_congr {a b : Buf} (h : ∀ i, a.bit i = b.bit i) (lenB : UInt16) :
    entryHashByValue a lenB = entryHashByValue b lenB := by
  have hrd : ∀ i, a.rd i = b.rd i := by
    intro i
    refine byte_ext fun k hk => ?_
    rw [← bit_mul_add a i hk, ← bit_mul_add b i hk, h]
  rw [entryHashByValue, entryHashByValue, hmapHashForBytes, hmapHashForBytes, hashWords_congr hrd,
    loadWord_congr hrd]

/-! ### The fields of a packet -/

/-- The field of the packet or of the metadata has the value. -/
def FieldEquals (packet metadata : Buf) (f : PofMatch) (m : PofMatchX) : Prop :=
  ∀ j < f.len.toNat, (fieldSource packet metadata f).bit (f.offset.toNat + j) = m.value.bit j

/-- The fields of the packet and of the metadata have the values of the entry. -/
def PacketHas (packet metadata : Buf) (t : TableInfo) (e : EntryInfo) : Prop :=
  List.Forall₂ (FieldEquals packet metadata) (tableFields t) (matchFields e.match_ e.matchFieldNum)

/-- A field of an entry for a field of the table: the same length, and no bit of the value beyond it.
The array of the message holds sixteen bytes. -/
structure ValueConforms (f : PofMatch) (m : PofMatchX) : Prop where
  len_eq : m.len = f.len
  value_zero : ZeroFrom m.value m.len.toNat
  value_length : m.value.length ≤ maxFieldLengthInByte

/-- The entry uses the fields of the table. -/
def EmConforms (t : TableInfo) (e : EntryInfo) : Prop :=
  List.Forall₂ ValueConforms (tableFields t) (matchFields e.match_ e.matchFieldNum)

/-- The copy of a field that has the value is the value. -/
theorem FieldEquals.copy {packet metadata : Buf} {f : PofMatch} {m : PofMatchX}
    (h : FieldEquals packet metadata f m) (hconf : ValueConforms f m) (j : ℕ) (hj : j < f.len.toNat) :
    (pofbfCopyBit (fieldSource packet metadata f) (Buf.zeros maxFieldLengthInByte) f.offset f.len).bit j =
      m.value.bit j := by
  rw [bit_pofbfCopyBit, Buf.length_zeros]
  split_ifs with hroom
  · rw [decide_eq_true hj, Bool.true_and]
    exact h j hj
  · -- beyond the sixteen bytes neither of the two has a bit
    have hlen := hconf.value_length
    rw [bit_zeros, bit_of_length_le (by omega)]

/-- **Equal fields are packed to equal bits.** -/
theorem packedBit_equal {packet metadata : Buf} {fs : List PofMatch} {ms : List PofMatchX}
    (hconf : List.Forall₂ ValueConforms fs ms)
    (hequal : List.Forall₂ (FieldEquals packet metadata) fs ms) (i : ℕ) :
    packedBit (keyParts packet metadata fs) i = packedBit (valueParts ms) i := by
  induction hequal generalizing i with
  | nil => rfl
  | cons hf _ ih =>
      cases hconf with
      | cons hc hconf =>
          simp only [keyParts, valueParts, List.map_cons, packedBit, hc.len_eq]
          split_ifs with hi
          · exact hf.copy hc i hi
          · exact ih hconf _

theorem lens_valueParts {fs : List PofMatch} {ms : List PofMatchX}
    (h : List.Forall₂ ValueConforms fs ms) :
    (valueParts ms).map Prod.fst = fs.map PofMatch.len ∧
      ∀ f ∈ valueParts ms, ZeroFrom f.2 f.1.toNat := by
  induction h with
  | nil => exact ⟨rfl, by simp [valueParts]⟩
  | cons hf _ ih =>
      simp only [valueParts, List.map_cons, List.cons.injEq, List.forall_mem_cons] at ih ⊢
      exact ⟨⟨hf.len_eq, ih.1⟩, hf.value_zero, ih.2⟩

/-! ### Stored entries -/

/-- The value of every entry of an exact-match table is assembled from its fields. -/
def EmPacked (t : TableInfo) : Prop :=
  t.type = .em → ∀ e ∈ t.entryMap.nodes,
    coverAll (valueParts (matchFields e.match_ e.matchFieldNum)) 0 (Buf.zeros entryKeyBytes) = some e.value

theorem EmPacked.entryLink {t : TableInfo} (h : EmPacked t) {flow : PofFlowEntry} {newAt : ℕ}
    {e : EntryInfo} (hfill : Filled flow newAt t e) : EmPacked (PofSwitch.entryLink e t) := by
  rw [EmPacked, (sameShape_entryLink e t).type_eq]
  intro htype e' he'
  rw [nodes_entryLink] at he'
  rcases List.mem_cons.1 he' with rfl | he'
  · rw [hfill.match_eq]
    exact coverAll_valueParts (hfill.assembled (by rw [htype]; decide))
  · exact h htype e' he'

theorem EmPacked.entryDelete {t : TableInfo} (h : EmPacked t) (e : EntryInfo) :
    EmPacked (PofSwitch.entryDelete e t) := by
  rw [EmPacked, (sameShape_entryDelete e t).type_eq]
  intro htype e' he'
  rw [nodes_entryDelete] at he'
  exact h htype e' (List.mem_of_mem_filter he')

theorem emPacked_of_reachable {lr : LocalResource} (h : LrReachable lr) :
    ∀ t ∈ lr.tableIdMap.nodes, EmPacked t := by
  refine LrReachable.table_induction ?_ ?_ h
  · intro msg type ID newAt _ _ e he
    simp [newTable] at he
  · intro t t' hchange hinv
    cases hchange with
    | same => exact hinv
    | insert hfill _ => exact hinv.entryLink hfill
    | delete _ => exact hinv.entryDelete _
    | replace _ hfill _ => exact (hinv.entryDelete _).entryLink hfill

/-! ### Lookup -/

/-- With fields that fit their local copies a packet with the values of a stored entry is matched. -/
theorem found_of_fieldsShort {lr : LocalResource} (h : LrReachable lr) {t : TableInfo}
    (ht : t ∈ lr.tableIdMap.nodes) (htype : t.type = .em) (hlayout : MmLayout t) {e : EntryInfo}
    (he : e ∈ t.entryMap.nodes) (hconf : EmConforms t e) {packet metadata : Buf}
    (hhas : PacketHas packet metadata t e) (hshort : FieldsShort (tableFields t)) :
    ∃ found ∈ t.entryMap.nodes, poflrEntryLookup packet metadata t = some (.ptr found.addr) := by
  have hinv := mmInv_of_reachable h t ht
  obtain ⟨key, hkey, hkbits⟩ := keyAssemble_packed hinv hlayout hshort packet metadata
  obtain ⟨hlens, hzero⟩ := lens_valueParts hconf
  have hmax : totalLen ((tableFields t).map PofMatch.len) ≤ 8 * entryKeyBytes := by
    rw [hlayout.sum_eq]
    exact hinv.1
  obtain ⟨value, hvalue, hvbits⟩ :=
    coverAll_zeros (hlens ▸ hlayout.fits) (hlens ▸ hmax) (by decide) hzero
  cases (emPacked_of_reachable h t ht htype e he).symm.trans hvalue
  have hhash : entryHashByValue key t.keyLen = entryHashByValue e.value t.keyLen :=
    entryHashByValue_congr (fun i => by rw [hkbits, hvbits, packedBit_equal hconf hhas]) t.keyLen
  -- the entry itself carries the hash of the key, so the bucket is not empty
  have hfound : (entryLookupEM key t).isSome := by
    rw [entryLookupEM, Hmap.nodeGetWithHash, List.find?_isSome]
    refine ⟨e, he, ?_⟩
    rw [decide_eq_true_eq, hhash]
    exact emInv_of_reachable h t ht htype e he
  obtain ⟨found, hfound⟩ := Option.isSome_iff_exists.1 hfound
  refine ⟨found, List.mem_of_find?_eq_some hfound, ?_⟩
  rw [poflrEntryLookup, hkey, htype]
  simp [hfound, EntryPtr.ofOption]

/-- **In every reachable exact-match table whose fields fit the key, a packet whose fields have the
values of a stored entry is matched, and the lookup does not return `NULL`, exactly when no field is longer
than its local copy.** -/
theorem poflrEntryLookup_em {lr : LocalResource} (h : LrReachable lr) {t : TableInfo}
    (ht : t ∈ lr.tableIdMap.nodes) (htype : t.type = .em) (hlayout : MmLayout t) {e : EntryInfo}
    (he : e ∈ t.entryMap.nodes) (hconf : EmConforms t e) {packet metadata : Buf}
    (hhas : PacketHas packet metadata t e) :
    (∃ found ∈ t.entryMap.nodes, poflrEntryLookup packet metadata t = some (.ptr found.addr)) ↔
      FieldsShort (tableFields t) := by
  constructor
  · rintro ⟨found, _, hret⟩
    exact fieldsShort_of_lookup hret
  · exact found_of_fieldsShort h ht htype hlayout he hconf hhas

/-- An exact-match table of a nibble and a byte with the entry `a`, `bc`. -/
def nibbleEm : LocalResource :=
  (LrOp.addFlowEntry
      { oneFieldEntry 2 12 0 0 [] [] with
        matchFieldNum := 2
        match_ := [⟨0, 0, 4, [0xA0], []⟩, ⟨1, 4, 8, [0xBC], []⟩] } 2 3).next
    ((LrOp.createFlowTable
      { oneFieldTable 2 12 with matchFieldNum := 2, match_ := [⟨0, 0, 4⟩, ⟨1, 4, 8⟩] } 1).next
      (pofLocalresourceInit smallConfig))

/-- The packet `ab cd` has the fields of the entry. -/
theorem poflrEntryLookup_em_nibble : ∃ t ∈ nibbleEm.tableIdMap.nodes, ∃ e ∈ t.entryMap.nodes,
    EmConforms t e ∧ PacketHas [0xAB, 0xCD] [] t e ∧
      ∃ found ∈ t.entryMap.nodes, poflrEntryLookup [0xAB, 0xCD] [] t = some (.ptr found.addr) := by
  have hrun : LrReachable nibbleEm :=
    ((LrRun.init smallConfig trivial).next _ (by decide) rfl trivial).next _ (by decide) rfl trivial
  have hfacts : ∀ t ∈ nibbleEm.tableIdMap.nodes, t.type = .em ∧ t.keyLen.toNat = 12 ∧
      tableFields t = [⟨0, 0, 4⟩, ⟨1, 4, 8⟩] ∧ t.entryMap.nodes ≠ [] ∧ ∀ e ∈ t.entryMap.nodes,
        matchFields e.match_ e.matchFieldNum = [⟨0, 0, 4, [0xA0], []⟩, ⟨1, 4, 8, [0xBC], []⟩] := by
    decide
  obtain ⟨t, ht⟩ : ∃ t, nibbleEm.tableIdMap.nodes = [t] := ⟨_, rfl⟩
  have hmem : t ∈ nibbleEm.tableIdMap.nodes := by rw [ht]; simp
  obtain ⟨htype, hlen, hfields, hne, hentries⟩ := hfacts t hmem
  obtain ⟨e, he⟩ := List.exists_mem_of_ne_nil _ hne
  have hlayout : MmLayout t := by
    constructor
    · rw [hfields, hlen]
      rfl
    · rw [hfields]
      exact ⟨Or.inr (by decide), Or.inl (by decide), trivial⟩
  have hconf : EmConforms t e := by
    rw [EmConforms, hfields, hentries e he]
    refine .cons ⟨rfl, fun j hj => ?_, by decide⟩ (.cons ⟨rfl, fun j hj => ?_, by decide⟩ .nil)
    · have hnibble : ∀ j < 8, 4 ≤ j → Buf.bit [0xA0] j = false := by decide
      rcases Nat.lt_or_ge j 8 with hlt | hge
      · exact hnibble j hlt hj
      · exact bit_of_length_le (by simpa using hge)
    · exact bit_of_length_le (by simpa using hj)
  have hhas : PacketHas [0xAB, 0xCD] [] t e := by
    rw [PacketHas, hfields, hentries e he]
    exact .cons (by unfold FieldEquals; decide) (.cons (by unfold FieldEquals; decide) .nil)
  have hshort : FieldsShort (tableFields t) := by
    rw [hfields]
    decide
  exact ⟨t, hmem, e, he, hconf, hhas,
    (poflrEntryLookup_em hrun hmem htype hlayout he hconf hhas).2 hshort⟩

/-- An exact-match table with one field of the longest key, `160` bits, and an entry for zeros. -/
def longEm : LocalResource :=
  (LrOp.addFlowEntry (oneFieldEntry 2 160 0 0 [] []) 2 3).next
    ((LrOp.createFlowTable (oneFieldTable 2 160) 1).next (pofLocalresourceInit smallConfig))

/-- A packet of zeros has the value of the entry, but the copy of its field leaves the local array. -/
theorem poflrEntryLookup_em_overflow : ¬ ∀ (lr : LocalResource) (t : TableInfo) (e : EntryInfo)
    (packet metadata : Buf), LrReachable lr → t ∈ lr.tableIdMap.nodes → t.type = .em → MmLayout t →
      e ∈ t.entryMap.nodes → EmConforms t e → PacketHas packet metadata t e →
      ∃ found ∈ t.entryMap.nodes, poflrEntryLookup packet metadata t = some (.ptr found.addr) := by
  intro hall
  have hrun : LrReachable longEm :=
    ((LrRun.init smallConfig trivial).next _ (by decide) rfl trivial).next _ (by decide) rfl trivial
  have hfacts : ∀ t ∈ longEm.tableIdMap.nodes, t.type = .em ∧ t.keyLen.toNat = 160 ∧
      tableFields t = [⟨0, 0, 160⟩] ∧ t.entryMap.nodes ≠ [] ∧ ∀ e ∈ t.entryMap.nodes,
        matchFields e.match_ e.matchFieldNum = [⟨0, 0, 160, [], []⟩] := by decide
  obtain ⟨t, ht⟩ : ∃ t, longEm.tableIdMap.nodes = [t] := ⟨_, rfl⟩
  have hmem : t ∈ longEm.tableIdMap.nodes := by rw [ht]; simp
  obtain ⟨htype, hlen, hfields, hne, hentries⟩ := hfacts t hmem
  obtain ⟨e, he⟩ := List.exists_mem_of_ne_nil _ hne
  have hlayout : MmLayout t := by
    constructor
    · rw [hfields, hlen]
      rfl
    · rw [hfields]
      exact ⟨Or.inl (by decide), trivial⟩
  have hconf : EmConforms t e := by
    rw [EmConforms, hfields, hentries e he]
    exact .cons ⟨rfl, fun j _ => bit_of_length_le (Nat.zero_le _), by decide⟩ .nil
  have hhas : PacketHas (Buf.zeros 20) [] t e := by
    rw [PacketHas, hfields, hentries e he]
    refine .cons (fun j _ => ?_) .nil
    exact (bit_zeros _ _).trans (bit_of_length_le (Nat.zero_le _)).symm
  obtain ⟨_, _, hret⟩ := hall longEm t e (Buf.zeros 20) [] hrun hmem htype hlayout he hconf hhas
  have hshort := fieldsShort_of_lookup hret
  rw [hfields] at hshort
  exact absurd hshort (by decide)

end PofSwitch
