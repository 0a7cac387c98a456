/-
**What a table lookup sees and returns: `poflr_entry_lookup`.**

The key of a lookup is put together from the fields of the table, each taken from the packet or from the
metadata.  The table knows nothing of the packet, so a field may lie behind its end, where the bytes of
earlier packets and of deleted fields are.  The pointer that is returned comes from the map of the entries
or, for an LPM table, from the tree, which is searched by shifting the key; a linear table has no branch of
its own, and the pointer is returned as it was found on the stack.

Main definitions:

* `PofSwitch.FieldsInside` — the packet fields of a table end inside the packet;
* `PofSwitch.keyLoopLog` — the assembly of the key with its stores;
* `PofSwitch.KeyCovers`, `PofSwitch.MasksFit` — keys that are assembled inside their memory, and masks
  that the tree has levels for.

Main results:

* `PofSwitch.lookup_sees_packet_only` — **a lookup with fields inside the packet does not depend on the
  bytes behind it;**
* `PofSwitch.lookup_null_or_stored` — **a lookup in a table other than a linear one, with a key that fits,
  returns `NULL` or a stored entry.**
-/

import PofSwitch.BitFields
import PofSwitch.LpmShared
import PofSwitch.Instruction

set_option relaxedAutoImplicit false
set_option autoImplicit false

namespace PofSwitch

open Buf

/-! ### Bytes behind the packet -/

/-- The fields that the table takes from the packet end inside its `leftLen` bytes. -/
def FieldsInside (t : TableInfo) (leftLen : ℤ) : Prop :=
  ∀ m ∈ tableFields t, m.fieldId ≠ metadataFieldId → 0 < m.len.toNat →
    (m.offset.toNat + m.len.toNat : ℤ) ≤ 8 * leftLen

/-- The parts of the key are the same for packets that agree up to their end. -/
theorem keyParts_congr {t : TableInfo} {n : ℤ} {w w' metadata : Buf} (hin : FieldsInside t n)
    (hagree : w.take n.toNat = w'.take n.toNat) :
    keyParts w metadata (tableFields t) = keyParts w' metadata (tableFields t) := by
  refine List.map_congr_left fun m hm => ?_
  rw [fieldSource, fieldSource]
  by_cases hid : m.fieldId = 0xFFFF
  · rw [if_pos hid, if_pos hid]
  · rw [if_neg hid, if_neg hid]
    rcases Nat.eq_zero_or_pos m.len.toNat with hzero | hpos
    · rw [show m.len = 0 from UInt16.toNat_inj.1 hzero]
      rfl
    · have hend := hin m hm hid hpos
      have hbits : m.offset.toNat + m.len.toNat ≤ 8 * n.toNat := by omega
      rw [← pofbfCopyBit_take w _ hbits, ← pofbfCopyBit_take w' _ hbits, hagree]

/-- **A lookup for two packets of the same length and metadata that agree up to their end has the same
result, when the fields of the table end inside the packet.** -/
theorem lookup_sees_packet_only {t : TableInfo} {p q : DpPacket} (hlen : p.leftLen = q.leftLen)
    (hpacket : p.window.take p.leftLen.toNat = q.window.take q.leftLen.toNat)
    (hmeta : p.metadata = q.metadata) (hin : FieldsInside t p.leftLen) :
    poflrEntryLookup p.window p.metadata t = poflrEntryLookup q.window q.metadata t := by
  rw [← hlen] at hpacket
  have hkey : keyAssemble p.window p.metadata t = keyAssemble q.window q.metadata t := by
    rw [keyAssemble, keyAssemble, keyLoop_eq_coverAll, keyLoop_eq_coverAll, hmeta,
      keyParts_congr hin hpacket]
  rw [poflrEntryLookup, poflrEntryLookup, hkey]

/-- A masked-match table with a field of two bytes and one entry, for the bytes `7` and `9`. -/
def twoByteTable : LocalResource :=
  (LrOp.addFlowEntry (oneFieldEntry 0 16 0 0 [7, 9] [255, 255]) 2 3).next
    ((LrOp.createFlowTable (oneFieldTable 0 16) 1).next (pofLocalresourceInit smallConfig))

theorem twoByteTable_reachable : LrReachable twoByteTable :=
  ((LrRun.init smallConfig trivial).next _ (by decide) rfl trivial).next _ (by decide) rfl trivial

/-- A packet of one byte, with a byte behind it. -/
def shortPacket (behind : UInt8) : DpPacket :=
  { receivedPacket 1 [7] with buf := (Buf.zeros packetRawMaxLen).paste packetPrebufLen [7, behind] }

/-- A packet of two bytes, with a byte behind it. -/
def longPacket (behind : UInt8) : DpPacket :=
  { receivedPacket 1 [7, 9] with buf := (Buf.zeros packetRawMaxLen).paste packetPrebufLen [7, 9, behind] }

/-- Two packets of two bytes with different bytes behind them are matched by the same entry. -/
theorem lookup_sees_packet_only_long : ∃ t ∈ twoByteTable.tableIdMap.nodes,
    poflrEntryLookup (longPacket 4).window (longPacket 4).metadata t =
      poflrEntryLookup (longPacket 5).window (longPacket 5).metadata t := by
  obtain ⟨t, ht⟩ : ∃ t, twoByteTable.tableIdMap.nodes = [t] := ⟨_, rfl⟩
  have hmem : t ∈ twoByteTable.tableIdMap.nodes := by rw [ht]; simp
  have hfields : ∀ t ∈ twoByteTable.tableIdMap.nodes, ∀ m ∈ tableFields t,
      m.offset.toNat + m.len.toNat ≤ 16 := by decide
  have hpacket : (longPacket 4).window.take (longPacket 4).leftLen.toNat =
      (longPacket 5).window.take (longPacket 5).leftLen.toNat := by decide +kernel
  have hleft : (longPacket 4).leftLen = 2 := rfl
  refine ⟨t, hmem, lookup_sees_packet_only rfl hpacket rfl fun m hm _ _ => ?_⟩
  have hend := hfields t hmem m hm
  rw [hleft]
  omega

/-- The byte behind a packet of one byte decides whether the entry matches it. -/
theorem lookup_sees_behind : LrReachable twoByteTable ∧ ∃ t ∈ twoByteTable.tableIdMap.nodes, t.type = .mm ∧
    (shortPacket 9).leftLen = (shortPacket 8).leftLen ∧
    (shortPacket 9).window.take 1 = (shortPacket 8).window.take 1 ∧
    (shortPacket 9).metadata = (shortPacket 8).metadata ∧
    poflrEntryLookup (shortPacket 9).window (shortPacket 9).metadata t = some (.ptr 2) ∧
    poflrEntryLookup (shortPacket 8).window (shortPacket 8).metadata t = some .null := by
  obtain ⟨t, ht⟩ : ∃ t, twoByteTable.tableIdMap.nodes = [t] := ⟨_, rfl⟩
  have hmem : t ∈ twoByteTable.tableIdMap.nodes := by rw [ht]; simp
  have hfacts : ∀ t ∈ twoByteTable.tableIdMap.nodes, t.type = .mm ∧
      poflrEntryLookup (shortPacket 9).window (shortPacket 9).metadata t = some (.ptr 2) ∧
      poflrEntryLookup (shortPacket 8).window (shortPacket 8).metadata t = some .null := by decide +kernel
  obtain ⟨htype, h₉, h₈⟩ := hfacts t hmem
  exact ⟨twoByteTable_reachable, t, hmem, htype, rfl, by decide +kernel, rfl, h₉, h₈⟩

/-! ### The stores of the key -/

/-- `keyLoop` with its stores into the key and into the local copies of the fields. -/
def keyLoopLog (packet metadata : Buf) : List PofMatch → UInt16 → Written → List ℕ → Option (Written × List ℕ)
  | [], _, key, copies => some (key, copies)
  | m :: ms, offsetB, key, copies => do
      let source := if m.fieldId = 0xFFFF then metadata else packet
      let tmp := pofbfCopyBitLog source (Buf.zeros maxFieldLengthInByte) m.offset m.len
      let w ← pofbfCoverBitLog key.buf tmp.buf offsetB m.len
      keyLoopLog packet metadata ms (offsetB + m.len) ⟨w.buf, key.stores ++ w.stores⟩ (copies ++ tmp.stores)

/-- The log does not change the key. -/
theorem keyLoopLog_buf (packet metadata : Buf) {fields : List PofMatch} (hshort : FieldsShort fields)
    (off : UInt16) (key : Written) (copies : List ℕ) :
    (keyLoopLog packet metadata fields off key copies).map (fun r => r.1.buf) =
      keyLoop packet metadata fields off key.buf := by
  induction fields generalizing off key copies with
  | nil => rfl
  | cons m ms ih =>
      obtain ⟨hm, hms⟩ := List.forall_mem_cons.1 hshort
      simp only [keyLoopLog, keyLoop, if_neg (Nat.not_lt.2 hm), ← pofbfCoverBitLog_buf, pofbfCopyBitLog_buf]
      cases pofbfCoverBitLog key.buf
        (pofbfCopyBit (if m.fieldId = 0xFFFF then metadata else packet) (Buf.zeros maxFieldLengthInByte)
          m.offset m.len) off m.len with
      | none => rfl
      | some w => exact ih hms _ _ _

theorem length_keyLoop {packet metadata : Buf} {fields : List PofMatch} {off : UInt16} {key key' : Buf}
    (h : keyLoop packet metadata fields off key = some key') : key'.length = key.length := by
  induction fields generalizing off key with
  | nil =>
      cases h
      rfl
  | cons m ms ih =>
      rw [keyLoop] at h
      rcases Nat.lt_or_ge (8 * maxFieldLengthInByte) m.len.toNat with hlong | hshort
      · rw [if_pos hlong] at h
        cases h
      · rw [if_neg (Nat.not_lt.2 hshort)] at h
        obtain ⟨key₁, hcover, hrest⟩ := Option.bind_eq_some_iff.1 h
        rw [ih hrest, length_pofbfCoverBit hcover]

/-- The assembly of the key comes to an end and stays inside `n` bytes: a field is no longer than its local
copy, does not cross into the next byte when it is shorter than a byte, and its last byte is one of the
key. -/
def KeyCovers (n : ℕ) : List PofMatch → UInt16 → Prop
  | [], _ => True
  | m :: ms, off =>
      m.len.toNat ≤ 8 * maxFieldLengthInByte ∧ (8 ≤ m.len.toNat ∨ off.toNat % 8 + m.len.toNat ≤ 8) ∧
        (off.toNat + (m.len.toNat - 1)) / 8 < n ∧ KeyCovers n ms (off + m.len)

theorem KeyCovers.fieldsShort {n : ℕ} {fields : List PofMatch} {off : UInt16} (h : KeyCovers n fields off) :
    FieldsShort fields := by
  induction fields generalizing off with
  | nil => exact fun _ hm => absurd hm List.not_mem_nil
  | cons m ms ih => exact List.forall_mem_cons.2 ⟨h.1, ih h.2.2.2⟩

/-- **The assembly of the key returns and stores inside `n` bytes of the key and inside the local copies
exactly for fields with `KeyCovers`.** -/
theorem keyLoopLog_stores_iff (packet metadata : Buf) (n : ℕ) (fields : List PofMatch) (off : UInt16)
    (key : Written) (copies : List ℕ) :
    (∃ w c, keyLoopLog packet metadata fields off key copies = some (w, c) ∧ (∀ i ∈ w.stores, i < n) ∧
        ∀ i ∈ c, i < maxFieldLengthInByte) ↔
      ((∀ i ∈ key.stores, i < n) ∧ ∀ i ∈ copies, i < maxFieldLengthInByte) ∧ KeyCovers n fields off := by
  induction fields generalizing off key copies with
  | nil =>
      simp [keyLoopLog, KeyCovers]
  | cons m ms ih =>
      simp only [keyLoopLog, KeyCovers]
      set tmp := pofbfCopyBitLog (if m.fieldId = 0xFFFF then metadata else packet)
        (Buf.zeros maxFieldLengthInByte) m.offset m.len
      have hcopy : (∀ i ∈ tmp.stores, i < maxFieldLengthInByte) ↔ _ := copy_stores_lt_iff _ _ _ _ _
      cases hcover : pofbfCoverBitLog key.buf tmp.buf off m.len with
      | none =>
          have hnever := (pofbfCoverBitLog_eq_none_iff _ _ _ _).1 hcover
          simp [hnever]
      | some w =>
          have hreturns : 8 ≤ m.len.toNat ∨ off.toNat % 8 + m.len.toNat ≤ 8 := by
            by_contra hnot
            rw [(pofbfCoverBitLog_eq_none_iff _ _ _ _).2 hnot] at hcover
            cases hcover
          refine (ih _ _ _).trans ?_
          simp only [List.forall_mem_append, stores_lt_iff hcover, hcopy, hreturns, true_and]
          tauto

/-! ### Masks of an LPM table -/

/-- What the request stores in an LPM table has a mask with no more ones than the key has bits. -/
def MasksFit (lr : LocalResource) (op : LrOp) : Prop :=
  ∀ flow t value mask, Stores lr op flow t → t.type = .lpm → Assembles flow t value mask →
    get1sCountInBytes mask (bytenumCeil t.keyLen.toNat) ≤ t.keyLen.toNat

/-- **In every run whose masks fit, the tree of an LPM table points to stored entries.** -/
theorem lpmTree_of_path {lr : LocalResource} (h : LrPath MasksFit lr) :
    ∀ t ∈ lr.tableIdMap.nodes, t.type = .lpm →
      LpmTree t ∧ ∀ e ∈ t.entryMap.nodes, prefixBits e t ≤ t.keyLen.toNat := by
  refine LrPath.table_induction ?_ ?_ h
  · rintro _ _ _ _ _ ⟨msg, type, newAt, _, _, rfl⟩ htype
    obtain rfl : type = .lpm := htype
    exact ⟨lpmTree_newTable msg _ newAt, by simp [newTable]⟩
  · intro lr op t t' _ hQ _ hchange hI htype
    have hshape := hchange.tableChange.sameShape
    have htype₀ : t.type = .lpm := hshape.type_eq ▸ htype
    obtain ⟨htree, hall⟩ := hI htype₀
    obtain ⟨htree', hall'⟩ := htree.change (fun e he => he) hall
      (fun flow newAt e hstores hfill => hQ flow t _ _ hstores htype₀ (hfill.assembles htype₀)) htype₀ hchange
    refine ⟨htree', fun e he => ?_⟩
    rw [prefixBits_congr hshape.keyLen_eq, hshape.keyLen_eq]
    exact hall' e he

/-! ### What is returned -/

/-- `NULL` or the address of a stored entry. -/
def NullOrStored (t : TableInfo) (ptr : EntryPtr) : Prop :=
  ptr = .null ∨ ∃ e ∈ t.entryMap.nodes, ptr = .ptr e.addr

/-- A lookup assembles its key inside the memory of the key and of the local copies, returns, and returns
`NULL` or a stored entry. -/
def LookupSafe (packet metadata : Buf) (t : TableInfo) : Prop :=
  (∃ w copies, keyLoopLog packet metadata (tableFields t) 0 ⟨Buf.zeros (bytenumCeil t.keyLen.toNat), []⟩ [] =
      some (w, copies) ∧ (∀ i ∈ w.stores, i < bytenumCeil t.keyLen.toNat) ∧
        ∀ i ∈ copies, i < maxFieldLengthInByte) ∧
  ∃ ptr, poflrEntryLookup packet metadata t = some ptr ∧ NullOrStored t ptr

theorem nullOrStored_ofOption {t : TableInfo} {ret : Option EntryInfo}
    (h : ∀ e, ret = some e → e ∈ t.entryMap.nodes) : NullOrStored t (.ofOption (ret.map EntryInfo.addr)) := by
  cases ret with
  | none => exact Or.inl rfl
  | some e => exact Or.inr ⟨e, h e rfl, rfl⟩

/-- The scan of a masked-match table returns a stored entry. -/
theorem mem_of_entryLookupMM {key : Buf} {t : TableInfo} {e : EntryInfo} (h : entryLookupMM key t = some e) :
    e ∈ t.entryMap.nodes := by
  rw [entryLookupMM_eq] at h
  rcases (foldl_pickBest _ _ none).1 e h with hnone | ⟨hmem, _⟩
  · cases hnone
  · exact (Hmap.mem_order _).1 hmem

/-- The tree of an LPM table returns a stored entry. -/
theorem mem_of_entryLookupLPM {key : Buf} {t : TableInfo} {a : ℕ} (htree : LpmTree t)
    (hkey : key.length = bytenumCeil t.keyLen.toNat) (h : entryLookupLPM key t = some a) :
    ∃ e ∈ t.entryMap.nodes, e.addr = a := by
  rw [entryLookupLPM_eq_walk htree hkey] at h
  obtain ⟨path, _, hget, _⟩ := Trie.exists_of_walk_eq_some h
  obtain ⟨e, he, hea, _⟩ := htree.get_sound path a hget
  exact ⟨e, he, hea⟩

/-- The key of a lookup, with the length of its memory. -/
theorem keyAssemble_returns {packet metadata : Buf} {t : TableInfo}
    (h : KeyCovers (bytenumCeil t.keyLen.toNat) (tableFields t) 0) :
    ∃ key, keyAssemble packet metadata t = some key ∧ key.length = bytenumCeil t.keyLen.toNat := by
  obtain ⟨w, copies, hw, _⟩ := (keyLoopLog_stores_iff packet metadata _ _ 0
    ⟨Buf.zeros (bytenumCeil t.keyLen.toNat), []⟩ []).2 ⟨⟨by simp, by simp⟩, h⟩
  have hkey := keyLoopLog_buf packet metadata h.fieldsShort 0 ⟨Buf.zeros (bytenumCeil t.keyLen.toNat), []⟩ []
  rw [hw] at hkey
  refine ⟨w.buf, hkey.symm, ?_⟩
  rw [length_keyLoop hkey.symm, length_zeros]

/-- **In every run whose masks fit, a lookup assembles its key inside its memory and returns `NULL` or a
stored entry exactly when the table is not a linear one and its key covers.** -/
theorem lookup_null_or_stored {lr : LocalResource} (h : LrPath MasksFit lr) {t : TableInfo}
    (ht : t ∈ lr.tableIdMap.nodes) (packet metadata : Buf) :
    LookupSafe packet metadata t ↔
      t.type ≠ .linear ∧ KeyCovers (bytenumCeil t.keyLen.toNat) (tableFields t) 0 := by
  rw [LookupSafe, keyLoopLog_stores_iff]
  constructor
  · rintro ⟨⟨_, hcovers⟩, ptr, hptr, hstored⟩
    refine ⟨fun htype => ?_, hcovers⟩
    obtain ⟨key, hkey, _⟩ := keyAssemble_returns hcovers
    rw [poflrEntryLookup, hkey, htype] at hptr
    obtain rfl : EntryPtr.unset = ptr := Option.some.inj hptr
    rcases hstored with hnull | ⟨e, _, he⟩
    · cases hnull
    · cases he
  · rintro ⟨htype, hcovers⟩
    obtain ⟨key, hkey, hlen⟩ := keyAssemble_returns hcovers
    refine ⟨⟨⟨by simp, by simp⟩, hcovers⟩, ?_⟩
    rw [poflrEntryLookup, hkey]
    cases hcase : t.type with
    | mm => exact ⟨_, rfl, nullOrStored_ofOption fun e he => mem_of_entryLookupMM he⟩
    | em => exact ⟨_, rfl, nullOrStored_ofOption fun e he => List.mem_of_find?_eq_some he⟩
    | linear => exact absurd hcase htype
    | lpm =>
        refine ⟨_, rfl, ?_⟩
        cases hlook : entryLookupLPM key t with
        | none => exact Or.inl rfl
        | some a =>
            obtain ⟨e, he, rfl⟩ := mem_of_entryLookupLPM (lpmTree_of_path h t ht hcase).1 hlen hlook
            exact Or.inr ⟨e, he, rfl⟩

theorem masksFit_defaultRoute : LrPath MasksFit defaultRoute := by
  refine LrPath.next (LrPath.next (LrPath.init smallConfig) _ ?_ (by decide) rfl) _ ?_ (by decide) rfl
  · intro flow t value mask hstores
    cases hstores
  · intro flow t value mask hstores _ hassembles
    cases hstores
    have hmask := mask_of_assembles_defaultEntry hassembles
    rw [ get1sCountInBytes_prefix hmask, Nat.zero_min]
    exact Nat.zero_le _

/-- Whatever the packet, a lookup in the table with the default route is safe. -/
theorem lookup_null_or_stored_default : ∃ t ∈ defaultRoute.tableIdMap.nodes, t.type = .lpm ∧
    ∀ packet metadata, LookupSafe packet metadata t := by
  obtain ⟨t, ht⟩ : ∃ t, defaultRoute.tableIdMap.nodes = [t] := ⟨_, rfl⟩
  have hmem : t ∈ defaultRoute.tableIdMap.nodes := by rw [ht]; simp
  have hfacts : ∀ t ∈ defaultRoute.tableIdMap.nodes, t.type = .lpm ∧ t.keyLen = 8 ∧
      (tableFields t).map (fun m => (m.offset, m.len)) = [(0, 8)] := by decide
  obtain ⟨htype, hlen, hfields⟩ := hfacts t hmem
  obtain ⟨m, hm, hone⟩ := List.map_eq_singleton_iff.1 hfields
  refine ⟨t, hmem, htype, fun packet metadata => ?_⟩
  refine (lookup_null_or_stored masksFit_defaultRoute hmem packet metadata).2 ⟨by rw [htype]; decide, ?_⟩
  rw [hm, hlen]
  have hwidth : m.len = 8 := congrArg Prod.snd hone
  simp only [KeyCovers, hwidth]
  decide

/-- A linear table of one byte. -/
def linearTable : LocalResource :=
  (LrOp.createFlowTable (oneFieldTable 3 8) 1).next (pofLocalresourceInit smallConfig)

/-- A lookup in a linear table returns an uninitialised pointer. -/
theorem lookup_linear_unset : ¬ ∀ (lr : LocalResource) (t : TableInfo) (packet metadata : Buf),
    LrReachable lr → t ∈ lr.tableIdMap.nodes →
      ∃ ptr, poflrEntryLookup packet metadata t = some ptr ∧ NullOrStored t ptr := by
  intro hall
  have hrun : LrReachable linearTable := (LrRun.init smallConfig trivial).next _ (by decide) rfl trivial
  obtain ⟨t, ht⟩ : ∃ t, linearTable.tableIdMap.nodes = [t] := ⟨_, rfl⟩
  have hmem : t ∈ linearTable.tableIdMap.nodes := by rw [ht]; simp
  have hfacts : ∀ t ∈ linearTable.tableIdMap.nodes, t.type = .linear ∧
      poflrEntryLookup [0x00] [] t = some .unset := by decide
  obtain ⟨ptr, hptr, hstored⟩ := hall _ t [0x00] [] hrun hmem
  cases (hfacts t hmem).2.symm.trans hptr
  rcases hstored with hnull | ⟨e, _, he⟩
  · cases hnull
  · cases he

end PofSwitch
