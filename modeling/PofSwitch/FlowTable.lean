/-
**Flow tables: `local_resource/pof_flow_table.c`.**

A table holds its entries in a hash map; an LPM table also keeps the addresses of its entries in a
bit tree.  The match fields of an entry are assembled into one value and one mask, packed bit by
bit; a packet is looked up by assembling its fields into a key the same way.  MM tables are scanned
for the matching entry of highest priority, EM tables are looked up by the hash of the key, LPM
tables by the tree.

Assembling a field may not return (`PofSwitch/BaseFunc.lean`), so the operations that assemble
answer in `Option`.  Assembling a key has no result either when a field is longer than the local array
it is copied to.  The value and the mask of an entry are assembled up to the end of their arrays; what
is stored behind them, into the rest of the entry, is left out.  A request reads its arrays up to the
counts it carries; beyond the arrays the fields are zero here.

Main definitions:

* `PofSwitch.valueMaskAssemble`, `PofSwitch.keyAssemble`, `PofSwitch.maskMatch`;
* `PofSwitch.entryFill`, `entryInsert`, `entryDelete`, `lpmInsert`, `lpmDelete`;
* `PofSwitch.entryLookupMM`, `entryLookupEM`, `entryLookupLPM`, `poflrEntryLookup`;
* `PofSwitch.poflrCreateFlowTable`, `poflrDeleteFlowTable`, `poflrAddFlowEntry`,
  `poflrModifyFlowEntry`, `poflrDeleteFlowEntry`, `poflrEmptyFlowTable`, `poflrClearResource`.
-/

import PofSwitch.BaseFunc
import PofSwitch.LocalResource

set_option relaxedAutoImplicit false
set_option autoImplicit false

namespace PofSwitch

open HmapNode

/-! ### Assembling match fields -/

/-- The match fields an entry declares. -/
def matchFields (match_ : List PofMatchX) (matchFieldNum : UInt8) : List PofMatchX :=
  (List.range matchFieldNum.toNat).map fun i => match_.getD i default

/-- `if(mask) pofbf_cover_bit(mask, ...)`; without `withMask` the pointer is `NULL`. -/
def coverMask (withMask : Bool) (mask value : Buf) (offsetB len : UInt16) : Option Buf :=
  if withMask then pofbfCoverBit mask value offsetB len else some mask

/-- The loop of `valueMaskAssemble`. -/
def assembleLoop (withMask : Bool) :
    List PofMatchX → UInt16 → Buf → Buf → Option (UInt16 × Buf × Buf)
  | [], offsetB, value, mask => some (offsetB, value, mask)
  | m :: ms, offsetB, value, mask => do
      let value ← pofbfCoverBit value m.value offsetB m.len
      let mask ← coverMask withMask mask m.mask offsetB m.len
      assembleLoop withMask ms (offsetB + m.len) value mask

/-- `valueMaskAssemble`. -/
def valueMaskAssemble (withMask : Bool) (fields : List PofMatchX) (value mask : Buf)
    (keyLen : UInt16) : Option (Ret × Buf × Buf) := do
  let (offsetB, value, mask) ← assembleLoop withMask fields 0 value mask
  if offsetB ≠ keyLen then return (.error ⟨.tableModFailed, .poftmfcBadKeyLen⟩, value, mask)
  else return (.ok (), value, mask)

/-- The match fields of a table. -/
def tableFields (table : TableInfo) : List PofMatch :=
  (List.range table.matchFieldNum.toNat).map fun i => table.match_.getD i default

/-- The loop of `keyAssemble`.  A field that is copied past the end of `tmp` leaves no result. -/
def keyLoop (packet metadata : Buf) : List PofMatch → UInt16 → Buf → Option Buf
  | [], _, key => some key
  | m :: ms, offsetB, key =>
      let source := if m.fieldId = 0xFFFF then metadata else packet
      if 8 * maxFieldLengthInByte < m.len.toNat then none
      else do
        let tmp := pofbfCopyBit source (Buf.zeros maxFieldLengthInByte) m.offset m.len
        let key ← pofbfCoverBit key tmp offsetB m.len
        keyLoop packet metadata ms (offsetB + m.len) key

/-- `keyAssemble` into a zeroed key. -/
def keyAssemble (packet metadata : Buf) (table : TableInfo) : Option Buf :=
  keyLoop packet metadata (tableFields table) 0 (Buf.zeros (bytenumCeil table.keyLen.toNat))

/-! ### Prefixes in the tree -/

/-- The loop of `get1sCountInByte`; a byte has at most eight bits to clear. -/
def onesLoop : ℕ → ℕ → ℕ
  | 0, _ => 0
  | turns + 1, value => if value > 0 then onesLoop turns (value &&& (value - 1)) + 1 else 0

/-- `get1sCountInByte`. -/
def get1sCountInByte (value : UInt8) : ℕ := onesLoop 8 value.toNat

/-- `get1sCountInBytes`. -/
def get1sCountInBytes (value : Buf) (n : ℕ) : ℕ :=
  ((List.range n).map fun i => get1sCountInByte (value.rd i)).sum

/-- The number of bits of an entry's prefix as the tree functions compute it. -/
def prefixBits (entry : EntryInfo) (table : TableInfo) : ℕ :=
  get1sCountInBytes entry.mask (bytenumCeil table.keyLen.toNat)

/-- The copy of the value the tree functions shift. -/
def prefixValue (entry : EntryInfo) (table : TableInfo) : Buf :=
  entry.value.take (bytenumCeil table.keyLen.toNat)

/-- `lpmInsert`. -/
def lpmInsert (entry : EntryInfo) (table : TableInfo) : TableInfo :=
  let bitNum := UInt32.ofNat (prefixBits entry table)
  { table with tree := treeNodeInsert table.tree entry.addr (prefixValue entry table) bitNum }

/-- `lpmDelete`. -/
def lpmDelete (entry : EntryInfo) (table : TableInfo) : TableInfo :=
  let bitNum := UInt32.ofNat (prefixBits entry table)
  { table with tree := treeNodeDelete table.tree (prefixValue entry table) bitNum }

/-- `lpmLookup`. -/
def lpmLookup (key : Buf) (table : TableInfo) : Option ℕ :=
  treeNodeLookup table.tree key table.keyLen.toUInt32

/-! ### Entries -/

/-- `entryHashByID`. -/
def entryHashByID (id : UInt32) : UInt32 := hmapHashForLinear id

/-- `entryHashByValue`. -/
def entryHashByValue (value : Buf) (lenB : UInt16) : UInt32 :=
  hmapHashForBytes value (bytenumCeil lenB.toNat)

/-- `entryFill` of a zeroed entry at an address. -/
def entryFill (pofEntry : PofFlowEntry) (newAt : ℕ) (table : TableInfo) : Option (Ret × EntryInfo) :=
  let entry : EntryInfo :=
    { addr := newAt
      index := pofEntry.index
      hash := 0
      counterId := pofEntry.counterId
      instructionNum := pofEntry.instructionNum
      instruction := pofEntry.instruction
      priority := 0
      keyLen := 0
      matchFieldNum := pofEntry.matchFieldNum
      match_ := pofEntry.match_
      value := Buf.zeros entryKeyBytes
      mask := Buf.zeros entryKeyBytes }
  let fields := matchFields pofEntry.match_ pofEntry.matchFieldNum
  match table.type with
  | .lpm | .mm => do
      let (ret, value, mask) ← valueMaskAssemble true fields entry.value entry.mask table.keyLen
      let entry := { entry with priority := pofEntry.priority, keyLen := table.keyLen,
                                value := value, mask := mask }
      match ret with
      | .error e => return (.error e, entry)
      | .ok () => return (.ok (), { entry with hash := entryHashByID pofEntry.index })
  | .em => do
      let (ret, value, _) ← valueMaskAssemble false fields entry.value entry.mask table.keyLen
      let entry := { entry with priority := pofEntry.priority, keyLen := table.keyLen,
                                value := value }
      match ret with
      | .error e => return (.error e, entry)
      | .ok () => return (.ok (), { entry with hash := entryHashByValue value table.keyLen })
  | .linear => some (.ok (), { entry with hash := entryHashByID pofEntry.index })

/-- The second half of `entryInsert`: the entry goes into the map, and into the tree of an LPM
table. -/
def entryLink (entry : EntryInfo) (table : TableInfo) : TableInfo :=
  let table := { table with entryMap := table.entryMap.nodeInsert entry,
                            entryNum := table.entryNum + 1 }
  if table.type = .lpm then lpmInsert entry table else table

/-- `entryInsert`. -/
def entryInsert (pofEntry : PofFlowEntry) (newAt : ℕ) (table : TableInfo) :
    Option (Ret × TableInfo) := do
  let (ret, entry) ← entryFill pofEntry newAt table
  match ret with
  | .error e => return (.error e, table)
  | .ok () => return (.ok (), entryLink entry table)

/-- `entryDelete`. -/
def entryDelete (entry : EntryInfo) (table : TableInfo) : TableInfo :=
  let table := { table with entryMap := table.entryMap.nodeDelete entry.addr,
                            entryNum := table.entryNum - 1 }
  if table.type = .lpm then lpmDelete entry table else table

/-- `poflr_entry_get_with_index`: the first entry of the traversal with the index. -/
def poflrEntryGetWithIndex (index : UInt32) (table : TableInfo) : Option EntryInfo :=
  table.entryMap.order.find? fun entry => entry.index = index

/-! ### Lookup -/

/-- `maskMatch`. -/
def maskMatch (mask value key : Buf) (lenB : UInt16) : Bool :=
  (List.range (bytenumCeil lenB.toNat)).all fun i =>
    (mask.rd i).toNat &&& (key.rd i).toNat = (mask.rd i).toNat &&& (value.rd i).toNat

/-- `entryLookup_MM`: a scan with a running maximum. -/
def entryLookupMM (key : Buf) (table : TableInfo) : Option EntryInfo :=
  table.entryMap.order.foldl (fun ret entry =>
    if maskMatch entry.mask entry.value key table.keyLen then
      match ret with
      | none => some entry
      | some best => if best.priority < entry.priority then some entry else ret
    else ret) none

/-- `entryLookup_EM`. -/
def entryLookupEM (key : Buf) (table : TableInfo) : Option EntryInfo :=
  table.entryMap.nodeGetWithHash (entryHashByValue key table.keyLen)

/-- `entryLookup_LPM`, compiled with `LPM_TREE`: the address found by the tree. -/
def entryLookupLPM (key : Buf) (table : TableInfo) : Option ℕ := lpmLookup key table

/-- `poflr_entry_lookup_Linear`. -/
def poflrEntryLookupLinear (index : UInt32) (table : TableInfo) : Option EntryInfo :=
  table.entryMap.nodeGetWithHash (entryHashByID index)

/-- A `struct entryInfo *`: uninitialised, `NULL` or an address. -/
inductive EntryPtr
  | unset
  | null
  | ptr (p : ℕ)
deriving DecidableEq, Repr

/-- The pointer to an entry that was found, `NULL` for none. -/
def EntryPtr.ofOption : Option ℕ → EntryPtr
  | none => null
  | some p => ptr p

/-- `poflr_entry_lookup`: no branch assigns the result for a linear table. -/
def poflrEntryLookup (packet metadata : Buf) (table : TableInfo) : Option EntryPtr := do
  let key ← keyAssemble packet metadata table
  match table.type with
  | .mm => return .ofOption ((entryLookupMM key table).map EntryInfo.addr)
  | .lpm => return .ofOption (entryLookupLPM key table)
  | .em => return .ofOption ((entryLookupEM key table).map EntryInfo.addr)
  | .linear => return .unset

/-! ### Tables of a local resource -/

/-- `poflr_table_id_to_ID`. -/
def poflrTableIdToID (type : TableType) (id : UInt8) (lr : LocalResource) : UInt8 :=
  (lr.tableNumMaxEachType.take type.toNat).foldl (fun ID n => ID + n.toUInt8) 0 + id

/-- `poflr_get_table_with_ID`. -/
def poflrGetTableWithID (ID : UInt8) (lr : LocalResource) : Option TableInfo :=
  lr.tableIdMap.nodeGetWithHash (hmapHashForLinear ID.toUInt32)

/-- `strncpy`: the bytes up to the terminator, padded with zeros. -/
def strncpy (src : Buf) (n : ℕ) : Buf :=
  let s := (src.takeWhile (· ≠ 0)).take n
  s ++ Buf.zeros (n - s.length)

/-- `map_tableInsert`. -/
def mapTableInsert (table : TableInfo) (lr : LocalResource) : LocalResource :=
  { lr with tableIdMap := lr.tableIdMap.nodeInsert table, tableNum := lr.tableNum + 1 }

/-- `map_tableDelete`. -/
def mapTableDelete (table : TableInfo) (lr : LocalResource) : LocalResource :=
  { lr with tableIdMap := lr.tableIdMap.nodeDelete table.addr, tableNum := lr.tableNum - 1 }

/-- The table `poflr_create_flow_table` fills in. -/
def newTable (msg : PofFlowTable) (type : TableType) (ID : UInt8) (newAt : ℕ) : TableInfo where
  addr := newAt
  id := ID
  hash := hmapHashForLinear ID.toUInt32
  type := type
  name := strncpy msg.tableName nameMaxLength
  entryMap := Hmap.create msg.size
  entryNum := 0
  size := msg.size
  keyLen := msg.keyLen
  tree := if type = .lpm then treeCreate else { root := .nil, count := 0 }
  matchFieldNum := msg.matchFieldNum
  match_ := msg.match_.take msg.matchFieldNum.toNat ++
    (List.replicate maxMatchFieldNum default).drop msg.matchFieldNum.toNat

/-- `poflr_create_flow_table`. -/
def poflrCreateFlowTable (msg : PofFlowTable) (newAt : ℕ) (lr : LocalResource) :
    Ret × LocalResource :=
  match TableType.ofUInt8 msg.type with
  | none => (.error ⟨.tableModFailed, .poftmfcBadTableType⟩, lr)
  | some type =>
      if msg.tid.toUInt16 ≥ lr.tableNumMaxEachType.getD type.toNat 0 then
        (.error ⟨.tableModFailed, .poftmfcBadTableId⟩, lr)
      else
        let ID := poflrTableIdToID type msg.tid lr
        if (poflrGetTableWithID ID lr).isSome then
          (.error ⟨.tableModFailed, .poftmfcTableExist⟩, lr)
        else if msg.size > lr.tableSizeMax then
          (.error ⟨.tableModFailed, .poftmfcBadTableSize⟩, lr)
        else if msg.keyLen > lr.keyLenEachType.getD type.toNat 0 then
          (.error ⟨.tableModFailed, .poftmfcBadKeyLen⟩, lr)
        else (.ok (), mapTableInsert (newTable msg type ID newAt) lr)

/-- `poflr_delete_flow_table`. -/
def poflrDeleteFlowTable (id type : UInt8) (lr : LocalResource) : Ret × LocalResource :=
  match TableType.ofUInt8 type with
  | none => (.error ⟨.tableModFailed, .poftmfcBadTableType⟩, lr)
  | some type =>
      if id.toUInt16 ≥ lr.tableNumMaxEachType.getD type.toNat 0 then
        (.error ⟨.tableModFailed, .poftmfcBadTableId⟩, lr)
      else
        match poflrGetTableWithID (poflrTableIdToID type id lr) lr with
        | none => (.error ⟨.tableModFailed, .poftmfcTableUnexist⟩, lr)
        | some table =>
            if table.entryNum ≠ 0 then (.error ⟨.tableModFailed, .poftmfcTableUnempty⟩, lr)
            else (.ok (), mapTableDelete table lr)

/-- The checks with which the three flow-entry requests begin: the type, the table id, the table
and the index. -/
def flowModTable (flow : PofFlowEntry) (lr : LocalResource) : Except PofError TableInfo :=
  match TableType.ofUInt8 flow.tableType with
  | none => .error ⟨.flowModFailed, .poffmfcBadTableType⟩
  | some type =>
      if flow.tableId.toUInt16 ≥ lr.tableNumMaxEachType.getD type.toNat 0 then
        .error ⟨.flowModFailed, .poffmfcBadTableId⟩
      else
        match poflrGetTableWithID (poflrTableIdToID type flow.tableId lr) lr with
        | none => .error ⟨.flowModFailed, .poffmfcBadTableId⟩
        | some table =>
            if flow.index ≥ table.size then .error ⟨.flowModFailed, .poffmfcBadEntryId⟩
            else .ok table

/-- The writes of an operation to its table. -/
def LocalResource.setTable (lr : LocalResource) (table : TableInfo) : LocalResource :=
  { lr with tableIdMap := lr.tableIdMap.modify table.addr fun _ => table }

/-- `poflr_add_flow_entry`, with the addresses of the new entry and of a new counter. -/
def poflrAddFlowEntry (flow : PofFlowEntry) (entryAt counterAt : ℕ) (lr : LocalResource) :
    Option (Ret × LocalResource) :=
  match flowModTable flow lr with
  | .error e => some (.error e, lr)
  | .ok table => do
      match ← entryInsert flow entryAt table with
      | (.error _, _) => return (.error ⟨.flowModFailed, .poffmfcUnknown⟩, lr)
      | (.ok (), table) => return poflrCounterInit flow.counterId counterAt (lr.setTable table)

/-- The counter of a modified entry is initialised when its id changes. -/
def modifyCounter (entry : EntryInfo) (flow : PofFlowEntry) (counterAt : ℕ) (lr : LocalResource) :
    Ret × LocalResource :=
  if entry.counterId ≠ flow.counterId then poflrCounterInit flow.counterId counterAt lr
  else (.ok (), lr)

/-- `poflr_modify_flow_entry`: the old entry is gone when the insertion of the new one fails. -/
def poflrModifyFlowEntry (flow : PofFlowEntry) (entryAt counterAt : ℕ) (lr : LocalResource) :
    Option (Ret × LocalResource) :=
  match flowModTable flow lr with
  | .error e => some (.error e, lr)
  | .ok table =>
      match poflrEntryGetWithIndex flow.index table with
      | none => some (.error ⟨.flowModFailed, .poffmfcEntryUnexist⟩, lr)
      | some entry =>
          match modifyCounter entry flow counterAt lr with
          | (.error e, lr) => some (.error e, lr)
          | (.ok (), lr) => do
              let table := entryDelete entry table
              match ← entryInsert flow entryAt table with
              | (.error _, _) =>
                  return (.error ⟨.flowModFailed, .poffmfcUnknown⟩, lr.setTable table)
              | (.ok (), table) => return (.ok (), lr.setTable table)

/-- `poflr_delete_flow_entry`. -/
def poflrDeleteFlowEntry (flow : PofFlowEntry) (lr : LocalResource) : Ret × LocalResource :=
  match flowModTable flow lr with
  | .error e => (.error e, lr)
  | .ok table =>
      match poflrEntryGetWithIndex flow.index table with
      | none => (.error ⟨.flowModFailed, .poffmfcEntryUnexist⟩, lr)
      | some entry =>
          match poflrCounterDelete entry.counterId lr with
          | (.error e, lr) => (.error e, lr)
          | (.ok (), lr) => (.ok (), lr.setTable (entryDelete entry table))

/-- The inner loop of `poflr_empty_flow_table`: every entry of the table is deleted. -/
def deleteAllEntries (table : TableInfo) (lr : LocalResource) : LocalResource :=
  table.entryMap.order.foldl (fun lr entry =>
    match lr.tableIdMap.nodes.find? fun t => t.addr = table.addr with
    | none => lr
    | some t => lr.setTable (entryDelete entry t)) lr

/-- `poflr_empty_flow_table`: the entries of a table and then the table itself, for every table. -/
def poflrEmptyFlowTable (lr : LocalResource) : LocalResource :=
  lr.tableIdMap.order.foldl (fun lr table => mapTableDelete table (deleteAllEntries table lr)) lr

/-- `poflr_clear_resource`. -/
def poflrClearResource (lr : LocalResource) : LocalResource :=
  poflrEmptyCounter (poflrEmptyMeter (poflrEmptyGroup (poflrEmptyFlowTable (poflrDisableAllPort lr))))

/-! ### What the operations on entries do -/

theorem length_assembleLoop {withMask : Bool} {fields : List PofMatchX} {off off' : UInt16}
    {value mask value' mask' : Buf}
    (h : assembleLoop withMask fields off value mask = some (off', value', mask')) :
    value'.length = value.length ∧ mask'.length = mask.length ∧
      (withMask = false → mask' = mask) := by
  induction fields generalizing off value mask with
  | nil =>
      cases h
      exact ⟨rfl, rfl, fun _ => rfl⟩
  | cons m ms ih =>
      simp only [assembleLoop, Option.bind_eq_bind, Option.bind_eq_some_iff] at h
      obtain ⟨v₁, hv₁, m₁, hm₁, hrest⟩ := h
      obtain ⟨ihv, ihm, ihn⟩ := ih hrest
      refine ⟨ihv.trans (length_pofbfCoverBit hv₁), ihm.trans ?_, fun hw => (ihn hw).trans ?_⟩
      · cases withMask with
        | true =>
            rw [coverMask, if_pos rfl] at hm₁
            exact length_pofbfCoverBit hm₁
        | false =>
            rw [coverMask, if_neg Bool.false_ne_true, Option.some.injEq] at hm₁
            rw [hm₁]
      · rw [coverMask, hw, if_neg Bool.false_ne_true, Option.some.injEq] at hm₁
        exact hm₁.symm

/-- The offset `offset_b` behind the fields, in 16 bits. -/
def endOffset : List PofMatchX → UInt16 → UInt16
  | [], offsetB => offsetB
  | m :: ms, offsetB => endOffset ms (offsetB + m.len)

/-- Assembling returns: no field shorter than a byte crosses into the next byte. -/
def AssembleReturns : List PofMatchX → UInt16 → Prop
  | [], _ => True
  | m :: ms, offsetB =>
      (8 ≤ m.len.toNat ∨ offsetB.toNat % 8 + m.len.toNat ≤ 8) ∧ AssembleReturns ms (offsetB + m.len)

instance decidableAssembleReturns : ∀ (fields : List PofMatchX) (offsetB : UInt16),
    Decidable (AssembleReturns fields offsetB)
  | [], _ => isTrue trivial
  | m :: ms, offsetB =>
      haveI := decidableAssembleReturns ms (offsetB + m.len)
      inferInstanceAs (Decidable (_ ∧ _))

theorem assembleLoop_returns (withMask : Bool) {fields : List PofMatchX} {off : UInt16}
    (h : AssembleReturns fields off) (value mask : Buf) :
    ∃ value' mask',
      assembleLoop withMask fields off value mask = some (endOffset fields off, value', mask') := by
  induction fields generalizing off value mask with
  | nil => exact ⟨value, mask, rfl⟩
  | cons m ms ih =>
      have hcover : ∀ d v : Buf, ∃ d', pofbfCoverBit d v off m.len = some d' := by
        intro d v
        refine Option.ne_none_iff_exists'.1 fun hnone => ?_
        exact (pofbfCoverBit_eq_none_iff d v off m.len).1 hnone h.1
      obtain ⟨value₁, hvalue⟩ := hcover value m.value
      obtain ⟨mask₁, hmask⟩ : ∃ mask₁, coverMask withMask mask m.mask off m.len = some mask₁ := by
        unfold coverMask
        split_ifs
        · exact hcover mask m.mask
        · exact ⟨mask, rfl⟩
      obtain ⟨value', mask', hrest⟩ := ih h.2 value₁ mask₁
      refine ⟨value', mask', ?_⟩
      simp only [assembleLoop, hvalue, hmask, Option.bind_eq_bind, Option.bind_some, hrest, endOffset]

theorem assembleLoop_eq_none (withMask : Bool) {fields : List PofMatchX} {off : UInt16}
    (h : ¬ AssembleReturns fields off) (value mask : Buf) :
    assembleLoop withMask fields off value mask = none := by
  induction fields generalizing off value mask with
  | nil => exact absurd trivial h
  | cons m ms ih =>
      simp only [assembleLoop, Option.bind_eq_bind]
      by_cases hfirst : 8 ≤ m.len.toNat ∨ off.toNat % 8 + m.len.toNat ≤ 8
      · refine Option.bind_eq_none_iff.2 fun value₁ _ => Option.bind_eq_none_iff.2 fun mask₁ _ => ?_
        exact ih (fun hrest => h ⟨hfirst, hrest⟩) value₁ mask₁
      · rw [(pofbfCoverBit_eq_none_iff value m.value off m.len).2 hfirst]
        rfl

/-- What `entryFill` puts into an entry. -/
structure Filled (flow : PofFlowEntry) (newAt : ℕ) (table : TableInfo) (entry : EntryInfo) : Prop where
  addr_eq : entry.addr = newAt
  index_eq : entry.index = flow.index
  counterId_eq : entry.counterId = flow.counterId
  instructionNum_eq : entry.instructionNum = flow.instructionNum
  instruction_eq : entry.instruction = flow.instruction
  matchFieldNum_eq : entry.matchFieldNum = flow.matchFieldNum
  matchArray_eq : entry.match_ = flow.match_
  length_value : entry.value.length = entryKeyBytes
  length_mask : entry.mask.length = entryKeyBytes
  hash_eq : entry.hash = if table.type = .em then entryHashByValue entry.value table.keyLen
    else entryHashByID flow.index
  priority_eq : table.type ≠ .linear → entry.priority = flow.priority
  assembled : table.type ≠ .linear →
    assembleLoop (decide (table.type ≠ .em)) (matchFields flow.match_ flow.matchFieldNum) 0
      (Buf.zeros entryKeyBytes) (Buf.zeros entryKeyBytes) =
        some (table.keyLen, entry.value, entry.mask)

theorem valueMaskAssemble_ok {withMask : Bool} {fields : List PofMatchX} {value mask value' mask' : Buf}
    {keyLen : UInt16}
    (h : valueMaskAssemble withMask fields value mask keyLen = some (.ok (), value', mask')) :
    assembleLoop withMask fields 0 value mask = some (keyLen, value', mask') := by
  simp only [valueMaskAssemble, Option.bind_eq_bind, Option.bind_eq_some_iff] at h
  obtain ⟨⟨off, v, m⟩, hloop, hret⟩ := h
  simp only at hret
  split_ifs at hret with hne
  · simp at hret
  · simp only [Option.pure_def, Option.some.injEq, Prod.mk.injEq, true_and] at hret
    obtain ⟨rfl, rfl⟩ := hret
    rw [hloop, not_not.1 hne]

theorem filled_of_entryFill {flow : PofFlowEntry} {newAt : ℕ} {table : TableInfo} {entry : EntryInfo}
    (h : entryFill flow newAt table = some (.ok (), entry)) : Filled flow newAt table entry := by
  have hmasked : ∀ withMask : Bool, ∀ {value mask : Buf},
      valueMaskAssemble withMask (matchFields flow.match_ flow.matchFieldNum)
        (Buf.zeros entryKeyBytes) (Buf.zeros entryKeyBytes) table.keyLen =
          some (.ok (), value, mask) →
      value.length = entryKeyBytes ∧ mask.length = entryKeyBytes ∧
        (withMask = false → mask = Buf.zeros entryKeyBytes) ∧
        assembleLoop withMask (matchFields flow.match_ flow.matchFieldNum) 0
          (Buf.zeros entryKeyBytes) (Buf.zeros entryKeyBytes) =
            some (table.keyLen, value, mask) := by
    intro withMask value mask hv
    have hloop := valueMaskAssemble_ok hv
    obtain ⟨hvl, hml, hn⟩ := length_assembleLoop hloop
    exact ⟨hvl.trans (Buf.length_zeros _), hml.trans (Buf.length_zeros _), hn, hloop⟩
  cases htype : table.type with
  | linear =>
      simp only [entryFill, htype, Option.some.injEq, Prod.mk.injEq, true_and] at h
      subst h
      constructor <;> simp [htype, entryHashByID]
  | em =>
      simp only [entryFill, htype, Option.bind_eq_bind, Option.bind_eq_some_iff] at h
      obtain ⟨⟨ret, value, mask⟩, hv, hret⟩ := h
      cases ret with
      | error e => simp at hret
      | ok u =>
          obtain ⟨hvl, hml, hn, hloop⟩ := hmasked false hv
          simp only [Option.pure_def, Option.some.injEq, Prod.mk.injEq, true_and] at hret
          subst hret
          constructor <;> simp [htype, hvl, hloop, hn]
  | lpm =>
      simp only [entryFill, htype, Option.bind_eq_bind, Option.bind_eq_some_iff] at h
      obtain ⟨⟨ret, value, mask⟩, hv, hret⟩ := h
      cases ret with
      | error e => simp at hret
      | ok u =>
          obtain ⟨hvl, hml, hn, hloop⟩ := hmasked true hv
          simp only [Option.pure_def, Option.some.injEq, Prod.mk.injEq, true_and] at hret
          subst hret
          constructor <;> simp [htype, hvl, hml, hloop]
  | mm =>
      simp only [entryFill, htype, Option.bind_eq_bind, Option.bind_eq_some_iff] at h
      obtain ⟨⟨ret, value, mask⟩, hv, hret⟩ := h
      cases ret with
      | error e => simp at hret
      | ok u =>
          obtain ⟨hvl, hml, hn, hloop⟩ := hmasked true hv
          simp only [Option.pure_def, Option.some.injEq, Prod.mk.injEq, true_and] at hret
          subst hret
          constructor <;> simp [htype, hvl, hml, hloop]

theorem Filled.match_eq {flow : PofFlowEntry} {newAt : ℕ} {table : TableInfo} {entry : EntryInfo}
    (h : Filled flow newAt table entry) :
    matchFields entry.match_ entry.matchFieldNum = matchFields flow.match_ flow.matchFieldNum := by
  rw [h.matchArray_eq, h.matchFieldNum_eq]

/-- The fields of the message are as long as the key, counted in 16 bits.  A linear table does not
look at them. -/
def Accepts (flow : PofFlowEntry) (table : TableInfo) : Prop :=
  table.type = .linear ∨ AssembleReturns (matchFields flow.match_ flow.matchFieldNum) 0 ∧
    endOffset (matchFields flow.match_ flow.matchFieldNum) 0 = table.keyLen

/-- The fields of the message are not as long as the key. -/
def Refuses (flow : PofFlowEntry) (table : TableInfo) : Prop :=
  table.type ≠ .linear ∧ AssembleReturns (matchFields flow.match_ flow.matchFieldNum) 0 ∧
    endOffset (matchFields flow.match_ flow.matchFieldNum) 0 ≠ table.keyLen

instance (flow : PofFlowEntry) (table : TableInfo) : Decidable (Accepts flow table) :=
  inferInstanceAs (Decidable (_ ∨ _ ∧ _))

instance (flow : PofFlowEntry) (table : TableInfo) : Decidable (Refuses flow table) :=
  inferInstanceAs (Decidable (_ ∧ _ ∧ _))

theorem Refuses.not_accepts {flow : PofFlowEntry} {table : TableInfo} (h : Refuses flow table) :
    ¬ Accepts flow table := by
  rintro (hlinear | ⟨_, hlen⟩)
  · exact h.1 hlinear
  · exact h.2.2 hlen

/-- Unless the table is linear, `entryFill` returns what assembling the fields returns. -/
theorem fst_entryFill (flow : PofFlowEntry) (newAt : ℕ) {table : TableInfo}
    (htype : table.type ≠ .linear) :
    (entryFill flow newAt table).map Prod.fst =
      (valueMaskAssemble (decide (table.type ≠ .em)) (matchFields flow.match_ flow.matchFieldNum)
        (Buf.zeros entryKeyBytes) (Buf.zeros entryKeyBytes) table.keyLen).map Prod.fst := by
  cases htype' : table.type with
  | linear => exact absurd htype' htype
  | em =>
      simp only [entryFill, htype', ne_eq, not_true_eq_false, decide_false]
      rcases valueMaskAssemble _ _ _ _ _ with _ | ⟨_ | _, value, mask⟩ <;> rfl
  | lpm =>
      simp only [entryFill, htype', ne_eq, reduceCtorEq, not_false_eq_true, decide_true]
      rcases valueMaskAssemble _ _ _ _ _ with _ | ⟨_ | _, value, mask⟩ <;> rfl
  | mm =>
      simp only [entryFill, htype', ne_eq, reduceCtorEq, not_false_eq_true, decide_true]
      rcases valueMaskAssemble _ _ _ _ _ with _ | ⟨_ | _, value, mask⟩ <;> rfl

/-- **What `entryInsert` can do**: link a filled entry, refuse and leave the table alone, or not
return. -/
theorem entryInsert_cases (flow : PofFlowEntry) (newAt : ℕ) (table : TableInfo) :
    (Accepts flow table ∧ ∃ entry, Filled flow newAt table entry ∧
        entryInsert flow newAt table = some (.ok (), entryLink entry table)) ∨
      (Refuses flow table ∧ ∃ e, entryInsert flow newAt table = some (.error e, table)) ∨
      (¬ Accepts flow table ∧ ¬ Refuses flow table ∧ entryInsert flow newAt table = none) := by
  have hok : (entryFill flow newAt table).map Prod.fst = some (.ok ()) →
      ∃ entry, Filled flow newAt table entry ∧
        entryInsert flow newAt table = some (.ok (), entryLink entry table) := by
    intro h
    obtain ⟨⟨ret, entry⟩, hfill, rfl⟩ := Option.map_eq_some_iff.1 h
    exact ⟨entry, filled_of_entryFill hfill, by simp [entryInsert, hfill]⟩
  by_cases htype : table.type = .linear
  · refine Or.inl ⟨Or.inl htype, hok ?_⟩
    simp only [entryFill, htype, Option.map_some]
  · have hfst := fst_entryFill flow newAt htype
    by_cases hret : AssembleReturns (matchFields flow.match_ flow.matchFieldNum) 0
    · obtain ⟨value, mask, hloop⟩ := assembleLoop_returns (decide (table.type ≠ .em)) hret
        (Buf.zeros entryKeyBytes) (Buf.zeros entryKeyBytes)
      by_cases hlen : endOffset (matchFields flow.match_ flow.matchFieldNum) 0 = table.keyLen
      · refine Or.inl ⟨Or.inr ⟨hret, hlen⟩, hok ?_⟩
        rw [hfst, valueMaskAssemble, hloop]
        simp [hlen]
      · refine Or.inr (Or.inl ⟨⟨htype, hret, hlen⟩, ?_⟩)
        have herror : (entryFill flow newAt table).map Prod.fst =
            some (.error ⟨.tableModFailed, .poftmfcBadKeyLen⟩) := by
          rw [hfst, valueMaskAssemble, hloop]
          simp [hlen]
        obtain ⟨⟨ret, entry⟩, hfill, rfl⟩ := Option.map_eq_some_iff.1 herror
        exact ⟨_, by simp only [entryInsert, hfill]; rfl⟩
    · have hloop := assembleLoop_eq_none (decide (table.type ≠ .em)) hret (Buf.zeros entryKeyBytes)
        (Buf.zeros entryKeyBytes)
      have hnone : entryFill flow newAt table = none := by
        rw [← Option.map_eq_none_iff (f := Prod.fst), hfst, valueMaskAssemble, hloop]
        rfl
      refine Or.inr (Or.inr ⟨?_, fun h => hret h.2.1, by simp [entryInsert, hnone]⟩)
      rintro (hlinear | ⟨h, _⟩)
      · exact htype hlinear
      · exact hret h

/-- Everything but the entries is as before. -/
structure SameShape (t t' : TableInfo) : Prop where
  addr_eq : t'.addr = t.addr
  id_eq : t'.id = t.id
  hash_eq : t'.hash = t.hash
  type_eq : t'.type = t.type
  name_eq : t'.name = t.name
  size_eq : t'.size = t.size
  keyLen_eq : t'.keyLen = t.keyLen
  matchFieldNum_eq : t'.matchFieldNum = t.matchFieldNum
  match_eq : t'.match_ = t.match_

theorem SameShape.refl (t : TableInfo) : SameShape t t := ⟨rfl, rfl, rfl, rfl, rfl, rfl, rfl, rfl, rfl⟩

theorem SameShape.trans {t t' t'' : TableInfo} (h : SameShape t t') (h' : SameShape t' t'') :
    SameShape t t'' :=
  ⟨h'.1.trans h.1, h'.2.trans h.2, h'.3.trans h.3, h'.4.trans h.4, h'.5.trans h.5, h'.6.trans h.6,
    h'.7.trans h.7, h'.8.trans h.8, h'.9.trans h.9⟩

theorem sameShape_entryLink (e : EntryInfo) (t : TableInfo) : SameShape t (entryLink e t) := by
  unfold entryLink
  simp only
  split_ifs
  · exact ⟨rfl, rfl, rfl, rfl, rfl, rfl, rfl, rfl, rfl⟩
  · exact ⟨rfl, rfl, rfl, rfl, rfl, rfl, rfl, rfl, rfl⟩

theorem sameShape_entryDelete (e : EntryInfo) (t : TableInfo) : SameShape t (entryDelete e t) := by
  unfold entryDelete
  simp only
  split_ifs
  · exact ⟨rfl, rfl, rfl, rfl, rfl, rfl, rfl, rfl, rfl⟩
  · exact ⟨rfl, rfl, rfl, rfl, rfl, rfl, rfl, rfl, rfl⟩

/-- The entries do not matter for what is filled into a new one. -/
theorem Filled.of_sameShape {flow : PofFlowEntry} {newAt : ℕ} {t t' : TableInfo} {e : EntryInfo}
    (h : Filled flow newAt t' e) (hshape : SameShape t t') : Filled flow newAt t e :=
  { h with
    hash_eq := by rw [h.hash_eq, hshape.type_eq, hshape.keyLen_eq]
    priority_eq := by
      rw [← hshape.type_eq]
      exact h.priority_eq
    assembled := by
      rw [← hshape.type_eq, ← hshape.keyLen_eq]
      exact h.assembled }

theorem entryMap_entryLink (e : EntryInfo) (t : TableInfo) :
    (entryLink e t).entryMap = t.entryMap.nodeInsert e := by
  unfold entryLink
  simp only
  split_ifs <;> rfl

theorem entryMap_entryDelete (e : EntryInfo) (t : TableInfo) :
    (entryDelete e t).entryMap = t.entryMap.nodeDelete e.addr := by
  unfold entryDelete
  simp only
  split_ifs <;> rfl

theorem entryNum_entryLink (e : EntryInfo) (t : TableInfo) :
    (entryLink e t).entryNum = t.entryNum + 1 := by
  unfold entryLink
  simp only
  split_ifs <;> rfl

theorem entryNum_entryDelete (e : EntryInfo) (t : TableInfo) :
    (entryDelete e t).entryNum = t.entryNum - 1 := by
  unfold entryDelete
  simp only
  split_ifs <;> rfl

@[simp] theorem nodes_entryLink (e : EntryInfo) (t : TableInfo) :
    (entryLink e t).entryMap.nodes = e :: t.entryMap.nodes := by
  rw [entryMap_entryLink]
  rfl

@[simp] theorem nodes_entryDelete (e : EntryInfo) (t : TableInfo) :
    (entryDelete e t).entryMap.nodes = t.entryMap.nodes.filter fun e' => addr e' ≠ e.addr := by
  rw [entryMap_entryDelete, Hmap.nodes_nodeDelete]

end PofSwitch
