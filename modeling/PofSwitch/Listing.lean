/-
**Listing the tables: `listen_tables` and `cmd_tables`.**

The listen task of the switch answers the command `tables` with a stream of structures: a head with
the number of slots; for every slot a head with its number of tables; for every table the table, a
head with its number of entries and the entries.  The client reads the stream by these numbers, with
nothing in it to synchronise on.  It consumes exactly what was written as long as every count says
how many structures follow.

A call of `send` writes one structure and a call of `recv` returns one.

Main definitions:

* `PofSwitch.Record`, `PofSwitch.listenTables` — the stream;
* `PofSwitch.cmdTables` — the client; `none` when a structure of another kind comes up.

Main results:

* `PofSwitch.recvLoop_flatMap` — a counted loop reads back what was written;
* `PofSwitch.cmdTables_listenTables` — **in every reachable state the counts are right, and the client
  gets every table with its entries and stops at the end of the stream, as long as no table has
  `2 ^ 32` entries.**
-/

import PofSwitch.LrStore
import Mathlib.Algebra.Order.BigOperators.Group.List

set_option relaxedAutoImplicit false
set_option autoImplicit false

namespace PofSwitch

open HmapNode

/-! ### The server -/

/-- The structures in the stream: `struct responseHead`, `struct tableInfo`, `struct entryInfo`. -/
inductive Record
  | head (count : UInt32) (disc : String)
  | table (t : TableInfo)
  | entry (e : EntryInfo)

/-- One table of `listen_tables`: the table, the number of its entries and the entries. -/
def listenTable (t : TableInfo) : List Record :=
  .table t :: .head t.entryNum "entries" :: t.entryMap.order.map .entry

/-- One slot of `listen_tables`. -/
def listenSlot (lr : LocalResource) : List Record :=
  .head lr.tableNum.toUInt32 "tables" :: lr.tableIdMap.order.flatMap listenTable

/-- `listen_tables`. -/
def listenTables (dp : Slots) : List Record :=
  .head dp.slotNum "slots" :: dp.slots.flatMap listenSlot

/-! ### The client -/

/-- `cmdRecv` of a `struct responseHead`. -/
def recvHead : List Record → Option (UInt32 × List Record)
  | .head count _ :: stream => some (count, stream)
  | _ => none

/-- `cmdRecv` of a `struct tableInfo`. -/
def recvTable : List Record → Option (TableInfo × List Record)
  | .table t :: stream => some (t, stream)
  | _ => none

/-- `cmdRecv` of a `struct entryInfo`. -/
def recvEntry : List Record → Option (EntryInfo × List Record)
  | .entry e :: stream => some (e, stream)
  | _ => none

/-- A loop of the client: `count` times the same. -/
def recvLoop {α : Type} (recvOne : List Record → Option (α × List Record)) :
    ℕ → List Record → Option (List α × List Record)
  | 0, stream => some ([], stream)
  | count + 1, stream => do
      let (a, stream) ← recvOne stream
      let (as, stream) ← recvLoop recvOne count stream
      return (a :: as, stream)

/-- One table of `cmd_tables`. -/
def cmdTable (stream : List Record) : Option ((TableInfo × List EntryInfo) × List Record) := do
  let (t, stream) ← recvTable stream
  let (count, stream) ← recvHead stream
  let (entries, stream) ← recvLoop recvEntry count.toNat stream
  return ((t, entries), stream)

/-- One slot of `cmd_tables`. -/
def cmdSlot (stream : List Record) : Option (List (TableInfo × List EntryInfo) × List Record) := do
  let (count, stream) ← recvHead stream
  recvLoop cmdTable count.toNat stream

/-- `cmd_tables`: what it prints, and what it leaves of the stream. -/
def cmdTables (stream : List Record) :
    Option (List (List (TableInfo × List EntryInfo)) × List Record) := do
  let (count, stream) ← recvHead stream
  recvLoop cmdSlot count.toNat stream

/-! ### Reading back -/

/-- **A counted loop reads back what was written**, when every item is read back. -/
theorem recvLoop_flatMap {α β : Type} {recvOne : List Record → Option (α × List Record)}
    (send : β → List Record) (got : β → α) {items : List β}
    (h : ∀ b ∈ items, ∀ rest, recvOne (send b ++ rest) = some (got b, rest)) (rest : List Record) :
    recvLoop recvOne items.length (items.flatMap send ++ rest) = some (items.map got, rest) := by
  induction items with
  | nil => rfl
  | cons b items ih =>
      have hone := h b List.mem_cons_self
      have hmany := ih fun b' hb' => h b' (List.mem_cons_of_mem _ hb')
      simp only [List.length_cons, recvLoop, List.flatMap_cons, List.append_assoc, hone, hmany,
        List.map_cons, Option.bind_eq_bind, Option.bind_some, Option.pure_def]

/-- The client gets the table with its entries. -/
theorem cmdTable_listenTable {t : TableInfo} (h : t.entryNum.toNat = t.entryMap.order.length)
    (rest : List Record) : cmdTable (listenTable t ++ rest) = some ((t, t.entryMap.order), rest) := by
  have hloop : recvLoop recvEntry t.entryMap.order.length (t.entryMap.order.map .entry ++ rest) =
      some (t.entryMap.order, rest) := by
    rw [List.map_eq_flatMap]
    have hread := recvLoop_flatMap (fun e => [Record.entry e]) id
      (fun e (_ : e ∈ t.entryMap.order) rest => show recvEntry _ = some (e, rest) from rfl) rest
    rwa [List.map_id] at hread
  simp only [cmdTable, listenTable, List.cons_append, recvTable, recvHead, Option.bind_eq_bind,
    Option.bind_some, h, hloop, Option.pure_def]

/-- The client gets the tables of the slot. -/
theorem cmdSlot_listenSlot {lr : LocalResource} (h : lr.tableNum.toNat = lr.tableIdMap.order.length)
    (hentries : ∀ t ∈ lr.tableIdMap.order, t.entryNum.toNat = t.entryMap.order.length)
    (rest : List Record) : cmdSlot (listenSlot lr ++ rest) =
      some (lr.tableIdMap.order.map fun t => (t, t.entryMap.order), rest) := by
  have hread := recvLoop_flatMap listenTable (fun t => (t, t.entryMap.order))
    (fun t ht rest => cmdTable_listenTable (hentries t ht) rest) rest
  simp only [cmdSlot, listenSlot, List.cons_append, recvHead, Option.bind_eq_bind, Option.bind_some,
    UInt16.toNat_toUInt32, h, hread]

/-- **In every reachable state the counts are right and announce the structures that follow, and the
client gets every table with its entries and stops at the end of the stream, as long as no table has
`2 ^ 32` entries.** -/
theorem cmdTables_listenTables {dp : Slots} (h : ∀ lr ∈ dp.slots, LrReachable lr) :
    (∀ lr ∈ dp.slots, Counted lr) ∧
      ((∀ lr ∈ dp.slots, ∀ t ∈ lr.tableIdMap.nodes, t.entryMap.nodes.length < 2 ^ 32) →
        (∀ lr ∈ dp.slots, lr.tableNum.toNat = lr.tableIdMap.order.length ∧
          ∀ t ∈ lr.tableIdMap.order, t.entryNum.toNat = t.entryMap.order.length) ∧
        ∀ rest, cmdTables (listenTables dp ++ rest) =
          some (dp.slots.map fun lr => lr.tableIdMap.order.map fun t => (t, t.entryMap.order), rest)) := by
  have hcounted : ∀ lr ∈ dp.slots, Counted lr := fun lr hlr => counted_of_reachable (h lr hlr)
  refine ⟨hcounted, fun hfew => ?_⟩
  have hslots : ∀ lr ∈ dp.slots, lr.tableNum.toNat = lr.tableIdMap.order.length ∧
      ∀ t ∈ lr.tableIdMap.order, t.entryNum.toNat = t.entryMap.order.length := by
    intro lr hlr
    refine ⟨(hcounted lr hlr).tables.1.trans lr.tableIdMap.order_perm.length_eq.symm, fun t ht => ?_⟩
    have hmem := lr.tableIdMap.mem_order.1 ht
    rw [((hcounted lr hlr).entries t hmem).2, Nat.mod_eq_of_lt (hfew lr hlr t hmem)]
    exact t.entryMap.order_perm.length_eq.symm
  refine ⟨hslots, fun rest => ?_⟩
  have hread := recvLoop_flatMap listenSlot
    (fun lr => lr.tableIdMap.order.map fun t => (t, t.entryMap.order))
    (fun lr hlr rest => cmdSlot_listenSlot (hslots lr hlr).1 (hslots lr hlr).2 rest) rest
  simp only [cmdTables, listenTables, List.cons_append, recvHead, Option.bind_eq_bind,
    Option.bind_some, dp.slotNum_eq, hread]

/-- A slot whose table has one entry. -/
def oneSlot : Slots where
  slotNum := 1
  slots := [matchAll 0 []]
  slotNum_eq := rfl

/-- The table comes with its entry, and the stream is used up. -/
theorem cmdTables_listenTables_one : Counted (matchAll 0 []) ∧
    cmdTables (listenTables oneSlot) =
      some ([(matchAll 0 []).tableIdMap.order.map fun t => (t, t.entryMap.order)], []) := by
  have hreach : ∀ lr ∈ oneSlot.slots, LrReachable lr := by
    intro lr hlr
    rw [List.mem_singleton.1 hlr]
    exact matchAll_reachable 0 []
  have hfew : ∀ lr ∈ oneSlot.slots, ∀ t ∈ lr.tableIdMap.nodes, t.entryMap.nodes.length < 2 ^ 32 := by
    decide
  obtain ⟨hcounted, hlist⟩ := cmdTables_listenTables hreach
  refine ⟨hcounted _ List.mem_cons_self, ?_⟩
  have hread := (hlist hfew).2 []
  rwa [List.append_nil] at hread

/-! ### A table with `2 ^ 32` entries -/

/-- An entry for the linear table of the small local resource. -/
def linearEntry : PofFlowEntry := oneFieldEntry 3 8 0 0 [] []

theorem flowModTable_linearEntry {lr : LocalResource} {t : TableInfo}
    (hlim : lr.tableNumMaxEachType = [1, 1, 1, 1]) (hnodes : lr.tableIdMap.nodes = [t])
    (hhash : t.hash = 3) (hsize : t.size = 16) : flowModTable linearEntry lr = .ok t := by
  have hget : poflrGetTableWithID 3 lr = some t := by
    rw [poflrGetTableWithID, Hmap.nodeGetWithHash, hnodes]
    exact List.find?_cons_of_pos (decide_eq_true hhash)
  have hID : poflrTableIdToID .linear 0 lr = 3 := by
    rw [poflrTableIdToID, hlim]
    rfl
  have htype : TableType.ofUInt8 linearEntry.tableType = some .linear := rfl
  have hid : linearEntry.tableId = 0 := rfl
  have hindex : ¬ linearEntry.index ≥ t.size := by
    rw [hsize]
    decide
  have hmax : ¬ (0 : UInt8).toUInt16 ≥ [1, 1, 1, 1].getD TableType.linear.toNat 0 := by decide
  simp only [flowModTable, htype, hid, hlim, hmax, if_false, hID, hget, hindex]

/-- A table with as many entries as one likes: an entry may be added again and again. -/
theorem exists_entries (k : ℕ) : ∃ lr t, LrReachable lr ∧ lr.tableNumMaxEachType = [1, 1, 1, 1] ∧
    lr.tableIdMap.nodes = [t] ∧ t.type = .linear ∧ t.hash = 3 ∧ t.size = 16 ∧
    t.entryMap.nodes.length = k := by
  induction k with
  | zero =>
      have hrun : LrReachable ((LrOp.createFlowTable (oneFieldTable 3 8) 1).next
          (pofLocalresourceInit smallConfig)) :=
        (LrRun.init smallConfig trivial).next _ (by decide) rfl trivial
      exact ⟨_, _, hrun, rfl, rfl, rfl, rfl, rfl, rfl⟩
  | succ k ih =>
      obtain ⟨lr, t, hrun, hlim, hnodes, htype, hhash, hsize, hlen⟩ := ih
      have hmod := flowModTable_linearEntry hlim hnodes hhash hsize
      have hle : ∀ a ∈ lr.liveAddrs, a ≤ lr.liveAddrs.sum := List.single_le_sum fun _ _ => Nat.zero_le _
      have hfresh : (LrOp.addFlowEntry linearEntry (lr.liveAddrs.sum + 1)
          (lr.liveAddrs.sum + 2)).Fresh lr := by
        refine ⟨by simp [LrOp.allocs], fun a ha => ⟨?_, fun hlive => ?_⟩⟩
        · simp only [LrOp.allocs, List.mem_cons, List.not_mem_nil, or_false] at ha
          omega
        · have hsum := hle a hlive
          simp only [LrOp.allocs, List.mem_cons, List.not_mem_nil, or_false] at ha
          omega
      rcases poflrAddFlowEntry_cases linearEntry (lr.liveAddrs.sum + 1) (lr.liveAddrs.sum + 2) lr with
        ⟨e, _, hrefuse⟩ | ⟨t', ht', hacc, _, _⟩ | ⟨t', entry, ht', _, _, heq⟩
      · exact absurd htype (hrefuse t hmod).1
      · cases hmod.symm.trans ht'
        exact absurd (Or.inl htype) hacc
      · cases hmod.symm.trans ht'
        have hshape := sameShape_entryLink entry t
        refine ⟨lr.setTable (entryLink entry t), entryLink entry t,
          LrRun.step hrun hfresh heq trivial, hlim, ?_, hshape.type_eq.trans htype,
          hshape.hash_eq.trans hhash, hshape.size_eq.trans hsize, ?_⟩
        · rw [LocalResource.setTable, Hmap.modify, hnodes, List.map_singleton]
          exact congrArg (fun u => [u]) (if_pos hshape.addr_eq.symm)
        · rw [nodes_entryLink, List.length_cons, hlen]

/-- The count of entries has 32 bits: after `2 ^ 32` additions it is `0`. -/
theorem entryNum_wraps : ¬ ∀ (lr : LocalResource) (t : TableInfo), LrReachable lr →
    t ∈ lr.tableIdMap.nodes → t.entryNum.toNat = t.entryMap.nodes.length := by
  intro hall
  obtain ⟨lr, t, hrun, _, hnodes, _, _, _, hlen⟩ := exists_entries (2 ^ 32)
  have hnum := hall lr t hrun (by rw [hnodes]; exact List.mem_cons_self)
  have hlt := t.entryNum.toNat_lt
  omega

end PofSwitch
