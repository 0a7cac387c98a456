/-
**Global table identifiers.**

A table has an identifier among the tables of its type and a global one.  `poflr_table_id_to_ID` adds
to the first the numbers of tables of the types before it, and `poflr_table_ID_to_id` takes them off
again.  With exact numbers this is the division of an interval into consecutive blocks, and the two
are inverse.  The sums of the code have eight bits, so both work for the tables whose block ends
before `256` only.

Main definitions:

* `PofSwitch.blockStart`, `PofSwitch.blockOf` — an interval in consecutive blocks;
* `PofSwitch.TableIdsOk` — two tables have two global identifiers, the identifier gives the table
  back, and `GOTO_TABLE` reports the type of the table it enters;
* `PofSwitch.TablesFit` — the blocks of the types end before `256`;
* `PofSwitch.TableRun` — the local resources that requests and packets lead to.

Main results:

* `PofSwitch.tableIDLoop_eq` — the loop of the code finds the block;
* `PofSwitch.inverse_iff` — an identifier gives the table back when the exact sum has eight bits;
* `PofSwitch.placed_of_tableRun` — every stored table has the identifier of its type;
* `PofSwitch.tableIdsOk_iff` — the identifiers are right for the numbers of tables that fit.
-/

import PofSwitch.Config
import PofSwitch.CounterTotals

set_option relaxedAutoImplicit false
set_option autoImplicit false

namespace PofSwitch

open Prog

/-! ### An interval in blocks -/

section Blocks

variable {ns : List ℕ} {i j k : ℕ}

/-- Where block `i` starts. -/
def blockStart (ns : List ℕ) (i : ℕ) : ℕ := (ns.take i).sum

/-- The block a number is in, and its place there. -/
def blockOf : List ℕ → ℕ → Option (ℕ × ℕ)
  | [], _ => none
  | n :: ns, k => if n ≤ k then (blockOf ns (k - n)).map (fun p => (p.1 + 1, p.2)) else some (0, k)

theorem blockStart_cons_succ (n : ℕ) (ns : List ℕ) (i : ℕ) :
    blockStart (n :: ns) (i + 1) = n + blockStart ns i := by
  rw [blockStart, blockStart, List.take_succ_cons, List.sum_cons]

theorem blockOf_start_add (h : j < ns.getD i 0) : blockOf ns (blockStart ns i + j) = some (i, j) := by
  -- a block behind the first one is a block of the rest, shifted by the length of the first
  induction ns generalizing i with
  | nil => simp at h
  | cons n ns ih =>
      cases i with
      | zero =>
          have hlt : ¬ n ≤ j := by simpa using h
          simp [blockStart, blockOf, hlt]
      | succ i =>
          have hrest : n + blockStart ns i + j - n = blockStart ns i + j := by omega
          have hle : n ≤ n + blockStart ns i + j := by omega
          rw [blockStart_cons_succ, blockOf, if_pos hle, hrest, ih (by simpa using h)]
          rfl

theorem eq_of_blockOf (h : blockOf ns k = some (i, j)) :
    k = blockStart ns i + j ∧ i < ns.length ∧ j ≤ k := by
  induction ns generalizing k i with
  | nil => cases h
  | cons n ns ih =>
      rw [blockOf] at h
      split_ifs at h with hle
      · obtain ⟨⟨i', j'⟩, hrest, heq⟩ := Option.map_eq_some_iff.1 h
        dsimp only at heq
        cases heq
        obtain ⟨hk, hi, hj⟩ := ih hrest
        refine ⟨?_, Nat.succ_lt_succ hi, by omega⟩
        rw [blockStart_cons_succ]
        omega
      · cases h
        simp [blockStart]

end Blocks

/-! ### The mapping and its inverse -/

/-- The numbers of tables without their width. -/
def tableCounts (lr : LocalResource) : List ℕ := lr.tableNumMaxEachType.map UInt16.toNat

/-- A table that the configuration allows: `id` passes the check of the requests for tables. -/
def TableAllowed (lr : LocalResource) (type : TableType) (id : UInt8) : Prop :=
  id.toUInt16 < lr.tableNumMaxEachType.getD type.toNat 0

instance (lr : LocalResource) (type : TableType) (id : UInt8) : Decidable (TableAllowed lr type id) :=
  inferInstanceAs (Decidable (_ < _))

theorem tableAllowed_iff {lr : LocalResource} {type : TableType} {id : UInt8} :
    TableAllowed lr type id ↔ id.toNat < (tableCounts lr).getD type.toNat 0 := by
  have hget : (tableCounts lr).getD type.toNat 0 = (lr.tableNumMaxEachType.getD type.toNat 0).toNat :=
    List.getD_map lr.tableNumMaxEachType 0 UInt16.toNat
  rw [TableAllowed, UInt16.lt_iff_toNat_lt, hget, UInt8.toNat_toUInt16]

theorem foldl_toUInt8_toNat (ns : List UInt16) (ID : UInt8) :
    (ns.foldl (fun ID n => ID + n.toUInt8) ID).toNat = (ID.toNat + (ns.map UInt16.toNat).sum) % 256 := by
  induction ns generalizing ID with
  | nil => simp
  | cons n ns ih =>
      rw [List.foldl_cons, ih, List.map_cons, List.sum_cons, UInt8.toNat_add, UInt16.toNat_toUInt8]
      omega

/-- The global identifier is the exact one, cut to eight bits. -/
theorem poflrTableIdToID_toNat (type : TableType) (id : UInt8) (lr : LocalResource) :
    (poflrTableIdToID type id lr).toNat =
      (blockStart (tableCounts lr) type.toNat + id.toNat) % 256 := by
  rw [poflrTableIdToID, UInt8.toNat_add, foldl_toUInt8_toNat, blockStart, tableCounts, List.map_take]
  simp

/-- **The loop of `poflr_table_ID_to_id` finds the block of the identifier.** -/
theorem tableIDLoop_eq (ns : List UInt16) (ID i : UInt8) :
    tableIDLoop ns ID i = (blockOf (ns.map UInt16.toNat) ID.toNat).map fun p =>
      (i + UInt8.ofNat p.1, UInt8.ofNat p.2) := by
  induction ns generalizing ID i with
  | nil => rfl
  | cons n ns ih =>
      have hge : ID.toUInt16 ≥ n ↔ n.toNat ≤ ID.toNat := by
        rw [ge_iff_le, UInt16.le_iff_toNat_le, UInt8.toNat_toUInt16]
      rw [tableIDLoop, List.map_cons, blockOf]
      by_cases hle : n.toNat ≤ ID.toNat
      · have hsub : (ID - n.toUInt8).toNat = ID.toNat - n.toNat := by
          have hID := ID.toNat_lt
          rw [UInt8.toNat_sub, UInt16.toNat_toUInt8]
          omega
        rw [if_pos (hge.2 hle), if_pos hle, ih, hsub, Option.map_map]
        congr 1
        funext p
        have hnext : i + 1 + UInt8.ofNat p.1 = i + UInt8.ofNat (p.1 + 1) := by
          rw [UInt8.ofNat_add, UInt8.add_assoc, UInt8.add_comm 1]
          rfl
        exact Prod.ext hnext rfl
      · rw [if_neg (fun h => hle (hge.1 h)), if_neg hle]
        simp

theorem poflrTableIDToId_eq {lr : LocalResource} (hlen : lr.tableNumMaxEachType.length = 4) (ID : UInt8) :
    poflrTableIDToId ID lr = (blockOf (tableCounts lr) ID.toNat).map fun p =>
      (UInt8.ofNat p.1, UInt8.ofNat p.2) := by
  rw [poflrTableIDToId, List.take_of_length_le hlen.le, tableIDLoop_eq]
  simp only [UInt8.zero_add]
  rfl

/-- **The identifier of a table gives the table back exactly when it needs no more than eight bits.** -/
theorem inverse_iff {lr : LocalResource} (hlen : lr.tableNumMaxEachType.length = 4) {type : TableType}
    {id : UInt8} (hid : TableAllowed lr type id) :
    poflrTableIDToId (poflrTableIdToID type id lr) lr = some (UInt8.ofNat type.toNat, id) ↔
      blockStart (tableCounts lr) type.toNat + id.toNat < 256 := by
  have hID := poflrTableIdToID_toNat type id lr
  have hIDlt := (poflrTableIdToID type id lr).toNat_lt
  have htype : type.toNat < 4 := by cases type <;> decide
  rw [poflrTableIDToId_eq hlen]
  constructor
  · intro h
    obtain ⟨⟨i, j⟩, hblock, heq⟩ := Option.map_eq_some_iff.1 h
    obtain ⟨hk, hi, hj⟩ := eq_of_blockOf hblock
    obtain ⟨hi', hj'⟩ := Prod.mk.inj heq
    have hlen' : (tableCounts lr).length = 4 := by rw [tableCounts, List.length_map, hlen]
    -- the block and the place are too small to be cut
    have hi_eq : i = type.toNat := by
      have hnat := congrArg UInt8.toNat hi'
      rw [UInt8.toNat_ofNat', UInt8.toNat_ofNat'] at hnat
      omega
    have hj_eq : j = id.toNat := by
      have hnat := congrArg UInt8.toNat hj'
      rw [UInt8.toNat_ofNat'] at hnat
      omega
    rw [← hi_eq, ← hj_eq, ← hk]
    exact hIDlt
  · intro hlt
    rw [hID, Nat.mod_eq_of_lt hlt, blockOf_start_add (tableAllowed_iff.1 hid)]
    simp

/-! ### Tables in use -/

/-- The local resources with these numbers of tables that requests and packets lead to.  What a packet
does to a local resource is to increase counters. -/
inductive TableRun (nums : Vector UInt16 4) : LocalResource → Prop
  | start {lr : LocalResource} {param : PofParam} : param.tableNumMaxEachType = nums →
      lr.tableIdMap.nodes = [] → TableRun nums (fillLocalresourceParam lr param)
  | request {lr lr' : LocalResource} {op : LrOp} {ret : Ret} : TableRun nums lr → op.Fresh lr →
      op.exec lr = some (ret, lr') → TableRun nums lr'
  | count {lr lr' : LocalResource} {c : UInt32} {n : UInt16} {ret : Ret} : TableRun nums lr →
      poflrCounterIncreace c n lr = some (ret, lr') → TableRun nums lr'

/-- A turn of the datapath stays within the runs. -/
theorem TableRun.dpTurn {nums : Vector UInt16 4} {env : DpEnv} {l : DpLoop} {s t : DpState}
    {r : Except Halt DpLoop} (h : TableRun nums s.lr) (hturn : exec (dpTurn env l) s = (r, t)) :
    TableRun nums t.lr := by
  rcases counterStep_dpTurn hturn with heq | ⟨c, n, ret, hinc⟩
  · rw [heq]
    exact h
  · exact h.count hinc

/-- Every table has the global identifier of an identifier that its type allows. -/
structure Placed (nums : Vector UInt16 4) (lr : LocalResource) : Prop where
  nums_eq : lr.tableNumMaxEachType = nums.toList
  hash_eq : ∀ t ∈ lr.tableIdMap.nodes, t.hash = hmapHashForLinear t.id.toUInt32
  id_eq : ∀ t ∈ lr.tableIdMap.nodes,
    ∃ id, TableAllowed lr t.type id ∧ t.id = poflrTableIdToID t.type id lr

theorem poflrTableIdToID_congr {lr lr' : LocalResource}
    (hnums : lr'.tableNumMaxEachType = lr.tableNumMaxEachType) (type : TableType) (id : UInt8) :
    poflrTableIdToID type id lr' = poflrTableIdToID type id lr := by
  rw [poflrTableIdToID, poflrTableIdToID, hnums]

theorem tableAllowed_congr {lr lr' : LocalResource}
    (hnums : lr'.tableNumMaxEachType = lr.tableNumMaxEachType) (type : TableType) (id : UInt8) :
    TableAllowed lr' type id ↔ TableAllowed lr type id := by
  rw [TableAllowed, TableAllowed, hnums]

/-- The global identifiers depend on the numbers of tables only. -/
theorem Placed.of_nums_eq {nums : Vector UInt16 4} {lr lr' : LocalResource} (h : Placed nums lr)
    (hnums : lr'.tableNumMaxEachType = lr.tableNumMaxEachType)
    (htables : ∀ t' ∈ lr'.tableIdMap.nodes, (∃ t ∈ lr.tableIdMap.nodes, t'.id = t.id ∧ t'.hash = t.hash ∧
      t'.type = t.type) ∨ (t'.hash = hmapHashForLinear t'.id.toUInt32 ∧
        ∃ id, TableAllowed lr t'.type id ∧ t'.id = poflrTableIdToID t'.type id lr)) :
    Placed nums lr' := by
  refine ⟨hnums.trans h.nums_eq, fun t' ht' => ?_, fun t' ht' => ?_⟩
  · rcases htables t' ht' with ⟨t, ht, hid, hhash, _⟩ | ⟨hhash, _⟩
    · rw [hhash, hid, h.hash_eq t ht]
    · exact hhash
  · simp only [tableAllowed_congr hnums, poflrTableIdToID_congr hnums]
    rcases htables t' ht' with ⟨t, ht, hid, _, htype⟩ | ⟨_, hnew⟩
    · rw [hid, htype]
      exact h.id_eq t ht
    · exact hnew

/-- A request keeps the identifiers: the tables are the old ones, or one is new. -/
theorem Placed.request {nums : Vector UInt16 4} {lr lr' : LocalResource} {op : LrOp} {ret : Ret}
    (h : Placed nums lr) (hfresh : op.Fresh lr) (hexec : op.exec lr = some (ret, lr')) : Placed nums lr' := by
  obtain ⟨htables, hlimits⟩ := LrOp.tables_cases hexec hfresh
  refine h.of_nums_eq (congrArg Limits.tableNumMaxEachType hlimits) fun t' ht' => ?_
  rcases htables t' ht' with ⟨t, ht, hchange⟩ | ⟨msg, type, newAt, _, hadmits, rfl⟩
  · have hshape := hchange.tableChange.sameShape
    exact Or.inl ⟨t, ht, hshape.id_eq, hshape.hash_eq, hshape.type_eq⟩
  · exact Or.inr ⟨rfl, msg.tid, hadmits.tid_lt, rfl⟩

/-- Local resources with the same tables. -/
theorem Placed.of_tables_eq {nums : Vector UInt16 4} {lr lr' : LocalResource} (h : Placed nums lr)
    (hnums : lr'.tableNumMaxEachType = lr.tableNumMaxEachType) (htables : lr'.tableIdMap = lr.tableIdMap) :
    Placed nums lr' := by
  refine h.of_nums_eq hnums fun t ht => Or.inl ⟨t, ?_, rfl, rfl, rfl⟩
  rw [← htables]
  exact ht

/-- A local resource without tables. -/
theorem placed_nil {nums : Vector UInt16 4} {lr : LocalResource} (hnums : lr.tableNumMaxEachType = nums.toList)
    (hnil : lr.tableIdMap.nodes = []) : Placed nums lr := by
  have hnone : ∀ t, t ∉ lr.tableIdMap.nodes := by
    intro t ht
    rw [hnil] at ht
    simp at ht
  exact ⟨hnums, fun t ht => absurd ht (hnone t), fun t ht => absurd ht (hnone t)⟩

theorem placed_of_tableRun {nums : Vector UInt16 4} {lr : LocalResource} (h : TableRun nums lr) :
    Placed nums lr := by
  induction h with
  | start hnums hempty =>
      refine placed_nil ?_ hempty
      rw [← hnums]
      rfl
  | request _ hfresh hexec ih => exact ih.request hfresh hexec
  | count _ hinc ih =>
      exact ih.of_tables_eq (poflrCounterIncreace_frame LocalResource.tableNumMaxEachType (fun _ _ => rfl) hinc)
        (poflrCounterIncreace_frame LocalResource.tableIdMap (fun _ _ => rfl) hinc)

/-- Every table has the identifier of its type, whatever requests and packets have come. -/
theorem placed_of_switchRun {nums : Vector UInt16 4} {lr : LocalResource} (h : SwitchRun lr)
    (hnums : lr.tableNumMaxEachType = nums.toList) : Placed nums lr := by
  induction h with
  | init cfg => exact placed_nil hnums (tables_pofLocalresourceInit cfg)
  | request _ hfresh hexec ih =>
      have hlimits := (LrOp.tables_cases hexec hfresh).2
      have hsame := congrArg Limits.tableNumMaxEachType hlimits
      exact (ih (hsame.symm.trans hnums)).request hfresh hexec
  | packet _ hexec hr ih =>
      have hsame := frame_packet LocalResource.tableNumMaxEachType (fun _ _ => rfl) hexec hr
      have htables := frame_packet LocalResource.tableIdMap (fun _ _ => rfl) hexec hr
      exact (ih (hsame.symm.trans hnums)).of_tables_eq hsame htables

/-! ### What the identifiers are for -/

/-- `GOTO_TABLE`, where it can move the packet and finds a table, leaves the type of that table in the
packet. -/
def GotoReports (s : DpState) : Prop :=
  ∀ env data t, (exec (movePacketBufOffset (toInt16 (half data 2).toNat)) s).1 = .ok () →
    poflrGetTableWithID (data.rd 0) s.lr = some t →
    (exec (executeGotoTable env data) s).2.dpp.tableType = UInt8.ofNat t.type.toNat

/-- Two tables have two global identifiers, the identifier gives the table back, and `GOTO_TABLE`
reports the type of the table it enters. -/
structure TableIdsOk (nums : Vector UInt16 4) : Prop where
  injective : ∀ lr, lr.tableNumMaxEachType = nums.toList → ∀ type id type' id',
    TableAllowed lr type id → TableAllowed lr type' id' →
    poflrTableIdToID type id lr = poflrTableIdToID type' id' lr → type = type' ∧ id = id'
  inverse : ∀ lr, lr.tableNumMaxEachType = nums.toList → ∀ type id, TableAllowed lr type id →
    poflrTableIDToId (poflrTableIdToID type id lr) lr = some (UInt8.ofNat type.toNat, id)
  reports : ∀ s : DpState, TableRun nums s.lr → GotoReports s

/-- For every type that has tables, the exact numbers of tables of the types before it and the number
of its identifiers of eight bits are at most `256` together. -/
def TablesFit (nums : Vector UInt16 4) : Prop :=
  ∀ type : TableType, 0 < nums.toList.getD type.toNat 0 →
    blockStart (nums.toList.map UInt16.toNat) type.toNat +
      min (nums.toList.getD type.toNat 0).toNat 256 ≤ 256

theorem tablesFit_iff {nums : Vector UInt16 4} {lr : LocalResource}
    (hlr : lr.tableNumMaxEachType = nums.toList) : TablesFit nums ↔
      ∀ type id, TableAllowed lr type id → blockStart (tableCounts lr) type.toNat + id.toNat < 256 := by
  simp only [TablesFit, TableAllowed, tableCounts, ← hlr]
  refine forall_congr' fun type => ?_
  set n := lr.tableNumMaxEachType.getD type.toNat 0
  constructor
  · intro hfit id hid
    rw [UInt16.lt_iff_toNat_lt, UInt8.toNat_toUInt16] at hid
    have hidlt := id.toNat_lt
    have hpos : 0 < n := UInt16.lt_iff_toNat_lt.2 (by simp; omega)
    have hle := hfit hpos
    omega
  · intro hall hpos
    -- the last identifier of the type
    have hnpos : 0 < n.toNat := by simpa using UInt16.lt_iff_toNat_lt.1 hpos
    have hlast : (UInt8.ofNat (min n.toNat 256 - 1)).toNat = min n.toNat 256 - 1 := by
      rw [UInt8.toNat_ofNat']
      omega
    have hlt := hall (UInt8.ofNat (min n.toNat 256 - 1)) (by
      rw [UInt16.lt_iff_toNat_lt, UInt8.toNat_toUInt16, hlast]
      omega)
    rw [hlast] at hlt
    omega

section Fit

variable {nums : Vector UInt16 4} {lr : LocalResource} {type type' : TableType} {id id' : UInt8}

/-- Where the tables fit, the identifier gives the table back. -/
theorem TablesFit.inverse (hfit : TablesFit nums) (hlr : lr.tableNumMaxEachType = nums.toList)
    (hid : TableAllowed lr type id) :
    poflrTableIDToId (poflrTableIdToID type id lr) lr = some (UInt8.ofNat type.toNat, id) := by
  have hlen : lr.tableNumMaxEachType.length = 4 := by rw [hlr, Vector.length_toList]
  exact (inverse_iff hlen hid).2 ((tablesFit_iff hlr).1 hfit type id hid)

/-- Where the tables fit, two tables have two identifiers: the inverse tells them apart. -/
theorem TablesFit.injective (hfit : TablesFit nums) (hlr : lr.tableNumMaxEachType = nums.toList)
    (hid : TableAllowed lr type id) (hid' : TableAllowed lr type' id')
    (heq : poflrTableIdToID type id lr = poflrTableIdToID type' id' lr) : type = type' ∧ id = id' := by
  have hback := hfit.inverse hlr hid
  rw [heq, hfit.inverse hlr hid'] at hback
  obtain ⟨htype, hid_eq⟩ := Prod.mk.inj (Option.some.inj hback)
  refine ⟨?_, hid_eq.symm⟩
  cases type <;> cases type' <;> first | rfl | cases htype

/-- At most 256 tables fit. -/
theorem tablesFit_of_sum_le (h : (nums.toList.map UInt16.toNat).sum ≤ 256) : TablesFit nums := by
  intro type _
  set ns := nums.toList.map UInt16.toNat with hns
  have hget : (nums.toList.getD type.toNat 0).toNat = ns.getD type.toNat 0 :=
    (List.getD_map nums.toList 0 UInt16.toNat).symm
  have hlt : type.toNat < ns.length := by
    have hlen : ns.length = 4 := by rw [hns, List.length_map, Vector.length_toList]
    cases type <;> rw [hlen] <;> decide
  -- the block of the type is one of the blocks
  have hsplit : blockStart ns type.toNat + ns.getD type.toNat 0 ≤ ns.sum := by
    rw [blockStart, List.getD_eq_getElem _ _ hlt, ← List.sum_take_succ _ _ hlt]
    exact (List.take_sublist _ _).sum_le_sum fun _ _ => Nat.zero_le _
  rw [hget]
  omega

/-- The type of a stored table is that of its identifier. -/
theorem Placed.type_eq {t : TableInfo} (h : Placed nums lr) (hfit : TablesFit nums)
    (ht : t ∈ lr.tableIdMap.nodes) (hallowed : TableAllowed lr type id)
    (hid : t.id = poflrTableIdToID type id lr) : t.type = type := by
  obtain ⟨id', hallowed', heq⟩ := h.id_eq t ht
  exact (hfit.injective h.nums_eq hallowed' hallowed (heq.symm.trans hid)).1

end Fit

/-! ### The type in the packet -/

theorem tableType_counterIncreace (c : UInt32) (n : UInt16) :
    Frame (fun s : DpState => s.dpp.tableType) (counterIncreace c n) :=
  Frame.get_bind fun _ => (Frame.liftOption _ _).bind fun _ =>
    Frame.bind (Frame.modify fun _ => rfl) fun _ => Frame.pure _

theorem tableType_pofdpEntryNomatch (env : DpEnv) :
    Frame (fun s : DpState => s.dpp.tableType) (pofdpEntryNomatch env) := by
  unfold pofdpEntryNomatch
  split
  · refine Frame.get_bind fun _ => Frame.get_bind fun _ => (frame_failIf _ _ _).bind fun _ => ?_
    split
    · exact Frame.modify fun _ => rfl
    · exact Frame.pure _
    · exact Frame.throw _
  · exact Frame.pure _

theorem exec_setTable {ID type id : UInt8} {s : DpState} (h : poflrTableIDToId ID s.lr = some (type, id)) :
    exec (setTable ID) s = (.ok (), { s with dpp := { s.dpp with tableType := type, tableId := id } }) := by
  rw [setTable, exec_bind_ok exec_get, h, exec_bind_ok (exec_liftOption_some _ _)]
  rfl

/-- What `execute_GOTO_TABLE` does behind `poflr_table_ID_to_id` leaves the type alone. -/
theorem tableType_executeGotoTable {env : DpEnv} {data : Buf} {s s₁ : DpState} {type id : UInt8}
    (hmove : exec (movePacketBufOffset (toInt16 (half data 2).toNat)) s = (.ok (), s₁))
    (hID : poflrTableIDToId (data.rd 0) s₁.lr = some (type, id)) :
    (exec (executeGotoTable env data) s).2.dpp.tableType = type := by
  rw [executeGotoTable, exec_bind_ok hmove, exec_bind_ok (exec_setTable hID)]
  refine (show Frame (fun s : DpState => s.dpp.tableType) _ from Frame.get_bind fun s₂ => ?_) _
  refine (Frame.liftOption _ _).bind fun table => (Frame.liftOption _ _).bind fun ptr =>
    (Frame.liftOption _ _).bind fun found => Frame.bind (Frame.modify fun _ => rfl) fun _ => ?_
  cases found with
  | none =>
      refine Frame.bind (Frame.onError (tableType_pofdpEntryNomatch env) fun _ _ => rfl) fun _ => ?_
      exact Frame.bind (Frame.modify fun _ => rfl) fun _ => Frame.modify fun _ => rfl
  | some entry =>
      refine (tableType_counterIncreace _ _).bind fun ret => ?_
      exact Frame.bind (Frame.modify fun _ => rfl) fun _ => frame_checkRetvalue ret

theorem Placed.gotoReports {nums : Vector UInt16 4} {s : DpState} (h : Placed nums s.lr)
    (hinverse : ∀ type id, TableAllowed s.lr type id →
      poflrTableIDToId (poflrTableIdToID type id s.lr) s.lr = some (UInt8.ofNat type.toNat, id)) :
    GotoReports s := by
  intro env data t hmove ht
  rcases hs₁ : exec (movePacketBufOffset (toInt16 (half data 2).toNat)) s with ⟨e | u, s₁⟩
  · rw [hs₁] at hmove
    cases hmove
  have hlr : s₁.lr = s.lr := by
    have hscene := scene_movePacketBufOffset (toInt16 (half data 2).toNat) s
    rw [hs₁] at hscene
    exact lr_eq_of_scene hscene
  -- the table that is found has the identifier of the instruction
  obtain ⟨hmem, hfound⟩ := Hmap.nodeGetWithHash_eq_some ht
  have hid : t.id = data.rd 0 := UInt8.toUInt32_inj.1 ((h.hash_eq t hmem).symm.trans hfound)
  obtain ⟨id, hallowed, heq⟩ := h.id_eq t hmem
  have hback : poflrTableIDToId (data.rd 0) s₁.lr = some (UInt8.ofNat t.type.toNat, id) := by
    rw [hlr, ← hid, heq]
    exact hinverse t.type id hallowed
  exact tableType_executeGotoTable hs₁ hback

/-- A local resource with these numbers of tables. -/
def resourceWith (nums : Vector UInt16 4) : LocalResource :=
  fillLocalresourceParam (pofLocalresourceInit smallConfig) ⟨1, nums, 16, 4, 4, 8⟩

/-- **The four numbers are accepted by `readConfigFile`, and the global identifiers are right exactly
when the tables fit into eight bits.** -/
theorem tableIdsOk_iff (nums : Vector UInt16 4) :
    AcceptsTableNumbers nums ∧ (TableIdsOk nums ↔ TablesFit nums) := by
  refine ⟨acceptsTableNumbers nums, fun h => ?_, fun hfit => ?_⟩
  · have hlr : (resourceWith nums).tableNumMaxEachType = nums.toList := rfl
    have hlen : (resourceWith nums).tableNumMaxEachType.length = 4 := by rw [hlr, Vector.length_toList]
    refine (tablesFit_iff hlr).2 fun type id hid => ?_
    exact (inverse_iff hlen hid).1 (h.inverse _ hlr type id hid)
  · constructor
    case injective => exact fun lr hlr type id type' id' hid hid' => hfit.injective hlr hid hid'
    case inverse => exact fun lr hlr type id => hfit.inverse hlr
    case reports =>
      intro s hs
      have hplaced := placed_of_tableRun hs
      exact hplaced.gotoReports fun type id => hfit.inverse hplaced.nums_eq

/-- A file with a hundred tables of each type: the table `44` of the first type and the table `0` of
the last one share the identifier `44`. -/
theorem not_tableIdsOk_hundred : ¬ ∀ nums, AcceptsTableNumbers nums → TableIdsOk nums := by
  intro h
  have hok := h #v[100, 100, 100, 100] (acceptsTableNumbers _)
  have heq := hok.injective (resourceWith #v[100, 100, 100, 100]) rfl .mm 44 .linear 0 (by decide)
    (by decide) (by decide)
  cases heq.1

end PofSwitch
