/-
**Runs of the local resource.**

The states that requests of the controller lead to, from an initialised local resource.  Two kinds of
runs are used: runs with a condition on every state on the way, and runs with a condition on every
request in the state it is made in.  Invariants of tables are proved for both by induction, from what
a request can do to one table.

Main definitions:

* `PofSwitch.pofLocalresourceInit` — the state after start-up;
* `PofSwitch.LrRun`, `PofSwitch.LrReachable` — the states reached by requests, with a condition on
  every state on the way, and with none;
* `PofSwitch.LrPath` — the states reached by requests, with a condition on every request.

Main results:

* `PofSwitch.LrRun.table_induction`, `PofSwitch.LrPath.table_induction` — an invariant of new tables
  that the changes keep holds of every table of every state.
-/

import PofSwitch.LrRequest

set_option relaxedAutoImplicit false
set_option autoImplicit false

namespace PofSwitch

open HmapNode

/-! ### Runs -/

/-- What the configuration file sets.  A key of the configured length fits the arrays of an entry. -/
structure LrConfig where
  slotID : UInt16
  ports : Hmap PortInfo
  tableNumMaxEachType : List UInt16
  tableSizeMax : UInt32
  keyLen : UInt16
  groupNumMax : UInt32
  meterNumMax : UInt32
  counterNumMax : UInt32
  keyLen_le : keyLen.toNat ≤ 8 * entryKeyBytes

/-- `pof_localresource_init` with the ports found at start-up. -/
def pofLocalresourceInit (cfg : LrConfig) : LocalResource :=
  let tableNumMax := cfg.tableNumMaxEachType.foldl (· + ·) 0
  poflrDisableAllPort
    { slotID := cfg.slotID
      portPofIndexMap := cfg.ports
      tableIdMap := Hmap.create tableNumMax.toUInt32
      tableNumMaxEachType := cfg.tableNumMaxEachType
      tableNum := 0
      tableSizeMax := cfg.tableSizeMax
      keyLenEachType := List.replicate 4 cfg.keyLen
      groupMap := Hmap.create cfg.groupNumMax
      groupNumMax := cfg.groupNumMax
      groupNum := 0
      meterMap := Hmap.create cfg.meterNumMax
      meterNumMax := cfg.meterNumMax
      meterNum := 0
      counterMap := Hmap.create cfg.counterNumMax
      counterNumMax := cfg.counterNumMax
      counterNum := 0 }

/-- The states reached from an initialised local resource by requests, successful or not, when every
state on the way satisfies `P`. -/
inductive LrRun (P : LocalResource → Prop) : LocalResource → Prop
  | init (cfg : LrConfig) : P (pofLocalresourceInit cfg) → LrRun P (pofLocalresourceInit cfg)
  | step {lr lr' : LocalResource} {op : LrOp} {ret : Ret} : LrRun P lr → op.Fresh lr →
      op.exec lr = some (ret, lr') → P lr' → LrRun P lr'

/-- The reachable states. -/
abbrev LrReachable : LocalResource → Prop := LrRun fun _ => True

theorem LrRun.holds {P : LocalResource → Prop} {lr : LocalResource} (h : LrRun P lr) : P lr := by
  cases h with
  | init _ hP => exact hP
  | step _ _ _ hP => exact hP

theorem LrRun.reachable {P : LocalResource → Prop} {lr : LocalResource} (h : LrRun P lr) :
    LrReachable lr := by
  induction h with
  | init cfg _ => exact LrRun.init cfg trivial
  | step _ hfresh hexec _ ih => exact LrRun.step ih hfresh hexec trivial

/-- The limits along a run are those of the configuration; the key lengths fit an entry. -/
theorem LrRun.keyLen_le {P : LocalResource → Prop} {lr : LocalResource} (h : LrRun P lr) (i : ℕ) :
    (lr.keyLenEachType.getD i 0).toNat ≤ 8 * entryKeyBytes := by
  induction h with
  | init cfg _ =>
      have hlim : (pofLocalresourceInit cfg).keyLenEachType = List.replicate 4 cfg.keyLen :=
        congrArg Limits.keyLenEachType
          (poflrDisableAllPort_frame LocalResource.limits _ fun _ _ => rfl)
      rw [hlim]
      simp only [List.getD_eq_getElem?_getD, List.getElem?_replicate]
      split_ifs
      · exact cfg.keyLen_le
      · exact Nat.zero_le _
  | step _ hfresh hexec _ ih =>
      have hlim := congrArg Limits.keyLenEachType (LrOp.tables_cases hexec hfresh).2
      simp only [LocalResource.limits] at hlim
      rw [hlim]
      exact ih

theorem tables_pofLocalresourceInit (cfg : LrConfig) :
    (pofLocalresourceInit cfg).tableIdMap.nodes = [] :=
  congrArg Hmap.nodes (poflrDisableAllPort_frame LocalResource.tableIdMap _ fun _ _ => rfl)

theorem groups_pofLocalresourceInit (cfg : LrConfig) :
    (pofLocalresourceInit cfg).groupMap.nodes = [] :=
  congrArg Hmap.nodes (poflrDisableAllPort_frame LocalResource.groupMap _ fun _ _ => rfl)

/-- **Induction over runs for one table at a time.**  `Q` is what is assumed of the tables of every
state on the way; the invariant `I` holds of new tables and is kept by the changes. -/
theorem LrRun.table_induction {Q I : TableInfo → Prop}
    (hnew : ∀ msg type ID newAt, msg.keyLen.toNat ≤ 8 * entryKeyBytes →
      I (newTable msg type ID newAt))
    (hchange : ∀ t t', TableChange t t' → Q t → Q t' → I t → I t') {lr : LocalResource}
    (h : LrRun (fun lr => ∀ t ∈ lr.tableIdMap.nodes, Q t) lr) : ∀ t ∈ lr.tableIdMap.nodes, I t := by
  induction h with
  | init cfg _ =>
      intro t ht
      rw [tables_pofLocalresourceInit] at ht
      simp at ht
  | step hrun hfresh hexec hQ ih =>
      intro t' ht'
      rcases (LrOp.tables_cases hexec hfresh).1 t' ht' with
        ⟨t, ht, hc⟩ | ⟨msg, type, a, _, hadmits, rfl⟩
      · exact hchange t t' hc.tableChange (hrun.holds t ht) (hQ t' ht') (ih t ht)
      · refine hnew msg type _ a (le_trans ?_ (hrun.keyLen_le type.toNat))
        exact UInt16.le_iff_toNat_le.1 hadmits.keyLen_le

theorem LrReachable.table_induction {I : TableInfo → Prop}
    (hnew : ∀ msg type ID newAt, msg.keyLen.toNat ≤ 8 * entryKeyBytes →
      I (newTable msg type ID newAt))
    (hchange : ∀ t t', TableChange t t' → I t → I t') {lr : LocalResource} (h : LrReachable lr) :
    ∀ t ∈ lr.tableIdMap.nodes, I t := by
  have hrun : LrRun (fun lr => ∀ t ∈ lr.tableIdMap.nodes, True) lr := by
    induction h with
    | init cfg _ => exact LrRun.init cfg fun _ _ => trivial
    | step _ hfresh hexec _ ih => exact LrRun.step ih hfresh hexec fun _ _ => trivial
  exact LrRun.table_induction (Q := fun _ => True) hnew
    (fun t t' hc _ _ hI => hchange t t' hc hI) hrun

/-! ### Runs with a condition on the requests -/

/-- The states reached from an initialised local resource by requests, successful or not, that all
satisfy `Q` in the state they are made in. -/
inductive LrPath (Q : LocalResource → LrOp → Prop) : LocalResource → Prop
  | init (cfg : LrConfig) : LrPath Q (pofLocalresourceInit cfg)
  | step {lr lr' : LocalResource} {op : LrOp} {ret : Ret} : LrPath Q lr → Q lr op → op.Fresh lr →
      op.exec lr = some (ret, lr') → LrPath Q lr'

theorem LrPath.reachable {Q : LocalResource → LrOp → Prop} {lr : LocalResource} (h : LrPath Q lr) :
    LrReachable lr := by
  induction h with
  | init cfg => exact LrRun.init cfg trivial
  | step _ _ hfresh hexec ih => exact LrRun.step ih hfresh hexec trivial

/-- **Induction over runs for one table at a time**, with the request that changes it. -/
theorem LrPath.table_induction {Q : LocalResource → LrOp → Prop} {I : TableInfo → Prop}
    (hnew : ∀ lr op t, LrPath Q lr → Q lr op → NewTable lr op t → I t)
    (hchange : ∀ lr op t t', LrPath Q lr → Q lr op → t ∈ lr.tableIdMap.nodes → OpChange lr op t t' →
      I t → I t') {lr : LocalResource} (h : LrPath Q lr) : ∀ t ∈ lr.tableIdMap.nodes, I t := by
  induction h with
  | init cfg =>
      intro t ht
      rw [tables_pofLocalresourceInit] at ht
      simp at ht
  | step hpath hQ hfresh hexec ih =>
      intro t' ht'
      rcases (LrOp.tables_cases hexec hfresh).1 t' ht' with ⟨t, ht, hc⟩ | hnew'
      · exact hchange _ _ t t' hpath hQ ht hc (ih t ht)
      · exact hnew _ _ t' hpath hQ hnew'

/-! ### A small local resource -/

/-- A configuration with one table of each type. -/
def smallConfig : LrConfig where
  slotID := 0
  ports := Hmap.create 1
  tableNumMaxEachType := [1, 1, 1, 1]
  tableSizeMax := 16
  keyLen := 160
  groupNumMax := 4
  meterNumMax := 4
  counterNumMax := 8
  keyLen_le := by decide

/-- A request for a table with one field of the given length. -/
def oneFieldTable (type : UInt8) (keyLen : UInt16) : PofFlowTable where
  tid := 0
  type := type
  matchFieldNum := 1
  size := 16
  keyLen := keyLen
  tableName := []
  match_ := [⟨0, 0, keyLen⟩]

/-- A request with an entry for such a table. -/
def oneFieldEntry (type : UInt8) (keyLen : UInt16) (index counterId : UInt32) (value mask : Buf) :
    PofFlowEntry where
  matchFieldNum := 1
  instructionNum := 1
  counterId := counterId
  tableId := 0
  tableType := type
  priority := 0
  index := index
  match_ := [⟨0, 0, keyLen, value, mask⟩]
  instruction := []

/-- The state after a request. -/
def LrOp.next (op : LrOp) (lr : LocalResource) : LocalResource :=
  match op.exec lr with
  | some (_, lr') => lr'
  | none => lr

theorem LrRun.next {P : LocalResource → Prop} {lr : LocalResource} (h : LrRun P lr) (op : LrOp)
    (hfresh : op.Fresh lr) (hexec : (op.exec lr).isSome) (hP : P (op.next lr)) :
    LrRun P (op.next lr) := by
  obtain ⟨⟨ret, lr'⟩, hr⟩ := Option.isSome_iff_exists.1 hexec
  have hnext : op.next lr = lr' := by rw [LrOp.next, hr]
  rw [hnext] at hP ⊢
  exact LrRun.step h hfresh hr hP

theorem LrPath.next {Q : LocalResource → LrOp → Prop} {lr : LocalResource} (h : LrPath Q lr)
    (op : LrOp) (hQ : Q lr op) (hfresh : op.Fresh lr) (hexec : (op.exec lr).isSome) :
    LrPath Q (op.next lr) := by
  obtain ⟨⟨ret, lr'⟩, hr⟩ := Option.isSome_iff_exists.1 hexec
  have hnext : op.next lr = lr' := by rw [LrOp.next, hr]
  rw [hnext]
  exact LrPath.step h hQ hfresh hr

/-- A local resource whose first table has one entry, which matches every packet. -/
def matchAll (instructionNum : UInt8) (instruction : List PofInstruction) : LocalResource :=
  (LrOp.addFlowEntry
      { oneFieldEntry 0 0 0 0 [] [] with
        matchFieldNum := 0
        match_ := []
        instructionNum := instructionNum
        instruction := instruction } 2 3).next
    ((LrOp.createFlowTable { oneFieldTable 0 0 with matchFieldNum := 0, match_ := [] } 1).next
      (pofLocalresourceInit smallConfig))

theorem matchAll_reachable (instructionNum : UInt8) (instruction : List PofInstruction) :
    LrReachable (matchAll instructionNum instruction) := by
  have htable := (LrRun.init (P := fun _ => True) smallConfig trivial).next
    (.createFlowTable { oneFieldTable 0 0 with matchFieldNum := 0, match_ := [] } 1)
    (by decide) rfl trivial
  have hnodup : [2, 3].Nodup := by decide
  have hdead : ∀ a ∈ [2, 3], a ≠ 0 ∧ a ∉ ((LrOp.createFlowTable
      { oneFieldTable 0 0 with matchFieldNum := 0, match_ := [] } 1).next
        (pofLocalresourceInit smallConfig)).liveAddrs := by decide
  exact htable.next (.addFlowEntry _ 2 3) ⟨hnodup, fun a ha =>
    ⟨(hdead a ha).1, fun hlive => absurd hlive (hdead a ha).2⟩⟩ rfl trivial

theorem instructionNum_matchAll (instructionNum : UInt8) (instruction : List PofInstruction) :
    ∀ table ∈ (matchAll instructionNum instruction).tableIdMap.nodes,
      ∀ entry ∈ table.entryMap.nodes, entry.instructionNum = instructionNum := by
  intro table htable entry hentry
  rw [List.mem_singleton.1 htable] at hentry
  rw [List.mem_singleton.1 hentry]

end PofSwitch
