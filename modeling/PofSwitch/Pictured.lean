/-
**A slot is as the controller pictures it.**

What a slot stores makes a picture.  Tables are looked up in the map of tables by the identifier across the
types, entries by a search through the table, and groups, meters and counters in their maps, each under the
hash of its identifier.  A request that is executed in the slot returns what the picture says, and leads to a
slot whose picture is the one that the picture says; when it does not return, the picture says so, too.
Packets do not change the picture.

So the numbering of tables across the types, the hashing of identifiers and of values, the buckets, the tree
of an LPM table, the numbers of entries and the addresses that `malloc` returns do not matter to a controller
that adds no entry twice.

Main definitions:

* `PofSwitch.LocalResource.lookTable`, `PofSwitch.LocalResource.picture` — the picture of a slot;
* `PofSwitch.Picturable` — what holds of a slot in which no index is used twice;
* `PofSwitch.slotMachine`, `PofSwitch.pictureMachine` — the slot and the picture of it, under requests and
  packets.

Main results:

* `PofSwitch.finds_lookTable`, `PofSwitch.finds_index` — tables are found by their names, entries by their
  indices;
* `PofSwitch.LrOp.exec_frame` — what no request writes is kept by requests;
* `PofSwitch.Picturable.exec_picture`, `PofSwitch.picture_packet` — **one request, and one packet**;
* `PofSwitch.slot_keeps_picture` — **every run.**
-/

import PofSwitch.Codable
import PofSwitch.EntryIndices
import PofSwitch.Finding
import PofSwitch.Machine
import PofSwitch.Picture
import PofSwitch.Restore

set_option relaxedAutoImplicit false
set_option autoImplicit false

namespace PofSwitch

open HmapNode Prog Function

/-! ### Lookups by name -/

/-- The table with a name. -/
def LocalResource.lookTable (lr : LocalResource) (k : TableKey) : Option TableInfo :=
  if TableAllowed lr k.1 k.2 then poflrGetTableWithID (poflrTableIdToID k.1 k.2 lr) lr else none

/-- The name of a stored table. -/
def LocalResource.tableKey (lr : LocalResource) (t : TableInfo) : TableKey := (t.type, lr.tableId t)

namespace Hmap

variable {α : Type} [HmapNode α] {m : Hmap α} {a b : α} {bound : ℕ}

/-- A map with different hashes finds its nodes by them. -/
theorem Keyed.finds (h : m.Keyed bound) : Finds HmapNode.hash m.nodes m.nodeGetWithHash :=
  finds_find? h.nodup_hash (List.Perm.refl _)

/-- The nodes after one has been deleted. -/
theorem Wf.mem_nodeDelete (h : m.Wf) (ha : a ∈ m.nodes) :
    b ∈ (m.nodeDelete (addr a)).nodes ↔ b ∈ m.nodes ∧ b ≠ a := by
  rw [nodes_nodeDelete, List.mem_filter, decide_eq_true_iff]
  refine and_congr_right fun hb => not_congr ⟨fun haddr => ?_, fun heq => congrArg addr heq⟩
  exact List.inj_on_of_nodup_map h.nodup hb ha haddr

/-- The nodes after one has been written to. -/
theorem Wf.mem_modify (h : m.Wf) (ha : a ∈ m.nodes) {f : α → α} :
    b ∈ (m.modify (addr a) f).nodes ↔ b = f a ∨ b ∈ m.nodes ∧ b ≠ a := by
  rw [Hmap.modify, List.mem_map]
  constructor
  · rintro ⟨c, hc, rfl⟩
    split_ifs with hca
    · rw [List.inj_on_of_nodup_map h.nodup hc ha hca]
      exact Or.inl rfl
    · exact Or.inr ⟨hc, fun heq => hca (congrArg addr heq)⟩
  · rintro (rfl | ⟨hb, hne⟩)
    · exact ⟨a, ha, if_pos rfl⟩
    · exact ⟨b, hb, if_neg fun haddr => hne (List.inj_on_of_nodup_map h.nodup hb ha haddr)⟩

theorem look_nodeInsert (m : Hmap α) (a : α) :
    (m.nodeInsert a).nodeGetWithHash = update m.nodeGetWithHash (HmapNode.hash a) (some a) := by
  funext k
  rw [nodeGetWithHash_nodeInsert, update_apply]
  exact if_congr eq_comm rfl rfl

theorem Keyed.look_nodeDelete (h : m.Keyed bound) (ha : a ∈ m.nodes) :
    (m.nodeDelete (addr a)).nodeGetWithHash = update m.nodeGetWithHash (HmapNode.hash a) none :=
  h.finds.delete (h.nodeDelete (addr a)).finds ha fun _ => h.wf.mem_nodeDelete ha

theorem Keyed.look_modify (h : m.Keyed bound) (ha : a ∈ m.nodes) {f : α → α} (haddr : addr (f a) = addr a)
    (hhash : HmapNode.hash (f a) = HmapNode.hash a) :
    (m.modify (addr a) f).nodeGetWithHash = update m.nodeGetWithHash (HmapNode.hash a) (some (f a)) := by
  have hkeyed : (m.modify (addr a) f).Keyed bound := h.modify fun b hb hba => by
    rw [List.inj_on_of_nodup_map h.wf.nodup hb ha hba]
    exact ⟨haddr, hhash⟩
  exact h.finds.replace hkeyed.finds hhash fun _ => h.wf.mem_modify ha

end Hmap

/-- **Tables are found by their names.** -/
theorem finds_lookTable {nums : Vector UInt16 4} {lr : LocalResource} (hstore : StoreOk lr)
    (hplaced : Placed nums lr) (hfit : TablesFit nums) :
    Finds lr.tableKey lr.tableIdMap.nodes lr.lookTable := by
  have hinverse : ∀ {type : TableType} {id : UInt8} {t : TableInfo}, TableAllowed lr type id →
      t.id = poflrTableIdToID type id lr → lr.tableId t = id := by
    intro type id t hallowed hid
    rw [LocalResource.tableId, hid, hfit.inverse hplaced.nums_eq hallowed]
    rfl
  intro k t
  constructor
  · intro h
    unfold LocalResource.lookTable at h
    split_ifs at h with hallowed
    obtain ⟨ht, hhash⟩ := Hmap.nodeGetWithHash_eq_some h
    have hid : t.id = poflrTableIdToID k.1 k.2 lr :=
      hash_toUInt32_injective ((hplaced.hash_eq t ht).symm.trans hhash)
    exact ⟨ht, Prod.ext (hplaced.type_eq hfit ht hallowed hid) (hinverse hallowed hid)⟩
  · rintro ⟨ht, rfl⟩
    obtain ⟨id, hallowed, hid⟩ := hplaced.id_eq t ht
    have hkey : lr.tableKey t = (t.type, id) := Prod.ext rfl (hinverse hallowed hid)
    rw [hkey, LocalResource.lookTable, if_pos hallowed, ← hid, poflrGetTableWithID, ← hplaced.hash_eq t ht]
    exact hstore.tables.nodeGetWithHash ht

/-- **Entries are found by their indices.** -/
theorem finds_index {t : TableInfo} (h : (t.entryMap.nodes.map EntryInfo.index).Nodup) :
    Finds EntryInfo.index t.entryMap.nodes fun index => poflrEntryGetWithIndex index t :=
  finds_find? h t.entryMap.order_perm

/-! ### The picture of a slot -/

/-- What a table with a name stores at an index. -/
def lookEntry (k : TableKey) (t : TableInfo) (index : UInt32) : Option PofFlowEntry :=
  (poflrEntryGetWithIndex index t).map (EntryInfo.message k.2 (UInt8.ofNat k.1.toNat))

/-- **The picture of a slot.** -/
def LocalResource.picture (lr : LocalResource) : Picture where
  tables k := (lr.lookTable k).map (TableInfo.message lr)
  entries k index := (lr.lookTable k).bind fun t => lookEntry k t index
  groups id := (poflrGetGroupWithID id lr).map GroupInfo.message
  meters id := (poflrGetMeterWithID id lr).map MeterInfo.rate
  counters := {c | (poflrGetCounterWithID c lr).isSome}

/-- The ports that a request can name. -/
def LocalResource.ports (lr : LocalResource) : Set UInt8 := {i | (poflrGetPortWithPofindex i lr).isSome}

section Parts

variable {lr lr' : LocalResource}

/-- What a slot stores, but for its tables, is looked up in their maps. -/
theorem picture_eq (htables : lr'.lookTable = lr.lookTable)
    (hmessage : TableInfo.message lr' = TableInfo.message lr)
    (hgroups : lr'.groupMap = lr.groupMap) (hmeters : lr'.meterMap = lr.meterMap)
    (hcounters : ∀ c, (poflrGetCounterWithID c lr').isSome = (poflrGetCounterWithID c lr).isSome) :
    lr'.picture = lr.picture := by
  refine Picture.ext ?_ ?_ ?_ ?_ ?_
  · simp only [LocalResource.picture, htables, hmessage]
  · simp only [LocalResource.picture, htables]
  · simp only [LocalResource.picture, poflrGetGroupWithID, hgroups]
  · simp only [LocalResource.picture, poflrGetMeterWithID, hmeters]
  · simp only [LocalResource.picture, hcounters]

theorem exists_of_isNone {α : Type} {x : Option α} (h : ¬ x.isNone = true) : ∃ a, x = some a :=
  Option.ne_none_iff_exists'.1 fun hnone => h (Option.isNone_iff_eq_none.2 hnone)

/-- A lookup that is changed at one key is changed there after every function. -/
theorem map_look {α β κ : Type} [DecidableEq κ] {look look' : κ → Option α} {k : κ} {a : Option α} (f : α → β)
    (h : look' = update look k a) :
    (fun i => (look' i).map f) = update (fun i => (look i).map f) k (a.map f) := by
  funext i
  rw [h]
  by_cases hi : i = k
  · rw [hi, update_self, update_self]
  · rw [update_of_ne hi, update_of_ne hi]

/-! Counters. -/

theorem picture_mapCounterInsert (c : UInt32) (newAt : ℕ) (lr : LocalResource) :
    (mapCounterInsert ⟨newAt, c, hmapHashForLinear c, 0, 0⟩ lr).picture =
      { lr.picture with counters := insert c lr.picture.counters } := by
  refine Picture.ext rfl rfl rfl rfl (Set.ext fun d => ?_)
  have hlook : poflrGetCounterWithID d (mapCounterInsert ⟨newAt, c, hmapHashForLinear c, 0, 0⟩ lr) =
      update lr.counterMap.nodeGetWithHash c (some ⟨newAt, c, hmapHashForLinear c, 0, 0⟩) d :=
    congrFun (lr.counterMap.look_nodeInsert _) d
  change (poflrGetCounterWithID d _).isSome = true ↔ d = c ∨ (poflrGetCounterWithID d lr).isSome = true
  rw [hlook]
  by_cases hdc : d = c
  · simp [hdc]
  · rw [update_of_ne hdc]
    simp only [hdc, false_or]
    rfl

theorem picture_mapCounterDelete (hstore : StoreOk lr) {c : UInt32} {counter : CounterInfo}
    (hget : poflrGetCounterWithID c lr = some counter) : (mapCounterDelete counter lr).picture =
      { lr.picture with counters := lr.picture.counters \ {c} } := by
  refine Picture.ext rfl rfl rfl rfl (Set.ext fun d => ?_)
  obtain ⟨hmem, hhash⟩ := Hmap.nodeGetWithHash_eq_some hget
  have hdelete := congrFun (hstore.counters.look_nodeDelete hmem) d
  rw [hhash] at hdelete
  have hlook : poflrGetCounterWithID d (mapCounterDelete counter lr) =
      update lr.counterMap.nodeGetWithHash c none d := hdelete
  change (poflrGetCounterWithID d _).isSome = true ↔ (poflrGetCounterWithID d lr).isSome = true ∧ ¬ d = c
  rw [hlook]
  by_cases hdc : d = c
  · simp [hdc]
  · rw [update_of_ne hdc]
    simp only [hdc, not_false_eq_true, and_true]
    rfl

/-- **A counter is wanted.** -/
theorem picture_poflrCounterInit (c : UInt32) (newAt : ℕ) (lr : LocalResource) :
    ((poflrCounterInit c newAt lr).1, (poflrCounterInit c newAt lr).2.picture) =
      lr.picture.wantCounter lr.limits c := by
  unfold poflrCounterInit Picture.wantCounter
  by_cases hzero : c = 0
  · rw [if_pos hzero, if_pos hzero]
  · rw [if_neg hzero, if_neg hzero]
    by_cases hmax : c ≥ lr.counterNumMax
    · rw [if_pos hmax, if_pos (show c ≥ lr.limits.counterNumMax from hmax)]
    · rw [if_neg hmax, if_neg (show ¬ c ≥ lr.limits.counterNumMax from hmax)]
      cases hget : poflrGetCounterWithID c lr with
      | none => exact Prod.ext rfl (picture_mapCounterInsert c newAt lr)
      | some counter =>
          have hmem : c ∈ lr.picture.counters := by
            simp [LocalResource.picture, hget]
          simp only [Set.insert_eq_of_mem hmem]

/-- **A counter is not wanted any more.** -/
theorem picture_poflrCounterDelete (hstore : StoreOk lr) (c : UInt32) :
    ((poflrCounterDelete c lr).1, (poflrCounterDelete c lr).2.picture) =
      lr.picture.dropCounter lr.limits c := by
  unfold poflrCounterDelete Picture.dropCounter
  by_cases hzero : c = 0
  · rw [if_pos hzero, if_pos hzero]
  · rw [if_neg hzero, if_neg hzero]
    by_cases hmax : c ≥ lr.counterNumMax
    · rw [if_pos hmax, if_pos (show c ≥ lr.limits.counterNumMax from hmax)]
    · rw [if_neg hmax, if_neg (show ¬ c ≥ lr.limits.counterNumMax from hmax)]
      have hmem : c ∈ lr.picture.counters ↔ (poflrGetCounterWithID c lr).isSome := Iff.rfl
      cases hget : poflrGetCounterWithID c lr with
      | none => rw [if_neg (by rw [hmem, hget]; simp)]
      | some counter =>
          rw [if_pos (by rw [hmem, hget]; rfl)]
          exact Prod.ext rfl (picture_mapCounterDelete hstore hget)

/-! Groups. -/

theorem picture_groups {lr lr₁ : LocalResource} (h : lr₁.groupMap = lr.groupMap) :
    lr₁.picture.groups = lr.picture.groups := by
  simp only [LocalResource.picture, poflrGetGroupWithID, h]

theorem picture_mapGroupInsert (g : GroupInfo) (lr : LocalResource) : (mapGroupInsert g lr).picture =
    { lr.picture with groups := update lr.picture.groups g.hash (some g.message) } :=
  Picture.ext rfl rfl (map_look GroupInfo.message (lr.groupMap.look_nodeInsert g)) rfl rfl

theorem picture_mapGroupDelete (hstore : StoreOk lr) {g : GroupInfo} (hg : g ∈ lr.groupMap.nodes) :
    (mapGroupDelete g lr).picture = { lr.picture with groups := update lr.picture.groups g.hash none } :=
  Picture.ext rfl rfl (map_look GroupInfo.message (hstore.groups.look_nodeDelete hg)) rfl rfl

/-- **A group is added.** -/
theorem picture_poflrAddGroupEntry (group : PofGroup) (groupAt counterAt : ℕ) (lr : LocalResource) :
    ((poflrAddGroupEntry group groupAt counterAt lr).1,
        (poflrAddGroupEntry group groupAt counterAt lr).2.picture) =
      lr.picture.addGroup lr.limits group := by
  have hsome : (lr.picture.groups group.groupId).isSome = (poflrGetGroupWithID group.groupId lr).isSome :=
    Option.isSome_map
  have hmax : lr.limits.groupNumMax = lr.groupNumMax := rfl
  unfold poflrAddGroupEntry Picture.addGroup
  rw [hsome, hmax]
  split_ifs with hid hget
  · rfl
  · rfl
  · have hgroups :=
      poflrCounterInit_frame LocalResource.groupMap lr (fun _ _ _ => rfl) group.counterId counterAt
    rw [← picture_poflrCounterInit group.counterId counterAt lr]
    rcases hinit : poflrCounterInit group.counterId counterAt lr with ⟨_ | _, lr₁⟩
    · rfl
    · refine Prod.ext rfl ((picture_mapGroupInsert _ lr₁).trans ?_)
      have hsame : lr₁.groupMap = lr.groupMap := by rwa [hinit] at hgroups
      simp only [picture_groups hsame]
      rfl

/-- **A group is modified.** -/
theorem picture_poflrModifyGroupEntry (hstore : StoreOk lr) (group : PofGroup) :
    ((poflrModifyGroupEntry group lr).1, (poflrModifyGroupEntry group lr).2.picture) =
      lr.picture.modifyGroup lr.limits group := by
  have hlook : lr.picture.groups group.groupId =
      (poflrGetGroupWithID group.groupId lr).map GroupInfo.message := rfl
  have hmax : lr.limits.groupNumMax = lr.groupNumMax := rfl
  unfold poflrModifyGroupEntry Picture.modifyGroup
  rw [hlook, hmax]
  split_ifs with hid
  · rfl
  · cases hget : poflrGetGroupWithID group.groupId lr with
    | none => rfl
    | some old =>
        obtain ⟨hmem, hhash⟩ := Hmap.nodeGetWithHash_eq_some hget
        have hcounter : old.message.counterId = old.counterId := rfl
        simp only [Option.map_some, hcounter]
        split_ifs with hne
        · rfl
        · have hfill : HmapNode.hash (groupFill group old) = HmapNode.hash old := hhash.symm
          have hmodify := hstore.groups.look_modify hmem (f := groupFill group) rfl hfill
          rw [hhash] at hmodify
          exact Prod.ext rfl (Picture.ext rfl rfl (map_look GroupInfo.message hmodify) rfl rfl)

/-- **A group is deleted.** -/
theorem picture_poflrDeleteGroupEntry (hstore : StoreOk lr) (group : PofGroup) :
    ((poflrDeleteGroupEntry group lr).1, (poflrDeleteGroupEntry group lr).2.picture) =
      lr.picture.deleteGroup lr.limits group := by
  have hnone : (lr.picture.groups group.groupId).isNone = (poflrGetGroupWithID group.groupId lr).isNone :=
    Option.isNone_map
  have hmax : lr.limits.groupNumMax = lr.groupNumMax := rfl
  unfold poflrDeleteGroupEntry Picture.deleteGroup
  rw [hnone, hmax]
  split_ifs with hid hget
  · rfl
  · rw [Option.isNone_iff_eq_none.1 hget]
  · obtain ⟨old, hold⟩ := exists_of_isNone hget
    obtain ⟨hmem, hhash⟩ := Hmap.nodeGetWithHash_eq_some hold
    have hgroups := poflrCounterDelete_frame LocalResource.groupMap lr (fun _ _ _ => rfl) group.counterId
    have hstore' := hstore.poflrCounterDelete group.counterId
    rw [hold, ← picture_poflrCounterDelete hstore group.counterId]
    rcases hdelete : poflrCounterDelete group.counterId lr with ⟨_ | _, lr₁⟩
    · rfl
    · rw [hdelete] at hstore'
      have hsame : lr₁.groupMap = lr.groupMap := by rwa [hdelete] at hgroups
      refine Prod.ext rfl ((picture_mapGroupDelete hstore' (hsame ▸ hmem)).trans ?_)
      have hid : old.hash = group.groupId := hhash
      simp only [picture_groups hsame, hid]

/-! Meters. -/

/-- **A meter is added.** -/
theorem picture_poflrAddMeterEntry (meterId rate : UInt32) (newAt : ℕ) (lr : LocalResource) :
    ((poflrAddMeterEntry meterId rate newAt lr).1, (poflrAddMeterEntry meterId rate newAt lr).2.picture) =
      lr.picture.addMeter lr.limits meterId rate := by
  have hsome : (lr.picture.meters meterId).isSome = (poflrGetMeterWithID meterId lr).isSome := Option.isSome_map
  have hmax : lr.limits.meterNumMax = lr.meterNumMax := rfl
  unfold poflrAddMeterEntry Picture.addMeter
  rw [hsome, hmax]
  split_ifs with hid hget
  · rfl
  · rfl
  · exact Prod.ext rfl (Picture.ext rfl rfl rfl (map_look MeterInfo.rate (lr.meterMap.look_nodeInsert _)) rfl)

/-- **A meter gets another rate.** -/
theorem picture_poflrModifyMeterEntry (hstore : StoreOk lr) (meterId rate : UInt32) :
    ((poflrModifyMeterEntry meterId rate lr).1, (poflrModifyMeterEntry meterId rate lr).2.picture) =
      lr.picture.changeMeter lr.limits meterId (some rate) := by
  have hnone : (lr.picture.meters meterId).isNone = (poflrGetMeterWithID meterId lr).isNone := Option.isNone_map
  have hmax : lr.limits.meterNumMax = lr.meterNumMax := rfl
  unfold poflrModifyMeterEntry Picture.changeMeter
  rw [hnone, hmax]
  split_ifs with hid hget
  · rfl
  · rw [Option.isNone_iff_eq_none.1 hget]
  · obtain ⟨meter, hmeter⟩ := exists_of_isNone hget
    obtain ⟨hmem, hhash⟩ := Hmap.nodeGetWithHash_eq_some hmeter
    have hmodify := hstore.meters.look_modify hmem (f := fun m : MeterInfo => { m with rate := rate }) rfl rfl
    rw [hhash] at hmodify
    rw [hmeter]
    exact Prod.ext rfl (Picture.ext rfl rfl rfl (map_look MeterInfo.rate hmodify) rfl)

/-- **A meter is deleted.** -/
theorem picture_poflrDeleteMeterEntry (hstore : StoreOk lr) (meterId : UInt32) :
    ((poflrDeleteMeterEntry meterId lr).1, (poflrDeleteMeterEntry meterId lr).2.picture) =
      lr.picture.changeMeter lr.limits meterId none := by
  have hnone : (lr.picture.meters meterId).isNone = (poflrGetMeterWithID meterId lr).isNone := Option.isNone_map
  have hmax : lr.limits.meterNumMax = lr.meterNumMax := rfl
  unfold poflrDeleteMeterEntry Picture.changeMeter
  rw [hnone, hmax]
  split_ifs with hid hget
  · rfl
  · rw [Option.isNone_iff_eq_none.1 hget]
  · obtain ⟨meter, hmeter⟩ := exists_of_isNone hget
    obtain ⟨hmem, hhash⟩ := Hmap.nodeGetWithHash_eq_some hmeter
    have hdelete := hstore.meters.look_nodeDelete hmem
    rw [hhash] at hdelete
    rw [hmeter]
    exact Prod.ext rfl (Picture.ext rfl rfl rfl (map_look MeterInfo.rate hdelete) rfl)

end Parts

/-! ### Tables and entries -/

section Tables

variable {nums : Vector UInt16 4} {lr : LocalResource} {k : TableKey} {t t' : TableInfo} {flow : PofFlowEntry}

/-- A table without entries. -/
theorem lookEntry_nil (h : t.entryMap.nodes = []) : lookEntry k t = fun _ => none := by
  funext index
  refine Option.map_eq_none_iff.2 (Option.eq_none_iff_forall_ne_some.2 fun e he => ?_)
  have hmem := poflrEntryGetWithIndex_mem he
  rw [h] at hmem
  cases hmem

/-- What a table stores when one entry more is linked into it. -/
theorem lookEntry_entryLink {e : EntryInfo} (h : (t.entryMap.nodes.map EntryInfo.index).Nodup)
    (hnew : ∀ b ∈ t.entryMap.nodes, b.index ≠ e.index) : lookEntry k (entryLink e t) =
      update (lookEntry k t) e.index (some (e.message k.2 (UInt8.ofNat k.1.toNat))) :=
  map_look _ ((finds_index h).insert (finds_index (nodup_entryLink h hnew)) fun b => by
    rw [nodes_entryLink, List.mem_cons])

/-- What a table stores when one of its entries is deleted. -/
theorem lookEntry_entryDelete {e : EntryInfo} {index : UInt32} (hok : EntriesOk t)
    (h : (t.entryMap.nodes.map EntryInfo.index).Nodup) (hget : poflrEntryGetWithIndex index t = some e) :
    lookEntry k (entryDelete e t) = update (lookEntry k t) index none := by
  have he := poflrEntryGetWithIndex_mem hget
  rw [← poflrEntryGetWithIndex_index hget]
  refine map_look _ ((finds_index h).delete (finds_index (nodup_entryDelete h e)) he fun b => ?_)
  rw [entryMap_entryDelete]
  exact hok.wf.mem_nodeDelete he

/-- Whether `entryInsert` links an entry, refuses it or does not return, is whether it fits the key. -/
theorem entryInsert_fits (flow : PofFlowEntry) (newAt : ℕ) (t : TableInfo) :
    (fitsKey t.type t.keyLen flow = some true ∧ ∃ e, entryInsert flow newAt t = some (.ok (), entryLink e t) ∧
        e.index = flow.index ∧ ∀ tableId tableType, e.message tableId tableType =
          { flow.stored t.type with tableId := tableId, tableType := tableType }) ∨
      (fitsKey t.type t.keyLen flow = some false ∧ ∃ err, entryInsert flow newAt t = some (.error err, t)) ∨
      (fitsKey t.type t.keyLen flow = none ∧ entryInsert flow newAt t = none) := by
  rcases entryInsert_cases flow newAt t with
    ⟨hacc, e, hfilled, hins⟩ | ⟨⟨htype, hret, hne⟩, err, hins⟩ | ⟨hacc, hrefuse, hins⟩
  · refine Or.inl ⟨?_, e, hins, hfilled.index_eq, fun tableId tableType => ?_⟩
    · rcases hacc with hlinear | ⟨hret, hlen⟩
      · simp [fitsKey, hlinear]
      · simp [fitsKey, hret, hlen]
    · have hpriority : e.priority = (flow.stored t.type).priority := by
        by_cases htype : t.type = .linear
        · obtain ⟨e', hfill, hlink⟩ := entryInsert_ok hins
          have heq := (List.cons.inj ((nodes_entryLink e t).symm.trans
            ((congrArg (fun t : TableInfo => t.entryMap.nodes) hlink).trans (nodes_entryLink e' t)))).1
          simp only [entryFill, htype, Option.some.injEq, Prod.mk.injEq, true_and] at hfill
          rw [heq, ← hfill]
          simp [PofFlowEntry.stored, htype]
        · rw [hfilled.priority_eq htype]
          simp [PofFlowEntry.stored, htype]
      simp only [EntryInfo.message, hfilled.matchFieldNum_eq, hfilled.instructionNum_eq, hfilled.counterId_eq,
        hpriority, hfilled.index_eq, hfilled.matchArray_eq, hfilled.instruction_eq, PofFlowEntry.stored]
  · exact Or.inr (Or.inl ⟨by simp [fitsKey, htype, hret, hne], err, hins⟩)
  · refine Or.inr (Or.inr ⟨?_, hins⟩)
    have htype : t.type ≠ .linear := fun h => hacc (Or.inl h)
    have hret : ¬ AssembleReturns (matchFields flow.match_ flow.matchFieldNum) 0 := by
      intro hret
      by_cases hlen : endOffset (matchFields flow.match_ flow.matchFieldNum) 0 = t.keyLen
      · exact hacc (Or.inr ⟨hret, hlen⟩)
      · exact hrefuse ⟨htype, hret, hlen⟩
    simp [fitsKey, htype, hret]

variable (hfit : TablesFit nums) (hstore : StoreOk lr) (hplaced : Placed nums lr)
include hfit hstore hplaced

/-- The table of a request for an entry has the name that the request says. -/
theorem lookTable_of_flowModTable (h : flowModTable flow lr = .ok t) :
    lr.lookTable (t.type, flow.tableId) = some t ∧ TableType.ofUInt8 flow.tableType = some t.type := by
  unfold flowModTable at h
  split at h
  · cases h
  · next type htype =>
    split_ifs at h with hid
    split at h
    · cases h
    · next table hget =>
      split_ifs at h
      cases h
      have hlook : lr.lookTable (type, flow.tableId) = some t := by
        have hallowed : TableAllowed lr type flow.tableId := UInt16.not_le.1 hid
        exact (if_pos hallowed).trans hget
      have hkey : (t.type, lr.tableId t) = (type, flow.tableId) :=
        ((finds_lookTable hstore hplaced hfit _ _).1 hlook).2
      obtain rfl : t.type = type := (Prod.mk.inj hkey).1
      exact ⟨hlook, htype⟩

/-- **The table of a request for an entry, and the checks before it.** -/
theorem tableOf_picture (flow : PofFlowEntry) : lr.picture.tableOf lr.limits flow =
    (flowModTable flow lr).map fun t => ((t.type, flow.tableId), t.message lr) := by
  have hlimits : lr.limits.tableNumMaxEachType = lr.tableNumMaxEachType := rfl
  unfold Picture.tableOf flowModTable
  rw [hlimits]
  cases TableType.ofUInt8 flow.tableType with
  | none => rfl
  | some type =>
      simp only
      by_cases hid : flow.tableId.toUInt16 ≥ lr.tableNumMaxEachType.getD type.toNat 0
      · rw [if_pos hid, if_pos hid]
        rfl
      · have hallowed : TableAllowed lr type flow.tableId := UInt16.not_le.1 hid
        have hlook : lr.lookTable (type, flow.tableId) =
            poflrGetTableWithID (poflrTableIdToID type flow.tableId lr) lr := if_pos hallowed
        have htable : lr.picture.tables (type, flow.tableId) =
            (lr.lookTable (type, flow.tableId)).map (TableInfo.message lr) := rfl
        rw [if_neg hid, if_neg hid, htable, ← hlook]
        cases hget : lr.lookTable (type, flow.tableId) with
        | none => rfl
        | some t =>
            have hkey : (t.type, lr.tableId t) = (type, flow.tableId) :=
              ((finds_lookTable hstore hplaced hfit _ _).1 hget).2
            obtain rfl : t.type = type := (Prod.mk.inj hkey).1
            have hsize : (t.message lr).size = t.size := rfl
            simp only [Option.map_some, hsize]
            split_ifs
            · rfl
            · rfl

/-- A table that has been written back is found under its name. -/
theorem look_setTable (ht : lr.lookTable k = some t) (hshape : SameShape t t') :
    (lr.setTable t').lookTable = update lr.lookTable k (some t') := by
  obtain ⟨hmem, rfl⟩ := (finds_lookTable hstore hplaced hfit k t).1 ht
  have hplaced' : Placed nums (lr.setTable t') := by
    refine hplaced.of_nums_eq rfl fun u hu => Or.inl ?_
    rcases mem_setTable hu with rfl | ⟨hu, _⟩
    · exact ⟨t, hmem, hshape.id_eq, hshape.hash_eq, hshape.type_eq⟩
    · exact ⟨u, hu, rfl, rfl, rfl⟩
  have hkey : lr.tableKey t' = lr.tableKey t := by
    simp only [LocalResource.tableKey, LocalResource.tableId, hshape.type_eq, hshape.id_eq]
  refine (finds_lookTable hstore hplaced hfit).replace
    (finds_lookTable (hstore.setTable hmem hshape) hplaced' hfit) hkey fun b => ?_
  rw [LocalResource.setTable, show t'.addr = addr t from hshape.addr_eq]
  exact hstore.tables.wf.mem_modify hmem

/-- **The entries of one table are others.** -/
theorem picture_setTable (ht : lr.lookTable k = some t) (hshape : SameShape t t') : (lr.setTable t').picture =
    { lr.picture with entries := update lr.picture.entries k (lookEntry k t') } := by
  have hlook := look_setTable hfit hstore hplaced ht hshape
  have hmessage : TableInfo.message lr t' = TableInfo.message lr t := by
    simp only [TableInfo.message, hshape.type_eq, hshape.id_eq, hshape.matchFieldNum_eq, hshape.size_eq,
      hshape.keyLen_eq, hshape.name_eq, hshape.match_eq]
  refine Picture.ext ?_ ?_ rfl rfl rfl
  · have htables : lr.picture.tables k = some (t'.message lr) := by
      rw [hmessage]
      exact congrArg (Option.map (TableInfo.message lr)) ht
    exact (map_look (TableInfo.message lr) hlook).trans (update_eq_self_iff.2 htables.symm)
  · funext k'
    have hentries : (lr.setTable t').picture.entries k' =
        fun index => (update lr.lookTable k (some t') k').bind fun t => lookEntry k' t index := by
      rw [← hlook]
      rfl
    rw [hentries]
    change _ = update lr.picture.entries k (lookEntry k t') k'
    by_cases hk : k' = k
    · rw [hk, update_self, update_self]
      rfl
    · rw [update_of_ne hk, update_of_ne hk]
      rfl

end Tables

/-! ### Slots in which no index is used twice -/

/-- A slot that requests and packets have led to, and in which every index of a table is used once. -/
structure Picturable (nums : Vector UInt16 4) (lr : LocalResource) : Prop where
  run : SwitchRun lr
  nums_eq : lr.tableNumMaxEachType = nums.toList
  entries : ∀ t ∈ lr.tableIdMap.nodes, EntriesOk t
  indices : ∀ t ∈ lr.tableIdMap.nodes, IndicesOk t

namespace Picturable

variable {nums : Vector UInt16 4} {lr lr' : LocalResource}

theorem store (h : Picturable nums lr) : StoreOk lr := storeOk_of_switchRun h.run

theorem placed (h : Picturable nums lr) : Placed nums lr := placed_of_switchRun h.run h.nums_eq

theorem finds (h : Picturable nums lr) (hfit : TablesFit nums) :
    Finds lr.tableKey lr.tableIdMap.nodes lr.lookTable := finds_lookTable h.store h.placed hfit

/-- A table in which no index is used twice counts no entries when it has none. -/
theorem entryNum_eq_zero_iff (h : Picturable nums lr) {t : TableInfo} (ht : t ∈ lr.tableIdMap.nodes) :
    t.entryNum = 0 ↔ t.entryMap.nodes = [] := by
  have hok := h.entries t ht
  have hindices := h.indices t ht
  have hlength : t.entryMap.nodes.length ≤ t.size.toNat :=
    length_le_of_nodup_lt hindices.nodup fun e he => UInt32.lt_iff_toNat_lt.1 (hindices.lt_size e he)
  rw [hok.entryNum_eq, hok.wf.n_eq, ← UInt32.toNat_inj, UInt32.toNat_ofNat',
    Nat.mod_eq_of_lt (Nat.lt_of_le_of_lt hlength t.size.toNat_lt)]
  exact List.length_eq_zero_iff

/-- The slot has no tables at start-up. -/
theorem init {cfg : LrConfig} (hnums : (pofLocalresourceInit cfg).tableNumMaxEachType = nums.toList) :
    Picturable nums (pofLocalresourceInit cfg) where
  run := SwitchRun.init cfg
  nums_eq := hnums
  entries := by simp [tables_pofLocalresourceInit]
  indices := by simp [tables_pofLocalresourceInit]

/-- What a request that is prudent finds. -/
theorem freshIndex (h : Picturable nums lr) (hfit : TablesFit nums) {op : LrOp}
    (hprudent : lr.picture.Prudent op) : FreshIndex lr op := by
  cases op with
  | addFlowEntry flow entryAt counterAt =>
      intro t hmod _ e he hindex
      obtain ⟨hlook, htype⟩ := lookTable_of_flowModTable hfit h.store h.placed hmod
      have hnone := hprudent t.type htype
      have hentry : lr.picture.entries (t.type, flow.tableId) flow.index =
          lookEntry (t.type, flow.tableId) t flow.index := by
        simp only [LocalResource.picture, hlook, Option.bind_some]
      rw [hentry, lookEntry, ← hindex,
        (finds_index (h.indices t (flowModTable_mem hmod)).nodup).self he] at hnone
      cases hnone
  | _ => trivial

/-- **A prudent request keeps the slot sound.** -/
theorem request (h : Picturable nums lr) (hfit : TablesFit nums) {op : LrOp} {ret : Ret}
    (hprudent : lr.picture.Prudent op) (hfresh : op.Fresh lr) (hexec : op.exec lr = some (ret, lr')) :
    Picturable nums lr' := by
  obtain ⟨htables, hlimits⟩ := LrOp.tables_cases hexec hfresh
  refine ⟨h.run.request hfresh hexec, (congrArg Limits.tableNumMaxEachType hlimits).trans h.nums_eq,
    fun t' ht' => ?_, fun t' ht' => ?_⟩
  · rcases htables t' ht' with ⟨t, ht, hchange⟩ | ⟨msg, type, newAt, rfl, hadmits, rfl⟩
    · exact (h.entries t ht).change hchange.tableChange
    · exact ⟨Hmap.wf_create msg.size, rfl⟩
  · rcases htables t' ht' with ⟨t, ht, hchange⟩ | ⟨msg, type, newAt, rfl, hadmits, rfl⟩
    · exact (h.indices t ht).change (h.freshIndex hfit hprudent) hchange
    · exact ⟨List.nodup_nil, by simp [newTable]⟩

/-- **A packet keeps the slot sound.** -/
theorem packet (h : Picturable nums lr) {env : DpEnv} {portId : UInt8} {packet : Buf} {fuel : ℕ}
    {r : Except Halt Unit} {t : DpState}
    (hexec : exec (pofdpInstructionExecute env fuel) (pofdpForward portId packet lr) = (r, t))
    (hr : r ≠ .error .fuel) : Picturable nums t.lr := by
  have htables := frame_packet LocalResource.tableIdMap (fun _ _ => rfl) hexec hr
  refine ⟨h.run.packet hexec hr,
    (frame_packet LocalResource.tableNumMaxEachType (fun _ _ => rfl) hexec hr).trans h.nums_eq, ?_, ?_⟩
  · rw [htables]
    exact h.entries
  · rw [htables]
    exact h.indices

end Picturable

/-! ### Requests -/

section Requests

variable {nums : Vector UInt16 4} {lr lr₁ : LocalResource} {k : TableKey} {t t' : TableInfo}

/-- Tables are found as before when they are as before. -/
theorem lookTable_congr (h : SameTables lr lr₁) : lr₁.lookTable = lr.lookTable := by
  have hnums : lr₁.tableNumMaxEachType = lr.tableNumMaxEachType := congrArg Limits.tableNumMaxEachType h.2
  funext k
  simp only [LocalResource.lookTable, tableAllowed_congr hnums, poflrTableIdToID_congr hnums,
    poflrGetTableWithID, h.1]

theorem SameTables.placed (h : SameTables lr lr₁) (hplaced : Placed nums lr) : Placed nums lr₁ :=
  hplaced.of_tables_eq (congrArg Limits.tableNumMaxEachType h.2) h.1

/-- The entries of a table that is found. -/
theorem picture_entries (ht : lr.lookTable k = some t) : lr.picture.entries k = lookEntry k t := by
  simp only [LocalResource.picture, ht, Option.bind_some]

/-- A change of one entry of a table. -/
theorem picture_setEntry (hfit : TablesFit nums) (hstore : StoreOk lr) (hplaced : Placed nums lr)
    (ht : lr.lookTable k = some t) (hshape : SameShape t t') {index : UInt32} {entry : Option PofFlowEntry}
    (hentry : lookEntry k t' = update (lookEntry k t) index entry) :
    (lr.setTable t').picture = lr.picture.setEntry k index entry := by
  rw [picture_setTable hfit hstore hplaced ht hshape, Picture.setEntry, picture_entries ht, hentry]

/-- The message of an entry that has been filled in, under the name of its table. -/
theorem message_stored {flow : PofFlowEntry} {type : TableType}
    (htype : TableType.ofUInt8 flow.tableType = some type) :
    { flow.stored type with tableId := flow.tableId, tableType := UInt8.ofNat type.toNat } =
      flow.stored type := by
  rw [ofNat_toNat_of_ofUInt8 htype]
  rfl

/-- The counter of a modified entry. -/
theorem picture_modifyCounter (old : EntryInfo) (flow : PofFlowEntry) (counterAt : ℕ) (lr : LocalResource) :
    ((modifyCounter old flow counterAt lr).1, (modifyCounter old flow counterAt lr).2.picture) =
      if old.counterId ≠ flow.counterId then lr.picture.wantCounter lr.limits flow.counterId
      else (.ok (), lr.picture) := by
  unfold modifyCounter
  split_ifs
  · exact picture_poflrCounterInit flow.counterId counterAt lr
  · rfl

theorem storeOk_modifyCounter (hstore : StoreOk lr) (old : EntryInfo) (flow : PofFlowEntry) {counterAt : ℕ}
    (hnew : counterAt ∉ lr.liveAddrs) : StoreOk (modifyCounter old flow counterAt lr).2 := by
  unfold modifyCounter
  split_ifs
  · exact hstore.poflrCounterInit (notMem_counters hnew)
  · exact hstore

variable (hfit : TablesFit nums) (h : Picturable nums lr)
include hfit h

/-- **An entry is added.** -/
theorem picture_poflrAddFlowEntry {flow : PofFlowEntry} {entryAt counterAt : ℕ}
    (hprudent : lr.picture.Prudent (.addFlowEntry flow entryAt counterAt)) :
    (poflrAddFlowEntry flow entryAt counterAt lr).map (fun r => (r.1, r.2.picture)) =
      lr.picture.addEntry lr.limits flow := by
  unfold poflrAddFlowEntry Picture.addEntry
  rw [tableOf_picture hfit h.store h.placed]
  cases hmod : flowModTable flow lr with
  | error e => rfl
  | ok t =>
      obtain ⟨hlook, htype⟩ := lookTable_of_flowModTable hfit h.store h.placed hmod
      have hkeyLen : (t.message lr).keyLen = t.keyLen := rfl
      simp only [Except.map, hkeyLen]
      rcases entryInsert_fits flow entryAt t with
        ⟨hfits, e, hins, hindex, hmsg⟩ | ⟨hfits, err, hins⟩ | ⟨hfits, hins⟩
      · have hset : (lr.setTable (entryLink e t)).picture =
            lr.picture.setEntry (t.type, flow.tableId) flow.index (some (flow.stored t.type)) := by
          refine picture_setEntry hfit h.store h.placed hlook (sameShape_entryLink e t) ?_
          rw [← hindex, ← message_stored htype, ← hmsg]
          refine lookEntry_entryLink (h.indices t (flowModTable_mem hmod)).nodup fun b hb => ?_
          rw [hindex]
          refine h.freshIndex hfit hprudent t hmod ?_ b hb
          obtain ⟨e', hfill, _⟩ := entryInsert_ok hins
          exact accepts_of_entryFill hfill
        rw [hins, hfits]
        simp only [Option.bind_eq_bind, Option.bind_some, Option.pure_def, Option.map_some, if_true, ← hset]
        exact congrArg some (picture_poflrCounterInit flow.counterId counterAt (lr.setTable (entryLink e t)))
      · rw [hins, hfits]
        rfl
      · rw [hins, hfits]
        rfl

/-- **An entry is modified.** -/
theorem picture_poflrModifyFlowEntry {flow : PofFlowEntry} {entryAt counterAt : ℕ}
    (hfresh : (LrOp.modifyFlowEntry flow entryAt counterAt).Fresh lr) :
    (poflrModifyFlowEntry flow entryAt counterAt lr).map (fun r => (r.1, r.2.picture)) =
      lr.picture.modifyEntry lr.limits flow := by
  have hnew : counterAt ∉ lr.liveAddrs :=
    hfresh.notMem_live (by simp [LrOp.allocs]) (counterAt_notMem_frees hfresh)
  unfold poflrModifyFlowEntry Picture.modifyEntry
  rw [tableOf_picture hfit h.store h.placed]
  cases hmod : flowModTable flow lr with
  | error e => rfl
  | ok t =>
      obtain ⟨hlook, htype⟩ := lookTable_of_flowModTable hfit h.store h.placed hmod
      have hmem := flowModTable_mem hmod
      have hkeyLen : (t.message lr).keyLen = t.keyLen := rfl
      simp only [Except.map, hkeyLen, picture_entries hlook, lookEntry]
      cases hold : poflrEntryGetWithIndex flow.index t with
      | none => rfl
      | some old =>
          have hcounterId : (old.message flow.tableId (UInt8.ofNat t.type.toNat)).counterId =
              old.counterId := rfl
          have hstore := storeOk_modifyCounter h.store old flow hnew
          have hsame := sameTables_modifyCounter lr old flow counterAt
          simp only [Option.map_some, hcounterId]
          rw [← picture_modifyCounter old flow counterAt lr]
          rcases hcounter : modifyCounter old flow counterAt lr with ⟨_ | _, lr₁⟩
          · rfl
          · rw [hcounter] at hstore hsame
            have hplaced := hsame.placed h.placed
            have hlook₁ := (congrFun (lookTable_congr hsame) _).trans hlook
            have hshape := sameShape_entryDelete old t
            have hindex := poflrEntryGetWithIndex_index hold
            have hdelete : lookEntry (t.type, flow.tableId) (entryDelete old t) =
                update (lookEntry (t.type, flow.tableId) t) flow.index none :=
              lookEntry_entryDelete (h.entries t hmem) (h.indices t hmem).nodup hold
            have hfitsKey : fitsKey (entryDelete old t).type (entryDelete old t).keyLen flow =
                fitsKey t.type t.keyLen flow := by
              rw [hshape.type_eq, hshape.keyLen_eq]
            simp only
            rcases entryInsert_fits flow entryAt (entryDelete old t) with
              ⟨hfits, e, hins, hindex', hmsg⟩ | ⟨hfits, err, hins⟩ | ⟨hfits, hins⟩
            · rw [hfitsKey] at hfits
              have hset : (lr₁.setTable (entryLink e (entryDelete old t))).picture =
                  lr₁.picture.setEntry (t.type, flow.tableId) flow.index (some (flow.stored t.type)) := by
                refine picture_setEntry hfit hstore hplaced hlook₁ (hshape.trans (sameShape_entryLink e _)) ?_
                rw [← message_stored htype, ← hshape.type_eq, ← hmsg, lookEntry_entryLink
                  (nodup_entryDelete (h.indices t hmem).nodup old) fun b hb => ?_, hshape.type_eq, hdelete,
                  hindex', update_idem]
                rw [hindex', ← hindex]
                exact (h.indices t hmem).index_ne (poflrEntryGetWithIndex_mem hold) b hb
              rw [hins, hfits]
              simp only [Option.bind_eq_bind, Option.bind_some, Option.pure_def, Option.map_some, if_true, hset]
            · rw [hfitsKey] at hfits
              rw [hins, hfits]
              have hset := picture_setEntry hfit hstore hplaced hlook₁ hshape hdelete
              simp only [Option.bind_eq_bind, Option.bind_some, Option.pure_def, Option.map_some, hset]
              rfl
            · rw [hfitsKey] at hfits
              rw [hins, hfits]
              rfl

/-- **An entry is deleted.** -/
theorem picture_poflrDeleteFlowEntry (flow : PofFlowEntry) :
    ((poflrDeleteFlowEntry flow lr).1, (poflrDeleteFlowEntry flow lr).2.picture) =
      lr.picture.deleteEntry lr.limits flow := by
  unfold poflrDeleteFlowEntry Picture.deleteEntry
  rw [tableOf_picture hfit h.store h.placed]
  cases hmod : flowModTable flow lr with
  | error e => rfl
  | ok t =>
      obtain ⟨hlook, htype⟩ := lookTable_of_flowModTable hfit h.store h.placed hmod
      have hmem := flowModTable_mem hmod
      simp only [Except.map, picture_entries hlook, lookEntry]
      cases hold : poflrEntryGetWithIndex flow.index t with
      | none => rfl
      | some old =>
          have hcounterId : (old.message flow.tableId (UInt8.ofNat t.type.toNat)).counterId =
              old.counterId := rfl
          have hstore := h.store.poflrCounterDelete old.counterId
          have hsame := sameTables_poflrCounterDelete lr old.counterId
          simp only [Option.map_some, hcounterId]
          rw [← picture_poflrCounterDelete h.store old.counterId]
          rcases hcounter : poflrCounterDelete old.counterId lr with ⟨_ | _, lr₁⟩
          · rfl
          · rw [hcounter] at hstore hsame
            have hplaced := hsame.placed h.placed
            have hlook₁ := (congrFun (lookTable_congr hsame) _).trans hlook
            exact Prod.ext rfl (picture_setEntry hfit hstore hplaced hlook₁ (sameShape_entryDelete old t)
              (lookEntry_entryDelete (h.entries t hmem) (h.indices t hmem).nodup hold))

/-- **A table is created.** -/
theorem picture_poflrCreateFlowTable {msg : PofFlowTable} {newAt : ℕ}
    (hfresh : (LrOp.createFlowTable msg newAt).Fresh lr) :
    ((poflrCreateFlowTable msg newAt lr).1, (poflrCreateFlowTable msg newAt lr).2.picture) =
      lr.picture.createTable lr.limits msg := by
  unfold Picture.createTable
  rcases hcreate : poflrCreateFlowTable msg newAt lr with ⟨ret, lr'⟩
  have hexec : (LrOp.createFlowTable msg newAt).exec lr = some (ret, lr') := congrArg some hcreate
  have h' : Picturable nums lr' :=
    h.request hfit (show lr.picture.Prudent (.createFlowTable msg newAt) from trivial) hfresh hexec
  unfold poflrCreateFlowTable at hcreate
  cases htype : TableType.ofUInt8 msg.type with
  | none =>
      rw [htype] at hcreate
      cases hcreate
      rfl
  | some type =>
      simp only [htype] at hcreate ⊢
      by_cases hid : msg.tid.toUInt16 ≥ lr.tableNumMaxEachType.getD type.toNat 0
      · rw [if_pos hid] at hcreate
        rw [if_pos (show msg.tid.toUInt16 ≥ lr.limits.tableNumMaxEachType.getD type.toNat 0 from hid)]
        cases hcreate
        rfl
      · have hallowed : TableAllowed lr type msg.tid := UInt16.not_le.1 hid
        have hlook : lr.lookTable (type, msg.tid) = poflrGetTableWithID (poflrTableIdToID type msg.tid lr) lr :=
          if_pos hallowed
        have hsome : (lr.picture.tables (type, msg.tid)).isSome =
            (poflrGetTableWithID (poflrTableIdToID type msg.tid lr) lr).isSome := by
          rw [← hlook]
          exact Option.isSome_map
        have hmaxSize : lr.limits.tableSizeMax = lr.tableSizeMax := rfl
        have hmaxKey : lr.limits.keyLenEachType = lr.keyLenEachType := rfl
        rw [if_neg hid] at hcreate
        rw [if_neg (show ¬ msg.tid.toUInt16 ≥ lr.limits.tableNumMaxEachType.getD type.toNat 0 from hid), hsome,
          hmaxSize, hmaxKey]
        split_ifs at hcreate ⊢ with hexists hsize hkey
        · cases hcreate
          rfl
        · cases hcreate
          rfl
        · cases hcreate
          rfl
        · cases hcreate
          have habsent : lr.lookTable (type, msg.tid) = none := by
            rw [hlook]
            simpa using hexists
          set table := newTable msg type (poflrTableIdToID type msg.tid lr) newAt with htable
          have htid : lr.tableId table = msg.tid := by
            rw [LocalResource.tableId, htable, newTable, hfit.inverse h.nums_eq hallowed]
            rfl
          have hinsert : (mapTableInsert table lr).lookTable =
              update lr.lookTable (type, msg.tid) (some table) := by
            have hkeyed : (mapTableInsert table lr).tableKey table = (type, msg.tid) := Prod.ext rfl htid
            rw [← hkeyed]
            refine (h.finds hfit).insert (h'.finds hfit) fun b => ?_
            rw [mapTableInsert, Hmap.nodes_nodeInsert, List.mem_cons]
          have hmessage : table.message lr = msg.stored := by
            have hname : strncpy (strncpy msg.tableName nameMaxLength) nameMaxLength =
                strncpy msg.tableName nameMaxLength := strncpy_strncpy _ _
            have htid' : ((poflrTableIDToId table.id lr).map Prod.snd).getD 0 = msg.tid := htid
            simp only [TableInfo.message, PofFlowTable.stored, htid']
            simp only [htable, newTable, hname, ofNat_toNat_of_ofUInt8 htype]
          refine Prod.ext rfl (Picture.ext ?_ ?_ rfl rfl rfl)
          · refine (map_look (TableInfo.message lr) hinsert).trans ?_
            rw [Option.map_some, hmessage]
            rfl
          · funext k
            have hentries : (mapTableInsert table lr).picture.entries k =
                fun index => (update lr.lookTable (type, msg.tid) (some table) k).bind
                  fun t => lookEntry k t index := by
              rw [← hinsert]
              rfl
            rw [hentries]
            change _ = fun index => (lr.lookTable k).bind fun t => lookEntry k t index
            by_cases hk : k = (type, msg.tid)
            · funext index
              rw [hk, update_self, habsent]
              exact congrFun (lookEntry_nil rfl) index
            · rw [update_of_ne hk]

/-- Whether a table has entries, by their number. -/
theorem hasEntries_iff (hlook : lr.lookTable k = some t) : lr.picture.HasEntries k ↔ t.entryNum ≠ 0 := by
  have ht := (((h.finds hfit) _ _).1 hlook).1
  rw [Ne, h.entryNum_eq_zero_iff ht, Picture.HasEntries, picture_entries hlook]
  constructor
  · rintro ⟨index, hindex⟩ hnil
    rw [lookEntry_nil hnil] at hindex
    cases hindex
  · intro hne
    obtain ⟨e, he⟩ := List.exists_mem_of_ne_nil _ hne
    refine ⟨e.index, ?_⟩
    rw [lookEntry, Option.isSome_map, (finds_index (h.indices t ht).nodup).self he]
    rfl

/-- **A table is deleted.** -/
theorem picture_poflrDeleteFlowTable (id type : UInt8) :
    ((poflrDeleteFlowTable id type lr).1, (poflrDeleteFlowTable id type lr).2.picture) =
      lr.picture.deleteTable lr.limits id type := by
  unfold Picture.deleteTable
  rcases hdelete : poflrDeleteFlowTable id type lr with ⟨ret, lr'⟩
  have hexec : (LrOp.deleteFlowTable id type).exec lr = some (ret, lr') := congrArg some hdelete
  have hfresh : (LrOp.deleteFlowTable id type).Fresh lr := ⟨List.nodup_nil, by simp [LrOp.allocs]⟩
  have h' : Picturable nums lr' :=
    h.request hfit (show lr.picture.Prudent (.deleteFlowTable id type) from trivial) hfresh hexec
  unfold poflrDeleteFlowTable at hdelete
  cases htype : TableType.ofUInt8 type with
  | none =>
      rw [htype] at hdelete
      cases hdelete
      rfl
  | some type =>
      simp only [htype] at hdelete ⊢
      by_cases hid : id.toUInt16 ≥ lr.tableNumMaxEachType.getD type.toNat 0
      · rw [if_pos hid] at hdelete
        rw [if_pos (show id.toUInt16 ≥ lr.limits.tableNumMaxEachType.getD type.toNat 0 from hid)]
        cases hdelete
        rfl
      · have hallowed : TableAllowed lr type id := UInt16.not_le.1 hid
        have hlook : lr.lookTable (type, id) = poflrGetTableWithID (poflrTableIdToID type id lr) lr :=
          if_pos hallowed
        have hnone : (lr.picture.tables (type, id)).isNone = (lr.lookTable (type, id)).isNone :=
          Option.isNone_map
        rw [if_neg hid, ← hlook] at hdelete
        rw [if_neg (show ¬ id.toUInt16 ≥ lr.limits.tableNumMaxEachType.getD type.toNat 0 from hid), hnone]
        cases hget : lr.lookTable (type, id) with
        | none =>
            rw [hget] at hdelete
            cases hdelete
            rfl
        | some t =>
            obtain ⟨ht, hkey⟩ := ((h.finds hfit) _ _).1 hget
            have hempty := hasEntries_iff hfit h hget
            rw [hget] at hdelete
            rw [if_neg (by simp)]
            by_cases hnum : t.entryNum ≠ 0
            · rw [if_pos (hempty.2 hnum)]
              cases (if_pos hnum).symm.trans hdelete
              rfl
            · rw [if_neg (fun hindex => hnum (hempty.1 hindex))]
              cases (if_neg hnum).symm.trans hdelete
              have hnil := (h.entryNum_eq_zero_iff ht).1 (not_not.1 hnum)
              have hlookDelete : (mapTableDelete t lr).lookTable = update lr.lookTable (type, id) none := by
                rw [← hkey]
                exact (h.finds hfit).delete (h'.finds hfit) ht fun _ => h.store.tables.wf.mem_nodeDelete ht
              refine Prod.ext rfl (Picture.ext (map_look (TableInfo.message lr) hlookDelete) ?_ rfl rfl rfl)
              funext k
              have hentries' : (mapTableDelete t lr).picture.entries k =
                  fun index => (update lr.lookTable (type, id) none k).bind fun t => lookEntry k t index := by
                rw [← hlookDelete]
                rfl
              rw [hentries']
              change _ = lr.picture.entries k
              by_cases hk : k = (type, id)
              · funext index
                rw [hk, update_self, picture_entries hget, lookEntry_nil hnil]
                rfl
              · rw [update_of_ne hk]
                rfl

end Requests

/-! ### What no request writes -/

section ExecFrame

variable {β : Type} (part : LocalResource → β)
  (htables : ∀ (lr : LocalResource) m n, part { lr with tableIdMap := m, tableNum := n } = part lr)
  (hgroups : ∀ (lr : LocalResource) m n, part { lr with groupMap := m, groupNum := n } = part lr)
  (hmeters : ∀ (lr : LocalResource) m n, part { lr with meterMap := m, meterNum := n } = part lr)
  (hcounters : ∀ (lr : LocalResource) m n, part { lr with counterMap := m, counterNum := n } = part lr)

include hgroups hcounters in
theorem poflrAddGroupEntry_frame (group : PofGroup) (groupAt counterAt : ℕ) (lr : LocalResource) :
    part (poflrAddGroupEntry group groupAt counterAt lr).2 = part lr := by
  unfold poflrAddGroupEntry
  split_ifs
  · rfl
  · rfl
  · have hinit := poflrCounterInit_frame part lr hcounters group.counterId counterAt
    rcases hcounter : poflrCounterInit group.counterId counterAt lr with ⟨_ | _, lr₁⟩
    · rwa [hcounter] at hinit
    · rw [hcounter] at hinit
      exact (hgroups lr₁ _ _).trans hinit

include hgroups in
theorem poflrModifyGroupEntry_frame (group : PofGroup) (lr : LocalResource) :
    part (poflrModifyGroupEntry group lr).2 = part lr := by
  unfold poflrModifyGroupEntry
  split_ifs
  · rfl
  · split
    · rfl
    · split_ifs
      · rfl
      · exact hgroups lr _ lr.groupNum

include hgroups hcounters in
theorem poflrDeleteGroupEntry_frame (group : PofGroup) (lr : LocalResource) :
    part (poflrDeleteGroupEntry group lr).2 = part lr := by
  unfold poflrDeleteGroupEntry
  split_ifs
  · rfl
  · split
    · rfl
    · have hdelete := poflrCounterDelete_frame part lr hcounters group.counterId
      rcases hcounter : poflrCounterDelete group.counterId lr with ⟨_ | _, lr₁⟩
      · rwa [hcounter] at hdelete
      · rw [hcounter] at hdelete
        exact (hgroups lr₁ _ _).trans hdelete

include htables hgroups hmeters hcounters

/-- **What no request writes is kept by requests.** -/
theorem LrOp.exec_frame {op : LrOp} {lr lr' : LocalResource} {ret : Ret}
    (hports : ∀ (lr : LocalResource) (p : ℕ) (flag : UInt8),
      part { lr with portPofIndexMap := lr.portPofIndexMap.modify p fun port =>
        { port with ofEnable := flag } } = part lr)
    (h : op.exec lr = some (ret, lr')) : part lr' = part lr := by
  have hsnd : ∀ {r : Ret × LocalResource}, some r = some (ret, lr') → part r.2 = part lr →
      part lr' = part lr := by
    rintro r hr hpart
    cases hr
    exact hpart
  have hset : ∀ (lr : LocalResource) t, part (lr.setTable t) = part lr := fun lr t => htables lr _ lr.tableNum
  cases op with
  | createFlowTable msg newAt =>
      rcases poflrCreateFlowTable_cases msg newAt lr with ⟨_, heq⟩ | ⟨_, _, heq⟩
      · exact hsnd h (congrArg part (congrArg Prod.snd heq))
      · exact hsnd h ((congrArg part (congrArg Prod.snd heq)).trans (htables lr _ _))
  | deleteFlowTable id type =>
      rcases poflrDeleteFlowTable_cases id type lr with ⟨_, heq⟩ | ⟨_, _, _, heq⟩
      · exact hsnd h (congrArg part (congrArg Prod.snd heq))
      · exact hsnd h ((congrArg part (congrArg Prod.snd heq)).trans (htables lr _ _))
  | addFlowEntry flow entryAt counterAt => exact poflrAddFlowEntry_frame part hcounters hset h
  | modifyFlowEntry flow entryAt counterAt => exact poflrModifyFlowEntry_frame part hcounters hset h
  | deleteFlowEntry flow => exact hsnd h (poflrDeleteFlowEntry_frame part hcounters hset flow lr)
  | addGroupEntry group groupAt counterAt =>
      exact hsnd h (poflrAddGroupEntry_frame part hgroups hcounters group groupAt counterAt lr)
  | modifyGroupEntry group => exact hsnd h (poflrModifyGroupEntry_frame part hgroups group lr)
  | deleteGroupEntry group => exact hsnd h (poflrDeleteGroupEntry_frame part hgroups hcounters group lr)
  | addMeterEntry meterId rate newAt =>
      exact hsnd h (poflrAddMeterEntry_frame part lr hmeters meterId rate newAt)
  | modifyMeterEntry meterId rate => exact hsnd h (poflrModifyMeterEntry_frame part lr hmeters meterId rate)
  | deleteMeterEntry meterId => exact hsnd h (poflrDeleteMeterEntry_frame part lr hmeters meterId)
  | counterInit counterId newAt => exact hsnd h (poflrCounterInit_frame part lr hcounters counterId newAt)
  | counterDelete counterId => exact hsnd h (poflrCounterDelete_frame part lr hcounters counterId)
  | counterClear counterId => exact hsnd h (poflrCounterClear_frame part lr hcounters counterId)
  | portOpenflowEnable portId flag =>
      refine hsnd h ?_
      unfold poflrPortOpenflowEnable
      split
      · rfl
      · exact hports lr _ flag
  | clearResource =>
      refine hsnd h ?_
      rw [poflrClearResource, poflrEmptyCounter_frame part _ fun _ lr => hcounters lr _ _,
        poflrEmptyMeter_frame part _ fun _ lr => hmeters lr _ _,
        poflrEmptyGroup_frame part _ fun _ lr => hgroups lr _ _,
        poflrEmptyFlowTable_frame part _ hset fun _ lr => htables lr _ _,
        poflrDisableAllPort_frame part _ fun _ lr => hports lr _ _]

end ExecFrame

/-! ### Ports and counters that are written to -/

/-- A node that is written to is found by its hash as before. -/
theorem Hmap.isSome_modify {α : Type} [HmapNode α] (m : Hmap α) {p : ℕ} {f : α → α}
    (hhash : ∀ a, HmapNode.hash (f a) = HmapNode.hash a) (k : UInt32) :
    ((m.modify p f).nodeGetWithHash k).isSome = (m.nodeGetWithHash k).isSome := by
  rw [nodeGetWithHash_modify fun a _ _ => hhash a, Option.isSome_map]

/-- A request leaves a slot the ports that it has. -/
theorem LrOp.ports_exec {op : LrOp} {lr lr' : LocalResource} {ret : Ret} (h : op.exec lr = some (ret, lr')) :
    lr'.ports = lr.ports := by
  refine LrOp.exec_frame LocalResource.ports (fun _ _ _ => rfl) (fun _ _ _ => rfl) (fun _ _ _ => rfl)
    (fun _ _ _ => rfl) (fun lr p flag => Set.ext fun i => ?_) h
  have hkept := lr.portPofIndexMap.isSome_modify (p := p) (f := fun port => { port with ofEnable := flag })
    (fun _ => rfl) (hmapHashForLinear i.toUInt32)
  exact Eq.to_iff (congrArg (· = true) hkept)

/-- The values of the counters are not part of the picture. -/
theorem picture_writeCounter (lr : LocalResource) {p : ℕ} {f : CounterInfo → CounterInfo}
    (hhash : ∀ c, (f c).hash = c.hash) :
    { lr with counterMap := lr.counterMap.modify p f }.picture = lr.picture :=
  picture_eq rfl rfl rfl rfl fun _ => lr.counterMap.isSome_modify hhash _

/-- **A counter is to count from zero.** -/
theorem picture_poflrCounterClear (c : UInt32) (lr : LocalResource) :
    ((poflrCounterClear c lr).1, (poflrCounterClear c lr).2.picture) =
      (lr.picture.clearCounter lr.limits c, lr.picture) := by
  unfold poflrCounterClear Picture.clearCounter
  by_cases hzero : c = 0
  · rw [if_pos hzero, if_pos hzero]
  · rw [if_neg hzero, if_neg hzero]
    by_cases hmax : c ≥ lr.counterNumMax
    · rw [if_pos hmax, if_pos (show c ≥ lr.limits.counterNumMax from hmax)]
    · rw [if_neg hmax, if_neg (show ¬ c ≥ lr.limits.counterNumMax from hmax)]
      have hmem : c ∈ lr.picture.counters ↔ (poflrGetCounterWithID c lr).isSome := Iff.rfl
      cases hget : poflrGetCounterWithID c lr with
      | none => rw [if_neg (by rw [hmem, hget]; simp)]
      | some counter =>
          rw [if_pos (by rw [hmem, hget]; rfl)]
          exact Prod.ext rfl (picture_writeCounter lr fun _ => rfl)

/-- A counter that is increased. -/
theorem picture_counterStep {lr lr' : LocalResource} (h : CounterStep lr lr') : lr'.picture = lr.picture := by
  rcases h with rfl | ⟨c, n, ret, hinc⟩
  · rfl
  · unfold poflrCounterIncreace at hinc
    split_ifs at hinc
    · cases hinc
      rfl
    · cases hinc
      rfl
    · obtain ⟨counter, _, heq⟩ := Option.map_eq_some_iff.1 hinc
      cases heq
      exact picture_writeCounter lr fun _ => rfl

/-- **A packet does not change the picture.** -/
theorem picture_packet {env : DpEnv} {portId : UInt8} {packet : Buf} {fuel : ℕ} {lr : LocalResource}
    {r : Except Halt Unit} {t : DpState}
    (hexec : exec (pofdpInstructionExecute env fuel) (pofdpForward portId packet lr) = (r, t))
    (hr : r ≠ .error .fuel) : t.lr.picture = lr.picture :=
  packet_keeps LocalResource.picture (fun _ _ => picture_counterStep) hexec hr

/-- A slot without tables, groups, meters and counters stores nothing. -/
theorem picture_eq_empty {lr : LocalResource} (htables : lr.tableIdMap.nodes = [])
    (hgroups : lr.groupMap.nodes = []) (hmeters : lr.meterMap.nodes = [])
    (hcounters : lr.counterMap.nodes = []) : lr.picture = Picture.empty := by
  have hnone : ∀ {α : Type} [HmapNode α] {m : Hmap α} (k : UInt32), m.nodes = [] →
      m.nodeGetWithHash k = none := by
    intro α _ m k hnil
    rw [Hmap.nodeGetWithHash, hnil, List.find?_nil]
  have htable : ∀ k, lr.lookTable k = none := by
    intro k
    unfold LocalResource.lookTable
    split_ifs
    · exact hnone _ htables
    · rfl
  refine Picture.ext ?_ ?_ ?_ ?_ ?_
  · funext k
    simp only [LocalResource.picture, htable, Option.map_none, Picture.empty]
  · funext k index
    simp only [LocalResource.picture, htable, Option.bind_none, Picture.empty]
  · funext id
    simp only [LocalResource.picture, poflrGetGroupWithID, hnone _ hgroups, Option.map_none, Picture.empty]
  · funext id
    simp only [LocalResource.picture, poflrGetMeterWithID, hnone _ hmeters, Option.map_none, Picture.empty]
  · refine Set.eq_empty_iff_forall_notMem.2 fun c hc => ?_
    have hsome : (poflrGetCounterWithID c lr).isSome = true := hc
    rw [poflrGetCounterWithID, hnone _ hcounters] at hsome
    cases hsome

/-- Nothing is stored at start-up. -/
theorem picture_init (cfg : LrConfig) : (pofLocalresourceInit cfg).picture = Picture.empty :=
  (poflrDisableAllPort_frame LocalResource.picture _ fun _ _ => rfl).trans (picture_eq_empty rfl rfl rfl rfl)

/-! ### Every request -/

/-- **A request returns what the picture says, and leads to what the picture says.**  When it does not return,
the picture says so, too. -/
theorem Picturable.exec_picture {nums : Vector UInt16 4} {lr : LocalResource} (h : Picturable nums lr)
    (hfit : TablesFit nums) {op : LrOp} (hprudent : lr.picture.Prudent op) (hfresh : op.Fresh lr) :
    (op.exec lr).map (fun r => (r.1, r.2.picture)) = lr.picture.serve lr.limits lr.ports op := by
  cases op with
  | createFlowTable msg newAt => exact congrArg some (picture_poflrCreateFlowTable hfit h hfresh)
  | deleteFlowTable id type => exact congrArg some (picture_poflrDeleteFlowTable hfit h id type)
  | addFlowEntry flow entryAt counterAt => exact picture_poflrAddFlowEntry hfit h hprudent
  | modifyFlowEntry flow entryAt counterAt => exact picture_poflrModifyFlowEntry hfit h hfresh
  | deleteFlowEntry flow => exact congrArg some (picture_poflrDeleteFlowEntry hfit h flow)
  | addGroupEntry group groupAt counterAt =>
      exact congrArg some (picture_poflrAddGroupEntry group groupAt counterAt lr)
  | modifyGroupEntry group => exact congrArg some (picture_poflrModifyGroupEntry h.store group)
  | deleteGroupEntry group => exact congrArg some (picture_poflrDeleteGroupEntry h.store group)
  | addMeterEntry meterId rate newAt => exact congrArg some (picture_poflrAddMeterEntry meterId rate newAt lr)
  | modifyMeterEntry meterId rate => exact congrArg some (picture_poflrModifyMeterEntry h.store meterId rate)
  | deleteMeterEntry meterId => exact congrArg some (picture_poflrDeleteMeterEntry h.store meterId)
  | counterInit counterId newAt => exact congrArg some (picture_poflrCounterInit counterId newAt lr)
  | counterDelete counterId => exact congrArg some (picture_poflrCounterDelete h.store counterId)
  | counterClear counterId => exact congrArg some (picture_poflrCounterClear counterId lr)
  | portOpenflowEnable portId flag =>
      have hmem : portId.toUInt8 ∈ lr.ports ↔ (poflrGetPortWithPofindex portId.toUInt8 lr).isSome := Iff.rfl
      simp only [LrOp.exec, Picture.serve, Option.map_some, poflrPortOpenflowEnable, hmem]
      cases hport : poflrGetPortWithPofindex portId.toUInt8 lr with
      | none => simp
      | some port =>
          simp only [Option.isSome_some, if_true]
          exact congrArg some (Prod.ext rfl rfl)
  | clearResource =>
      have h := poflrClearResource_cleared lr
      have hempty := picture_eq_empty h.tables h.groups h.meters h.counters
      simp only [LrOp.exec, Picture.serve, Option.map_some, hempty]

/-! ### Runs -/

/-- What happens to a slot: a request is made of it, or a packet is forwarded in it. -/
inductive SlotEvent
  | request (op : LrOp)
  | packet (env : DpEnv) (portId : UInt8) (packet : Buf) (fuel : ℕ)

/-- The slot.  What a request returns is put out. -/
def slotMachine : Machine LocalResource SlotEvent Ret where
  step lr
    | .request op => (op.exec lr).map fun r => (r.2, [r.1])
    | .packet env portId packet fuel =>
        match exec (pofdpInstructionExecute env fuel) (pofdpForward portId packet lr) with
        | (.error .fuel, _) => none
        | (_, t) => some (t.lr, [])

/-- The picture of a slot with these limits and ports. -/
noncomputable def pictureMachine (lim : Limits) (ports : Set UInt8) : Machine Picture SlotEvent Ret where
  step p
    | .request op => (p.serve lim ports op).map fun r => (r.2, [r.1])
    | .packet _ _ _ _ => some (p, [])

/-- What is promised of an event: `malloc` keeps its promise, and a packet comes to its end. -/
def LocalResource.Promised (lr : LocalResource) : SlotEvent → Prop
  | .request op => op.Fresh lr
  | .packet env portId packet fuel =>
      (exec (pofdpInstructionExecute env fuel) (pofdpForward portId packet lr)).1 ≠ .error .fuel

/-- The event adds no entry for an index that is in use. -/
def Picture.PrudentEvent (p : Picture) : SlotEvent → Prop
  | .request op => p.Prudent op
  | .packet _ _ _ _ => True

/-- The step of a packet that comes to its end. -/
theorem step_packet {env : DpEnv} {portId : UInt8} {packet : Buf} {fuel : ℕ} {lr : LocalResource}
    {r : Except Halt Unit} {t : DpState}
    (hexec : exec (pofdpInstructionExecute env fuel) (pofdpForward portId packet lr) = (r, t))
    (hr : r ≠ .error .fuel) : slotMachine.step lr (.packet env portId packet fuel) = some (t.lr, []) := by
  simp only [slotMachine, hexec]

/-- **A slot is as the controller pictures it.**  From start-up, with numbers of tables that fit, in every run of
requests and packets in which no entry is added for an index that is in use: the requests return what the
picture says, the slot stores what the picture says, and the slot does not return from a request exactly
when the picture says so. -/
theorem slot_keeps_picture {cfg : LrConfig} {nums : Vector UInt16 4}
    (hnums : cfg.tableNumMaxEachType = nums.toList) (hfit : TablesFit nums) {events : List SlotEvent}
    (hpromised : slotMachine.Along LocalResource.Promised (pofLocalresourceInit cfg) events)
    (hprudent : (pictureMachine (pofLocalresourceInit cfg).limits (pofLocalresourceInit cfg).ports).Along
      Picture.PrudentEvent Picture.empty events) :
    (slotMachine.run (pofLocalresourceInit cfg) events).map (fun r => (r.1.picture, r.2)) =
      (pictureMachine (pofLocalresourceInit cfg).limits (pofLocalresourceInit cfg).ports).run
        Picture.empty events := by
  have hinit : (pofLocalresourceInit cfg).tableNumMaxEachType = nums.toList := by
    rw [pofLocalresourceInit, poflrDisableAllPort_frame LocalResource.tableNumMaxEachType _ fun _ _ => rfl]
    exact hnums
  rw [← picture_init cfg] at hprudent ⊢
  -- what the steps keep: the slot is sound, and it has the limits and the ports of the start
  refine Machine.run_map (I := fun lr => Picturable nums lr ∧ lr.limits = (pofLocalresourceInit cfg).limits ∧
    lr.ports = (pofLocalresourceInit cfg).ports) ?_ ?_ ⟨Picturable.init hinit, rfl, rfl⟩ hpromised hprudent
  · rintro lr (op | ⟨env, portId, packet, fuel⟩) ⟨h, hlimits, hports⟩ hstep hprudent
    · have hexec := h.exec_picture hfit hprudent hstep
      rw [hlimits, hports] at hexec
      simp only [slotMachine, pictureMachine, ← hexec, Option.map_map]
      rfl
    · rcases hexec : exec (pofdpInstructionExecute env fuel) (pofdpForward portId packet lr) with ⟨r, t⟩
      have hr : r ≠ .error .fuel := by
        rw [LocalResource.Promised, hexec] at hstep
        exact hstep
      rw [step_packet hexec hr, Option.map_some, picture_packet hexec hr]
      rfl
  · rintro lr (op | ⟨env, portId, packet, fuel⟩) lr' rets ⟨h, hlimits, hports⟩ hstep hprudent hrun
    · obtain ⟨⟨ret, lr₁⟩, hexec, heq⟩ := Option.map_eq_some_iff.1 hrun
      obtain ⟨rfl, rfl⟩ := Prod.mk.inj heq
      exact ⟨h.request hfit hprudent hstep hexec, (LrOp.tables_cases hexec hstep).2.trans hlimits,
        (LrOp.ports_exec hexec).trans hports⟩
    · rcases hexec : exec (pofdpInstructionExecute env fuel) (pofdpForward portId packet lr) with ⟨r, t⟩
      have hr : r ≠ .error .fuel := by
        rw [LocalResource.Promised, hexec] at hstep
        exact hstep
      obtain ⟨rfl, -⟩ := Prod.mk.inj (Option.some.inj ((step_packet hexec hr).symm.trans hrun))
      exact ⟨h.packet hexec hr, (frame_packet LocalResource.limits (fun _ _ => rfl) hexec hr).trans hlimits,
        (frame_packet LocalResource.ports (fun _ _ => rfl) hexec hr).trans hports⟩

/-- The state after a request. -/
theorem next_of_step {op : LrOp} {lr lr' : LocalResource} {rets : List Ret}
    (h : slotMachine.step lr (.request op) = some (lr', rets)) : lr' = op.next lr := by
  obtain ⟨r, hexec, heq⟩ := Option.map_eq_some_iff.1 (show (op.exec lr).map (fun r => (r.2, [r.1])) = _ from h)
  obtain ⟨rfl, rfl⟩ := Prod.mk.inj heq
  rw [LrOp.next, hexec]

/-- A table is created, gets an entry, and cannot be deleted. -/
def fullTable : List SlotEvent :=
  [.request (.createFlowTable (oneFieldTable 2 32) 1),
    .request (.addFlowEntry (oneFieldEntry 2 32 0 0 [1, 2, 3, 4] [255, 255, 255, 255]) 2 3),
    .request (.deleteFlowTable 0 2)]

theorem slot_keeps_picture_full : (slotMachine.run (pofLocalresourceInit smallConfig) fullTable).map Prod.snd =
      some [[.ok ()], [.ok ()], [.error ⟨.tableModFailed, .poftmfcTableUnempty⟩]] ∧
    (slotMachine.run (pofLocalresourceInit smallConfig) fullTable).map (fun r => (r.1.picture, r.2)) =
      (pictureMachine (pofLocalresourceInit smallConfig).limits (pofLocalresourceInit smallConfig).ports).run
        Picture.empty fullTable := by
  have hnums : smallConfig.tableNumMaxEachType = (#v[1, 1, 1, 1] : Vector UInt16 4).toList := rfl
  refine ⟨by decide +kernel, slot_keeps_picture hnums (tablesFit_of_sum_le (by decide)) ?_ ?_⟩
  · refine ⟨show LrOp.Fresh _ _ by decide +kernel, fun lr₁ _ h₁ => ?_⟩
    obtain rfl := next_of_step h₁
    refine ⟨show LrOp.Fresh _ _ by decide +kernel, fun lr₂ _ h₂ => ?_⟩
    obtain rfl := next_of_step h₂
    exact ⟨show LrOp.Fresh _ _ by decide +kernel, fun _ _ _ => trivial⟩
  · -- the new table has no entries
    refine ⟨trivial, fun p rets hstep => ⟨fun type htype => ?_, fun _ _ _ => ⟨trivial, fun _ _ _ => trivial⟩⟩⟩
    cases hstep
    rfl

end PofSwitch
