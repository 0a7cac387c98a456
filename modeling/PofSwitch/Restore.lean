/-
**Restoring a slot from what it reports.**

A report of a query for everything has the structure of the request that stores its object.  So the
reports of one slot can be sent to another one: the tables first, then the entries, the groups, the meters
and the counters, which is the order in which they are queued.  A cleared slot with the same limits stores
the same after it has been sent them: the tables under their identifiers, with their fields and their
entries, the groups with the actions they use, and the rates of the meters.  An entry may name a counter
that has been deleted, or one beyond the limit; the first is there again, and the second makes the request
fail after the entry has been stored.

The values of the counters are not restored, nor is the order in the maps.

Main definitions:

* `PofSwitch.TableInfo.contents`, `PofSwitch.GroupInfo.contents`, `PofSwitch.Restores` — what is restored;
* `PofSwitch.Report.request`, `PofSwitch.Replays`, `PofSwitch.ReplayLeads` — the requests made of reports,
  sent one after the other;
* `PofSwitch.Rebuilt` — a slot part of the way.

Main results:

* `PofSwitch.ReplayLeads.map` — **the rule for a loop of requests**, from what one of them does;
* `PofSwitch.queryall_restores` — **a cleared slot that is sent the reports stores the same.**
-/

import PofSwitch.QueryAll
import PofSwitch.Replicas
import PofSwitch.Restorable

set_option relaxedAutoImplicit false
set_option autoImplicit false

namespace PofSwitch

open HmapNode Buf

/-! ### Lookups -/

namespace Hmap

variable {α : Type} [HmapNode α]

theorem nodeGetWithHash_nodeInsert (m : Hmap α) (a : α) (k : UInt32) :
    (m.nodeInsert a).nodeGetWithHash k = if HmapNode.hash a = k then some a else m.nodeGetWithHash k := by
  unfold nodeGetWithHash
  rw [nodes_nodeInsert, List.find?_cons]
  by_cases h : HmapNode.hash a = k
  · simp [h]
  · simp [h]

/-- **Where every node is stored under the hash of its identifier, a lookup finds what a search for the
identifier finds**, in whatever order it goes. -/
theorem Keyed.find?_id {m : Hmap α} {bound : ℕ} (h : m.Keyed bound) {κ : Type} [DecidableEq κ] {id : α → κ}
    {hashOf : κ → UInt32} (hinj : Function.Injective hashOf)
    (hhash : ∀ a ∈ m.nodes, HmapNode.hash a = hashOf (id a)) {l : List α} (hl : l.Perm m.nodes) (k : κ) :
    l.find? (fun a => id a = k) = m.nodeGetWithHash (hashOf k) := by
  cases hget : m.nodeGetWithHash (hashOf k) with
  | none =>
      refine List.find?_eq_none.2 fun a ha hid => ?_
      have hmem := hl.mem_iff.1 ha
      have hid : id a = k := of_decide_eq_true hid
      refine List.find?_eq_none.1 hget a hmem (decide_eq_true ?_)
      rw [hhash a hmem, hid]
  | some a =>
      obtain ⟨hmem, hk⟩ := nodeGetWithHash_eq_some hget
      have hid : id a = k := hinj ((hhash a hmem).symm.trans hk)
      refine find?_eq_some_of_unique (hl.mem_iff.2 hmem) (decide_eq_true hid) fun b hb hbk => ?_
      have hb' := hl.mem_iff.1 hb
      refine List.inj_on_of_nodup_map h.nodup_hash hb' hmem ?_
      rw [hhash b hb', hhash a hmem, of_decide_eq_true hbk, hid]

end Hmap

theorem hmapHashForLinear_injective : Function.Injective hmapHashForLinear := fun _ _ h => h

theorem hash_toUInt32_injective : Function.Injective fun ID : UInt8 => hmapHashForLinear ID.toUInt32 :=
  fun _ _ h => UInt8.toUInt32_inj.1 h

/-! ### What is restored -/

/-- What a table stores, the entries without their addresses and in no order. -/
structure TableContents where
  type : TableType
  name : Buf
  size : UInt32
  keyLen : UInt16
  matchFieldNum : UInt8
  match_ : List PofMatch
  entries : Multiset EntryInfo

/-- A table with the given entries. -/
def TableInfo.contentsWith (t : TableInfo) (entries : Multiset EntryInfo) : TableContents :=
  ⟨t.type, t.name, t.size, t.keyLen, t.matchFieldNum, t.match_, entries⟩

/-- What a table stores. -/
def TableInfo.contents (t : TableInfo) : TableContents :=
  t.contentsWith (t.entryMap.nodes.map EntryInfo.content)

/-- What a group stores, as far as `action_number` goes. -/
structure GroupContents where
  type : UInt8
  actionNumber : UInt8
  counterId : UInt32
  action : List PofAction

/-- What a group stores. -/
def GroupInfo.contents (g : GroupInfo) : GroupContents :=
  ⟨g.type, g.actionNumber, g.counterId, g.action.take g.actionNumber.toNat⟩

/-- A stored entry or group names the counter. -/
def LocalResource.Names (lr : LocalResource) (c : UInt32) : Prop :=
  (∃ t ∈ lr.tableIdMap.nodes, ∃ e ∈ t.entryMap.nodes, e.counterId = c) ∨
    ∃ g ∈ lr.groupMap.nodes, g.counterId = c

/-- **The slot `lr'` stores what `lr` stores.**  It has the counters of `lr` and, within the limit, those
that the entries and groups of `lr` name. -/
structure Restores (lr lr' : LocalResource) : Prop where
  tables : ∀ ID, (poflrGetTableWithID ID lr').map TableInfo.contents =
    (poflrGetTableWithID ID lr).map TableInfo.contents
  groups : ∀ id, (poflrGetGroupWithID id lr').map GroupInfo.contents =
    (poflrGetGroupWithID id lr).map GroupInfo.contents
  meters : ∀ id, (poflrGetMeterWithID id lr').map MeterInfo.rate =
    (poflrGetMeterWithID id lr).map MeterInfo.rate
  counters : ∀ c ≠ 0, (poflrGetCounterWithID c lr').isSome ↔
    (poflrGetCounterWithID c lr).isSome ∨ c < lr.counterNumMax ∧ lr.Names c

/-! ### Requests made of reports -/

/-- The request that stores what is reported, with the addresses `malloc` returns to it. -/
def Report.request (newAt counterAt : ℕ) : Report → LrOp
  | .table msg => .createFlowTable msg newAt
  | .entry flow => .addFlowEntry flow newAt counterAt
  | .group msg => .addGroupEntry msg newAt counterAt
  | .meter meterId rate => .addMeterEntry meterId rate newAt
  | .counter counterId _ _ => .counterInit counterId newAt

/-- The slot `lr'` is what is left when the reports are sent to `lr` one after the other, whatever is
returned. -/
inductive Replays : LocalResource → List Report → LocalResource → Prop
  | nil (lr : LocalResource) : Replays lr [] lr
  | cons {lr lr₁ lr₂ : LocalResource} {r : Report} {rs : List Report} {newAt counterAt : ℕ} {ret : Ret} :
      (r.request newAt counterAt).Fresh lr → (r.request newAt counterAt).exec lr = some (ret, lr₁) →
      Replays lr₁ rs lr₂ → Replays lr (r :: rs) lr₂

/-- **Whatever addresses `malloc` returns, the requests return and lead to what is wanted.** -/
def ReplayLeads (post : LocalResource → Prop) : List Report → LocalResource → Prop
  | [], lr => post lr
  | r :: rs, lr => ∀ newAt counterAt, (r.request newAt counterAt).Fresh lr →
      ∃ ret lr₁, (r.request newAt counterAt).exec lr = some (ret, lr₁) ∧ ReplayLeads post rs lr₁

section Rules

variable {lr : LocalResource} {rs rs' : List Report} {post post' : LocalResource → Prop}

/-- There are always two new addresses. -/
theorem exists_addresses (lr : LocalResource) : ∃ a b : ℕ, [a, b].Nodup ∧ a ≠ 0 ∧ b ≠ 0 ∧
    a ∉ lr.liveAddrs ∧ b ∉ lr.liveAddrs := by
  have hnotMem : ∀ n > lr.liveAddrs.sum, n ∉ lr.liveAddrs := fun n hn hmem =>
    Nat.not_lt.2 (List.single_le_sum (fun _ _ => Nat.zero_le _) n hmem) hn
  refine ⟨lr.liveAddrs.sum + 1, lr.liveAddrs.sum + 2, by simp, by omega, by omega, ?_, ?_⟩
  · exact hnotMem _ (by omega)
  · exact hnotMem _ (by omega)

/-- A request that stores something can always be given addresses. -/
theorem Report.exists_fresh (r : Report) (lr : LocalResource) :
    ∃ newAt counterAt, (r.request newAt counterAt).Fresh lr := by
  obtain ⟨a, b, hnodup, ha, hb, hfree, hfree'⟩ := exists_addresses lr
  refine ⟨a, b, ?_⟩
  have hone : ∀ op : LrOp, op.allocs = [a] → op.Fresh lr := by
    intro op hop
    rw [LrOp.Fresh, hop]
    refine ⟨List.nodup_singleton a, fun x hx => ?_⟩
    obtain rfl := List.mem_singleton.1 hx
    exact ⟨ha, fun hlive => absurd hlive hfree⟩
  have htwo : ∀ op : LrOp, op.allocs = [a, b] → op.Fresh lr := by
    intro op hop
    rw [LrOp.Fresh, hop]
    refine ⟨hnodup, fun x hx => ?_⟩
    rcases List.mem_cons.1 hx with rfl | hx
    · exact ⟨ha, fun hlive => absurd hlive hfree⟩
    · obtain rfl := List.mem_singleton.1 hx
      exact ⟨hb, fun hlive => absurd hlive hfree'⟩
  cases r with
  | table table => exact hone _ rfl
  | entry flow => exact htwo _ rfl
  | group group => exact htwo _ rfl
  | meter meterId rate => exact hone _ rfl
  | counter counterId value byteValue => exact hone _ rfl

/-- Reports that lead to what is wanted can be sent, and what is left in the end is what is wanted. -/
theorem ReplayLeads.replays (h : ReplayLeads post rs lr) :
    (∃ lr', Replays lr rs lr') ∧ ∀ lr', Replays lr rs lr' → post lr' := by
  induction rs generalizing lr with
  | nil =>
      refine ⟨⟨lr, Replays.nil lr⟩, fun lr' hreplay => ?_⟩
      cases hreplay
      exact h
  | cons r rs ih =>
      constructor
      · obtain ⟨a, b, hfresh⟩ := r.exists_fresh lr
        obtain ⟨ret, lr₁, hexec, hrest⟩ := h a b hfresh
        obtain ⟨lr', hreplay⟩ := (ih hrest).1
        exact ⟨lr', Replays.cons hfresh hexec hreplay⟩
      · intro lr' hreplay
        cases hreplay with
        | cons hfresh hexec hreplay =>
            obtain ⟨ret, lr₁, hexec', hrest⟩ := h _ _ hfresh
            cases hexec.symm.trans hexec'
            exact (ih hrest).2 lr' hreplay

theorem ReplayLeads.mono (h : ReplayLeads post rs lr) (hle : ∀ lr₁, post lr₁ → post' lr₁) :
    ReplayLeads post' rs lr := by
  induction rs generalizing lr with
  | nil => exact hle lr h
  | cons r rs ih =>
      intro a b hfresh
      obtain ⟨ret, lr₁, hexec, hrest⟩ := h a b hfresh
      exact ⟨ret, lr₁, hexec, ih hrest⟩

theorem ReplayLeads.append (h : ReplayLeads post rs lr) (h' : ∀ lr₁, post lr₁ → ReplayLeads post' rs' lr₁) :
    ReplayLeads post' (rs ++ rs') lr := by
  induction rs generalizing lr with
  | nil => exact h' lr h
  | cons r rs ih =>
      intro a b hfresh
      obtain ⟨ret, lr₁, hexec, hrest⟩ := h a b hfresh
      exact ⟨ret, lr₁, hexec, ih hrest⟩

/-- **The rule for a loop of requests**: what holds of the objects that have been sent, the last one first,
holds of all of them in the end. -/
theorem ReplayLeads.map {α : Type} {f : α → Report} (inv : List α → LocalResource → Prop) {l : List α}
    (hstep : ∀ done a rest, l = done.reverse ++ a :: rest → ∀ lr, inv done lr → ∀ newAt counterAt,
      ((f a).request newAt counterAt).Fresh lr →
      ∃ ret lr₁, ((f a).request newAt counterAt).exec lr = some (ret, lr₁) ∧ inv (a :: done) lr₁)
    (h : inv [] lr) : ReplayLeads (inv l.reverse) (l.map f) lr := by
  have hloop : ∀ (todo done : List α) (lr : LocalResource), l = done.reverse ++ todo → inv done lr →
      ReplayLeads (inv l.reverse) (todo.map f) lr := by
    intro todo
    induction todo with
    | nil =>
        intro done lr hl hinv
        rw [hl, List.append_nil, List.reverse_reverse]
        exact hinv
    | cons a todo ih =>
        intro done lr hl hinv newAt counterAt hfresh
        obtain ⟨ret, lr₁, hexec, hinv'⟩ := hstep done a todo hl lr hinv newAt counterAt hfresh
        refine ⟨ret, lr₁, hexec, ih (a :: done) lr₁ ?_ hinv'⟩
        rw [hl, List.reverse_cons, List.append_assoc, List.singleton_append]
  exact hloop l [] lr rfl h

end Rules

-- From here on the rules alone are used: the definition would run the requests.
attribute [irreducible] ReplayLeads

/-! ### Messages that fill in the same again -/

/-- A name that has been copied is copied as it is. -/
theorem strncpy_strncpy (src : Buf) (n : ℕ) : strncpy (strncpy src n) n = strncpy src n := by
  set s := (src.takeWhile (· ≠ 0)).take n with hs
  have hcopy : strncpy src n = s ++ zeros (n - s.length) := rfl
  have hnonzero : ∀ b ∈ s, decide (b ≠ 0) = true := fun b hb => by
    have hmem : b ∈ src.takeWhile (· ≠ 0) := List.mem_of_mem_take hb
    simpa using List.mem_takeWhile_imp hmem
  have hzeros : (zeros (n - s.length)).takeWhile (· ≠ 0) = [] := by
    cases n - s.length <;> simp [zeros, List.replicate_succ]
  have htake : ((s ++ zeros (n - s.length)).takeWhile (· ≠ 0)).take n = s := by
    rw [List.takeWhile_append_of_pos hnonzero, hzeros, List.append_nil]
    exact List.take_of_length_le (List.length_take_le _ _)
  rw [hcopy, strncpy, htake]

/-- The table that is created from its own report has everything but the entries. -/
theorem contents_newTable_message {lr : LocalResource} {t : TableInfo} {msg : PofFlowTable} {type : TableType}
    {newAt : ℕ} {ID : UInt8} (hshape : SameShape (newTable msg type ID newAt) t)
    (hmatch : msg.match_.length = maxMatchFieldNum) (ID' : UInt8) (newAt' : ℕ) :
    (newTable (t.message lr) t.type ID' newAt').contents = t.contentsWith 0 := by
  have hname : strncpy (strncpy t.name nameMaxLength) nameMaxLength = t.name := by
    rw [hshape.name_eq, newTable, strncpy_strncpy, strncpy_strncpy]
  have hfields : t.match_.take t.matchFieldNum.toNat ++
      (List.replicate maxMatchFieldNum default).drop t.matchFieldNum.toNat = t.match_ := by
    rw [hshape.match_eq, hshape.matchFieldNum_eq]
    simp only [newTable]
    rcases Nat.le_total msg.matchFieldNum.toNat maxMatchFieldNum with hle | hle
    · rw [List.take_append_of_le_length (by rw [List.length_take]; omega), List.take_take, Nat.min_self]
    · rw [List.drop_eq_nil_of_le (by rw [List.length_replicate]; exact hle), List.append_nil, List.append_nil,
        List.take_take, Nat.min_self]
  simp only [TableInfo.contents, TableInfo.contentsWith, newTable, TableInfo.message, hname, hfields,
    Hmap.nodes_create, List.map_nil, Multiset.coe_nil]

/-- The group that is added from its own report stores the same. -/
theorem contents_groupFill_message (g : GroupInfo) (newAt : ℕ)
    (hlen : g.action.length = maxActionNumberPerGroup) :
    (groupFill g.message (mapGroupCreate newAt)).contents = g.contents := by
  have htake : (g.action.take g.actionNumber.toNat ++ (mapGroupCreate newAt).action.drop g.actionNumber.toNat).take
      g.actionNumber.toNat = g.action.take g.actionNumber.toNat := by
    rcases Nat.le_total g.actionNumber.toNat maxActionNumberPerGroup with hle | hle
    · rw [List.take_append_of_le_length (by rw [List.length_take]; omega), List.take_take, Nat.min_self]
    · have hnil : (mapGroupCreate newAt).action.drop g.actionNumber.toNat = [] :=
        List.drop_eq_nil_of_le hle
      rw [hnil, List.append_nil, List.take_take, Nat.min_self]
  simp only [GroupInfo.contents, groupFill, GroupInfo.message, htake]

/-! ### A slot part of the way -/

/-- The entries that have been sent for a table. -/
def sentTo (ID : UInt8) (es : List (TableInfo × EntryInfo)) : Multiset EntryInfo :=
  (es.filter fun p => p.1.id = ID).map fun p => p.2.content

/-- The slot `lr'` stores the tables, entries, groups and meters of `lr` that have been sent, and has the
counters that have been asked for. -/
structure Rebuilt (lr : LocalResource) (ts : List TableInfo) (es : List (TableInfo × EntryInfo))
    (gs : List GroupInfo) (ms : List MeterInfo) (cs : List UInt32) (lr' : LocalResource) : Prop where
  store : StoreOk lr'
  limits : lr'.limits = lr.limits
  tables : ∀ ID, (poflrGetTableWithID ID lr').map TableInfo.contents =
    (ts.find? fun t => t.id = ID).map fun t => t.contentsWith (sentTo ID es)
  groups : ∀ id, (poflrGetGroupWithID id lr').map GroupInfo.contents =
    (gs.find? fun g => g.id = id).map GroupInfo.contents
  meters : ∀ id, (poflrGetMeterWithID id lr').map MeterInfo.rate = (ms.find? fun m => m.id = id).map MeterInfo.rate
  counters : ∀ c ≠ 0, (poflrGetCounterWithID c lr').isSome ↔ c ∈ cs ∧ c < lr.counterNumMax

/-- A cleared slot is where it begins. -/
theorem rebuilt_nil {lr start : LocalResource} (hstore : StoreOk start) (hcleared : start.Cleared)
    (hlimits : start.limits = lr.limits) : Rebuilt lr [] [] [] [] [] start where
  store := hstore
  limits := hlimits
  tables := by
    intro ID
    rw [poflrGetTableWithID, Hmap.nodeGetWithHash, hcleared.tables]
    rfl
  groups := by
    intro id
    rw [poflrGetGroupWithID, Hmap.nodeGetWithHash, hcleared.groups]
    rfl
  meters := by
    intro id
    rw [poflrGetMeterWithID, Hmap.nodeGetWithHash, hcleared.meters]
    rfl
  counters := by
    intro c _
    rw [poflrGetCounterWithID, Hmap.nodeGetWithHash, hcleared.counters]
    simp

/-- What a lookup finds after the insertion of a node. -/
theorem map_find?_cons {α β κ : Type} [DecidableEq κ] (f : α → β) (key : α → κ) (a : α) (l : List α) (k : κ) :
    ((a :: l).find? fun b => key b = k).map f =
      if key a = k then some (f a) else (l.find? fun b => key b = k).map f := by
  rw [List.find?_cons]
  by_cases h : key a = k
  · simp [h]
  · simp [h]

section Steps

variable {nums : Vector UInt16 4} {lr lr' : LocalResource} {ts : List TableInfo}
  {es : List (TableInfo × EntryInfo)} {gs : List GroupInfo} {ms : List MeterInfo} {cs : List UInt32}

theorem ofUInt8_toNat (type : TableType) : TableType.ofUInt8 (UInt8.ofNat type.toNat) = some type := by
  cases type <;> rfl

/-- A message with a type, an identifier, a size and a key length within the limits creates its table. -/
theorem poflrCreateFlowTable_of_admits {msg : PofFlowTable} {type : TableType} (h : Admits lr msg type)
    (newAt : ℕ) : poflrCreateFlowTable msg newAt lr =
      (.ok (), mapTableInsert (newTable msg type (poflrTableIdToID type msg.tid lr) newAt) lr) := by
  unfold poflrCreateFlowTable
  rw [h.type_eq]
  simp only
  rw [if_neg (UInt16.not_le.2 h.tid_lt), h.absent, if_neg (by simp), if_neg (UInt32.not_lt.2 h.size_le),
    if_neg (UInt16.not_lt.2 h.keyLen_le)]

/-- The identifier of a stored table is allowed and leads to it, in every slot with the limits. -/
theorem tableId_spec (hfit : TablesFit nums) (hrun : CodableRun lr)
    (hnums : lr.tableNumMaxEachType = nums.toList) {t : TableInfo} (ht : t ∈ lr.tableIdMap.nodes)
    (hlimits : lr'.limits = lr.limits) :
    TableAllowed lr' t.type (lr.tableId t) ∧ poflrTableIdToID t.type (lr.tableId t) lr' = t.id := by
  obtain ⟨id, hallowed, hid⟩ := (placed_of_switchRun hrun.switchRun hnums).id_eq t ht
  have hnums' : lr'.tableNumMaxEachType = lr.tableNumMaxEachType :=
    congrArg Limits.tableNumMaxEachType hlimits
  have htid : lr.tableId t = id := by
    rw [LocalResource.tableId, hid, hfit.inverse hnums hallowed]
    rfl
  rw [htid, tableAllowed_congr hnums', poflrTableIdToID_congr hnums']
  exact ⟨hallowed, hid.symm⟩

/-- The counters after one has been asked for. -/
theorem isSome_poflrCounterInit (lr' : LocalResource)
    (h : ∀ c ≠ 0, (poflrGetCounterWithID c lr').isSome ↔ c ∈ cs ∧ c < lr.counterNumMax)
    (hmax : lr'.counterNumMax = lr.counterNumMax) (d : UInt32) (newAt : ℕ) :
    ∀ c ≠ 0, (poflrGetCounterWithID c (poflrCounterInit d newAt lr').2).isSome ↔
      c ∈ d :: cs ∧ c < lr.counterNumMax := by
  intro c hc
  have hrest : c ≠ d → (c ∈ d :: cs ↔ c ∈ cs) := fun hne => by simp [hne]
  unfold poflrCounterInit
  split_ifs with hzero hle
  · rw [h c hc, hrest fun heq => hc (heq.trans hzero)]
  · rw [h c hc]
    refine and_congr_left fun hlt => (hrest fun heq => ?_).symm
    rw [heq, ← hmax] at hlt
    exact UInt32.not_le.2 hlt hle
  · have hlt := UInt32.not_le.1 hle
    rw [hmax] at hlt
    cases hget : poflrGetCounterWithID d lr' with
    | some counter =>
        simp only
        rw [h c hc]
        by_cases heq : c = d
        · have hd : d ∈ cs ∧ d < lr.counterNumMax := (h d (heq ▸ hc)).1 (by rw [hget]; rfl)
          simp [heq, hd]
        · rw [hrest heq]
    | none =>
        have hinsert : poflrGetCounterWithID c (mapCounterInsert ⟨newAt, d, hmapHashForLinear d, 0, 0⟩ lr') =
            if d = c then some ⟨newAt, d, hmapHashForLinear d, 0, 0⟩ else poflrGetCounterWithID c lr' :=
          Hmap.nodeGetWithHash_nodeInsert _ _ _
        simp only [hinsert]
        by_cases heq : c = d
        · simp [heq, hlt]
        · rw [if_neg (Ne.symm heq), hrest heq]
          exact h c hc

/-- **A table that is sent is there.** -/
theorem Rebuilt.table (h : Rebuilt lr ts [] gs ms cs lr') (hfit : TablesFit nums) (hrun : CodableRun lr)
    (hnums : lr.tableNumMaxEachType = nums.toList) {t : TableInfo} (ht : t ∈ lr.tableIdMap.nodes)
    (hnew : ∀ u ∈ ts, u.id ≠ t.id) {newAt : ℕ}
    (hfresh : (LrOp.createFlowTable (t.message lr) newAt).Fresh lr') :
    ∃ ret lr₁, (LrOp.createFlowTable (t.message lr) newAt).exec lr' = some (ret, lr₁) ∧
      Rebuilt lr (t :: ts) [] gs ms cs lr₁ := by
  obtain ⟨msg, type, at₀, ID, hshape, hmatch, hsize, hkey⟩ := (restorable_of_run hrun).tables t ht
  obtain ⟨hallowed, hID⟩ := tableId_spec hfit hrun hnums ht h.limits
  have habsent : poflrGetTableWithID t.id lr' = none := by
    have hget := h.tables t.id
    have hfind : (ts.find? fun u => u.id = t.id) = none :=
      List.find?_eq_none.2 fun u hu hut => hnew u hu (of_decide_eq_true hut)
    rw [hfind] at hget
    exact Option.map_eq_none_iff.1 hget
  have hadmits : Admits lr' (t.message lr) t.type := by
    refine ⟨ofUInt8_toNat t.type, hallowed, ?_, ?_, ?_⟩
    · exact (congrArg (poflrGetTableWithID · lr') hID).trans habsent
    · have hmax : lr'.tableSizeMax = lr.tableSizeMax := congrArg Limits.tableSizeMax h.limits
      have heq : t.size = msg.size := hshape.size_eq
      change t.size ≤ _
      rw [hmax, heq]
      exact hsize
    · have hmax : lr'.keyLenEachType = lr.keyLenEachType := congrArg Limits.keyLenEachType h.limits
      have htype : t.type = type := hshape.type_eq
      have heq : t.keyLen = msg.keyLen := hshape.keyLen_eq
      change t.keyLen ≤ _
      rw [hmax, htype, heq]
      exact hkey
  set table := newTable (t.message lr) t.type (poflrTableIdToID t.type (t.message lr).tid lr') newAt with htable
  have hexec : (LrOp.createFlowTable (t.message lr) newAt).exec lr' =
      some (.ok (), mapTableInsert table lr') :=
    congrArg some (poflrCreateFlowTable_of_admits hadmits newAt)
  refine ⟨_, _, hexec, h.store.step hfresh hexec, (LrOp.tables_cases hexec hfresh).2.trans h.limits, fun ID' => ?_,
    h.groups, h.meters, h.counters⟩
  have hget : poflrGetTableWithID ID' (mapTableInsert table lr') =
      if t.id.toUInt32 = ID'.toUInt32 then some table else poflrGetTableWithID ID' lr' := by
    rw [← hID]
    exact Hmap.nodeGetWithHash_nodeInsert _ _ _
  have hcontents : table.contents = t.contentsWith 0 := contents_newTable_message hshape hmatch _ newAt
  rw [hget, map_find?_cons, ← h.tables ID']
  by_cases heq : t.id = ID'
  · rw [if_pos (congrArg _ heq), if_pos heq, Option.map_some, hcontents]
    rfl
  · rw [if_neg fun hh => heq (UInt8.toUInt32_inj.1 hh), if_neg heq]

/-- Filling in an entry depends on the type and the key length of the table. -/
theorem entryFill_congr {t t' : TableInfo} (htype : t'.type = t.type) (hkey : t'.keyLen = t.keyLen)
    (flow : PofFlowEntry) (newAt : ℕ) : entryFill flow newAt t' = entryFill flow newAt t := by
  simp only [entryFill, htype, hkey]

/-- A lookup after a table has been written back. -/
theorem StoreOk.getTable_setTable (h : StoreOk lr') {t t' : TableInfo} {ID : UInt8}
    (hget : poflrGetTableWithID ID lr' = some t) (hshape : SameShape t t') (ID' : UInt8) :
    poflrGetTableWithID ID' (lr'.setTable t') = if ID = ID' then some t' else poflrGetTableWithID ID' lr' := by
  obtain ⟨hmem, hhash⟩ := Hmap.nodeGetWithHash_eq_some hget
  have haddr : t'.addr = t.addr := hshape.addr_eq
  have hmodify : (lr'.tableIdMap.modify t'.addr fun _ => t').nodeGetWithHash (hmapHashForLinear ID'.toUInt32) =
      (lr'.tableIdMap.nodeGetWithHash (hmapHashForLinear ID'.toUInt32)).map
        fun u => if addr u = t'.addr then t' else u := by
    refine Hmap.nodeGetWithHash_modify fun u hu hua => ?_
    rw [List.inj_on_of_nodup_map h.tables.wf.nodup hu hmem (hua.trans haddr)]
    exact hshape.hash_eq
  have hset : poflrGetTableWithID ID' (lr'.setTable t') =
      (poflrGetTableWithID ID' lr').map fun u => if addr u = t'.addr then t' else u := hmodify
  rw [hset]
  by_cases heq : ID = ID'
  · have hself : addr t = t'.addr := haddr.symm
    rw [← heq, hget, Option.map_some, if_pos hself, if_pos rfl]
  · rw [if_neg heq]
    cases hget' : poflrGetTableWithID ID' lr' with
    | none => rfl
    | some u =>
        obtain ⟨hu, huhash⟩ := Hmap.nodeGetWithHash_eq_some hget'
        have hne : ¬ addr u = t'.addr := by
          intro hua
          rw [List.inj_on_of_nodup_map h.tables.wf.nodup hu hmem (hua.trans haddr), hhash] at huhash
          exact heq (hash_toUInt32_injective huhash)
        rw [Option.map_some, if_neg hne]

/-- A table with one more entry. -/
theorem contents_entryLink (e : EntryInfo) (t : TableInfo) :
    (entryLink e t).contents = { t.contents with entries := e.content ::ₘ t.contents.entries } := by
  have hshape := sameShape_entryLink e t
  simp only [TableInfo.contents, TableInfo.contentsWith, hshape.type_eq, hshape.name_eq, hshape.size_eq,
    hshape.keyLen_eq, hshape.matchFieldNum_eq, hshape.match_eq, nodes_entryLink, List.map_cons,
    Multiset.cons_coe]

/-- **An entry that is sent is in its table**, even when its counter is not allowed. -/
theorem Rebuilt.entry (h : Rebuilt lr ts es gs ms cs lr') (hfit : TablesFit nums) (hrun : CodableRun lr)
    (hnums : lr.tableNumMaxEachType = nums.toList) {t : TableInfo} (ht : t ∈ lr.tableIdMap.nodes)
    (hsent : (ts.find? fun u => u.id = t.id) = some t) {e : EntryInfo} (he : e ∈ t.entryMap.nodes)
    {newAt counterAt : ℕ}
    (hfresh : (LrOp.addFlowEntry (e.message (lr.tableId t) (UInt8.ofNat t.type.toNat)) newAt counterAt).Fresh lr') :
    ∃ ret lr₁, (LrOp.addFlowEntry (e.message (lr.tableId t) (UInt8.ofNat t.type.toNat)) newAt counterAt).exec lr' =
        some (ret, lr₁) ∧ Rebuilt lr ts ((t, e) :: es) gs ms (e.counterId :: cs) lr₁ := by
  obtain ⟨hallowed, hID⟩ := tableId_spec hfit hrun hnums ht h.limits
  set flow := e.message (lr.tableId t) (UInt8.ofNat t.type.toNat) with hflow
  have hcontents := h.tables t.id
  rw [hsent, Option.map_some] at hcontents
  obtain ⟨t', hget, ht'⟩ := Option.map_eq_some_iff.1 hcontents
  have htype : t'.type = t.type := congrArg TableContents.type ht'
  have hsize : t'.size = t.size := congrArg TableContents.size ht'
  have hkey : t'.keyLen = t.keyLen := congrArg TableContents.keyLen ht'
  have htable : flowModTable flow lr' = .ok t' := by
    have hindex := index_lt_of_switchRun hrun.switchRun t ht e he
    simp only [flowModTable]
    rw [show flow.tableType = UInt8.ofNat t.type.toNat from rfl, ofUInt8_toNat]
    simp only
    rw [show flow.tableId = lr.tableId t from rfl, if_neg (UInt16.not_le.2 hallowed), hID, hget]
    simp only
    rw [show flow.index = e.index from rfl, hsize, if_neg (UInt32.not_le.2 hindex)]
  have hfill : entryFill flow newAt t' = some (.ok (), { e with addr := newAt }) := by
    rw [entryFill_congr htype hkey]
    exact ((reportable_of_run hrun).entries t ht e he).filled _ _ newAt
  set e' : EntryInfo := { e with addr := newAt } with he'
  obtain ⟨ret, lr₁, hinit⟩ : ∃ ret lr₁,
      poflrCounterInit e.counterId counterAt (lr'.setTable (entryLink e' t')) = (ret, lr₁) := ⟨_, _, rfl⟩
  have hexec : (LrOp.addFlowEntry flow newAt counterAt).exec lr' = some (ret, lr₁) := by
    have hinsert : entryInsert flow newAt t' = some (.ok (), entryLink e' t') := by simp [entryInsert, hfill]
    simp only [LrOp.exec, poflrAddFlowEntry, htable, hinsert]
    exact congrArg some hinit
  have hshape := sameShape_entryLink e' t'
  have hframe : ∀ {β : Type} (part : LocalResource → β),
      (∀ (lr : LocalResource) m n, part { lr with counterMap := m, counterNum := n } = part lr) →
      part lr₁ = part (lr'.setTable (entryLink e' t')) := by
    intro β part hpart
    have hpart' := poflrCounterInit_frame part (lr'.setTable (entryLink e' t')) hpart e.counterId counterAt
    rwa [hinit] at hpart'
  refine ⟨ret, lr₁, hexec, h.store.step hfresh hexec, (LrOp.tables_cases hexec hfresh).2.trans h.limits,
    fun ID => ?_, fun id => ?_, fun id => ?_, ?_⟩
  · have hlookup : poflrGetTableWithID ID lr₁ =
        if t.id = ID then some (entryLink e' t') else poflrGetTableWithID ID lr' := by
      rw [poflrGetTableWithID, hframe LocalResource.tableIdMap fun _ _ _ => rfl]
      exact h.store.getTable_setTable hget hshape ID
    rw [hlookup]
    by_cases heq : t.id = ID
    · rw [if_pos heq, ← heq, hsent, Option.map_some, Option.map_some, contents_entryLink, ht']
      simp [TableInfo.contentsWith, sentTo, he', EntryInfo.content]
    · rw [if_neg heq, h.tables ID]
      simp [sentTo, heq]
  · rw [poflrGetGroupWithID, hframe LocalResource.groupMap fun _ _ _ => rfl]
    exact h.groups id
  · rw [poflrGetMeterWithID, hframe LocalResource.meterMap fun _ _ _ => rfl]
    exact h.meters id
  · have hcounters := isSome_poflrCounterInit (lr'.setTable (entryLink e' t')) h.counters
      (congrArg Limits.counterNumMax h.limits) e.counterId counterAt
    rwa [hinit] at hcounters

/-- **A group that is sent is there**, and its counter. -/
theorem Rebuilt.group (h : Rebuilt lr ts es gs ms cs lr') (hrun : CodableRun lr) {g : GroupInfo}
    (hg : g ∈ lr.groupMap.nodes) (hnew : ∀ u ∈ gs, u.id ≠ g.id) {newAt counterAt : ℕ}
    (hfresh : (LrOp.addGroupEntry g.message newAt counterAt).Fresh lr') :
    ∃ ret lr₁, (LrOp.addGroupEntry g.message newAt counterAt).exec lr' = some (ret, lr₁) ∧
      Rebuilt lr ts es (g :: gs) ms (g.counterId :: cs) lr₁ := by
  have hrestorable := restorable_of_run hrun
  have hlen := ((reportable_of_run hrun).groups g hg).length_action
  have hid : ¬ g.message.groupId ≥ lr'.groupNumMax := by
    have hlt := (storeOk_of_switchRun hrun.switchRun).groups.hash_lt g hg
    have hmax : lr'.groupNumMax = lr.groupNumMax := congrArg Limits.groupNumMax h.limits
    have hhash : HmapNode.hash g = g.id := hrestorable.group_hash g hg
    rw [hhash] at hlt
    rw [hmax]
    exact UInt32.not_le.2 (UInt32.lt_iff_toNat_lt.2 hlt)
  have habsent : poflrGetGroupWithID g.message.groupId lr' = none := by
    have hget := h.groups g.id
    have hfind : (gs.find? fun u => u.id = g.id) = none :=
      List.find?_eq_none.2 fun u hu hug => hnew u hu (of_decide_eq_true hug)
    rw [hfind] at hget
    exact Option.map_eq_none_iff.1 hget
  have hmax : lr'.counterNumMax = lr.counterNumMax := congrArg Limits.counterNumMax h.limits
  have hok : CounterIdOk g.counterId lr' := by
    have hok := hrestorable.group_counter g hg
    rwa [CounterIdOk, ← hmax] at hok
  have hfst := (poflrCounterInit_fst g.message.counterId counterAt lr').2 hok
  obtain ⟨ret, lr₁, hinit⟩ : ∃ ret lr₁, poflrCounterInit g.message.counterId counterAt lr' = (ret, lr₁) :=
    ⟨_, _, rfl⟩
  obtain rfl : ret = .ok () := by
    rw [hinit] at hfst
    exact hfst
  have hframe : ∀ {β : Type} (part : LocalResource → β),
      (∀ (lr : LocalResource) m n, part { lr with counterMap := m, counterNum := n } = part lr) →
      part lr₁ = part lr' := by
    intro β part hpart
    have hpart' := poflrCounterInit_frame part lr' hpart g.message.counterId counterAt
    rwa [hinit] at hpart'
  set group := groupFill g.message (mapGroupCreate newAt) with hgroup
  have hexec : (LrOp.addGroupEntry g.message newAt counterAt).exec lr' =
      some (.ok (), mapGroupInsert group lr₁) := by
    simp only [LrOp.exec, poflrAddGroupEntry]
    rw [if_neg hid, habsent, if_neg (by simp), hinit]
  refine ⟨_, _, hexec, h.store.step hfresh hexec, (LrOp.tables_cases hexec hfresh).2.trans h.limits,
    fun ID => ?_, fun id => ?_, fun id => ?_, ?_⟩
  · change (poflrGetTableWithID ID lr₁).map _ = _
    rw [poflrGetTableWithID, hframe LocalResource.tableIdMap fun _ _ _ => rfl]
    exact h.tables ID
  · have hget : poflrGetGroupWithID id (mapGroupInsert group lr₁) =
        if g.id = id then some group else poflrGetGroupWithID id lr₁ :=
      Hmap.nodeGetWithHash_nodeInsert _ _ _
    have hold : poflrGetGroupWithID id lr₁ = poflrGetGroupWithID id lr' := by
      rw [poflrGetGroupWithID, hframe LocalResource.groupMap fun _ _ _ => rfl]
      rfl
    rw [hget, hold, map_find?_cons, ← h.groups id]
    by_cases heq : g.id = id
    · rw [if_pos heq, if_pos heq, Option.map_some, contents_groupFill_message g newAt hlen]
    · rw [if_neg heq, if_neg heq]
  · change (poflrGetMeterWithID id lr₁).map _ = _
    rw [poflrGetMeterWithID, hframe LocalResource.meterMap fun _ _ _ => rfl]
    exact h.meters id
  · have hcounters := isSome_poflrCounterInit lr' h.counters hmax g.message.counterId counterAt
    rwa [hinit] at hcounters

/-- A meter that is sent is there. -/
theorem Rebuilt.meter (h : Rebuilt lr ts es gs ms cs lr') (hrun : CodableRun lr) {m : MeterInfo}
    (hm : m ∈ lr.meterMap.nodes) (hnew : ∀ u ∈ ms, u.id ≠ m.id) {newAt : ℕ}
    (hfresh : (LrOp.addMeterEntry m.id m.rate newAt).Fresh lr') :
    ∃ ret lr₁, (LrOp.addMeterEntry m.id m.rate newAt).exec lr' = some (ret, lr₁) ∧
      Rebuilt lr ts es gs (m :: ms) cs lr₁ := by
  have hid : ¬ m.id ≥ lr'.meterNumMax := by
    have hlt := (storeOk_of_switchRun hrun.switchRun).meters.hash_lt m hm
    have hmax : lr'.meterNumMax = lr.meterNumMax := congrArg Limits.meterNumMax h.limits
    have hhash : HmapNode.hash m = m.id := (restorable_of_run hrun).meter_hash m hm
    rw [hhash] at hlt
    rw [hmax]
    exact UInt32.not_le.2 (UInt32.lt_iff_toNat_lt.2 hlt)
  have habsent : poflrGetMeterWithID m.id lr' = none := by
    have hget := h.meters m.id
    have hfind : (ms.find? fun u => u.id = m.id) = none :=
      List.find?_eq_none.2 fun u hu hum => hnew u hu (of_decide_eq_true hum)
    rw [hfind] at hget
    exact Option.map_eq_none_iff.1 hget
  set meter : MeterInfo := ⟨newAt, m.rate, m.id, hmapHashForLinear m.id⟩ with hmeter
  have hexec : (LrOp.addMeterEntry m.id m.rate newAt).exec lr' = some (.ok (), mapMeterInsert meter lr') := by
    simp only [LrOp.exec, poflrAddMeterEntry]
    rw [if_neg hid, habsent, if_neg (by simp)]
  refine ⟨_, _, hexec, h.store.step hfresh hexec, (LrOp.tables_cases hexec hfresh).2.trans h.limits,
    h.tables, h.groups, fun id => ?_, h.counters⟩
  have hget : poflrGetMeterWithID id (mapMeterInsert meter lr') =
      if m.id = id then some meter else poflrGetMeterWithID id lr' :=
    Hmap.nodeGetWithHash_nodeInsert _ _ _
  rw [hget, map_find?_cons, ← h.meters id]
  by_cases heq : m.id = id
  · rw [if_pos heq, if_pos heq]
    rfl
  · rw [if_neg heq, if_neg heq]

/-- A counter that is sent is there. -/
theorem Rebuilt.counter (h : Rebuilt lr ts es gs ms cs lr') (c : UInt32) {newAt : ℕ}
    (hfresh : (LrOp.counterInit c newAt).Fresh lr') :
    ∃ ret lr₁, (LrOp.counterInit c newAt).exec lr' = some (ret, lr₁) ∧
      Rebuilt lr ts es gs ms (c :: cs) lr₁ := by
  obtain ⟨ret, lr₁, hinit⟩ : ∃ ret lr₁, poflrCounterInit c newAt lr' = (ret, lr₁) := ⟨_, _, rfl⟩
  have hexec : (LrOp.counterInit c newAt).exec lr' = some (ret, lr₁) := congrArg some hinit
  have hframe : ∀ {β : Type} (part : LocalResource → β),
      (∀ (lr : LocalResource) m n, part { lr with counterMap := m, counterNum := n } = part lr) →
      part lr₁ = part lr' := by
    intro β part hpart
    have hpart' := poflrCounterInit_frame part lr' hpart c newAt
    rwa [hinit] at hpart'
  refine ⟨ret, lr₁, hexec, h.store.step hfresh hexec, (LrOp.tables_cases hexec hfresh).2.trans h.limits,
    fun ID => ?_, fun id => ?_, fun id => ?_, ?_⟩
  · rw [poflrGetTableWithID, hframe LocalResource.tableIdMap fun _ _ _ => rfl]
    exact h.tables ID
  · rw [poflrGetGroupWithID, hframe LocalResource.groupMap fun _ _ _ => rfl]
    exact h.groups id
  · rw [poflrGetMeterWithID, hframe LocalResource.meterMap fun _ _ _ => rfl]
    exact h.meters id
  · have hcounters := isSome_poflrCounterInit lr' h.counters (congrArg Limits.counterNumMax h.limits) c newAt
    rwa [hinit] at hcounters

end Steps

/-! ### The loops -/

/-- The objects that have been sent have other identifiers than the next one. -/
theorem key_ne_of_split {α β : Type} {key : α → β} {l done rest : List α} {a : α} (hnodup : (l.map key).Nodup)
    (hl : l = done.reverse ++ a :: rest) : ∀ u ∈ done, key u ≠ key a := by
  intro u hu heq
  rw [hl, List.map_append, List.map_cons, List.nodup_append] at hnodup
  refine hnodup.2.2 (key u) ?_ (key a) List.mem_cons_self heq
  exact List.mem_map_of_mem (List.mem_reverse.2 hu)

theorem mem_of_split {α : Type} {l done rest : List α} {a : α} (hl : l = done.reverse ++ a :: rest) : a ∈ l := by
  rw [hl]
  exact List.mem_append_right _ List.mem_cons_self

/-- Where every node is stored under the hash of its identifier, a traversal meets no identifier twice. -/
theorem Hmap.Keyed.nodup_id {α : Type} [HmapNode α] {m : Hmap α} {bound : ℕ} (h : m.Keyed bound) {κ : Type}
    {id : α → κ} {hashOf : κ → UInt32} (hhash : ∀ a ∈ m.nodes, HmapNode.hash a = hashOf (id a)) :
    (m.order.map id).Nodup := by
  have hmap : (m.order.map id).map hashOf = m.order.map HmapNode.hash := by
    rw [List.map_map]
    exact List.map_congr_left fun a ha => (hhash a (m.mem_order.1 ha)).symm
  refine List.Nodup.of_map hashOf ?_
  rw [hmap]
  exact ((m.order_perm.map HmapNode.hash).nodup_iff).2 h.nodup_hash

/-- The entries of the tables of a slot, with their tables. -/
def LocalResource.allEntries (lr : LocalResource) : List (TableInfo × EntryInfo) :=
  lr.tableIdMap.order.flatMap fun t => t.entryMap.order.map fun e => (t, e)

theorem mem_allEntries {lr : LocalResource} {p : TableInfo × EntryInfo} :
    p ∈ lr.allEntries ↔ p.1 ∈ lr.tableIdMap.nodes ∧ p.2 ∈ p.1.entryMap.nodes := by
  simp only [LocalResource.allEntries, List.mem_flatMap, List.mem_map, Hmap.mem_order]
  constructor
  · rintro ⟨t, ht, e, he, rfl⟩
    exact ⟨ht, he⟩
  · rintro ⟨ht, he⟩
    exact ⟨p.1, ht, p.2, he, rfl⟩

section Loops

variable {nums : Vector UInt16 4} {lr start : LocalResource} {ts : List TableInfo}
  {es : List (TableInfo × EntryInfo)} {gs : List GroupInfo} {ms : List MeterInfo} {cs : List UInt32}

/-- A search among the tables of a slot, in any order. -/
theorem find?_tables (hstore : StoreOk lr) {l : List TableInfo} (hl : l.Perm lr.tableIdMap.nodes) (ID : UInt8) :
    (l.find? fun t => t.id = ID) = poflrGetTableWithID ID lr :=
  hstore.tables.find?_id hash_toUInt32_injective hstore.table_hash hl ID

theorem leads_tables (hfit : TablesFit nums) (hrun : CodableRun lr)
    (hnums : lr.tableNumMaxEachType = nums.toList) (h : Rebuilt lr [] [] gs ms cs start) :
    ReplayLeads (Rebuilt lr lr.tableIdMap.order.reverse [] gs ms cs)
      (lr.tableIdMap.order.map fun t => .table (t.message lr)) start := by
  have hstore := storeOk_of_switchRun hrun.switchRun
  have hnodup : (lr.tableIdMap.order.map TableInfo.id).Nodup := hstore.tables.nodup_id hstore.table_hash
  refine ReplayLeads.map (fun ts => Rebuilt lr ts [] gs ms cs) ?_ h
  intro done t rest hl lr' hinv newAt counterAt hfresh
  exact hinv.table hfit hrun hnums (lr.tableIdMap.mem_order.1 (mem_of_split hl)) (key_ne_of_split hnodup hl) hfresh

theorem leads_entries (hfit : TablesFit nums) (hrun : CodableRun lr)
    (hnums : lr.tableNumMaxEachType = nums.toList)
    (h : Rebuilt lr lr.tableIdMap.order.reverse [] gs ms cs start) :
    ReplayLeads (Rebuilt lr lr.tableIdMap.order.reverse lr.allEntries.reverse gs ms
        (lr.allEntries.reverse.map (fun p => p.2.counterId) ++ cs))
      (lr.allEntries.map fun p => .entry (p.2.message (lr.tableId p.1) (UInt8.ofNat p.1.type.toNat))) start := by
  have hstore := storeOk_of_switchRun hrun.switchRun
  refine ReplayLeads.map (fun es => Rebuilt lr lr.tableIdMap.order.reverse es gs ms
    (es.map (fun p => p.2.counterId) ++ cs)) ?_ h
  intro done p rest hl lr' hinv newAt counterAt hfresh
  obtain ⟨ht, he⟩ := mem_allEntries.1 (mem_of_split hl)
  have hsent : (lr.tableIdMap.order.reverse.find? fun u => u.id = p.1.id) = some p.1 := by
    rw [find?_tables hstore ((List.reverse_perm _).trans lr.tableIdMap.order_perm)]
    exact (congrArg lr.tableIdMap.nodeGetWithHash (hstore.table_hash p.1 ht).symm).trans
      (hstore.tables.nodeGetWithHash ht)
  exact hinv.entry hfit hrun hnums ht hsent he hfresh

theorem leads_groups (hrun : CodableRun lr) (h : Rebuilt lr ts es [] ms cs start) :
    ReplayLeads (Rebuilt lr ts es lr.groupMap.order.reverse ms
        (lr.groupMap.order.reverse.map GroupInfo.counterId ++ cs))
      (lr.groupMap.order.map fun g => .group g.message) start := by
  have hstore := storeOk_of_switchRun hrun.switchRun
  have hnodup : (lr.groupMap.order.map GroupInfo.id).Nodup :=
    hstore.groups.nodup_id (restorable_of_run hrun).group_hash
  refine ReplayLeads.map (fun gs => Rebuilt lr ts es gs ms (gs.map GroupInfo.counterId ++ cs)) ?_ h
  intro done g rest hl lr' hinv newAt counterAt hfresh
  exact hinv.group hrun (lr.groupMap.mem_order.1 (mem_of_split hl)) (key_ne_of_split hnodup hl) hfresh

theorem leads_meters (hrun : CodableRun lr) (h : Rebuilt lr ts es gs [] cs start) :
    ReplayLeads (Rebuilt lr ts es gs lr.meterMap.order.reverse cs)
      (lr.meterMap.order.map fun m => .meter m.id m.rate) start := by
  have hstore := storeOk_of_switchRun hrun.switchRun
  have hnodup : (lr.meterMap.order.map MeterInfo.id).Nodup :=
    hstore.meters.nodup_id (restorable_of_run hrun).meter_hash
  refine ReplayLeads.map (fun ms => Rebuilt lr ts es gs ms cs) ?_ h
  intro done m rest hl lr' hinv newAt counterAt hfresh
  exact hinv.meter hrun (lr.meterMap.mem_order.1 (mem_of_split hl)) (key_ne_of_split hnodup hl) hfresh

theorem leads_counters (h : Rebuilt lr ts es gs ms cs start) :
    ReplayLeads (Rebuilt lr ts es gs ms (lr.counterMap.order.reverse.map CounterInfo.id ++ cs))
      (lr.counterMap.order.map fun c => .counter c.id c.value c.byteValue) start := by
  refine ReplayLeads.map (fun done => Rebuilt lr ts es gs ms (done.map CounterInfo.id ++ cs)) ?_ h
  intro done c rest _ lr' hinv newAt counterAt hfresh
  exact hinv.counter c.id hfresh

end Loops

/-! ### The slot in the end -/

section Sent

variable {ID : UInt8}

theorem sentTo_append (es es' : List (TableInfo × EntryInfo)) :
    sentTo ID (es ++ es') = sentTo ID es + sentTo ID es' := by
  rw [sentTo, List.filter_append, List.map_append]
  rfl

theorem sentTo_eq_zero {es : List (TableInfo × EntryInfo)} (h : ∀ p ∈ es, p.1.id ≠ ID) : sentTo ID es = 0 := by
  have hnil : es.filter (fun p => p.1.id = ID) = [] :=
    List.filter_eq_nil_iff.2 fun p hp hid => h p hp (of_decide_eq_true hid)
  rw [sentTo, hnil]
  rfl

theorem sentTo_reverse (es : List (TableInfo × EntryInfo)) : sentTo ID es.reverse = sentTo ID es := by
  rw [sentTo, List.filter_reverse, List.map_reverse, Multiset.coe_reverse]
  rfl

/-- The entries of a table, among those of tables with other identifiers. -/
theorem sentTo_flatMap {ts : List TableInfo} (hnodup : (ts.map TableInfo.id).Nodup) {t : TableInfo} (ht : t ∈ ts) :
    sentTo t.id (ts.flatMap fun u => u.entryMap.order.map fun e => (u, e)) =
      (t.entryMap.order.map EntryInfo.content : Multiset EntryInfo) := by
  have hown : ∀ (u : TableInfo) (l : List EntryInfo),
      sentTo u.id (l.map fun e => (u, e)) = (l.map EntryInfo.content : Multiset EntryInfo) := by
    intro u l
    have hall : (l.map fun e => (u, e)).filter (fun p => p.1.id = u.id) = l.map fun e => (u, e) := by
      refine List.filter_eq_self.2 fun p hp => ?_
      obtain ⟨e, _, rfl⟩ := List.mem_map.1 hp
      exact decide_eq_true rfl
    rw [sentTo, hall, List.map_map]
    rfl
  induction ts with
  | nil => simp at ht
  | cons u us ih =>
      rw [List.map_cons, List.nodup_cons] at hnodup
      rw [List.flatMap_cons, sentTo_append]
      rcases List.mem_cons.1 ht with rfl | hmem
      · have hrest : sentTo t.id (us.flatMap fun u => u.entryMap.order.map fun e => (u, e)) = 0 := by
          refine sentTo_eq_zero fun p hp hid => hnodup.1 ?_
          obtain ⟨v, hv, hp⟩ := List.mem_flatMap.1 hp
          obtain ⟨e, _, rfl⟩ := List.mem_map.1 hp
          rw [← hid]
          exact List.mem_map_of_mem hv
        rw [hown, hrest, add_zero]
      · have hfirst : sentTo t.id (u.entryMap.order.map fun e => (u, e)) = 0 := by
          refine sentTo_eq_zero fun p hp hid => hnodup.1 ?_
          obtain ⟨e, _, rfl⟩ := List.mem_map.1 hp
          have hid : u.id = t.id := hid
          rw [hid]
          exact List.mem_map_of_mem hmem
        rw [hfirst, zero_add, ih hnodup.2 hmem]

end Sent

/-- **When everything has been sent, the slot stores the same.** -/
theorem Rebuilt.restores {lr lr' : LocalResource} (hrun : CodableRun lr)
    (h : Rebuilt lr lr.tableIdMap.order.reverse lr.allEntries.reverse lr.groupMap.order.reverse
      lr.meterMap.order.reverse (lr.counterMap.order.reverse.map CounterInfo.id ++
        (lr.groupMap.order.reverse.map GroupInfo.counterId ++
          (lr.allEntries.reverse.map (fun p => p.2.counterId) ++ []))) lr') : Restores lr lr' := by
  have hstore := storeOk_of_switchRun hrun.switchRun
  have hrestorable := restorable_of_run hrun
  constructor
  case tables =>
    intro ID
    rw [h.tables ID, find?_tables hstore ((List.reverse_perm _).trans lr.tableIdMap.order_perm)]
    cases hget : poflrGetTableWithID ID lr with
    | none => rfl
    | some t =>
        obtain ⟨ht, hhash⟩ := Hmap.nodeGetWithHash_eq_some hget
        have hID : t.id = ID := hash_toUInt32_injective ((hstore.table_hash t ht).symm.trans hhash)
        have hnodup : (lr.tableIdMap.order.map TableInfo.id).Nodup := hstore.tables.nodup_id hstore.table_hash
        have hperm : (t.entryMap.order.map EntryInfo.content : Multiset EntryInfo) =
            t.entryMap.nodes.map EntryInfo.content :=
          Multiset.coe_eq_coe.2 (t.entryMap.order_perm.map _)
        rw [Option.map_some, Option.map_some, ← hID, sentTo_reverse, LocalResource.allEntries,
          sentTo_flatMap hnodup (lr.tableIdMap.mem_order.2 ht), hperm]
        rfl
  case groups =>
    intro id
    rw [h.groups id]
    exact congrArg _ (hstore.groups.find?_id hmapHashForLinear_injective hrestorable.group_hash
      ((List.reverse_perm _).trans lr.groupMap.order_perm) id)
  case meters =>
    intro id
    rw [h.meters id]
    exact congrArg _ (hstore.meters.find?_id hmapHashForLinear_injective hrestorable.meter_hash
      ((List.reverse_perm _).trans lr.meterMap.order_perm) id)
  case counters =>
    intro c hc
    have hpresent : (poflrGetCounterWithID c lr).isSome ↔ ∃ k ∈ lr.counterMap.nodes, k.id = c := by
      constructor
      · intro hsome
        obtain ⟨k, hk⟩ := Option.isSome_iff_exists.1 hsome
        exact ⟨k, hstore.counter_of_get hk⟩
      · rintro ⟨k, hk, rfl⟩
        have hget : poflrGetCounterWithID k.id lr = some k :=
          (congrArg lr.counterMap.nodeGetWithHash (hstore.counter_hash k hk).symm).trans
            (hstore.counters.nodeGetWithHash hk)
        rw [hget]
        rfl
    have hlt : ∀ k ∈ lr.counterMap.nodes, k.id < lr.counterNumMax := by
      intro k hk
      have hhash : HmapNode.hash k = k.id := hstore.counter_hash k hk
      have hlt := hstore.counters.hash_lt k hk
      rw [hhash] at hlt
      exact UInt32.lt_iff_toNat_lt.2 hlt
    have hnames : lr.Names c ↔ (∃ p ∈ lr.allEntries, p.2.counterId = c) ∨
        ∃ g ∈ lr.groupMap.nodes, g.counterId = c := by
      simp only [LocalResource.Names, mem_allEntries, Prod.exists]
      refine or_congr_left ⟨?_, ?_⟩
      · rintro ⟨t, ht, e, he, hec⟩
        exact ⟨t, e, ⟨ht, he⟩, hec⟩
      · rintro ⟨t, e, ⟨ht, he⟩, hec⟩
        exact ⟨t, ht, e, he, hec⟩
    rw [h.counters c hc, hpresent, hnames]
    simp only [List.mem_append, List.mem_map, List.mem_reverse, Hmap.mem_order, List.not_mem_nil, or_false]
    constructor
    · rintro ⟨hk | hg | hp, hmax⟩
      · exact Or.inl hk
      · exact Or.inr ⟨hmax, Or.inr hg⟩
      · exact Or.inr ⟨hmax, Or.inl hp⟩
    · rintro (⟨k, hk, rfl⟩ | ⟨hmax, hp | hg⟩)
      · exact ⟨Or.inl ⟨k, hk, rfl⟩, hlt k hk⟩
      · exact ⟨Or.inr (Or.inr hp), hmax⟩
      · exact ⟨Or.inr (Or.inl hg), hmax⟩

/-- The reports about a slot, as a controller reads them in the answer to a query. -/
def queriedReports (lr : LocalResource) (env : QueryEnv) : List Report :=
  ((poflrReplyQueryall lr env []).2.filterMap decodeReport).map Prod.snd

/-- The reports are read back as they were made. -/
theorem queriedReports_eq {nums : Vector UInt16 4} {lr : LocalResource} {env : QueryEnv} (hfit : TablesFit nums)
    (hrun : CodableRun lr) (hnums : lr.tableNumMaxEachType = nums.toList) (hsends : env.state.sends = true) :
    queriedReports lr env = lr.reports.map Prod.snd := by
  obtain ⟨msgs, hcall, hdecode, _⟩ := poflrReplyQueryall_says hfit hrun hnums hsends []
  have hread : msgs.filterMap decodeReport = lr.reports := by
    have hid : msgs.filterMap decodeReport = (msgs.map decodeReport).filterMap id := by
      rw [List.filterMap_map]
      rfl
    rw [hid, hdecode, List.filterMap_map]
    exact List.filterMap_some
  rw [queriedReports, hcall, List.nil_append, hread]

/-- **A slot can be restored from what it reports**: with at most 256 tables, when the messages in which a
slot is reported are decoded, and each is sent as a request to a cleared slot with the same limits, every
request returns, and whatever addresses `malloc` returns, the slot stores the same in the end. -/
theorem queryall_restores {nums : Vector UInt16 4} (htotal : (nums.toList.map UInt16.toNat).sum ≤ 256)
    {lr : LocalResource} (hrun : CodableRun lr) (hnums : lr.tableNumMaxEachType = nums.toList) {env : QueryEnv}
    (hsends : env.state.sends = true) {start : LocalResource} (hstart : SwitchRun start)
    (hcleared : start.Cleared) (hlimits : start.limits = lr.limits) :
    ReplayLeads (Restores lr) (queriedReports lr env) start := by
  have hfit := tablesFit_of_sum_le htotal
  have hflat : (lr.tableIdMap.order.flatMap fun t => t.entryMap.order.map fun e =>
      Report.entry (e.message (lr.tableId t) (UInt8.ofNat t.type.toNat))) =
      lr.allEntries.map fun p => .entry (p.2.message (lr.tableId p.1) (UInt8.ofNat p.1.type.toNat)) := by
    rw [LocalResource.allEntries, List.map_flatMap]
    simp only [List.map_map, Function.comp_def]
  have hreports : queriedReports lr env = lr.tableIdMap.order.map (fun t => .table (t.message lr)) ++
      lr.allEntries.map (fun p => .entry (p.2.message (lr.tableId p.1) (UInt8.ofNat p.1.type.toNat))) ++
      lr.groupMap.order.map (fun g => .group g.message) ++ lr.meterMap.order.map (fun m => .meter m.id m.rate) ++
      lr.counterMap.order.map (fun c => .counter c.id c.value c.byteValue) := by
    rw [queriedReports_eq hfit hrun hnums hsends, ← hflat, LocalResource.reports, List.map_map]
    exact List.map_id _
  rw [hreports]
  have hnil := rebuilt_nil (storeOk_of_switchRun hstart) hcleared hlimits
  have hentries := (leads_tables hfit hrun hnums hnil).append fun _ h => leads_entries hfit hrun hnums h
  have hgroups := hentries.append fun _ h => leads_groups hrun h
  have hmeters := hgroups.append fun _ h => leads_meters hrun h
  have hcounters := hmeters.append fun _ h => leads_counters h
  exact hcounters.mono fun _ h => h.restores hrun

/-- A slot with a table, an entry, a group and a meter, restored. -/
theorem queryall_restores_one : ∃ lr', Replays (pofLocalresourceInit smallConfig)
    (queriedReports queriedResource ⟨.run, 9, 1, fun _ => [], fun _ => .ok ()⟩) lr' ∧
      Restores queriedResource lr' := by
  have hcleared : (pofLocalresourceInit smallConfig).Cleared := ⟨rfl, rfl, rfl, rfl, by decide⟩
  have hnums : queriedResource.tableNumMaxEachType = #v[1, 1, 1, 1].toList := rfl
  have hsends : (⟨.run, 9, 1, fun _ => [], fun _ => .ok ()⟩ : QueryEnv).state.sends = true := rfl
  obtain ⟨⟨lr', hreplay⟩, hall⟩ := ReplayLeads.replays (queryall_restores (by decide)
    codableRun_queriedResource hnums hsends (SwitchRun.init smallConfig) hcleared rfl)
  exact ⟨lr', hreplay, hall lr' hreplay⟩

end PofSwitch
