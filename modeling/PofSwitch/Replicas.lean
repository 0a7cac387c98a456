/-
**The slots are replicas.**

A request of the controller is carried out in every slot, one after the other, by the same calls.  The
slots allocate their own structures, so what they store differs in its addresses, and in nothing else:
what a request does depends on the identifiers, the hashes and the order of insertion, and a pointer is
only followed to the structure that was found by one of these.  So a request has one result in all slots,
and the slots that agreed before it agree after it, whether it succeeds or fails halfway.

Main definitions:

* `PofSwitch.EntryInfo.content`, `TableInfo.content`, `GroupInfo.content`, … — a stored structure without
  addresses;
* `PofSwitch.SameContent` — two slots store the same;
* `PofSwitch.Alike` — two results of a request;
* `PofSwitch.ModMsg`, `PofSwitch.pofParseMsgFromController` — the messages that change tables, entries,
  groups, meters and counters, and what is done for them in every slot;
* `PofSwitch.pofdpSlotInit`, `PofSwitch.SlotsRun` — the slots at start-up, and after any messages.

Main results:

* `PofSwitch.Hmap.Agree.delete`, `PofSwitch.Hmap.Agree.change` — **what is done to the nodes found in two
  maps that agree;**
* `PofSwitch.ModMsg.alike` — **a message has one result in slots that store the same;**
* `PofSwitch.slots_replicated` — **all slots store the same after every message.**
-/

import PofSwitch.LrStore
import PofSwitch.Pairing

set_option relaxedAutoImplicit false
set_option autoImplicit false

namespace PofSwitch

open HmapNode

/-! ### Maps that agree -/

namespace Hmap

variable {α β : Type}

/-- The map with a function applied to its nodes. -/
def map (f : α → β) (m : Hmap α) : Hmap β := { mask := m.mask, n := m.n, nodes := m.nodes.map f }

/-- Two maps agree under a function: the counters, the masks, and the nodes place by place. -/
def Agree (c : α → β) (m₁ m₂ : Hmap α) : Prop := m₁.map c = m₂.map c

/-- Two nodes at one place of maps that agree. -/
def Partner (c : α → β) (m₁ m₂ : Hmap α) (a₁ a₂ : α) : Prop :=
  ∃ z, Pairing c m₁.nodes m₂.nodes z ∧ (a₁, a₂) ∈ z

namespace Partner

variable {c : α → β} {m₁ m₂ : Hmap α} {a₁ a₂ : α}

theorem same (h : Partner c m₁ m₂ a₁ a₂) : c a₁ = c a₂ := by
  obtain ⟨z, hz, hq⟩ := h
  exact hz.same _ hq

theorem mem_left (h : Partner c m₁ m₂ a₁ a₂) : a₁ ∈ m₁.nodes := by
  obtain ⟨z, hz, hq⟩ := h
  exact hz.mem_fst hq

theorem mem_right (h : Partner c m₁ m₂ a₁ a₂) : a₂ ∈ m₂.nodes := by
  obtain ⟨z, hz, hq⟩ := h
  exact hz.mem_snd hq

end Partner

namespace Agree

variable {c : α → β} {m₁ m₂ : Hmap α} {a₁ a₂ : α}

theorem of_fields (hmask : m₁.mask = m₂.mask) (hn : m₁.n = m₂.n)
    (hnodes : m₁.nodes.map c = m₂.nodes.map c) : Agree c m₁ m₂ := by
  rw [Agree, map, map, hmask, hn, hnodes]

theorem mask_eq (h : Agree c m₁ m₂) : m₁.mask = m₂.mask := by
  have hmask : (m₁.map c).mask = (m₂.map c).mask := congrArg Hmap.mask h
  exact hmask

theorem n_eq (h : Agree c m₁ m₂) : m₁.n = m₂.n := by
  have hn : (m₁.map c).n = (m₂.map c).n := congrArg Hmap.n h
  exact hn

theorem nodes_eq (h : Agree c m₁ m₂) : m₁.nodes.map c = m₂.nodes.map c := congrArg Hmap.nodes h

theorem insert (h : Agree c m₁ m₂) (hc : c a₁ = c a₂) :
    Agree c (m₁.nodeInsert a₁) (m₂.nodeInsert a₂) :=
  of_fields h.mask_eq (congrArg (· + 1) h.n_eq) (by
    simp only [nodes_nodeInsert, List.map_cons, hc, h.nodes_eq])

variable [HmapNode α]

/-- A search by hash finds two nodes at one place, or nothing. -/
theorem get (h : Agree c m₁ m₂) (hc : ∀ a b : α, c a = c b → hash a = hash b) (k : UInt32) :
    (m₁.nodeGetWithHash k = none ∧ m₂.nodeGetWithHash k = none) ∨
      ∃ a₁ a₂, m₁.nodeGetWithHash k = some a₁ ∧ m₂.nodeGetWithHash k = some a₂ ∧
        Partner c m₁ m₂ a₁ a₂ := by
  obtain ⟨z, hz⟩ := exists_pairing h.nodes_eq
  have hp : ∀ a b : α, c a = c b → decide (hash a = k) = decide (hash b = k) := by
    intro a b hab
    rw [hc a b hab]
  rcases hz.find hp with hnone | ⟨q, hq, h₁, h₂⟩
  · exact Or.inl hnone
  · exact Or.inr ⟨q.1, q.2, h₁, h₂, z, hz, hq⟩

/-- A search along the traversal finds two nodes at one place, or nothing. -/
theorem find_order (h : Agree c m₁ m₂) (hc : ∀ a b : α, c a = c b → hash a = hash b) {p : α → Bool}
    (hp : ∀ a b, c a = c b → p a = p b) :
    (m₁.order.find? p = none ∧ m₂.order.find? p = none) ∨
      ∃ a₁ a₂, m₁.order.find? p = some a₁ ∧ m₂.order.find? p = some a₂ ∧ Partner c m₁ m₂ a₁ a₂ := by
  obtain ⟨z, hz⟩ := exists_pairing h.nodes_eq
  have hbucket : ∀ a b : α, c a = c b → bucketId m₁.mask (hash a) = bucketId m₁.mask (hash b) := by
    intro a b hab
    rw [hc a b hab]
  obtain ⟨z', hsub, hz'⟩ := hz.walk hbucket (m₁.mask.toNat + 1)
  rw [order, order, ← h.mask_eq]
  rcases hz'.find hp with hnone | ⟨q, hq, h₁, h₂⟩
  · exact Or.inl hnone
  · exact Or.inr ⟨q.1, q.2, h₁, h₂, z, hz, hsub q hq⟩

/-- **Deleting the nodes that were found.** -/
theorem delete (h : Agree c m₁ m₂) (hnd₁ : (m₁.nodes.map addr).Nodup)
    (hnd₂ : (m₂.nodes.map addr).Nodup) (hq : Partner c m₁ m₂ a₁ a₂) :
    Agree c (m₁.nodeDelete (addr a₁)) (m₂.nodeDelete (addr a₂)) := by
  have hany₁ : (m₁.nodes.any fun a => addr a = addr a₁) = true :=
    List.any_eq_true.2 ⟨a₁, hq.mem_left, by simp⟩
  have hany₂ : (m₂.nodes.any fun a => addr a = addr a₂) = true :=
    List.any_eq_true.2 ⟨a₂, hq.mem_right, by simp⟩
  obtain ⟨z, hz, hmem⟩ := hq
  rw [nodeDelete, if_pos hany₁, nodeDelete, if_pos hany₂]
  exact of_fields h.mask_eq (congrArg (· - 1) h.n_eq) (hz.remove hnd₁ hnd₂ hmem)

/-- **Writing to the nodes that were found.** -/
theorem change (h : Agree c m₁ m₂) (hnd₁ : (m₁.nodes.map addr).Nodup)
    (hnd₂ : (m₂.nodes.map addr).Nodup) (hq : Partner c m₁ m₂ a₁ a₂) {f₁ f₂ : α → α}
    (hf : c (f₁ a₁) = c (f₂ a₂)) : Agree c (m₁.modify (addr a₁) f₁) (m₂.modify (addr a₂) f₂) := by
  obtain ⟨z, hz, hmem⟩ := hq
  exact of_fields h.mask_eq h.n_eq (hz.update hnd₁ hnd₂ hmem hf)

end Agree

end Hmap

/-! ### Trees without addresses -/

/-- The tree with the addresses of the entries erased. -/
def Tree.content (t : Tree) : Tree := { t with root := Trie.map (fun _ => 0) t.root }

theorem map_orCreate (f : ℕ → ℕ) (t : Trie ℕ) : Trie.map f (orCreate t) = orCreate (Trie.map f t) := by
  cases t <;> rfl

theorem map_insertLoop (f : ℕ → ℕ) (ptr b : ℕ) (t : Trie ℕ) (value : Buf) :
    Trie.map f (insertLoop ptr b t value) = insertLoop (f ptr) b (Trie.map f t) value := by
  induction b generalizing t value with
  | zero => cases t <;> rfl
  | succ b ih =>
      cases t with
      | nil => rfl
      | node v l r =>
          simp only [insertLoop, Trie.map]
          split_ifs
          · rw [Trie.map, ih, map_orCreate]
          · rw [Trie.map, ih, map_orCreate]

theorem map_removeLoop (f : ℕ → ℕ) (isRoot : Bool) (b : ℕ) (t : Trie ℕ) (value : Buf) :
    (removeLoop isRoot b t value).map (Trie.map f) = removeLoop isRoot b (Trie.map f t) value := by
  induction b generalizing isRoot t value with
  | zero =>
      cases t with
      | nil => rfl
      | node v l r =>
          simp only [removeLoop, Trie.map, Trie.map_eq_nil]
          split_ifs <;> rfl
  | succ b ih =>
      cases t with
      | nil => rfl
      | node v l r =>
          simp only [removeLoop, Trie.map]
          split_ifs
          · rw [← ih, Option.map_map, Option.map_map]
            rfl
          · rw [← ih, Option.map_map, Option.map_map]
            rfl

theorem content_treeNodeInsert (tree : Tree) (ptr : ℕ) (value : Buf) (bitNum : UInt32) :
    (treeNodeInsert tree ptr value bitNum).content = treeNodeInsert tree.content 0 value bitNum := by
  simp only [treeNodeInsert, Tree.content, map_insertLoop]

theorem content_treeNodeDelete (tree : Tree) (value : Buf) (bitNum : UInt32) :
    (treeNodeDelete tree value bitNum).content = treeNodeDelete tree.content value bitNum := by
  simp only [treeNodeDelete, Tree.content, ← map_removeLoop]
  cases removeLoop true bitNum.toNat tree.root value <;> rfl

/-! ### Stored structures without addresses -/

/-- An entry without its address. -/
def EntryInfo.content (e : EntryInfo) : EntryInfo := { e with addr := 0 }

/-- A table without its address and those of its entries. -/
def TableInfo.content (t : TableInfo) : TableInfo :=
  { t with addr := 0, entryMap := t.entryMap.map EntryInfo.content, tree := t.tree.content }

/-- A group without its address. -/
def GroupInfo.content (g : GroupInfo) : GroupInfo := { g with addr := 0 }

/-- A meter without its address. -/
def MeterInfo.content (m : MeterInfo) : MeterInfo := { m with addr := 0 }

/-- A counter without its address. -/
def CounterInfo.content (c : CounterInfo) : CounterInfo := { c with addr := 0 }

theorem EntryInfo.hash_of_content (a b : EntryInfo) (h : a.content = b.content) : hash a = hash b := by
  have hhash : a.content.hash = b.content.hash := congrArg EntryInfo.hash h
  exact hhash

theorem TableInfo.hash_of_content (a b : TableInfo) (h : a.content = b.content) : hash a = hash b := by
  have hhash : a.content.hash = b.content.hash := congrArg TableInfo.hash h
  exact hhash

theorem GroupInfo.hash_of_content (a b : GroupInfo) (h : a.content = b.content) : hash a = hash b := by
  have hhash : a.content.hash = b.content.hash := congrArg GroupInfo.hash h
  exact hhash

theorem MeterInfo.hash_of_content (a b : MeterInfo) (h : a.content = b.content) : hash a = hash b := by
  have hhash : a.content.hash = b.content.hash := congrArg MeterInfo.hash h
  exact hhash

theorem CounterInfo.hash_of_content (a b : CounterInfo) (h : a.content = b.content) : hash a = hash b := by
  have hhash : a.content.hash = b.content.hash := congrArg CounterInfo.hash h
  exact hhash

/-- **Two slots store the same**: the tables with their layouts and their entries, the groups, the meters
and the counters, in the same order and up to the addresses of the structures. -/
structure SameContent (lr₁ lr₂ : LocalResource) : Prop where
  tables : Hmap.Agree TableInfo.content lr₁.tableIdMap lr₂.tableIdMap
  groups : Hmap.Agree GroupInfo.content lr₁.groupMap lr₂.groupMap
  meters : Hmap.Agree MeterInfo.content lr₁.meterMap lr₂.meterMap
  counters : Hmap.Agree CounterInfo.content lr₁.counterMap lr₂.counterMap
  limits : lr₁.limits = lr₂.limits
  tableNum : lr₁.tableNum = lr₂.tableNum
  groupNum : lr₁.groupNum = lr₂.groupNum
  meterNum : lr₁.meterNum = lr₂.meterNum
  counterNum : lr₁.counterNum = lr₂.counterNum

/-- Two results: one return value, and the same is stored. -/
def Alike (r₁ r₂ : Ret × LocalResource) : Prop := r₁.1 = r₂.1 ∧ SameContent r₁.2 r₂.2

/-- Both fail with one error, or both succeed. -/
theorem Alike.cases {r₁ r₂ : Ret × LocalResource} (h : Alike r₁ r₂) :
    (∃ e l₁ l₂, r₁ = (.error e, l₁) ∧ r₂ = (.error e, l₂) ∧ SameContent l₁ l₂) ∨
      ∃ l₁ l₂, r₁ = (.ok (), l₁) ∧ r₂ = (.ok (), l₂) ∧ SameContent l₁ l₂ := by
  obtain ⟨ret₁, l₁⟩ := r₁
  obtain ⟨ret₂, l₂⟩ := r₂
  obtain ⟨hret, hlr⟩ := h
  obtain rfl : ret₁ = ret₂ := hret
  cases ret₁ with
  | error e => exact Or.inl ⟨e, l₁, l₂, rfl, rfl, hlr⟩
  | ok _ => exact Or.inr ⟨l₁, l₂, rfl, rfl, hlr⟩

/-- No address is stored twice. -/
structure Addressed (lr : LocalResource) : Prop where
  tables : (lr.tableIdMap.nodes.map TableInfo.addr).Nodup
  entries : ∀ t ∈ lr.tableIdMap.nodes, (t.entryMap.nodes.map EntryInfo.addr).Nodup
  groups : (lr.groupMap.nodes.map GroupInfo.addr).Nodup
  meters : (lr.meterMap.nodes.map MeterInfo.addr).Nodup
  counters : (lr.counterMap.nodes.map CounterInfo.addr).Nodup

theorem addressed_of_reachable {lr : LocalResource} (h : LrReachable lr) : Addressed lr :=
  have hstore := storeOk_of_reachable h
  { tables := hstore.tables.wf.nodup
    entries := fun t ht => (entriesOk_of_reachable h t ht).wf.nodup
    groups := hstore.groups.wf.nodup
    meters := hstore.meters.wf.nodup
    counters := hstore.counters.wf.nodup }

section Requests

variable {lr₁ lr₂ : LocalResource}

namespace SameContent

theorem counterNumMax (h : SameContent lr₁ lr₂) : lr₁.counterNumMax = lr₂.counterNumMax :=
  congrArg Limits.counterNumMax h.limits

theorem groupNumMax (h : SameContent lr₁ lr₂) : lr₁.groupNumMax = lr₂.groupNumMax :=
  congrArg Limits.groupNumMax h.limits

theorem meterNumMax (h : SameContent lr₁ lr₂) : lr₁.meterNumMax = lr₂.meterNumMax :=
  congrArg Limits.meterNumMax h.limits

theorem tableNumMaxEachType (h : SameContent lr₁ lr₂) :
    lr₁.tableNumMaxEachType = lr₂.tableNumMaxEachType :=
  congrArg Limits.tableNumMaxEachType h.limits

/-! ### Counters -/

/-- A search for a counter. -/
theorem getCounter (h : SameContent lr₁ lr₂) (id : UInt32) :
    (poflrGetCounterWithID id lr₁ = none ∧ poflrGetCounterWithID id lr₂ = none) ∨
      ∃ c₁ c₂, poflrGetCounterWithID id lr₁ = some c₁ ∧ poflrGetCounterWithID id lr₂ = some c₂ ∧
        Hmap.Partner CounterInfo.content lr₁.counterMap lr₂.counterMap c₁ c₂ :=
  h.counters.get CounterInfo.hash_of_content _

theorem counterInit (h : SameContent lr₁ lr₂) (c : UInt32) (a₁ a₂ : ℕ) :
    Alike (poflrCounterInit c a₁ lr₁) (poflrCounterInit c a₂ lr₂) := by
  simp only [poflrCounterInit, h.counterNumMax]
  split_ifs
  · exact ⟨rfl, h⟩
  · exact ⟨rfl, h⟩
  · rcases h.getCounter c with ⟨h₁, h₂⟩ | ⟨c₁, c₂, h₁, h₂, -⟩
    · rw [h₁, h₂]
      exact ⟨rfl, { h with
        counters := h.counters.insert rfl
        counterNum := congrArg (· + 1) h.counterNum }⟩
    · rw [h₁, h₂]
      exact ⟨rfl, h⟩

theorem counterDelete (h : SameContent lr₁ lr₂) (ha₁ : Addressed lr₁) (ha₂ : Addressed lr₂)
    (c : UInt32) : Alike (poflrCounterDelete c lr₁) (poflrCounterDelete c lr₂) := by
  simp only [poflrCounterDelete, h.counterNumMax]
  split_ifs
  · exact ⟨rfl, h⟩
  · exact ⟨rfl, h⟩
  · rcases h.getCounter c with ⟨h₁, h₂⟩ | ⟨c₁, c₂, h₁, h₂, hq⟩
    · rw [h₁, h₂]
      exact ⟨rfl, h⟩
    · rw [h₁, h₂]
      exact ⟨rfl, { h with
        counters := h.counters.delete ha₁.counters ha₂.counters hq
        counterNum := congrArg (· - 1) h.counterNum }⟩

theorem counterClear (h : SameContent lr₁ lr₂) (ha₁ : Addressed lr₁) (ha₂ : Addressed lr₂)
    (c : UInt32) : Alike (poflrCounterClear c lr₁) (poflrCounterClear c lr₂) := by
  unfold poflrCounterClear
  by_cases hzero : c = 0
  · rw [if_pos hzero, if_pos hzero]
    exact ⟨rfl, h⟩
  rw [if_neg hzero, if_neg hzero]
  by_cases hmax : c ≥ lr₂.counterNumMax
  · rw [if_pos hmax, if_pos (h.counterNumMax ▸ hmax)]
    exact ⟨rfl, h⟩
  rw [if_neg hmax, if_neg (h.counterNumMax ▸ hmax)]
  rcases h.getCounter c with ⟨h₁, h₂⟩ | ⟨c₁, c₂, h₁, h₂, hq⟩
  · rw [h₁, h₂]
    exact ⟨rfl, h⟩
  · rw [h₁, h₂]
    have hcleared := congrArg (fun c : CounterInfo => { c with value := 0, byteValue := 0 }) hq.same
    exact ⟨rfl, { h with counters := h.counters.change ha₁.counters ha₂.counters hq hcleared }⟩

/-! ### Groups and meters -/

/-- A search for a group. -/
theorem getGroup (h : SameContent lr₁ lr₂) (id : UInt32) :
    (poflrGetGroupWithID id lr₁ = none ∧ poflrGetGroupWithID id lr₂ = none) ∨
      ∃ g₁ g₂, poflrGetGroupWithID id lr₁ = some g₁ ∧ poflrGetGroupWithID id lr₂ = some g₂ ∧
        Hmap.Partner GroupInfo.content lr₁.groupMap lr₂.groupMap g₁ g₂ :=
  h.groups.get GroupInfo.hash_of_content _

theorem addGroupEntry (h : SameContent lr₁ lr₂) (group : PofGroup) (a₁ a₂ b₁ b₂ : ℕ) :
    Alike (poflrAddGroupEntry group a₁ b₁ lr₁) (poflrAddGroupEntry group a₂ b₂ lr₂) := by
  unfold poflrAddGroupEntry
  by_cases hid : group.groupId ≥ lr₂.groupNumMax
  · rw [if_pos hid, if_pos (h.groupNumMax ▸ hid)]
    exact ⟨rfl, h⟩
  rw [if_neg hid, if_neg (h.groupNumMax ▸ hid)]
  rcases h.getGroup group.groupId with ⟨h₁, h₂⟩ | ⟨g₁, g₂, h₁, h₂, -⟩
  · simp only [h₁, h₂, Option.isSome_none, Bool.false_eq_true, if_false]
    rcases (h.counterInit group.counterId b₁ b₂).cases with
      ⟨e, l₁, l₂, hr₁, hr₂, hlr⟩ | ⟨l₁, l₂, hr₁, hr₂, hlr⟩
    · rw [hr₁, hr₂]
      exact ⟨rfl, hlr⟩
    · rw [hr₁, hr₂]
      exact ⟨rfl, { hlr with
        groups := hlr.groups.insert rfl
        groupNum := congrArg (· + 1) hlr.groupNum }⟩
  · simp only [h₁, h₂, Option.isSome_some, if_true]
    exact ⟨rfl, h⟩

theorem modifyGroupEntry (h : SameContent lr₁ lr₂) (ha₁ : Addressed lr₁) (ha₂ : Addressed lr₂)
    (group : PofGroup) : Alike (poflrModifyGroupEntry group lr₁) (poflrModifyGroupEntry group lr₂) := by
  unfold poflrModifyGroupEntry
  by_cases hid : group.groupId ≥ lr₂.groupNumMax
  · rw [if_pos hid, if_pos (h.groupNumMax ▸ hid)]
    exact ⟨rfl, h⟩
  rw [if_neg hid, if_neg (h.groupNumMax ▸ hid)]
  rcases h.getGroup group.groupId with ⟨h₁, h₂⟩ | ⟨g₁, g₂, h₁, h₂, hq⟩
  · rw [h₁, h₂]
    exact ⟨rfl, h⟩
  · have hcounter : g₁.counterId = g₂.counterId := by
      have := congrArg GroupInfo.counterId hq.same
      exact this
    have hfill : (groupFill group g₁).content = (groupFill group g₂).content :=
      congrArg (groupFill group) hq.same
    simp only [h₁, h₂, hcounter]
    split_ifs
    · exact ⟨rfl, h⟩
    · exact ⟨rfl, { h with groups := h.groups.change ha₁.groups ha₂.groups hq hfill }⟩

theorem deleteGroupEntry (h : SameContent lr₁ lr₂) (ha₁ : Addressed lr₁) (ha₂ : Addressed lr₂)
    (group : PofGroup) : Alike (poflrDeleteGroupEntry group lr₁) (poflrDeleteGroupEntry group lr₂) := by
  simp only [poflrDeleteGroupEntry, h.groupNumMax]
  split_ifs with hid
  · exact ⟨rfl, h⟩
  rcases h.getGroup group.groupId with ⟨h₁, h₂⟩ | ⟨g₁, g₂, h₁, h₂, hq⟩
  · rw [h₁, h₂]
    exact ⟨rfl, h⟩
  · have hgroups₁ := poflrCounterDelete_frame LocalResource.groupMap lr₁ (fun _ _ _ => rfl) group.counterId
    have hgroups₂ := poflrCounterDelete_frame LocalResource.groupMap lr₂ (fun _ _ _ => rfl) group.counterId
    simp only [h₁, h₂]
    rcases (h.counterDelete ha₁ ha₂ group.counterId).cases with
      ⟨e, l₁, l₂, hr₁, hr₂, hlr⟩ | ⟨l₁, l₂, hr₁, hr₂, hlr⟩
    · rw [hr₁, hr₂]
      exact ⟨rfl, hlr⟩
    · rw [hr₁] at hgroups₁
      rw [hr₂] at hgroups₂
      rw [hr₁, hr₂]
      -- the groups are those from before the counter was deleted
      have hdelete := h.groups.delete ha₁.groups ha₂.groups hq
      rw [← hgroups₁, ← hgroups₂] at hdelete
      exact ⟨rfl, { hlr with groups := hdelete, groupNum := congrArg (· - 1) hlr.groupNum }⟩

/-- A search for a meter. -/
theorem getMeter (h : SameContent lr₁ lr₂) (id : UInt32) :
    (poflrGetMeterWithID id lr₁ = none ∧ poflrGetMeterWithID id lr₂ = none) ∨
      ∃ m₁ m₂, poflrGetMeterWithID id lr₁ = some m₁ ∧ poflrGetMeterWithID id lr₂ = some m₂ ∧
        Hmap.Partner MeterInfo.content lr₁.meterMap lr₂.meterMap m₁ m₂ :=
  h.meters.get MeterInfo.hash_of_content _

theorem addMeterEntry (h : SameContent lr₁ lr₂) (meterId rate : UInt32) (a₁ a₂ : ℕ) :
    Alike (poflrAddMeterEntry meterId rate a₁ lr₁) (poflrAddMeterEntry meterId rate a₂ lr₂) := by
  unfold poflrAddMeterEntry
  by_cases hid : meterId ≥ lr₂.meterNumMax
  · rw [if_pos hid, if_pos (h.meterNumMax ▸ hid)]
    exact ⟨rfl, h⟩
  rw [if_neg hid, if_neg (h.meterNumMax ▸ hid)]
  rcases h.getMeter meterId with ⟨h₁, h₂⟩ | ⟨m₁, m₂, h₁, h₂, -⟩
  · simp only [h₁, h₂, Option.isSome_none, Bool.false_eq_true, if_false]
    exact ⟨rfl, { h with
      meters := h.meters.insert rfl
      meterNum := congrArg (· + 1) h.meterNum }⟩
  · simp only [h₁, h₂, Option.isSome_some, if_true]
    exact ⟨rfl, h⟩

theorem modifyMeterEntry (h : SameContent lr₁ lr₂) (ha₁ : Addressed lr₁) (ha₂ : Addressed lr₂)
    (meterId rate : UInt32) :
    Alike (poflrModifyMeterEntry meterId rate lr₁) (poflrModifyMeterEntry meterId rate lr₂) := by
  unfold poflrModifyMeterEntry
  by_cases hid : meterId ≥ lr₂.meterNumMax
  · rw [if_pos hid, if_pos (h.meterNumMax ▸ hid)]
    exact ⟨rfl, h⟩
  rw [if_neg hid, if_neg (h.meterNumMax ▸ hid)]
  rcases h.getMeter meterId with ⟨h₁, h₂⟩ | ⟨m₁, m₂, h₁, h₂, hq⟩
  · rw [h₁, h₂]
    exact ⟨rfl, h⟩
  · rw [h₁, h₂]
    have hrate := congrArg (fun m : MeterInfo => { m with rate := rate }) hq.same
    exact ⟨rfl, { h with meters := h.meters.change ha₁.meters ha₂.meters hq hrate }⟩

theorem deleteMeterEntry (h : SameContent lr₁ lr₂) (ha₁ : Addressed lr₁) (ha₂ : Addressed lr₂)
    (meterId : UInt32) :
    Alike (poflrDeleteMeterEntry meterId lr₁) (poflrDeleteMeterEntry meterId lr₂) := by
  simp only [poflrDeleteMeterEntry, h.meterNumMax]
  split_ifs with hid
  · exact ⟨rfl, h⟩
  rcases h.getMeter meterId with ⟨h₁, h₂⟩ | ⟨m₁, m₂, h₁, h₂, hq⟩
  · rw [h₁, h₂]
    exact ⟨rfl, h⟩
  · rw [h₁, h₂]
    exact ⟨rfl, { h with
      meters := h.meters.delete ha₁.meters ha₂.meters hq
      meterNum := congrArg (· - 1) h.meterNum }⟩

/-! ### Tables -/

/-- The number of a table. -/
theorem tableIdToID (h : SameContent lr₁ lr₂) (type : TableType) (id : UInt8) :
    poflrTableIdToID type id lr₁ = poflrTableIdToID type id lr₂ := by
  rw [poflrTableIdToID, poflrTableIdToID, h.tableNumMaxEachType]

/-- A search for a table. -/
theorem getTable (h : SameContent lr₁ lr₂) (ID : UInt8) :
    (poflrGetTableWithID ID lr₁ = none ∧ poflrGetTableWithID ID lr₂ = none) ∨
      ∃ t₁ t₂, poflrGetTableWithID ID lr₁ = some t₁ ∧ poflrGetTableWithID ID lr₂ = some t₂ ∧
        Hmap.Partner TableInfo.content lr₁.tableIdMap lr₂.tableIdMap t₁ t₂ :=
  h.tables.get TableInfo.hash_of_content _

theorem createFlowTable (h : SameContent lr₁ lr₂) (msg : PofFlowTable) (a₁ a₂ : ℕ) :
    Alike (poflrCreateFlowTable msg a₁ lr₁) (poflrCreateFlowTable msg a₂ lr₂) := by
  have hsize : lr₁.tableSizeMax = lr₂.tableSizeMax := congrArg Limits.tableSizeMax h.limits
  have hkey : lr₁.keyLenEachType = lr₂.keyLenEachType := congrArg Limits.keyLenEachType h.limits
  unfold poflrCreateFlowTable
  cases TableType.ofUInt8 msg.type with
  | none => exact ⟨rfl, h⟩
  | some type =>
      simp only [h.tableNumMaxEachType, h.tableIdToID, hsize, hkey]
      by_cases hid : msg.tid.toUInt16 ≥ lr₂.tableNumMaxEachType.getD type.toNat 0
      · rw [if_pos hid, if_pos hid]
        exact ⟨rfl, h⟩
      rw [if_neg hid, if_neg hid]
      rcases h.getTable (poflrTableIdToID type msg.tid lr₂) with ⟨h₁, h₂⟩ | ⟨t₁, t₂, h₁, h₂, -⟩
      · simp only [h₁, h₂, Option.isSome_none, Bool.false_eq_true, if_false]
        split_ifs
        · exact ⟨rfl, h⟩
        · exact ⟨rfl, h⟩
        · exact ⟨rfl, { h with
            tables := h.tables.insert rfl
            tableNum := congrArg (· + 1) h.tableNum }⟩
      · simp only [h₁, h₂, Option.isSome_some, if_true]
        exact ⟨rfl, h⟩

theorem deleteFlowTable (h : SameContent lr₁ lr₂) (ha₁ : Addressed lr₁) (ha₂ : Addressed lr₂)
    (id type : UInt8) : Alike (poflrDeleteFlowTable id type lr₁) (poflrDeleteFlowTable id type lr₂) := by
  unfold poflrDeleteFlowTable
  cases TableType.ofUInt8 type with
  | none => exact ⟨rfl, h⟩
  | some type =>
      simp only [h.tableNumMaxEachType, h.tableIdToID]
      by_cases hid : id.toUInt16 ≥ lr₂.tableNumMaxEachType.getD type.toNat 0
      · rw [if_pos hid, if_pos hid]
        exact ⟨rfl, h⟩
      rw [if_neg hid, if_neg hid]
      rcases h.getTable (poflrTableIdToID type id lr₂) with ⟨h₁, h₂⟩ | ⟨t₁, t₂, h₁, h₂, hq⟩
      · rw [h₁, h₂]
        exact ⟨rfl, h⟩
      · have hnum : t₁.content.entryNum = t₂.content.entryNum := congrArg TableInfo.entryNum hq.same
        change t₁.entryNum = t₂.entryNum at hnum
        simp only [h₁, h₂, hnum]
        split_ifs
        · exact ⟨rfl, h⟩
        · exact ⟨rfl, { h with
            tables := h.tables.delete ha₁.tables ha₂.tables hq
            tableNum := congrArg (· - 1) h.tableNum }⟩

/-- The table that a request for an entry is about. -/
theorem flowModTable (h : SameContent lr₁ lr₂) (flow : PofFlowEntry) :
    (∃ e, PofSwitch.flowModTable flow lr₁ = .error e ∧ PofSwitch.flowModTable flow lr₂ = .error e) ∨
      ∃ t₁ t₂, PofSwitch.flowModTable flow lr₁ = .ok t₁ ∧ PofSwitch.flowModTable flow lr₂ = .ok t₂ ∧
        Hmap.Partner TableInfo.content lr₁.tableIdMap lr₂.tableIdMap t₁ t₂ := by
  unfold PofSwitch.flowModTable
  cases TableType.ofUInt8 flow.tableType with
  | none => exact Or.inl ⟨_, rfl, rfl⟩
  | some type =>
      simp only [h.tableNumMaxEachType, h.tableIdToID]
      by_cases hid : flow.tableId.toUInt16 ≥ lr₂.tableNumMaxEachType.getD type.toNat 0
      · rw [if_pos hid, if_pos hid]
        exact Or.inl ⟨_, rfl, rfl⟩
      rw [if_neg hid, if_neg hid]
      rcases h.getTable (poflrTableIdToID type flow.tableId lr₂) with ⟨h₁, h₂⟩ | ⟨t₁, t₂, h₁, h₂, hq⟩
      · rw [h₁, h₂]
        exact Or.inl ⟨_, rfl, rfl⟩
      · have hsize : t₁.content.size = t₂.content.size := congrArg TableInfo.size hq.same
        change t₁.size = t₂.size at hsize
        simp only [h₁, h₂, hsize]
        split_ifs
        · exact Or.inl ⟨_, rfl, rfl⟩
        · exact Or.inr ⟨t₁, t₂, rfl, rfl, hq⟩

end SameContent

end Requests

/-! ### Entries -/

section Entries

variable {t₁ t₂ : TableInfo} {e₁ e₂ : EntryInfo}

/-- Changes to the entries of a table. -/
theorem TableInfo.content_congr (h : t₁.content = t₂.content) {m₁ m₂ : Hmap EntryInfo} {n₁ n₂ : UInt32}
    {r₁ r₂ : Tree} (hm : Hmap.Agree EntryInfo.content m₁ m₂) (hn : n₁ = n₂)
    (hr : r₁.content = r₂.content) :
    { t₁ with entryMap := m₁, entryNum := n₁, tree := r₁ }.content =
      { t₂ with entryMap := m₂, entryNum := n₂, tree := r₂ }.content := by
  have hrest := congrArg (fun t : TableInfo => { t with
    entryMap := m₁.map EntryInfo.content, entryNum := n₁, tree := r₁.content }) h
  simp only [TableInfo.content] at hrest ⊢
  rw [hrest, hm, hn, hr]

theorem TableInfo.type_of_content (h : t₁.content = t₂.content) : t₁.type = t₂.type := by
  have htype : t₁.content.type = t₂.content.type := congrArg TableInfo.type h
  exact htype

theorem TableInfo.keyLen_of_content (h : t₁.content = t₂.content) : t₁.keyLen = t₂.keyLen := by
  have hkeyLen : t₁.content.keyLen = t₂.content.keyLen := congrArg TableInfo.keyLen h
  exact hkeyLen

theorem TableInfo.entries_of_content (h : t₁.content = t₂.content) :
    Hmap.Agree EntryInfo.content t₁.entryMap t₂.entryMap := by
  have hentries : t₁.content.entryMap = t₂.content.entryMap := congrArg TableInfo.entryMap h
  exact hentries

theorem TableInfo.entryNum_of_content (h : t₁.content = t₂.content) : t₁.entryNum = t₂.entryNum := by
  have hnum : t₁.content.entryNum = t₂.content.entryNum := congrArg TableInfo.entryNum h
  exact hnum

theorem TableInfo.tree_of_content (h : t₁.content = t₂.content) : t₁.tree.content = t₂.tree.content := by
  have htree : t₁.content.tree = t₂.content.tree := congrArg TableInfo.tree h
  exact htree

/-- The prefix of an entry does not depend on addresses. -/
theorem prefix_of_content (ht : t₁.content = t₂.content) (he : e₁.content = e₂.content) :
    prefixBits e₁ t₁ = prefixBits e₂ t₂ ∧ prefixValue e₁ t₁ = prefixValue e₂ t₂ := by
  have hmask : e₁.content.mask = e₂.content.mask := congrArg EntryInfo.mask he
  have hvalue : e₁.content.value = e₂.content.value := congrArg EntryInfo.value he
  change e₁.mask = e₂.mask at hmask
  change e₁.value = e₂.value at hvalue
  rw [prefixBits, prefixBits, prefixValue, prefixValue, hmask, hvalue, TableInfo.keyLen_of_content ht]
  exact ⟨rfl, rfl⟩

theorem content_entryLink (ht : t₁.content = t₂.content) (he : e₁.content = e₂.content) :
    (entryLink e₁ t₁).content = (entryLink e₂ t₂).content := by
  have hentries := (TableInfo.entries_of_content ht).insert he
  have hnum := congrArg (· + 1) (TableInfo.entryNum_of_content ht)
  have htype := TableInfo.type_of_content ht
  simp only [entryLink]
  by_cases hlpm : t₂.type = .lpm
  · rw [if_pos hlpm, if_pos (htype.trans hlpm)]
    refine TableInfo.content_congr ht hentries hnum ?_
    -- the prefix is taken in the table that has the entry already
    obtain ⟨hbits, hvalue⟩ := prefix_of_content ht he
    change (treeNodeInsert t₁.tree e₁.addr (prefixValue e₁ t₁) (UInt32.ofNat (prefixBits e₁ t₁))).content =
      (treeNodeInsert t₂.tree e₂.addr (prefixValue e₂ t₂) (UInt32.ofNat (prefixBits e₂ t₂))).content
    rw [content_treeNodeInsert, content_treeNodeInsert, TableInfo.tree_of_content ht, hbits, hvalue]
  · rw [if_neg hlpm, if_neg (htype ▸ hlpm)]
    exact TableInfo.content_congr ht hentries hnum (TableInfo.tree_of_content ht)

theorem content_entryDelete (ht : t₁.content = t₂.content)
    (hnd₁ : (t₁.entryMap.nodes.map EntryInfo.addr).Nodup)
    (hnd₂ : (t₂.entryMap.nodes.map EntryInfo.addr).Nodup)
    (hq : Hmap.Partner EntryInfo.content t₁.entryMap t₂.entryMap e₁ e₂) :
    (entryDelete e₁ t₁).content = (entryDelete e₂ t₂).content := by
  have hentries := (TableInfo.entries_of_content ht).delete hnd₁ hnd₂ hq
  have hnum := congrArg (· - 1) (TableInfo.entryNum_of_content ht)
  have htype := TableInfo.type_of_content ht
  simp only [entryDelete]
  by_cases hlpm : t₂.type = .lpm
  · rw [if_pos hlpm, if_pos (htype.trans hlpm)]
    refine TableInfo.content_congr ht hentries hnum ?_
    obtain ⟨hbits, hvalue⟩ := prefix_of_content ht hq.same
    change (treeNodeDelete t₁.tree (prefixValue e₁ t₁) (UInt32.ofNat (prefixBits e₁ t₁))).content =
      (treeNodeDelete t₂.tree (prefixValue e₂ t₂) (UInt32.ofNat (prefixBits e₂ t₂))).content
    rw [content_treeNodeDelete, content_treeNodeDelete, TableInfo.tree_of_content ht, hbits, hvalue]
  · rw [if_neg hlpm, if_neg (htype ▸ hlpm)]
    exact TableInfo.content_congr ht hentries hnum (TableInfo.tree_of_content ht)

/-- What is filled into a new entry depends on the layout of the table only. -/
theorem content_entryFill (ht : t₁.content = t₂.content) (flow : PofFlowEntry) (a₁ a₂ : ℕ) :
    (entryFill flow a₁ t₁).map (Prod.map id EntryInfo.content) =
      (entryFill flow a₂ t₂).map (Prod.map id EntryInfo.content) := by
  unfold entryFill
  rw [TableInfo.type_of_content ht, TableInfo.keyLen_of_content ht]
  cases t₂.type with
  | linear => rfl
  | em =>
      simp only
      rcases valueMaskAssemble _ _ _ _ _ with _ | ⟨_ | _, value, mask⟩ <;> rfl
  | lpm =>
      simp only
      rcases valueMaskAssemble _ _ _ _ _ with _ | ⟨_ | _, value, mask⟩ <;> rfl
  | mm =>
      simp only
      rcases valueMaskAssemble _ _ _ _ _ with _ | ⟨_ | _, value, mask⟩ <;> rfl

/-- Inserting an entry: neither call returns, both fail and leave the tables alone, or both link an
entry. -/
theorem entryInsert_alike (ht : t₁.content = t₂.content) (flow : PofFlowEntry) (a₁ a₂ : ℕ) :
    (entryInsert flow a₁ t₁ = none ∧ entryInsert flow a₂ t₂ = none) ∨
      (∃ e, entryInsert flow a₁ t₁ = some (.error e, t₁) ∧ entryInsert flow a₂ t₂ = some (.error e, t₂)) ∨
      ∃ u₁ u₂, entryInsert flow a₁ t₁ = some (.ok (), u₁) ∧ entryInsert flow a₂ t₂ = some (.ok (), u₂) ∧
        u₁.content = u₂.content ∧ u₁.addr = t₁.addr ∧ u₂.addr = t₂.addr := by
  have hfill := content_entryFill ht flow a₁ a₂
  unfold entryInsert
  rcases hfill₁ : entryFill flow a₁ t₁ with _ | ⟨ret₁, e₁⟩
  · rw [hfill₁] at hfill
    have hfill₂ : entryFill flow a₂ t₂ = none := Option.map_eq_none_iff.1 hfill.symm
    rw [hfill₂]
    exact Or.inl ⟨rfl, rfl⟩
  · rw [hfill₁] at hfill
    obtain ⟨⟨ret₂, e₂⟩, hfill₂, heq⟩ := Option.map_eq_some_iff.1 hfill.symm
    obtain ⟨hret, he⟩ := Prod.mk.inj heq
    obtain rfl : ret₂ = ret₁ := hret
    rw [hfill₂]
    cases ret₂ with
    | error e => exact Or.inr (Or.inl ⟨e, rfl, rfl⟩)
    | ok _ =>
        exact Or.inr (Or.inr ⟨_, _, rfl, rfl, content_entryLink ht he.symm,
          (sameShape_entryLink e₁ t₁).addr_eq, (sameShape_entryLink e₂ t₂).addr_eq⟩)

end Entries

/-! ### Requests for entries -/

section FlowMods

variable {lr₁ lr₂ : LocalResource} {t₁ t₂ : TableInfo}

/-- The entry with an index. -/
theorem entryGetWithIndex_alike (ht : t₁.content = t₂.content) (index : UInt32) :
    (poflrEntryGetWithIndex index t₁ = none ∧ poflrEntryGetWithIndex index t₂ = none) ∨
      ∃ e₁ e₂, poflrEntryGetWithIndex index t₁ = some e₁ ∧ poflrEntryGetWithIndex index t₂ = some e₂ ∧
        Hmap.Partner EntryInfo.content t₁.entryMap t₂.entryMap e₁ e₂ := by
  refine (TableInfo.entries_of_content ht).find_order EntryInfo.hash_of_content ?_
  intro a b hab
  have hindex : a.content.index = b.content.index := congrArg EntryInfo.index hab
  change a.index = b.index at hindex
  rw [hindex]

namespace SameContent

/-- The writes to the tables that were found. -/
theorem setTable (h : SameContent lr₁ lr₂) (hnd₁ : (lr₁.tableIdMap.nodes.map TableInfo.addr).Nodup)
    (hnd₂ : (lr₂.tableIdMap.nodes.map TableInfo.addr).Nodup)
    (hq : Hmap.Partner TableInfo.content lr₁.tableIdMap lr₂.tableIdMap t₁ t₂) {u₁ u₂ : TableInfo}
    (hu : u₁.content = u₂.content) (haddr₁ : u₁.addr = t₁.addr) (haddr₂ : u₂.addr = t₂.addr) :
    SameContent (lr₁.setTable u₁) (lr₂.setTable u₂) := by
  have hchange : Hmap.Agree TableInfo.content (lr₁.tableIdMap.modify t₁.addr fun _ => u₁)
      (lr₂.tableIdMap.modify t₂.addr fun _ => u₂) := h.tables.change hnd₁ hnd₂ hq hu
  refine { h with tables := ?_ }
  rw [LocalResource.setTable, LocalResource.setTable, haddr₁, haddr₂]
  exact hchange

theorem addFlowEntry (h : SameContent lr₁ lr₂) (ha₁ : Addressed lr₁) (ha₂ : Addressed lr₂)
    (flow : PofFlowEntry) (a₁ a₂ b₁ b₂ : ℕ) :
    Option.Rel Alike (poflrAddFlowEntry flow a₁ b₁ lr₁) (poflrAddFlowEntry flow a₂ b₂ lr₂) := by
  unfold poflrAddFlowEntry
  rcases h.flowModTable flow with ⟨e, h₁, h₂⟩ | ⟨t₁, t₂, h₁, h₂, hq⟩
  · rw [h₁, h₂]
    exact .some ⟨rfl, h⟩
  · simp only [h₁, h₂]
    rcases entryInsert_alike hq.same flow a₁ a₂ with
      ⟨hi₁, hi₂⟩ | ⟨e, hi₁, hi₂⟩ | ⟨u₁, u₂, hi₁, hi₂, hu, haddr₁, haddr₂⟩
    · rw [hi₁, hi₂]
      exact .none
    · rw [hi₁, hi₂]
      exact .some ⟨rfl, h⟩
    · rw [hi₁, hi₂]
      have hset := h.setTable ha₁.tables ha₂.tables hq hu haddr₁ haddr₂
      exact .some (hset.counterInit flow.counterId b₁ b₂)

theorem deleteFlowEntry (h : SameContent lr₁ lr₂) (ha₁ : Addressed lr₁) (ha₂ : Addressed lr₂)
    (flow : PofFlowEntry) : Alike (poflrDeleteFlowEntry flow lr₁) (poflrDeleteFlowEntry flow lr₂) := by
  unfold poflrDeleteFlowEntry
  rcases h.flowModTable flow with ⟨e, h₁, h₂⟩ | ⟨t₁, t₂, h₁, h₂, hq⟩
  · rw [h₁, h₂]
    exact ⟨rfl, h⟩
  · simp only [h₁, h₂]
    rcases entryGetWithIndex_alike hq.same flow.index with ⟨hg₁, hg₂⟩ | ⟨e₁, e₂, hg₁, hg₂, he⟩
    · rw [hg₁, hg₂]
      exact ⟨rfl, h⟩
    · have hcounter : e₁.content.counterId = e₂.content.counterId := congrArg EntryInfo.counterId he.same
      change e₁.counterId = e₂.counterId at hcounter
      have htables₁ := (sameTables_poflrCounterDelete lr₁ e₂.counterId).1
      have htables₂ := (sameTables_poflrCounterDelete lr₂ e₂.counterId).1
      simp only [hg₁, hg₂, hcounter]
      rcases (h.counterDelete ha₁ ha₂ e₂.counterId).cases with
        ⟨e, l₁, l₂, hr₁, hr₂, hlr⟩ | ⟨l₁, l₂, hr₁, hr₂, hlr⟩
      · rw [hr₁, hr₂]
        exact ⟨rfl, hlr⟩
      · rw [hr₁] at htables₁
        rw [hr₂] at htables₂
        rw [hr₁, hr₂]
        have hdelete := content_entryDelete hq.same (ha₁.entries t₁ hq.mem_left)
          (ha₂.entries t₂ hq.mem_right) he
        refine ⟨rfl, hlr.setTable (htables₁ ▸ ha₁.tables) (htables₂ ▸ ha₂.tables) ?_ hdelete
          (sameShape_entryDelete e₁ t₁).addr_eq (sameShape_entryDelete e₂ t₂).addr_eq⟩
        rw [htables₁, htables₂]
        exact hq

/-- The counter of a modified entry. -/
theorem modifyCounter (h : SameContent lr₁ lr₂) {e₁ e₂ : EntryInfo} (he : e₁.content = e₂.content)
    (flow : PofFlowEntry) (b₁ b₂ : ℕ) :
    Alike (PofSwitch.modifyCounter e₁ flow b₁ lr₁) (PofSwitch.modifyCounter e₂ flow b₂ lr₂) := by
  have hcounter : e₁.content.counterId = e₂.content.counterId := congrArg EntryInfo.counterId he
  change e₁.counterId = e₂.counterId at hcounter
  simp only [PofSwitch.modifyCounter, hcounter]
  split_ifs
  · exact h.counterInit flow.counterId b₁ b₂
  · exact ⟨rfl, h⟩

theorem modifyFlowEntry (h : SameContent lr₁ lr₂) (ha₁ : Addressed lr₁) (ha₂ : Addressed lr₂)
    (flow : PofFlowEntry) (a₁ a₂ b₁ b₂ : ℕ) :
    Option.Rel Alike (poflrModifyFlowEntry flow a₁ b₁ lr₁) (poflrModifyFlowEntry flow a₂ b₂ lr₂) := by
  unfold poflrModifyFlowEntry
  rcases h.flowModTable flow with ⟨e, h₁, h₂⟩ | ⟨t₁, t₂, h₁, h₂, hq⟩
  · rw [h₁, h₂]
    exact .some ⟨rfl, h⟩
  simp only [h₁, h₂]
  rcases entryGetWithIndex_alike hq.same flow.index with ⟨hg₁, hg₂⟩ | ⟨e₁, e₂, hg₁, hg₂, he⟩
  · rw [hg₁, hg₂]
    exact .some ⟨rfl, h⟩
  have htables₁ := (sameTables_modifyCounter lr₁ e₁ flow b₁).1
  have htables₂ := (sameTables_modifyCounter lr₂ e₂ flow b₂).1
  simp only [hg₁, hg₂]
  rcases (h.modifyCounter he.same flow b₁ b₂).cases with
    ⟨e, l₁, l₂, hr₁, hr₂, hlr⟩ | ⟨l₁, l₂, hr₁, hr₂, hlr⟩
  · rw [hr₁, hr₂]
    exact .some ⟨rfl, hlr⟩
  rw [hr₁] at htables₁
  rw [hr₂] at htables₂
  simp only [hr₁, hr₂]
  have hnd₁ : (l₁.tableIdMap.nodes.map TableInfo.addr).Nodup := htables₁ ▸ ha₁.tables
  have hnd₂ : (l₂.tableIdMap.nodes.map TableInfo.addr).Nodup := htables₂ ▸ ha₂.tables
  have hq' : Hmap.Partner TableInfo.content l₁.tableIdMap l₂.tableIdMap t₁ t₂ := by
    rw [htables₁, htables₂]
    exact hq
  have hdelete := content_entryDelete hq.same (ha₁.entries t₁ hq.mem_left)
    (ha₂.entries t₂ hq.mem_right) he
  have haddr₁ := (sameShape_entryDelete e₁ t₁).addr_eq
  have haddr₂ := (sameShape_entryDelete e₂ t₂).addr_eq
  -- the old entry is gone, also when the new one is refused
  rcases entryInsert_alike hdelete flow a₁ a₂ with
    ⟨hi₁, hi₂⟩ | ⟨e, hi₁, hi₂⟩ | ⟨u₁, u₂, hi₁, hi₂, hu, hu₁, hu₂⟩
  · rw [hi₁, hi₂]
    exact .none
  · rw [hi₁, hi₂]
    exact .some ⟨rfl, hlr.setTable hnd₁ hnd₂ hq' hdelete haddr₁ haddr₂⟩
  · rw [hi₁, hi₂]
    exact .some ⟨rfl, hlr.setTable hnd₁ hnd₂ hq' hu (hu₁.trans haddr₁) (hu₂.trans haddr₂)⟩

end SameContent

end FlowMods

/-! ### Messages -/

/-- The messages that change tables, entries, groups, meters and counters, with their commands. -/
inductive ModMsg
  | tableMod (command : UInt8) (table : PofFlowTable)
  | flowMod (command : UInt8) (flow : PofFlowEntry)
  | groupMod (command : UInt8) (group : PofGroup)
  | meterMod (command : UInt8) (meterId rate : UInt32)
  | counterMod (command : UInt8) (counterId : UInt32)

namespace ModMsg

/-- The call that `pof_parse_msg_from_controller` makes for every slot, given the addresses that the
slot allocates; `none` for a command that is not known. -/
def call : ModMsg → Option (ℕ × ℕ → LrOp)
  | tableMod command table =>
      if command = 0 then some fun a => .createFlowTable table a.1
      else if command = 2 then some fun _ => .deleteFlowTable table.tid table.type
      else none
  | flowMod command flow =>
      if command = 0 then some fun a => .addFlowEntry flow a.1 a.2
      else if command = 3 then some fun _ => .deleteFlowEntry flow
      else if command = 1 then some fun a => .modifyFlowEntry flow a.1 a.2
      else none
  | groupMod command group =>
      if command = 0 then some fun a => .addGroupEntry group a.1 a.2
      else if command = 1 then some fun _ => .modifyGroupEntry group
      else if command = 2 then some fun _ => .deleteGroupEntry group
      else none
  | meterMod command meterId rate =>
      if command = 0 then some fun a => .addMeterEntry meterId rate a.1
      else if command = 1 then some fun _ => .modifyMeterEntry meterId rate
      else if command = 2 then some fun _ => .deleteMeterEntry meterId
      else none
  | counterMod command counterId =>
      if command = 2 then some fun _ => .counterClear counterId
      else if command = 0 then some fun a => .counterInit counterId a.1
      else if command = 1 then some fun _ => .counterDelete counterId
      else none

/-- The error of a command that is not known. -/
def badCommand : ModMsg → PofError
  | tableMod .. => ⟨.tableModFailed, .poftmfcBadCommand⟩
  | flowMod .. => ⟨.flowModFailed, .poffmfcBadCommand⟩
  | groupMod .. => ⟨.groupModFailed, .pofgmfcBadCommand⟩
  | meterMod .. => ⟨.meterModFailed, .pofmmfcBadCommand⟩
  | counterMod .. => ⟨.counterModFailed, .pofcmfcBadCommand⟩

end ModMsg

/-- The loop over the slots from slot `i` on: `ret` is overwritten for every slot. -/
def eachSlot (call : ℕ × ℕ → LrOp) (alloc : ℕ → ℕ × ℕ) :
    ℕ → Ret → List LocalResource → Option (Ret × List LocalResource)
  | _, ret, [] => some (ret, [])
  | i, _, lr :: slots =>
      ((call (alloc i)).exec lr).bind fun r =>
        (eachSlot call alloc (i + 1) r.1 slots).map fun rest => (rest.1, r.2 :: rest.2)

/-- `pof_parse_msg_from_controller` for these messages; `alloc` has the addresses that `malloc` returns
for each slot. -/
def pofParseMsgFromController (msg : ModMsg) (alloc : ℕ → ℕ × ℕ) (slots : List LocalResource) :
    Option (Ret × List LocalResource) :=
  match msg.call with
  | none => some (.error msg.badCommand, slots)
  | some call => eachSlot call alloc 0 (.ok ()) slots

/-- **A message has one result in slots that store the same.** -/
theorem ModMsg.alike {msg : ModMsg} {call : ℕ × ℕ → LrOp} (hcall : msg.call = some call)
    {lr₁ lr₂ : LocalResource} (h : SameContent lr₁ lr₂) (ha₁ : Addressed lr₁) (ha₂ : Addressed lr₂)
    (a₁ a₂ : ℕ × ℕ) : Option.Rel Alike ((call a₁).exec lr₁) ((call a₂).exec lr₂) := by
  cases msg with
  | tableMod command table =>
      simp only [ModMsg.call] at hcall
      split_ifs at hcall
      · cases hcall
        exact .some (h.createFlowTable table a₁.1 a₂.1)
      · cases hcall
        exact .some (h.deleteFlowTable ha₁ ha₂ table.tid table.type)
  | flowMod command flow =>
      simp only [ModMsg.call] at hcall
      split_ifs at hcall
      · cases hcall
        exact h.addFlowEntry ha₁ ha₂ flow a₁.1 a₂.1 a₁.2 a₂.2
      · cases hcall
        exact .some (h.deleteFlowEntry ha₁ ha₂ flow)
      · cases hcall
        exact h.modifyFlowEntry ha₁ ha₂ flow a₁.1 a₂.1 a₁.2 a₂.2
  | groupMod command group =>
      simp only [ModMsg.call] at hcall
      split_ifs at hcall
      · cases hcall
        exact .some (h.addGroupEntry group a₁.1 a₂.1 a₁.2 a₂.2)
      · cases hcall
        exact .some (h.modifyGroupEntry ha₁ ha₂ group)
      · cases hcall
        exact .some (h.deleteGroupEntry ha₁ ha₂ group)
  | meterMod command meterId rate =>
      simp only [ModMsg.call] at hcall
      split_ifs at hcall
      · cases hcall
        exact .some (h.addMeterEntry meterId rate a₁.1 a₂.1)
      · cases hcall
        exact .some (h.modifyMeterEntry ha₁ ha₂ meterId rate)
      · cases hcall
        exact .some (h.deleteMeterEntry ha₁ ha₂ meterId)
  | counterMod command counterId =>
      simp only [ModMsg.call] at hcall
      split_ifs at hcall
      · cases hcall
        exact .some (h.counterClear ha₁ ha₂ counterId)
      · cases hcall
        exact .some (h.counterInit counterId a₁.1 a₂.1)
      · cases hcall
        exact .some (h.counterDelete ha₁ ha₂ counterId)

section Loop

variable {call : ℕ × ℕ → LrOp} {alloc : ℕ → ℕ × ℕ} {slots slots' : List LocalResource} {ret ret₀ : Ret}

/-- Every slot is left as its own call leaves it. -/
theorem eachSlot_slot {i : ℕ} (h : eachSlot call alloc i ret₀ slots = some (ret, slots')) :
    slots'.length = slots.length ∧ ∀ j lr, slots[j]? = some lr →
      ∃ r lr', (call (alloc (i + j))).exec lr = some (r, lr') ∧ slots'[j]? = some lr' := by
  induction slots generalizing i ret₀ slots' with
  | nil =>
      cases h
      exact ⟨rfl, fun j lr hj => by simp at hj⟩
  | cons lr₀ slots ih =>
      obtain ⟨r, hr, hrest⟩ := Option.bind_eq_some_iff.1 h
      obtain ⟨rest, heach, hpair⟩ := Option.map_eq_some_iff.1 hrest
      obtain ⟨rfl, rfl⟩ := Prod.mk.inj hpair
      obtain ⟨hlength, hslots⟩ := ih heach
      refine ⟨congrArg (· + 1) hlength, ?_⟩
      intro j lr hj
      cases j with
      | zero =>
          obtain rfl := Option.some.inj hj
          exact ⟨r.1, r.2, hr, rfl⟩
      | succ j =>
          rw [show i + (j + 1) = i + 1 + j by omega]
          exact hslots j lr hj

/-- When all calls return the same, the loop returns it. -/
theorem eachSlot_ret {i : ℕ} {r : Ret} (h : eachSlot call alloc i ret₀ slots = some (ret, slots'))
    (hsame : ∀ j lr, slots[j]? = some lr → ∃ lr', (call (alloc (i + j))).exec lr = some (r, lr'))
    (hne : slots = [] → ret₀ = r) : ret = r := by
  induction slots generalizing i ret₀ slots' with
  | nil =>
      cases h
      exact hne rfl
  | cons lr₀ slots ih =>
      obtain ⟨r', hr', hrest⟩ := Option.bind_eq_some_iff.1 h
      obtain ⟨rest, heach, hpair⟩ := Option.map_eq_some_iff.1 hrest
      obtain ⟨rfl, rfl⟩ := Prod.mk.inj hpair
      obtain ⟨lr', hlr'⟩ := hsame 0 lr₀ rfl
      obtain rfl := Option.some.inj (hr'.symm.trans hlr')
      refine ih heach ?_ fun _ => rfl
      intro j lr hj
      rw [show i + 1 + j = i + (j + 1) by omega]
      exact hsame (j + 1) lr hj

end Loop

/-! ### Runs -/

/-- `pofdp_slot_init`: the slots get the same parameters, and the ports found for each of them. -/
def pofdpSlotInit (param : LrConfig) (ports : List (Hmap PortInfo)) : List LocalResource :=
  ports.mapIdx fun i p => pofLocalresourceInit { param with slotID := UInt16.ofNat i, ports := p }

/-- What `malloc` promises for a message, slot by slot. -/
def ModMsg.Fresh (msg : ModMsg) (alloc : ℕ → ℕ × ℕ) (slots : List LocalResource) : Prop :=
  ∀ call, msg.call = some call → ∀ i lr, slots[i]? = some lr → (call (alloc i)).Fresh lr

theorem ModMsg.fresh_of_slots {msg : ModMsg} {alloc : ℕ → ℕ × ℕ} {slots : List LocalResource}
    {call : ℕ × ℕ → LrOp} (hcall : msg.call = some call)
    (h : ∀ p ∈ slots.zipIdx, (call (alloc p.2)).Fresh p.1) : msg.Fresh alloc slots := by
  intro call' hcall' i lr hi
  obtain rfl := Option.some.inj (hcall.symm.trans hcall')
  exact h (lr, i) (List.mem_zipIdx_iff_getElem?.2 hi)

/-- The slots after start-up and any messages, successful or not. -/
inductive SlotsRun : List LocalResource → Prop
  | init (param : LrConfig) (ports : List (Hmap PortInfo)) : SlotsRun (pofdpSlotInit param ports)
  | step {slots slots' : List LocalResource} {msg : ModMsg} {alloc : ℕ → ℕ × ℕ} {ret : Ret} :
      SlotsRun slots → msg.Fresh alloc slots →
      pofParseMsgFromController msg alloc slots = some (ret, slots') → SlotsRun slots'

/-- What is kept: the slots are reachable, and store the same. -/
structure Replicated (slots : List LocalResource) : Prop where
  reachable : ∀ lr ∈ slots, LrReachable lr
  same : ∀ lr₁ ∈ slots, ∀ lr₂ ∈ slots, SameContent lr₁ lr₂

/-- A local resource without what belongs to its slot. -/
def LocalResource.unplaced (lr : LocalResource) : LocalResource :=
  { lr with slotID := 0, portPofIndexMap := Hmap.create 0 }

theorem SameContent.of_unplaced {lr₁ lr₂ : LocalResource} (h : lr₁.unplaced = lr₂.unplaced) :
    SameContent lr₁ lr₂ := by
  have hsame : SameContent lr₁.unplaced lr₂.unplaced := by
    rw [h]
    exact ⟨rfl, rfl, rfl, rfl, rfl, rfl, rfl, rfl, rfl⟩
  exact { hsame with }

/-- The slots at start-up store nothing yet, under the same limits. -/
theorem replicated_init (param : LrConfig) (ports : List (Hmap PortInfo)) :
    Replicated (pofdpSlotInit param ports) := by
  have hslot : ∀ lr ∈ pofdpSlotInit param ports,
      ∃ i p, lr = pofLocalresourceInit { param with slotID := i, ports := p } := by
    intro lr hlr
    obtain ⟨i, hi, rfl⟩ := List.mem_mapIdx.1 hlr
    exact ⟨_, _, rfl⟩
  have hunplaced : ∀ i p, (pofLocalresourceInit { param with slotID := i, ports := p }).unplaced =
      (pofLocalresourceInit { param with slotID := 0, ports := Hmap.create 0 }).unplaced := by
    intro i p
    simp only [pofLocalresourceInit]
    rw [poflrDisableAllPort_frame LocalResource.unplaced _ fun _ _ => rfl,
      poflrDisableAllPort_frame LocalResource.unplaced _ fun _ _ => rfl]
    rfl
  constructor
  · intro lr hlr
    obtain ⟨i, p, rfl⟩ := hslot lr hlr
    exact .init _ trivial
  · intro lr₁ hlr₁ lr₂ hlr₂
    obtain ⟨i₁, p₁, rfl⟩ := hslot lr₁ hlr₁
    obtain ⟨i₂, p₂, rfl⟩ := hslot lr₂ hlr₂
    exact SameContent.of_unplaced ((hunplaced i₁ p₁).trans (hunplaced i₂ p₂).symm)

namespace Replicated

variable {msg : ModMsg} {alloc : ℕ → ℕ × ℕ} {slots slots' : List LocalResource} {ret : Ret}
  {call : ℕ × ℕ → LrOp}

/-- The calls in two slots. -/
theorem alike (h : Replicated slots) (hcall : msg.call = some call) {i₁ i₂ : ℕ}
    {lr₁ lr₂ : LocalResource} (h₁ : slots[i₁]? = some lr₁) (h₂ : slots[i₂]? = some lr₂)
    {r₁ r₂ : Ret × LocalResource} (hr₁ : (call (alloc i₁)).exec lr₁ = some r₁)
    (hr₂ : (call (alloc i₂)).exec lr₂ = some r₂) : Alike r₁ r₂ := by
  have hmem₁ := List.mem_of_getElem? h₁
  have hmem₂ := List.mem_of_getElem? h₂
  have hrel := ModMsg.alike hcall (h.same lr₁ hmem₁ lr₂ hmem₂)
    (addressed_of_reachable (h.reachable lr₁ hmem₁)) (addressed_of_reachable (h.reachable lr₂ hmem₂))
    (alloc i₁) (alloc i₂)
  rw [hr₁, hr₂] at hrel
  cases hrel with
  | some halike => exact halike

/-- Every slot returns what the handler returns. -/
theorem each (h : Replicated slots) (hcall : msg.call = some call)
    (hmsg : pofParseMsgFromController msg alloc slots = some (ret, slots')) {i : ℕ}
    {lr : LocalResource} (hi : slots[i]? = some lr) :
    ∃ lr', (call (alloc i)).exec lr = some (ret, lr') ∧ slots'[i]? = some lr' := by
  simp only [pofParseMsgFromController, hcall] at hmsg
  obtain ⟨-, hslots⟩ := eachSlot_slot hmsg
  simp only [Nat.zero_add] at hslots
  obtain ⟨r, lr', hr, hi'⟩ := hslots i lr hi
  have hret : ret = r := by
    refine eachSlot_ret hmsg ?_ fun hnil => ?_
    · intro j lr₁ hj
      obtain ⟨r₁, lr₁', hr₁, -⟩ := hslots j lr₁ hj
      obtain rfl : r₁ = r := (h.alike hcall hj hi hr₁ hr).1
      rw [Nat.zero_add]
      exact ⟨lr₁', hr₁⟩
    · rw [hnil] at hi
      simp at hi
  exact ⟨lr', hret ▸ hr, hi'⟩

/-- **A message keeps the replicas.** -/
theorem step (h : Replicated slots) (hfresh : msg.Fresh alloc slots)
    (hmsg : pofParseMsgFromController msg alloc slots = some (ret, slots')) : Replicated slots' := by
  cases hcall : msg.call with
  | none =>
      simp only [pofParseMsgFromController, hcall] at hmsg
      cases hmsg
      exact h
  | some call =>
      -- every new slot comes from the slot at its place
      have hslot : ∀ lr' ∈ slots', ∃ i lr, slots[i]? = some lr ∧
          (call (alloc i)).exec lr = some (ret, lr') := by
        intro lr' hlr'
        obtain ⟨i, hi'⟩ := List.mem_iff_getElem?.1 hlr'
        have hlength : slots'.length = slots.length := by
          simp only [pofParseMsgFromController, hcall] at hmsg
          exact (eachSlot_slot hmsg).1
        obtain ⟨hlt, -⟩ := List.getElem?_eq_some_iff.1 hi'
        have hi := List.getElem?_eq_getElem (hlength ▸ hlt)
        obtain ⟨lr'', hexec, hi''⟩ := h.each hcall hmsg hi
        obtain rfl := Option.some.inj (hi'.symm.trans hi'')
        exact ⟨i, _, hi, hexec⟩
      constructor
      · intro lr' hlr'
        obtain ⟨i, lr, hi, hexec⟩ := hslot lr' hlr'
        exact .step (h.reachable lr (List.mem_of_getElem? hi)) (hfresh call hcall i lr hi) hexec trivial
      · intro lr₁' hlr₁' lr₂' hlr₂'
        obtain ⟨i₁, lr₁, hi₁, hexec₁⟩ := hslot lr₁' hlr₁'
        obtain ⟨i₂, lr₂, hi₂, hexec₂⟩ := hslot lr₂' hlr₂'
        exact (h.alike hcall hi₁ hi₂ hexec₁ hexec₂).2

end Replicated

theorem replicated_of_run {slots : List LocalResource} (h : SlotsRun slots) : Replicated slots := by
  induction h with
  | init param ports => exact replicated_init param ports
  | step _ hfresh hmsg ih => exact ih.step hfresh hmsg

/-- **The slots are replicas**: after start-up and any messages, valid or rejected, all slots store the
same; and the result that the handler returns for the next message is that of every slot. -/
theorem slots_replicated {slots : List LocalResource} (h : SlotsRun slots) :
    (∀ lr₁ ∈ slots, ∀ lr₂ ∈ slots, SameContent lr₁ lr₂) ∧
      ∀ (msg : ModMsg) (alloc : ℕ → ℕ × ℕ) (ret : Ret) (slots' : List LocalResource)
        (call : ℕ × ℕ → LrOp), msg.call = some call →
        pofParseMsgFromController msg alloc slots = some (ret, slots') →
        ∀ i lr, slots[i]? = some lr →
          ∃ lr', (call (alloc i)).exec lr = some (ret, lr') ∧ slots'[i]? = some lr' := by
  have hrep := replicated_of_run h
  exact ⟨hrep.same, fun msg alloc ret slots' call hcall hmsg i lr hi => hrep.each hcall hmsg hi⟩

/-- Two slots that have allocated a table and an entry at different addresses. -/
theorem slots_replicated_two : ∃ slots, SlotsRun slots ∧
    (slots.map fun lr => lr.tableIdMap.nodes.map fun t => (t.addr, t.entryMap.nodes.map EntryInfo.addr)) =
      [[(10, [20])], [(11, [21])]] ∧
    ∀ lr₁ ∈ slots, ∀ lr₂ ∈ slots, SameContent lr₁ lr₂ := by
  have hsteps : ((pofParseMsgFromController (.tableMod 0 (oneFieldTable 0 8)) (fun i => (10 + i, 0))
      (pofdpSlotInit smallConfig [Hmap.create 1, Hmap.create 1])).bind fun r =>
        (pofParseMsgFromController (.flowMod 0 (oneFieldEntry 0 8 0 3 [0xA0] [0xF0]))
          (fun i => (20 + i, 30 + i)) r.2).map fun r' =>
            decide ((∀ p ∈ (pofdpSlotInit smallConfig [Hmap.create 1, Hmap.create 1]).zipIdx,
                (LrOp.createFlowTable (oneFieldTable 0 8) (10 + p.2)).Fresh p.1) ∧
              (∀ p ∈ r.2.zipIdx, (LrOp.addFlowEntry (oneFieldEntry 0 8 0 3 [0xA0] [0xF0]) (20 + p.2)
                (30 + p.2)).Fresh p.1) ∧
              (r'.2.map fun lr => lr.tableIdMap.nodes.map fun t =>
                (t.addr, t.entryMap.nodes.map EntryInfo.addr)) = [[(10, [20])], [(11, [21])]])) =
      some true := by
    decide +kernel
  obtain ⟨r, hr, hrest⟩ := Option.bind_eq_some_iff.1 hsteps
  obtain ⟨r', hr', hend⟩ := Option.map_eq_some_iff.1 hrest
  obtain ⟨hfresh, hfresh', haddrs⟩ := of_decide_eq_true hend
  have hrun : SlotsRun r'.2 :=
    ((SlotsRun.init smallConfig _).step (ModMsg.fresh_of_slots rfl hfresh) hr).step
      (ModMsg.fresh_of_slots rfl hfresh') hr'
  exact ⟨r'.2, hrun, haddrs, (slots_replicated hrun).1⟩

end PofSwitch
