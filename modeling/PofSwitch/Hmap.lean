/-
**The hash map as its users see it.**

All stores of the switch are hash maps of `common/pof_hmap.c`: chained buckets over nodes embedded
in the stored structures.  Seen from outside, such a map is determined by the list of its nodes,
most recently inserted first: a new node is put at the head of its bucket, so a bucket is the
sublist of the nodes that hash into it, a lookup answers with the most recent node of a hash, and
the traversal macro visits the nodes bucket by bucket.  This module defines the map at that level;
`PofSwitch/HmapHeap.lean` has the pointers and shows that they implement it.

A stored structure is a value with the address `malloc` gave it and the hash in its node
(`PofSwitch.HmapNode`).  The counter `n` of the map has 32 bits.

Main definitions:

* `PofSwitch.bucketsNum`, `PofSwitch.hmapHashForUint32`, `PofSwitch.hmapHashForBytes`;
* `PofSwitch.Hmap` with `create`, `nodeInsert`, `nodeDelete`, `nodeGetWithHash`, `order`;
* `PofSwitch.Hmap.Wf` — the number of buckets is a power of two, `n` counts the nodes modulo `2 ^ 32`
  and no node is stored twice;
* `PofSwitch.Hmap.Keyed` — moreover, the hashes are different and below a bound.

Main results:

* `PofSwitch.bucketsNum_eq_two_pow` — **the number of buckets is a power of two for every size**;
* `PofSwitch.Hmap.wf_create`, `Hmap.Wf.nodeInsert`, `Hmap.Wf.nodeDelete`;
* `PofSwitch.Hmap.mem_order` — a traversal visits exactly the stored nodes;
* `PofSwitch.Hmap.Keyed.toNat_n` — a map of fewer than `2 ^ 32` hashes counts its nodes.
-/

import PofSwitch.ByteBits
import PofSwitch.Chain
import Mathlib.Data.List.Perm.Subperm
import Mathlib.Data.Nat.Size

set_option relaxedAutoImplicit false
set_option autoImplicit false

namespace PofSwitch

open Buf

/-! ### The number of buckets -/

/-- `bucketsNum`: the bits of `size / 2` are smeared to the right, then one is added. -/
def bucketsNum (size : UInt32) : UInt32 :=
  let size := size >>> 1
  let size := size ||| size >>> 1
  let size := size ||| size >>> 2
  let size := size ||| size >>> 4
  let size := size ||| size >>> 8
  let size := size ||| size >>> 16
  size + 1

/-- Bit `i` of `t` is set when one of the `w` bits of `s` from `i` on is. -/
def Smeared (s w t : ℕ) : Prop := ∀ i, t.testBit i = true ↔ ∃ j, i ≤ j ∧ j < i + w ∧ s.testBit j = true

theorem Smeared.step {s w : ℕ} {t n : UInt32} (h : Smeared s w t.toNat) (hn : n.toNat % 32 = w) :
    Smeared s (2 * w) (t ||| t >>> n).toNat := by
  intro i
  rw [UInt32.toNat_or, UInt32.toNat_shiftRight, hn, Nat.testBit_or, Nat.testBit_shiftRight,
    Bool.or_eq_true, h i, h (w + i)]
  constructor
  · rintro (⟨j, h₁, h₂, hj⟩ | ⟨j, h₁, h₂, hj⟩)
    · exact ⟨j, h₁, by omega, hj⟩
    · exact ⟨j, by omega, by omega, hj⟩
  · rintro ⟨j, h₁, h₂, hj⟩
    by_cases hw : j < i + w
    · exact Or.inl ⟨j, h₁, hw, hj⟩
    · exact Or.inr ⟨j, by omega, by omega, hj⟩

/-- Smearing over at least the width of the number fills it up to its highest bit. -/
theorem Smeared.eq_two_pow {s w t : ℕ} (h : Smeared s w t) (hs : s < 2 ^ w) :
    t + 1 = 2 ^ s.size := by
  have hpos : 0 < 2 ^ s.size := Nat.two_pow_pos _
  suffices ht : t = 2 ^ s.size - 1 by omega
  refine Nat.eq_of_testBit_eq fun i => ?_
  rw [Nat.testBit_two_pow_sub_one, Bool.eq_iff_iff, h i, decide_eq_true_iff]
  constructor
  · rintro ⟨j, hij, _, hj⟩
    have hjlt := Nat.lt_size.2 (Nat.ge_two_pow_of_testBit hj)
    omega
  · intro hi
    have hsz : s.size ≤ w := Nat.size_le.2 hs
    refine ⟨s.size - 1, by omega, by omega, ?_⟩
    -- the highest bit of `s`
    by_contra hfalse
    have hlt : s < 2 ^ s.size := Nat.lt_size_self s
    have hge : 2 ^ (s.size - 1) ≤ s := Nat.lt_size.1 (by omega)
    have hdiv : s / 2 ^ (s.size - 1) = 1 := by
      refine Nat.div_eq_of_lt_le (by omega) ?_
      rw [Nat.succ_mul, Nat.one_mul, ← Nat.two_mul, ← Nat.pow_succ']
      rwa [show (s.size - 1).succ = s.size by omega]
    rw [Nat.testBit_eq_decide_div_mod_eq, hdiv] at hfalse
    simp at hfalse

/-- **The number of buckets is a power of two, at most `2 ^ 31`, for every size.** -/
theorem bucketsNum_eq_two_pow (size : UInt32) :
    ∃ k, k ≤ 31 ∧ (bucketsNum size).toNat = 2 ^ k := by
  set s := (size >>> 1).toNat with hs
  have hlt : s < 2 ^ 31 := by
    have := size.toNat_lt
    rw [hs, UInt32.toNat_shiftRight, Nat.shiftRight_eq_div_pow, show UInt32.toNat 1 % 32 = 1 from rfl]
    omega
  have h₁ : Smeared s 1 (size >>> 1).toNat := by
    intro i
    constructor
    · intro hi
      exact ⟨i, le_rfl, by omega, hi⟩
    · rintro ⟨j, hij, hji, hj⟩
      rwa [show i = j by omega]
  have h₃₂ := ((((h₁.step (n := 1) rfl).step (n := 2) rfl).step (n := 4) rfl).step
    (n := 8) rfl).step (n := 16) rfl
  have heq := h₃₂.eq_two_pow (lt_of_lt_of_le hlt (Nat.pow_le_pow_right (by omega) (by omega)))
  have hsz : s.size ≤ 31 := Nat.size_le.2 hlt
  have hpow : 2 ^ s.size ≤ 2 ^ 31 := Nat.pow_le_pow_right (by omega) hsz
  refine ⟨s.size, hsz, ?_⟩
  rw [bucketsNum, UInt32.toNat_add, show UInt32.toNat 1 = 1 from rfl, heq]
  exact Nat.mod_eq_of_lt (by omega)

/-! ### Hash values -/

/-- `hmap_hashForLinear`. -/
def hmapHashForLinear (value : UInt32) : UInt32 := value

/-- `hmap_hashForUint32`, with the multiplier `HASH_S`. -/
def hmapHashForUint32 (value : UInt32) : UInt32 :=
  (value + (3 : UInt32) * (value >>> 8) + (7 : UInt32) * (value >>> 16) +
    (13 : UInt32) * (value >>> 24)) * 0x9E3779B9

/-- The word loop of `hmap_hashForBytes`: `k` words from index `p` on. -/
def hashWords (value : Buf) : ℕ → ℕ → UInt32 → UInt32
  | 0, _, hash => hash
  | k + 1, p, hash =>
      hashWords value k (p + 4) (hash ^^^ hmapHashForUint32 (UInt32.ofNat (loadWord value p 4)))

/-- `hmap_hashForBytes`: the hash values of the words of the first `n` bytes, the last word padded
with zeros, combined by exclusive or. -/
def hmapHashForBytes (value : Buf) (n : ℕ) : UInt32 :=
  let hash := hashWords value (n / 4) 0 0
  if n % 4 ≠ 0 then
    hash ^^^ hmapHashForUint32 (UInt32.ofNat (loadWord value (4 * (n / 4)) (n % 4)))
  else hash

/-- A list with different numbers below a bound is not longer than the bound. -/
theorem length_le_of_nodup_lt {α : Type} {f : α → UInt32} {l : List α} {bound : ℕ}
    (hnodup : (l.map f).Nodup) (hlt : ∀ a ∈ l, (f a).toNat < bound) : l.length ≤ bound := by
  have hnodup' : (l.map fun a => (f a).toNat).Nodup := by
    have hinj := hnodup.map (f := UInt32.toNat) fun _ _ => UInt32.toNat_inj.1
    rwa [List.map_map] at hinj
  have hsub : (l.map fun a => (f a).toNat) ⊆ List.range bound := by
    intro k hk
    obtain ⟨a, ha, rfl⟩ := List.mem_map.1 hk
    exact List.mem_range.2 (hlt a ha)
  simpa using (List.subperm_of_subset hnodup' hsub).length_le

/-! ### Maps -/

/-- A structure with an embedded `struct hnode`: the address of the node and the hash in it. -/
class HmapNode (α : Type) where
  /-- The address of the embedded node. -/
  addr : α → ℕ
  /-- The field `hash` of the node. -/
  hash : α → UInt32

open HmapNode

/-- `struct hmap`, with its nodes most recently inserted first. -/
structure Hmap (α : Type) where
  mask : UInt32
  n : UInt32
  nodes : List α

namespace Hmap

section Operations

variable {α : Type}

/-- `hmap_create`. -/
def create (size : UInt32) : Hmap α := { mask := bucketsNum size - 1, n := 0, nodes := [] }

/-- `hmap_nodeInsert`. -/
def nodeInsert (m : Hmap α) (a : α) : Hmap α := { m with n := m.n + 1, nodes := a :: m.nodes }

@[simp] theorem nodes_create (size : UInt32) : (create size : Hmap α).nodes = [] := rfl

@[simp] theorem nodes_nodeInsert (m : Hmap α) (a : α) : (m.nodeInsert a).nodes = a :: m.nodes := rfl

@[simp] theorem mask_nodeInsert (m : Hmap α) (a : α) : (m.nodeInsert a).mask = m.mask := rfl

theorem toNat_mask_create (size : UInt32) :
    (create size : Hmap α).mask.toNat + 1 = (bucketsNum size).toNat := by
  obtain ⟨k, _, hpow⟩ := bucketsNum_eq_two_pow size
  have hpos : 0 < 2 ^ k := Nat.two_pow_pos k
  have hle : (1 : UInt32) ≤ bucketsNum size := by
    rw [UInt32.le_iff_toNat_le, hpow]
    exact hpos
  rw [create, UInt32.toNat_sub_of_le _ _ hle, hpow, show UInt32.toNat 1 = 1 from rfl]
  omega

variable [HmapNode α]

/-- The index of the bucket a hash falls into, `map->mask & hash`. -/
def bucketId (mask hash : UInt32) : ℕ := (mask &&& hash).toNat

/-- `hmap_nodeDelete`: the node at the address is taken out, if it is there. -/
def nodeDelete (m : Hmap α) (p : ℕ) : Hmap α :=
  if m.nodes.any fun a => addr a = p then
    { m with n := m.n - 1, nodes := m.nodes.filter fun a => addr a ≠ p }
  else m

/-- `hmap_nodeGetWithHash`: the first node of the bucket with that hash. -/
def nodeGetWithHash (m : Hmap α) (h : UInt32) : Option α := m.nodes.find? fun a => hash a = h

/-- A write through a pointer to a stored structure, which leaves its node alone. -/
def modify (m : Hmap α) (p : ℕ) (f : α → α) : Hmap α :=
  { m with nodes := m.nodes.map fun a => if addr a = p then f a else a }

/-- The order in which `HMAP_NODES_IN_STRUCT_TRAVERSE` visits the nodes. -/
def order (m : Hmap α) : List α :=
  bucketOrder (fun a => bucketId m.mask (hash a)) (m.mask.toNat + 1) m.nodes

/-- The number of buckets is a power of two, the counter is the number of nodes modulo `2 ^ 32`, and
no address is stored twice. -/
structure Wf (m : Hmap α) : Prop where
  mask_eq : ∃ k, k ≤ 31 ∧ m.mask.toNat + 1 = 2 ^ k
  n_eq : m.n = UInt32.ofNat m.nodes.length
  nodup : (m.nodes.map addr).Nodup

end Operations

section Lemmas

variable {α : Type} [HmapNode α] {m : Hmap α}

theorem bucketId_lt (mask hash : UInt32) : bucketId mask hash < mask.toNat + 1 := by
  rw [bucketId, UInt32.toNat_and]
  exact Nat.lt_succ_of_le Nat.and_le_left

/-- A traversal visits exactly the stored nodes. -/
@[simp] theorem mem_order (m : Hmap α) {a : α} : a ∈ m.order ↔ a ∈ m.nodes :=
  mem_bucketOrder fun _ _ => bucketId_lt _ _

theorem order_perm (m : Hmap α) : m.order.Perm m.nodes :=
  bucketOrder_perm fun _ _ => bucketId_lt _ _

@[simp] theorem nodes_nodeDelete (m : Hmap α) (p : ℕ) :
    (m.nodeDelete p).nodes = m.nodes.filter fun a => addr a ≠ p := by
  unfold nodeDelete
  split_ifs with h
  · rfl
  · refine (List.filter_eq_self.2 fun a ha => ?_).symm
    simp only [List.any_eq_true, not_exists, not_and] at h
    simpa using h a ha

@[simp] theorem mask_nodeDelete (m : Hmap α) (p : ℕ) : (m.nodeDelete p).mask = m.mask := by
  unfold nodeDelete
  split_ifs <;> rfl

theorem wf_create (size : UInt32) : (create size : Hmap α).Wf where
  mask_eq := by
    rw [toNat_mask_create]
    exact bucketsNum_eq_two_pow size
  n_eq := rfl
  nodup := List.nodup_nil

theorem Wf.nodeInsert (h : m.Wf) {a : α} (ha : ∀ b ∈ m.nodes, addr b ≠ addr a) :
    (m.nodeInsert a).Wf where
  mask_eq := h.mask_eq
  n_eq := by
    simp only [Hmap.nodeInsert, h.n_eq, List.length_cons]
    rw [UInt32.ofNat_add]
    rfl
  nodup := by
    rw [nodes_nodeInsert, List.map_cons, List.nodup_cons]
    refine ⟨?_, h.nodup⟩
    rw [List.mem_map]
    rintro ⟨b, hb, hba⟩
    exact ha b hb hba

/-- Among distinct addresses, deleting an address that is stored removes one node. -/
theorem length_filter_addr {l : List α} (hnd : (l.map addr).Nodup) {a : α} (ha : a ∈ l) :
    (l.filter fun b => addr b ≠ addr a).length + 1 = l.length := by
  induction l with
  | nil => simp at ha
  | cons b l ih =>
      rw [List.map_cons, List.nodup_cons] at hnd
      by_cases hb : addr b = addr a
      · have hrest : l.filter (fun c => addr c ≠ addr a) = l := by
          refine List.filter_eq_self.2 fun c hc => ?_
          have hne : addr c ≠ addr a := fun hca => hnd.1 (by
            rw [hb, ← hca]
            exact List.mem_map_of_mem hc)
          simpa using hne
        rw [List.filter_cons_of_neg (by simp [hb]), hrest, List.length_cons]
      · have hal : a ∈ l := by
          rcases List.mem_cons.1 ha with rfl | hal
          · exact absurd rfl hb
          · exact hal
        rw [List.filter_cons_of_pos (by simpa using hb), List.length_cons, List.length_cons,
          ih hnd.2 hal]

theorem Wf.nodeDelete (h : m.Wf) (p : ℕ) : (m.nodeDelete p).Wf where
  mask_eq := by
    rw [mask_nodeDelete]
    exact h.mask_eq
  n_eq := by
    rw [nodes_nodeDelete]
    unfold Hmap.nodeDelete
    split_ifs with hany
    · obtain ⟨a, ha, hap⟩ := List.any_eq_true.1 hany
      have hap : addr a = p := by simpa using hap
      subst hap
      have hlen := length_filter_addr h.nodup ha
      rw [h.n_eq, ← hlen, UInt32.ofNat_add]
      exact UInt32.add_sub_cancel _ _
    · rw [List.filter_eq_self.2, h.n_eq]
      intro a ha
      simp only [List.any_eq_true, not_exists, not_and] at hany
      simpa using hany a ha
  nodup := by
    rw [nodes_nodeDelete]
    exact h.nodup.sublist (List.filter_sublist.map _)

/-! ### Maps with one node for a hash -/

/-- A well-formed map with different hashes, all below a bound. -/
structure Keyed (m : Hmap α) (bound : ℕ) : Prop where
  wf : m.Wf
  nodup_hash : (m.nodes.map HmapNode.hash).Nodup
  hash_lt : ∀ a ∈ m.nodes, (hash a).toNat < bound

theorem keyed_create (size : UInt32) (bound : ℕ) : (create size : Hmap α).Keyed bound where
  wf := wf_create size
  nodup_hash := List.nodup_nil
  hash_lt := by simp

theorem Keyed.nodeInsert {bound : ℕ} (h : m.Keyed bound) {a : α} (ha : ∀ b ∈ m.nodes, addr b ≠ addr a)
    (hget : m.nodeGetWithHash (hash a) = none) (hlt : (hash a).toNat < bound) :
    (m.nodeInsert a).Keyed bound where
  wf := h.wf.nodeInsert ha
  nodup_hash := by
    rw [nodes_nodeInsert, List.map_cons, List.nodup_cons]
    refine ⟨fun hmem => ?_, h.nodup_hash⟩
    obtain ⟨b, hb, hba⟩ := List.mem_map.1 hmem
    exact List.find?_eq_none.1 hget b hb (decide_eq_true hba)
  hash_lt := by
    intro b hb
    rcases List.mem_cons.1 hb with rfl | hb
    · exact hlt
    · exact h.hash_lt b hb

theorem Keyed.nodeDelete {bound : ℕ} (h : m.Keyed bound) (p : ℕ) : (m.nodeDelete p).Keyed bound where
  wf := h.wf.nodeDelete p
  nodup_hash := by
    rw [nodes_nodeDelete]
    exact h.nodup_hash.sublist (List.filter_sublist.map _)
  hash_lt := by
    intro b hb
    rw [nodes_nodeDelete] at hb
    exact h.hash_lt b (List.mem_of_mem_filter hb)

/-- A write that leaves the address and the hash of the node it goes to alone. -/
theorem Keyed.modify {bound p : ℕ} {f : α → α} (h : m.Keyed bound)
    (hf : ∀ a ∈ m.nodes, addr a = p → addr (f a) = addr a ∧ hash (f a) = hash a) :
    (m.modify p f).Keyed bound := by
  have hmap : ∀ {β : Type} (part : α → β), (∀ a ∈ m.nodes, addr a = p → part (f a) = part a) →
      (m.modify p f).nodes.map part = m.nodes.map part := by
    intro β part hpart
    rw [Hmap.modify, List.map_map]
    refine List.map_congr_left fun a ha => ?_
    simp only [Function.comp_apply]
    split_ifs with hap
    · exact hpart a ha hap
    · rfl
  have haddrs := hmap addr fun a ha hap => (hf a ha hap).1
  have hhashes := hmap HmapNode.hash fun a ha hap => (hf a ha hap).2
  refine ⟨⟨h.wf.mask_eq, ?_, ?_⟩, ?_, fun b hb => ?_⟩
  · exact h.wf.n_eq.trans (by rw [Hmap.modify, List.length_map])
  · rw [haddrs]
    exact h.wf.nodup
  · rw [hhashes]
    exact h.nodup_hash
  · obtain ⟨a, ha, hab⟩ := List.mem_map.1 (hhashes ▸ List.mem_map_of_mem hb)
    rw [← hab]
    exact h.hash_lt a ha

/-- A search finds the only element it may find. -/
theorem find?_eq_some_of_unique {β : Type} {l : List β} {p : β → Bool} {b : β} (hb : b ∈ l) (hp : p b = true)
    (hsole : ∀ c ∈ l, p c = true → c = b) : l.find? p = some b := by
  cases hfind : l.find? p with
  | none => exact absurd hp (List.find?_eq_none.1 hfind b hb)
  | some c => rw [hsole c (List.mem_of_find?_eq_some hfind) (List.find?_some hfind)]

/-- What a lookup finds is stored and has the hash. -/
theorem nodeGetWithHash_eq_some {k : UInt32} {a : α} (h : m.nodeGetWithHash k = some a) :
    a ∈ m.nodes ∧ hash a = k := by
  have hfound := List.find?_some h
  exact ⟨List.mem_of_find?_eq_some h, of_decide_eq_true hfound⟩

/-- Two stored nodes are one when their addresses agree, or their hashes. -/
theorem Keyed.addr_eq_iff {bound : ℕ} (h : m.Keyed bound) {a b : α} (ha : a ∈ m.nodes) (hb : b ∈ m.nodes) :
    addr a = addr b ↔ HmapNode.hash a = HmapNode.hash b := by
  constructor
  · intro haddr
    rw [List.inj_on_of_nodup_map h.wf.nodup ha hb haddr]
  · intro hhash
    rw [List.inj_on_of_nodup_map h.nodup_hash ha hb hhash]

/-- A stored node is found by its hash. -/
theorem Keyed.nodeGetWithHash {bound : ℕ} (h : m.Keyed bound) {a : α} (ha : a ∈ m.nodes) :
    m.nodeGetWithHash (hash a) = some a := by
  refine find?_eq_some_of_unique ha (decide_eq_true rfl) fun b hb hhash => ?_
  exact List.inj_on_of_nodup_map h.nodup_hash hb ha (of_decide_eq_true hhash)

/-- The nodes after the removal of a stored node are those with other hashes. -/
theorem Keyed.nodes_nodeDelete_addr {bound : ℕ} (h : m.Keyed bound) {a : α} (ha : a ∈ m.nodes) :
    (m.nodeDelete (addr a)).nodes = m.nodes.filter fun b => HmapNode.hash b ≠ HmapNode.hash a := by
  rw [nodes_nodeDelete]
  refine List.filter_congr fun b hb => ?_
  simp [h.addr_eq_iff hb ha]

/-- What a lookup finds after a write to the nodes at one address. -/
theorem nodeGetWithHash_modify {p : ℕ} {f : α → α} {k : UInt32}
    (hf : ∀ a ∈ m.nodes, addr a = p → hash (f a) = hash a) :
    (m.modify p f).nodeGetWithHash k =
      (m.nodeGetWithHash k).map fun a => if addr a = p then f a else a := by
  unfold nodeGetWithHash Hmap.modify
  rw [List.find?_map]
  refine congrArg _ (List.find?_congr fun a ha => ?_)
  rw [Function.comp_apply]
  split_ifs with hap
  · rw [hf a ha hap]
  · rfl

/-- The other hashes are those of other nodes. -/
theorem nodeGetWithHash_modify_ne {a : α} {f : α → α} {bound : ℕ} (h : m.Keyed bound) (ha : a ∈ m.nodes)
    (hf : hash (f a) = hash a) {k : UInt32} (hk : k ≠ hash a) :
    (m.modify (addr a) f).nodeGetWithHash k = m.nodeGetWithHash k := by
  have hsame : ∀ b ∈ m.nodes, addr b = addr a → b = a :=
    fun b hb hba => List.inj_on_of_nodup_map h.wf.nodup hb ha hba
  rw [nodeGetWithHash_modify fun b hb hba => by rw [hsame b hb hba, hf]]
  cases hget : m.nodeGetWithHash k with
  | none => rfl
  | some b =>
      obtain ⟨hb, hbk⟩ := nodeGetWithHash_eq_some hget
      rw [Option.map_some, if_neg fun hba => hk ?_]
      rw [← hbk, hsame b hb hba]

theorem Keyed.length_le {bound : ℕ} (h : m.Keyed bound) : m.nodes.length ≤ bound :=
  length_le_of_nodup_lt h.nodup_hash h.hash_lt

/-- **A map of fewer than `2 ^ 32` hashes counts its nodes.** -/
theorem Keyed.toNat_n {bound : ℕ} (h : m.Keyed bound) (hbound : bound < 2 ^ 32) :
    m.n.toNat = m.nodes.length := by
  have hle := h.length_le
  rw [h.wf.n_eq]
  exact UInt32.toNat_ofNat_of_lt' (by
    simp only [UInt32.size]
    omega)

/-- The counter after the removal of a stored node. -/
theorem n_nodeDelete {a : α} (ha : a ∈ m.nodes) : (m.nodeDelete (addr a)).n = m.n - 1 := by
  have hany : (m.nodes.any fun b => addr b = addr a) = true :=
    List.any_eq_true.2 ⟨a, ha, decide_eq_true rfl⟩
  rw [Hmap.nodeDelete, if_pos hany]

end Lemmas

end Hmap

end PofSwitch
