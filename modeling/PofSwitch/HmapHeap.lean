/-
**The hash map in memory.**

`common/pof_hmap.c` with its pointers: the bucket array, the nodes embedded in the stored
structures and linked through `next`, and a memory that holds them.  The loops walk the links and
are given fuel; a walk that runs out of it has not returned.  `hmap_nodeDelete` moves a pointer to
a pointer along the chain, which is a slot here: a bucket, or the field `next` of a node.

The traversal macro computes the successor of a node before it runs the loop body.  The body may
take the visited node out of the map and give its memory back, after which that memory may hold
anything.

Main definitions:

* `PofSwitch.HmapMem` with `hmapCreate`, `hmapNodeInsert`, `hmapNodeDelete`,
  `hmapNodeGetWithHash`, `hmapNodeNext`, `hmapNodeFirst`, `hmapTraverse`;
* `PofSwitch.HmapMem.Rep` — the memory implements a map in the sense of `PofSwitch/Hmap.lean`;
* `PofSwitch.HmapRun` — the memories reached by the operations, with the nodes that have been
  inserted and not deleted since, most recent first.

Main results:

* `PofSwitch.HmapMem.Rep.insert`, `Rep.delete`, `Rep.get`, `Rep.traverse` — **the operations
  implement those of the map**;
* `PofSwitch.hmapRun_spec` — what every reached memory satisfies.
-/

import PofSwitch.Hmap

set_option relaxedAutoImplicit false
set_option autoImplicit false

namespace PofSwitch

open HmapNode

/-! ### Memory and operations -/

/-- `struct hnode`.  A pointer is a number, `0` for `NULL`. -/
structure Hnode where
  hash : UInt32
  next : ℕ
deriving DecidableEq, Repr

/-- `struct hmap` with the memory its nodes lie in. -/
structure HmapMem where
  heap : ℕ → Hnode
  buckets : List ℕ
  mask : UInt32
  n : UInt32

/-- Where a `struct hnode **` points: to a bucket, or to the field `next` of a node. -/
inductive Slot
  | bucket (i : ℕ)
  | next (p : ℕ)

namespace HmapMem

/-- The field `next` of every node. -/
def link (st : HmapMem) (p : ℕ) : ℕ := (st.heap p).next

/-- `*pnode`. -/
def load (st : HmapMem) : Slot → ℕ
  | .bucket i => st.buckets.getD i 0
  | .next p => st.link p

/-- `*pnode = q`. -/
def store (st : HmapMem) (s : Slot) (q : ℕ) : HmapMem :=
  match s with
  | .bucket i => { st with buckets := st.buckets.set i q }
  | .next p => { st with heap := Function.update st.heap p { st.heap p with next := q } }

/-- A write of the owner of a node. -/
def write (st : HmapMem) (p : ℕ) (v : Hnode) : HmapMem :=
  { st with heap := Function.update st.heap p v }

end HmapMem

/-- `hmap_create`: the buckets are zeroed. -/
def hmapCreate (heap : ℕ → Hnode) (size : UInt32) : HmapMem where
  heap := heap
  buckets := List.replicate (bucketsNum size).toNat 0
  mask := bucketsNum size - 1
  n := 0

/-- `bucketWithHash`. -/
def bucketWithHash (st : HmapMem) (hash : UInt32) : Slot := .bucket (Hmap.bucketId st.mask hash)

/-- The loop of `hmap_nodeGetWithHash`. -/
def getLoop (st : HmapMem) (hash : UInt32) : ℕ → ℕ → Option ℕ
  | 0, _ => none
  | fuel + 1, node =>
      if node = 0 then some 0
      else if (st.heap node).hash = hash then some node
      else getLoop st hash fuel (st.link node)

/-- `hmap_nodeGetWithHash`. -/
def hmapNodeGetWithHash (fuel : ℕ) (st : HmapMem) (hash : UInt32) : Option ℕ :=
  getLoop st hash fuel (st.load (bucketWithHash st hash))

/-- `hmap_nodeInsert`. -/
def hmapNodeInsert (st : HmapMem) (node : ℕ) : HmapMem :=
  let bkt := bucketWithHash st (st.heap node).hash
  let st₁ := st.store (.next node) (st.load bkt)
  let st₂ := st₁.store bkt node
  { st₂ with n := st₂.n + 1 }

/-- The loop of `hmap_nodeDelete`. -/
def deleteLoop (st : HmapMem) (node : ℕ) : ℕ → Slot → Option HmapMem
  | 0, _ => none
  | fuel + 1, pnode =>
      if st.load pnode = 0 then some st
      else if st.load pnode = node then
        let st' := st.store pnode (st.link node)
        some { st' with n := st'.n - 1 }
      else deleteLoop st node fuel (.next (st.load pnode))

/-- `hmap_nodeDelete`. -/
def hmapNodeDelete (fuel : ℕ) (st : HmapMem) (node : ℕ) : Option HmapMem :=
  deleteLoop st node fuel (bucketWithHash st (st.heap node).hash)

/-- `BUCKETS_TRAVERSE` that returns the first non-empty bucket: `turns` buckets from `start` on. -/
def bucketsTraverse (buckets : List ℕ) : ℕ → ℕ → ℕ
  | 0, _ => 0
  | turns + 1, start =>
      if buckets.getD start 0 ≠ 0 then buckets.getD start 0
      else bucketsTraverse buckets turns (start + 1)

/-- `hmap_nodeFirst`. -/
def hmapNodeFirst (st : HmapMem) : ℕ := bucketsTraverse st.buckets (st.mask.toNat + 1) 0

/-- `hmap_nodeNext`. -/
def hmapNodeNext (st : HmapMem) (node : ℕ) : ℕ :=
  if st.link node ≠ 0 then st.link node
  else
    let start := Hmap.bucketId st.mask (st.heap node).hash + 1
    bucketsTraverse st.buckets (st.mask.toNat + 1 - start) start

/-- `HMAP_NODES_IN_STRUCT_TRAVERSE` from `obj` on.  The body sees its own state and the node; it
leaves the map alone (`none`), or deletes the node and frees it, after which the memory of the node
holds whatever it likes (`some`).  The result lists the nodes the body was run for.  The macro tests
the address of the member, `&((obj)->node)`, and the test is taken as it is meant: the loop ends at
`NULL`. -/
def hmapTraverse {σ : Type} (body : σ → ℕ → σ × Option Hnode) :
    ℕ → σ → HmapMem → ℕ → Option (List ℕ × σ × HmapMem)
  | 0, _, _, _ => none
  | fuel + 1, s, st, obj =>
      if obj = 0 then some ([], s, st)
      else
        let next := hmapNodeNext st obj
        match body s obj with
        | (s', none) => do
            let (visited, r) ← hmapTraverse body fuel s' st next
            return (obj :: visited, r)
        | (s', some junk) => do
            let st' ← hmapNodeDelete (fuel + 1) st obj
            let (visited, r) ← hmapTraverse body fuel s' (st'.write obj junk) next
            return (obj :: visited, r)

/-! ### What the memory represents -/

/-- A node of the map: its address and its hash. -/
structure HnodeRef where
  addr : ℕ
  hash : UInt32
deriving DecidableEq, Repr

instance : HmapNode HnodeRef := ⟨HnodeRef.addr, HnodeRef.hash⟩

/-- The addresses of the nodes in bucket `i`. -/
def bucketAddrs (mask : UInt32) (l : List HnodeRef) (i : ℕ) : List ℕ :=
  (l.filter fun a => Hmap.bucketId mask a.hash = i).map HnodeRef.addr

namespace HmapMem

/-- The memory implements the map `m`: bucket `i` is the start of the chain of the nodes of `m` that
hash into it. -/
structure Rep (st : HmapMem) (m : Hmap HnodeRef) : Prop where
  wf : m.Wf
  mask_eq : st.mask = m.mask
  n_eq : st.n = m.n
  length_eq : st.buckets.length = m.mask.toNat + 1
  hash_eq : ∀ a ∈ m.nodes, (st.heap a.addr).hash = a.hash
  chain : ∀ i < st.buckets.length, PtrChain st.link (st.buckets.getD i 0) (bucketAddrs m.mask m.nodes i)

variable {st : HmapMem} {m : Hmap HnodeRef}

theorem rep_create (heap : ℕ → Hnode) (size : UInt32) :
    (hmapCreate heap size).Rep (Hmap.create size) where
  wf := Hmap.wf_create size
  mask_eq := rfl
  n_eq := rfl
  length_eq := by
    rw [Hmap.toNat_mask_create]
    exact List.length_replicate
  hash_eq := by simp [Hmap.create]
  chain := by
    intro i hi
    have hzero : (hmapCreate heap size).buckets.getD i 0 = 0 := by
      simp only [hmapCreate, List.getD_eq_getElem?_getD, List.getElem?_replicate]
      split <;> rfl
    rw [hzero]
    exact PtrChain.nil

/-! ### Loads and stores -/

@[simp] theorem hash_store (st : HmapMem) (s : Slot) (q x : ℕ) :
    ((st.store s q).heap x).hash = (st.heap x).hash := by
  cases s with
  | bucket i => rfl
  | next p =>
      by_cases hx : x = p
      · subst hx
        simp [store]
      · simp [store, Function.update_of_ne hx]

@[simp] theorem mask_store (st : HmapMem) (s : Slot) (q : ℕ) : (st.store s q).mask = st.mask := by
  cases s <;> rfl

@[simp] theorem n_store (st : HmapMem) (s : Slot) (q : ℕ) : (st.store s q).n = st.n := by
  cases s <;> rfl

@[simp] theorem link_store_bucket (st : HmapMem) (i q : ℕ) :
    (st.store (.bucket i) q).link = st.link := rfl

@[simp] theorem link_store_next (st : HmapMem) (p q : ℕ) :
    (st.store (.next p) q).link = Function.update st.link p q := by
  funext x
  by_cases hx : x = p
  · subst hx
    simp [store, link]
  · simp [store, link, Function.update_of_ne hx]

@[simp] theorem buckets_store_bucket (st : HmapMem) (i q : ℕ) :
    (st.store (.bucket i) q).buckets = st.buckets.set i q := rfl

@[simp] theorem buckets_store_next (st : HmapMem) (p q : ℕ) :
    (st.store (.next p) q).buckets = st.buckets := rfl

@[simp] theorem length_buckets_store (st : HmapMem) (s : Slot) (q : ℕ) :
    (st.store s q).buckets.length = st.buckets.length := by
  cases s with
  | bucket i => exact List.length_set
  | next p => rfl

theorem getD_set (l : List ℕ) (i j q : ℕ) (hi : i < l.length) :
    (l.set i q).getD j 0 = if j = i then q else l.getD j 0 := by
  simp only [List.getD_eq_getElem?_getD, List.getElem?_set]
  by_cases hij : i = j
  · subst hij
    simp [hi]
  · have hji : ¬ j = i := fun h => hij h.symm
    simp [hij, hji]

/-! ### Bucket lists -/

theorem mem_bucketAddrs {mask : UInt32} {l : List HnodeRef} {i p : ℕ} :
    p ∈ bucketAddrs mask l i ↔ ∃ a ∈ l, Hmap.bucketId mask a.hash = i ∧ a.addr = p := by
  simp [bucketAddrs, and_assoc]

theorem bucketAddrs_cons (mask : UInt32) (a : HnodeRef) (l : List HnodeRef) (i : ℕ) :
    bucketAddrs mask (a :: l) i =
      if i = Hmap.bucketId mask a.hash then a.addr :: bucketAddrs mask l i
      else bucketAddrs mask l i := by
  by_cases h : Hmap.bucketId mask a.hash = i
  · rw [if_pos h.symm, bucketAddrs, List.filter_cons_of_pos (by simpa using h)]
    rfl
  · rw [if_neg (fun h' => h h'.symm), bucketAddrs, List.filter_cons_of_neg (by simpa using h)]
    rfl

theorem bucketAddrs_filter (mask : UInt32) (l : List HnodeRef) (p i : ℕ) :
    bucketAddrs mask (l.filter fun a => addr a ≠ p) i = (bucketAddrs mask l i).filter (· ≠ p) := by
  rw [bucketAddrs, bucketAddrs, List.filter_map, List.filter_filter, List.filter_filter]
  congr 2
  funext a
  rw [Bool.and_comm]
  rfl

theorem nodup_bucketAddrs {mask : UInt32} {l : List HnodeRef} (h : (l.map addr).Nodup) (i : ℕ) :
    (bucketAddrs mask l i).Nodup := h.sublist (List.filter_sublist.map _)

/-- An address lies in one bucket only. -/
theorem bucketAddrs_disjoint {mask : UInt32} {l : List HnodeRef} (h : (l.map addr).Nodup)
    {i j p : ℕ} (hi : p ∈ bucketAddrs mask l i) (hj : p ∈ bucketAddrs mask l j) : i = j := by
  obtain ⟨a, ha, rfl, hap⟩ := mem_bucketAddrs.1 hi
  obtain ⟨b, hb, rfl, hbp⟩ := mem_bucketAddrs.1 hj
  have hab : a = b := List.inj_on_of_nodup_map h ha hb (hap.trans hbp.symm)
  rw [hab]

/-! ### Insertion and lookup -/

/-- Memory outside the map may be written. -/
theorem Rep.write (h : st.Rep m) {p : ℕ} (hp : ∀ a ∈ m.nodes, a.addr ≠ p) (v : Hnode) :
    (st.write p v).Rep m where
  wf := h.wf
  mask_eq := h.mask_eq
  n_eq := h.n_eq
  length_eq := h.length_eq
  hash_eq := by
    intro a ha
    have hheap : (st.write p v).heap a.addr = st.heap a.addr := Function.update_of_ne (hp a ha) _ _
    rw [hheap]
    exact h.hash_eq a ha
  chain := by
    intro i hi
    refine (h.chain i hi).congr fun q hq => ?_
    obtain ⟨a, ha, _, rfl⟩ := mem_bucketAddrs.1 hq
    simp only [HmapMem.write, link, Function.update_of_ne (hp a ha)]

theorem bucketId_lt_length (h : st.Rep m) (hash : UInt32) :
    Hmap.bucketId st.mask hash < st.buckets.length := by
  rw [h.length_eq, ← h.mask_eq]
  exact Hmap.bucketId_lt _ _

theorem buckets_nodeInsert (st : HmapMem) (p : ℕ) :
    (hmapNodeInsert st p).buckets =
      st.buckets.set (Hmap.bucketId st.mask (st.heap p).hash) p := rfl

theorem link_nodeInsert (st : HmapMem) (p : ℕ) :
    (hmapNodeInsert st p).link = Function.update st.link p
      (st.buckets.getD (Hmap.bucketId st.mask (st.heap p).hash) 0) :=
  link_store_next st p _

/-- **Inserting a node that is not in the map puts it at the head of its bucket.** -/
theorem Rep.insert (h : st.Rep m) {p : ℕ} (hp₀ : p ≠ 0) (hp : ∀ a ∈ m.nodes, a.addr ≠ p) :
    (hmapNodeInsert st p).Rep (m.nodeInsert ⟨p, (st.heap p).hash⟩) where
  wf := h.wf.nodeInsert hp
  mask_eq := h.mask_eq
  n_eq := by simp [hmapNodeInsert, Hmap.nodeInsert, h.n_eq]
  length_eq := by
    rw [buckets_nodeInsert, List.length_set]
    exact h.length_eq
  hash_eq := by
    intro a ha
    simp only [hmapNodeInsert, hash_store]
    rcases List.mem_cons.1 ha with rfl | ha
    · rfl
    · exact h.hash_eq a ha
  chain := by
    intro i hi
    rw [buckets_nodeInsert, List.length_set] at hi
    have hb := bucketId_lt_length h (st.heap p).hash
    -- the chains there were are untouched by the new link
    have hold : ∀ i < st.buckets.length, PtrChain (hmapNodeInsert st p).link (st.buckets.getD i 0)
        (bucketAddrs m.mask m.nodes i) := by
      intro i hi
      refine (h.chain i hi).congr fun q hq => ?_
      obtain ⟨a, ha, _, rfl⟩ := mem_bucketAddrs.1 hq
      rw [link_nodeInsert, Function.update_of_ne (hp a ha)]
    rw [buckets_nodeInsert, Hmap.nodes_nodeInsert, Hmap.mask_nodeInsert, bucketAddrs_cons,
      getD_set _ _ _ _ hb, ← h.mask_eq]
    by_cases hib : i = Hmap.bucketId st.mask (st.heap p).hash
    · rw [if_pos hib, if_pos hib]
      refine PtrChain.cons hp₀ ?_
      rw [link_nodeInsert, Function.update_self, ← link_nodeInsert, ← hib, h.mask_eq]
      exact hold i hi
    · rw [if_neg hib, if_neg hib, h.mask_eq]
      exact hold i hi

/-- The walk along a chain answers with its first node of that hash. -/
theorem getLoop_chain (st : HmapMem) (hash : UInt32) {p : ℕ} {l : List ℕ} (h : PtrChain st.link p l) :
    ∀ fuel, l.length < fuel →
      getLoop st hash fuel p = some ((l.find? fun q => (st.heap q).hash = hash).getD 0) := by
  induction h with
  | nil =>
      intro fuel hfuel
      obtain ⟨f, rfl⟩ : ∃ f, fuel = f + 1 := ⟨fuel - 1, by omega⟩
      rw [getLoop, if_pos rfl]
      rfl
  | @cons p l hp _ ih =>
      intro fuel hfuel
      obtain ⟨f, rfl⟩ : ∃ f, fuel = f + 1 := ⟨fuel - 1, by omega⟩
      rw [getLoop, if_neg hp]
      by_cases hh : (st.heap p).hash = hash
      · rw [if_pos hh, List.find?_cons_of_pos (by simpa using hh)]
        rfl
      · rw [if_neg hh, List.find?_cons_of_neg (by simpa using hh)]
        exact ih f (by simpa using hfuel)

/-- **A lookup answers with the most recently inserted node of the hash, and with `NULL` when there
is none.** -/
theorem Rep.get (h : st.Rep m) (hash : UInt32) {fuel : ℕ} (hfuel : m.nodes.length < fuel) :
    hmapNodeGetWithHash fuel st hash =
      some (((m.nodeGetWithHash hash).map HnodeRef.addr).getD 0) := by
  have hb := bucketId_lt_length h hash
  have hlen : (bucketAddrs m.mask m.nodes (Hmap.bucketId st.mask hash)).length ≤ m.nodes.length := by
    rw [bucketAddrs, List.length_map]
    exact List.length_filter_le _ _
  rw [hmapNodeGetWithHash, bucketWithHash, load, getLoop_chain st hash (h.chain _ hb) fuel (by omega),
    bucketAddrs, List.find?_map, List.find?_filter, Hmap.nodeGetWithHash, h.mask_eq]
  refine congrArg (fun o => some ((Option.map HnodeRef.addr o).getD 0)) ?_
  refine List.find?_congr fun a ha => ?_
  -- a node with the hash lies in the bucket of the hash
  simp only [Function.comp_apply, h.hash_eq a ha, decide_eq_decide, decide_eq_true_eq]
  exact ⟨fun hh => hh.2, fun hh => ⟨congrArg _ hh, hh⟩⟩

/-! ### Deletion -/

/-- The slot behind the nodes `a` of a chain that starts in the slot `s`. -/
def lastSlot : Slot → List ℕ → Slot
  | s, [] => s
  | _, x :: a => lastSlot (.next x) a

theorem lastSlot_append (s : Slot) (a : List ℕ) (r : ℕ) : lastSlot s (a ++ [r]) = .next r := by
  induction a generalizing s with
  | nil => rfl
  | cons x a ih => exact ih (.next x)

theorem deleteLoop_of_notMem (st : HmapMem) {node : ℕ} :
    ∀ (l : List ℕ) (s : Slot) (fuel : ℕ), PtrChain st.link (st.load s) l → node ∉ l →
      l.length < fuel → deleteLoop st node fuel s = some st := by
  intro l
  induction l with
  | nil =>
      intro s fuel h _ hfuel
      obtain ⟨f, rfl⟩ : ∃ f, fuel = f + 1 := ⟨fuel - 1, by omega⟩
      have hx : st.load s = 0 := h.head_eq
      rw [deleteLoop, if_pos hx]
  | cons x l ih =>
      intro s fuel h hnode hfuel
      obtain ⟨f, rfl⟩ : ∃ f, fuel = f + 1 := ⟨fuel - 1, by omega⟩
      have hx : st.load s = x := h.head_eq
      rw [List.mem_cons, not_or] at hnode
      rw [deleteLoop, hx, if_neg (h.ne_zero List.mem_cons_self), if_neg (Ne.symm hnode.1)]
      exact ih (.next x) f (PtrChain.unlink_head h) hnode.2 (by simpa using hfuel)

/-- The loop stores into the slot before the node. -/
theorem deleteLoop_of_mem (st : HmapMem) {node : ℕ} {b : List ℕ} :
    ∀ (a : List ℕ) (s : Slot) (fuel : ℕ), PtrChain st.link (st.load s) (a ++ node :: b) → node ∉ a →
      a.length < fuel →
      deleteLoop st node fuel s =
        some { st.store (lastSlot s a) (st.link node) with n := st.n - 1 } := by
  intro a
  induction a with
  | nil =>
      intro s fuel h _ hfuel
      obtain ⟨f, rfl⟩ : ∃ f, fuel = f + 1 := ⟨fuel - 1, by omega⟩
      have hx : st.load s = node := h.head_eq
      rw [deleteLoop, hx, if_neg (h.ne_zero List.mem_cons_self), if_pos rfl]
      simp only [n_store, lastSlot]
  | cons x a ih =>
      intro s fuel h hnode hfuel
      obtain ⟨f, rfl⟩ : ∃ f, fuel = f + 1 := ⟨fuel - 1, by omega⟩
      have hx : st.load s = x := h.head_eq
      rw [List.mem_cons, not_or] at hnode
      rw [deleteLoop, hx, if_neg (h.ne_zero List.mem_cons_self), if_neg (Ne.symm hnode.1), lastSlot]
      exact ih (.next x) f (PtrChain.unlink_head h) hnode.2 (by simpa using hfuel)

/-- Storing the successor of `p` into the slot before it takes `p` out of its chain and leaves the
other chains alone. -/
theorem Rep.chain_unlink (h : st.Rep m) {b p : ℕ} {c d : List ℕ} (hb : b < st.buckets.length)
    (hcd : bucketAddrs m.mask m.nodes b = c ++ p :: d) {i : ℕ} (hi : i < st.buckets.length) :
    PtrChain (st.store (lastSlot (.bucket b) c) (st.link p)).link
      ((st.store (lastSlot (.bucket b) c) (st.link p)).buckets.getD i 0)
      ((bucketAddrs m.mask m.nodes i).filter (· ≠ p)) := by
  have hnd : (bucketAddrs m.mask m.nodes b).Nodup := nodup_bucketAddrs h.wf.nodup b
  have hchain := h.chain b hb
  rw [hcd] at hnd hchain
  have hfilter : (c ++ p :: d).filter (· ≠ p) = c ++ d := by
    obtain ⟨_, hnd₂, hdis⟩ := List.nodup_append.1 hnd
    have hc : c.filter (· ≠ p) = c := List.filter_eq_self.2 fun x hx => by
      simpa using hdis x hx p List.mem_cons_self
    have hd : d.filter (· ≠ p) = d := List.filter_eq_self.2 fun x hx => by
      have hne : x ≠ p := fun hxp => (List.nodup_cons.1 hnd₂).1 (hxp ▸ hx)
      simpa using hne
    rw [List.filter_append, List.filter_cons_of_neg (by simp), hc, hd]
  -- another bucket does not hold `p`
  have hother : i ≠ b → (bucketAddrs m.mask m.nodes i).filter (· ≠ p) =
      bucketAddrs m.mask m.nodes i := by
    intro hib
    refine List.filter_eq_self.2 fun x hx => ?_
    have hne : x ≠ p := by
      rintro rfl
      exact hib (bucketAddrs_disjoint h.wf.nodup hx (by rw [hcd]; simp))
    simpa using hne
  rcases List.eq_nil_or_concat c with rfl | ⟨c', r, rfl⟩
  · simp only [lastSlot, link_store_bucket, buckets_store_bucket, getD_set _ _ _ _ hb]
    by_cases hib : i = b
    · subst hib
      rw [if_pos rfl, hcd, hfilter]
      exact PtrChain.unlink_head hchain
    · rw [if_neg hib, hother hib]
      exact h.chain i hi
  · simp only [List.concat_eq_append] at *
    rw [lastSlot_append, link_store_next, buckets_store_next]
    by_cases hib : i = b
    · subst hib
      rw [hcd, hfilter, List.append_assoc]
      rw [List.append_assoc] at hchain hnd
      exact PtrChain.unlink hchain hnd
    · rw [hother hib]
      refine (h.chain i hi).congr fun q hq => Function.update_of_ne ?_ _ _
      rintro rfl
      exact hib (bucketAddrs_disjoint h.wf.nodup hq (by rw [hcd]; simp))

/-- **Deleting a node takes exactly that node out of the map.** -/
theorem Rep.delete (h : st.Rep m) (p : ℕ) :
    ∃ st', (∀ fuel, m.nodes.length < fuel → hmapNodeDelete fuel st p = some st') ∧
      st'.Rep (m.nodeDelete p) := by
  set b := Hmap.bucketId st.mask (st.heap p).hash with hbdef
  have hb : b < st.buckets.length := bucketId_lt_length h _
  have hlen : (bucketAddrs m.mask m.nodes b).length ≤ m.nodes.length := by
    rw [bucketAddrs, List.length_map]
    exact List.length_filter_le _ _
  by_cases hmem : p ∈ bucketAddrs m.mask m.nodes b
  · obtain ⟨a, ha, _, hap⟩ := mem_bucketAddrs.1 hmem
    obtain ⟨c, d, hcd, hpc⟩ := List.eq_append_cons_of_mem hmem
    have hany : (m.nodes.any fun a => addr a = p) = true :=
      List.any_eq_true.2 ⟨a, ha, decide_eq_true hap⟩
    have hchain := h.chain b hb
    rw [hcd] at hchain hlen
    refine ⟨_, fun fuel hfuel => deleteLoop_of_mem st c (.bucket b) fuel hchain hpc
      (by simp only [List.length_append] at hlen; omega), ?_⟩
    constructor
    case wf => exact h.wf.nodeDelete p
    case mask_eq => rw [Hmap.mask_nodeDelete, mask_store, h.mask_eq]
    case n_eq => rw [Hmap.nodeDelete, if_pos hany, h.n_eq]
    case length_eq =>
      rw [Hmap.mask_nodeDelete, ← h.length_eq]
      exact length_buckets_store _ _ _
    case hash_eq =>
      intro a ha
      rw [Hmap.nodes_nodeDelete, List.mem_filter] at ha
      rw [hash_store]
      exact h.hash_eq a ha.1
    case chain =>
      intro i hi
      rw [Hmap.mask_nodeDelete, Hmap.nodes_nodeDelete, bucketAddrs_filter]
      exact h.chain_unlink hb hcd (length_buckets_store st _ _ ▸ hi)
  · have hnot : ∀ a ∈ m.nodes, addr a ≠ p := by
      rintro a ha rfl
      refine hmem (mem_bucketAddrs.2 ⟨a, ha, ?_, rfl⟩)
      rw [hbdef, h.mask_eq]
      exact congrArg _ (h.hash_eq a ha).symm
    have hdel : m.nodeDelete p = m := by
      rw [Hmap.nodeDelete, if_neg]
      simpa using hnot
    refine ⟨st, fun fuel hfuel => deleteLoop_of_notMem st _ (.bucket b) fuel (h.chain b hb) hmem
      (by omega), ?_⟩
    rw [hdel]
    exact h

/-! ### Traversal -/

/-- The first non-empty bucket from `start` on begins with the first node the walk visits there. -/
theorem Rep.bucketsTraverse_eq (h : st.Rep m) :
    ∀ turns start, start + turns ≤ st.buckets.length →
      bucketsTraverse st.buckets turns start =
        (((List.range' start turns).flatMap fun i => m.nodes.filter fun a =>
          Hmap.bucketId m.mask (hash a) = i).map HnodeRef.addr).headD 0 := by
  intro turns
  induction turns with
  | zero => intro start _; rfl
  | succ turns ih =>
      intro start hle
      have hchain := h.chain start (by omega)
      have hhead : st.buckets.getD start 0 = (bucketAddrs m.mask m.nodes start).headD 0 :=
        hchain.head_eq
      rw [bucketsTraverse, List.range'_succ, List.flatMap_cons, List.map_append]
      change (if _ then _ else _) = (bucketAddrs m.mask m.nodes start ++ _).headD 0
      cases hl : bucketAddrs m.mask m.nodes start with
      | nil =>
          rw [hl] at hhead
          rw [if_neg (by simpa using hhead), ih (start + 1) (by omega)]
          rfl
      | cons x l =>
          rw [hl] at hhead hchain
          rw [if_pos (hhead ▸ hchain.ne_zero List.mem_cons_self), hhead]
          rfl

/-- `hmap_nodeFirst` is the first node of the traversal order. -/
theorem Rep.nodeFirst (h : st.Rep m) : hmapNodeFirst st = (m.order.map HnodeRef.addr).headD 0 := by
  rw [hmapNodeFirst, h.mask_eq, h.bucketsTraverse_eq _ _ (by rw [h.length_eq]; omega), Hmap.order,
    bucketOrder, List.range_eq_range']

/-- `hmap_nodeNext` is the successor in the traversal order. -/
theorem Rep.nodeNext (h : st.Rep m) {pre rest : List HnodeRef} {a : HnodeRef}
    (hord : m.order = pre ++ a :: rest) :
    hmapNodeNext st a.addr = (rest.map HnodeRef.addr).headD 0 := by
  have hmem : a ∈ m.nodes := m.mem_order.1 (by rw [hord]; simp)
  obtain ⟨c, d, hcd, hrest⟩ := bucketOrder_split (List.Nodup.of_map _ h.wf.nodup)
    (fun b _ => Hmap.bucketId_lt m.mask (hash b)) hord
  have hlt : Hmap.bucketId m.mask a.hash < st.buckets.length := h.mask_eq ▸ bucketId_lt_length h _
  have hchain := h.chain _ hlt
  have haddrs : bucketAddrs m.mask m.nodes (Hmap.bucketId m.mask a.hash) =
      c.map HnodeRef.addr ++ a.addr :: d.map HnodeRef.addr := by
    rw [bucketAddrs]
    exact (congrArg (List.map HnodeRef.addr) hcd).trans (by simp)
  rw [haddrs] at hchain
  have htail := hchain.tail
  rw [hmapNodeNext, hrest, List.map_append, h.hash_eq a hmem, h.mask_eq]
  cases hd : d.map HnodeRef.addr with
  | nil =>
      rw [hd] at htail
      have hzero : st.link a.addr = 0 := htail.head_eq
      rw [if_neg (by simpa using hzero), List.nil_append]
      simp only
      rw [h.bucketsTraverse_eq _ _ (by rw [h.length_eq] at hlt ⊢; omega)]
      rfl
  | cons x l =>
      rw [hd] at htail
      have hx : st.link a.addr = x := htail.head_eq
      rw [if_pos (hx ▸ htail.ne_zero List.mem_cons_self), hx]
      rfl

/-- The order of the other nodes does not change when a node is deleted. -/
theorem order_nodeDelete (m : Hmap HnodeRef) (p : ℕ) :
    (m.nodeDelete p).order = m.order.filter fun a => addr a ≠ p := by
  rw [Hmap.order, Hmap.order, Hmap.nodes_nodeDelete, Hmap.mask_nodeDelete, bucketOrder_filter]

/-- **The traversal runs its body once for every node the map held at its start, in order, whatever
the body deletes on the way.** -/
theorem Rep.traverse {σ : Type} (body : σ → ℕ → σ × Option Hnode) :
    ∀ (rest pre : List HnodeRef) (st : HmapMem) (m : Hmap HnodeRef) (s : σ), st.Rep m →
      m.order = pre ++ rest →
      ∃ s' st' m', (∀ fuel, rest.length + m.nodes.length < fuel →
          hmapTraverse body fuel s st ((rest.map HnodeRef.addr).headD 0) =
            some (rest.map HnodeRef.addr, s', st')) ∧ st'.Rep m' ∧ m'.nodes.Sublist m.nodes := by
  intro rest
  induction rest with
  | nil =>
      intro pre st m s h _
      refine ⟨s, st, m, fun fuel hfuel => ?_, h, List.Sublist.refl _⟩
      obtain ⟨f, rfl⟩ : ∃ f, fuel = f + 1 := ⟨fuel - 1, by omega⟩
      rfl
  | cons a rest ih =>
      intro pre st m s h hord
      have hmem : a ∈ m.nodes := m.mem_order.1 (by rw [hord]; simp)
      have hne : a.addr ≠ 0 := by
        have hin : a.addr ∈ bucketAddrs m.mask m.nodes (Hmap.bucketId m.mask a.hash) :=
          mem_bucketAddrs.2 ⟨a, hmem, rfl, rfl⟩
        exact (h.chain _ (h.mask_eq ▸ bucketId_lt_length h _)).ne_zero hin
      have hnext := h.nodeNext hord
      simp only [List.map_cons, List.headD_cons, List.length_cons]
      rcases hbody : body s a.addr with ⟨s₁, act⟩
      cases act with
      | none =>
          obtain ⟨s', st', m', hrun, hrep, hsub⟩ := ih (pre ++ [a]) st m s₁ h
            (by rw [hord, List.append_assoc, List.singleton_append])
          refine ⟨s', st', m', fun fuel hfuel => ?_, hrep, hsub⟩
          obtain ⟨f, rfl⟩ : ∃ f, fuel = f + 1 := ⟨fuel - 1, by omega⟩
          rw [hmapTraverse, if_neg hne, hnext]
          simp only [hbody, hrun f (by omega)]
          rfl
      | some junk =>
          obtain ⟨st₁, hdel, hrep₁⟩ := h.delete a.addr
          have hgone : ∀ b ∈ (m.nodeDelete a.addr).nodes, b.addr ≠ a.addr := by
            intro b hb
            rw [Hmap.nodes_nodeDelete, List.mem_filter] at hb
            exact of_decide_eq_true hb.2
          have hlen : (m.nodeDelete a.addr).nodes.length ≤ m.nodes.length := by
            rw [Hmap.nodes_nodeDelete]
            exact List.length_filter_le _ _
          have hord₁ : (m.nodeDelete a.addr).order = pre ++ rest := by
            have hnd : (m.order.map HnodeRef.addr).Nodup :=
              (m.order_perm.map _).nodup_iff.2 h.wf.nodup
            rw [hord, List.map_append, List.map_cons, List.nodup_append, List.nodup_cons] at hnd
            obtain ⟨_, ⟨hnot, _⟩, hdis⟩ := hnd
            rw [order_nodeDelete, hord, List.filter_append, List.filter_cons_of_neg (by simp [addr]),
              List.filter_eq_self.2, List.filter_eq_self.2]
            · intro b hb
              refine decide_eq_true fun hba => hnot ?_
              exact hba ▸ List.mem_map_of_mem hb
            · intro b hb
              refine decide_eq_true fun hba => ?_
              exact hdis _ (List.mem_map_of_mem hb) _ List.mem_cons_self hba
          obtain ⟨s', st', m', hrun, hrep, hsub⟩ := ih pre (st₁.write a.addr junk)
            (m.nodeDelete a.addr) s₁ (hrep₁.write hgone junk) hord₁
          refine ⟨s', st', m', fun fuel hfuel => ?_, hrep, hsub.trans ?_⟩
          · obtain ⟨f, rfl⟩ : ∃ f, fuel = f + 1 := ⟨fuel - 1, by omega⟩
            rw [hmapTraverse, if_neg hne, hnext]
            simp only [hbody, hdel (f + 1) (by omega), Option.bind_eq_bind, Option.bind_some,
              hrun f (by omega)]
            rfl
          · rw [Hmap.nodes_nodeDelete]
            exact List.filter_sublist

end HmapMem

/-! ### Runs -/

/-- The memories reached from `hmap_create` by insertions of nodes that are not in the map, deletions
and writes of the owners to nodes outside the map, with the nodes inserted and not deleted since,
most recent first.  Lookups do not change the memory. -/
inductive HmapRun (size : UInt32) : List HnodeRef → HmapMem → Prop
  | create (heap : ℕ → Hnode) : HmapRun size [] (hmapCreate heap size)
  | write {l : List HnodeRef} {st : HmapMem} {p : ℕ} (v : Hnode) :
      HmapRun size l st → (∀ a ∈ l, a.addr ≠ p) → HmapRun size l (st.write p v)
  | insert {l : List HnodeRef} {st : HmapMem} {p : ℕ} :
      HmapRun size l st → p ≠ 0 → (∀ a ∈ l, a.addr ≠ p) →
      HmapRun size (⟨p, (st.heap p).hash⟩ :: l) (hmapNodeInsert st p)
  | delete {l : List HnodeRef} {st st' : HmapMem} {p fuel : ℕ} :
      HmapRun size l st → hmapNodeDelete fuel st p = some st' →
      HmapRun size (l.filter fun a => a.addr ≠ p) st'

/-- More fuel does not change the result of a deletion. -/
theorem deleteLoop_mono (st : HmapMem) (node : ℕ) :
    ∀ (fuel fuel' : ℕ) (s : Slot) (st' : HmapMem), deleteLoop st node fuel s = some st' → fuel ≤ fuel' →
      deleteLoop st node fuel' s = some st' := by
  intro fuel
  induction fuel with
  | zero =>
      intro _ _ _ h _
      simp [deleteLoop] at h
  | succ fuel ih =>
      intro fuel' s st' h hle
      obtain ⟨f, rfl⟩ : ∃ f, fuel' = f + 1 := ⟨fuel' - 1, by omega⟩
      rw [deleteLoop] at h ⊢
      split_ifs at h ⊢ with h₁ h₂
      · exact h
      · exact h
      · exact ih f _ _ h (by omega)

/-- The memory of a run implements the map of its nodes. -/
theorem HmapRun.rep {size : UInt32} {l : List HnodeRef} {st : HmapMem} (h : HmapRun size l st) :
    ∃ m : Hmap HnodeRef, st.Rep m ∧ m.nodes = l := by
  induction h with
  | create heap => exact ⟨Hmap.create size, HmapMem.rep_create heap size, rfl⟩
  | write v _ hp ih =>
      obtain ⟨m, hrep, rfl⟩ := ih
      exact ⟨m, hrep.write hp v, rfl⟩
  | insert _ hp₀ hp ih =>
      obtain ⟨m, hrep, rfl⟩ := ih
      exact ⟨_, hrep.insert hp₀ hp, rfl⟩
  | @delete _ st st' p fuel _ hdel ih =>
      obtain ⟨m, hrep, rfl⟩ := ih
      obtain ⟨st₁, hdel₁, hrep₁⟩ := hrep.delete p
      have hmore := deleteLoop_mono st p _ _ _ _ hdel (le_max_left fuel (m.nodes.length + 1))
      have heq : st₁ = st' := Option.some.inj ((hdel₁ _ (by omega)).symm.trans hmore)
      exact ⟨_, heq ▸ hrep₁, m.nodes_nodeDelete p⟩

namespace HmapMem

/-- `p` is reachable through the buckets. -/
def Reach (st : HmapMem) (p : ℕ) : Prop :=
  ∃ i < st.buckets.length, ∃ c, PtrChain st.link (st.buckets.getD i 0) c ∧ p ∈ c

/-- What a memory that holds the nodes `l`, most recently inserted first, satisfies. -/
structure Spec (st : HmapMem) (l : List HnodeRef) : Prop where
  /-- The number of buckets is a power of two. -/
  buckets : ∃ k, st.buckets.length = 2 ^ k ∧ st.mask.toNat + 1 = 2 ^ k
  /-- The buckets hold these nodes and no other ones, each of them once. -/
  reach : (l.map HnodeRef.addr).Nodup ∧ ∀ p, st.Reach p ↔ p ∈ l.map HnodeRef.addr
  /-- A node lies in the bucket given by its hash and the mask, and in no other bucket. -/
  bucket : ∀ i < st.buckets.length, ∃ c, PtrChain st.link (st.buckets.getD i 0) c ∧
    ∀ p ∈ c, (st.mask &&& (st.heap p).hash).toNat = i
  /-- The counter is the number of nodes modulo `2 ^ 32`. -/
  n_eq : st.n.toNat = l.length % 2 ^ 32
  /-- A lookup returns the most recently inserted node of the hash, `NULL` if there is none. -/
  get : ∀ hash, ∃ N, ∀ fuel ≥ N, hmapNodeGetWithHash fuel st hash =
    some (((l.find? fun a => a.hash = hash).map HnodeRef.addr).getD 0)
  /-- A deletion returns, and takes out the given node and no other one. -/
  delete : ∀ p, ∃ N st', (∀ fuel ≥ N, hmapNodeDelete fuel st p = some st') ∧
    ∀ q, st'.Reach q ↔ st.Reach q ∧ q ≠ p
  /-- A traversal returns and runs its body once for every node present at its start. -/
  traverse : ∀ (σ : Type) (body : σ → ℕ → σ × Option Hnode) (s : σ), ∃ N visited s' st',
    (∀ fuel ≥ N, hmapTraverse body fuel s st (hmapNodeFirst st) = some (visited, s', st')) ∧
    visited.Perm (l.map HnodeRef.addr)

variable {st : HmapMem} {m : Hmap HnodeRef}

theorem Rep.reach_iff (h : st.Rep m) (p : ℕ) : st.Reach p ↔ p ∈ m.nodes.map HnodeRef.addr := by
  constructor
  · rintro ⟨i, hi, c, hc, hp⟩
    rw [hc.unique (h.chain i hi)] at hp
    obtain ⟨a, ha, _, rfl⟩ := mem_bucketAddrs.1 hp
    exact List.mem_map_of_mem ha
  · intro hp
    obtain ⟨a, ha, rfl⟩ := List.mem_map.1 hp
    have hlt : Hmap.bucketId m.mask a.hash < st.buckets.length := h.mask_eq ▸ bucketId_lt_length h _
    exact ⟨_, hlt, _, h.chain _ hlt, mem_bucketAddrs.2 ⟨a, ha, rfl, rfl⟩⟩

end HmapMem

/-- **Every memory reached from `hmap_create` by the operations of the map has these properties.** -/
theorem hmapRun_spec {size : UInt32} {l : List HnodeRef} {st : HmapMem} (h : HmapRun size l st) :
    st.Spec l := by
  obtain ⟨m, hrep, rfl⟩ := h.rep
  constructor
  case buckets =>
    obtain ⟨k, _, hk⟩ := hrep.wf.mask_eq
    exact ⟨k, hrep.length_eq.trans hk, hrep.mask_eq ▸ hk⟩
  case reach => exact ⟨hrep.wf.nodup, hrep.reach_iff⟩
  case bucket =>
    intro i hi
    refine ⟨_, hrep.chain i hi, fun p hp => ?_⟩
    obtain ⟨a, ha, hai, rfl⟩ := HmapMem.mem_bucketAddrs.1 hp
    rw [hrep.hash_eq a ha, hrep.mask_eq]
    exact hai
  case n_eq =>
    rw [hrep.n_eq, hrep.wf.n_eq]
    exact UInt32.toNat_ofNat'
  case get =>
    intro hash
    exact ⟨m.nodes.length + 1, fun fuel hfuel => hrep.get hash (by omega)⟩
  case delete =>
    intro p
    obtain ⟨st', hdel, hrep'⟩ := hrep.delete p
    refine ⟨m.nodes.length + 1, st', fun fuel hfuel => hdel fuel (by omega), fun q => ?_⟩
    rw [hrep.reach_iff, hrep'.reach_iff, Hmap.nodes_nodeDelete]
    simp only [List.mem_map, List.mem_filter, decide_eq_true_eq]
    constructor
    · rintro ⟨a, ⟨ha, hap⟩, rfl⟩
      exact ⟨⟨a, ha, rfl⟩, hap⟩
    · rintro ⟨⟨a, ha, rfl⟩, hap⟩
      exact ⟨a, ⟨ha, hap⟩, rfl⟩
  case traverse =>
    intro σ body s
    obtain ⟨s', st', _, hrun, _, _⟩ := HmapMem.Rep.traverse body m.order [] st m s hrep rfl
    refine ⟨m.order.length + m.nodes.length + 1, _, s', st', fun fuel hfuel => ?_,
      m.order_perm.map _⟩
    rw [hrep.nodeFirst]
    exact hrun fuel (by omega)

/-- Two nodes of one hash: the lookup finds the second one, deleting it uncovers the first. -/
theorem hmapRun_spec_two : ∃ st : HmapMem, HmapRun 4 [⟨20, 7⟩, ⟨10, 7⟩] st ∧
    st.Spec [⟨20, 7⟩, ⟨10, 7⟩] := by
  have h₀ : HmapRun 4 [] (hmapCreate (fun _ => ⟨7, 0⟩) 4) := HmapRun.create _
  have h₁ := h₀.insert (p := 10) (by decide) (by simp)
  have h₂ := h₁.insert (p := 20) (by decide) (by simp)
  exact ⟨_, h₂, hmapRun_spec h₂⟩

/-- A map with as many nodes as one likes. -/
theorem exists_hmapRun_length (size : UInt32) (k : ℕ) :
    ∃ l st, HmapRun size l st ∧ l.length = k ∧ ∀ a ∈ l, a.addr ≤ k := by
  induction k with
  | zero => exact ⟨[], _, HmapRun.create fun _ => ⟨0, 0⟩, rfl, by simp⟩
  | succ k ih =>
      obtain ⟨l, st, hrun, hlen, hle⟩ := ih
      refine ⟨_, _, hrun.insert (p := k + 1) (by omega) (fun a ha => ?_), ?_, ?_⟩
      · have := hle a ha
        omega
      · rw [List.length_cons, hlen]
      · intro a ha
        rcases List.mem_cons.1 ha with rfl | ha
        · exact le_rfl
        · exact Nat.le_succ_of_le (hle a ha)

/-- The counter has 32 bits: after `2 ^ 32` insertions it is `0`. -/
theorem hmapRun_n_wraps : ¬ ∀ (size : UInt32) (l : List HnodeRef) (st : HmapMem),
    HmapRun size l st → st.n.toNat = l.length := by
  intro hall
  obtain ⟨l, st, hrun, hlen, _⟩ := exists_hmapRun_length 0 (2 ^ 32)
  have hn := hall 0 l st hrun
  have hlt := st.n.toNat_lt
  omega

end PofSwitch
