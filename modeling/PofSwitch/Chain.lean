/-
**Chains and buckets.**

Two general facts about intrusive data structures.  A singly linked chain in memory is described
by the list of the addresses on it; what a chain is does not depend on the fields of cells that
are not on it, and unlinking one cell removes one address from the list.  A collection split into
buckets is described by one list, most recent element first: bucket `i` is the sublist of the
elements whose bucket is `i`, and walking the buckets in order visits every element once.

Main definitions:

* `PtrChain` — the chain that starts at an address, as a list of addresses;
* `bucketOrder` — the elements of a list, bucket by bucket.

Main results:

* `PtrChain.unlink_head`, `PtrChain.unlink` — **what unlinking a cell does to a chain**;
* `bucketOrder_perm` — the walk through the buckets is a permutation of the collection;
* `bucketOrder_split` — what the walk visits behind an element: the rest of its bucket and then the
  later buckets.
-/

import Mathlib.Data.List.Find
import Mathlib.Data.List.Perm.Basic
import Mathlib.Data.List.Nodup
import Mathlib.Logic.Function.Basic

set_option relaxedAutoImplicit false
set_option autoImplicit false

/-! ### Chains -/

/-- The chain from `p` along `next`, as the list of its addresses; address `0` ends it. -/
inductive PtrChain (next : ℕ → ℕ) : ℕ → List ℕ → Prop
  | nil : PtrChain next 0 []
  | cons {p : ℕ} {l : List ℕ} : p ≠ 0 → PtrChain next (next p) l → PtrChain next p (p :: l)

namespace PtrChain

variable {next next' : ℕ → ℕ} {p q : ℕ} {l a b : List ℕ}

theorem head_eq (h : PtrChain next p l) : p = l.headD 0 := by
  cases h with
  | nil => rfl
  | cons _ _ => rfl

theorem ne_zero (h : PtrChain next p l) (hq : q ∈ l) : q ≠ 0 := by
  induction h with
  | nil => simp at hq
  | cons hp _ ih =>
      rcases List.mem_cons.1 hq with rfl | hq
      · exact hp
      · exact ih hq

/-- A chain depends on the links of its own cells only. -/
theorem congr (h : PtrChain next p l) (hnext : ∀ q ∈ l, next' q = next q) : PtrChain next' p l := by
  induction h with
  | nil => exact PtrChain.nil
  | @cons p l hp _ ih =>
      refine PtrChain.cons hp ?_
      rw [hnext p List.mem_cons_self]
      exact ih fun q hq => hnext q (List.mem_cons_of_mem _ hq)

/-- There is one chain from an address. -/
theorem unique (h : PtrChain next p l) (h' : PtrChain next p a) : l = a := by
  induction h generalizing a with
  | nil =>
      cases h' with
      | nil => rfl
      | cons hp _ => exact absurd rfl hp
  | cons hp _ ih =>
      cases h' with
      | nil => exact absurd rfl hp
      | cons _ h' => rw [ih h']

/-- The chain behind a cell of the chain. -/
theorem tail (h : PtrChain next p (a ++ q :: b)) : PtrChain next (next q) b := by
  induction a generalizing p with
  | nil =>
      cases h with
      | cons _ h => exact h
  | cons _ a ih =>
      cases h with
      | cons _ h => exact ih h

/-- Unlinking the first cell: the start of the chain is moved behind it. -/
theorem unlink_head (h : PtrChain next p (q :: b)) : PtrChain next (next q) b := tail (a := []) h

/-- Unlinking a later cell `q`: the cell `r` before it is linked to the cell behind it. -/
theorem unlink {r : ℕ} (h : PtrChain next p (a ++ r :: q :: b)) (hnd : (a ++ r :: q :: b).Nodup) :
    PtrChain (Function.update next r (next q)) p (a ++ r :: b) := by
  induction a generalizing p with
  | nil =>
      cases h with
      | cons hp h =>
          refine PtrChain.cons hp ?_
          rw [Function.update_self]
          refine (unlink_head h).congr fun x hx => Function.update_of_ne ?_ _ _
          rintro rfl
          simp only [List.nil_append, List.nodup_cons] at hnd
          exact hnd.1 (List.mem_cons_of_mem _ hx)
  | cons y a ih =>
      cases h with
      | cons hp h =>
          rw [List.cons_append, List.nodup_cons] at hnd
          have hne : y ≠ r := by
            rintro rfl
            exact hnd.1 (by simp)
          refine PtrChain.cons hp ?_
          rw [Function.update_of_ne hne]
          exact ih h hnd.2

end PtrChain

/-! ### Buckets -/

section Buckets

variable {α : Type}

/-- The elements of `l`, bucket by bucket, for `n` buckets. -/
def bucketOrder (f : α → ℕ) (n : ℕ) (l : List α) : List α :=
  (List.range n).flatMap fun i => l.filter fun a => f a = i

theorem bucketOrder_perm_filter (f : α → ℕ) (n : ℕ) (l : List α) :
    (bucketOrder f n l).Perm (l.filter fun a => f a < n) := by
  induction n with
  | zero => simp [bucketOrder]
  | succ n ih =>
      have hlt : (l.filter fun a => f a < n + 1).filter (fun a => f a < n) =
          l.filter fun a => f a < n := by
        rw [List.filter_filter]
        congr 1
        funext a
        simp only [← Bool.decide_and, decide_eq_decide]
        omega
      have hge : (l.filter fun a => f a < n + 1).filter (fun a => !decide (f a < n)) =
          l.filter fun a => f a = n := by
        rw [List.filter_filter]
        congr 1
        funext a
        rw [← decide_not, ← Bool.decide_and, decide_eq_decide]
        omega
      have hsplit := List.filter_append_perm (fun a => decide (f a < n))
        (l.filter fun a => f a < n + 1)
      rw [hlt, hge] at hsplit
      rw [bucketOrder, List.range_succ, List.flatMap_append]
      simp only [List.flatMap_cons, List.flatMap_nil, List.append_nil]
      exact (ih.append_right _).trans hsplit

/-- **The walk through the buckets is a permutation of the collection.** -/
theorem bucketOrder_perm {f : α → ℕ} {n : ℕ} {l : List α} (hf : ∀ a ∈ l, f a < n) :
    (bucketOrder f n l).Perm l := by
  have h := bucketOrder_perm_filter f n l
  rwa [List.filter_eq_self.2 (fun a ha => decide_eq_true (hf a ha))] at h

theorem mem_bucketOrder {f : α → ℕ} {n : ℕ} {l : List α} (hf : ∀ a ∈ l, f a < n) {a : α} :
    a ∈ bucketOrder f n l ↔ a ∈ l := (bucketOrder_perm hf).mem_iff

theorem bucketOrder_filter (f : α → ℕ) (n : ℕ) (l : List α) (q : α → Bool) :
    bucketOrder f n (l.filter q) = (bucketOrder f n l).filter q := by
  rw [bucketOrder, bucketOrder, List.filter_flatMap]
  congr 1
  funext i
  rw [List.filter_filter, List.filter_filter]
  congr 1
  funext a
  rw [Bool.and_comm]

/-- Behind the element `a` the walk visits the rest of its bucket, then the later buckets. -/
theorem bucketOrder_split {f : α → ℕ} {n : ℕ} {l pre rest : List α} {a : α} (hnd : l.Nodup)
    (hf : ∀ a ∈ l, f a < n) (h : bucketOrder f n l = pre ++ a :: rest) :
    ∃ c d, (l.filter fun x => f x = f a) = c ++ a :: d ∧
      rest = d ++ (List.range' (f a + 1) (n - (f a + 1))).flatMap
        fun i => l.filter fun x => f x = i := by
  have hmem : a ∈ l := (mem_bucketOrder hf).1 (by rw [h]; simp)
  have hlt := hf a hmem
  obtain ⟨c, d, hcd⟩ := List.append_of_mem
    (show a ∈ l.filter fun x => f x = f a from List.mem_filter.2 ⟨hmem, by simp⟩)
  refine ⟨c, d, hcd, ?_⟩
  have hrange : List.range n = List.range (f a) ++ f a :: List.range' (f a + 1) (n - (f a + 1)) := by
    have happ := List.range'_append_1 (s := 0) (m := f a) (n := n - f a)
    rw [show f a + (n - f a) = n by omega, show n - f a = n - (f a + 1) + 1 by omega,
      Nat.zero_add, List.range'_succ] at happ
    rw [List.range_eq_range', List.range_eq_range', happ]
  have hwalk := h
  rw [bucketOrder, hrange, List.flatMap_append, List.flatMap_cons, hcd, List.append_assoc,
    ← List.append_assoc, List.cons_append] at hwalk
  -- the walk has no repetition, so it has one decomposition around `a`
  have hnd' : (pre ++ a :: rest).Nodup := h ▸ (bucketOrder_perm hf).nodup_iff.2 hnd
  have hcons := List.nodup_append.1 (hwalk ▸ hnd')
  obtain ⟨_, _, hrest⟩ := (List.append_cons_inj_of_notMem
    (fun hin => hcons.2.2 a hin a List.mem_cons_self rfl)
    (List.nodup_cons.1 hcons.2.1).1).1 hwalk
  exact hrest.symm

end Buckets
