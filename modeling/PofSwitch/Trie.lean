/-
**Binary tries and longest prefixes.**

A binary trie stores values at bit strings.  It is described by the function `get` from bit strings
to values; insertion and removal update that function at one string, and the walk along a key
collects the value at the longest stored prefix of the key.  Removal frees a node only when it is a
leaf, so a trie may keep nodes without a value: they are invisible to `get`.

Main definitions:

* `Trie`, `Trie.get`, `Trie.insert`, `Trie.remove`, `Trie.walk`;
* `Trie.DepthLe` — no node lies deeper than a bound.

Main results:

* `Trie.get_insert`, `Trie.get_remove` — the two updates;
* `Trie.exists_of_walk_eq_some`, `Trie.walk_eq_none_iff` — **the walk finds the value of the longest stored
  prefix, and nothing exactly when no prefix is stored**.
-/

import Mathlib.Data.List.Infix
import Mathlib.Order.Basic

set_option relaxedAutoImplicit false
set_option autoImplicit false

/-- A binary trie; `nil` is the null pointer. -/
inductive Trie (α : Type)
  | nil
  | node (val : Option α) (left right : Trie α)
deriving DecidableEq, Repr

namespace Trie

variable {α : Type}

/-! ### Operations on bit strings -/

/-- The value at a bit string. -/
def get : Trie α → List Bool → Option α
  | nil, _ => none
  | node v _ _, [] => v
  | node _ l _, false :: p => get l p
  | node _ _ r, true :: p => get r p

/-- Storing a value at a bit string; missing nodes are created on the way. -/
def insert (x : α) : List Bool → Trie α → Trie α
  | [], nil => node (some x) nil nil
  | [], node _ l r => node (some x) l r
  | false :: p, nil => node none (insert x p nil) nil
  | true :: p, nil => node none nil (insert x p nil)
  | false :: p, node v l r => node v (insert x p l) r
  | true :: p, node v l r => node v l (insert x p r)

/-- A node without children is given back. -/
def prune : Trie α → Trie α
  | node none nil nil => nil
  | t => t

/-- Removing the value below the root at a bit string; the node is given back if it is a leaf. -/
def removeBelow : List Bool → Trie α → Trie α
  | _, nil => nil
  | [], node _ l r => prune (node none l r)
  | false :: p, node v l r => node v (removeBelow p l) r
  | true :: p, node v l r => node v l (removeBelow p r)

/-- Removing the value at a bit string; the root stays. -/
def remove : List Bool → Trie α → Trie α
  | _, nil => nil
  | [], node _ l r => node none l r
  | false :: p, node v l r => node v (removeBelow p l) r
  | true :: p, node v l r => node v l (removeBelow p r)

/-- The tree with a function applied to its values. -/
def map {β : Type} (f : α → β) : Trie α → Trie β
  | nil => nil
  | node v l r => node (v.map f) (map f l) (map f r)

theorem map_eq_nil {β : Type} {f : α → β} {t : Trie α} : map f t = nil ↔ t = nil := by
  cases t <;> simp [map]

/-- The last value met on the way along a key. -/
def walk : Trie α → List Bool → Option α
  | nil, _ => none
  | node v _ _, [] => v
  | node v l _, false :: k => (walk l k).or v
  | node v _ r, true :: k => (walk r k).or v

/-! ### The updates -/

@[simp] theorem get_nil (p : List Bool) : (nil : Trie α).get p = none := by
  cases p <;> rfl

theorem get_insert (x : α) (p : List Bool) (t : Trie α) (q : List Bool) :
    (t.insert x p).get q = if q = p then some x else t.get q := by
  induction p generalizing t q with
  | nil =>
      cases t <;> rcases q with _ | ⟨_ | _, q⟩ <;> simp [insert, get]
  | cons b p ih =>
      cases t <;> cases b <;> rcases q with _ | ⟨_ | _, q⟩ <;> simp [insert, get, ih]

theorem get_prune (t : Trie α) (q : List Bool) : t.prune.get q = t.get q := by
  rcases t with _ | ⟨_ | v, _ | _, _ | _⟩ <;> try rfl
  rcases q with _ | ⟨_ | _, q⟩ <;> simp [prune, get]

theorem get_removeBelow (p : List Bool) (t : Trie α) (q : List Bool) :
    (t.removeBelow p).get q = if q = p then none else t.get q := by
  induction p generalizing t q with
  | nil =>
      cases t with
      | nil => simp [removeBelow]
      | node v l r =>
          rw [removeBelow, get_prune]
          rcases q with _ | ⟨_ | _, q⟩ <;> simp [get]
  | cons b p ih =>
      cases t <;> cases b <;> rcases q with _ | ⟨_ | _, q⟩ <;> simp [removeBelow, get, ih]

theorem get_remove (p : List Bool) (t : Trie α) (q : List Bool) :
    (t.remove p).get q = if q = p then none else t.get q := by
  cases t with
  | nil => cases p <;> simp [remove]
  | node v l r =>
      rcases p with _ | ⟨_ | _, p⟩ <;> rcases q with _ | ⟨_ | _, q⟩ <;>
        simp [remove, get, get_removeBelow]

/-- A freshly created node is as good as a missing one. -/
theorem insert_node_nil (x : α) (p : List Bool) :
    (node none nil nil).insert x p = (nil : Trie α).insert x p := by
  rcases p with _ | ⟨_ | _, p⟩ <;> rfl

theorem insert_ne_nil (x : α) (p : List Bool) (t : Trie α) : t.insert x p ≠ nil := by
  cases t <;> rcases p with _ | ⟨_ | _, p⟩ <;> simp [insert]

theorem remove_ne_nil {t : Trie α} (h : t ≠ nil) (p : List Bool) : t.remove p ≠ nil := by
  cases t with
  | nil => exact absurd rfl h
  | node v l r => rcases p with _ | ⟨_ | _, p⟩ <;> simp [remove]

/-! ### Depth -/

/-- No node lies deeper than `n` below the root. -/
def DepthLe : ℕ → Trie α → Prop
  | _, nil => True
  | 0, node _ l r => l = nil ∧ r = nil
  | n + 1, node _ l r => DepthLe n l ∧ DepthLe n r

theorem depthLe_node_nil (n : ℕ) (v : Option α) : DepthLe n (node v nil nil) := by
  cases n with
  | zero => exact ⟨rfl, rfl⟩
  | succ n => exact ⟨by cases n <;> trivial, by cases n <;> trivial⟩

theorem depthLe_nil (n : ℕ) : DepthLe n (nil : Trie α) := by cases n <;> trivial

theorem DepthLe.insert {n : ℕ} {t : Trie α} (h : DepthLe n t) (x : α) {p : List Bool}
    (hp : p.length ≤ n) : DepthLe n (t.insert x p) := by
  induction p generalizing t n with
  | nil =>
      cases t with
      | nil => exact depthLe_node_nil n _
      | node v l r => cases n <;> exact h
  | cons b p ih =>
      obtain ⟨n, rfl⟩ : ∃ k, n = k + 1 := ⟨n - 1, by simp at hp; omega⟩
      have hpn : p.length ≤ n := by simpa using hp
      cases t with
      | nil =>
          cases b with
          | false => exact ⟨ih (depthLe_nil n) hpn, depthLe_nil n⟩
          | true => exact ⟨depthLe_nil n, ih (depthLe_nil n) hpn⟩
      | node v l r =>
          cases b with
          | false => exact ⟨ih h.1 hpn, h.2⟩
          | true => exact ⟨h.1, ih h.2 hpn⟩

theorem DepthLe.prune {n : ℕ} {t : Trie α} (h : DepthLe n t) : DepthLe n t.prune := by
  rcases t with _ | ⟨_ | v, _ | _, _ | _⟩ <;> first | exact h | exact depthLe_nil n

theorem DepthLe.removeBelow {n : ℕ} {t : Trie α} (h : DepthLe n t) (p : List Bool) :
    DepthLe n (t.removeBelow p) := by
  induction p generalizing t n with
  | nil =>
      cases t with
      | nil => exact h
      | node v l r =>
          refine DepthLe.prune ?_
          cases n <;> exact h
  | cons b p ih =>
      cases t with
      | nil => exact h
      | node v l r =>
          cases n with
          | zero =>
              obtain ⟨rfl, rfl⟩ := h
              cases b <;> cases p <;> exact ⟨rfl, rfl⟩
          | succ n =>
              cases b with
              | false => exact ⟨ih h.1, h.2⟩
              | true => exact ⟨h.1, ih h.2⟩

theorem DepthLe.remove {n : ℕ} {t : Trie α} (h : DepthLe n t) (p : List Bool) :
    DepthLe n (t.remove p) := by
  cases t with
  | nil => cases p <;> exact h
  | node v l r =>
      cases p with
      | nil => cases n <;> exact h
      | cons b p =>
          have hbelow := h.removeBelow (b :: p)
          cases b <;> simpa only [Trie.remove, Trie.removeBelow] using hbelow

/-! ### Longest prefixes -/

theorem get_eq_none_of_walk {t : Trie α} {k : List Bool} (h : t.walk k = none) {p : List Bool}
    (hp : p <+: k) : t.get p = none := by
  induction k generalizing t p with
  | nil =>
      obtain rfl := List.prefix_nil.1 hp
      cases t with
      | nil => rfl
      | node v l r => exact h
  | cons b k ih =>
      cases t with
      | nil => exact get_nil p
      | node v l r =>
          rcases p with _ | ⟨c, p⟩
          · cases b <;> exact (Option.or_eq_none_iff.1 h).2
          · obtain ⟨rfl, hpk⟩ := List.cons_prefix_cons.1 hp
            cases c <;> exact ih (Option.or_eq_none_iff.1 h).1 hpk

/-- The walk finds nothing exactly when no prefix of the key is stored. -/
theorem walk_eq_none_iff {t : Trie α} {k : List Bool} :
    t.walk k = none ↔ ∀ p, p <+: k → t.get p = none := by
  refine ⟨fun h p hp => get_eq_none_of_walk h hp, ?_⟩
  intro h
  induction k generalizing t with
  | nil =>
      cases t with
      | nil => rfl
      | node v l r => exact h [] List.prefix_rfl
  | cons b k ih =>
      cases t with
      | nil => rfl
      | node v l r =>
          have hroot : v = none := h [] (List.nil_prefix)
          cases b with
          | false =>
              refine Option.or_eq_none_iff.2 ⟨ih fun p hp => ?_, hroot⟩
              exact h (false :: p) (List.cons_prefix_cons.2 ⟨rfl, hp⟩)
          | true =>
              refine Option.or_eq_none_iff.2 ⟨ih fun p hp => ?_, hroot⟩
              exact h (true :: p) (List.cons_prefix_cons.2 ⟨rfl, hp⟩)

/-- **The walk finds the value of the longest stored prefix.** -/
theorem exists_of_walk_eq_some {t : Trie α} {k : List Bool} {x : α} (h : t.walk k = some x) :
    ∃ p, p <+: k ∧ t.get p = some x ∧ ∀ q, q <+: k → t.get q ≠ none → q.length ≤ p.length := by
  induction k generalizing t with
  | nil =>
      cases t with
      | nil => simp [walk] at h
      | node v l r =>
          refine ⟨[], List.prefix_rfl, h, fun q hq _ => ?_⟩
          rw [List.prefix_nil.1 hq]
  | cons b k ih =>
      cases t with
      | nil => simp [walk] at h
      | node v l r =>
          -- the subtree the key goes into, in both cases
          have key : ∀ s : Trie α, (∀ p, (node v l r).get (b :: p) = s.get p) →
              (s.walk k).or v = some x →
              ∃ p, p <+: b :: k ∧ (node v l r).get p = some x ∧
                ∀ q, q <+: b :: k → (node v l r).get q ≠ none → q.length ≤ p.length := by
            intro s hs hor
            cases hw : s.walk k with
            | none =>
                refine ⟨[], List.nil_prefix, by rw [hw] at hor; exact hor, fun q hq hne => ?_⟩
                rcases q with _ | ⟨c, q⟩
                · exact le_rfl
                · obtain ⟨rfl, hqk⟩ := List.cons_prefix_cons.1 hq
                  rw [hs] at hne
                  exact absurd (get_eq_none_of_walk hw hqk) hne
            | some y =>
                rw [hw, Option.some_or, Option.some.injEq] at hor
                obtain ⟨p, hp, hget, hmax⟩ := ih (hw.trans (congrArg some hor))
                refine ⟨b :: p, List.cons_prefix_cons.2 ⟨rfl, hp⟩, by rw [hs, hget], ?_⟩
                intro q hq hne
                rcases q with _ | ⟨c, q⟩
                · simp
                · obtain ⟨rfl, hqk⟩ := List.cons_prefix_cons.1 hq
                  rw [hs] at hne
                  have hle := hmax q hqk hne
                  simpa using hle
          cases b with
          | false => exact key l (fun _ => rfl) h
          | true => exact key r (fun _ => rfl) h

end Trie
