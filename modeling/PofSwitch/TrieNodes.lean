/-
**The nodes of a binary trie.**

`Trie.get` does not see a node without a value.  This module is about the nodes themselves: which of them
an insertion creates and a removal gives back.  A removal gives back the node it ends in and none above
it, so after the removal of a leaf the node above may be a leaf without a value.  A trie is tight if it
has no such leaf below the root.

Main definitions:

* `Trie.sub` — the part of a trie at a bit string; `Trie.isLeaf`, `Trie.size`;
* `Trie.Tight` — every leaf below the root holds a value;
* `Trie.Clean` — a removal at the bit string leaves no leaf without a value.

Main results:

* `Trie.Tight.insert`, `Trie.Tight.remove_iff` — an insertion keeps a trie tight, a removal exactly when
  it is clean;
* `Trie.Tight.remove_insert_iff` — **exactly when an insertion and the removal of the same string give the
  trie back**, and `Trie.Tight.size_le_iff` for the number of nodes;
* `Trie.Tight.eq_of_get` — a tight trie is determined by its values.
-/

import PofSwitch.Trie

set_option relaxedAutoImplicit false
set_option autoImplicit false

namespace Trie

variable {α : Type}

/-! ### Parts of a trie -/

/-- The part of the trie at a bit string, `nil` where there is no node. -/
def sub : Trie α → List Bool → Trie α
  | t, [] => t
  | nil, _ :: _ => nil
  | node _ l _, false :: p => sub l p
  | node _ _ r, true :: p => sub r p

/-- There is a node, and it has no sons. -/
def isLeaf : Trie α → Bool
  | node _ nil nil => true
  | _ => false

/-- The number of nodes. -/
def size : Trie α → ℕ
  | nil => 0
  | node _ l r => size l + size r + 1

@[simp] theorem sub_nil (p : List Bool) : (nil : Trie α).sub p = nil := by
  cases p <;> rfl

@[simp] theorem sub_root (t : Trie α) : t.sub [] = t := by
  cases t <;> rfl

theorem sub_append (t : Trie α) (p q : List Bool) : t.sub (p ++ q) = (t.sub p).sub q := by
  induction p generalizing t with
  | nil => simp
  | cons b p ih =>
      cases t with
      | nil => simp
      | node v l r =>
          cases b with
          | false => exact ih l
          | true => exact ih r

/-- The value at a bit string is the one in the node there. -/
theorem get_eq_get_sub (t : Trie α) (p : List Bool) : t.get p = (t.sub p).get [] := by
  induction p generalizing t with
  | nil => simp
  | cons b p ih =>
      cases t with
      | nil => simp
      | node v l r =>
          cases b with
          | false => exact ih l
          | true => exact ih r

theorem get_eq_none_of_sub {t : Trie α} {p : List Bool} (h : t.sub p = nil) : t.get p = none := by
  rw [get_eq_get_sub, h]
  rfl

theorem isLeaf_iff {t : Trie α} : t.isLeaf = true ↔ ∃ v, t = node v nil nil := by
  constructor
  · intro h
    rcases t with _ | ⟨v, _ | _, _ | _⟩ <;> simp [isLeaf] at h
    exact ⟨v, rfl⟩
  · rintro ⟨v, rfl⟩
    rfl

/-! ### The nodes after an update -/

/-- On the way of an insertion. -/
theorem sub_insert_append (x : α) (t : Trie α) (q s : List Bool) :
    (t.insert x (q ++ s)).sub q = (t.sub q).insert x s := by
  induction q generalizing t with
  | nil => simp
  | cons b q ih =>
      cases t with
      | nil => cases b <;> simpa [insert, sub] using ih nil
      | node v l r =>
          cases b with
          | false => exact ih l
          | true => exact ih r

/-- Off the way of an insertion. -/
theorem sub_insert_of_not_above (x : α) {t : Trie α} {p q : List Bool} (h : ¬ q <+: p) :
    (t.insert x p).sub q = t.sub q := by
  induction q generalizing t p with
  | nil => exact absurd List.nil_prefix h
  | cons c q ih =>
      cases p with
      | nil => cases t <;> cases c <;> simp [insert, sub]
      | cons b p =>
          by_cases hbc : c = b
          · subst hbc
            have hson : ¬ q <+: p := fun hq => h (List.cons_prefix_cons.2 ⟨rfl, hq⟩)
            cases t <;> cases c <;> simp [insert, sub, ih hson]
          · cases t <;> cases b <;> cases c <;> simp_all [insert, sub]

/-- On the way of a removal. -/
theorem sub_removeBelow_append (t : Trie α) (q s : List Bool) :
    (t.removeBelow (q ++ s)).sub q = (t.sub q).removeBelow s := by
  induction q generalizing t with
  | nil => simp
  | cons b q ih =>
      cases t with
      | nil => cases b <;> simp [removeBelow]
      | node v l r =>
          cases b with
          | false => exact ih l
          | true => exact ih r

theorem sub_prune_cons (t : Trie α) (b : Bool) (s : List Bool) : t.prune.sub (b :: s) = t.sub (b :: s) := by
  rcases t with _ | ⟨_ | v, _ | _, _ | _⟩ <;> try rfl
  cases b <;> simp [prune, sub]

/-- Off the way of a removal. -/
theorem sub_removeBelow_of_not_above {t : Trie α} {p q : List Bool} (h : ¬ q <+: p) :
    (t.removeBelow p).sub q = t.sub q := by
  induction q generalizing t p with
  | nil => exact absurd List.nil_prefix h
  | cons c q ih =>
      cases t with
      | nil => cases p <;> simp [removeBelow]
      | node v l r =>
          cases p with
          | nil =>
              rw [removeBelow, sub_prune_cons]
              cases c <;> rfl
          | cons b p =>
              by_cases hbc : c = b
              · subst hbc
                have hson : ¬ q <+: p := fun hq => h (List.cons_prefix_cons.2 ⟨rfl, hq⟩)
                cases c <;> simp [removeBelow, sub, ih hson]
              · cases b <;> cases c <;> simp_all [removeBelow, sub]

/-- Below the root the two removals are the same. -/
theorem remove_eq_removeBelow (t : Trie α) {p : List Bool} (h : p ≠ []) :
    t.remove p = t.removeBelow p := by
  cases p with
  | nil => exact absurd rfl h
  | cons b p => cases t <;> cases b <;> rfl

/-- A removal where there is no node. -/
theorem removeBelow_of_sub {t : Trie α} {p : List Bool} (h : t.sub p = nil) : t.removeBelow p = t := by
  induction p generalizing t with
  | nil =>
      rw [sub_root] at h
      rw [h]
      rfl
  | cons b p ih =>
      cases t with
      | nil => rfl
      | node v l r =>
          cases b with
          | false => exact congrArg (fun s => node v s r) (ih h)
          | true => exact congrArg (fun s => node v l s) (ih h)

theorem remove_of_sub {t : Trie α} {p : List Bool} (h : t.sub p = nil) : t.remove p = t := by
  cases p with
  | nil =>
      rw [sub_root] at h
      rw [h]
      rfl
  | cons b p =>
      rw [remove_eq_removeBelow t (List.cons_ne_nil b p)]
      exact removeBelow_of_sub h

/-! ### Tight tries -/

/-- Every leaf below the root holds a value. -/
def Tight (t : Trie α) : Prop := ∀ p, p ≠ [] → (t.sub p).isLeaf = true → t.get p ≠ none

/-- If the removal at the bit string gives a leaf back, the node above is the root, holds a value or has
another son. -/
def Clean (t : Trie α) (p : List Bool) : Prop :=
  ∀ q b, p = q ++ [b] → (t.sub p).isLeaf = true → q = [] ∨ t.get q ≠ none ∨ t.sub (q ++ [!b]) ≠ nil

theorem tight_root (v : Option α) : (node v nil nil).Tight := by
  intro p hp hleaf
  cases p with
  | nil => exact absurd rfl hp
  | cons b p => cases b <;> simp [sub, isLeaf] at hleaf

/-- The node that an insertion of a longer string passes is not a leaf. -/
theorem isLeaf_insert_cons (x : α) (b : Bool) (s : List Bool) (t : Trie α) :
    (t.insert x (b :: s)).isLeaf = false := by
  have hson : ∀ u : Trie α, u.insert x s ≠ nil := insert_ne_nil x s
  rw [Bool.eq_false_iff]
  intro hleaf
  obtain ⟨v, hv⟩ := isLeaf_iff.1 hleaf
  cases t <;> cases b <;> simp [insert, hson] at hv

/-- **An insertion creates no leaf without a value.** -/
theorem Tight.insert {t : Trie α} (h : t.Tight) (x : α) (p : List Bool) : (t.insert x p).Tight := by
  intro q hq hleaf
  rw [get_insert]
  by_cases hqp : q <+: p
  · obtain ⟨s, rfl⟩ := hqp
    cases s with
    | nil => simp
    | cons b s =>
        rw [sub_insert_append, isLeaf_insert_cons] at hleaf
        cases hleaf
  · rw [sub_insert_of_not_above x hqp] at hleaf
    split_ifs
    · simp
    · exact h q hq hleaf

/-- What is left of a node when something has been removed below one of its sons. -/
theorem sub_removeBelow_parent (t : Trie α) (q s : List Bool) (b : Bool) :
    (t.removeBelow (q ++ b :: s)).sub (q ++ [!b]) = t.sub (q ++ [!b]) := by
  refine sub_removeBelow_of_not_above ?_
  rw [List.prefix_append_right_inj, List.cons_prefix_cons]
  rintro ⟨hb, _⟩
  cases b <;> cases hb

/-- A removal leaves nothing where it gave back a leaf, or where there was nothing. -/
theorem removeBelow_eq_nil_iff {t : Trie α} {p : List Bool} :
    t.removeBelow p = nil ↔ t = nil ∨ p = [] ∧ t.isLeaf = true := by
  cases t with
  | nil => simp [removeBelow]
  | node v l r =>
      rcases p with _ | ⟨_ | _, p⟩ <;> cases l <;> cases r <;> simp [removeBelow, prune, isLeaf]

/-- A node with both sons missing is a leaf. -/
theorem isLeaf_iff_sub {t : Trie α} (b : Bool) :
    t.isLeaf = true ↔ t ≠ nil ∧ t.sub [b] = nil ∧ t.sub [!b] = nil := by
  cases t with
  | nil => simp [isLeaf]
  | node v l r => cases b <;> cases l <;> cases r <;> simp [isLeaf, sub]

/-- A node that loses its only son to a removal is a leaf then. -/
theorem isLeaf_removeBelow_parent {t : Trie α} {q : List Bool} {b : Bool}
    (hleaf : (t.sub (q ++ [b])).isLeaf = true) (hother : t.sub (q ++ [!b]) = nil) :
    ((t.removeBelow (q ++ [b])).sub q).isLeaf = true := by
  rw [isLeaf_iff_sub b, ← sub_append, ← sub_append, sub_removeBelow_parent, hother, sub_removeBelow_append, ne_eq,
    removeBelow_eq_nil_iff]
  obtain ⟨v, hv⟩ := isLeaf_iff.1 hleaf
  rw [sub_append] at hv
  have happend := sub_removeBelow_append t (q ++ [b]) []
  rw [List.append_nil, sub_append t, hv] at happend
  refine ⟨?_, happend, rfl⟩
  rintro (hnil | ⟨hcons, _⟩)
  · rw [hnil] at hv
    simp at hv
  · simp at hcons

/-- A removal that leaves the trie tight was clean. -/
theorem clean_of_tight_remove {t : Trie α} {p : List Bool} (htight : (t.remove p).Tight) : t.Clean p := by
  rintro q b rfl hleaf
  by_contra hnot
  obtain ⟨hq, hnone, hother⟩ : q ≠ [] ∧ t.get q = none ∧ t.sub (q ++ [!b]) = nil := by
    simpa only [not_or, ne_eq, not_not] using hnot
  -- the node above has lost its only son
  refine htight q hq ?_ ?_
  · rw [remove_eq_removeBelow t (by simp)]
    exact isLeaf_removeBelow_parent hleaf hother
  · rw [get_remove, if_neg (by simp), hnone]

/-- The removal at the root leaves the nodes below it. -/
theorem sub_remove_nil (t : Trie α) {q : List Bool} (hq : q ≠ []) : (t.remove []).sub q = t.sub q := by
  cases q with
  | nil => exact absurd rfl hq
  | cons c q => cases t <;> cases c <;> rfl

/-- Where a removal ends there is nothing, or an inner node. -/
theorem isLeaf_removeBelow_nil (t : Trie α) : (t.removeBelow []).isLeaf = false := by
  cases t with
  | nil => rfl
  | node v l r => cases l <;> cases r <;> simp [removeBelow, prune, isLeaf]

/-- A node that a clean removal passes and leaves as a leaf holds a value. -/
theorem Tight.get_of_passed {t : Trie α} (h : t.Tight) {q s : List Bool} {b : Bool}
    (hclean : t.Clean (q ++ b :: s)) (hq : q ≠ [])
    (hleaf : ((t.sub q).removeBelow (b :: s)).isLeaf = true) : t.get q ≠ none := by
  obtain ⟨hne, hson, hother⟩ := (isLeaf_iff_sub b).1 hleaf
  have hother' : t.sub (q ++ [!b]) = nil := by
    rw [← sub_removeBelow_parent t q s b, sub_append, sub_removeBelow_append, hother]
  have hson' := sub_removeBelow_append (t.sub q) [b] s
  rw [List.singleton_append, hson, eq_comm, removeBelow_eq_nil_iff] at hson'
  rcases hson' with hnil | ⟨rfl, hgone⟩
  · -- the son was missing before
    refine h q hq ((isLeaf_iff_sub b).2 ⟨?_, hnil, by rw [← sub_append, hother']⟩)
    intro hnone
    rw [hnone] at hne
    simp [removeBelow] at hne
  · rw [← sub_append] at hgone
    rcases hclean q b rfl hgone with hroot | hval | hsome
    · exact absurd hroot hq
    · exact hval
    · exact absurd hother' hsome

/-- **A clean removal leaves a tight trie tight.** -/
theorem Tight.remove {t : Trie α} (h : t.Tight) {p : List Bool} (hclean : t.Clean p) : (t.remove p).Tight := by
  intro q hq hleaf
  rw [get_remove]
  by_cases hp : p = []
  · subst hp
    rw [sub_remove_nil t hq] at hleaf
    rw [if_neg hq]
    exact h q hq hleaf
  rw [remove_eq_removeBelow t hp] at hleaf
  by_cases hqp : q <+: p
  · obtain ⟨s, rfl⟩ := hqp
    rw [sub_removeBelow_append] at hleaf
    cases s with
    | nil =>
        rw [isLeaf_removeBelow_nil] at hleaf
        cases hleaf
    | cons b s =>
        rw [if_neg (by simp)]
        exact h.get_of_passed hclean hq hleaf
  · rw [sub_removeBelow_of_not_above hqp] at hleaf
    have hne : q ≠ p := fun heq => hqp (heq ▸ List.prefix_rfl)
    rw [if_neg hne]
    exact h q hq hleaf

/-- **The removal from a tight trie leaves it tight exactly when it is clean.** -/
theorem Tight.remove_iff {t : Trie α} (h : t.Tight) (p : List Bool) : (t.remove p).Tight ↔ t.Clean p :=
  ⟨clean_of_tight_remove, h.remove⟩

/-! ### An insertion and its removal -/

/-- Where there is no node, the insertion below a root and the removal give the trie back if the new
node is the only one that was missing. -/
theorem removeBelow_insert_of_sub {x : α} {p : List Bool} {t : Trie α} (h : t.sub p = nil) :
    (t.insert x p).removeBelow p = t ↔ p = [] ∨ t.sub p.dropLast ≠ nil := by
  induction p generalizing t with
  | nil =>
      rw [sub_root] at h
      subst h
      simp [insert, removeBelow, prune]
  | cons b p ih =>
      cases t with
      | nil => cases b <;> simp [insert, removeBelow]
      | node v l r =>
          -- the son decides, or it is the node that was missing
          have hlast : ∀ s : Trie α, (∀ q, (node v l r).sub (b :: q) = s.sub q) →
              ((node v l r).sub (b :: p).dropLast ≠ nil ↔ p = [] ∨ s.sub p.dropLast ≠ nil) := by
            intro s hs
            cases p with
            | nil => simp
            | cons c p => rw [List.dropLast_cons_cons, hs]; simp
          cases b with
          | false =>
              rw [hlast l fun _ => rfl, ← ih h]
              simp [insert, removeBelow]
          | true =>
              rw [hlast r fun _ => rfl, ← ih h]
              simp [insert, removeBelow]

/-- Where there is a node without a value, the insertion and the removal give the trie back if the node
is not a leaf. -/
theorem removeBelow_insert_of_node {x : α} {p : List Bool} {t : Trie α} (h : t.sub p ≠ nil)
    (hget : t.get p = none) : (t.insert x p).removeBelow p = t ↔ (t.sub p).isLeaf = false := by
  induction p generalizing t with
  | nil =>
      cases t with
      | nil => exact absurd rfl h
      | node v l r =>
          obtain rfl : v = none := hget
          cases l <;> cases r <;> simp [insert, removeBelow, prune, isLeaf]
  | cons b p ih =>
      cases t with
      | nil => simp at h
      | node v l r =>
          cases b with
          | false =>
              have hson := ih (t := l) h hget
              simpa [insert, removeBelow, sub] using hson
          | true =>
              have hson := ih (t := r) h hget
              simpa [insert, removeBelow, sub] using hson

/-- **In a tight trie the insertion at a string without a value and the removal there give the trie back,
node for node, exactly when at most the last node of the string was missing.** -/
theorem Tight.remove_insert_iff {t : Trie α} (h : t.Tight) (ht : t ≠ nil) {p : List Bool}
    (hget : t.get p = none) (x : α) :
    (t.insert x p).remove p = t ↔ p = [] ∨ t.sub p.dropLast ≠ nil := by
  by_cases hp : p = []
  · subst hp
    cases t with
    | nil => exact absurd rfl ht
    | node v l r =>
        obtain rfl : v = none := hget
        exact iff_of_true rfl (Or.inl rfl)
  rw [remove_eq_removeBelow _ hp]
  by_cases hsub : t.sub p = nil
  · exact removeBelow_insert_of_sub hsub
  · rw [removeBelow_insert_of_node hsub hget]
    have hleaf : (t.sub p).isLeaf = false := Bool.eq_false_iff.2 fun hleaf => h p hp hleaf hget
    refine iff_of_true hleaf (Or.inr fun hnil => hsub ?_)
    rw [← List.dropLast_append_getLast hp, sub_append, hnil, sub_nil]

/-- The nodes that an insertion and the removal of the same string leave behind. -/
theorem size_le_removeBelow_insert {x : α} {p : List Bool} {t : Trie α} (h : t.sub p = nil) :
    t.size ≤ ((t.insert x p).removeBelow p).size ∧
      (p ≠ [] → t.sub p.dropLast = nil → t.size < ((t.insert x p).removeBelow p).size) := by
  induction p generalizing t with
  | nil =>
      rw [sub_root] at h
      subst h
      simp [insert, removeBelow, prune, size]
  | cons b p ih =>
      cases t with
      | nil => cases b <;> simp [insert, removeBelow, size]
      | node v l r =>
          have hlast : ∀ s : Trie α, (∀ q, (node v l r).sub (b :: q) = s.sub q) →
              (node v l r).sub (b :: p).dropLast = nil → p ≠ [] ∧ s.sub p.dropLast = nil := by
            intro s hs hnil
            cases p with
            | nil => simp at hnil
            | cons c p => exact ⟨List.cons_ne_nil c p, by rwa [List.dropLast_cons_cons, hs] at hnil⟩
          cases b with
          | false =>
              obtain ⟨hle, hlt⟩ := ih (t := l) h
              refine ⟨?_, fun _ hnil => ?_⟩
              · simp only [insert, removeBelow, size]
                omega
              · have hgrow := hlt (hlast l (fun _ => rfl) hnil).1 (hlast l (fun _ => rfl) hnil).2
                simp only [insert, removeBelow, size]
                omega
          | true =>
              obtain ⟨hle, hlt⟩ := ih (t := r) h
              refine ⟨?_, fun _ hnil => ?_⟩
              · simp only [insert, removeBelow, size]
                omega
              · have hgrow := hlt (hlast r (fun _ => rfl) hnil).1 (hlast r (fun _ => rfl) hnil).2
                simp only [insert, removeBelow, size]
                omega

/-- **A tight trie has more nodes afterwards unless it is given back.** -/
theorem Tight.size_le_iff {t : Trie α} (h : t.Tight) (ht : t ≠ nil) {p : List Bool}
    (hget : t.get p = none) (x : α) :
    ((t.insert x p).remove p).size ≤ t.size ↔ p = [] ∨ t.sub p.dropLast ≠ nil := by
  constructor
  · intro hle
    by_contra hnot
    obtain ⟨hp, hnil⟩ : p ≠ [] ∧ t.sub p.dropLast = nil := by simpa only [not_or, ne_eq, not_not] using hnot
    have hsub : t.sub p = nil := by
      rw [← List.dropLast_append_getLast hp, sub_append, hnil, sub_nil]
    rw [remove_eq_removeBelow _ hp] at hle
    exact absurd ((size_le_removeBelow_insert hsub).2 hp hnil) (Nat.not_lt.2 hle)
  · intro hcond
    rw [(h.remove_insert_iff ht hget x).2 hcond]

/-! ### Tight tries and their values -/

/-- A trie in which every leaf holds a value, the root too, has a value if it has a node. -/
theorem exists_get_of_leaves {t : Trie α} (ht : t ≠ nil)
    (h : ∀ p, (t.sub p).isLeaf = true → t.get p ≠ none) : ∃ p, t.get p ≠ none := by
  induction t with
  | nil => exact absurd rfl ht
  | node v l r ihl ihr =>
      by_cases hl : l = nil
      · by_cases hr : r = nil
        · subst hl hr
          exact ⟨[], h [] rfl⟩
        · obtain ⟨p, hp⟩ := ihr hr fun p => h (true :: p)
          exact ⟨true :: p, hp⟩
      · obtain ⟨p, hp⟩ := ihl hl fun p => h (false :: p)
        exact ⟨false :: p, hp⟩

/-- Without leaves that hold nothing, the values determine the nodes. -/
theorem eq_of_get_of_leaves {t t' : Trie α} (h : ∀ p, (t.sub p).isLeaf = true → t.get p ≠ none)
    (h' : ∀ p, (t'.sub p).isLeaf = true → t'.get p ≠ none) (hget : ∀ p, t.get p = t'.get p) : t = t' := by
  induction t generalizing t' with
  | nil =>
      by_contra hne
      obtain ⟨p, hp⟩ := exists_get_of_leaves (Ne.symm hne) h'
      exact hp ((hget p).symm.trans (get_nil p))
  | node v l r ihl ihr =>
      cases t' with
      | nil =>
          obtain ⟨p, hp⟩ := exists_get_of_leaves (by simp) h
          exact absurd ((hget p).trans (get_nil p)) hp
      | node v' l' r' =>
          obtain rfl : v = v' := hget []
          rw [ihl (fun p => h (false :: p)) (fun p => h' (false :: p)) fun p => hget (false :: p),
            ihr (fun p => h (true :: p)) (fun p => h' (true :: p)) fun p => hget (true :: p)]

/-- **A tight trie is determined by its values.** -/
theorem Tight.eq_of_get {t t' : Trie α} (h : t.Tight) (h' : t'.Tight) (ht : t ≠ nil) (ht' : t' ≠ nil)
    (hget : ∀ p, t.get p = t'.get p) : t = t' := by
  cases t with
  | nil => exact absurd rfl ht
  | node v l r =>
      cases t' with
      | nil => exact absurd rfl ht'
      | node v' l' r' =>
          obtain rfl : v = v' := hget []
          have hl : l = l' := eq_of_get_of_leaves (fun p => h (false :: p) (List.cons_ne_nil _ p))
            (fun p => h' (false :: p) (List.cons_ne_nil _ p)) fun p => hget (false :: p)
          have hr : r = r' := eq_of_get_of_leaves (fun p => h (true :: p) (List.cons_ne_nil _ p))
            (fun p => h' (true :: p) (List.cons_ne_nil _ p)) fun p => hget (true :: p)
          rw [hl, hr]

end Trie
