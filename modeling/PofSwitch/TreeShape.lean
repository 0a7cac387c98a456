/-
**The shape of the bit tree.**

`tree_nodeInsert` creates every node that is missing on its way, `tree_nodeDelete` gives back the node it
ends in and none above it.  So after the insertion of a prefix two or more nodes away from the tree and
its deletion, nodes without a pointer stay behind, and they stay until the table is cleared.  The lookups
do not see them.

Main definitions:

* `PofSwitch.TreeRun` — the trees that insertions and deletions lead to, with a condition on the deletions;
* `PofSwitch.CutsClean` — a deletion leaves no leaf without a pointer;
* `PofSwitch.churn` — an insertion and the deletion of the same prefix.

Main results:

* `PofSwitch.tight_of_treeRun` — clean deletions keep a pointer in every leaf below the root;
* `PofSwitch.churn_of_treeRun` — **in every run of clean deletions an insertion and its deletion give the
  tree back exactly when at most the last node of the prefix is missing**, and the tree is determined by
  its entries.
-/

import PofSwitch.Tree

set_option relaxedAutoImplicit false
set_option autoImplicit false

namespace PofSwitch

/-! ### Runs -/

/-- The trees that insertions and deletions lead to from a new one, where the deletions meet a
condition. -/
inductive TreeRun (Q : Tree → Buf → UInt32 → Prop) : Tree → Prop
  | create : TreeRun Q treeCreate
  | insert {tree : Tree} (ptr : ℕ) (value : Buf) (bitNum : UInt32) : TreeRun Q tree →
      TreeRun Q (treeNodeInsert tree ptr value bitNum)
  | delete {tree : Tree} (value : Buf) (bitNum : UInt32) : TreeRun Q tree → Q tree value bitNum →
      TreeRun Q (treeNodeDelete tree value bitNum)

/-- The prefix carries no pointer. -/
def CarriesNone (tree : Tree) (value : Buf) (bitNum : UInt32) : Prop :=
  tree.root.get (walkPath bitNum.toNat value) = none

/-- If the deletion gives a leaf back, the node above it is the root, carries a pointer or has another
son. -/
def CutsClean (tree : Tree) (value : Buf) (bitNum : UInt32) : Prop :=
  tree.root.Clean (walkPath bitNum.toNat value)

/-- The prefix is empty, or there is a node for all its bits but the last. -/
def ParentThere (tree : Tree) (value : Buf) (bitNum : UInt32) : Prop :=
  walkPath bitNum.toNat value = [] ∨ tree.root.sub (walkPath bitNum.toNat value).dropLast ≠ .nil

/-- An insertion and the deletion of the same prefix. -/
def churn (tree : Tree) (ptr : ℕ) (value : Buf) (bitNum : UInt32) : Tree :=
  treeNodeDelete (treeNodeInsert tree ptr value bitNum) value bitNum

section Steps

variable {tree : Tree} {ptr : ℕ} {value : Buf} {bitNum : UInt32}

theorem root_treeNodeInsert (h : tree.root ≠ .nil) :
    (treeNodeInsert tree ptr value bitNum).root = tree.root.insert ptr (walkPath bitNum.toNat value) :=
  insertLoop_eq_insert ptr bitNum.toNat value h

theorem root_treeNodeDelete :
    (treeNodeDelete tree value bitNum).root = tree.root.remove (walkPath bitNum.toNat value) := by
  unfold treeNodeDelete
  rw [removeLoop_eq]
  split_ifs with hsub
  · exact (Trie.remove_of_sub hsub).symm
  · rfl
  · contradiction

/-- A deletion is counted where there is a node. -/
theorem count_treeNodeDelete (h : tree.root.sub (walkPath bitNum.toNat value) ≠ .nil) :
    (treeNodeDelete tree value bitNum).count = tree.count - 1 := by
  unfold treeNodeDelete
  rw [removeLoop_eq, if_neg h]

theorem root_churn (h : tree.root ≠ .nil) : (churn tree ptr value bitNum).root =
    (tree.root.insert ptr (walkPath bitNum.toNat value)).remove (walkPath bitNum.toNat value) := by
  rw [churn, root_treeNodeDelete, root_treeNodeInsert h]

theorem count_churn (h : tree.root ≠ .nil) : (churn tree ptr value bitNum).count = tree.count := by
  have hthere : (treeNodeInsert tree ptr value bitNum).root.sub (walkPath bitNum.toNat value) ≠ .nil := by
    have hsub := Trie.sub_insert_append ptr tree.root (walkPath bitNum.toNat value) []
    rw [List.append_nil] at hsub
    rw [root_treeNodeInsert h, hsub]
    exact Trie.insert_ne_nil _ _ _
  rw [churn, count_treeNodeDelete hthere]
  exact UInt32.add_sub_cancel _ _

/-- The tree is given back if its nodes are. -/
theorem churn_eq_iff (h : tree.root ≠ .nil) : churn tree ptr value bitNum = tree ↔
    (tree.root.insert ptr (walkPath bitNum.toNat value)).remove (walkPath bitNum.toNat value) =
      tree.root := by
  rw [← root_churn h]
  constructor
  · intro heq
    rw [heq]
  · intro hroot
    have hcount : (churn tree ptr value bitNum).count = tree.count := count_churn h
    cases hc : churn tree ptr value bitNum with
    | mk root count =>
        rw [hc] at hroot hcount
        cases tree
        cases hroot
        cases hcount
        rfl

end Steps

/-- The root is never freed. -/
theorem root_ne_nil_of_treeRun {Q : Tree → Buf → UInt32 → Prop} {tree : Tree} (h : TreeRun Q tree) :
    tree.root ≠ .nil := by
  induction h with
  | create => simp [treeCreate]
  | insert ptr value bitNum _ ih =>
      rw [root_treeNodeInsert ih]
      exact Trie.insert_ne_nil _ _ _
  | delete value bitNum _ _ ih =>
      rw [root_treeNodeDelete]
      exact Trie.remove_ne_nil ih _

/-- **Clean deletions keep a pointer in every leaf below the root.** -/
theorem tight_of_treeRun {tree : Tree} (h : TreeRun CutsClean tree) : tree.root.Tight := by
  induction h with
  | create => exact Trie.tight_root none
  | insert ptr value bitNum hrun ih =>
      rw [root_treeNodeInsert (root_ne_nil_of_treeRun hrun)]
      exact ih.insert ptr _
  | delete value bitNum _ hclean ih =>
      rw [root_treeNodeDelete]
      exact (ih.remove_iff _).2 hclean

/-- **In every run of clean deletions every leaf below the root carries a pointer, and so it is after one
more deletion exactly if that is clean too.  The insertion of a prefix without a pointer and its deletion
give the tree back, and leave no more nodes, exactly when at most the last node of the prefix is missing.
Trees of such runs with the same entries have the same nodes, whatever was inserted and deleted before.** -/
theorem churn_of_treeRun {tree : Tree} (h : TreeRun CutsClean tree) :
    tree.root.Tight ∧
      (∀ value bitNum, (treeNodeDelete tree value bitNum).root.Tight ↔ CutsClean tree value bitNum) ∧
      (∀ ptr value bitNum, CarriesNone tree value bitNum →
        (churn tree ptr value bitNum = tree ↔ ParentThere tree value bitNum) ∧
        ((churn tree ptr value bitNum).root.size ≤ tree.root.size ↔ ParentThere tree value bitNum)) ∧
      ∀ tree', TreeRun CutsClean tree' → (∀ p, tree'.root.get p = tree.root.get p) →
        tree'.root = tree.root := by
  have htight := tight_of_treeRun h
  have hroot := root_ne_nil_of_treeRun h
  refine ⟨htight, fun value bitNum => ?_, fun ptr value bitNum hnone => ⟨?_, ?_⟩, fun tree' h' hget => ?_⟩
  · rw [root_treeNodeDelete]
    exact htight.remove_iff _
  · rw [churn_eq_iff hroot]
    exact htight.remove_insert_iff hroot hnone ptr
  · rw [root_churn hroot]
    exact htight.size_le_iff hroot hnone ptr
  · exact (tight_of_treeRun h').eq_of_get htight (root_ne_nil_of_treeRun h') hroot hget

/-- The tree with an entry for the prefix `0`. -/
def oneBitTree : Tree := treeNodeInsert treeCreate 1 [0] 1

/-- The prefix `01` is one node away from it. -/
theorem churn_next_to_entry : churn oneBitTree 2 [0x40] 2 = oneBitTree := by
  have hrun : TreeRun CutsClean oneBitTree := TreeRun.create.insert 1 [0] 1
  have hrest := (churn_of_treeRun hrun).2.2.1 2 [0x40] 2 (by unfold CarriesNone; decide +kernel)
  exact hrest.1.2 (Or.inr (by decide +kernel))

/-- In a new tree the prefix `00` leaves a node behind, which is a leaf without a pointer. -/
theorem churn_leaves_node :
    (¬ ∀ tree ptr value bitNum, TreeRun (fun _ _ _ => True) tree → CarriesNone tree value bitNum →
      churn tree ptr value bitNum = tree) ∧
    ¬ ∀ tree, TreeRun (fun _ _ _ => True) tree → tree.root.Tight := by
  constructor
  · intro hall
    exact absurd (hall treeCreate 1 [0] 2 TreeRun.create rfl) (by decide +kernel)
  · intro hall
    have hrun : TreeRun (fun _ _ _ => True) (churn treeCreate 1 [0] 2) :=
      (TreeRun.create.insert 1 [0] 2).delete [0] 2 trivial
    exact hall _ hrun [false] (by simp) (by decide +kernel) (by decide +kernel)

end PofSwitch
