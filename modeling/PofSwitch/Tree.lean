/-
**The bit tree of `common/pof_tree.c`.**

The tree that carries longest-prefix matching.  It is addressed by a byte buffer: the leading bit
decides between the two sons, then the whole buffer is shifted left by one bit over the bytes that
still matter (`moveLeft`).  The number of bits left is a 32-bit counter; the lookup decrements it
once more at its last node, where it may wrap.

Main definitions:

* `PofSwitch.moveLeft`, `PofSwitch.toLeft` — the addressing;
* `PofSwitch.Tree` with `treeNodeInsert`, `treeNodeDelete`, `treeNodeLookup`;
* `PofSwitch.walkPath`, `PofSwitch.bitPath` — the sons that a walk takes, and the first bits of a buffer as
  a bit string.

Main results:

* `PofSwitch.bit_moveLeft` — a shift moves every bit that still matters one place forward;
* `PofSwitch.insertLoop_eq_insert`, `PofSwitch.removeLoop_eq` — the walks insert and remove at the sons
  they take, whatever the buffer;
* `PofSwitch.insertLoop_eq`, `PofSwitch.removeLoop_eq_some`, `PofSwitch.lookupLoop_eq` — **the three
  walks are insertion, removal and longest-prefix walk of the trie at the path of the buffer**.
-/

import PofSwitch.ByteBits
import PofSwitch.TrieNodes

set_option relaxedAutoImplicit false
set_option autoImplicit false

namespace PofSwitch

open Buf

/-! ### Addressing -/

/-- The loop of `moveLeft`: bytes `i`, …, `i + n - 1` take over the leading bit of the next byte. -/
def shiftLoop : ℕ → ℕ → Buf → Buf
  | 0, _, value => value
  | n + 1, i, value =>
      shiftLoop n (i + 1)
        (value.wr i (u8 ((value.rd i).toNat <<< 1 ||| (value.rd (i + 1)).toNat >>> 7)))

/-- `moveLeft`. -/
def moveLeft (value : Buf) (bitNum : UInt32) : Buf :=
  if bitNum = 0 then value
  else
    let n := ((bitNum + 7) / 8 - 1).toNat
    let shifted := shiftLoop n 0 value
    shifted.wr n (u8 ((shifted.rd n).toNat <<< 1))

/-- `toLeft`. -/
def toLeft (value : Buf) : Bool := (value.rd 0).toNat &&& 0x80 ≠ 0x80

/-! ### The tree -/

/-- `struct tree`: the root, whose nodes hold the address of a flow entry, and a counter. -/
structure Tree where
  root : Trie ℕ
  count : UInt32
deriving DecidableEq, Repr

/-- `tree_create`. -/
def treeCreate : Tree := { root := .node none .nil .nil, count := 0 }

/-- `if(!(*node)) *node = tree_nodeCreate();` -/
def orCreate : Trie ℕ → Trie ℕ
  | .nil => .node none .nil .nil
  | t => t

/-- The loop of `tree_nodeInsert` below `*node`, then `(*node)->ptr = ptr`. -/
def insertLoop (ptr : ℕ) : ℕ → Trie ℕ → Buf → Trie ℕ
  | _, .nil, _ => .nil
  | 0, .node _ l r, _ => .node (some ptr) l r
  | b + 1, .node v l r, value =>
      let value' := moveLeft value (UInt32.ofNat (b + 1))
      if toLeft value then .node v (insertLoop ptr b (orCreate l) value') r
      else .node v l (insertLoop ptr b (orCreate r) value')

/-- `tree_nodeInsert`. -/
def treeNodeInsert (tree : Tree) (ptr : ℕ) (value : Buf) (bitNum : UInt32) : Tree :=
  { root := insertLoop ptr bitNum.toNat tree.root value, count := tree.count + 1 }

/-- The loop of `tree_nodeDelete` below `*node`, then the removal at the node it ends in; `none` is
the error of a missing node. -/
def removeLoop : Bool → ℕ → Trie ℕ → Buf → Option (Trie ℕ)
  | _, _, .nil, _ => none
  | isRoot, 0, .node _ l r, _ =>
      if l = .nil ∧ r = .nil ∧ isRoot = false then some .nil else some (.node none l r)
  | _, b + 1, .node v l r, value =>
      let value' := moveLeft value (UInt32.ofNat (b + 1))
      if toLeft value then (removeLoop false b l value').map fun l' => .node v l' r
      else (removeLoop false b r value').map fun r' => .node v l r'

/-- `tree_nodeDelete`; on the error the tree is unchanged. -/
def treeNodeDelete (tree : Tree) (value : Buf) (bitNum : UInt32) : Tree :=
  match removeLoop true bitNum.toNat tree.root value with
  | none => tree
  | some root => { root := root, count := tree.count - 1 }

/-- The loop of `tree_nodeLookup`; `ptr` is the last entry met, `none` for `NULL`. -/
def lookupLoop : Trie ℕ → Buf → UInt32 → Option ℕ → Option ℕ
  | .nil, _, _, ptr => ptr
  | .node v l r, value, bitNum, ptr =>
      let value' := moveLeft value bitNum
      if toLeft value then lookupLoop l value' (bitNum - 1) (v.or ptr)
      else lookupLoop r value' (bitNum - 1) (v.or ptr)

/-- `tree_nodeLookup`. -/
def treeNodeLookup (tree : Tree) (value : Buf) (bitNum : UInt32) : Option ℕ :=
  lookupLoop tree.root value bitNum none

/-! ### Shifting -/

@[simp] theorem length_shiftLoop (n i : ℕ) (value : Buf) :
    (shiftLoop n i value).length = value.length := by
  induction n generalizing i value with
  | zero => rfl
  | succ n ih => rw [shiftLoop, ih, length_wr]

@[simp] theorem length_moveLeft (value : Buf) (bitNum : UInt32) :
    (moveLeft value bitNum).length = value.length := by
  unfold moveLeft
  split_ifs
  · rfl
  · simp

theorem rd_shiftLoop (n i : ℕ) (value : Buf) (j : ℕ) :
    (shiftLoop n i value).rd j =
      if i ≤ j ∧ j < i + n ∧ j < value.length then
        u8 ((value.rd j).toNat <<< 1 ||| (value.rd (j + 1)).toNat >>> 7)
      else value.rd j := by
  induction n generalizing i value with
  | zero => rw [shiftLoop, if_neg (by omega)]
  | succ n ih =>
      rw [shiftLoop, ih, length_wr]
      by_cases hji : j = i
      · subst hji
        rw [if_neg (by omega), rd_wr]
        by_cases hlen : j < value.length
        · simp [hlen]
        · simp [hlen]
      · rw [rd_wr_of_ne _ hji]
        by_cases hin : i ≤ j ∧ j < i + (n + 1) ∧ j < value.length
        · rw [if_pos (by omega), if_pos hin, rd_wr_of_ne _ (by omega)]
        · rw [if_neg (by omega), if_neg hin]

/-- **A shift moves every bit that still matters one place forward.** -/
theorem bit_moveLeft {value : Buf} {bitNum : UInt32} (hlen : bitNum.toNat ≤ 8 * value.length)
    (hmax : bitNum.toNat < 2 ^ 31) {j : ℕ} (hj : j + 1 < bitNum.toNat) :
    (moveLeft value bitNum).bit j = value.bit (j + 1) := by
  have hne : bitNum ≠ 0 := by
    rintro rfl
    simp at hj
  have hn : ((bitNum + 7) / 8 - 1).toNat = (bitNum.toNat + 7) / 8 - 1 := by
    have hadd : (bitNum + 7).toNat = bitNum.toNat + 7 := by
      rw [UInt32.toNat_add, show UInt32.toNat 7 = 7 from rfl]
      exact Nat.mod_eq_of_lt (by omega)
    have hdiv : ((bitNum + 7) / 8).toNat = (bitNum.toNat + 7) / 8 := by
      rw [UInt32.toNat_div, hadd]
      rfl
    rw [UInt32.toNat_sub_of_le, hdiv]
    · rfl
    · rw [UInt32.le_iff_toNat_le, hdiv, show UInt32.toNat 1 = 1 from rfl]
      omega
  obtain ⟨q, k, hk, rfl⟩ : ∃ q k, k < 8 ∧ j = 8 * q + k := ⟨j / 8, j % 8, by omega, by omega⟩
  rw [moveLeft, if_neg hne, hn, bit_mul_add _ _ hk]
  simp only
  rw [rd_wr, length_shiftLoop]
  by_cases hlast : q = (bitNum.toNat + 7) / 8 - 1
  · -- inside the last byte
    rw [if_pos (by omega), rd_shiftLoop, if_neg (by omega), Nat.add_assoc,
      bit_mul_add _ _ (by omega), ← hlast]
    have hbyte := bitOf_u8_shiftLeft_or (show 1 ≤ 8 by omega) (value.rd q) 0 hk
    rw [if_pos (by omega)] at hbyte
    simpa using hbyte
  · rw [if_neg (by omega), rd_shiftLoop, if_pos (by omega)]
    have hbyte := bitOf_u8_shiftLeft_or (show 1 ≤ 8 by omega) (value.rd q) (value.rd (q + 1)) hk
    rw [show 8 - 1 = 7 from rfl] at hbyte
    rw [hbyte]
    by_cases hk7 : k + 1 < 8
    · rw [if_pos hk7, Nat.add_assoc, bit_mul_add _ _ hk7]
    · rw [if_neg hk7, show 8 * q + k + 1 = 8 * (q + 1) + (k + 1 - 8) by omega,
        bit_mul_add _ _ (by omega)]

theorem toLeft_eq (value : Buf) : toLeft value = !value.bit 0 := by
  rw [toLeft, bit, bitOf, show (0x80 : ℕ) = 2 ^ 7 from rfl, Nat.and_two_pow]
  cases (value.rd (0 / 8)).toNat.testBit (7 - 0 % 8) <;> rfl

/-! ### Paths -/

/-- The first `b` bits of a buffer. -/
def bitPath (value : Buf) (b : ℕ) : List Bool := (List.range b).map value.bit

@[simp] theorem length_bitPath (value : Buf) (b : ℕ) : (bitPath value b).length = b := by
  simp [bitPath]

theorem bitPath_succ {value : Buf} {b : ℕ} (hlen : b + 1 ≤ 8 * value.length) (hmax : b + 1 < 2 ^ 31) :
    bitPath value (b + 1) =
      value.bit 0 :: bitPath (moveLeft value (UInt32.ofNat (b + 1))) b := by
  have hto : (UInt32.ofNat (b + 1)).toNat = b + 1 := UInt32.toNat_ofNat_of_lt' (by
    simp only [UInt32.size]
    omega)
  rw [bitPath, List.range_succ_eq_map, List.map_cons, List.map_map, bitPath]
  congr 1
  refine List.map_congr_left fun j hj => ?_
  have hj := List.mem_range.1 hj
  rw [bit_moveLeft (by omega) (by omega) (by omega)]
  rfl

theorem take_bitPath (value : Buf) {a b : ℕ} (h : a ≤ b) :
    (bitPath value b).take a = bitPath value a := by
  rw [bitPath, bitPath, ← List.map_take, List.take_range, Nat.min_eq_left h]

theorem bitPath_eq_iff {v w : Buf} {p q : ℕ} :
    bitPath v p = bitPath w q ↔ p = q ∧ ∀ i < p, v.bit i = w.bit i := by
  constructor
  · intro h
    have hlen := congrArg List.length h
    simp only [length_bitPath] at hlen
    subst hlen
    refine ⟨rfl, fun i hi => ?_⟩
    have hget := congrArg (fun l => l[i]?) h
    simpa [bitPath, hi] using hget
  · rintro ⟨rfl, h⟩
    exact List.map_congr_left fun i hi => h i (List.mem_range.1 hi)

theorem bitPath_prefix_iff {v w : Buf} {p q : ℕ} (h : p ≤ q) :
    bitPath v p <+: bitPath w q ↔ ∀ i < p, v.bit i = w.bit i := by
  rw [List.prefix_iff_eq_take, length_bitPath, take_bitPath w h, bitPath_eq_iff]
  simp

/-! ### The walks -/

/-- The turns that an insertion or a removal takes, `true` for the right son. -/
def walkPath : ℕ → Buf → List Bool
  | 0, _ => []
  | b + 1, value => (!toLeft value) :: walkPath b (moveLeft value (UInt32.ofNat (b + 1)))

/-- Within the buffer the turns are its bits. -/
theorem walkPath_eq_bitPath {b : ℕ} {value : Buf} (hlen : b ≤ 8 * value.length) (hmax : b < 2 ^ 31) :
    walkPath b value = bitPath value b := by
  induction b generalizing value with
  | zero => rfl
  | succ b ih =>
      rw [bitPath_succ hlen hmax, walkPath, toLeft_eq, Bool.not_not,
        ih (by rw [length_moveLeft]; omega) (by omega)]

/-- The insertion walk is insertion at the turns it takes. -/
theorem insertLoop_eq_insert (ptr b : ℕ) {t : Trie ℕ} (value : Buf) (ht : t ≠ .nil) :
    insertLoop ptr b t value = t.insert ptr (walkPath b value) := by
  induction b generalizing t value with
  | zero =>
      cases t with
      | nil => exact absurd rfl ht
      | node v l r => rfl
  | succ b ih =>
      cases t with
      | nil => exact absurd rfl ht
      | node v l r =>
          have hson : ∀ s : Trie ℕ,
              insertLoop ptr b (orCreate s) (moveLeft value (UInt32.ofNat (b + 1))) =
                s.insert ptr (walkPath b (moveLeft value (UInt32.ofNat (b + 1)))) := by
            intro s
            rw [ih _ (by cases s <;> simp [orCreate])]
            cases s with
            | nil => exact Trie.insert_node_nil _ _
            | node v l r => rfl
          rw [insertLoop, walkPath]
          cases toLeft value with
          | false => simp only [Bool.not_false, Bool.false_eq_true, if_false, hson, Trie.insert]
          | true => simp only [Bool.not_true, if_true, hson, Trie.insert]

/-- The removal walk fails where there is no node, and else is removal at the turns it takes. -/
theorem removeLoop_eq (isRoot : Bool) (b : ℕ) (t : Trie ℕ) (value : Buf) :
    removeLoop isRoot b t value = if t.sub (walkPath b value) = .nil then none
      else some (if isRoot then t.remove (walkPath b value) else t.removeBelow (walkPath b value)) := by
  induction b generalizing t value isRoot with
  | zero =>
      cases t with
      | nil => rfl
      | node v l r =>
          cases isRoot with
          | true => simp [removeLoop, walkPath, Trie.remove]
          | false => cases l <;> cases r <;> simp [removeLoop, walkPath, Trie.removeBelow, Trie.prune]
  | succ b ih =>
      cases t with
      | nil => rfl
      | node v l r =>
          have hson : ∀ (s : Trie ℕ) (value : Buf), removeLoop false b s value =
              if s.sub (walkPath b value) = .nil then none
              else some (s.removeBelow (walkPath b value)) := fun s value => ih false s value
          rw [removeLoop, walkPath]
          simp only [hson]
          cases toLeft value with
          | false =>
              simp only [Bool.not_false, Bool.false_eq_true, if_false, Trie.sub]
              split_ifs <;> rfl
          | true =>
              simp only [Bool.not_true, if_true, Trie.sub]
              split_ifs <;> rfl

/-- The insertion walk is insertion at the path of the buffer. -/
theorem insertLoop_eq (ptr : ℕ) {b : ℕ} {t : Trie ℕ} {value : Buf} (ht : t ≠ .nil)
    (hlen : b ≤ 8 * value.length) (hmax : b < 2 ^ 31) :
    insertLoop ptr b t value = t.insert ptr (bitPath value b) := by
  rw [insertLoop_eq_insert ptr b value ht, walkPath_eq_bitPath hlen hmax]

/-- A removal walk that reaches its node removes the value at the path of the buffer. -/
theorem removeLoop_eq_some {isRoot : Bool} {b : ℕ} {t t' : Trie ℕ} {value : Buf}
    (hlen : b ≤ 8 * value.length) (hmax : b < 2 ^ 31)
    (h : removeLoop isRoot b t value = some t') :
    t' = if isRoot then t.remove (bitPath value b) else t.removeBelow (bitPath value b) := by
  rw [removeLoop_eq, walkPath_eq_bitPath hlen hmax] at h
  split_ifs at h ⊢
  · exact (Option.some.inj h).symm
  · exact (Option.some.inj h).symm

/-- A removal walk fails only where nothing is stored. -/
theorem get_eq_none_of_removeLoop {isRoot : Bool} {b : ℕ} {t : Trie ℕ} {value : Buf}
    (hlen : b ≤ 8 * value.length) (hmax : b < 2 ^ 31) (h : removeLoop isRoot b t value = none) :
    t.get (bitPath value b) = none := by
  rw [removeLoop_eq, walkPath_eq_bitPath hlen hmax] at h
  split_ifs at h with hsub
  exact Trie.get_eq_none_of_sub hsub

/-- The lookup walk is the longest-prefix walk along the path of the key.  At the last level the
counter is `0`: both sons of a node there are missing, so the wrapped counter is never used. -/
theorem lookupLoop_eq {t : Trie ℕ} {value : Buf} {bitNum : UInt32} (ptr : Option ℕ)
    (ht : Trie.DepthLe bitNum.toNat t) (hlen : bitNum.toNat ≤ 8 * value.length)
    (hmax : bitNum.toNat < 2 ^ 31) :
    lookupLoop t value bitNum ptr = (t.walk (bitPath value bitNum.toNat)).or ptr := by
  induction t generalizing value bitNum ptr with
  | nil => rfl
  | node v l r ihl ihr =>
      obtain hzero | ⟨n, hn⟩ : bitNum.toNat = 0 ∨ ∃ n, bitNum.toNat = n + 1 := by
        cases hb : bitNum.toNat with
        | zero => exact Or.inl rfl
        | succ n => exact Or.inr ⟨n, rfl⟩
      · rw [hzero] at ht
        obtain ⟨rfl, rfl⟩ := ht
        rw [hzero, lookupLoop]
        simp [lookupLoop, bitPath, Trie.walk]
      · have hsub : (bitNum - 1).toNat = n := by
          rw [UInt32.toNat_sub_of_le, hn]
          · rfl
          · rw [UInt32.le_iff_toNat_le, hn]
            exact Nat.succ_le_succ (Nat.zero_le n)
        have hof : UInt32.ofNat (n + 1) = bitNum := by rw [← hn, UInt32.ofNat_toNat]
        rw [hn] at ht
        rw [hn, bitPath_succ (by omega) (by omega), hof, lookupLoop, toLeft_eq]
        have hson : ∀ s : Trie ℕ, Trie.DepthLe n s →
            (∀ {value : Buf} {bitNum : UInt32} (ptr : Option ℕ), Trie.DepthLe bitNum.toNat s →
              bitNum.toNat ≤ 8 * value.length → bitNum.toNat < 2 ^ 31 →
              lookupLoop s value bitNum ptr = (s.walk (bitPath value bitNum.toNat)).or ptr) →
            lookupLoop s (moveLeft value bitNum) (bitNum - 1) (v.or ptr) =
              ((s.walk (bitPath (moveLeft value bitNum) n)).or v).or ptr := by
          intro s hs ih
          rw [ih _ (by rw [hsub]; exact hs) (by rw [hsub, length_moveLeft]; omega)
            (by rw [hsub]; omega), hsub, Option.or_assoc]
        cases value.bit 0 with
        | false =>
            simp only [Bool.not_false, if_true, Trie.walk]
            exact hson l ht.1 ihl
        | true =>
            simp only [Bool.not_true, Bool.false_eq_true, if_false, Trie.walk]
            exact hson r ht.2 ihr

end PofSwitch
