/-
**Structures made of pieces.**

A C structure in memory is a list of pieces one after the other: the fields, the arrays and the padding
between them.  The compiler lays them out; where a piece starts is the number of bytes in front of it.
What is read from there, as bytes or as a number, is what the piece holds.

Main definitions:

* `Buf.pieceStart` — where a piece starts.

Main results:

* `Buf.slice_piece` — **the bytes of a piece are found where it starts**;
* `Buf.loadWord_piece`, `Buf.rd_piece` — a piece read as a number, and a byte of it;
* `Buf.map_element_flatMap` — the elements of an array, read one by one.
-/

import PofSwitch.LittleEndian

set_option relaxedAutoImplicit false
set_option autoImplicit false

namespace Buf

/-- Where piece `i` starts. -/
def pieceStart (pieces : List Buf) (i : ℕ) : ℕ := ((pieces.take i).map List.length).sum

section Pieces

variable {pieces : List Buf} {i p : ℕ} {v : Buf}

/-- The lengths of the pieces say where they start. -/
theorem pieceStart_eq {ns : List ℕ} (h : pieces.map List.length = ns) (hp : (ns.take i).sum = p) :
    pieceStart pieces i = p := by
  rw [pieceStart, List.map_take, h, hp]

theorem length_flatten_take (pieces : List Buf) (i : ℕ) :
    (pieces.take i).flatten.length = pieceStart pieces i := List.length_flatten

/-- The bytes in front of a piece, the piece, and the bytes behind it. -/
theorem flatten_around (h : pieces[i]? = some v) :
    pieces.flatten = (pieces.take i).flatten ++ (v ++ (pieces.drop (i + 1)).flatten) := by
  obtain ⟨hi, hv⟩ := List.getElem?_eq_some_iff.1 h
  have hdrop : pieces.drop i = v :: pieces.drop (i + 1) := by rw [List.drop_eq_getElem_cons hi, hv]
  conv_lhs => rw [← List.take_append_drop i pieces, List.flatten_append, hdrop, List.flatten_cons]

theorem drop_piece (h : pieces[i]? = some v) (hp : pieceStart pieces i = p) :
    pieces.flatten.drop p = v ++ (pieces.drop (i + 1)).flatten := by
  rw [flatten_around h]
  exact List.drop_left' ((length_flatten_take pieces i).trans hp)

/-- **The bytes of a piece are found where it starts.** -/
theorem slice_piece (h : pieces[i]? = some v) (hp : pieceStart pieces i = p) {n : ℕ} (hn : v.length = n) :
    (pieces.flatten.drop p).take n = v := by
  rw [drop_piece h hp]
  exact List.take_left' hn

/-- A byte of a piece. -/
theorem rd_piece (h : pieces[i]? = some v) {k : ℕ} (hp : pieceStart pieces i + k = p) (hk : k < v.length) :
    rd pieces.flatten p = v.rd k := by
  subst hp
  have hfront := length_flatten_take pieces i
  rw [flatten_around h, rd_append_right (by rw [hfront]; omega), hfront, Nat.add_sub_cancel_left, rd_append_left hk]

/-- A piece read as a number. -/
theorem loadWord_piece (h : pieces[i]? = some v) (hp : pieceStart pieces i = p) {k : ℕ} (hk : v.length = k) :
    loadWord pieces.flatten p k = v.loadWord 0 k := by
  rw [flatten_around h, ← List.append_assoc]
  exact loadWord_field ((length_flatten_take pieces i).trans hp) hk

end Pieces

/-- The elements of an array of structures, read one by one, when each is read as what was stored. -/
theorem map_element_flatMap {α : Type} {size n : ℕ} {read : Buf → α} {write : ℕ → α → Buf} {l : List α}
    (hl : l.length = n) (d : α) (hsize : ∀ j a, (write j a).length = size)
    (hread : ∀ j, ∀ a ∈ l, read (write j a) = a) (c : Buf) :
    (List.range n).map (fun j => read (element size j
      ((List.range n).flatMap (fun j => write j (l.getD j d)) ++ c))) = l := by
  subst hl
  refine List.ext_getElem (by simp) fun j hj hl => ?_
  have hget : l.getD j d = l[j] := by simp [hl]
  rw [List.getElem_map, List.getElem_range, element_flatMap (fun j => hsize j _) hl, hget]
  exact hread j _ (List.getElem_mem hl)

end Buf
