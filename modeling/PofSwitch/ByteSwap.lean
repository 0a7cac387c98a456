/-
**Reversing fields of a buffer in place.**

Converting a structure between host and network byte order on a little-endian machine reverses the
bytes of each of its fields.  Fields that do not overlap can be reversed in any order, and reversing
them all twice gives the structure back.  An array of structures is converted slice by slice.

Main definitions:

* `Buf.rev`, `Buf.revAll` — reversing one field, and a list of fields given by position and size;
* `Buf.eachSlice`, `Buf.AllSlices` — a routine applied to the first slices of a buffer, and a
  property of them.

Main results:

* `Buf.revAll_revAll` — **reversing disjoint fields twice is the identity**;
* `Buf.rd_revAll` — the bytes outside the fields stay as they are;
* `Buf.eachSlice_eachSlice` — a routine that undoes another one on a slice undoes it on an array.
-/

import PofSwitch.ByteBits

set_option relaxedAutoImplicit false
set_option autoImplicit false

namespace Buf

/-! ### One field -/

/-- The `n` bytes from index `p` on in the opposite order. -/
def rev (p n : ℕ) (b : Buf) : Buf := b.take p ++ (((b.drop p).take n).reverse ++ b.drop (p + n))

@[simp] theorem length_rev (p n : ℕ) (b : Buf) : (rev p n b).length = b.length := by
  simp only [rev, List.length_append, List.length_take, List.length_reverse, List.length_drop]
  omega

theorem rd_rev {p n : ℕ} {b : Buf} (h : p + n ≤ b.length) (i : ℕ) :
    rd (rev p n b) i = if p ≤ i ∧ i < p + n then rd b (2 * p + n - 1 - i) else rd b i := by
  have htake : (b.take p).length = p := by rw [List.length_take]; omega
  have hmid : ((b.drop p).take n).reverse.length = n := by
    rw [List.length_reverse, List.length_take, List.length_drop]
    omega
  simp only [rd, rev, List.getD_eq_getElem?_getD]
  rcases Nat.lt_or_ge i p with hi | hi
  · rw [List.getElem?_append_left (by omega), List.getElem?_take_of_lt hi, if_neg (by omega)]
  · rw [List.getElem?_append_right (by omega), htake]
    rcases Nat.lt_or_ge i (p + n) with hin | hin
    · rw [List.getElem?_append_left (by omega), if_pos ⟨hi, hin⟩,
        List.getElem?_reverse (by rw [List.length_reverse] at hmid; omega), List.getElem?_take_of_lt,
        List.getElem?_drop]
      · rw [List.length_reverse] at hmid
        rw [hmid]
        congr 2
        omega
      · rw [List.length_reverse] at hmid
        omega
    · rw [List.getElem?_append_right (by omega), hmid, List.getElem?_drop, if_neg (by omega)]
      congr 2
      omega

theorem rev_rev {p n : ℕ} {b : Buf} (h : p + n ≤ b.length) : rev p n (rev p n b) = b := by
  have hlen := length_rev p n b
  refine ext_rd ((length_rev _ _ _).trans hlen) fun i _ => ?_
  rw [rd_rev (by omega), rd_rev h, rd_rev h]
  split_ifs with h₁ h₂
  · exact congrArg (rd b) (by omega)
  · omega
  · rfl

/-- Two fields that do not overlap. -/
def Apart (x y : ℕ × ℕ) : Prop := x.1 + x.2 ≤ y.1 ∨ y.1 + y.2 ≤ x.1

instance (x y : ℕ × ℕ) : Decidable (Apart x y) :=
  inferInstanceAs (Decidable (x.1 + x.2 ≤ y.1 ∨ y.1 + y.2 ≤ x.1))

theorem rev_comm {x y : ℕ × ℕ} {b : Buf} (hx : x.1 + x.2 ≤ b.length) (hy : y.1 + y.2 ≤ b.length)
    (h : Apart x y) : rev x.1 x.2 (rev y.1 y.2 b) = rev y.1 y.2 (rev x.1 x.2 b) := by
  have hlx := length_rev x.1 x.2 b
  have hly := length_rev y.1 y.2 b
  refine ext_rd (by simp) fun i _ => ?_
  unfold Apart at h
  rw [rd_rev (by omega), rd_rev hy, rd_rev hy, rd_rev (p := y.1) (by omega), rd_rev hx, rd_rev hx]
  split_ifs <;> first | rfl | omega

/-! ### Several fields -/

/-- The fields of a list, given by position and size, each reversed. -/
def revAll (fields : List (ℕ × ℕ)) (b : Buf) : Buf := fields.foldl (fun b x => rev x.1 x.2 b) b

@[simp] theorem revAll_nil (b : Buf) : revAll [] b = b := rfl

@[simp] theorem revAll_cons (x : ℕ × ℕ) (fields : List (ℕ × ℕ)) (b : Buf) :
    revAll (x :: fields) b = revAll fields (rev x.1 x.2 b) := rfl

theorem revAll_append_fields (fields fields' : List (ℕ × ℕ)) (b : Buf) :
    revAll (fields ++ fields') b = revAll fields' (revAll fields b) := List.foldl_append

/-- The fields lie within the first `n` bytes. -/
def Within (fields : List (ℕ × ℕ)) (n : ℕ) : Prop := ∀ x ∈ fields, x.1 + x.2 ≤ n

instance (fields : List (ℕ × ℕ)) (n : ℕ) : Decidable (Within fields n) :=
  inferInstanceAs (Decidable (∀ x ∈ fields, x.1 + x.2 ≤ n))

@[simp] theorem length_revAll (fields : List (ℕ × ℕ)) (b : Buf) :
    (revAll fields b).length = b.length := by
  induction fields generalizing b with
  | nil => rfl
  | cons x fields ih => rw [revAll_cons, ih, length_rev]

/-- **The bytes outside the fields stay as they are.** -/
theorem rd_revAll {fields : List (ℕ × ℕ)} {b : Buf} (h : Within fields b.length) {i : ℕ}
    (hi : ∀ x ∈ fields, i < x.1 ∨ x.1 + x.2 ≤ i) : rd (revAll fields b) i = rd b i := by
  induction fields generalizing b with
  | nil => rfl
  | cons x fields ih =>
      have hx := h x List.mem_cons_self
      have hlen := length_rev x.1 x.2 b
      have hix := hi x List.mem_cons_self
      rw [revAll_cons, ih (hlen ▸ fun y hy => h y (List.mem_cons_of_mem _ hy))
        (fun y hy => hi y (List.mem_cons_of_mem _ hy)), rd_rev hx, if_neg (by omega)]

theorem rev_revAll {x : ℕ × ℕ} {fields : List (ℕ × ℕ)} {b : Buf} (hx : x.1 + x.2 ≤ b.length)
    (h : Within fields b.length) (hapart : ∀ y ∈ fields, Apart x y) :
    rev x.1 x.2 (revAll fields b) = revAll fields (rev x.1 x.2 b) := by
  induction fields generalizing b with
  | nil => rfl
  | cons y fields ih =>
      have hy := h y List.mem_cons_self
      have hlen := length_rev y.1 y.2 b
      rw [revAll_cons, revAll_cons, ih (hlen ▸ hx) (hlen ▸ fun z hz => h z (List.mem_cons_of_mem _ hz))
        (fun z hz => hapart z (List.mem_cons_of_mem _ hz)), rev_comm hx hy (hapart y List.mem_cons_self)]

/-- **Reversing disjoint fields twice is the identity.** -/
theorem revAll_revAll {fields : List (ℕ × ℕ)} {b : Buf} (h : Within fields b.length)
    (hapart : fields.Pairwise Apart) : revAll fields (revAll fields b) = b := by
  induction fields generalizing b with
  | nil => rfl
  | cons x fields ih =>
      have hx := h x List.mem_cons_self
      have hlen := length_rev x.1 x.2 b
      have hrest : Within fields b.length := fun y hy => h y (List.mem_cons_of_mem _ hy)
      obtain ⟨hfirst, hothers⟩ := List.pairwise_cons.1 hapart
      rw [revAll_cons, revAll_cons, rev_revAll (hlen ▸ hx) (hlen ▸ hrest) hfirst, rev_rev hx]
      exact ih hrest hothers

/-- Fields of the first part of a buffer. -/
theorem revAll_append {fields : List (ℕ × ℕ)} {b c : Buf} (h : Within fields b.length) :
    revAll fields (b ++ c) = revAll fields b ++ c := by
  induction fields generalizing b with
  | nil => rfl
  | cons x fields ih =>
      have hx := h x List.mem_cons_self
      have hlen := length_rev x.1 x.2 b
      have hrev : rev x.1 x.2 (b ++ c) = rev x.1 x.2 b ++ c := by
        simp only [rev]
        rw [List.take_append_of_le_length (by omega), List.drop_append_of_le_length (by omega),
          List.drop_append_of_le_length (by omega), List.take_append_of_le_length (by
            rw [List.length_drop]; omega)]
        simp only [List.append_assoc]
      rw [revAll_cons, revAll_cons, hrev, ih (hlen ▸ fun y hy => h y (List.mem_cons_of_mem _ hy))]

/-! ### Slices -/

/-- The routine `f` applied to each of the first `n` slices of the given size. -/
def eachSlice (size : ℕ) (f : Buf → Buf) : ℕ → Buf → Buf
  | 0, b => b
  | n + 1, b => f (b.take size) ++ eachSlice size f n (b.drop size)

/-- Each of the first `n` slices of the given size has the property. -/
def AllSlices (size : ℕ) (P : Buf → Prop) (n : ℕ) (b : Buf) : Prop :=
  ∀ i < n, P ((b.drop (size * i)).take size)

section Slices

variable {size : ℕ} {f g : Buf → Buf}

theorem allSlices_succ {P : Buf → Prop} {n : ℕ} {b : Buf} :
    AllSlices size P (n + 1) b ↔ P (b.take size) ∧ AllSlices size P n (b.drop size) := by
  constructor
  · intro h
    refine ⟨by simpa using h 0 (Nat.succ_pos n), fun i hi => ?_⟩
    have hslice := h (i + 1) (Nat.succ_lt_succ hi)
    rwa [Nat.mul_succ, Nat.add_comm, ← List.drop_drop] at hslice
  · rintro ⟨hfirst, hrest⟩ i hi
    cases i with
    | zero => simpa using hfirst
    | succ i =>
        have hslice := hrest i (Nat.lt_of_succ_lt_succ hi)
        rwa [List.drop_drop, Nat.add_comm, ← Nat.mul_succ] at hslice

theorem length_eachSlice (hf : ∀ s : Buf, (f s).length = s.length) (n : ℕ) (b : Buf) :
    (eachSlice size f n b).length = b.length := by
  induction n generalizing b with
  | zero => rfl
  | succ n ih =>
      rw [eachSlice, List.length_append, hf, ih, List.length_take, List.length_drop]
      omega

theorem eachSlice_append {n : ℕ} {b c : Buf} (h : n * size ≤ b.length) :
    eachSlice size f n (b ++ c) = eachSlice size f n b ++ c := by
  induction n generalizing b with
  | zero => rfl
  | succ n ih =>
      rw [Nat.succ_mul] at h
      rw [eachSlice, eachSlice, List.take_append_of_le_length (by omega),
        List.drop_append_of_le_length (by omega), ih (by rw [List.length_drop]; omega),
        List.append_assoc]

theorem AllSlices.imp {P Q : Buf → Prop} (hPQ : ∀ s : Buf, s.length = size → P s → Q s) {n : ℕ}
    {b : Buf} (hlen : n * size ≤ b.length) (h : AllSlices size P n b) : AllSlices size Q n b := by
  intro i hi
  refine hPQ _ ?_ (h i hi)
  have hle : (i + 1) * size ≤ b.length := (Nat.mul_le_mul_right size hi).trans hlen
  rw [Nat.succ_mul, Nat.mul_comm] at hle
  rw [List.length_take, List.length_drop]
  omega

/-- The slices after the routine has been applied. -/
theorem allSlices_eachSlice {P : Buf → Prop} (hf : ∀ s : Buf, (f s).length = s.length)
    {n : ℕ} {b : Buf} (h : n * size ≤ b.length) :
    AllSlices size P n (eachSlice size f n b) ↔ AllSlices size (fun s => P (f s)) n b := by
  induction n generalizing b with
  | zero => simp [AllSlices]
  | succ n ih =>
      rw [Nat.succ_mul] at h
      have htake : (b.take size).length = size := by rw [List.length_take]; omega
      rw [eachSlice, allSlices_succ, allSlices_succ, List.take_left' ((hf _).trans htake),
        List.drop_left' ((hf _).trans htake),
        ih (by rw [List.length_drop]; omega)]

/-- **A routine that undoes another one on every slice with a property undoes it on an array of such
slices.** -/
theorem eachSlice_eachSlice {P : Buf → Prop} (hf : ∀ s : Buf, (f s).length = s.length)
    (hgf : ∀ s : Buf, s.length = size → P s → g (f s) = s) {n : ℕ} {b : Buf}
    (h : n * size ≤ b.length) (hP : AllSlices size P n b) :
    eachSlice size g n (eachSlice size f n b) = b := by
  induction n generalizing b with
  | zero => rfl
  | succ n ih =>
      rw [Nat.succ_mul] at h
      rw [allSlices_succ] at hP
      have htake : (b.take size).length = size := by rw [List.length_take]; omega
      rw [eachSlice, eachSlice, List.take_left' ((hf _).trans htake),
        List.drop_left' ((hf _).trans htake),
        hgf _ htake hP.1, ih (by rw [List.length_drop]; omega) hP.2, List.take_append_drop]

end Slices

end Buf
