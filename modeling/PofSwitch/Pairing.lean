/-
**Lists that agree place by place.**

Two lists of one length whose elements agree under a function are described by the list of the pairs of
their elements.  A search, a filter, an update of one element and a walk bucket by bucket, when they see
of an element what the function shows, treat the elements of a pair alike.

Main definitions:

* `Pairing` — the pairs of the elements of two lists.

Main results:

* `exists_pairing`, `Pairing.map_eq` — lists that agree under a function are those that have pairs;
* `Pairing.find` — **a search finds the two elements of a pair, or nothing in both lists;**
* `Pairing.remove`, `Pairing.update` — **removing and changing the two elements of a pair.**
-/

import PofSwitch.Chain

set_option relaxedAutoImplicit false
set_option autoImplicit false

/-- `z` holds the pairs of the elements of `l₁` and `l₂`, place by place; the elements of a pair agree
under `c`. -/
structure Pairing {α β : Type} (c : α → β) (l₁ l₂ : List α) (z : List (α × α)) : Prop where
  fst : z.map Prod.fst = l₁
  snd : z.map Prod.snd = l₂
  same : ∀ q ∈ z, c q.1 = c q.2

section

variable {α β : Type} {c : α → β} {l₁ l₂ : List α} {z : List (α × α)}

theorem exists_pairing (h : l₁.map c = l₂.map c) : ∃ z, Pairing c l₁ l₂ z := by
  induction l₁ generalizing l₂ with
  | nil =>
      obtain rfl : l₂ = [] := List.map_eq_nil_iff.1 h.symm
      exact ⟨[], rfl, rfl, by simp⟩
  | cons a l₁ ih =>
      cases l₂ with
      | nil => cases h
      | cons b l₂ =>
          obtain ⟨hab, hrest⟩ := List.cons.inj h
          obtain ⟨z, hfst, hsnd, hsame⟩ := ih hrest
          refine ⟨(a, b) :: z, congrArg (a :: ·) hfst, congrArg (b :: ·) hsnd, ?_⟩
          intro q hq
          rcases List.mem_cons.1 hq with rfl | hq
          · exact hab
          · exact hsame q hq

namespace Pairing

theorem map_eq (h : Pairing c l₁ l₂ z) : l₁.map c = l₂.map c := by
  rw [← h.fst, ← h.snd, List.map_map, List.map_map]
  exact List.map_congr_left h.same

theorem mem_fst (h : Pairing c l₁ l₂ z) {q : α × α} (hq : q ∈ z) : q.1 ∈ l₁ :=
  h.fst ▸ List.mem_map_of_mem hq

theorem mem_snd (h : Pairing c l₁ l₂ z) {q : α × α} (hq : q ∈ z) : q.2 ∈ l₂ :=
  h.snd ▸ List.mem_map_of_mem hq

/-- Walks bucket by bucket visit the pairs in one order. -/
theorem walk (h : Pairing c l₁ l₂ z) {f : α → ℕ} (hf : ∀ a b, c a = c b → f a = f b) (n : ℕ) :
    ∃ z', (∀ q ∈ z', q ∈ z) ∧ Pairing c (bucketOrder f n l₁) (bucketOrder f n l₂) z' := by
  have hfilter : ∀ i, (z.filter fun q => f q.1 = i) = z.filter fun q => f q.2 = i := by
    intro i
    refine List.filter_congr fun q hq => ?_
    rw [hf q.1 q.2 (h.same q hq)]
  have hmem : ∀ q ∈ (List.range n).flatMap fun i => z.filter fun q => f q.1 = i, q ∈ z := by
    intro q hq
    obtain ⟨i, -, hq⟩ := List.mem_flatMap.1 hq
    exact List.mem_of_mem_filter hq
  refine ⟨(List.range n).flatMap fun i => z.filter fun q => f q.1 = i, hmem, ?_, ?_, ?_⟩
  · simp only [bucketOrder, ← h.fst, List.map_flatMap, List.filter_map]
    rfl
  · simp only [bucketOrder, ← h.snd, List.map_flatMap, List.filter_map, hfilter]
    rfl
  · exact fun q hq => h.same q (hmem q hq)

/-- **A search finds the two elements of a pair, or nothing.** -/
theorem find (h : Pairing c l₁ l₂ z) {p : α → Bool} (hp : ∀ a b, c a = c b → p a = p b) :
    (l₁.find? p = none ∧ l₂.find? p = none) ∨
      ∃ q ∈ z, l₁.find? p = some q.1 ∧ l₂.find? p = some q.2 := by
  have hsame : z.find? (p ∘ Prod.fst) = z.find? (p ∘ Prod.snd) := by
    have hfst : z.filter (p ∘ Prod.fst) = z.filter (p ∘ Prod.snd) :=
      List.filter_congr fun q hq => hp q.1 q.2 (h.same q hq)
    rw [← List.head?_filter, ← List.head?_filter, hfst]
  rw [← h.fst, ← h.snd, List.find?_map, List.find?_map, ← hsame]
  cases hfind : z.find? (p ∘ Prod.fst) with
  | none => exact Or.inl ⟨rfl, rfl⟩
  | some q => exact Or.inr ⟨q, List.mem_of_find?_eq_some hfind, rfl, rfl⟩

section Keys

variable {κ : Type} {key : α → κ} {q : α × α}

/-- When the keys are different, the keys of a pair are found at one place. -/
theorem key_iff (h : Pairing c l₁ l₂ z) (hnd₁ : (l₁.map key).Nodup) (hnd₂ : (l₂.map key).Nodup)
    (hq : q ∈ z) {r : α × α} (hr : r ∈ z) : key r.1 = key q.1 ↔ key r.2 = key q.2 := by
  have hinj₁ : (z.map fun q => key q.1).Nodup := by
    rw [← h.fst, List.map_map] at hnd₁
    exact hnd₁
  have hinj₂ : (z.map fun q => key q.2).Nodup := by
    rw [← h.snd, List.map_map] at hnd₂
    exact hnd₂
  constructor
  · intro heq
    rw [List.inj_on_of_nodup_map hinj₁ hr hq heq]
  · intro heq
    rw [List.inj_on_of_nodup_map hinj₂ hr hq heq]

variable [DecidableEq κ]

/-- **Removing the two elements of a pair by their keys.** -/
theorem remove (h : Pairing c l₁ l₂ z) (hnd₁ : (l₁.map key).Nodup) (hnd₂ : (l₂.map key).Nodup)
    (hq : q ∈ z) :
    (l₁.filter fun a => key a ≠ key q.1).map c = (l₂.filter fun a => key a ≠ key q.2).map c := by
  have hfilter : (z.filter fun r => key r.1 ≠ key q.1) = z.filter fun r => key r.2 ≠ key q.2 := by
    refine List.filter_congr fun r hr => ?_
    simp only [ne_eq, h.key_iff hnd₁ hnd₂ hq hr]
  refine map_eq (z := z.filter fun r => key r.1 ≠ key q.1) ⟨?_, ?_, ?_⟩
  · rw [← h.fst, List.filter_map]
    rfl
  · rw [← h.snd, List.filter_map, hfilter]
    rfl
  · exact fun r hr => h.same r (List.mem_of_mem_filter hr)

/-- **Changing the two elements of a pair, found by their keys.** -/
theorem update (h : Pairing c l₁ l₂ z) (hnd₁ : (l₁.map key).Nodup) (hnd₂ : (l₂.map key).Nodup)
    (hq : q ∈ z) {f₁ f₂ : α → α} (hf : c (f₁ q.1) = c (f₂ q.2)) :
    (l₁.map fun a => if key a = key q.1 then f₁ a else a).map c =
      (l₂.map fun a => if key a = key q.2 then f₂ a else a).map c := by
  have hinj : (z.map fun q => key q.1).Nodup := by
    rw [← h.fst, List.map_map] at hnd₁
    exact hnd₁
  rw [← h.fst, ← h.snd, List.map_map, List.map_map, List.map_map, List.map_map]
  refine List.map_congr_left fun r hr => ?_
  simp only [Function.comp_apply]
  by_cases hkey : key r.1 = key q.1
  · obtain rfl := List.inj_on_of_nodup_map hinj hr hq hkey
    rw [if_pos rfl, if_pos rfl, hf]
  · rw [if_neg hkey, if_neg ((h.key_iff hnd₁ hnd₂ hq hr).not.1 hkey), h.same r hr]

end Keys

end Pairing

end
