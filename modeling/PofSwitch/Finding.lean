/-
**Things that are found by their keys.**

A store keeps things in a list, or in a structure over one, and finds a thing by its key.  In whatever order
it searches, when it finds exactly the things that are there, what it finds is a function of the key, and the
function depends on the things alone.  So what is done to the list says what is done to the function: an
insertion, a deletion or a replacement of a thing is an update at its key.

Main definitions:

* `Finds` — a lookup finds exactly the things of a list, by their keys.

Main results:

* `finds_find?` — a search through a list with different keys, in any order, finds its things;
* `Finds.insert`, `Finds.delete`, `Finds.replace` — **a change of one thing is an update at its key.**
-/

import Mathlib.Data.List.Nodup
import Mathlib.Data.List.Perm.Basic
import Mathlib.Logic.Function.Basic

set_option relaxedAutoImplicit false
set_option autoImplicit false

/-- The lookup finds the things of the list, each by its key, and nothing else. -/
def Finds {α κ : Type} (key : α → κ) (l : List α) (look : κ → Option α) : Prop :=
  ∀ k a, look k = some a ↔ a ∈ l ∧ key a = k

section Finding

variable {α κ : Type} {key : α → κ} {l l' : List α} {look look' : κ → Option α} {a b : α}

/-- A search through a list with different keys finds its things, in whatever order it goes. -/
theorem finds_find? [DecidableEq κ] (hnodup : (l.map key).Nodup) (hperm : l'.Perm l) :
    Finds key l fun k => l'.find? fun a => key a = k := by
  intro k a
  constructor
  · intro h
    have hkey := List.find?_some h
    exact ⟨hperm.mem_iff.1 (List.mem_of_find?_eq_some h), of_decide_eq_true hkey⟩
  · rintro ⟨ha, rfl⟩
    cases hfind : l'.find? fun b => key b = key a with
    | none =>
        have hnone := List.find?_eq_none.1 hfind a (hperm.mem_iff.2 ha)
        exact absurd (decide_eq_true rfl) hnone
    | some b =>
        have hkey := List.find?_some hfind
        have hb := hperm.mem_iff.1 (List.mem_of_find?_eq_some hfind)
        have heq : b = a := List.inj_on_of_nodup_map hnodup hb ha (of_decide_eq_true hkey)
        exact hfind.trans (congrArg some heq)

namespace Finds

/-- A thing of the list is found by its key. -/
theorem self (h : Finds key l look) (ha : a ∈ l) : look (key a) = some a := (h (key a) a).2 ⟨ha, rfl⟩

/-- Things of the list with one key are one thing. -/
theorem injOn (h : Finds key l look) (ha : a ∈ l) (hb : b ∈ l) (hkey : key a = key b) : a = b := by
  have hfound := h.self hb
  rw [← hkey, h.self ha] at hfound
  exact Option.some.inj hfound

variable [DecidableEq κ]

/-- **One thing more.** -/
theorem insert (h : Finds key l look) (h' : Finds key l' look') (hmem : ∀ b, b ∈ l' ↔ b = a ∨ b ∈ l) :
    look' = Function.update look (key a) (some a) := by
  funext k
  by_cases hk : k = key a
  · rw [hk, Function.update_self]
    exact h'.self ((hmem a).2 (Or.inl rfl))
  · rw [Function.update_of_ne hk]
    refine Option.ext fun b => ?_
    rw [h' k b, h k b, hmem b]
    constructor
    · rintro ⟨rfl | hb, rfl⟩
      · exact absurd rfl hk
      · exact ⟨hb, rfl⟩
    · exact fun hb => ⟨Or.inr hb.1, hb.2⟩

/-- **One thing less.** -/
theorem delete (h : Finds key l look) (h' : Finds key l' look') (ha : a ∈ l)
    (hmem : ∀ b, b ∈ l' ↔ b ∈ l ∧ b ≠ a) : look' = Function.update look (key a) none := by
  funext k
  by_cases hk : k = key a
  · rw [hk, Function.update_self]
    refine Option.eq_none_iff_forall_ne_some.2 fun b hb => ?_
    obtain ⟨hb, hkey⟩ := (h' _ b).1 hb
    obtain ⟨hb, hne⟩ := (hmem b).1 hb
    exact hne (h.injOn hb ha hkey)
  · rw [Function.update_of_ne hk]
    refine Option.ext fun b => ?_
    rw [h' k b, h k b, hmem b]
    constructor
    · exact fun hb => ⟨hb.1.1, hb.2⟩
    · rintro ⟨hb, rfl⟩
      exact ⟨⟨hb, fun heq => hk (congrArg key heq)⟩, rfl⟩

/-- **Another thing with the same key in the place of one.** -/
theorem replace (h : Finds key l look) (h' : Finds key l' look') (hkey : key b = key a)
    (hmem : ∀ c, c ∈ l' ↔ c = b ∨ c ∈ l ∧ c ≠ a) : look' = Function.update look (key a) (some b) := by
  funext k
  by_cases hk : k = key a
  · rw [hk, Function.update_self, ← hkey]
    exact h'.self ((hmem b).2 (Or.inl rfl))
  · rw [Function.update_of_ne hk]
    refine Option.ext fun c => ?_
    rw [h' k c, h k c, hmem c]
    constructor
    · rintro ⟨rfl | hc, rfl⟩
      · exact absurd hkey hk
      · exact ⟨hc.1, rfl⟩
    · rintro ⟨hc, rfl⟩
      exact ⟨Or.inr ⟨hc, fun heq => hk (congrArg key heq)⟩, rfl⟩

end Finds

end Finding
