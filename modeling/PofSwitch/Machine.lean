/-
**Machines with inputs and outputs.**

A machine goes from a state and an input to the next state, with a list of outputs; it may also be stuck
or undefined there, and then it leads nowhere.  A run is given by its inputs.  Its outputs are kept in
blocks, one for each input, so that what was put out can be told by what it answers.

Main definitions:

* `Machine`, `Machine.run` — a machine, and the end and the blocks of a run;
* `Machine.Along` — what is promised for every step of a run.

Main results:

* `Machine.run_refines` — **a machine whose steps are steps of another has only runs of the other**;
* `Machine.run_map` — **a machine whose steps are the steps of another has its runs.**
-/

import Mathlib.Data.List.Forall2

set_option relaxedAutoImplicit false
set_option autoImplicit false

/-- A machine over states `σ`, inputs `ι` and outputs `ο`. -/
structure Machine (σ ι ο : Type) where
  step : σ → ι → Option (σ × List ο)

namespace Machine

variable {σ ι ο : Type} {M : Machine σ ι ο} {s t : σ} {i : ι} {is : List ι} {bs : List (List ο)}

/-- The state after a run, and the outputs, a block for each input. -/
def run (M : Machine σ ι ο) : σ → List ι → Option (σ × List (List ο))
  | s, [] => some (s, [])
  | s, i :: is => (M.step s i).bind fun r => (M.run r.1 is).map fun r' => (r'.1, r.2 :: r'.2)

@[simp] theorem run_nil (M : Machine σ ι ο) (s : σ) : M.run s [] = some (s, []) := rfl

/-- A run is a step and a run. -/
theorem run_cons : M.run s (i :: is) = some (t, bs) ↔
    ∃ s' os bs', M.step s i = some (s', os) ∧ M.run s' is = some (t, bs') ∧ bs = os :: bs' := by
  constructor
  · intro h
    obtain ⟨⟨s', os⟩, hstep, hrest⟩ := Option.bind_eq_some_iff.1 h
    obtain ⟨⟨t', bs'⟩, hrun, heq⟩ := Option.map_eq_some_iff.1 hrest
    obtain ⟨rfl, rfl⟩ := Prod.mk.inj heq
    exact ⟨s', os, bs', hstep, hrun, rfl⟩
  · rintro ⟨s', os, bs', hstep, hrun, rfl⟩
    rw [run, hstep, Option.bind_some, hrun, Option.map_some]

/-- Every step of the run is taken under a condition on the state and the input. -/
def Along (M : Machine σ ι ο) (G : σ → ι → Prop) : σ → List ι → Prop
  | _, [] => True
  | s, i :: is => G s i ∧ ∀ s' os, M.step s i = some (s', os) → M.Along G s' is

/-- No condition is kept by every run. -/
theorem along_true (M : Machine σ ι ο) (s : σ) (is : List ι) : M.Along (fun _ _ => True) s is := by
  induction is generalizing s with
  | nil => trivial
  | cons i is ih => exact ⟨trivial, fun s' _ _ => ih s'⟩

section Rules

variable {τ κ π : Type} {G : σ → ι → Prop}

/-- **Refinement**: when every step is one of another machine, from related states to related states and
with outputs that correspond, then so is every run.  What is promised for a step may be promised in the
states of either machine. -/
theorem run_refines {N : Machine τ κ π} {f : ι → κ} {R : σ → τ → Prop} {H : τ → κ → Prop}
    {D : List ο → List π → Prop}
    (hstep : ∀ s u i s' os, R s u → G s i → H u (f i) → M.step s i = some (s', os) →
      ∃ u' ps, N.step u (f i) = some (u', ps) ∧ R s' u' ∧ D os ps)
    {u : τ} (hs : R s u) (halong : M.Along G s is) (halong' : N.Along H u (is.map f))
    (h : M.run s is = some (t, bs)) :
    ∃ v cs, N.run u (is.map f) = some (v, cs) ∧ R t v ∧ List.Forall₂ D bs cs := by
  induction is generalizing s u bs with
  | nil =>
      cases h
      exact ⟨u, [], rfl, hs, List.Forall₂.nil⟩
  | cons i is ih =>
      obtain ⟨s', os, bs', hfirst, hrun, rfl⟩ := run_cons.1 h
      obtain ⟨u', ps, hfirst', hs', hout⟩ := hstep s u i s' os hs halong.1 halong'.1 hfirst
      obtain ⟨v, cs, hrun', ht, houts⟩ := ih hs' (halong.2 s' os hfirst) (halong'.2 u' ps hfirst') hrun
      exact ⟨v, ps :: cs, run_cons.2 ⟨u', ps, cs, hfirst', hrun', rfl⟩, ht, List.Forall₂.cons hout houts⟩

/-- **An image**: when every step, seen through a function, is the step of another machine, then every run is
its run.  Where one is stuck, so is the other. -/
theorem run_map {N : Machine τ ι ο} {p : σ → τ} {I : σ → Prop} {H : τ → ι → Prop}
    (hstep : ∀ s i, I s → G s i → H (p s) i → (M.step s i).map (fun r => (p r.1, r.2)) = N.step (p s) i)
    (hkeep : ∀ s i s' os, I s → G s i → H (p s) i → M.step s i = some (s', os) → I s')
    (hs : I s) (halong : M.Along G s is) (halong' : N.Along H (p s) is) :
    (M.run s is).map (fun r => (p r.1, r.2)) = N.run (p s) is := by
  induction is generalizing s with
  | nil => rfl
  | cons i is ih =>
      have hfirst := hstep s i hs halong.1 halong'.1
      rw [run, run, ← hfirst]
      cases hM : M.step s i with
      | none => rfl
      | some r =>
          rw [hM] at hfirst
          have hrest := ih (hkeep s i r.1 r.2 hs halong.1 halong'.1 hM) (halong.2 r.1 r.2 hM)
            (halong'.2 (p r.1) r.2 hfirst.symm)
          simp only [Option.bind_some, Option.map_some, ← hrest, Option.map_map]
          rfl

end Rules

end Machine
