/-
**Computations with checked steps.**

A C function may divide by zero, shift too far or leave its memory, and a model of what it computes does not
show where.  Here the function is written a second time, with a demand in front of every such step; a demand
that is not met is a fault, which is kept apart from the failures of the function.  A checked computation
that has no fault does what the unchecked one does, so that the faults are all that is added.

Main definitions:

* `Prog.lift`, `Prog.demand` — a computation without demands, and a demand;
* `Prog.Faultless` — no demand is missed from a state;
* `Prog.Checked` — the second computation is the first one with demands.

Main results:

* `Prog.Checked.bind`, `Prog.Checked.demand_bind` — checked computations one after the other;
* `Prog.Checked.faultless_bind` — **what follows a checked computation starts where the unchecked one ends**;
* `Prog.Meets.lift`, `Prog.Meets.demand` — pre- and postconditions of computations with demands;
* `Prog.faultless_get_bind`, `Prog.faultless_check_bind`, `Prog.faultless_liftOption_bind`,
  `Prog.faultless_demand_bind` — a rule for every part of a computation.
-/

import PofSwitch.Prog
import Mathlib.Logic.Basic

set_option relaxedAutoImplicit false
set_option autoImplicit false

namespace Prog

variable {φ ε σ α β : Type}

/-! ### Demands and faults -/

/-- A computation without demands. -/
def lift (m : Prog ε σ α) : Prog (φ ⊕ ε) σ α :=
  ExceptT.mk fun s => ((exec m s).1.mapError Sum.inr, (exec m s).2)

/-- A step that needs the condition `c`. -/
def demand (c : Prop) [Decidable c] (e : φ) : Prog (φ ⊕ ε) σ Unit := check (¬ c) (.inl e)

/-- All demands are met from the state `s` on. -/
def Faultless (w : Prog (φ ⊕ ε) σ α) (s : σ) : Prop := ∀ e t, exec w s ≠ (.error (.inl e), t)

/-- `w` is the computation `m` with demands. -/
def Checked (w : Prog (φ ⊕ ε) σ α) (m : Prog ε σ α) : Prop :=
  ∀ s, Faultless w s → exec w s = exec (lift m) s

variable {w : Prog (φ ⊕ ε) σ α} {f : α → Prog (φ ⊕ ε) σ β} {m : Prog ε σ α} {k : α → Prog ε σ β} {s : σ}

theorem exec_lift (m : Prog ε σ α) (s : σ) :
    exec (lift m : Prog (φ ⊕ ε) σ α) s = ((exec m s).1.mapError Sum.inr, (exec m s).2) := rfl

/-- A lifted computation returns what the computation returns. -/
theorem exec_lift_eq_ok {a : α} {t : σ} :
    exec (lift m : Prog (φ ⊕ ε) σ α) s = (.ok a, t) ↔ exec m s = (.ok a, t) := by
  rw [exec_lift]
  rcases exec m s with ⟨e | b, u⟩
  · constructor
    · intro h
      cases h
    · intro h
      cases h
  · constructor
    · intro h
      cases h
      rfl
    · intro h
      cases h
      rfl

@[simp] theorem faultless_lift (m : Prog ε σ α) (s : σ) : Faultless (lift m : Prog (φ ⊕ ε) σ α) s := by
  intro e t h
  rw [exec_lift] at h
  rcases hm : exec m s with ⟨e' | b, u⟩
  · rw [hm] at h
    cases h
  · rw [hm] at h
    cases h

@[simp] theorem faultless_pure (a : α) (s : σ) : Faultless (pure a : Prog (φ ⊕ ε) σ α) s := by
  intro e t h
  cases h

/-- What follows runs from where the first computation ends. -/
theorem faultless_bind : Faultless (w >>= f) s ↔
    Faultless w s ∧ ∀ a t, exec w s = (.ok a, t) → Faultless (f a) t := by
  rcases hw : exec w s with ⟨e | a, t⟩
  · have hbind : exec (w >>= f) s = (.error e, t) := exec_bind_error hw
    simp only [Faultless, hw, hbind]
    constructor
    · intro h
      refine ⟨fun e' t' heq => ?_, fun a t' heq => ?_⟩
      · cases heq
        exact h _ _ rfl
      · cases heq
    · rintro ⟨h, -⟩ e' t' heq
      cases heq
      exact h _ _ rfl
  · have hbind : exec (w >>= f) s = exec (f a) t := exec_bind_ok hw
    simp only [Faultless, hw, hbind]
    constructor
    · intro h
      refine ⟨fun e' t' heq => ?_, fun a' t' heq => ?_⟩
      · cases heq
      · cases heq
        exact h
    · rintro ⟨-, h⟩
      exact h a t rfl

theorem exec_demand {c : Prop} [Decidable c] (h : c) (e : φ) (s : σ) :
    exec (demand c e : Prog (φ ⊕ ε) σ Unit) s = (.ok (), s) := by
  rw [demand, check, if_neg (not_not_intro h)]
  rfl

theorem faultless_demand {c : Prop} [Decidable c] {e : φ} :
    Faultless (demand c e : Prog (φ ⊕ ε) σ Unit) s ↔ c := by
  by_cases hc : c
  · refine iff_of_true (fun e' t h => ?_) hc
    rw [exec_demand hc] at h
    cases h
  · refine iff_of_false (fun h => h e s ?_) hc
    rw [demand, check, if_pos hc]
    rfl

/-- A demand is met, and the rest runs from the same state. -/
theorem faultless_demand_bind {c : Prop} [Decidable c] {e : φ} {g : Unit → Prog (φ ⊕ ε) σ β} :
    Faultless (demand c e >>= g) s ↔ c ∧ Faultless (g ()) s := by
  rw [faultless_bind, faultless_demand]
  constructor
  · rintro ⟨hc, hg⟩
    exact ⟨hc, hg () s (exec_demand hc e s)⟩
  · rintro ⟨hc, hg⟩
    refine ⟨hc, fun a t h => ?_⟩
    rw [exec_demand hc] at h
    cases h
    exact hg

/-! ### Checked computations -/

namespace Checked

theorem lift (m : Prog ε σ α) : Checked (Prog.lift m : Prog (φ ⊕ ε) σ α) m := fun _ _ => rfl

/-- From states in which the computation and the checked one return, they return the same. -/
theorem exec_eq_ok (hw : Checked w m) (h : Faultless w s) {a : α} {t : σ} :
    exec w s = (.ok a, t) ↔ exec m s = (.ok a, t) := by
  rw [hw s h, exec_lift_eq_ok]

theorem bind (hw : Checked w m) (hf : ∀ a, Checked (f a) (k a)) : Checked (w >>= f) (m >>= k) := by
  intro s h
  obtain ⟨hfirst, hrest⟩ := faultless_bind.1 h
  have hsame := hw s hfirst
  rw [exec_lift] at hsame
  rw [exec_lift]
  rcases hm : exec m s with ⟨e | a, t⟩
  · rw [hm] at hsame
    rw [exec_bind_error hsame, exec_bind_error hm]
    rfl
  · rw [hm] at hsame
    rw [exec_bind_ok hsame, exec_bind_ok hm, hf a t (hrest a t hsame), exec_lift]

/-- Demands may be added anywhere. -/
theorem demand_bind {c : Prop} [Decidable c] {e : φ} {g : Unit → Prog (φ ⊕ ε) σ α} (hg : Checked (g ()) m) :
    Checked (demand c e >>= g) m := by
  intro s h
  obtain ⟨hc, hrest⟩ := faultless_demand_bind.1 h
  rw [exec_bind_ok (exec_demand hc e s)]
  exact hg s hrest

/-- A look at the state that only the demands need. -/
theorem get_bind {g : σ → Prog (φ ⊕ ε) σ α} (hg : ∀ s, Checked (g s) m) : Checked (Prog.lift get >>= g) m := by
  intro s h
  refine hg s s fun e t hfault => h e t ?_
  rw [exec_bind_ok (exec_lift_eq_ok.2 exec_get), hfault]

/-- What follows a checked computation runs from where the unchecked one ends. -/
theorem faultless_bind (hw : Checked w m) : Faultless (w >>= f) s ↔
    Faultless w s ∧ ∀ a t, exec m s = (.ok a, t) → Faultless (f a) t := by
  rw [Prog.faultless_bind]
  refine and_congr_right fun h => ?_
  simp only [hw.exec_eq_ok h]

end Checked

/-- What follows a computation without demands. -/
theorem faultless_lift_bind : Faultless (lift m >>= f) s ↔
    ∀ a t, exec m s = (.ok a, t) → Faultless (f a) t := by
  rw [(Checked.lift m).faultless_bind]
  simp only [faultless_lift, true_and]

/-! ### Rules for the parts of a computation -/

theorem faultless_get_bind {g : σ → Prog (φ ⊕ ε) σ β} : Faultless (lift get >>= g) s ↔ Faultless (g s) s := by
  rw [faultless_lift_bind]
  constructor
  · intro h
    exact h s s rfl
  · intro h a t heq
    cases heq
    exact h

theorem faultless_modify_bind {u : σ → σ} {g : PUnit → Prog (φ ⊕ ε) σ β} :
    Faultless (lift (modify u) >>= g) s ↔ Faultless (g ⟨⟩) (u s) := by
  rw [faultless_lift_bind]
  constructor
  · intro h
    exact h _ _ rfl
  · intro h a t heq
    cases heq
    exact h

/-- The rest runs when the check does not fail. -/
theorem faultless_check_bind {c : Prop} [Decidable c] {e : ε} {g : Unit → Prog (φ ⊕ ε) σ β} :
    Faultless (lift (check c e) >>= g) s ↔ (¬ c → Faultless (g ()) s) := by
  rw [faultless_lift_bind]
  by_cases hc : c
  · rw [check, if_pos hc]
    refine iff_of_true (fun a t heq => ?_) (fun hnot => absurd hc hnot)
    cases heq
  · rw [check, if_neg hc]
    constructor
    · intro h _
      exact h _ _ rfl
    · intro h a t heq
      cases heq
      exact h hc

/-- The rest runs when there is a value. -/
theorem faultless_liftOption_bind {o : Option α} {e : ε} {g : α → Prog (φ ⊕ ε) σ β} :
    Faultless (lift (liftOption o e) >>= g) s ↔ ∀ a, o = some a → Faultless (g a) s := by
  rw [faultless_lift_bind]
  cases o with
  | none =>
      refine iff_of_true (fun a t heq => ?_) (fun a ha => ?_)
      · cases heq
      · cases ha
  | some b =>
      constructor
      · intro h a ha
        cases ha
        exact h _ _ rfl
      · intro h a t heq
        cases heq
        exact h _ rfl

/-! ### Pre- and postconditions -/

section Meets

variable {P : σ → Prop} {Q : α → σ → Prop} {R : β → σ → Prop} {E : φ ⊕ ε → σ → Prop}

theorem Meets.lift (h : Meets P m Q fun e s => E (.inr e) s) : Meets P (Prog.lift m) Q E where
  ok hs hr := h.ok hs (exec_lift_eq_ok.1 hr)
  error {s _ _} hs hr := by
    rw [exec_lift] at hr
    rcases hm : exec m s with ⟨e | a, t⟩
    · rw [hm] at hr
      cases hr
      exact h.error hs hm
    · rw [hm] at hr
      cases hr

/-- A demand keeps the state; when it is missed, the fault satisfies `E`. -/
theorem Meets.demand {c : Prop} [Decidable c] {e : φ} (h : ∀ s, P s → ¬ c → E (.inl e) s) :
    Meets P (Prog.demand c e : Prog (φ ⊕ ε) σ Unit) (fun _ => P) E where
  ok {s _ _} hs hr := by
    by_cases hc : c
    · rw [exec_demand hc] at hr
      cases hr
      exact hs
    · rw [Prog.demand, check, if_pos hc] at hr
      cases hr
  error {s _ _} hs hr := by
    by_cases hc : c
    · rw [exec_demand hc] at hr
      cases hr
    · rw [Prog.demand, check, if_pos hc] at hr
      cases hr
      exact h s hs hc

theorem Meets.lift_get_bind {g : σ → Prog (φ ⊕ ε) σ β} (h : ∀ s₀, P s₀ → Meets (fun s => s = s₀) (g s₀) R E) :
    Meets P (Prog.lift get >>= g) R E where
  ok {s _ _} hs hr := (h s hs).ok rfl (by rwa [exec_bind_ok (exec_lift_eq_ok.2 exec_get)] at hr)
  error {s _ _} hs hr := (h s hs).error rfl (by rwa [exec_bind_ok (exec_lift_eq_ok.2 exec_get)] at hr)

end Meets

/-- The last step has no demand. -/
theorem faultless_bind_lift {n : α → Prog ε σ β} :
    Faultless (w >>= fun a => lift (n a)) s ↔ Faultless w s := by
  rw [faultless_bind]
  simp only [faultless_lift, implies_true, and_true]

end Prog
