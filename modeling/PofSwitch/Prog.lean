/-
**Computations with a state and failures.**

A `Prog ε σ α` runs on a state `σ` and returns a value or fails with an `ε`; the state it has
reached survives a failure.  This is what a C function is that works on a structure through a
pointer and returns an error code.  Four judgements about such computations are set up, each with a
rule for every way of putting computations together:

* `Frame part m` — however `m` ends, the part of the state that `part` selects is as before;
* `Commutes g m` — a change `g` of the state may be made before or after `m`;
* `Meets P m Q E` — from a state with `P`, a value returned satisfies `Q` and a failure satisfies
  `E`;
* `Agree Q E x y` — two outcomes are one value with states in `Q`, or one failure with states in `E`.

Main definitions:

* `Prog`, `Prog.exec`, `Prog.check`, `Prog.liftOption`, `Prog.onError`;
* `Prog.Frame`, `Prog.Commutes`, `Prog.Meets`, `Prog.Agree`.

Main results:

* `Prog.Frame.bind`, `Prog.Commutes.bind`, `Prog.Meets.bind`, `Prog.Agree.bind` — sequential
  composition;
* `Prog.Meets.of_frame` — what depends on an untouched part only is kept.
-/

import Mathlib.Logic.Basic

set_option relaxedAutoImplicit false
set_option autoImplicit false

/-- A computation that works on a state and may fail; the state survives a failure. -/
abbrev Prog (ε σ : Type) : Type → Type := ExceptT ε (StateM σ)

namespace Prog

variable {ε σ α β γ : Type}

/-! ### Running a computation -/

/-- The outcome of a computation and the state it leaves. -/
def exec (m : Prog ε σ α) (s : σ) : Except ε α × σ := (ExceptT.run m).run s

/-- Fail with `e` when a condition holds. -/
def check (c : Prop) [Decidable c] (e : ε) : Prog ε σ Unit := if c then throw e else pure ()

/-- The value of an option, or a failure. -/
def liftOption (o : Option α) (e : ε) : Prog ε σ α :=
  match o with
  | some a => pure a
  | none => throw e

/-- Run `m` and change the state when it fails; the failure goes on. -/
def onError (m : Prog ε σ α) (f : ε → σ → σ) : Prog ε σ α :=
  tryCatch m fun e => do
    modify (f e)
    throw e

variable {m : Prog ε σ α} {f : α → Prog ε σ β} {s : σ}

@[simp] theorem exec_pure (a : α) : exec (pure a : Prog ε σ α) s = (.ok a, s) := rfl

@[simp] theorem exec_throw (e : ε) : exec (throw e : Prog ε σ α) s = (.error e, s) := rfl

@[simp] theorem exec_get : exec (get : Prog ε σ σ) s = (.ok s, s) := rfl

@[simp] theorem exec_modify (g : σ → σ) : exec (modify g : Prog ε σ PUnit) s = (.ok ⟨⟩, g s) := rfl

theorem exec_bind : exec (m >>= f) s =
    match exec m s with
    | (.ok a, s') => exec (f a) s'
    | (.error e, s') => (.error e, s') := by
  simp only [exec, ExceptT.run_bind, StateT.run_bind]
  rcases (ExceptT.run m).run s with ⟨_ | _, _⟩ <;> rfl

theorem exec_bind_ok {a : α} {s' : σ} (h : exec m s = (.ok a, s')) :
    exec (m >>= f) s = exec (f a) s' := by
  rw [exec_bind, h]

theorem exec_bind_error {e : ε} {s' : σ} (h : exec m s = (.error e, s')) :
    exec (m >>= f) s = (.error e, s') := by
  rw [exec_bind, h]

theorem exec_liftOption_some (a : α) (e : ε) : exec (liftOption (some a) e : Prog ε σ α) s = (.ok a, s) := rfl

/-- What comes after an option runs when there is a value. -/
theorem exec_liftOption_cases {o : Option α} {e : ε} {r : Except ε β} {t : σ}
    (h : exec (liftOption o e >>= f) s = (r, t)) :
    (o = none ∧ r = .error e ∧ t = s) ∨ ∃ a, o = some a ∧ exec (f a) s = (r, t) := by
  cases o with
  | none =>
      cases h
      exact Or.inl ⟨rfl, rfl, rfl⟩
  | some a => exact Or.inr ⟨a, rfl, h⟩

theorem exec_onError (g : ε → σ → σ) : exec (onError m g) s =
    match exec m s with
    | (.ok a, s') => (.ok a, s')
    | (.error e, s') => (.error e, g e s') := by
  simp only [exec, onError, tryCatch, tryCatchThe, MonadExceptOf.tryCatch, ExceptT.tryCatch,
    ExceptT.run_mk, StateT.run_bind]
  rcases hr : (ExceptT.run m).run s with ⟨_ | _, _⟩
  · simp only [ExceptT.run] at hr
    rw [hr]
    rfl
  · simp only [ExceptT.run] at hr
    rw [hr]
    rfl

/-! ### Untouched parts -/

/-- However `m` ends, it leaves `part` of the state as it found it. -/
def Frame (part : σ → γ) (m : Prog ε σ α) : Prop := ∀ s, part (exec m s).2 = part s

namespace Frame

variable {part : σ → γ}

theorem pure (a : α) : Frame part (Pure.pure a : Prog ε σ α) := fun _ => rfl

theorem throw (e : ε) : Frame part (MonadExcept.throw e : Prog ε σ α) := fun _ => rfl

theorem get : Frame part (MonadState.get : Prog ε σ σ) := fun _ => rfl

theorem modify {g : σ → σ} (h : ∀ s, part (g s) = part s) :
    Frame part (modify g : Prog ε σ PUnit) := h

theorem bind (hm : Frame part m) (hf : ∀ a, Frame part (f a)) : Frame part (m >>= f) := by
  intro s
  have hm := hm s
  rw [exec_bind]
  rcases hr : exec m s with ⟨e | a, s'⟩
  · rwa [hr] at hm
  · rw [hr] at hm
    exact (hf a s').trans hm

theorem check (c : Prop) [Decidable c] (e : ε) : Frame part (check c e : Prog ε σ Unit) := by
  intro s
  unfold Prog.check
  split
  · rfl
  · rfl

theorem liftOption (o : Option α) (e : ε) : Frame part (liftOption o e : Prog ε σ α) := by
  intro s
  cases o <;> rfl

/-- A computation chosen by looking at the state. -/
theorem get_bind {g : σ → Prog ε σ β} (h : ∀ s, Frame part (g s)) :
    Frame part (MonadState.get >>= g) := get.bind h

/-- A part of an untouched part is untouched. -/
theorem comp {δ : Type} (h : Frame part m) (g : γ → δ) : Frame (fun s => g (part s)) m :=
  fun s => congrArg g (h s)

/-- A computation that leaves a part alone, and what comes after it. -/
theorem bind_cases {r : Except ε β} {t : σ} (hm : Frame part m) (h : exec (m >>= f) s = (r, t)) :
    (∃ e, r = .error e ∧ part t = part s) ∨
      ∃ a s', exec m s = (.ok a, s') ∧ part s' = part s ∧ exec (f a) s' = (r, t) := by
  have hs := hm s
  rcases hr : exec m s with ⟨e | a, s'⟩
  · rw [hr] at hs
    rw [exec_bind_error hr] at h
    cases h
    exact Or.inl ⟨e, rfl, hs⟩
  · rw [hr] at hs
    rw [exec_bind_ok hr] at h
    exact Or.inr ⟨a, s', rfl, hs, h⟩

/-- Two untouched parts. -/
theorem prod {δ : Type} {part' : σ → δ} (h : Frame part m) (h' : Frame part' m) :
    Frame (fun s => (part s, part' s)) m :=
  fun s => Prod.ext (h s) (h' s)

/-- A change of the state when `m` fails. -/
theorem onError {g : ε → σ → σ} (h : Frame part m) (hg : ∀ e s, part (g e s) = part s) :
    Frame part (onError m g) := by
  intro s
  have hs := h s
  rw [exec_onError]
  rcases hr : exec m s with ⟨e | a, s'⟩
  · rw [hr] at hs
    exact (hg e s').trans hs
  · rw [hr] at hs
    exact hs

/-- A computation that changes nothing. -/
theorem same {r : Except ε α} {s' : σ} (h : Frame id m) (hr : exec m s = (r, s')) : s' = s := by
  have hs := h s
  rw [hr] at hs
  exact hs

end Frame

/-! ### Changes a computation does not notice -/

/-- The change `g` of the state may be made before or after `m`. -/
def Commutes (g : σ → σ) (m : Prog ε σ α) : Prop := ∀ s, exec m (g s) = ((exec m s).1, g (exec m s).2)

namespace Commutes

variable {g : σ → σ}

theorem pure (a : α) : Commutes g (Pure.pure a : Prog ε σ α) := fun _ => rfl

theorem throw (e : ε) : Commutes g (MonadExcept.throw e : Prog ε σ α) := fun _ => rfl

theorem modify {k : σ → σ} (h : ∀ s, k (g s) = g (k s)) : Commutes g (modify k : Prog ε σ PUnit) := by
  intro s
  rw [exec_modify, exec_modify, h]

theorem bind (hm : Commutes g m) (hf : ∀ a, Commutes g (f a)) : Commutes g (m >>= f) := by
  intro s
  have hm := hm s
  rcases hr : exec m s with ⟨e | a, s'⟩
  · rw [hr] at hm
    rw [exec_bind_error hm, exec_bind_error hr]
  · rw [hr] at hm
    rw [exec_bind_ok hm, exec_bind_ok hr, hf a s']

/-- A computation chosen by looking at a part of the state that `g` does not change. -/
theorem get_bind {k : σ → Prog ε σ β} (hk : ∀ s, k (g s) = k s) (h : ∀ s, Commutes g (k s)) :
    Commutes g (MonadState.get >>= k) := by
  intro s
  rw [exec_bind_ok exec_get, exec_bind_ok exec_get, hk]
  exact h s s

theorem check (c : Prop) [Decidable c] (e : ε) : Commutes g (check c e : Prog ε σ Unit) := by
  unfold Prog.check
  split
  · exact throw e
  · exact pure ()

theorem liftOption (o : Option α) (e : ε) : Commutes g (liftOption o e : Prog ε σ α) := by
  cases o with
  | none => exact throw e
  | some a => exact pure a

/-- A part that could have been set to anything is untouched. -/
theorem frame {part : σ → γ} {put : γ → σ → σ} (h : ∀ c, Commutes (put c) m)
    (hput : ∀ s, put (part s) s = s) (hpart : ∀ c s, part (put c s) = c) : Frame part m := by
  intro s
  have hs := h (part s) s
  rw [hput] at hs
  rw [hs]
  exact hpart _ _

end Commutes

/-! ### Pre- and postconditions -/

/-- From a state with `P`, a value that `m` returns satisfies `Q` together with the state reached,
and a failure satisfies `E`. -/
structure Meets (P : σ → Prop) (m : Prog ε σ α) (Q : α → σ → Prop) (E : ε → σ → Prop) : Prop where
  ok : ∀ {s a s'}, P s → exec m s = (.ok a, s') → Q a s'
  error : ∀ {s e s'}, P s → exec m s = (.error e, s') → E e s'

namespace Meets

variable {P : σ → Prop} {Q : α → σ → Prop} {R : β → σ → Prop} {E : ε → σ → Prop}

theorem pure {a : α} (h : ∀ s, P s → Q a s) : Meets P (Pure.pure a : Prog ε σ α) Q E where
  ok hs hr := by
    cases hr
    exact h _ hs
  error _ hr := by cases hr

theorem throw {e : ε} (h : ∀ s, P s → E e s) : Meets P (MonadExcept.throw e : Prog ε σ α) Q E where
  ok _ hr := by cases hr
  error hs hr := by
    cases hr
    exact h _ hs

theorem modify {Q : PUnit → σ → Prop} {g : σ → σ} (h : ∀ s, P s → Q ⟨⟩ (g s)) :
    Meets P (modify g : Prog ε σ PUnit) Q E where
  ok hs hr := by
    cases hr
    exact h _ hs
  error _ hr := by cases hr

theorem bind (hm : Meets P m Q E) (hf : ∀ a, Meets (Q a) (f a) R E) : Meets P (m >>= f) R E where
  ok {s b s'} hs hr := by
    rw [exec_bind] at hr
    rcases hexec : exec m s with ⟨e | a, s₁⟩
    · rw [hexec] at hr
      cases hr
    · rw [hexec] at hr
      exact (hf a).ok (hm.ok hs hexec) hr
  error {s e s'} hs hr := by
    rw [exec_bind] at hr
    rcases hexec : exec m s with ⟨e' | a, s₁⟩
    · rw [hexec] at hr
      cases hr
      exact hm.error hs hexec
    · rw [hexec] at hr
      exact (hf a).error (hm.ok hs hexec) hr

/-- A computation chosen by looking at the state. -/
theorem get_bind {g : σ → Prog ε σ β} (h : ∀ s₀, P s₀ → Meets (fun s => s = s₀) (g s₀) R E) :
    Meets P (MonadState.get >>= g) R E where
  ok {s _ _} hs hr := (h s hs).ok rfl hr
  error {s _ _} hs hr := (h s hs).error rfl hr

/-- The rest runs when there is a value. -/
theorem liftOption_bind {o : Option α} {e : ε} (hsome : ∀ a, o = some a → Meets P (f a) R E)
    (hnone : ∀ s, P s → E e s) : Meets P (liftOption o e >>= f) R E := by
  cases ho : o with
  | none => exact (throw hnone).bind (Q := fun _ _ => False) fun _ => ⟨False.elim, False.elim⟩
  | some a => exact hsome a ho

theorem conseq {P' : σ → Prop} {Q' : α → σ → Prop} {E' : ε → σ → Prop} (h : Meets P m Q E)
    (hP : ∀ s, P' s → P s) (hQ : ∀ a s, Q a s → Q' a s) (hE : ∀ e s, E e s → E' e s) :
    Meets P' m Q' E' where
  ok hs hr := hQ _ _ (h.ok (hP _ hs) hr)
  error hs hr := hE _ _ (h.error (hP _ hs) hr)

/-- What depends on an untouched part only is kept. -/
theorem of_frame {part : σ → γ} {K : γ → Prop} (h : Frame part m) (hP : ∀ s, P s → K (part s))
    (hQ : ∀ a s, K (part s) → Q a s) (hE : ∀ e s, K (part s) → E e s) : Meets P m Q E where
  ok {s a s'} hs hr := by
    have hpart := h s
    rw [hr] at hpart
    exact hQ a s' (hpart ▸ hP s hs)
  error {s e s'} hs hr := by
    have hpart := h s
    rw [hr] at hpart
    exact hE e s' (hpart ▸ hP s hs)

/-- A change of the state when `m` fails. -/
theorem onError {g : ε → σ → σ} {E' : ε → σ → Prop} (h : Meets P m Q E)
    (hE : ∀ e s, E e s → E' e (g e s)) : Meets P (onError m g) Q E' where
  ok {s a s'} hs hr := by
    rw [exec_onError] at hr
    rcases hexec : exec m s with ⟨e | b, s₁⟩
    · rw [hexec] at hr
      cases hr
    · rw [hexec] at hr
      cases hr
      exact h.ok hs hexec
  error {s e s'} hs hr := by
    rw [exec_onError] at hr
    rcases hexec : exec m s with ⟨e' | b, s₁⟩
    · rw [hexec] at hr
      cases hr
      exact hE e s₁ (h.error hs hexec)
    · rw [hexec] at hr
      cases hr

end Meets

/-! ### Two computations side by side -/

/-- Two outcomes agree: one value with states in `Q`, or one failure with states in `E`. -/
inductive Agree (Q E : σ → σ → Prop) : Except ε α × σ → Except ε α × σ → Prop
  | ok {a : α} {s t : σ} : Q s t → Agree Q E (.ok a, s) (.ok a, t)
  | error {e : ε} {s t : σ} : E s t → Agree Q E (.error e, s) (.error e, t)

namespace Agree

variable {Q R E : σ → σ → Prop} {m' : Prog ε σ α} {f' : α → Prog ε σ β} {t : σ}

theorem result {x y : Except ε α × σ} (h : Agree Q E x y) : x.1 = y.1 := by
  cases h with
  | ok _ => rfl
  | error _ => rfl

theorem conseq {Q' E' : σ → σ → Prop} {x y : Except ε α × σ} (h : Agree Q E x y)
    (hQ : ∀ s t, Q s t → Q' s t) (hE : ∀ s t, E s t → E' s t) : Agree Q' E' x y := by
  cases h with
  | ok hq => exact ok (hQ _ _ hq)
  | error he => exact error (hE _ _ he)

/-- What holds of the states however the computations end. -/
theorem states {x y : Except ε α × σ} (h : Agree Q E x y) (hQ : ∀ s t, Q s t → E s t) : E x.2 y.2 := by
  cases h with
  | ok hq => exact hQ _ _ hq
  | error he => exact he

theorem bind_ok (h : Agree Q E (exec m s) (exec m' t))
    (hf : ∀ a s' t', exec m s = (.ok a, s') → exec m' t = (.ok a, t') → Q s' t' →
      Agree R E (exec (f a) s') (exec (f' a) t')) :
    Agree R E (exec (m >>= f) s) (exec (m' >>= f') t) := by
  rcases hm : exec m s with ⟨e | a, s'⟩
  · rw [hm] at h
    rcases hm' : exec m' t with ⟨e' | a', t'⟩
    · rw [hm'] at h
      cases h with
      | error he =>
          rw [exec_bind_error hm, exec_bind_error hm']
          exact error he
    · rw [hm'] at h
      cases h
  · rw [hm] at h
    rcases hm' : exec m' t with ⟨e' | a', t'⟩
    · rw [hm'] at h
      cases h
    · rw [hm'] at h
      cases h with
      | ok hq =>
          rw [exec_bind_ok hm, exec_bind_ok hm']
          exact hf _ _ _ hm hm' hq

theorem bind (h : Agree Q E (exec m s) (exec m' t))
    (hf : ∀ a s' t', Q s' t' → Agree R E (exec (f a) s') (exec (f' a) t')) :
    Agree R E (exec (m >>= f) s) (exec (m' >>= f') t) :=
  h.bind_ok fun a s' t' _ _ => hf a s' t'

theorem get_bind {g g' : σ → Prog ε σ β} (h : Agree R E (exec (g s) s) (exec (g' t) t)) :
    Agree R E (exec (get >>= g) s) (exec (get >>= g') t) :=
  h

/-- A failure takes the place of an end that the other computation does not come to. -/
theorem bind_throw {e : ε} {m' : Prog ε σ β} {m : Prog ε σ β} (h : Agree Q E (exec m s) (exec m' t))
    (hfail : ∀ b, (exec m' t).1 ≠ .ok b) :
    Agree R E (exec (m >>= fun _ => (throw e : Prog ε σ β)) s) (exec m' t) := by
  rcases hm : exec m s with ⟨e' | b, s'⟩
  · rw [exec_bind_error hm]
    rw [hm] at h
    rcases hm' : exec m' t with ⟨e'' | b', t'⟩
    · rw [hm'] at h
      cases h with
      | error he => exact error he
    · rw [hm'] at h
      cases h
  · have hres := h.result
    rw [hm] at hres
    exact absurd hres.symm (hfail b)

/-- Conditions that come out alike. -/
theorem check {c c' : Prop} [Decidable c] [Decidable c'] {e : ε} (hc : c ↔ c') (hE : c → E s t)
    (hQ : ¬ c → Q s t) : Agree Q E (exec (Prog.check c e) s) (exec (Prog.check c' e) t) := by
  unfold Prog.check
  by_cases h : c
  · rw [if_pos h, if_pos (hc.1 h)]
    exact error (hE h)
  · rw [if_neg h, if_neg fun h' => h (hc.2 h')]
    exact ok (hQ h)

/-- Values that are there or missing alike. -/
theorem liftOption_bind {o o' : Option α} {e : ε} (ho : o = none ↔ o' = none) (hE : E s t)
    (hf : ∀ a a', o = some a → o' = some a' → Agree R E (exec (f a) s) (exec (f' a') t)) :
    Agree R E (exec (liftOption o e >>= f) s) (exec (liftOption o' e >>= f') t) := by
  cases o with
  | none =>
      rw [ho.1 rfl]
      exact error hE
  | some a =>
      cases o' with
      | none => cases ho.2 rfl
      | some a' => exact hf a a' rfl rfl

/-- A change of the state after a failure. -/
theorem onError {g : ε → σ → σ} (h : Agree Q E (exec m s) (exec m' t))
    (hg : ∀ e s t, E s t → E (g e s) (g e t)) :
    Agree Q E (exec (onError m g) s) (exec (onError m' g) t) := by
  rw [exec_onError, exec_onError]
  rcases hm : exec m s with ⟨e | a, s'⟩ <;> rcases hm' : exec m' t with ⟨e' | a', t'⟩ <;>
    rw [hm, hm'] at h <;> cases h
  · exact error (hg _ _ _ ‹_›)
  · exact ok ‹_›

end Agree

end Prog
