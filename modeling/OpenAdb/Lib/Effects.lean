import Mathlib.Logic.Basic

namespace OpenAdb.Lib.Effects

variable {ε σ τ α β : Type}

/-- A computation on a state that may raise. What it did before raising stays done. -/
def Effect (ε σ α : Type) := σ → Except ε α × σ

instance : Monad (Effect ε σ) where
  pure a s := (.ok a, s)
  bind x f s :=
    match x s with
    | (.ok a, t) => f a t
    | (.error e, t) => (.error e, t)

def raise (e : ε) : Effect ε σ α := fun s => (.error e, s)

def require (c : Prop) [Decidable c] (e : ε) : Effect ε σ Unit := if c then pure () else raise e

def lift : Except ε α → Effect ε σ α
  | .ok a => pure a
  | .error e => raise e

def read (f : σ → α) : Effect ε σ α := fun s => (.ok (f s), s)

def update (f : σ → σ) : Effect ε σ Unit := fun s => (.ok (), f s)

/-- Run a computation on a part of the state. -/
def within (get : τ → σ) (set : σ → τ → τ) (x : Effect ε σ α) : Effect ε τ α := fun s =>
  ((x (get s)).1, set (x (get s)).2 s)

/-- The cleanup runs when the computation raises, and its own failure is ignored. -/
def onRaise (x : Effect ε σ α) (cleanup : Effect ε σ β) : Effect ε σ α := fun s =>
  match x s with
  | (.ok a, t) => (.ok a, t)
  | (.error e, t) => (.error e, (cleanup t).2)

/-- `try` with `except`: the handler goes on in the state that the raise has left. -/
def catching (x : Effect ε σ α) (handler : ε → Effect ε σ α) : Effect ε σ α := fun s =>
  match x s with
  | (.ok a, t) => (.ok a, t)
  | (.error e, t) => handler e t

/-- Go on with what was raised as with a result. -/
def trying {ρ : Type} (x : Effect ε σ α) : Effect ρ σ (Except ε α) := fun s =>
  match x s with
  | (r, t) => (.ok r, t)

/-- `try` with `finally`: what the cleanup raises takes the place of a result or of an earlier raise. -/
def always (x : Effect ε σ α) (cleanup : Effect ε σ Unit) : Effect ε σ α := do
  let a ← catching x (fun e => do
    cleanup
    raise e)
  cleanup
  pure a

theorem pure_run (a : α) (s : σ) : (pure a : Effect ε σ α) s = (.ok a, s) := rfl

theorem read_run (f : σ → α) (s : σ) : (read f : Effect ε σ α) s = (.ok (f s), s) := rfl

theorem bind_ok {x : Effect ε σ α} {f : α → Effect ε σ β} {s t : σ} {a : α}
    (h : x s = (.ok a, t)) : (x >>= f) s = f a t := by
  simp only [bind, h]

theorem bind_error {x : Effect ε σ α} {f : α → Effect ε σ β} {s t : σ} {e : ε}
    (h : x s = (.error e, t)) : (x >>= f) s = (.error e, t) := by
  simp only [bind, h]

theorem bind_bind {γ : Type} (x : Effect ε σ α) (f : α → Effect ε σ β) (g : β → Effect ε σ γ) :
    (x >>= f) >>= g = x >>= fun a => f a >>= g := by
  funext s
  cases h : x s with
  | mk r t =>
    cases r with
    | ok a =>
      have hfirst : (x >>= f) s = f a t := bind_ok h
      rw [bind_ok h]
      simp only [bind] at hfirst ⊢
      rw [hfirst]
    | error e => rw [bind_error h, bind_error (bind_error h)]

theorem require_pos {c : Prop} [Decidable c] {e : ε} {s : σ} (h : c) :
    require c e s = (.ok (), s) := by
  rw [require, if_pos h]
  rfl

theorem require_neg {c : Prop} [Decidable c] {e : ε} {s : σ} (h : ¬ c) :
    require c e s = (.error e, s) := by
  rw [require, if_neg h]
  rfl

theorem within_ok {get : τ → σ} {set : σ → τ → τ} {x : Effect ε σ α} {s : τ} {a : α} {t : σ}
    (h : x (get s) = (.ok a, t)) : within get set x s = (.ok a, set t s) := by
  rw [within, h]

theorem onRaise_ok {x : Effect ε σ α} {cleanup : Effect ε σ β} {s t : σ} {a : α}
    (h : x s = (.ok a, t)) : onRaise x cleanup s = (.ok a, t) := by
  rw [onRaise, h]

theorem trying_run {ρ : Type} {x : Effect ε σ α} {s t : σ} {r : Except ε α} (h : x s = (r, t)) :
    (trying x : Effect ρ σ (Except ε α)) s = (.ok r, t) := by
  rw [trying, h]

/-- A result comes with `Q`, a raise with `E`. -/
def Outcome (Q : α → σ → Prop) (E : ε → σ → Prop) : Except ε α × σ → Prop
  | (.ok a, t) => Q a t
  | (.error e, t) => E e t

theorem Outcome.bind_ok {x : Effect ε σ α} {f : α → Effect ε σ β} {s t : σ} {a : α}
    {R : β → σ → Prop} {E : ε → σ → Prop} (h : x s = (.ok a, t)) (ho : Outcome R E (f a t)) :
    Outcome R E ((x >>= f) s) := by
  rw [Effects.bind_ok h]
  exact ho

theorem Outcome.bind {x : Effect ε σ α} {f : α → Effect ε σ β} {s : σ} {Q : α → σ → Prop} {R : β → σ → Prop}
    {E : ε → σ → Prop} (hx : Outcome Q E (x s))
    (hf : ∀ a t, x s = (.ok a, t) → Q a t → Outcome R E (f a t)) : Outcome R E ((x >>= f) s) := by
  cases hrun : x s with
  | mk r t =>
    rw [hrun] at hx
    cases r with
    | ok a => exact Outcome.bind_ok hrun (hf a t hrun hx)
    | error e =>
      rw [bind_error hrun]
      exact hx

def Meets (P : σ → Prop) (x : Effect ε σ α) (Q : α → σ → Prop) (E : ε → σ → Prop) : Prop :=
  ∀ s, P s → Outcome Q E (x s)

variable {P P' : σ → Prop} {x : Effect ε σ α} {Q Q' : α → σ → Prop} {E E' : ε → σ → Prop}

theorem Meets.pure {a : α} (h : ∀ s, P s → Q a s) : Meets P (pure a : Effect ε σ α) Q E := h

theorem Meets.raise {e : ε} (h : ∀ s, P s → E e s) : Meets P (raise e : Effect ε σ α) Q E := h

theorem Meets.read {f : σ → α} (h : ∀ s, P s → Q (f s) s) :
    Meets P (read f : Effect ε σ α) Q E := h

/-- What is read is known from the state. -/
theorem Meets.reading {f : σ → β} {b : β} {g : β → Effect ε σ α} (hb : ∀ s, P s → f s = b)
    (h : Meets P (g b) Q E) : Meets P (Effects.read f >>= g) Q E := by
  intro s hs
  rw [bind_ok (read_run f s), hb s hs]
  exact h s hs

theorem Meets.update {f : σ → σ} {R : Unit → σ → Prop} (h : ∀ s, P s → R () (f s)) :
    Meets P (update f : Effect ε σ Unit) R E := h

theorem Meets.require {c : Prop} [Decidable c] {e : ε} {R : Unit → σ → Prop}
    (hok : c → ∀ s, P s → R () s) (herr : ¬ c → ∀ s, P s → E e s) :
    Meets P (require c e) R E := by
  intro s hs
  by_cases hc : c
  · rw [require_pos hc]
    exact hok hc s hs
  · rw [require_neg hc]
    exact herr hc s hs

theorem Meets.ite {c : Prop} [Decidable c] {y : Effect ε σ α} (hpos : c → Meets P x Q E)
    (hneg : ¬ c → Meets P y Q E) : Meets P (if c then x else y) Q E := by
  by_cases hc : c
  · rw [if_pos hc]
    exact hpos hc
  · rw [if_neg hc]
    exact hneg hc

theorem Meets.of_fact {φ : Prop} (h : φ → Meets P x Q E) : Meets (fun s => φ ∧ P s) x Q E :=
  fun s hs => h hs.1 s hs.2

/-- A fact that the precondition implies may be used throughout. -/
theorem Meets.fact {φ : Prop} (h : φ → Meets P x Q E) : Meets (fun s => P s ∧ φ) x Q E :=
  fun s hs => h hs.2 s hs.1

theorem Meets.of_pre {φ : Prop} (hφ : ∀ s, P s → φ) (h : φ → Meets P x Q E) : Meets P x Q E :=
  fun s hs => h (hφ s hs) s hs

theorem Meets.of_exists {ι : Sort*} {R : ι → σ → Prop} (h : ∀ i, Meets (R i) x Q E) :
    Meets (fun s => ∃ i, R i s) x Q E :=
  fun s ⟨i, hi⟩ => h i s hi

theorem Meets.or (h : Meets P x Q E) (h' : Meets P' x Q E) : Meets (fun s => P s ∨ P' s) x Q E :=
  fun s hs => hs.elim (h s) (h' s)

theorem Meets.lift {r : Except ε α} (hok : ∀ a, r = .ok a → ∀ s, P s → Q a s)
    (herr : ∀ e, r = .error e → ∀ s, P s → E e s) : Meets P (lift r) Q E := by
  cases r with
  | ok a => exact hok a rfl
  | error e => exact herr e rfl

theorem Meets.bind {f : α → Effect ε σ β} {R : β → σ → Prop} (hx : Meets P x Q E)
    (hf : ∀ a, Meets (Q a) (f a) R E) : Meets P (x >>= f) R E := by
  intro s hs
  have h := hx s hs
  cases hrun : x s with
  | mk r t =>
    rw [hrun] at h
    cases r with
    | ok a =>
      rw [bind_ok hrun]
      exact hf a t h
    | error e =>
      rw [bind_error hrun]
      exact h

/-- What follows a check may use what was checked. -/
theorem Meets.require_bind {c : Prop} [Decidable c] {e : ε} {f : Unit → Effect ε σ α}
    (hok : c → Meets P (f ()) Q E) (herr : ¬ c → ∀ s, P s → E e s) : Meets P (Effects.require c e >>= f) Q E := by
  intro s hs
  by_cases hc : c
  · rw [bind_ok (require_pos hc)]
    exact hok hc s hs
  · rw [bind_error (require_neg hc)]
    exact herr hc s hs

theorem Outcome.mono {r : Except ε α × σ} (h : Outcome Q E r) (hQ : ∀ a s, Q a s → Q' a s)
    (hE : ∀ e s, E e s → E' e s) : Outcome Q' E' r := by
  obtain ⟨a | e, t⟩ := r
  · exact hE a t h
  · exact hQ e t h

theorem Meets.mono (hx : Meets P x Q E) (hP : ∀ s, P' s → P s) (hQ : ∀ a s, Q a s → Q' a s)
    (hE : ∀ e s, E e s → E' e s) : Meets P' x Q' E' :=
  fun s hs => (hx s (hP s hs)).mono hQ hE

theorem Meets.pre (hx : Meets P x Q E) (hP : ∀ s, P' s → P s) : Meets P' x Q E :=
  hx.mono hP (fun _ _ h => h) fun _ _ h => h

theorem Meets.post (hx : Meets P x Q E) (hQ : ∀ a s, Q a s → Q' a s) : Meets P x Q' E :=
  hx.mono (fun _ h => h) hQ fun _ _ h => h

theorem Meets.weaken (hx : Meets P x Q E) (hE : ∀ e s, E e s → E' e s) : Meets P x Q E' :=
  hx.mono (fun _ h => h) (fun _ _ h => h) hE

theorem Meets.onRaise {cleanup : Effect ε σ β} (hx : Meets P x Q E)
    (hc : ∀ e t, E e t → E' e (cleanup t).2) : Meets P (onRaise x cleanup) Q E' := by
  intro s hs
  have h := hx s hs
  cases hrun : x s with
  | mk r t =>
    rw [hrun] at h
    rw [Effects.onRaise, hrun]
    cases r with
    | ok a => exact h
    | error e => exact hc e t h

theorem Meets.catching {handler : ε → Effect ε σ α} (hx : Meets P x Q E)
    (hhandler : ∀ e, Meets (E e) (handler e) Q E') : Meets P (catching x handler) Q E' := by
  intro s hs
  have h := hx s hs
  cases hrun : x s with
  | mk r t =>
    rw [hrun] at h
    rw [Effects.catching, hrun]
    cases r with
    | ok a => exact h
    | error e => exact hhandler e t h

theorem Meets.trying {ρ : Type} {E'' : ρ → σ → Prop} (hx : Meets P x Q E) :
    Meets P (trying x) (fun r s => Outcome Q E (r, s)) E'' := by
  intro s hs
  have h := hx s hs
  rw [Effects.trying]
  cases hrun : x s with
  | mk r t =>
    rw [hrun] at h
    exact h

/-- A cleanup that does not raise takes each end to where it belongs. -/
theorem Meets.always {cleanup : Effect ε σ Unit} (hx : Meets P x Q E)
    (hok : ∀ a, Meets (Q a) cleanup (fun _ => Q' a) (fun _ _ => False))
    (herr : ∀ e, Meets (E e) cleanup (fun _ => E' e) (fun _ _ => False)) :
    Meets P (always x cleanup) Q' E' := by
  refine Meets.bind (Q := Q) (hx.catching fun e => ?_) fun a => ?_
  · refine Meets.bind ((herr e).mono (fun _ h => h) (fun _ _ h => h) (fun _ _ h => h.elim)) fun _ => ?_
    exact Meets.raise fun _ h => h
  · refine Meets.bind ((hok a).mono (fun _ h => h) (fun _ _ h => h) (fun _ _ h => h.elim)) fun _ => ?_
    exact Meets.pure fun _ h => h

theorem Meets.runs {s : σ} (h : Meets P x Q (fun _ _ => False)) (hs : P s) :
    ∃ a t, x s = (.ok a, t) ∧ Q a t := by
  have ho := h s hs
  cases hrun : x s with
  | mk r t =>
    rw [hrun] at ho
    cases r with
    | ok a => exact ⟨a, t, rfl, ho⟩
    | error e => exact ho.elim

section Keeps

variable {view : σ → τ}

/-- What `view` shows of the state stays the same, also when the computation raises. -/
def Keeps (view : σ → τ) (x : Effect ε σ α) : Prop := ∀ s, view (x s).2 = view s

theorem Keeps.pure (a : α) : Keeps view (pure a : Effect ε σ α) := fun _ => rfl

theorem Keeps.raise (e : ε) : Keeps view (raise e : Effect ε σ α) := fun _ => rfl

theorem Keeps.read (f : σ → α) : Keeps view (read f : Effect ε σ α) := fun _ => rfl

theorem Keeps.update {f : σ → σ} (h : ∀ s, view (f s) = view s) :
    Keeps view (update f : Effect ε σ Unit) := h

theorem Keeps.lift (r : Except ε α) : Keeps view (lift r : Effect ε σ α) := by
  cases r with
  | ok a => exact .pure a
  | error e => exact .raise e

theorem Keeps.ite {c : Prop} [Decidable c] {y : Effect ε σ α} (hx : Keeps view x) (hy : Keeps view y) :
    Keeps view (if c then x else y) := by
  by_cases hc : c
  · rw [if_pos hc]
    exact hx
  · rw [if_neg hc]
    exact hy

theorem Keeps.require (c : Prop) [Decidable c] (e : ε) : Keeps view (require c e : Effect ε σ Unit) :=
  .ite (.pure ()) (.raise e)

theorem Keeps.bind {f : α → Effect ε σ β} (hx : Keeps view x) (hf : ∀ a, Keeps view (f a)) :
    Keeps view (x >>= f) := by
  intro s
  have h := hx s
  cases hrun : x s with
  | mk r t =>
    rw [hrun] at h
    cases r with
    | ok a =>
      rw [bind_ok hrun, hf a t]
      exact h
    | error e =>
      rw [bind_error hrun]
      exact h

theorem Keeps.catching {handler : ε → Effect ε σ α} (hx : Keeps view x)
    (hhandler : ∀ e, Keeps view (handler e)) : Keeps view (catching x handler) := by
  intro s
  have h := hx s
  rw [Effects.catching]
  cases hrun : x s with
  | mk r t =>
    rw [hrun] at h
    cases r with
    | ok a => exact h
    | error e => exact (hhandler e t).trans h

/-- A property of the view is an invariant. -/
theorem Keeps.meets (h : Keeps view x) (R : τ → Prop) :
    Meets (fun s => R (view s)) x (fun _ s => R (view s)) (fun _ s => R (view s)) := by
  intro s hs
  have hview := h s
  cases hrun : x s with
  | mk r t =>
    rw [hrun] at hview
    have ht : R (view t) := by
      rw [hview]
      exact hs
    cases r with
    | ok a => exact ht
    | error e => exact ht

/-- What is kept may be carried along. -/
theorem Meets.keeping (h : Meets P x Q E) (hview : Keeps view x) (R : τ → Prop) :
    Meets (fun s => P s ∧ R (view s)) x (fun a s => Q a s ∧ R (view s)) E := by
  intro s hs
  have ho := h s hs.1
  have hkept := hview s
  cases hrun : x s with
  | mk r t =>
    rw [hrun] at ho hkept
    cases r with
    | ok a =>
      refine ⟨ho, ?_⟩
      rw [hkept]
      exact hs.2
    | error e => exact ho

end Keeps

end OpenAdb.Lib.Effects
