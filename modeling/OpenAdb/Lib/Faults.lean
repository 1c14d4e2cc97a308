import OpenAdb.Lib.Effects

namespace OpenAdb.Lib.Faults

open OpenAdb.Lib.Effects

variable {σ α : Type}

/-- What becomes of one operation: it takes place, it raises, or the process stops before it. -/
inductive Verdict
  | proceeds | fails | stops
  deriving DecidableEq

inductive Interrupt
  | osError | stopped
  deriving DecidableEq

/-- A state with the number of operations so far. -/
structure Counted (σ : Type) where
  value : σ
  ops : Nat

variable (plan : Nat → Verdict)

/-- One atomic operation, which changes nothing unless it takes place. -/
def perform (f : σ → σ) : Effect Interrupt (Counted σ) Unit := fun s =>
  match plan s.ops with
  | .proceeds => (.ok (), ⟨f s.value, s.ops + 1⟩)
  | .fails => (.error .osError, { s with ops := s.ops + 1 })
  | .stops => (.error .stopped, s)

def consult (f : σ → α) : Effect Interrupt (Counted σ) α := fun s =>
  match plan s.ops with
  | .proceeds => (.ok (f s.value), { s with ops := s.ops + 1 })
  | .fails => (.error .osError, { s with ops := s.ops + 1 })
  | .stops => (.error .stopped, s)

/-- Cleanup after an error, which a stopped process does not reach. -/
def cleaning (x : Effect Interrupt (Counted σ) α) (cleanup : σ → σ) : Effect Interrupt (Counted σ) α :=
  fun s =>
    match x s with
    | (.error .osError, t) => (.error .osError, { t with value := cleanup t.value })
    | r => r

/-- Cleanup after an error that is an operation itself, and given up on when it fails. -/
def tidying (x : Effect Interrupt (Counted σ) α) (cleanup : σ → σ) : Effect Interrupt (Counted σ) α :=
  fun s =>
    match x s with
    | (.error .osError, t) =>
      match plan t.ops with
      | .proceeds => (.error .osError, ⟨cleanup t.value, t.ops + 1⟩)
      | .fails => (.error .osError, { t with ops := t.ops + 1 })
      | .stops => (.error .stopped, t)
    | r => r

/-- An error is caught and given up on. -/
def attempt (x : Effect Interrupt (Counted σ) α) : Effect Interrupt (Counted σ) (Option α) := fun s =>
  match x s with
  | (.ok a, t) => (.ok (some a), t)
  | (.error .osError, t) => (.ok none, t)
  | (.error .stopped, t) => (.error .stopped, t)

/-- A change that is no operation on a file. -/
def note (f : σ → σ) : Effect Interrupt (Counted σ) Unit :=
  Effects.update (fun s => { s with value := f s.value })

variable {plan : Nat → Verdict} {P P' : σ → Prop} {Q Q' : α → σ → Prop} {E E' : Interrupt → σ → Prop}
  {x : Effect Interrupt (Counted σ) α}

/-- A triple about the state without the count. -/
def Does (P : σ → Prop) (x : Effect Interrupt (Counted σ) α) (Q : α → σ → Prop)
    (E : Interrupt → σ → Prop) : Prop :=
  Meets (fun s => P s.value) x (fun a s => Q a s.value) (fun i s => E i s.value)

theorem Does.perform {f : σ → σ} {R : Unit → σ → Prop} (hok : ∀ v, P v → R () (f v))
    (herror : ∀ i v, P v → E i v) : Does P (perform plan f) R E := by
  intro s hs
  rw [Faults.perform]
  cases plan s.ops with
  | proceeds => exact hok s.value hs
  | fails => exact herror _ s.value hs
  | stops => exact herror _ s.value hs

theorem Does.consult {f : σ → α} (hok : ∀ v, P v → Q (f v) v) (herror : ∀ i v, P v → E i v) :
    Does P (consult plan f) Q E := by
  intro s hs
  rw [Faults.consult]
  cases plan s.ops with
  | proceeds => exact hok s.value hs
  | fails => exact herror _ s.value hs
  | stops => exact herror _ s.value hs

theorem Does.cleaning {cleanup : σ → σ} (hx : Does P x Q E)
    (herror : ∀ v, E .osError v → E' .osError (cleanup v)) (hstopped : ∀ v, E .stopped v → E' .stopped v) :
    Does P (cleaning x cleanup) Q E' := by
  intro s hs
  have h := hx s hs
  rw [Faults.cleaning]
  cases hrun : x s with
  | mk r t =>
    rw [hrun] at h
    cases r with
    | ok a => exact h
    | error i =>
      cases i with
      | osError => exact herror t.value h
      | stopped => exact hstopped t.value h

theorem Does.tidying {cleanup : σ → σ} (hx : Does P x Q E)
    (herror : ∀ v, E .osError v → E' .osError (cleanup v)) (hleft : ∀ i v, E .osError v → E' i v)
    (hstopped : ∀ v, E .stopped v → E' .stopped v) : Does P (tidying plan x cleanup) Q E' := by
  intro s hs
  have h := hx s hs
  rw [Faults.tidying]
  cases hrun : x s with
  | mk r t =>
    rw [hrun] at h
    cases r with
    | ok a => exact h
    | error i =>
      cases i with
      | stopped => exact hstopped t.value h
      | osError =>
        change Outcome _ _ (match plan t.ops with
          | .proceeds => _
          | .fails => _
          | .stops => _)
        cases plan t.ops with
        | proceeds => exact herror t.value h
        | fails => exact hleft _ t.value h
        | stops => exact hleft _ t.value h

theorem Does.attempt {R : Option α → σ → Prop} (hx : Does P x Q E) (hok : ∀ a v, Q a v → R (some a) v)
    (herror : ∀ v, E .osError v → R none v) (hstopped : ∀ v, E .stopped v → E' .stopped v) :
    Does P (attempt x) R E' := by
  intro s hs
  have h := hx s hs
  rw [Faults.attempt]
  cases hrun : x s with
  | mk r t =>
    rw [hrun] at h
    cases r with
    | ok a => exact hok a t.value h
    | error i =>
      cases i with
      | osError => exact herror t.value h
      | stopped => exact hstopped t.value h

theorem Does.note {f : σ → σ} {R : Unit → σ → Prop} (hok : ∀ v, P v → R () (f v)) : Does P (note f) R E :=
  Meets.update (fun s hs => hok s.value hs)

theorem Does.pure {a : α} (h : ∀ v, P v → Q a v) : Does P (pure a) Q E := Meets.pure (fun s hs => h s.value hs)

theorem Does.bind {β : Type} {f : α → Effect Interrupt (Counted σ) β} {R : β → σ → Prop}
    (hx : Does P x Q E) (hf : ∀ a, Does (Q a) (f a) R E) : Does P (x >>= f) R E :=
  Meets.bind hx hf

theorem Does.mono (hx : Does P x Q E) (hP : ∀ v, P' v → P v) (hQ : ∀ a v, Q a v → Q' a v)
    (hE : ∀ i v, E i v → E' i v) : Does P' x Q' E' :=
  Meets.mono hx (fun s => hP s.value) (fun a s => hQ a s.value) (fun i s => hE i s.value)

theorem Does.of_fact {φ : Prop} (h : φ → Does P x Q E) : Does (fun v => φ ∧ P v) x Q E :=
  Meets.of_fact h

theorem Does.of_pre {φ : Prop} (hφ : ∀ v, P v → φ) (h : φ → Does P x Q E) : Does P x Q E :=
  Meets.of_pre (fun s => hφ s.value) h

theorem Does.and {R R' : σ → Prop} (hx : Does R x Q E) (hy : Does R' x Q' E') :
    Does (fun v => R v ∧ R' v) x (fun a v => Q a v ∧ Q' a v) (fun i v => E i v ∧ E' i v) := by
  intro s hs
  have hfirst := hx s hs.1
  have hsecond := hy s hs.2
  cases hrun : x s with
  | mk r t =>
    rw [hrun] at hfirst hsecond
    cases r with
    | ok a => exact ⟨hfirst, hsecond⟩
    | error i => exact ⟨hfirst, hsecond⟩

/-- A triple may be proved for each first state on its own. -/
theorem Does.of_each (h : ∀ v, P v → Does (fun u => u = v) x Q E) : Does P x Q E :=
  fun s hs => h s.value hs s rfl

theorem Does.read {f : σ → α} (hok : ∀ v, P v → Q (f v) v) :
    Does P (Effects.read (fun s => f s.value)) Q E :=
  Meets.read (fun s hs => hok s.value hs)

theorem Does.ends (hx : Does P x Q E) (s : Counted σ) (hs : P s.value) :
    (∃ a t, x s = (.ok a, t) ∧ Q a t.value) ∨ ∃ i t, x s = (.error i, t) ∧ E i t.value := by
  have h := hx s hs
  cases hrun : x s with
  | mk r t =>
    rw [hrun] at h
    cases r with
    | ok a => exact .inl ⟨a, t, rfl, h⟩
    | error i => exact .inr ⟨i, t, rfl, h⟩

/-- What holds when a run has returned. -/
theorem Does.returned (hx : Does P x Q E) (s : Counted σ) (hs : P s.value) {a : α} {t : Counted σ}
    (hrun : x s = (.ok a, t)) : Q a t.value := by
  have h := hx s hs
  rw [hrun] at h
  exact h

/-- A computation that returns from every state. -/
def Returns (x : Effect Interrupt (Counted σ) α) : Prop := ∀ s, ∃ a t, x s = (.ok a, t)

theorem Returns.perform (hplan : ∀ n, plan n = .proceeds) (f : σ → σ) : Returns (perform plan f) := by
  intro s
  rw [Faults.perform, hplan]
  exact ⟨_, _, rfl⟩

theorem Returns.consult (hplan : ∀ n, plan n = .proceeds) (f : σ → α) : Returns (consult plan f) := by
  intro s
  rw [Faults.consult, hplan]
  exact ⟨_, _, rfl⟩

theorem Returns.tidying (hx : Returns x) (cleanup : σ → σ) : Returns (tidying plan x cleanup) := by
  intro s
  obtain ⟨a, t, hrun⟩ := hx s
  rw [Faults.tidying, hrun]
  exact ⟨a, t, rfl⟩

theorem Returns.note (f : σ → σ) : Returns (note f) := fun _ => ⟨_, _, rfl⟩

theorem Returns.read (f : Counted σ → α) : Returns (Effects.read f) := fun _ => ⟨_, _, rfl⟩

theorem Returns.pure (a : α) : Returns (pure a : Effect Interrupt (Counted σ) α) := fun _ => ⟨_, _, rfl⟩

theorem Returns.bind {β : Type} {f : α → Effect Interrupt (Counted σ) β} (hx : Returns x)
    (hf : ∀ a, Returns (f a)) : Returns (x >>= f) := by
  intro s
  obtain ⟨a, t, hrun⟩ := hx s
  rw [bind_ok hrun]
  exact hf a t

end OpenAdb.Lib.Faults
