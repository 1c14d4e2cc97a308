import Mathlib.Logic.Function.Basic
import OpenAdb.Lib.Effects
import OpenAdb.Lib.Runs

namespace OpenAdb.Lib.Threads

open OpenAdb.Lib.Effects OpenAdb.Lib.Runs

variable {τ σ ι ε κ ζ α β : Type}

/-- What is left of a thread: a result, or an atomic section on the shared state, which also sees an
answer from outside, and the rest after it. -/
inductive Program (σ ι ε : Type) (α : Type)
  | done (a : α)
  | raise (e : ε)
  | atomic (change : ι → σ → σ) (rest : ι → σ → Program σ ι ε α)

namespace Program

def bind : Program σ ι ε α → (α → Program σ ι ε β) → Program σ ι ε β
  | done a, f => f a
  | raise e, _ => raise e
  | atomic change rest, f => atomic change (fun i s => bind (rest i s) f)

instance : Monad (Program σ ι ε) where
  pure := done
  bind := bind

/-- The handler runs when the program raises. -/
def handle : Program σ ι ε α → (ε → Program σ ι ε α) → Program σ ι ε α
  | done a, _ => done a
  | raise e, handler => handler e
  | atomic change rest, handler => atomic change (fun i s => handle (rest i s) handler)

def ofExcept : Except ε α → Program σ ι ε α
  | .ok a => done a
  | .error e => raise e

/-- A computation on the shared state in one section. -/
def locked (x : ι → Effect ε σ α) : Program σ ι ε α :=
  atomic (fun i s => (x i s).2) (fun i s => ofExcept (x i s).1)

def read (f : σ → α) : Program σ ι ε α := locked (fun _ => Effects.read f)

def update (f : σ → σ) : Program σ ι ε Unit := locked (fun _ => Effects.update f)

/-- What a call to the outside returns, or that it raises. -/
def ask (f : ι → Except ε α) : Program σ ι ε α := locked (fun i s => (f i, s))

end Program

/-- What every section keeps (`Inv`) and how the state moves on (`Later`). -/
structure Discipline (σ : Type) where
  Inv : σ → Prop
  Later : σ → σ → Prop
  refl : ∀ s, Later s s
  trans : ∀ s t u, Later s t → Later t u → Later s u

variable {D : Discipline σ}

/-- The sections of a program keep the discipline when those of all other threads do. What is known
at the next section is that the state is later than the one the last section left. -/
def Keeps (D : Discipline σ) (Q : α → σ → Prop) (E : ε → σ → Prop) : Program σ ι ε α → (σ → Prop) → Prop
  | .done a, P => ∀ s, D.Inv s → P s → Q a s
  | .raise e, P => ∀ s, D.Inv s → P s → E e s
  | .atomic change rest, P => ∀ i s, D.Inv s → P s →
    (D.Inv (change i s) ∧ D.Later s (change i s)) ∧ Keeps D Q E (rest i s) (D.Later (change i s))

variable {P P' : σ → Prop} {Q Q' : α → σ → Prop} {E E' : ε → σ → Prop} {p : Program σ ι ε α}

theorem Keeps.mono (h : Keeps D Q E p P) (hP : ∀ s, D.Inv s → P' s → P s) (hQ : ∀ a s, Q a s → Q' a s)
    (hE : ∀ e s, E e s → E' e s) : Keeps D Q' E' p P' := by
  induction p generalizing P P' with
  | done a => exact fun s hs hP' => hQ a s (h s hs (hP s hs hP'))
  | raise e => exact fun s hs hP' => hE e s (h s hs (hP s hs hP'))
  | atomic change rest ih =>
    intro i s hs hP'
    have hstep := h i s hs (hP s hs hP')
    exact ⟨hstep.1, ih i s hstep.2 (fun _ _ => id)⟩

theorem Keeps.bind {f : α → Program σ ι ε β} {R : β → σ → Prop} (h : Keeps D Q E p P)
    (hf : ∀ a, Keeps D R E (f a) (Q a)) : Keeps D R E (p >>= f) P := by
  change Keeps D R E (p.bind f) P
  induction p generalizing P with
  | done a => exact (hf a).mono h (fun _ _ => id) (fun _ _ => id)
  | raise e => exact h
  | atomic change rest ih => exact fun i s hs hP => ⟨(h i s hs hP).1, ih i s (h i s hs hP).2⟩

theorem Keeps.handle {handler : ε → Program σ ι ε α} (h : Keeps D Q E p P)
    (hhandler : ∀ e, Keeps D Q E' (handler e) (E e)) : Keeps D Q E' (p.handle handler) P := by
  induction p generalizing P with
  | done a => exact h
  | raise e => exact (hhandler e).mono h (fun _ _ => id) (fun _ _ => id)
  | atomic change rest ih => exact fun i s hs hP => ⟨(h i s hs hP).1, ih i s (h i s hs hP).2⟩

theorem Keeps.pure {a : α} (h : ∀ s, D.Inv s → P s → Q a s) :
    Keeps D Q E (pure a : Program σ ι ε α) P := h

theorem Keeps.raise {e : ε} (h : ∀ s, D.Inv s → P s → E e s) :
    Keeps D Q E (.raise e : Program σ ι ε α) P := h

theorem Keeps.locked {x : ι → Effect ε σ α}
    (hchange : ∀ i s, D.Inv s → P s → D.Inv (x i s).2 ∧ D.Later s (x i s).2)
    (hrest : ∀ i s, D.Inv s → P s → ∀ t, D.Inv t → D.Later (x i s).2 t →
      Outcome (fun a _ => Q a t) (fun e _ => E e t) (x i s)) : Keeps D Q E (Program.locked x) P := by
  intro i s hs hP
  refine ⟨hchange i s hs hP, ?_⟩
  have hresult := hrest i s hs hP
  dsimp only
  cases hr : x i s with
  | mk r u =>
    rw [hr] at hresult
    cases r with
    | ok a => exact hresult
    | error e => exact hresult

theorem Keeps.of_false (h : ∀ s, ¬P s) : Keeps D Q E p P := by
  cases p with
  | done a => exact fun s _ hs => absurd hs (h s)
  | raise e => exact fun s _ hs => absurd hs (h s)
  | atomic change rest => exact fun _ s _ hs => absurd hs (h s)

theorem Keeps.of_fact {φ : Prop} (h : φ → Keeps D Q E p P) : Keeps D Q E p (fun s => φ ∧ P s) := by
  by_cases hφ : φ
  · exact (h hφ).mono (fun _ _ => And.right) (fun _ _ => id) (fun _ _ => id)
  · exact Keeps.of_false (fun _ hs => hφ hs.1)

theorem Keeps.read {f : σ → α} (h : ∀ s, D.Inv s → P s → ∀ t, D.Later s t → Q (f s) t) :
    Keeps D Q E (Program.read f : Program σ ι ε α) P :=
  Keeps.locked (fun _ s hs _ => ⟨hs, D.refl s⟩) (fun _ s hs hP t _ ht => h s hs hP t ht)

/-- What stays true of every later state. -/
def Stable (D : Discipline σ) (P : σ → Prop) : Prop := ∀ s t, D.Later s t → P s → P t

theorem Stable.and (h : Stable D P) (h' : Stable D P') : Stable D (fun s => P s ∧ P' s) :=
  fun s t hlater hs => ⟨h s t hlater hs.1, h' s t hlater hs.2⟩

/-- A section that only reads. -/
theorem Keeps.reads (hP : Stable D P) {f : ι → σ → Except ε α}
    (hok : ∀ i s a, D.Inv s → P s → f i s = .ok a → ∀ t, D.Later s t → P t → Q a t) :
    Keeps D Q (fun _ => P) (Program.locked (fun i s => (f i s, s))) P := by
  apply Keeps.locked
  · exact fun _ s hs _ => ⟨hs, D.refl s⟩
  · intro i s hs hPs t _ ht
    cases hr : f i s with
    | ok a => exact hok i s a hs hPs hr t ht (hP s t ht hPs)
    | error e => exact hP s t ht hPs

/-- A program that a stable assertion outlasts. -/
def Stays (D : Discipline σ) (P : σ → Prop) (p : Program σ ι ε α) : Prop := Keeps D (fun _ => P) (fun _ => P) p P

theorem Stays.pure {a : α} : Stays D P (pure a : Program σ ι ε α) := Keeps.pure (fun _ _ => id)

theorem Stays.raise {e : ε} : Stays D P (.raise e : Program σ ι ε α) := Keeps.raise (fun _ _ => id)

theorem Stays.bind {f : α → Program σ ι ε β} (h : Stays D P p) (hf : ∀ a, Stays D P (f a)) :
    Stays D P (p >>= f) := Keeps.bind h hf

theorem Stays.handle {handler : ε → Program σ ι ε α} (h : Stays D P p)
    (hhandler : ∀ e, Stays D P (handler e)) : Stays D P (p.handle handler) := Keeps.handle h hhandler

theorem Stays.locked (hP : Stable D P) {x : ι → Effect ε σ α}
    (hchange : ∀ i s, D.Inv s → P s → D.Inv (x i s).2 ∧ D.Later s (x i s).2) :
    Stays D P (Program.locked x) := by
  apply Keeps.locked hchange
  intro i s hs hPs t _ ht
  have hlater := hP s t (D.trans _ _ _ (hchange i s hs hPs).2 ht) hPs
  cases hr : x i s with
  | mk r v =>
    cases r with
    | ok a => exact hlater
    | error e => exact hlater

theorem Stays.update (hP : Stable D P) {f : σ → σ}
    (hf : ∀ s, D.Inv s → P s → D.Inv (f s) ∧ D.Later s (f s)) :
    Stays D P (Program.update f : Program σ ι ε Unit) := Stays.locked hP (fun _ => hf)

theorem Stays.reads (hP : Stable D P) {f : ι → σ → Except ε α} :
    Stays D P (Program.locked (fun i s => (f i s, s))) :=
  Keeps.reads hP (fun _ _ _ _ _ _ _ _ => id)

theorem Stays.read (hP : Stable D P) {f : σ → α} : Stays D P (Program.read f : Program σ ι ε α) :=
  Stays.locked hP (fun _ s hs _ => ⟨hs, D.refl s⟩)

theorem Keeps.ask (hP : Stable D P) {f : ι → Except ε α} :
    Keeps D (fun a s => (∃ i, f i = .ok a) ∧ P s) (fun _ => P) (Program.ask f : Program σ ι ε α) P :=
  Keeps.reads hP (fun i _ _ _ _ ha _ _ ht => ⟨⟨i, ha⟩, ht⟩)

theorem Stays.ask (hP : Stable D P) {f : ι → Except ε α} : Stays D P (Program.ask f : Program σ ι ε α) :=
  Stays.reads hP

theorem Stays.ite {c : Prop} [Decidable c] {q : Program σ ι ε α} (hpos : c → Stays D P p)
    (hneg : ¬c → Stays D P q) : Stays D P (if c then p else q) := by
  by_cases hc : c
  · rw [if_pos hc]
    exact hpos hc
  · rw [if_neg hc]
    exact hneg hc

/-- The sections of the program keep the discipline, whatever comes of it. -/
def Runs (D : Discipline σ) (P : σ → Prop) (p : Program σ ι ε α) : Prop :=
  Keeps D (fun _ _ => True) (fun _ _ => True) p P

theorem Keeps.runs (h : Keeps D Q E p P) : Runs D P p :=
  h.mono (fun _ _ => id) (fun _ _ _ => trivial) (fun _ _ _ => trivial)

theorem Stays.runs (h : Stays D P p) : Runs D P p := Keeps.runs h

theorem Runs.mono (h : Runs D P p) (hP : ∀ s, D.Inv s → P' s → P s) : Runs D P' p :=
  Keeps.mono h hP (fun _ _ => id) (fun _ _ => id)

theorem Runs.bind {f : α → Program σ ι ε β} (h : Keeps D Q E p P) (hf : ∀ a, Runs D (Q a) (f a)) :
    Runs D P (p >>= f) :=
  Keeps.bind (h.mono (fun _ _ => id) (fun _ _ => id) (fun _ _ _ => trivial)) hf

/-- Threads that share a state. -/
structure Pool (τ σ ι ε : Type) where
  shared : σ
  threads : τ → Program σ ι ε Unit

inductive Action (τ ι κ ζ : Type)
  | call (thread : τ) (c : κ)
  | run (thread : τ) (answer : ι)
  | environment (a : ζ)

/-- A thread that is done may begin a call; a thread that is not done runs its next section. -/
def step [DecidableEq τ] (start : κ → σ → Option (Program σ ι ε Unit)) (environment : σ → ζ → Option σ)
    (s : Pool τ σ ι ε) : Action τ ι κ ζ → Option (Pool τ σ ι ε)
  | .call thread c =>
    match s.threads thread with
    | .atomic _ _ => none
    | _ => (start c s.shared).map (fun p => { s with threads := Function.update s.threads thread p })
  | .run thread answer =>
    match s.threads thread with
    | .atomic change rest =>
      some ⟨change answer s.shared, Function.update s.threads thread (rest answer s.shared)⟩
    | _ => none
  | .environment a => (environment s.shared a).map (fun t => { s with shared := t })

/-- Every thread keeps the discipline from here on. -/
structure Kept (D : Discipline σ) (s : Pool τ σ ι ε) : Prop where
  inv : D.Inv s.shared
  threads : ∀ thread, Runs D (D.Later s.shared) (s.threads thread)

theorem Kept.later {s : Pool τ σ ι ε} (h : Kept D s) {t : σ} (hlater : D.Later s.shared t) (thread : τ) :
    Runs D (D.Later t) (s.threads thread) :=
  (h.threads thread).mono (fun u _ hu => D.trans _ t u hlater hu)

variable [DecidableEq τ] {start : κ → σ → Option (Program σ ι ε Unit)} {environment : σ → ζ → Option σ}

theorem Kept.update {s : Pool τ σ ι ε} (h : Kept D s) {t : σ} (ht : D.Inv t) (hlater : D.Later s.shared t)
    (thread : τ) {p : Program σ ι ε Unit} (hp : Runs D (D.Later t) p) :
    Kept D ⟨t, Function.update s.threads thread p⟩ := by
  refine ⟨ht, fun other => ?_⟩
  by_cases hother : other = thread
  · subst hother
    change Runs D (D.Later t) (Function.update s.threads other p other)
    rw [Function.update_self]
    exact hp
  · change Keeps D _ _ (Function.update s.threads thread p other) (D.Later t)
    rw [Function.update_of_ne hother]
    exact h.later hlater other

theorem step_kept
    (hstart : ∀ c s p, D.Inv s → start c s = some p → Runs D (D.Later s) p)
    (henvironment : ∀ s a t, D.Inv s → environment s a = some t → D.Inv t ∧ D.Later s t)
    {s t : Pool τ σ ι ε} {a : Action τ ι κ ζ} (h : Kept D s) (hstep : step start environment s a = some t) :
    Kept D t ∧ D.Later s.shared t.shared := by
  cases a with
  | call thread c =>
    have hbegun : (start c s.shared).map
        (fun p => { s with threads := Function.update s.threads thread p }) = some t := by
      rw [step] at hstep
      split at hstep
      · cases hstep
      · exact hstep
    obtain ⟨p, hp, rfl⟩ := Option.map_eq_some_iff.mp hbegun
    exact ⟨h.update h.inv (D.refl _) thread (hstart c s.shared p h.inv hp), D.refl _⟩
  | run thread answer =>
    rw [step] at hstep
    have hthread := h.threads thread
    cases hp : s.threads thread with
    | done a =>
      rw [hp] at hstep
      cases hstep
    | raise e =>
      rw [hp] at hstep
      cases hstep
    | atomic change rest =>
      rw [hp] at hstep hthread
      cases hstep
      obtain ⟨⟨hinv, hlater⟩, hrest⟩ := hthread answer s.shared h.inv (D.refl _)
      exact ⟨h.update hinv hlater thread hrest, hlater⟩
  | environment a =>
    obtain ⟨u, hu, rfl⟩ := Option.map_eq_some_iff.mp hstep
    obtain ⟨hinv, hlater⟩ := henvironment s.shared a u h.inv hu
    exact ⟨⟨hinv, h.later hlater⟩, hlater⟩

/-- By induction on the run. -/
theorem exec_kept
    (hstart : ∀ c s p, D.Inv s → start c s = some p → Runs D (D.Later s) p)
    (henvironment : ∀ s a t, D.Inv s → environment s a = some t → D.Inv t ∧ D.Later s t)
    {s t : Pool τ σ ι ε} {as : List (Action τ ι κ ζ)} (h : Kept D s)
    (hrun : exec (step start environment) s as = some t) : Kept D t ∧ D.Later s.shared t.shared := by
  induction as generalizing s with
  | nil =>
    cases hrun
    exact ⟨h, D.refl _⟩
  | cons a as ih =>
    obtain ⟨u, hu, hrest⟩ := exec_cons hrun
    obtain ⟨hkept, hlater⟩ := step_kept hstart henvironment h hu
    obtain ⟨hkept', hlater'⟩ := ih hkept hrest
    exact ⟨hkept', D.trans _ _ _ hlater hlater'⟩

end OpenAdb.Lib.Threads
