import Mathlib.Logic.Basic

namespace OpenAdb.Lib.Runs

variable {σ α : Type} {step : σ → α → Option σ} {P Q : σ → α → Prop}

/-- Follow a schedule as far as its actions are enabled; every step that is
taken must satisfy the property in the state it is taken from. -/
def Along (step : σ → α → Option σ) (P : σ → α → Prop) : σ → List α → Prop
  | _, [] => True
  | s, a :: as =>
    match step s a with
    | none => True
    | some t => P s a ∧ Along step P t as

instance Along.decidable (step : σ → α → Option σ) (P : σ → α → Prop)
    [∀ s a, Decidable (P s a)] : ∀ s as, Decidable (Along step P s as)
  | _, [] => .isTrue trivial
  | s, a :: as => by
    unfold Along
    cases step s a with
    | none => exact .isTrue trivial
    | some t =>
      have := Along.decidable step P t as
      exact inferInstanceAs (Decidable (P s a ∧ Along step P t as))

theorem Along.iff_of_invariant (Inv : σ → Prop)
    (hstep : ∀ s a t, Inv s → step s a = some t → Inv t)
    (hPQ : ∀ s a t, Inv s → step s a = some t → (P s a ↔ Q s a))
    (s : σ) (hs : Inv s) (as : List α) : Along step P s as ↔ Along step Q s as := by
  induction as generalizing s with
  | nil => rfl
  | cons a as ih =>
    unfold Along
    cases ht : step s a with
    | none => rfl
    | some t => exact and_congr (hPQ s a t hs ht) (ih t (hstep s a t hs ht))

/-- Run a schedule; there is no result when an action is not enabled. -/
def exec (step : σ → α → Option σ) : σ → List α → Option σ
  | s, [] => some s
  | s, a :: as => (step s a).bind (fun t => exec step t as)

theorem exec_cons {s u : σ} {a : α} {as : List α} (h : exec step s (a :: as) = some u) :
    ∃ t, step s a = some t ∧ exec step t as = some u :=
  Option.bind_eq_some_iff.mp h

theorem exec_append (s : σ) (as bs : List α) :
    exec step s (as ++ bs) = (exec step s as).bind (fun t => exec step t bs) := by
  induction as generalizing s with
  | nil => rfl
  | cons a as ih =>
    rw [List.cons_append, exec, exec, Option.bind_assoc]
    exact congrArg _ (funext ih)

/-- Every prefix of a run is a run. -/
theorem exec_split {s u : σ} {as bs : List α} (h : exec step s (as ++ bs) = some u) :
    ∃ t, exec step s as = some t ∧ exec step t bs = some u := by
  rw [exec_append] at h
  exact Option.bind_eq_some_iff.mp h

/-- An invariant of the state and of the actions so far. -/
theorem exec_invariant (Inv : List α → σ → Prop)
    (hstep : ∀ past s a t, Inv past s → step s a = some t → Inv (past ++ [a]) t)
    {past as : List α} {s t : σ} (hs : Inv past s) (h : exec step s as = some t) :
    Inv (past ++ as) t := by
  induction as generalizing past s with
  | nil =>
    cases h
    rwa [List.append_nil]
  | cons a as ih =>
    obtain ⟨u, hu, hrest⟩ := exec_cons h
    have hnext := ih (hstep past s a u hs hu) hrest
    rwa [List.append_assoc] at hnext

/-- An invariant of the state alone. -/
theorem exec_keeps (I : σ → Prop) (hstep : ∀ s a t, I s → step s a = some t → I t)
    {as : List α} {s t : σ} (hs : I s) (h : exec step s as = some t) : I t := by
  induction as generalizing s with
  | nil =>
    cases h
    exact hs
  | cons a as ih =>
    obtain ⟨u, hu, hrest⟩ := exec_cons h
    exact ih (hstep s a u hs hu) hrest

/-- What every step that meets the property keeps holds after a run of such steps. -/
theorem exec_along (I : σ → Prop) (hstep : ∀ s a t, I s → P s a → step s a = some t → I t)
    {as : List α} {s t : σ} (hs : I s) (hP : Along step P s as) (h : exec step s as = some t) :
    I t := by
  induction as generalizing s with
  | nil =>
    cases h
    exact hs
  | cons a as ih =>
    obtain ⟨u, hu, hrest⟩ := exec_cons h
    simp only [Along, hu] at hP
    exact ih (hstep s a u hs hP.1 hu) hP.2 hrest

/-- A measure that such steps decrease bounds the length of a run of them. -/
theorem exec_measure (I : σ → Prop) (m : σ → Nat) (hkeep : ∀ s a t, I s → P s a → step s a = some t → I t)
    (hstep : ∀ s a t, I s → P s a → step s a = some t → m t < m s) {as : List α} {s t : σ} (hs : I s)
    (hP : Along step P s as) (h : exec step s as = some t) : as.length + m t ≤ m s := by
  induction as generalizing s with
  | nil =>
    cases h
    simp
  | cons a as ih =>
    obtain ⟨u, hu, hrest⟩ := exec_cons h
    simp only [Along, hu] at hP
    have hlater := ih (hkeep s a u hs hP.1 hu) hP.2 hrest
    have hnow := hstep s a u hs hP.1 hu
    simp only [List.length_cons]
    omega

/-- A reflexive and transitive relation that every step respects relates the ends of a run. -/
theorem exec_relation (R : σ → σ → Prop) (hrefl : ∀ s, R s s) (htrans : ∀ s t u, R s t → R t u → R s u)
    (hstep : ∀ s a t, step s a = some t → R s t) {as : List α} {s t : σ}
    (h : exec step s as = some t) : R s t := by
  induction as generalizing s with
  | nil =>
    cases h
    exact hrefl _
  | cons a as ih =>
    obtain ⟨u, hu, hrest⟩ := exec_cons h
    exact htrans s u t (hstep s a u hu) (ih hrest)

/-- Some run leads from one state to the other. -/
def Reaches (step : σ → α → Option σ) (s t : σ) : Prop := ∃ as, exec step s as = some t

theorem Reaches.refl (s : σ) : Reaches step s s := ⟨[], rfl⟩

theorem Reaches.trans {s t u : σ} (h : Reaches step s t) (h' : Reaches step t u) : Reaches step s u := by
  obtain ⟨as, has⟩ := h
  obtain ⟨bs, hbs⟩ := h'
  refine ⟨as ++ bs, ?_⟩
  rw [exec_append, has]
  exact hbs

theorem Reaches.single {s t : σ} {a : α} (h : step s a = some t) : Reaches step s t := by
  refine ⟨[a], ?_⟩
  rw [exec, h]
  rfl

theorem Reaches.relation {R : σ → σ → Prop} (hrefl : ∀ s, R s s) (htrans : ∀ s t u, R s t → R t u → R s u)
    (hstep : ∀ s a t, step s a = some t → R s t) {s t : σ} (h : Reaches step s t) : R s t := by
  obtain ⟨as, has⟩ := h
  exact exec_relation R hrefl htrans hstep has

end OpenAdb.Lib.Runs
