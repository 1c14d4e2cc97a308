import OpenAdb.Lib.Faults

namespace OpenAdb.Lib.Traces

open OpenAdb.Lib.Effects OpenAdb.Lib.Faults

variable {κ σ α β : Type} (plan : Nat → Verdict)

/-- Of these operations, counted from `n`, the one at `m` is the first that does not take place. -/
structure Fault (n : Nat) (steps : List κ) (m : Nat) (step : κ) : Prop where
  here : steps[m]? = some step
  before : ∀ j < m, plan (n + j) = .proceeds
  fails : plan (n + m) = .fails

/-- How a run ends that goes through these operations from `n` on: after all of them with `Q`, or after
the one that raised with `E`, which is told the number of the next operation. -/
def Ends (n : Nat) (steps : List κ) (Q : α → σ → Prop) (E : Nat → κ → Counted σ → Prop) :
    Except Interrupt α × Counted σ → Prop
  | (.ok a, t) => t.ops = n + steps.length ∧ (∀ j < steps.length, plan (n + j) = .proceeds) ∧ Q a t.value
  | (.error .osError, t) => ∃ m step, Fault plan n steps m step ∧ E (n + m + 1) step t
  | (.error .stopped, _) => True

/-- A triple that tells the operations apart. -/
def Traced (P : σ → Prop) (x : Effect Interrupt (Counted σ) α) (steps : List κ) (Q : α → σ → Prop)
    (E : Nat → κ → Counted σ → Prop) : Prop :=
  ∀ s, P s.value → Ends plan s.ops steps Q E (x s)

variable {plan} {P P' : σ → Prop} {x : Effect Interrupt (Counted σ) α} {steps rest : List κ}
  {Q Q' : α → σ → Prop} {E E' : Nat → κ → Counted σ → Prop} {R : Unit → σ → Prop} {step : κ}

/-- There is one first operation that does not take place. -/
theorem Fault.unique {n m m' : Nat} {step' : κ} (h : Fault plan n steps m step)
    (h' : Fault plan n steps m' step') : m = m' ∧ step = step' := by
  have hsame : m = m' := by
    obtain hlt | heq | hlt := Nat.lt_trichotomy m m'
    · have hproceeds := h'.before m hlt
      rw [h.fails] at hproceeds
      cases hproceeds
    · exact heq
    · have hproceeds := h.before m' hlt
      rw [h'.fails] at hproceeds
      cases hproceeds
  subst hsame
  exact ⟨rfl, Option.some_inj.mp (h.here.symm.trans h'.here)⟩

theorem Fault.append_left {n m : Nat} (h : Fault plan n steps m step) (rest : List κ) :
    Fault plan n (steps ++ rest) m step := by
  obtain ⟨hlt, hget⟩ := List.getElem?_eq_some_iff.mp h.here
  refine ⟨?_, h.before, h.fails⟩
  rw [List.getElem?_append_left hlt]
  exact h.here

theorem Fault.append_right {n m : Nat} (hproceeds : ∀ j < steps.length, plan (n + j) = .proceeds)
    (h : Fault plan (n + steps.length) rest m step) : Fault plan n (steps ++ rest) (steps.length + m) step := by
  refine ⟨?_, ?_, ?_⟩
  · rw [List.getElem?_append_right (Nat.le_add_right _ _), Nat.add_sub_cancel_left]
    exact h.here
  · intro j hj
    by_cases hlt : j < steps.length
    · exact hproceeds j hlt
    · have hlater := h.before (j - steps.length) (by omega)
      rwa [Nat.add_assoc, Nat.add_sub_cancel' (Nat.not_lt.mp hlt)] at hlater
  · rw [← Nat.add_assoc]
    exact h.fails

theorem Traced.perform {f : σ → σ} (hok : ∀ v, P v → R () (f v)) (herror : ∀ v n, P v → E n step ⟨v, n⟩) :
    Traced plan P (perform plan f) [step] R E := by
  intro s hs
  rw [Faults.perform]
  cases hplan : plan s.ops with
  | proceeds =>
    refine ⟨rfl, ?_, hok s.value hs⟩
    intro j hj
    obtain rfl := Nat.lt_one_iff.mp hj
    exact hplan
  | fails => exact ⟨0, step, ⟨rfl, fun _ hj => absurd hj (Nat.not_lt_zero _), hplan⟩, herror s.value _ hs⟩
  | stops => trivial

theorem Traced.consult {f : σ → α} (hok : ∀ v, P v → Q (f v) v) (herror : ∀ v n, P v → E n step ⟨v, n⟩) :
    Traced plan P (consult plan f) [step] Q E := by
  intro s hs
  rw [Faults.consult]
  cases hplan : plan s.ops with
  | proceeds =>
    refine ⟨rfl, ?_, hok s.value hs⟩
    intro j hj
    obtain rfl := Nat.lt_one_iff.mp hj
    exact hplan
  | fails => exact ⟨0, step, ⟨rfl, fun _ hj => absurd hj (Nat.not_lt_zero _), hplan⟩, herror s.value _ hs⟩
  | stops => trivial

theorem Traced.pure {a : α} (h : ∀ v, P v → Q a v) :
    Traced plan P (pure a : Effect Interrupt (Counted σ) α) [] Q E :=
  fun s hs => ⟨rfl, fun _ hj => absurd hj (Nat.not_lt_zero _), h s.value hs⟩

theorem Traced.note {f : σ → σ} (h : ∀ v, P v → R () (f v)) : Traced plan P (note f) [] R E :=
  fun s hs => ⟨rfl, fun _ hj => absurd hj (Nat.not_lt_zero _), h s.value hs⟩

/-- What is read off the state may depend on the number of the next operation. -/
theorem Traced.read {f : Counted σ → α} (h : ∀ s, P s.value → Q (f s) s.value) :
    Traced plan P (Effects.read f) [] Q E :=
  fun s hs => ⟨rfl, fun _ hj => absurd hj (Nat.not_lt_zero _), h s hs⟩

theorem Traced.bind {f : α → Effect Interrupt (Counted σ) β} {S : β → σ → Prop}
    (hx : Traced plan P x steps Q E) (hf : ∀ a, Traced plan (Q a) (f a) rest S E) :
    Traced plan P (x >>= f) (steps ++ rest) S E := by
  intro s hs
  have h := hx s hs
  cases hrun : x s with
  | mk r t =>
    rw [hrun] at h
    cases r with
    | error i =>
      rw [bind_error hrun]
      cases i with
      | stopped => trivial
      | osError =>
        obtain ⟨m, step, hfault, herror⟩ := h
        exact ⟨m, step, hfault.append_left rest, herror⟩
    | ok a =>
      rw [bind_ok hrun]
      obtain ⟨hops, hproceeds, hq⟩ := h
      have hlater := hf a t hq
      rw [hops] at hlater
      cases hnext : f a t with
      | mk r u =>
        rw [hnext] at hlater
        cases r with
        | error i =>
          cases i with
          | stopped => trivial
          | osError =>
            obtain ⟨m, step, hfault, herror⟩ := hlater
            refine ⟨steps.length + m, step, hfault.append_right hproceeds, ?_⟩
            rwa [← Nat.add_assoc]
        | ok b =>
          obtain ⟨hend, hrest, hs⟩ := hlater
          refine ⟨?_, ?_, hs⟩
          · rw [hend, List.length_append, Nat.add_assoc]
          · intro j hj
            by_cases hlt : j < steps.length
            · exact hproceeds j hlt
            · rw [List.length_append] at hj
              have hlate := hrest (j - steps.length) (by omega)
              rwa [Nat.add_assoc, Nat.add_sub_cancel' (Nat.not_lt.mp hlt)] at hlate

/-- An operation that raised is one of those of the run. -/
theorem Traced.mono (hx : Traced plan P x steps Q E) (hP : ∀ v, P' v → P v) (hQ : ∀ a v, Q a v → Q' a v)
    (hE : ∀ n step t, step ∈ steps → E n step t → E' n step t) : Traced plan P' x steps Q' E' := by
  intro s hs
  have h := hx s (hP _ hs)
  cases hrun : x s with
  | mk r t =>
    rw [hrun] at h
    cases r with
    | ok a => exact ⟨h.1, h.2.1, hQ _ _ h.2.2⟩
    | error i =>
      cases i with
      | stopped => trivial
      | osError =>
        obtain ⟨m, step, hfault, herror⟩ := h
        exact ⟨m, step, hfault, hE _ _ _ (List.mem_of_getElem? hfault.here) herror⟩

theorem Traced.of_fact {φ : Prop} (h : φ → Traced plan P x steps Q E) :
    Traced plan (fun v => φ ∧ P v) x steps Q E :=
  fun s hs => h hs.1 s hs.2

theorem Traced.of_each (h : ∀ v, P v → Traced plan (fun u => u = v) x steps Q E) : Traced plan P x steps Q E :=
  fun s hs => h s.value hs s rfl

/-- The cleanup is one more operation after the one that raised. -/
theorem Traced.tidying {cleanup : σ → σ} (hx : Traced plan P x steps Q E)
    (hcleaned : ∀ n step t, E n step t → plan t.ops = .proceeds → E' n step ⟨cleanup t.value, t.ops + 1⟩)
    (hleft : ∀ n step t, E n step t → plan t.ops = .fails → E' n step ⟨t.value, t.ops + 1⟩) :
    Traced plan P (tidying plan x cleanup) steps Q E' := by
  intro s hs
  have h := hx s hs
  rw [Faults.tidying]
  cases hrun : x s with
  | mk r t =>
    rw [hrun] at h
    cases r with
    | ok a => exact h
    | error i =>
      cases i with
      | stopped => trivial
      | osError =>
        obtain ⟨m, step, hfault, herror⟩ := h
        dsimp only
        cases hplan : plan t.ops with
        | proceeds => exact ⟨m, step, hfault, hcleaned _ _ t herror hplan⟩
        | fails => exact ⟨m, step, hfault, hleft _ _ t herror hplan⟩
        | stops => trivial

/-- The operation at which a run has raised. -/
theorem Traced.raised (hx : Traced plan P x steps Q E) {s t : Counted σ} (hs : P s.value)
    (hrun : x s = (.error .osError, t)) :
    ∃ m step, Fault plan s.ops steps m step ∧ E (s.ops + m + 1) step t := by
  have h := hx s hs
  rw [hrun] at h
  exact h

end OpenAdb.Lib.Traces
