import Mathlib.Data.List.Infix

namespace OpenAdb.Lib.Glob

variable {α : Type} [DecidableEq α]

/-- A pattern of literals, and of stars that stand for any sequence. -/
def matchesPattern : List (Option α) → List α → Bool
  | [], s => s.isEmpty
  | none :: pattern, s => s.tails.any (matchesPattern pattern)
  | some _ :: _, [] => false
  | some c :: pattern, x :: s => x = c && matchesPattern pattern s

variable {pattern : List (Option α)} {s : List α}

theorem matches_star :
    matchesPattern (none :: pattern) s = true ↔ ∃ x t, s = x ++ t ∧ matchesPattern pattern t = true := by
  rw [matchesPattern, List.any_eq_true]
  constructor
  · intro h
    obtain ⟨t, ht, hmatch⟩ := h
    obtain ⟨x, rfl⟩ := (List.mem_tails _ _).mp ht
    exact ⟨x, t, rfl, hmatch⟩
  · intro h
    obtain ⟨x, t, rfl, hmatch⟩ := h
    exact ⟨t, (List.mem_tails _ _).mpr (List.suffix_append x t), hmatch⟩

theorem matches_literal (a : List α) :
    matchesPattern (a.map some ++ pattern) s = true ↔ ∃ t, s = a ++ t ∧ matchesPattern pattern t = true := by
  induction a generalizing s with
  | nil => simp
  | cons c a ih =>
    cases s with
    | nil => simp [matchesPattern]
    | cons x s =>
      rw [List.map_cons, List.cons_append, matchesPattern, Bool.and_eq_true, decide_eq_true_eq, ih]
      constructor
      · intro h
        obtain ⟨rfl, t, rfl, hmatch⟩ := h
        exact ⟨t, rfl, hmatch⟩
      · intro h
        obtain ⟨t, heq, hmatch⟩ := h
        rw [List.cons_append, List.cons.injEq] at heq
        exact ⟨heq.1, t, heq.2, hmatch⟩

end OpenAdb.Lib.Glob
