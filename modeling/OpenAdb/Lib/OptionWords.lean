import Mathlib.Data.List.Basic

namespace OpenAdb.Lib.OptionWords

variable {α : Type} (isOption takesNext : α → Bool)

/-- The options before the first other word, with their places. One that takes the next word passes over it. -/
def optionsFrom : Nat → List α → List (Nat × α)
  | _, [] => []
  | i, [w] => if isOption w = true then [(i, w)] else []
  | i, w :: v :: words =>
    if isOption w = true then
      (i, w) :: if takesNext w = true then optionsFrom (i + 2) words else optionsFrom (i + 1) (v :: words)
    else []

variable {isOption takesNext} {i j : Nat} {w : α} {words : List α}

theorem getElem?_of_mem (h : (j, w) ∈ optionsFrom isOption takesNext i words) :
    ∃ k, j = i + k ∧ words[k]? = some w := by
  induction i, words using optionsFrom.induct isOption with
  | case1 => cases h
  | case2 i v hv =>
    rw [optionsFrom, if_pos hv, List.mem_singleton] at h
    cases h
    exact ⟨0, rfl, rfl⟩
  | case3 i v hv =>
    rw [optionsFrom, if_neg hv] at h
    cases h
  | case4 i first v words hv ih ih' =>
    rw [optionsFrom, if_pos hv, List.mem_cons] at h
    obtain h | h := h
    · cases h
      exact ⟨0, rfl, rfl⟩
    · by_cases htakes : takesNext first = true
      · rw [if_pos htakes] at h
        obtain ⟨k, rfl, hk⟩ := ih h
        exact ⟨k + 2, by omega, hk⟩
      · rw [if_neg htakes] at h
        obtain ⟨k, rfl, hk⟩ := ih' h
        exact ⟨k + 1, by omega, hk⟩
  | case5 i first v words hv =>
    rw [optionsFrom, if_neg hv] at h
    cases h

end OpenAdb.Lib.OptionWords
