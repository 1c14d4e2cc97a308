import Mathlib.Algebra.Order.BigOperators.Group.List
import Mathlib.Algebra.Order.Ring.Nat
import Mathlib.Data.List.Infix

namespace OpenAdb.Lib.GrowCounter

/-- The largest value that a party has reported, the latest report first. -/
def largest (party : Nat) : List (Nat × Nat) → Nat
  | [] => 0
  | (reporter, value) :: past =>
    if reporter = party then max (largest party past) value else largest party past

/-- One maximum for each of `n` parties. -/
def counters (n : Nat) (reports : List (Nat × Nat)) : List Nat :=
  (List.range n).map (largest · reports)

def total (n : Nat) (reports : List (Nat × Nat)) : Nat := (counters n reports).sum

theorem counters_nil (n : Nat) : counters n [] = List.replicate n 0 := by
  have hconst : counters n [] = (List.range n).map (fun _ => 0) := rfl
  rw [hconst, List.map_const', List.length_range]

theorem largest_self (party value : Nat) (past : List (Nat × Nat)) :
    largest party ((party, value) :: past) = max (largest party past) value := if_pos rfl

theorem largest_other {reporter party : Nat} (h : reporter ≠ party) (value : Nat) (past : List (Nat × Nat)) :
    largest party ((reporter, value) :: past) = largest party past := if_neg h

/-- A report is merged into the maximum of the party that made it. -/
theorem counters_cons (n party value : Nat) (past : List (Nat × Nat)) :
    counters n ((party, value) :: past) = (counters n past).modify party (max · value) := by
  apply List.ext_getElem?
  intro i
  rw [List.getElem?_modify, counters, counters, List.getElem?_map, List.getElem?_map]
  by_cases hi : i < n
  · rw [List.getElem?_range hi, Option.map_some, Option.map_some]
    by_cases h : party = i
    · subst h
      simp [largest_self]
    · simp [h, largest_other h]
  · rw [List.getElem?_eq_none (by rw [List.length_range]; omega)]
    rfl

theorem largest_le_of_suffix {past reports : List (Nat × Nat)} (h : past <:+ reports) (party : Nat) :
    largest party past ≤ largest party reports := by
  obtain ⟨later, rfl⟩ := h
  induction later with
  | nil => exact Nat.le_refl _
  | cons report later ih =>
    rw [List.cons_append, largest]
    split
    · exact ih.trans (le_max_left _ _)
    · exact ih

/-- The sum of the maxima never decreases. -/
theorem total_le_of_suffix (n : Nat) {past reports : List (Nat × Nat)} (h : past <:+ reports) :
    total n past ≤ total n reports :=
  List.sum_le_sum fun party _ => largest_le_of_suffix h party

theorem counters_eq_map {β : Type} {n : Nat} {reports : List (Nat × Nat)} {parties : List β} {f : β → Nat}
    (hlen : parties.length = n) (h : ∀ i b, parties[i]? = some b → largest i reports = f b) :
    counters n reports = parties.map f := by
  apply List.ext_getElem?
  intro i
  rw [counters, List.getElem?_map, List.getElem?_map]
  cases hi : parties[i]? with
  | none =>
    have hle := List.getElem?_eq_none_iff.mp hi
    rw [List.getElem?_eq_none (by rw [List.length_range]; omega)]
    rfl
  | some b =>
    obtain ⟨hlt, _⟩ := List.getElem?_eq_some_iff.mp hi
    rw [List.getElem?_range (by omega), Option.map_some, Option.map_some, h i b hi]

/-- What bounds every maximum bounds their sum. -/
theorem total_le {β : Type} {n : Nat} {reports : List (Nat × Nat)} {parties : List β} {bound : β → Nat}
    (hlen : parties.length = n) (h : ∀ i b, parties[i]? = some b → largest i reports ≤ bound b) :
    total n reports ≤ (parties.map bound).sum := by
  subst hlen
  rw [total, counters]
  induction parties using List.reverseRecOn with
  | nil => exact Nat.le_refl 0
  | append_singleton parties b ih =>
    have hb := h parties.length b (List.getElem?_concat_length ..)
    have hrest := ih fun i c hc => h i c (by
      rw [List.getElem?_append_left (List.getElem?_eq_some_iff.mp hc).1]
      exact hc)
    rw [List.length_append, List.length_singleton, List.range_succ]
    simp only [List.map_append, List.sum_append, List.map_singleton, List.sum_singleton]
    omega

end OpenAdb.Lib.GrowCounter
