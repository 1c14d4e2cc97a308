import Mathlib.Data.List.TakeWhile
import Mathlib.Tactic.SplitIfs

namespace OpenAdb.Lib.LineFrames

section Runs

variable {σ τ ρ κ : Type}

/-- The results of `n` successive calls. -/
def results (read : σ → ρ × σ) : Nat → σ → List ρ
  | 0, _ => []
  | n + 1, s => (read s).1 :: results read n (read s).2

theorem results_succ (read : σ → ρ × σ) (n : Nat) (s : σ) :
    results read (n + 1) s = (read s).1 :: results read n (read s).2 := rfl

/-- A reader that follows another one returns what that one does, translated. -/
theorem results_simulated {read : σ → ρ × σ} {spec : τ → κ × τ} (R : σ → τ → Prop) (f : κ → ρ)
    (h : ∀ s t, R s t → (read s).1 = f (spec t).1 ∧ R (read s).2 (spec t).2) (n : Nat) {s : σ} {t : τ}
    (hst : R s t) : results read n s = (results spec n t).map f := by
  induction n generalizing s t with
  | zero => rfl
  | succ n ih =>
    obtain ⟨hresult, hnext⟩ := h s t hst
    rw [results_succ, results_succ, List.map_cons, hresult, ih hnext]

theorem results_stuck {read : σ → ρ × σ} {s : σ} {r : ρ} (h : read s = (r, s)) (n : Nat) :
    results read n s = List.replicate n r := by
  induction n with
  | zero => rfl
  | succ n ih => rw [results_succ, h, ih, List.replicate_succ]

end Runs

variable {α : Type}

inductive Frame (α : Type)
  | line (content : List α)
  | tooLong
  | ended
  deriving DecidableEq

/-- A frame after which nothing more is read. -/
def Frame.last (limit : Nat) (line : List α) : Frame α := if limit < line.length then .tooLong else .ended

/-- The frames of the segments of a stream, of which only the last one lacks its separator. -/
def frames (limit : Nat) : List (List α) → List (Frame α)
  | [] => []
  | [line] => [.last limit line]
  | line :: next :: rest =>
    if limit < line.length then [.tooLong] else .line line :: frames limit (next :: rest)

theorem frames_cons {limit : Nat} (line : List α) {segments : List (List α)} (h : segments ≠ []) :
    frames limit (line :: segments) =
      if limit < line.length then [.tooLong] else .line line :: frames limit segments := by
  cases segments with
  | nil => exact absurd rfl h
  | cons next rest => rfl
variable [DecidableEq α] (sep : α) (limit : Nat)

/-- The first frame of a stream and what follows it. A failed read leaves the stream as it is. -/
def next (stream : List α) : Frame α × List α :=
  match stream.dropWhile (· ≠ sep) with
  | [] => (.last limit stream, stream)
  | _ :: rest =>
    if limit < (stream.takeWhile (· ≠ sep)).length then (.tooLong, stream)
    else (.line (stream.takeWhile (· ≠ sep)), rest)

variable {sep limit} {line part rest stream : List α}

theorem takeWhile_line (h : sep ∉ line) (rest : List α) :
    (line ++ sep :: rest).takeWhile (· ≠ sep) = line := by
  rw [List.takeWhile_append_of_pos, List.takeWhile_cons_of_neg (by simp), List.append_nil]
  intro x hx
  exact decide_eq_true (ne_of_mem_of_not_mem hx h)

theorem dropWhile_line (h : sep ∉ line) (rest : List α) :
    (line ++ sep :: rest).dropWhile (· ≠ sep) = sep :: rest := by
  rw [List.dropWhile_append_of_pos, List.dropWhile_cons_of_neg (by simp)]
  intro x hx
  exact decide_eq_true (ne_of_mem_of_not_mem hx h)

theorem next_line (h : sep ∉ line) (rest : List α) :
    next sep limit (line ++ sep :: rest) =
      if limit < line.length then (.tooLong, line ++ sep :: rest) else (.line line, rest) := by
  rw [next, dropWhile_line h, takeWhile_line h]

theorem next_last (h : sep ∉ line) : next sep limit line = (.last limit line, line) := by
  rw [next, List.dropWhile_eq_nil_iff.mpr]
  intro x hx
  exact decide_eq_true (ne_of_mem_of_not_mem hx h)

/-- A stream is one segment or starts with one and a separator. -/
theorem segment_cases (sep : α) (stream : List α) :
    sep ∉ stream ∨ ∃ line rest, stream = line ++ sep :: rest ∧ sep ∉ line := by
  by_cases h : sep ∈ stream
  · exact .inr (List.eq_append_cons_of_mem h)
  · exact .inl h

/-- A long part without a separator decides the read, whatever follows. -/
theorem next_tooLong (h : sep ∉ part) (hlong : limit < part.length) (rest : List α) :
    next sep limit (part ++ rest) = (.tooLong, part ++ rest) := by
  obtain hnone | ⟨line, rest', hrest, hline⟩ := segment_cases sep rest
  · have hall : sep ∉ part ++ rest := fun hmem => (List.mem_append.mp hmem).elim h hnone
    rw [next_last hall, Frame.last, if_pos]
    rw [List.length_append]
    omega
  · have hall : sep ∉ part ++ line := fun hmem => (List.mem_append.mp hmem).elim h hline
    rw [hrest, ← List.append_assoc, next_line hall, if_pos]
    rw [List.length_append]
    omega

/-- Successive reads return the frames of the stream, and its last one again afterwards. -/
theorem results_next (stream : List α) (n : Nat) :
    ∃ last, (frames limit (stream.splitOn sep)).getLast? = some last ∧
      results (next sep limit) ((frames limit (stream.splitOn sep)).length + n) stream =
        frames limit (stream.splitOn sep) ++ List.replicate n last := by
  obtain hnone | ⟨line, rest, rfl, hline⟩ := segment_cases sep stream
  · rw [List.splitOn_eq_singleton hnone]
    refine ⟨.last limit stream, rfl, ?_⟩
    rw [results_stuck (next_last hnone), frames, List.length_singleton, Nat.add_comm, List.replicate_succ]
    rfl
  · have hrest : rest.length < (line ++ sep :: rest).length := by
      rw [List.length_append, List.length_cons]
      omega
    rw [List.splitOn_append_cons_self_of_not_mem hline, frames_cons line (List.splitOn_ne_nil _ _)]
    by_cases hlong : limit < line.length
    · rw [if_pos hlong]
      refine ⟨.tooLong, rfl, ?_⟩
      have hstuck : next sep limit (line ++ sep :: rest) = _ := next_line hline rest
      rw [if_pos hlong] at hstuck
      rw [results_stuck hstuck, List.length_singleton, Nat.add_comm, List.replicate_succ]
      rfl
    · rw [if_neg hlong]
      obtain ⟨last, hlast, hresults⟩ := results_next rest n
      refine ⟨last, ?_, ?_⟩
      · rw [List.getLast?_cons, hlast]
        rfl
      · have hnext : next sep limit (line ++ sep :: rest) = _ := next_line hline rest
        rw [if_neg hlong] at hnext
        rw [List.length_cons, Nat.add_right_comm, results_succ, hnext, hresults, List.cons_append]
termination_by stream.length

end OpenAdb.Lib.LineFrames
