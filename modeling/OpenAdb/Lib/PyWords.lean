import OpenAdb.Lib.PyText

namespace OpenAdb.Lib.PyWords

open OpenAdb.Lib.PyText

/-- `str.split` without a separator. -/
def words (u : UnicodeData) (s : Text) : List Text := (s.splitOnP u.isSpace).filter (· ≠ [])

variable {u : UnicodeData} {a b : Text} {c : Char}

theorem words_append_cons (hc : u.isSpace c = true) (a b : Text) : words u (a ++ c :: b) = words u a ++ words u b := by
  rw [words, List.splitOnP_append_cons a b hc, List.filter_append]
  rfl

theorem words_word (hne : a ≠ []) (h : ∀ c ∈ a, u.isSpace c = false) : words u a = [a] := by
  rw [words, List.splitOnP_eq_singleton h, List.filter_cons_of_pos (by simpa using hne), List.filter_nil]

theorem words_nil : words u [] = [] := rfl

theorem words_cons (hne : a ≠ []) (h : ∀ c ∈ a, u.isSpace c = false) (hc : u.isSpace c = true) :
    words u (a ++ c :: b) = a :: words u b := by
  rw [words_append_cons hc, words_word hne h]
  rfl

theorem words_append_blanks (a : Text) {b : Text} (h : ∀ c ∈ b, u.isSpace c = true) : words u (a ++ b) = words u a := by
  induction b generalizing a with
  | nil => rw [List.append_nil]
  | cons c b ih =>
    obtain ⟨hc, hb⟩ := List.forall_mem_cons.mp h
    have hblank := ih [] hb
    rw [List.nil_append] at hblank
    rw [words_append_cons hc, hblank, words_nil, List.append_nil]

theorem words_rdropWhile (s : Text) : words u (s.rdropWhile u.isSpace) = words u s := by
  have hsplit : s.rdropWhile u.isSpace ++ s.rtakeWhile u.isSpace = s := List.rdropWhile_append_rtakeWhile
  have hblank := words_append_blanks (s.rdropWhile u.isSpace) (b := s.rtakeWhile u.isSpace)
    (fun _ hc => List.mem_rtakeWhile_imp hc)
  rw [hsplit] at hblank
  exact hblank.symm

/-- A text is its first word and what follows the blank behind it. -/
theorem exists_word (s : Text) : ∃ word, (∀ c ∈ word, u.isSpace c = false) ∧
    (s = word ∨ ∃ c rest, u.isSpace c = true ∧ s = word ++ c :: rest) := by
  induction s with
  | nil => exact ⟨[], by simp, .inl rfl⟩
  | cons c s ih =>
    by_cases hc : u.isSpace c = true
    · exact ⟨[], by simp, .inr ⟨c, s, hc, rfl⟩⟩
    · obtain ⟨word, hword, hs⟩ := ih
      refine ⟨c :: word, List.forall_mem_cons.mpr ⟨by simpa using hc, hword⟩, ?_⟩
      obtain rfl | ⟨d, rest, hd, rfl⟩ := hs
      · exact .inl rfl
      · exact .inr ⟨d, rest, hd, rfl⟩

/-- A visible text in front of a text makes its first word longer. -/
theorem words_front (hc : u.isSpace c = false) (s : Text) : ∃ word later, (∀ d ∈ word, u.isSpace d = false) ∧
    ∀ front, (∀ d ∈ front, u.isSpace d = false) → words u (front ++ c :: s) = (front ++ c :: word) :: later := by
  obtain ⟨word, hword, hs⟩ := exists_word (u := u) s
  have hall : ∀ front, (∀ d ∈ front, u.isSpace d = false) → ∀ d ∈ front ++ c :: word, u.isSpace d = false := by
    intro front hfront d hd
    obtain hd | hd := List.mem_append.mp hd
    · exact hfront d hd
    · obtain rfl | hd := List.mem_cons.mp hd
      · exact hc
      · exact hword d hd
  obtain rfl | ⟨d, rest, hd, rfl⟩ := hs
  · exact ⟨s, [], hword, fun front hfront => words_word (by simp) (hall front hfront)⟩
  · refine ⟨word, words u rest, hword, fun front hfront => ?_⟩
    have hsplit : front ++ c :: (word ++ d :: rest) = (front ++ c :: word) ++ d :: rest := by simp
    rw [hsplit, words_cons (by simp) (hall front hfront) hd]

theorem visible_of_mem_words {s word : Text} (h : word ∈ words u s) : ∀ c ∈ word, u.isSpace c = false := by
  induction hn : s.length using Nat.strong_induction_on generalizing s with
  | _ n ih =>
    obtain ⟨first, hfirst, hs⟩ := exists_word (u := u) s
    obtain rfl | ⟨d, rest, hd, rfl⟩ := hs
    · by_cases hne : s = []
      · rw [hne, words_nil] at h
        cases h
      · rw [words_word hne hfirst, List.mem_singleton] at h
        exact h ▸ hfirst
    · rw [words_append_cons hd, List.mem_append] at h
      obtain h | h := h
      · by_cases hne : first = []
        · rw [hne, words_nil] at h
          cases h
        · rw [words_word hne hfirst, List.mem_singleton] at h
          exact h ▸ hfirst
      · refine ih rest.length ?_ h rfl
        rw [← hn, List.length_append, List.length_cons]
        omega

end OpenAdb.Lib.PyWords
