import OpenAdb.Lib.Substring

namespace OpenAdb.Lib.MarkedText

open OpenAdb.Lib.PyText OpenAdb.Lib.Substring

/-- A character of a rendered text; `own` when the renderer put it there, and
not when it was carried over from a text that is rendered. -/
structure Mark where
  char : Char
  own : Bool
  deriving DecidableEq

abbrev Marked := List Mark

def own (s : Text) : Marked := s.map (⟨·, true⟩)

def carried (s : Text) : Marked := s.map (⟨·, false⟩)

def erase (line : Marked) : Text := line.map Mark.char

/-- Every occurrence of the word has a character that the renderer put there. -/
def Clean (word : Text) (line : Marked) : Prop :=
  ∀ part, part <:+: line → erase part = word → ∃ m ∈ part, m.own = true

variable {word : Text} {line : Marked}

theorem clean_of_infix {line' : Marked} (h : Clean word line) (hin : line' <:+: line) :
    Clean word line' :=
  fun part hpart herase => h part (hpart.trans hin) herase

theorem clean_nil (hword : word ≠ []) : Clean word [] := by
  intro part hpart herase
  rw [List.eq_nil_of_infix_nil hpart] at herase
  exact absurd herase.symm hword

theorem clean_carried {s : Text} (h : ¬ word <:+: s) : Clean word (carried s) := by
  intro part hpart herase
  refine absurd ?_ h
  have hmap := hpart.map Mark.char
  rw [← herase]
  simpa [carried, erase, Function.comp_def] using hmap

/-- An occurrence lies on one side of a character of the renderer or holds it. -/
theorem clean_append_cons {a b : Marked} (ha : Clean word a) (hb : Clean word b) {m : Mark}
    (hm : m.own = true) : Clean word (a ++ m :: b) := by
  intro part hpart herase
  by_cases hin : m ∈ part
  · exact ⟨m, hin, hm⟩
  · obtain h | h := infix_append_cons hin hpart
    · exact ha part h herase
    · exact hb part h herase

theorem clean_cons (hword : word ≠ []) {m : Mark} (hm : m.own = true) (h : Clean word line) :
    Clean word (m :: line) :=
  clean_append_cons (clean_nil hword) h hm

theorem clean_own_append (hword : word ≠ []) (s : Text) (h : Clean word line) :
    Clean word (own s ++ line) := by
  induction s with
  | nil => exact h
  | cons c s ih => exact clean_cons hword rfl ih

theorem clean_own (hword : word ≠ []) (s : Text) : Clean word (own s) := by
  have h := clean_own_append hword s (clean_nil hword)
  rwa [List.append_nil] at h

/-- Clean texts stay clean with a text of the renderer between them. -/
theorem clean_append_own {a b : Marked} (ha : Clean word a) (hb : Clean word b) (hword : word ≠ [])
    {s : Text} (hs : s ≠ []) : Clean word (a ++ (own s ++ b)) := by
  cases s with
  | nil => exact absurd rfl hs
  | cons c s => exact clean_append_cons ha (clean_own_append hword s hb) rfl

theorem clean_before_own {a : Marked} (h : Clean word a) (hword : word ≠ []) (s : Text) :
    Clean word (a ++ own s) := by
  cases s with
  | nil =>
    rw [own, List.map_nil, List.append_nil]
    exact h
  | cons c s => exact clean_append_cons h (clean_own hword s) rfl

/-- A rendering that keeps a character or puts its own characters in its place. -/
theorem clean_flatMap (hword : word ≠ []) {f : Mark → Marked}
    (hf : ∀ m, f m = [m] ∨ ∃ s : Text, s ≠ [] ∧ f m = own s) (h : Clean word line) :
    Clean word (line.flatMap f) := by
  have hkept : ∀ kept, Clean word (kept ++ line) → Clean word (kept ++ line.flatMap f) := by
    clear h
    induction line with
    | nil => exact fun kept h => h
    | cons m line ih =>
      intro kept h
      rw [List.flatMap_cons]
      obtain hm | ⟨s, hs, hm⟩ := hf m
      · have hnext := ih (kept ++ [m]) (by simpa using h)
        rw [hm]
        simpa using hnext
      · rw [hm]
        have hleft : Clean word kept := clean_of_infix h (List.prefix_append _ _).isInfix
        have hright : Clean word line := by
          refine clean_of_infix h ?_
          exact ((List.suffix_cons m line).trans (List.suffix_append kept _)).isInfix
        exact clean_append_own hleft (ih [] hright) hword hs
  exact hkept [] h

end OpenAdb.Lib.MarkedText
