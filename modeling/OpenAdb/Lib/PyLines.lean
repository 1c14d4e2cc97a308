import OpenAdb.Lib.PyText

namespace OpenAdb.Lib.PyLines

open OpenAdb.Lib.PyText

/-- The characters at which `str.splitlines` ends a line. -/
def isLineBreak (c : Char) : Bool :=
  (10 ≤ c.toNat && c.toNat ≤ 13) || (28 ≤ c.toNat && c.toNat ≤ 30) || c.toNat = 0x85 ||
    c.toNat = 0x2028 || c.toNat = 0x2029

def splitlinesFrom (line : Text) : Text → List Text
  | [] => if line = [] then [] else [line]
  | '\r' :: '\n' :: rest => line :: splitlinesFrom [] rest
  | c :: rest =>
    if isLineBreak c then line :: splitlinesFrom [] rest else splitlinesFrom (line ++ [c]) rest

def splitlines (s : Text) : List Text := splitlinesFrom [] s

def rstrip (u : UnicodeData) (s : Text) : Text := s.rdropWhile u.isSpace

/-- `str.split` at blanks with a limit on the splits. -/
def splitWords (u : UnicodeData) : Nat → Text → List Text
  | 0, s =>
    let rest := s.dropWhile u.isSpace
    if rest = [] then [] else [rest]
  | n + 1, s =>
    let rest := s.dropWhile u.isSpace
    if rest = [] then []
    else rest.takeWhile (!u.isSpace ·) :: splitWords u n (rest.dropWhile (!u.isSpace ·))

/-- What stands before the first occurrence of the separator. -/
def textBefore (separator : Text) : Text → Text
  | [] => []
  | c :: rest => if separator.isPrefixOf (c :: rest) then [] else c :: textBefore separator rest

variable {u : UnicodeData}

theorem splitlinesFrom_nil (before : Text) : splitlinesFrom before [] = if before = [] then [] else [before] := rfl

theorem splitlinesFrom_crlf (before rest : Text) :
    splitlinesFrom before ('\r' :: '\n' :: rest) = before :: splitlinesFrom [] rest := rfl

theorem splitlinesFrom_char {c : Char} {rest : Text} (h : c = '\r' → rest.head? ≠ some '\n') (before : Text) :
    splitlinesFrom before (c :: rest) =
      if isLineBreak c then before :: splitlinesFrom [] rest else splitlinesFrom (before ++ [c]) rest := by
  rw [splitlinesFrom]
  intro rest' hcr hnext
  rw [hnext] at h
  exact h hcr rfl

/-- The four ways in which a text goes on. -/
theorem splitlinesFrom_induction {motive : Text → Text → Prop} (nil : ∀ before, motive before [])
    (crlf : ∀ before rest, motive [] rest → motive before ('\r' :: '\n' :: rest))
    (ends : ∀ before c rest, (c = '\r' → rest.head? ≠ some '\n') → isLineBreak c = true → motive [] rest →
      motive before (c :: rest))
    (goes : ∀ before c rest, (c = '\r' → rest.head? ≠ some '\n') → isLineBreak c = false →
      motive (before ++ [c]) rest → motive before (c :: rest)) (before s : Text) : motive before s := by
  induction hn : s.length using Nat.strongRecOn generalizing before s with
  | _ n ih =>
    cases s with
    | nil => exact nil before
    | cons c rest =>
      have hshort : rest.length < n := by rw [← hn, List.length_cons]; exact Nat.lt_succ_self _
      by_cases hcrlf : c = '\r' ∧ rest.head? = some '\n'
      · obtain ⟨rfl, hhead⟩ := hcrlf
        obtain ⟨rest, rfl⟩ := List.head?_eq_some_iff.mp hhead
        exact crlf before rest (ih rest.length (lt_of_le_of_lt (by simp) hshort) [] rest rfl)
      · have hc : c = '\r' → rest.head? ≠ some '\n' := fun hcr hhead => hcrlf ⟨hcr, hhead⟩
        cases hbreak : isLineBreak c with
        | true => exact ends before c rest hc hbreak (ih _ hshort [] rest rfl)
        | false => exact goes before c rest hc hbreak (ih _ hshort _ rest rfl)

theorem splitlinesFrom_break {line rest : Text} {b : Char} (h : ∀ c ∈ line, isLineBreak c = false)
    (hb : isLineBreak b = true) (hrest : b = '\r' → rest.head? ≠ some '\n') (before : Text) :
    splitlinesFrom before (line ++ b :: rest) = (before ++ line) :: splitlinesFrom [] rest := by
  induction line generalizing before with
  | nil =>
    rw [List.nil_append, splitlinesFrom_char hrest, if_pos hb, List.append_nil]
  | cons c line ih =>
    obtain ⟨hc, hline⟩ := List.forall_mem_cons.mp h
    have hcr : c ≠ '\r' := by
      intro hcr
      rw [hcr] at hc
      exact absurd hc (by decide)
    rw [List.cons_append, splitlinesFrom_char (fun heq => absurd heq hcr), if_neg (by simp [hc]), ih hline,
      List.append_assoc, List.singleton_append]

theorem splitlinesFrom_append {line : Text} (h : ∀ c ∈ line, isLineBreak c = false)
    (before rest : Text) :
    splitlinesFrom before (line ++ '\n' :: rest) = (before ++ line) :: splitlinesFrom [] rest :=
  splitlinesFrom_break h (by decide) (fun heq => absurd heq (by decide)) before

/-- Lines without a break come back as they were written. -/
theorem splitlines_unlines {lines : List Text} (h : ∀ line ∈ lines, ∀ c ∈ line, isLineBreak c = false) :
    splitlines (unlines lines) = lines := by
  induction lines with
  | nil => rfl
  | cons line lines ih =>
    obtain ⟨hline, hlines⟩ := List.forall_mem_cons.mp h
    have hcons : unlines (line :: lines) = line ++ '\n' :: unlines lines := by simp [unlines]
    rw [splitlines, hcons, splitlinesFrom_append hline, List.nil_append]
    exact congrArg _ (ih hlines)

theorem not_lineBreak_of_mem_splitlinesFrom {before s line : Text}
    (hbefore : ∀ c ∈ before, isLineBreak c = false) (h : line ∈ splitlinesFrom before s) :
    ∀ c ∈ line, isLineBreak c = false := by
  induction before, s using splitlinesFrom_induction with
  | nil before =>
    rw [splitlinesFrom_nil] at h
    split_ifs at h
    · cases h
    · rwa [List.mem_singleton.mp h]
  | crlf before rest ih =>
    rw [splitlinesFrom_crlf] at h
    obtain heq | hrest := List.mem_cons.mp h
    · rwa [heq]
    · exact ih (by simp) hrest
  | ends before c rest hcrlf hbreak ih =>
    rw [splitlinesFrom_char hcrlf, if_pos hbreak] at h
    obtain heq | hrest := List.mem_cons.mp h
    · rwa [heq]
    · exact ih (by simp) hrest
  | goes before c rest hcrlf hbreak ih =>
    rw [splitlinesFrom_char hcrlf, if_neg (by simp [hbreak])] at h
    refine ih ?_ h
    intro d hd
    obtain hd | hd := List.mem_append.mp hd
    · exact hbefore d hd
    · rwa [List.mem_singleton.mp hd]

/-- No line of a text holds a line break. -/
theorem not_lineBreak_of_mem_splitlines {s line : Text} (h : line ∈ splitlines s) :
    ∀ c ∈ line, isLineBreak c = false :=
  not_lineBreak_of_mem_splitlinesFrom (by simp) h

/-- A line is a part of the text. -/
theorem infix_of_mem_splitlinesFrom {before s line : Text} (h : line ∈ splitlinesFrom before s) :
    line <:+: before ++ s := by
  induction before, s using splitlinesFrom_induction with
  | nil before =>
    rw [splitlinesFrom_nil] at h
    split_ifs at h
    · cases h
    · rw [List.mem_singleton.mp h]
      exact (List.prefix_append _ _).isInfix
  | crlf before rest ih =>
    rw [splitlinesFrom_crlf] at h
    obtain heq | hrest := List.mem_cons.mp h
    · rw [heq]
      exact (List.prefix_append _ _).isInfix
    · exact (ih hrest).trans ⟨before ++ ['\r', '\n'], [], by simp⟩
  | ends before c rest hcrlf hbreak ih =>
    rw [splitlinesFrom_char hcrlf, if_pos hbreak] at h
    obtain heq | hrest := List.mem_cons.mp h
    · rw [heq]
      exact (List.prefix_append _ _).isInfix
    · exact (ih hrest).trans ⟨before ++ [c], [], by simp⟩
  | goes before c rest hcrlf hbreak ih =>
    rw [splitlinesFrom_char hcrlf, if_neg (by simp [hbreak])] at h
    have hin := ih h
    rwa [List.append_assoc, List.singleton_append] at hin

theorem prefix_of_splitlinesFrom {before s line : Text} {lines : List Text} (h : splitlinesFrom before s = line :: lines) :
    line <+: before ++ s := by
  induction before, s using splitlinesFrom_induction with
  | nil before =>
    rw [splitlinesFrom_nil] at h
    split_ifs at h
    rw [(List.cons.inj h).1]
    exact List.prefix_append _ _
  | crlf before rest ih =>
    rw [splitlinesFrom_crlf, List.cons.injEq] at h
    rw [h.1]
    exact List.prefix_append _ _
  | ends before c rest hcrlf hbreak ih =>
    rw [splitlinesFrom_char hcrlf, if_pos hbreak, List.cons.injEq] at h
    rw [h.1]
    exact List.prefix_append _ _
  | goes before c rest hcrlf hbreak ih =>
    rw [splitlinesFrom_char hcrlf, if_neg (by simp [hbreak])] at h
    have hpre := ih h
    rwa [List.append_assoc, List.singleton_append] at hpre

/-- A text starts with its first line. -/
theorem prefix_of_splitlines {s line : Text} {lines : List Text} (h : splitlines s = line :: lines) : line <+: s :=
  prefix_of_splitlinesFrom h

/-- A text without a break is one line, if it is not empty. -/
theorem splitlines_unbroken {part : Text} (h : ∀ c ∈ part, isLineBreak c = false) :
    splitlines part = if part = [] then [] else [part] := by
  have hpart : ∀ before, splitlinesFrom before part = splitlinesFrom (before ++ part) [] := by
    induction part with
    | nil => simp
    | cons c part ih =>
      obtain ⟨hc, hpart⟩ := List.forall_mem_cons.mp h
      have hcr : c ≠ '\r' := by
        intro hcr
        rw [hcr] at hc
        exact absurd hc (by decide)
      intro before
      rw [splitlinesFrom_char (fun heq => absurd heq hcr), if_neg (by simp [hc]), ih hpart, List.append_assoc, List.singleton_append]
  rw [splitlines, hpart, List.nil_append, splitlinesFrom_nil]

/-- A text that is cut off has the first lines, and perhaps a part of the next one. -/
theorem splitlines_prefix {rows : List Text} (hrows : ∀ row ∈ rows, ∀ c ∈ row, isLineBreak c = false) {text : Text}
    (h : text <+: unlines rows) :
    ∃ shown hidden last, rows = shown ++ hidden ∧ splitlines text = shown ++ last ∧
      (last = [] ∨ ∃ part row, last = [part] ∧ row ∈ hidden ∧ part <+: row) := by
  induction rows generalizing text with
  | nil =>
    have hnil : text = [] := List.prefix_nil.mp h
    exact ⟨[], [], [], rfl, by rw [hnil]; rfl, .inl rfl⟩
  | cons row rows ih =>
    obtain ⟨hrow, hrows⟩ := List.forall_mem_cons.mp hrows
    rw [unlines_cons] at h
    obtain hpart | ⟨rest, hrest⟩ := List.prefix_or_prefix_of_prefix h (List.prefix_append row _)
    · -- the cut is in the first line
      have hlines := splitlines_unbroken (fun c hc => hrow c (hpart.subset hc))
      by_cases hempty : text = []
      · exact ⟨[], row :: rows, [], rfl, by rw [hempty]; rfl, .inl rfl⟩
      · rw [if_neg hempty] at hlines
        exact ⟨[], row :: rows, [text], rfl, hlines, .inr ⟨text, row, rfl, List.mem_cons_self, hpart⟩⟩
    · rw [← hrest, List.prefix_append_right_inj] at h
      cases rest with
      | nil =>
        rw [List.append_nil] at hrest
        have hlines := splitlines_unbroken hrow
        by_cases hempty : row = []
        · rw [if_pos hempty] at hlines
          exact ⟨[], row :: rows, [], rfl, by rw [← hrest, hlines]; rfl, .inl rfl⟩
        · rw [if_neg hempty] at hlines
          exact ⟨[row], rows, [], rfl, by rw [← hrest, hlines]; rfl, .inl rfl⟩
      | cons c rest =>
        obtain ⟨rfl, hafter⟩ := List.cons_prefix_cons.mp h
        obtain ⟨shown, hidden, last, hsplit, hlist, hlast⟩ := ih hrows hafter
        refine ⟨row :: shown, hidden, last, by rw [hsplit]; rfl, ?_, hlast⟩
        rw [splitlines] at hlist
        rw [← hrest, splitlines, splitlinesFrom_append hrow, List.nil_append, hlist]
        rfl

/-- The lines of a text with a line end inside are those before it and those after it. -/
theorem splitlinesFrom_newline {row : Text} (hrow : '\r' ∉ row) (before rest : Text) :
    splitlinesFrom before (row ++ '\n' :: rest) =
      splitlinesFrom before (row ++ ['\n']) ++ splitlinesFrom [] rest := by
  induction row generalizing before with
  | nil =>
    have hbreak : isLineBreak '\n' = true := by decide
    have hnl : ∀ rest : Text, '\n' = '\r' → rest.head? ≠ some '\n' := fun _ heq => absurd heq (by decide)
    rw [List.nil_append, List.nil_append, splitlinesFrom_char (hnl _), splitlinesFrom_char (hnl _),
      if_pos hbreak, if_pos hbreak]
    rfl
  | cons c row ih =>
    have hc : c ≠ '\r' := (List.ne_of_not_mem_cons hrow).symm
    have hnext := ih (List.not_mem_of_not_mem_cons hrow)
    rw [List.cons_append, List.cons_append, splitlinesFrom_char (fun heq => absurd heq hc),
      splitlinesFrom_char (fun heq => absurd heq hc), hnext, hnext]
    split <;> rfl

theorem mem_splitlines_unlines {rows : List Text} (hrows : ∀ row ∈ rows, '\r' ∉ row) {line : Text}
    (h : line ∈ splitlines (unlines rows)) : ∃ row ∈ rows, line ∈ splitlines (row ++ ['\n']) := by
  induction rows with
  | nil => exact absurd h List.not_mem_nil
  | cons row rows ih =>
    obtain ⟨hrow, hrows⟩ := List.forall_mem_cons.mp hrows
    have hcons : unlines (row :: rows) = row ++ '\n' :: unlines rows := by simp [unlines]
    rw [splitlines, hcons, splitlinesFrom_newline hrow, List.mem_append] at h
    obtain h | h := h
    · exact ⟨row, List.mem_cons_self, h⟩
    · obtain ⟨other, hother, hline⟩ := ih hrows h
      exact ⟨other, List.mem_cons_of_mem _ hother, hline⟩

theorem rstrip_append {s t : Text} (h : ∃ c ∈ t, u.isSpace c = false) :
    rstrip u (s ++ t) = s ++ rstrip u t := by
  obtain ⟨c, hc, hspace⟩ := h
  have hne : (t.reverse.dropWhile u.isSpace).isEmpty = false := by
    rw [List.isEmpty_eq_false_iff, ne_eq, List.dropWhile_eq_nil_iff]
    intro hall
    have := hall c (List.mem_reverse.mpr hc)
    rw [hspace] at this
    cases this
  rw [rstrip, rstrip, List.rdropWhile, List.rdropWhile, List.reverse_append, List.dropWhile_append,
    hne]
  simp

theorem rstrip_of_getLast {s : Text} (h : ∀ c ∈ s.getLast?, u.isSpace c = false) : rstrip u s = s := by
  rw [rstrip, List.rdropWhile_eq_self_iff]
  intro hne
  simpa using h _ (List.getLast?_eq_some_getLast hne)

theorem splitWords_last (s : Text) :
    splitWords u 0 s = if s.dropWhile u.isSpace = [] then [] else [s.dropWhile u.isSpace] := rfl

theorem splitWords_next (n : Nat) (s : Text) :
    splitWords u (n + 1) s =
      if s.dropWhile u.isSpace = [] then []
      else (s.dropWhile u.isSpace).takeWhile (!u.isSpace ·) ::
        splitWords u n ((s.dropWhile u.isSpace).dropWhile (!u.isSpace ·)) := rfl

/-- A word and the blanks after it are split off. -/
theorem splitWords_cons {word blanks rest : Text} (hne : word ≠ [])
    (hword : ∀ c ∈ word, u.isSpace c = false) (hblank : blanks ≠ [])
    (hblanks : ∀ c ∈ blanks, u.isSpace c = true) (n : Nat) :
    splitWords u (n + 1) (word ++ (blanks ++ rest)) = word :: splitWords u n rest := by
  have hskip : ∀ (m : Nat) (s : Text), splitWords u m (blanks ++ s) = splitWords u m s := by
    intro m s
    cases m with
    | zero => rw [splitWords_last, List.dropWhile_append_of_pos hblanks, splitWords_last]
    | succ m => rw [splitWords_next, List.dropWhile_append_of_pos hblanks, splitWords_next]
  have hpos : ∀ c ∈ word, (!u.isSpace c) = true := fun c hc => by simp [hword c hc]
  have hstart : (word ++ (blanks ++ rest)).dropWhile u.isSpace = word ++ (blanks ++ rest) := by
    cases word with
    | nil => exact absurd rfl hne
    | cons c word =>
      rw [List.cons_append, List.dropWhile_cons_of_neg (by simp [hword c List.mem_cons_self])]
  have hend : (blanks ++ rest).takeWhile (!u.isSpace ·) = [] ∧
      (blanks ++ rest).dropWhile (!u.isSpace ·) = blanks ++ rest := by
    cases blanks with
    | nil => exact absurd rfl hblank
    | cons c blanks =>
      have hc := hblanks c List.mem_cons_self
      simp [hc]
  rw [splitWords_next, hstart, if_neg (by simp [hne]), List.takeWhile_append_of_pos hpos,
    List.dropWhile_append_of_pos hpos, hend.1, hend.2, List.append_nil, hskip]

theorem splitWords_zero {s : Text} (hne : s ≠ []) (h : ∀ c ∈ s.head?, u.isSpace c = false) :
    splitWords u 0 s = [s] := by
  cases s with
  | nil => exact absurd rfl hne
  | cons c s =>
    have hc := h c rfl
    rw [splitWords_last, List.dropWhile_cons_of_neg (by simp [hc])]
    simp

theorem head_dropWhile (s : Text) : ∀ c ∈ (s.dropWhile u.isSpace).head?, u.isSpace c = false := by
  intro c hc
  have hnot := List.head?_dropWhile_not u.isSpace s
  rw [Option.mem_def.mp hc] at hnot
  simpa using hnot

/-- The words of a text do not begin with a blank. -/
theorem infix_of_mem_splitWords {n : Nat} {s word : Text} (h : word ∈ splitWords u n s) : word <:+: s := by
  induction n generalizing s with
  | zero =>
    rw [splitWords_last] at h
    split_ifs at h
    · cases h
    · rw [List.mem_singleton.mp h]
      exact (List.dropWhile_suffix _).isInfix
  | succ n ih =>
    rw [splitWords_next] at h
    split_ifs at h
    · cases h
    · obtain rfl | h := List.mem_cons.mp h
      · exact (List.takeWhile_prefix _).isInfix.trans (List.dropWhile_suffix _).isInfix
      · exact (ih h).trans ((List.dropWhile_suffix _).trans (List.dropWhile_suffix _)).isInfix

theorem splitWords_head {n : Nat} {s word : Text} (h : word ∈ splitWords u n s) :
    word ≠ [] ∧ (∀ c ∈ word.head?, u.isSpace c = false) ∧ word ⊆ s := by
  induction n generalizing s with
  | zero =>
    rw [splitWords_last] at h
    by_cases hrest : s.dropWhile u.isSpace = []
    · rw [if_pos hrest] at h
      cases h
    · rw [if_neg hrest, List.mem_singleton] at h
      rw [h]
      exact ⟨hrest, head_dropWhile s, (List.dropWhile_sublist _).subset⟩
  | succ n ih =>
    rw [splitWords_next] at h
    by_cases hrest : s.dropWhile u.isSpace = []
    · rw [if_pos hrest] at h
      cases h
    · rw [if_neg hrest] at h
      have hdrop : s.dropWhile u.isSpace ⊆ s := (List.dropWhile_sublist _).subset
      obtain heq | hlater := List.mem_cons.mp h
      · have hhead := head_dropWhile (u := u) s
        cases hs : s.dropWhile u.isSpace with
        | nil => exact absurd hs hrest
        | cons c rest =>
          rw [hs] at hhead hdrop heq
          have hc : u.isSpace c = false := hhead c rfl
          rw [List.takeWhile_cons_of_pos (by simp [hc])] at heq
          rw [heq]
          refine ⟨by simp, by simpa using hc, ?_⟩
          have htake : c :: rest.takeWhile (!u.isSpace ·) ⊆ c :: rest :=
            List.cons_subset_cons c (List.takeWhile_sublist _).subset
          exact List.Subset.trans htake hdrop
      · obtain ⟨hne, hhead, hsub⟩ := ih hlater
        have hword : word ⊆ s.dropWhile u.isSpace :=
          List.Subset.trans hsub (List.dropWhile_sublist _).subset
        exact ⟨hne, hhead, List.Subset.trans hword hdrop⟩

theorem textBefore_cons (separator : Text) (c : Char) (rest : Text) :
    textBefore separator (c :: rest) =
      if separator.isPrefixOf (c :: rest) then [] else c :: textBefore separator rest := rfl

theorem textBefore_append {separator s t : Text} (h : ¬ separator <:+: s ++ separator.dropLast)
    (hne : separator ≠ []) : textBefore separator (s ++ (separator ++ t)) = s := by
  induction s with
  | nil =>
    cases separator with
    | nil => exact absurd rfl hne
    | cons d separator =>
      rw [List.nil_append, List.cons_append, textBefore_cons, if_pos]
      rw [List.isPrefixOf_iff_prefix, ← List.cons_append]
      exact List.prefix_append _ t
  | cons c s ih =>
    have hlater : ¬ separator <:+: s ++ separator.dropLast := fun hin =>
      h (hin.trans (List.suffix_cons c _).isInfix)
    rw [List.cons_append, textBefore_cons, if_neg, ih hlater]
    rw [List.isPrefixOf_iff_prefix]
    intro hpre
    refine h (List.IsPrefix.isInfix ?_)
    have hlong : (c :: s) ++ separator.dropLast <+: c :: (s ++ (separator ++ t)) := by
      refine (List.prefix_append_right_inj (c :: s)).mpr ?_
      exact (List.dropLast_prefix separator).trans (List.prefix_append _ t)
    have hpos := List.length_pos_of_ne_nil hne
    exact List.prefix_of_prefix_length_le hpre hlong (by simp; omega)

theorem textBefore_self {separator s : Text} (h : ¬ separator <:+: s) : textBefore separator s = s := by
  induction s with
  | nil => rfl
  | cons c s ih =>
    rw [textBefore_cons, if_neg, ih (fun hin => h (hin.trans (List.suffix_cons c s).isInfix))]
    rw [List.isPrefixOf_iff_prefix]
    exact fun hpre => h hpre.isInfix

theorem prefix_textBefore (separator s : Text) : textBefore separator s <+: s := by
  induction s with
  | nil => exact List.prefix_refl _
  | cons c s ih =>
    rw [textBefore_cons]
    split
    · exact List.nil_prefix
    · exact (List.prefix_cons_inj c).mpr ih

theorem not_infix_textBefore {separator : Text} (hne : separator ≠ []) (s : Text) :
    ¬ separator <:+: textBefore separator s := by
  induction s with
  | nil => exact fun hin => hne (List.eq_nil_of_infix_nil hin)
  | cons c s ih =>
    rw [textBefore_cons]
    split
    case isTrue => exact fun hin => hne (List.eq_nil_of_infix_nil hin)
    case isFalse hhere =>
      intro hin
      obtain hpre | hin := List.infix_cons_iff.mp hin
      · refine hhere (List.isPrefixOf_iff_prefix.mpr (hpre.trans ?_))
        exact (List.prefix_cons_inj c).mpr (prefix_textBefore separator s)
      · exact ih hin

end OpenAdb.Lib.PyLines
