import OpenAdb.Lib.PyText

namespace OpenAdb.Lib.ShellWords

open OpenAdb.Lib.PyText

/-- A value between single quotes, with each quote of its own outside of them. -/
def quote (value : Text) : Text := '\'' :: replaceText ['\''] "'\\''".toList value ++ ['\'']

/-- What a shell reads as more than text when it is not quoted. -/
def special : Text := "|&;<>()$`\"*?[]#~=%!{}^\n\t".toList

/-- The words of a simple command after the word that is being read. Single quotes and a backslash keep what they
enclose. -/
def wordsFrom : Bool → Option Text → Text → Option (List Text)
  | true, _, [] => none
  | true, word, c :: rest =>
    if c = '\'' then wordsFrom false word rest else wordsFrom true (some (word.getD [] ++ [c])) rest
  | false, word, [] => some word.toList
  | false, word, '\\' :: c :: rest => wordsFrom false (some (word.getD [] ++ [c])) rest
  | false, word, c :: rest =>
    if c = '\'' then wordsFrom true (some (word.getD [])) rest
    else if c = ' ' then (wordsFrom false none rest).map (word.toList ++ ·)
    else if c ∈ special then none
    else wordsFrom false (some (word.getD [] ++ [c])) rest

def words (script : Text) : Option (List Text) := wordsFrom false none script

variable {value rest : Text} {word : Option Text}

theorem replaceText_cons_self (c : Char) (new s : Text) :
    replaceText [c] new (c :: s) = new ++ replaceText [c] new s := by
  rw [replaceText, replaceFrom, if_pos (by simp)]
  rfl

theorem replaceText_cons_ne {c d : Char} (h : d ≠ c) (new s : Text) :
    replaceText [c] new (d :: s) = d :: replaceText [c] new s := by
  rw [replaceText, replaceFrom, if_neg (by simpa using h.symm)]
  rfl

theorem wordsFrom_quoted {word : Text} :
    wordsFrom true (some word) (replaceText ['\''] "'\\''".toList value ++ '\'' :: rest) =
      wordsFrom false (some (word ++ value)) rest := by
  induction value generalizing word with
  | nil =>
    rw [List.append_nil]
    rfl
  | cons c value ih =>
    by_cases h : c = '\''
    · subst h
      -- The quote is left and entered again around the character.
      rw [replaceText_cons_self, List.append_assoc]
      have hstep : wordsFrom true (some word) ("'\\''".toList ++
          (replaceText ['\''] "'\\''".toList value ++ '\'' :: rest)) =
          wordsFrom true (some (word ++ ['\''])) (replaceText ['\''] "'\\''".toList value ++ '\'' :: rest) := rfl
      rw [hstep, ih, List.append_assoc, List.singleton_append]
    · rw [replaceText_cons_ne h, List.cons_append, wordsFrom, if_neg h, Option.getD_some, ih, List.append_assoc,
        List.singleton_append]

/-- A quoted value is added to the word as it is. -/
theorem wordsFrom_quote :
    wordsFrom false word (quote value ++ rest) = wordsFrom false (some (word.getD [] ++ value)) rest := by
  have hopen : ∀ s, wordsFrom false word ('\'' :: s) = wordsFrom true (some (word.getD [])) s := by
    intro s
    cases s with
    | nil => rfl
    | cons c s => rfl
  rw [quote, List.cons_append, List.cons_append, hopen, List.append_assoc, List.singleton_append, wordsFrom_quoted]

theorem wordsFrom_space :
    wordsFrom false word (' ' :: rest) = (wordsFrom false none rest).map (word.toList ++ ·) := by
  cases rest with
  | nil => rfl
  | cons c rest => rfl

/-- A command of two quoted values. -/
theorem words_two (command : Text) (hcommand : ∀ s, words (command ++ ' ' :: s) = (words s).map (command :: ·))
    (first second : Text) :
    words (command ++ ' ' :: (quote first ++ ' ' :: quote second)) = some [command, first, second] := by
  have hlast : wordsFrom false none (quote second) = some [second] := by
    rw [← List.append_nil (quote second), wordsFrom_quote]
    rfl
  rw [hcommand, words, wordsFrom_quote, wordsFrom_space, hlast]
  rfl

/-- A command of an option and a quoted value. -/
theorem words_option (command option : Text)
    (hcommand : ∀ s, words (command ++ ' ' :: s) = (words s).map (command :: ·))
    (hoption : ∀ s, words (option ++ ' ' :: s) = (words s).map (option :: ·)) (value : Text) :
    words (command ++ ' ' :: (option ++ ' ' :: quote value)) = some [command, option, value] := by
  have hlast : words (quote value) = some [value] := by
    rw [words, ← List.append_nil (quote value), wordsFrom_quote]
    rfl
  rw [hcommand, hoption, hlast]
  rfl

/-! Commands of fixed words and quoted values. -/

/-- A character that stands for itself. -/
def Plain (c : Char) : Prop := c ≠ '\'' ∧ c ≠ '\\' ∧ c ≠ ' ' ∧ c ∉ special

/-- A part of a command that no shell changes. -/
structure FixedText where
  text : Text
  nonempty : text ≠ []
  plain : ∀ c ∈ text, Plain c

inductive Piece
  | fixed (lead : FixedText)
  | quoted (value : Text)

def Piece.text : Piece → Text
  | .fixed lead => lead.text
  | .quoted value => quote value

def Piece.meaning : Piece → Text
  | .fixed lead => lead.text
  | .quoted value => value

/-- A word of at least one piece. -/
structure Word where
  first : Piece
  rest : List Piece

def Word.text (w : Word) : Text := w.first.text ++ w.rest.flatMap Piece.text

def Word.meaning (w : Word) : Text := w.first.meaning ++ w.rest.flatMap Piece.meaning

def render (command : List Word) : Text := [' '].intercalate (command.map Word.text)

theorem wordsFrom_plain {c : Char} (hc : Plain c) :
    wordsFrom false word (c :: rest) = wordsFrom false (some (word.getD [] ++ [c])) rest := by
  obtain ⟨hquote, hbackslash, hspace, hspecial⟩ := hc
  rw [wordsFrom.eq_5 _ _ _ (fun _ _ h _ => hbackslash h), if_neg hquote, if_neg hspace, if_neg hspecial]

theorem wordsFrom_fixed {text : Text} (hne : text ≠ []) (hplain : ∀ c ∈ text, Plain c) :
    wordsFrom false word (text ++ rest) = wordsFrom false (some (word.getD [] ++ text)) rest := by
  induction text generalizing word with
  | nil => exact absurd rfl hne
  | cons c text ih =>
    rw [List.forall_mem_cons] at hplain
    rw [List.cons_append, wordsFrom_plain hplain.1]
    by_cases htext : text = []
    · rw [htext, List.nil_append]
    · rw [ih htext hplain.2, Option.getD_some, List.append_assoc, List.singleton_append]

/-- A piece adds its value to the word that is read. -/
theorem wordsFrom_piece (piece : Piece) :
    wordsFrom false word (piece.text ++ rest) = wordsFrom false (some (word.getD [] ++ piece.meaning)) rest := by
  cases piece with
  | fixed lead => exact wordsFrom_fixed lead.nonempty lead.plain
  | quoted value => exact wordsFrom_quote

theorem wordsFrom_pieces (pieces : List Piece) {word : Text} :
    wordsFrom false (some word) (pieces.flatMap Piece.text ++ rest) =
      wordsFrom false (some (word ++ pieces.flatMap Piece.meaning)) rest := by
  induction pieces generalizing word with
  | nil => rw [List.flatMap_nil, List.flatMap_nil, List.nil_append, List.append_nil]
  | cons piece pieces ih =>
    rw [List.flatMap_cons, List.flatMap_cons, List.append_assoc, wordsFrom_piece, ih, Option.getD_some,
      List.append_assoc]

theorem wordsFrom_word (w : Word) :
    wordsFrom false none (w.text ++ rest) = wordsFrom false (some w.meaning) rest := by
  rw [Word.text, List.append_assoc, wordsFrom_piece, wordsFrom_pieces]
  rfl

/-- A command is read as its words, with each quoted value as it is. -/
theorem words_render (command : List Word) : words (render command) = some (command.map Word.meaning) := by
  induction command with
  | nil => rfl
  | cons w command ih =>
    cases command with
    | nil =>
      have htext : render [w] = w.text ++ [] := by
        rw [List.append_nil]
        exact List.append_nil _
      rw [words, htext, wordsFrom_word]
      rfl
    | cons w' command =>
      have htext : render (w :: w' :: command) = w.text ++ ' ' :: render (w' :: command) := rfl
      rw [words, htext, wordsFrom_word, wordsFrom_space, ← words, ih]
      rfl

end OpenAdb.Lib.ShellWords
