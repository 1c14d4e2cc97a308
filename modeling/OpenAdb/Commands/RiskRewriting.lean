import OpenAdb.Commands.Risk
import OpenAdb.Lib.Substring

namespace OpenAdb.Commands.RiskRewriting

open OpenAdb.Lib.PyText OpenAdb.Lib.PackageName OpenAdb.Lib.Substring OpenAdb.Commands.Risk
open OpenAdb.Commands.Results (contains)

def switchNames : Tool → List Text := flagOptions

def valuedNames : Tool → List Text
  | .adb => ["-s", "-t", "-H", "-P", "-L", "--one-device"].map String.toList
  | .fastboot => ["-s", "--slot", "--fs-options"].map String.toList

/-- How an option is written: alone, with its value in the next word, with a next word of blanks for a value, or with
its value in the same word. -/
inductive Form
  | switch (name : Text)
  | separate (name : Text)
  | blank (name : Text)
  | attached (name : Text)
  deriving DecidableEq

def Form.Known (tool : Tool) : Form → Prop
  | switch name => name ∈ switchNames tool
  | separate name | blank name | attached name => name ∈ valuedNames tool

/-- A value behind a letter follows at once, one behind a longer name follows an equals sign. -/
def attach (name value : Text) : Text := if name.length = 2 then name ++ value else name ++ '=' :: value

def Form.words : Form → Text → List Text
  | switch name, _ => [name]
  | separate name, value | blank name, value => [name, value]
  | attached name, value => [attach name value]

/-- The words of the forms with their values. -/
def inserted (forms : List Form) (values : List Text) : List Text := (List.zipWith Form.words forms values).flatten

variable (t : Tables)

def Form.Fits : Form → Text → Prop
  | switch _, _ => True
  | separate _, value => ¬isBlank t value = true
  | blank _, value => isBlank t value = true
  | attached _, value => value ≠ []

/-- Adds blanks to each run of blanks, counted from a number on. -/
def lengthenFrom (extra : Nat → Nat) : Nat → Text → Text
  | _, [] => []
  | run, c :: rest =>
    if c = ' ' ∧ rest.head? ≠ some ' ' then ' ' :: (List.replicate (extra run) ' ' ++ lengthenFrom extra (run + 1) rest)
    else c :: lengthenFrom extra run rest

/-- Adds blanks to the runs of each argument. -/
def lengthen (extra : Nat → Nat → Nat) (arguments : List Text) : List Text :=
  arguments.mapIdx (fun i argument => lengthenFrom (extra i) 0 argument)

/-- A text in letters of any case. -/
def AnyCase (plain text : Text) : Prop := text.map Char.toLower = plain ∧ ∀ c ∈ text, c.toNat < 128

/-- The tool by its name or by a path, in double quotes or not. -/
def Spells (tool : Tool) (word : Text) : Prop :=
  ∃ quotes quotes' folder name, word = List.replicate quotes '"' ++ (folder ++ (name ++ List.replicate quotes' '"')) ∧
    (∀ c ∈ folder.getLast?, c = '/' ∨ c = '\\') ∧
    (AnyCase tool.word name ∨ AnyCase (tool.word ++ ".exe".toList) name)

/-- Whatever the values, the spellings and the command, the rewriting lowers nothing. -/
def Keeps (tool : Tool) (forms : List Form) (extra : Nat → Nat → Nat) : Prop :=
  ∀ (values : List Text) (word word' : Text) (rest : List Text), List.Forall₂ (Form.Fits t) forms values →
    Spells tool word → Spells tool word' →
    (analyzeCommandRisk t (.arguments (word :: rest))).level ≠ .safe →
      (analyzeCommandRisk t (.arguments (word :: rest))).level.rank ≤
          (analyzeCommandRisk t (.arguments
            (word' :: (inserted forms values ++ lengthen extra rest)))).level.rank ∧
        ((analyzeCommandRisk t (.arguments (word :: rest))).needsConfirmation = true →
          (analyzeCommandRisk t (.arguments
            (word' :: (inserted forms values ++ lengthen extra rest)))).needsConfirmation = true)

/-- The parser passes over just the inserted words: each value is a visible word of its own or stands in
`--slot=`, and an option with a blank value finds an option of one word to take instead. -/
def passed : List Form → Bool
  | [] => true
  | .switch _ :: forms => passed forms
  | .separate _ :: forms => passed forms
  | .attached name :: forms => name = "--slot".toList && passed forms
  | .blank _ :: .switch _ :: forms => passed forms
  | .blank _ :: .attached _ :: forms => passed forms
  | .blank _ :: .blank _ :: forms => passed forms
  | .blank _ :: _ => false

variable {t} {tool : Tool} {word : Text} {forms : List Form} {extra : Nat → Nat → Nat}

/-- The words that are a token as they stand, but for their case. -/
def plainWord (word : Text) : Bool := word ≠ [] && word.all (fun c => 33 ≤ c.toNat && c.toNat ≤ 126 && c ≠ '"')

theorem plain_chars (h : plainWord word = true) :
    word ≠ [] ∧ ∀ c ∈ word, 33 ≤ c.toNat ∧ c.toNat ≤ 126 ∧ c ≠ '"' := by
  simpa [plainWord, List.all_eq_true, and_assoc] using h

theorem token_plain (h : plainWord word = true) : token t word = word.map Char.toLower := by
  obtain ⟨-, hchars⟩ := plain_chars h
  have hstrip : strip t.toUnicodeData word = word :=
    strip_unspaced (fun c hc => t.isSpace_visible c (hchars c hc).1 (hchars c hc).2.1)
  have hquote : '"' ∉ word := fun hmem => (hchars _ hmem).2.2 rfl
  have hascii : ∀ c ∈ word, c.toNat < 128 := fun c hc => by
    have := (hchars c hc).2.1
    omega
  rw [token, hstrip, stripQuotes, lstripChar_of_not_mem hquote, rstripChar_of_not_mem hquote, t.lower_ascii word hascii]

theorem not_isBlank_of_mem {c : Char} (hmem : c ∈ word) (hc : t.isSpace c = false) : ¬isBlank t word = true :=
  fun hblank => strip_ne_nil_of_mem hmem hc (of_decide_eq_true hblank)

theorem not_isBlank_plain (h : plainWord word = true) : ¬isBlank t word = true := by
  obtain ⟨hne, hchars⟩ := plain_chars h
  obtain ⟨c, rest, rfl⟩ := List.exists_cons_of_ne_nil hne
  have hc := hchars c List.mem_cons_self
  exact not_isBlank_of_mem List.mem_cons_self (t.isSpace_visible c hc.1 hc.2.1)

theorem tokens_cons_visible (h : ¬isBlank t word = true) (rest : List Text) :
    tokens t (word :: rest) = token t word :: tokens t rest := by
  rw [tokens, List.filter_cons_of_pos (by simpa using h)]
  rfl

theorem tokens_cons_blank (h : isBlank t word = true) (rest : List Text) : tokens t (word :: rest) = tokens t rest := by
  rw [tokens, List.filter_cons_of_neg (by simp [h])]
  rfl

theorem afterOptions_pass {rest : List Text} (hvalued : (valueOptions tool).contains word = false)
    (h : passes tool word = true) : afterOptions tool (word :: rest) = afterOptions tool rest := by
  cases rest with
  | nil => exact if_pos h
  | cons value rest => rw [afterOptions, if_neg (by rw [hvalued]; exact Bool.false_ne_true), if_pos h]

theorem afterOptions_valued {value : Text} {rest : List Text} (h : (valueOptions tool).contains word = true) :
    afterOptions tool (word :: value :: rest) = afterOptions tool rest := by
  rw [afterOptions, if_pos h]

/-- The token of an option word. -/
def folded (name : Text) : Text := name.map Char.toLower

/-- What the parser has to know of an option word. -/
theorem switch_token {name : Text} (h : name ∈ switchNames tool) :
    plainWord name = true ∧ (valueOptions tool).contains (folded name) = false ∧
      passes tool (folded name) = true := by
  have hall : ∀ tool, ∀ name ∈ switchNames tool, plainWord name = true ∧
      (valueOptions tool).contains (folded name) = false ∧ passes tool (folded name) = true := by
    intro tool
    cases tool <;> exact List.forall_iff_forall_mem.mp (by decide +kernel)
  exact hall tool name h

theorem valued_token {name : Text} (h : name ∈ valuedNames tool) :
    plainWord name = true ∧ (valueOptions tool).contains (folded name) = true := by
  have hall : ∀ tool, ∀ name ∈ valuedNames tool, plainWord name = true ∧
      (valueOptions tool).contains (folded name) = true := by
    intro tool
    cases tool <;> exact List.forall_iff_forall_mem.mp (by decide +kernel)
  exact hall tool name h

/-- The word of an option with its value is one token, and it is visible. -/
theorem attached_visible {name value : Text} (h : name ∈ valuedNames tool) : ¬isBlank t (attach name value) = true := by
  obtain ⟨hne, hchars⟩ := plain_chars (valued_token h).1
  obtain ⟨c, rest, rfl⟩ := List.exists_cons_of_ne_nil hne
  have hc := hchars c List.mem_cons_self
  have hmem : c ∈ attach (c :: rest) value := by
    rw [attach]
    split
    · exact List.mem_append_left _ List.mem_cons_self
    · exact List.mem_append_left _ List.mem_cons_self
  exact not_isBlank_of_mem hmem (t.isSpace_visible c hc.1 hc.2.1)

theorem strip_append_stop {a b : Text} {c d : Char} (hc : t.isSpace c = false) (hd : t.isSpace d = false) :
    strip t.toUnicodeData (c :: (a ++ d :: b)) = c :: (a ++ d :: b.rdropWhile t.isSpace) := by
  rw [strip, List.dropWhile_cons_of_neg (by rw [hc]; exact Bool.false_ne_true), ← List.cons_append,
    rdropWhile_append_cons _ hd]
  rfl

/-- The slot option is passed over with any value. -/
theorem slot_passes (value : Text) : passes tool (token t (attach "--slot".toList value)) = true ∧
    (valueOptions tool).contains (token t (attach "--slot".toList value)) = false := by
  have hdash : t.isSpace '-' = false := t.isSpace_visible '-' (by decide) (by decide)
  have hequals : t.isSpace '=' = false := t.isSpace_visible '=' (by decide) (by decide)
  have hquotes (rest : Text) : stripQuotes ('-' :: ("-slot".toList ++ '=' :: rest)) =
      "--slot".toList ++ '=' :: rstripChar '"' rest := by
    rw [stripQuotes, lstripChar, List.dropWhile_cons_of_neg (by decide), rstripChar, ← List.cons_append,
      rdropWhile_append_cons _ (by decide)]
    rfl
  have htoken : ∃ rest, token t (attach "--slot".toList value) = "--slot=".toList ++ rest := by
    refine ⟨t.lower (rstripChar '"' (value.rdropWhile t.isSpace)), ?_⟩
    change t.lower (stripQuotes (strip t.toUnicodeData ('-' :: ("-slot".toList ++ '=' :: value)))) = _
    rw [strip_append_stop hdash hequals, hquotes, t.lower_neutral _ _ '=' (.inr (.inr rfl)),
      t.lower_ascii "--slot".toList (List.forall_iff_forall_mem.mp (by decide))]
    rfl
  obtain ⟨rest, hrest⟩ := htoken
  rw [hrest]
  constructor
  · rw [passes, Bool.or_eq_true]
    exact .inr (List.isPrefixOf_iff_prefix.mpr (List.prefix_append _ _))
  · have hnone : ∀ tool, ∀ option ∈ valueOptions tool, '=' ∉ option := by
      intro tool
      cases tool <;> exact List.forall_iff_forall_mem.mp (by decide)
    rw [List.contains_eq_mem, decide_eq_false_iff_not]
    intro hmem
    exact hnone tool _ hmem (List.mem_append_left _ (by decide))

theorem tokens_switch {name value : Text} (h : Form.Known tool (.switch name)) (rest : List Text) :
    tokens t ((Form.switch name).words value ++ rest) = folded name :: tokens t rest := by
  have hplain := (switch_token h).1
  change tokens t (name :: rest) = _
  rw [tokens_cons_visible (not_isBlank_plain hplain), token_plain hplain]
  rfl

theorem tokens_separate {name value : Text} (h : Form.Known tool (.separate name))
    (hvalue : Form.Fits t (.separate name) value) (rest : List Text) :
    tokens t ((Form.separate name).words value ++ rest) = folded name :: token t value :: tokens t rest := by
  have hplain := (valued_token h).1
  change tokens t (name :: value :: rest) = _
  rw [tokens_cons_visible (not_isBlank_plain hplain), token_plain hplain, tokens_cons_visible hvalue]
  rfl

theorem tokens_blank {name value : Text} (h : Form.Known tool (.blank name))
    (hvalue : Form.Fits t (.blank name) value) (rest : List Text) :
    tokens t ((Form.blank name).words value ++ rest) = folded name :: tokens t rest := by
  have hplain := (valued_token h).1
  change tokens t (name :: value :: rest) = _
  rw [tokens_cons_visible (not_isBlank_plain hplain), token_plain hplain, tokens_cons_blank hvalue]
  rfl

theorem tokens_attached {name value : Text} (h : Form.Known tool (.attached name)) (rest : List Text) :
    tokens t ((Form.attached name).words value ++ rest) = token t (attach name value) :: tokens t rest :=
  tokens_cons_visible (attached_visible h) rest

theorem inserted_cons (f : Form) (forms : List Form) (value : Text) (values : List Text) :
    inserted (f :: forms) (value :: values) = f.words value ++ inserted forms values := rfl

theorem afterOptions_passed {values : List Text} (hknown : ∀ f ∈ forms, f.Known tool)
    (hfits : List.Forall₂ (Form.Fits t) forms values) (h : passed forms = true) (rest : List Text) :
    afterOptions tool (tokens t (inserted forms values ++ rest)) = afterOptions tool (tokens t rest) := by
  induction forms using passed.induct generalizing values with
  | case1 =>
    cases hfits
    rfl
  | case2 name forms ih =>
    obtain ⟨hname, hforms⟩ := List.forall_mem_cons.mp hknown
    cases hfits with
    | cons _ hfits =>
      obtain ⟨-, hvalued, hpasses⟩ := switch_token hname
      rw [inserted_cons, List.append_assoc, tokens_switch hname, afterOptions_pass hvalued hpasses]
      exact ih hforms hfits h
  | case3 name forms ih =>
    obtain ⟨hname, hforms⟩ := List.forall_mem_cons.mp hknown
    cases hfits with
    | cons hvalue hfits =>
      rw [inserted_cons, List.append_assoc, tokens_separate hname hvalue,
        afterOptions_valued (valued_token hname).2]
      exact ih hforms hfits h
  | case4 name forms ih =>
    obtain ⟨hname, hforms⟩ := List.forall_mem_cons.mp hknown
    rw [passed, Bool.and_eq_true, decide_eq_true_eq] at h
    obtain ⟨rfl, h⟩ := h
    cases hfits with
    | cons _ hfits =>
      rw [inserted_cons, List.append_assoc, tokens_attached hname,
        afterOptions_pass (slot_passes _).2 (slot_passes _).1]
      exact ih hforms hfits h
  | case5 name switch forms ih =>
    obtain ⟨hname, hswitch, hforms⟩ := List.forall_mem_cons.mp hknown |>.imp_right List.forall_mem_cons.mp
    cases hfits with
    | cons hvalue hfits =>
      cases hfits with
      | cons _ hfits =>
        rw [inserted_cons, inserted_cons, List.append_assoc, List.append_assoc, tokens_blank hname hvalue,
          tokens_switch hswitch, afterOptions_valued (valued_token hname).2]
        exact ih hforms hfits h
  | case6 name attached forms ih =>
    obtain ⟨hname, hattached, hforms⟩ := List.forall_mem_cons.mp hknown |>.imp_right List.forall_mem_cons.mp
    cases hfits with
    | cons hvalue hfits =>
      cases hfits with
      | cons _ hfits =>
        rw [inserted_cons, inserted_cons, List.append_assoc, List.append_assoc, tokens_blank hname hvalue,
          tokens_attached hattached, afterOptions_valued (valued_token hname).2]
        exact ih hforms hfits h
  | case7 name next forms ih =>
    obtain ⟨hname, hnext, hforms⟩ := List.forall_mem_cons.mp hknown |>.imp_right List.forall_mem_cons.mp
    cases hfits with
    | cons hvalue hfits =>
      cases hfits with
      | cons hvalue' hfits =>
        rw [inserted_cons, inserted_cons, List.append_assoc, List.append_assoc, tokens_blank hname hvalue,
          tokens_blank hnext hvalue', afterOptions_valued (valued_token hname).2]
        exact ih hforms hfits h
  | case8 name forms hswitch hattached hblank =>
    cases forms with
    | nil => cases h
    | cons f forms =>
      cases f with
      | switch switch => exact absurd rfl (hswitch switch forms)
      | separate next => cases h
      | attached attached => exact absurd rfl (hattached attached forms)
      | blank next => exact absurd rfl (hblank next forms)

theorem dropWhile_append_stop {p : Char → Bool} {a b : Text} (hb : b.dropWhile p = b) :
    (a ++ b).dropWhile p = a.dropWhile p ++ b := by
  rw [List.dropWhile_append]
  by_cases h : (a.dropWhile p).isEmpty = true
  · rw [if_pos h, hb, List.isEmpty_iff.mp h, List.nil_append]
  · rw [if_neg h]

theorem dropWhile_head {p : Char → Bool} {c : Char} (hc : p c = false) (b : Text) : (c :: b).dropWhile p = c :: b :=
  List.dropWhile_cons_of_neg (by rw [hc]; exact Bool.false_ne_true)

theorem rdropWhile_last {p : Char → Bool} {a b : Text} (hne : b ≠ []) (hlast : ∀ c ∈ b, p c = false) :
    (a ++ b).rdropWhile p = a ++ b := by
  rw [List.rdropWhile_eq_self_iff]
  intro h
  rw [List.getLast_append_of_ne_nil h hne, hlast _ (List.getLast_mem hne)]
  exact Bool.false_ne_true

/-- A name of a tool as it is written. -/
structure ToolName (plain name : Text) : Prop where
  ne_nil : name ≠ []
  visible : ∀ c ∈ name, 33 ≤ c.toNat ∧ c.toNat ≤ 126
  unquoted : ∀ c ∈ name, c ≠ '"'
  folded : name.map Char.toLower = plain

/-- The letters of the names of the tools, and the dot. -/
def nameChar (c : Char) : Bool := lowerAscii c || c = '.'

theorem anyCase_char {c : Char} (h : c.toNat < 128) (hc : nameChar c.toLower = true) :
    (33 ≤ c.toNat ∧ c.toNat ≤ 126) ∧ c ≠ '"' := by
  have hall : ∀ n < 128, nameChar (Char.ofNat n).toLower = true →
      (33 ≤ (Char.ofNat n).toNat ∧ (Char.ofNat n).toNat ≤ 126) ∧ Char.ofNat n ≠ '"' := by
    decide +kernel
  have hn := hall c.toNat h
  rw [Char.ofNat_toNat] at hn
  exact hn hc

theorem toolName_of_anyCase {plain name : Text} (h : AnyCase plain name) (hne : plain ≠ [])
    (hplain : plain.all nameChar = true) : ToolName plain name := by
  obtain ⟨hfolded, hascii⟩ := h
  have hchars : ∀ c ∈ name, (33 ≤ c.toNat ∧ c.toNat ≤ 126) ∧ c ≠ '"' := by
    intro c hc
    apply anyCase_char (hascii c hc)
    apply List.all_eq_true.mp hplain
    rw [← hfolded]
    exact List.mem_map_of_mem hc
  refine ⟨?_, fun c hc => (hchars c hc).1, fun c hc => (hchars c hc).2, hfolded⟩
  rintro rfl
  exact hne hfolded.symm

theorem spells_shape (h : Spells tool word) : ∃ quotes quotes' folder name,
    word = List.replicate quotes '"' ++ (folder ++ (name ++ List.replicate quotes' '"')) ∧
    (∀ c ∈ folder.getLast?, c = '/' ∨ c = '\\') ∧
    (ToolName tool.word name ∨ ToolName (tool.word ++ ".exe".toList) name) := by
  obtain ⟨quotes, quotes', folder, name, hword, hfolder, hname⟩ := h
  refine ⟨quotes, quotes', folder, name, hword, hfolder, hname.imp (fun h => ?_) (fun h => ?_)⟩
  · exact toolName_of_anyCase h (by cases tool <;> decide) (by cases tool <;> decide)
  · exact toolName_of_anyCase h (by cases tool <;> decide) (by cases tool <;> decide)

theorem getLast?_of_suffix {a b : Text} {c : Char} (h : b <:+ a) (hc : c ∈ b.getLast?) : c ∈ a.getLast? := by
  obtain ⟨before, rfl⟩ := h
  rw [List.getLast?_append, Option.mem_def.mp hc]
  rfl

/-- Blanks and quotes before the folder go, those behind the name go too. -/
theorem bare_tool {quotes quotes' : Nat} {folder name plain : Text} (hname : ToolName plain name)
    (hfolder : ∀ c ∈ folder.getLast?, c = '/' ∨ c = '\\') :
    ∃ folder', stripQuotes (strip t.toUnicodeData
        (List.replicate quotes '"' ++ (folder ++ (name ++ List.replicate quotes' '"')))) = folder' ++ name ∧
      ∀ c ∈ folder'.getLast?, c = '/' ∨ c = '\\' := by
  have hvisible : ∀ c ∈ name ++ List.replicate quotes' '"', t.isSpace c = false := by
    intro c hc
    obtain hc | hc := List.mem_append.mp hc
    · exact t.isSpace_visible c (hname.visible c hc).1 (hname.visible c hc).2
    · rw [List.eq_of_mem_replicate hc]
      exact t.isSpace_visible '"' (by decide) (by decide)
  have hne : name ++ List.replicate quotes' '"' ≠ [] := List.append_ne_nil_of_left_ne_nil hname.ne_nil _
  have hunquoted : ∀ c ∈ name, (c == '"') = false := fun c hc => beq_eq_false_iff_ne.mpr (hname.unquoted c hc)
  have hhead (p : Char → Bool) (hp : ∀ c ∈ name, p c = false) :
      (name ++ List.replicate quotes' '"').dropWhile p = name ++ List.replicate quotes' '"' := by
    obtain ⟨c, rest, hcons⟩ := List.exists_cons_of_ne_nil hname.ne_nil
    rw [hcons, List.cons_append]
    exact dropWhile_head (hp c (hcons ▸ List.mem_cons_self)) _
  have hspace := hhead t.isSpace (fun c hc => hvisible c (List.mem_append_left _ hc))
  have hquote := hhead (· == '"') hunquoted
  refine ⟨((List.replicate quotes '"' ++ folder).dropWhile t.isSpace).dropWhile (· == '"'), ?_, ?_⟩
  · rw [← List.append_assoc, strip, dropWhile_append_stop hspace, rdropWhile_last hne hvisible, stripQuotes, lstripChar,
      dropWhile_append_stop hquote, rstripChar, ← List.append_assoc,
      rdropWhile_append_of_all _ (fun c hc => beq_iff_eq.mpr (List.eq_of_mem_replicate hc)),
      rdropWhile_last hname.ne_nil hunquoted]
  · intro c hc
    have hsuffix : ((List.replicate quotes '"' ++ folder).dropWhile t.isSpace).dropWhile (· == '"') <:+
        List.replicate quotes '"' ++ folder :=
      (List.dropWhile_suffix _).trans (List.dropWhile_suffix _)
    have hlast := getLast?_of_suffix hsuffix hc
    by_cases hempty : folder = []
    · have hall : ∀ d ∈ (List.replicate quotes '"' ++ folder).dropWhile t.isSpace, (d == '"') = true := by
        intro d hd
        rw [hempty, List.append_nil] at hd
        exact beq_iff_eq.mpr (List.eq_of_mem_replicate ((List.dropWhile_suffix _).subset hd))
      rw [List.dropWhile_eq_nil_iff.mpr hall] at hc
      cases hc
    · rw [List.getLast?_append_of_ne_nil _ hempty] at hlast
      exact hfolder c hlast

/-- Only the last part of a path counts. -/
theorem toolOf_path {folder plain : Text} {c : Char} (hc : c = '/' ∨ c = '\\') (hslash : '/' ∉ plain)
    (hback : '\\' ∉ plain) : toolOf (folder ++ c :: plain) = toolOf plain := by
  have hpath : replaceChar '\\' '/' (folder ++ c :: plain) = (replaceChar '\\' '/' folder ++ ['/']) ++ plain := by
    conv_rhs => rw [← replaceChar_eq_self (b := '/') hback]
    obtain rfl | rfl := hc <;> simp [replaceChar]
  have hlast : ∀ d ∈ (replaceChar '\\' '/' folder ++ ['/']).getLast?, d = '/' := by
    rw [List.getLast?_concat]
    intro d hd
    exact (Option.some_inj.mp hd).symm
  have hnone : ∀ d ∈ ([] : Text).getLast?, d = '/' := by
    intro d hd
    cases hd
  have hplain := getLast?_splitOn_slash hnone hslash
  rw [List.nil_append] at hplain
  rw [toolOf, toolOf, hpath, getLast?_splitOn_slash hlast hslash, replaceChar_eq_self hback, hplain]

theorem toolOf_bare {folder name : Text} (hfolder : ∀ c ∈ folder.getLast?, c = '/' ∨ c = '\\')
    (hname : ToolName tool.word name ∨ ToolName (tool.word ++ ".exe".toList) name) :
    toolOf (t.lower (folder ++ name)) = some tool := by
  have hlower {plain : Text} (h : ToolName plain name) : t.lower name = plain := by
    have hascii : ∀ c ∈ name, c.toNat < 128 := fun c hc => by
      have := (h.visible c hc).2
      omega
    rw [t.lower_ascii name hascii, h.folded]
  have hplain {plain : Text} (h : ToolName plain name) (hslash : '/' ∉ plain) (hback : '\\' ∉ plain) :
      toolOf (t.lower (folder ++ name)) = toolOf plain := by
    rcases List.eq_nil_or_concat folder with rfl | ⟨init, c, rfl⟩
    · rw [List.nil_append, hlower h]
    · rw [List.concat_eq_append] at hfolder ⊢
      have hc := hfolder c List.getLast?_concat
      have hneutral : neutral c := hc.elim .inl (fun h => .inr (.inl h))
      rw [List.append_assoc, List.singleton_append, t.lower_neutral _ _ c hneutral, hlower h, toolOf_path hc hslash hback]
  obtain h | h := hname
  · rw [hplain h (by cases tool <;> decide) (by cases tool <;> decide)]
    cases tool <;> decide
  · rw [hplain h (by cases tool <;> decide) (by cases tool <;> decide)]
    cases tool <;> decide

theorem spells_tool (h : Spells tool word) : ¬isBlank t word = true ∧ toolOf (token t word) = some tool := by
  obtain ⟨quotes, quotes', folder, name, rfl, hfolder, hname⟩ := spells_shape h
  obtain ⟨plain, hplain⟩ : ∃ plain, ToolName plain name := hname.elim (fun h => ⟨_, h⟩) (fun h => ⟨_, h⟩)
  constructor
  · obtain ⟨c, rest, rfl⟩ := List.exists_cons_of_ne_nil hplain.ne_nil
    have hc := hplain.visible c List.mem_cons_self
    exact not_isBlank_of_mem (by simp) (t.isSpace_visible c hc.1 hc.2)
  · obtain ⟨folder', hbare, hfolder'⟩ := @bare_tool _ quotes _ _ _ _ hplain hfolder
    rw [token, hbare]
    exact toolOf_bare hfolder' hname

theorem canonical_of_spelled (h : Spells tool word) (rest : List Text) :
    canonicalCommandText t (.arguments (word :: rest)) = joinBlank (tool.word :: afterOptions tool (tokens t rest)) := by
  obtain ⟨hvisible, htool⟩ := spells_tool h
  rw [canonicalCommandText, rawTokens, tokens_cons_visible hvisible, canonicalOf, findTool, htool]

theorem lengthenFrom_zero (run : Nat) (s : Text) : lengthenFrom (fun _ => 0) run s = s := by
  induction s generalizing run with
  | nil => rfl
  | cons c s ih =>
    rw [lengthenFrom]
    by_cases h : c = ' ' ∧ s.head? ≠ some ' '
    · rw [if_pos h, ih, h.1]
      rfl
    · rw [if_neg h, ih]

theorem lengthen_zero (h : ∀ i run, extra i run = 0) (rest : List Text) : lengthen extra rest = rest := by
  have hzero : ∀ i, extra i = fun _ => 0 := fun i => funext (h i)
  rw [lengthen]
  apply List.ext_getElem (List.length_mapIdx ..)
  intro i hi _
  rw [List.getElem_mapIdx, hzero, lengthenFrom_zero]

/-- What the parser passes over changes nothing. -/
theorem keeps_of_passed (hknown : ∀ f ∈ forms, f.Known tool) (hpassed : passed forms = true)
    (hextra : ∀ i run, extra i run = 0) : Keeps t tool forms extra := by
  intro values word word' rest hfits hword hword' _
  have hequal : canonicalCommandText t (.arguments (word' :: (inserted forms values ++ lengthen extra rest))) =
      canonicalCommandText t (.arguments (word :: rest)) := by
    rw [canonical_of_spelled hword, canonical_of_spelled hword', lengthen_zero hextra,
      afterOptions_passed hknown hfits hpassed]
  rw [analyzeCommandRisk, analyzeCommandRisk, hequal]
  exact ⟨le_refl _, id⟩

/-- The operation whose pattern asks for the tool right in front of it. -/
def operation : Tool → Text
  | .adb => "push".toList
  | .fastboot => "reboot".toList

def plainValue : Form → Text
  | .blank _ => []
  | .switch _ | .separate _ | .attached _ => ['x']

/-- The tokens of the options with plain values. -/
def optionTokens (tool : Tool) : List Text :=
  ['x'] :: (switchNames tool ++ (valuedNames tool ++ (valuedNames tool).map (fun name => attach name ['x']))).map folded

theorem fits_plain (forms : List Form) : List.Forall₂ (Form.Fits t) forms (forms.map plainValue) := by
  have hx : t.isSpace 'x' = false := t.isSpace_visible 'x' (by decide) (by decide)
  induction forms with
  | nil => exact .nil
  | cons f forms ih =>
    refine .cons ?_ ih
    cases f with
    | switch name => trivial
    | separate name => exact not_isBlank_of_mem (List.mem_singleton_self 'x') hx
    | blank name => exact decide_eq_true rfl
    | attached name => exact List.cons_ne_nil _ _

theorem attached_token {name : Text} (h : name ∈ valuedNames tool) :
    token t (attach name ['x']) = folded (attach name ['x']) ∧ (valueOptions tool).contains (folded (attach name ['x'])) = false ∧
      (name ≠ "--slot".toList → passes tool (folded (attach name ['x'])) = false) := by
  have hall : ∀ tool, ∀ name ∈ valuedNames tool, plainWord (attach name ['x']) = true ∧
      (valueOptions tool).contains (folded (attach name ['x'])) = false ∧
        (name ≠ "--slot".toList → passes tool (folded (attach name ['x'])) = false) := by
    intro tool
    cases tool <;> exact List.forall_iff_forall_mem.mp (by decide +kernel)
  obtain ⟨hplain, hrest⟩ := hall tool name h
  exact ⟨token_plain hplain, hrest⟩

theorem afterOptions_stop {rest : List Text} (hvalued : (valueOptions tool).contains word = false)
    (h : passes tool word = false) : afterOptions tool (word :: rest) = word :: rest := by
  cases rest with
  | nil => exact if_neg (by rw [h]; exact Bool.false_ne_true)
  | cons value rest =>
    rw [afterOptions, if_neg (by rw [hvalued]; exact Bool.false_ne_true), if_neg (by rw [h]; exact Bool.false_ne_true)]

theorem tokens_operation : tokens t [operation tool] = [operation tool] := by
  have hplain : plainWord (operation tool) = true := by cases tool <;> decide
  have hfolded : (operation tool).map Char.toLower = operation tool := by cases tool <;> decide
  rw [tokens_cons_visible (not_isBlank_plain hplain), token_plain hplain, hfolded]
  rfl

theorem token_x : token t ['x'] = ['x'] := token_plain (by decide)

theorem switch_mem {name : Text} (h : name ∈ switchNames tool) : folded name ∈ optionTokens tool :=
  List.mem_cons_of_mem _ (List.mem_map_of_mem (List.mem_append_left _ h))

theorem valued_mem {name : Text} (h : name ∈ valuedNames tool) : folded name ∈ optionTokens tool :=
  List.mem_cons_of_mem _ (List.mem_map_of_mem (List.mem_append_right _ (List.mem_append_left _ h)))

theorem attached_mem {name : Text} (h : name ∈ valuedNames tool) : folded (attach name ['x']) ∈ optionTokens tool :=
  List.mem_cons_of_mem _ (List.mem_map_of_mem
    (List.mem_append_right _ (List.mem_append_right _ (List.mem_map_of_mem h))))

/-- The tokens of an option with a plain value come from a fixed list. -/
theorem option_tokens {f : Form} (h : f.Known tool) (rest : List Text) :
    ∃ words, tokens t (f.words (plainValue f) ++ rest) = words ++ tokens t rest ∧ ∀ w ∈ words, w ∈ optionTokens tool := by
  have hfits : Form.Fits t f (plainValue f) := by
    have hall := fits_plain (t := t) [f]
    cases hall with
    | cons hfits _ => exact hfits
  cases f with
  | switch name => exact ⟨[folded name], tokens_switch h rest, List.forall_mem_singleton.mpr (switch_mem h)⟩
  | separate name =>
    refine ⟨[folded name, ['x']], ?_, List.forall_mem_cons.mpr ⟨valued_mem h, ?_⟩⟩
    · rw [tokens_separate h hfits, plainValue, token_x]
      rfl
    · exact List.forall_mem_singleton.mpr List.mem_cons_self
  | blank name => exact ⟨[folded name], tokens_blank h hfits rest, List.forall_mem_singleton.mpr (valued_mem h)⟩
  | attached name =>
    refine ⟨[folded (attach name ['x'])], ?_, List.forall_mem_singleton.mpr (attached_mem h)⟩
    rw [tokens_attached h, plainValue, (attached_token h).1]
    rfl

theorem inserted_tokens (hknown : ∀ f ∈ forms, f.Known tool) :
    ∃ words, tokens t (inserted forms (forms.map plainValue) ++ [operation tool]) = words ++ [operation tool] ∧
      ∀ w ∈ words, w ∈ optionTokens tool := by
  induction forms with
  | nil => exact ⟨[], tokens_operation, List.forall_mem_nil _⟩
  | cons f forms ih =>
    obtain ⟨hf, hforms⟩ := List.forall_mem_cons.mp hknown
    obtain ⟨words, hwords, hmem⟩ := ih hforms
    obtain ⟨first, hfirst, hmem'⟩ := option_tokens (t := t) hf (inserted forms (forms.map plainValue) ++ [operation tool])
    refine ⟨first ++ words, ?_, ?_⟩
    · rw [List.map_cons, inserted_cons, List.append_assoc, hfirst, hwords, List.append_assoc]
    · intro w hw
      exact (List.mem_append.mp hw).elim (hmem' w) (hmem w)

/-- Without the operation or with words in front of it. -/
def Stuck (tool : Tool) (tokens : List Text) : Prop :=
  tokens = [] ∨ ∃ words, words ≠ [] ∧ (∀ w ∈ words, w ∈ optionTokens tool) ∧ tokens = words ++ [operation tool]

theorem stuck_of_stop {rest : List Text} (hvalued : (valueOptions tool).contains word = false)
    (hpasses : passes tool word = false) (hword : word ∈ optionTokens tool)
    (hrest : ∃ words, rest = words ++ [operation tool] ∧ ∀ w ∈ words, w ∈ optionTokens tool) :
    Stuck tool (afterOptions tool (word :: rest)) := by
  obtain ⟨words, rfl, hwords⟩ := hrest
  rw [afterOptions_stop hvalued hpasses]
  exact .inr ⟨word :: words, List.cons_ne_nil _ _, List.forall_mem_cons.mpr ⟨hword, hwords⟩, rfl⟩

theorem stuck_of_not_passed (hknown : ∀ f ∈ forms, f.Known tool) (h : ¬passed forms = true) :
    Stuck tool (afterOptions tool (tokens t (inserted forms (forms.map plainValue) ++ [operation tool]))) := by
  have hx : (valueOptions tool).contains ['x'] = false ∧ passes tool ['x'] = false := by cases tool <;> decide
  have hfits := fits_plain (t := t) forms
  induction forms using passed.induct with
  | case1 => exact absurd rfl h
  | case2 name forms ih =>
    obtain ⟨hname, hforms⟩ := List.forall_mem_cons.mp hknown
    obtain ⟨-, hvalued, hpasses⟩ := switch_token hname
    cases hfits with
    | cons _ hfits =>
      rw [List.map_cons, inserted_cons, List.append_assoc, tokens_switch hname, afterOptions_pass hvalued hpasses]
      exact ih hforms h hfits
  | case3 name forms ih =>
    obtain ⟨hname, hforms⟩ := List.forall_mem_cons.mp hknown
    cases hfits with
    | cons hvalue hfits =>
      rw [List.map_cons, inserted_cons, List.append_assoc, tokens_separate hname hvalue,
        afterOptions_valued (valued_token hname).2]
      exact ih hforms h hfits
  | case4 name forms ih =>
    obtain ⟨hname, hforms⟩ := List.forall_mem_cons.mp hknown
    obtain ⟨htoken, hvalued, hpasses⟩ := attached_token (t := t) hname
    cases hfits with
    | cons _ hfits =>
      rw [List.map_cons, inserted_cons, List.append_assoc, tokens_attached hname]
      by_cases hslot : name = "--slot".toList
      · subst hslot
        rw [afterOptions_pass (slot_passes _).2 (slot_passes _).1]
        exact ih hforms (fun hpassed => h (Bool.and_eq_true_iff.mpr ⟨rfl, hpassed⟩)) hfits
      · rw [plainValue, htoken]
        exact stuck_of_stop hvalued (hpasses hslot) (attached_mem hname) (inserted_tokens hforms)
  | case5 name switch forms ih =>
    obtain ⟨hname, hswitch, hforms⟩ := List.forall_mem_cons.mp hknown |>.imp_right List.forall_mem_cons.mp
    cases hfits with
    | cons hvalue hfits =>
      cases hfits with
      | cons _ hfits =>
        rw [List.map_cons, List.map_cons, inserted_cons, inserted_cons, List.append_assoc, List.append_assoc,
          tokens_blank hname hvalue, tokens_switch hswitch, afterOptions_valued (valued_token hname).2]
        exact ih hforms h hfits
  | case6 name attached forms ih =>
    obtain ⟨hname, hattached, hforms⟩ := List.forall_mem_cons.mp hknown |>.imp_right List.forall_mem_cons.mp
    cases hfits with
    | cons hvalue hfits =>
      cases hfits with
      | cons _ hfits =>
        rw [List.map_cons, List.map_cons, inserted_cons, inserted_cons, List.append_assoc, List.append_assoc,
          tokens_blank hname hvalue, tokens_attached hattached, afterOptions_valued (valued_token hname).2]
        exact ih hforms h hfits
  | case7 name next forms ih =>
    obtain ⟨hname, hnext, hforms⟩ := List.forall_mem_cons.mp hknown |>.imp_right List.forall_mem_cons.mp
    cases hfits with
    | cons hvalue hfits =>
      cases hfits with
      | cons hvalue' hfits =>
        rw [List.map_cons, List.map_cons, inserted_cons, inserted_cons, List.append_assoc, List.append_assoc,
          tokens_blank hname hvalue, tokens_blank hnext hvalue', afterOptions_valued (valued_token hname).2]
        exact ih hforms h hfits
  | case8 name forms hswitch hattached hblank =>
    obtain ⟨hname, hforms⟩ := List.forall_mem_cons.mp hknown
    cases hfits with
    | cons hvalue hfits =>
      rw [List.map_cons, inserted_cons, List.append_assoc, tokens_blank hname hvalue]
      cases forms with
      | nil =>
        refine .inl ?_
        change afterOptions tool (folded name :: tokens t [operation tool]) = []
        rw [tokens_operation, afterOptions_valued (valued_token hname).2]
        rfl
      | cons f forms =>
        cases f with
        | switch switch => exact absurd rfl (hswitch switch forms)
        | separate next =>
          obtain ⟨hnext, hforms⟩ := List.forall_mem_cons.mp hforms
          cases hfits with
          | cons hvalue' hfits =>
            rw [List.map_cons, inserted_cons, List.append_assoc, tokens_separate hnext hvalue',
              afterOptions_valued (valued_token hname).2, plainValue, token_x]
            exact stuck_of_stop hx.1 hx.2 List.mem_cons_self (inserted_tokens hforms)
        | attached attached => exact absurd rfl (hattached attached forms)
        | blank next => exact absurd rfl (hblank next forms)

theorem splitBlanks_append (a b : Text) : splitBlanks t (a ++ ' ' :: b) = splitBlanks t a ++ splitBlanks t b := by
  rw [splitBlanks, List.splitOnP_append_cons a b t.isSpace_blank, List.filter_append]
  rfl

theorem splitBlanks_word (hne : word ≠ []) (h : ∀ c ∈ word, t.isSpace c = false) : splitBlanks t word = [word] := by
  rw [splitBlanks, List.splitOnP_eq_singleton h, List.filter_cons_of_pos (by simpa using hne), List.filter_nil]

theorem joinBlank_cons {words : List Text} (h : words ≠ []) : joinBlank (word :: words) = word ++ ' ' :: joinBlank words := by
  cases words with
  | nil => exact absurd rfl h
  | cons next words => simp [joinBlank]

theorem joinBlank_singleton : joinBlank [word] = word := List.intercalate_singleton

/-- Words that a text can be split into again. -/
def visibleWord (word : Text) : Bool := word ≠ [] && word.all (fun c => 33 ≤ c.toNat && c.toNat ≤ 126)

theorem splitBlanks_join {words : List Text} (h : ∀ w ∈ words, visibleWord w = true) :
    splitBlanks t (joinBlank words) = words := by
  have hword (w : Text) (hw : visibleWord w = true) : splitBlanks t w = [w] := by
    rw [visibleWord, Bool.and_eq_true, decide_eq_true_eq, List.all_eq_true] at hw
    apply splitBlanks_word hw.1
    intro c hc
    have hrange := hw.2 c hc
    rw [Bool.and_eq_true, decide_eq_true_eq, decide_eq_true_eq] at hrange
    exact t.isSpace_visible c hrange.1 hrange.2
  induction words with
  | nil => rfl
  | cons w words ih =>
    obtain ⟨hw, hwords⟩ := List.forall_mem_cons.mp h
    cases words with
    | nil => exact (congrArg (splitBlanks t) joinBlank_singleton).trans (hword w hw)
    | cons next words =>
      rw [joinBlank_cons (List.cons_ne_nil _ _), splitBlanks_append, hword w hw, ih hwords]
      rfl

/-- The words that decide about a fastboot command alone. -/
def decisiveWords : List Text := ["unlock", "lock", "flash", "boot", "erase", "format", "-w"].map String.toList

theorem fastbootRisk_none {words : List Text} (h : ∀ w ∈ decisiveWords, w ∉ words) : fastbootRisk words = none := by
  have hnot (w : Text) (hw : w ∈ decisiveWords) : ¬words.contains w = true := by
    rw [List.contains_eq_mem, decide_eq_true_eq]
    exact h w hw
  have hunlock := hnot "unlock".toList (by decide)
  have hlock := hnot "lock".toList (by decide)
  have hflash := hnot "flash".toList (by decide)
  have hboot := hnot "boot".toList (by decide)
  have herase := hnot "erase".toList (by decide)
  have hformat := hnot "format".toList (by decide)
  have hwipe := hnot "-w".toList (by decide)
  have hpair : ¬(words.contains "lock".toList = true ∧
      (words.contains "flashing".toList = true ∨ words.contains "oem".toList = true)) :=
    fun hboth => hlock hboth.1
  rw [fastbootRisk, if_neg hunlock, if_neg hpair, if_neg hflash, if_neg hboot,
    if_neg (not_or.mpr ⟨herase, not_or.mpr ⟨hformat, hwipe⟩⟩), ite_self]

theorem riskOfText_safe {text : Text} (hwords : ∀ w ∈ decisiveWords, w ∉ splitBlanks t text)
    (hpatterns : ∀ p ∈ patterns, ¬p.1.toList <:+: text) :
    (riskOfText t text).level = .safe ∧ (riskOfText t text).needsConfirmation = false := by
  have hfind : patterns.find? (fun pattern => contains pattern.1.toList text) = none := by
    rw [List.find?_eq_none]
    intro p hp
    rw [contains, decide_eq_true_eq]
    exact hpatterns p hp
  rw [riskOfText, fastbootRisk_none hwords]
  dsimp only
  rw [hfind]
  dsimp only
  split
  · exact ⟨rfl, rfl⟩
  · exact ⟨rfl, rfl⟩

theorem fastbootRisk_ne_safe {words : List Text} {risk : RiskInfo} (h : fastbootRisk words = some risk) :
    risk.level ≠ .safe := by
  rw [fastbootRisk] at h
  split at h
  · cases h
  · split at h
    · cases h
      decide
    · split at h
      · cases h
        decide
      · split at h
        · cases h
          decide
        · split at h
          · cases h
            decide
          · split at h
            · cases h
              decide
            · cases h

theorem riskOfText_ne_safe {text : Text} (h : ∃ p ∈ patterns, p.1.toList <:+: text) :
    (riskOfText t text).level ≠ .safe := by
  have hlevels : ∀ p ∈ patterns, p.2.level ≠ .safe := List.forall_iff_forall_mem.mp (by decide +kernel)
  rw [riskOfText]
  cases hfast : fastbootRisk (splitBlanks t text) with
  | some risk => exact fastbootRisk_ne_safe hfast
  | none =>
    cases hfind : patterns.find? (fun pattern => contains pattern.1.toList text) with
    | some p => exact hlevels p (List.mem_of_find?_eq_some hfind)
    | none =>
      obtain ⟨p, hp, hin⟩ := h
      exact absurd (decide_eq_true hin) (List.find?_eq_none.mp hfind p hp)

/-- What stands before and behind the first blank of a pattern. -/
def cut (pattern : Text) : Text × Text := (pattern.takeWhile (· ≠ ' '), (pattern.dropWhile (· ≠ ' ')).tail)

/-- A pattern of several words lies across two words that follow each other. -/
theorem infix_join {words : List Text} {a b : Text} (ha : ' ' ∉ a) (hb : ' ' ∉ b) (hwords : ∀ w ∈ words, ' ' ∉ w)
    (h : a ++ ' ' :: b <:+: joinBlank words) :
    ∃ first w w' rest, words = first ++ w :: w' :: rest ∧ a <:+ w ∧ b <+: w' := by
  induction words with
  | nil => exact absurd (List.IsInfix.length_le h) (by simp [joinBlank])
  | cons w words ih =>
    obtain ⟨hw, hwords⟩ := List.forall_mem_cons.mp hwords
    cases words with
    | nil =>
      rw [joinBlank_singleton] at h
      exact absurd (h.subset (List.mem_append_right _ List.mem_cons_self)) hw
    | cons w' words =>
      rw [joinBlank_cons (List.cons_ne_nil _ _)] at h
      obtain ⟨hleft, hright⟩ | hin := infix_across ha hw h
      · refine ⟨[], w, w', words, rfl, hleft, ?_⟩
        cases words with
        | nil =>
          rw [joinBlank_singleton] at hright
          exact hright
        | cons next words =>
          rw [joinBlank_cons (List.cons_ne_nil _ _)] at hright
          exact prefix_append_cons hb hright
      · obtain ⟨first, v, v', rest, heq, hsides⟩ := ih hwords hin
        exact ⟨w :: first, v, v', rest, by rw [heq]; rfl, hsides⟩

/-- A pattern of one word lies in a word. -/
theorem infix_join_word {words : List Text} {a : Text} (ha : ' ' ∉ a) (hne : a ≠ []) (h : a <:+: joinBlank words) :
    ∃ w ∈ words, a <:+: w := by
  induction words with
  | nil => exact absurd (List.eq_nil_of_infix_nil h) hne
  | cons w words ih =>
    cases words with
    | nil =>
      rw [joinBlank_singleton] at h
      exact ⟨w, List.mem_cons_self, h⟩
    | cons w' words =>
      rw [joinBlank_cons (List.cons_ne_nil _ _)] at h
      obtain hw | hin := infix_append_cons ha h
      · exact ⟨w, List.mem_cons_self, hw⟩
      · obtain ⟨v, hv, hav⟩ := ih hin
        exact ⟨v, List.mem_cons_of_mem _ hv, hav⟩

/-- The words of a command with options in front of the operation. -/
def quietWords (tool : Tool) : List Text := tool.word :: operation tool :: optionTokens tool

/-- The pattern that asks for the tool in front of the operation. -/
def toolPattern (tool : Tool) : Text := tool.word ++ ' ' :: operation tool

/-- Neither in one of the words nor across two of them. -/
def Absent (words : List Text) (pattern : Text) : Prop :=
  if ' ' ∈ pattern then
    (∀ w ∈ words, ¬(cut pattern).1 <:+ w) ∨ (∀ w ∈ words, ¬(cut (cut pattern).2).1 <+: w)
  else pattern ≠ [] ∧ ∀ w ∈ words, ¬pattern <:+: w

instance (words : List Text) (pattern : Text) : Decidable (Absent words pattern) :=
  inferInstanceAs (Decidable (if ' ' ∈ pattern then
    (∀ w ∈ words, ¬(cut pattern).1 <:+ w) ∨ (∀ w ∈ words, ¬(cut (cut pattern).2).1 <+: w)
    else pattern ≠ [] ∧ ∀ w ∈ words, ¬pattern <:+: w))

theorem quiet_patterns (tool : Tool) :
    ∀ p ∈ patterns, p.1.toList = toolPattern tool ∨ Absent (quietWords tool) p.1.toList := by
  cases tool <;> exact List.forall_iff_forall_mem.mp (by decide +kernel)

theorem cut_eq {pattern : Text} (h : ' ' ∈ pattern) : (cut pattern).1 ++ ' ' :: (cut pattern).2 = pattern := by
  have hsplit := List.takeWhile_append_dropWhile (p := (· ≠ ' ')) (l := pattern)
  have hne : pattern.dropWhile (· ≠ ' ') ≠ [] := by
    intro hnil
    exact absurd (List.dropWhile_eq_nil_iff.mp hnil _ h) (by decide)
  obtain ⟨c, rest, hcons⟩ := List.exists_cons_of_ne_nil hne
  have hhead := List.head?_dropWhile_not (· ≠ ' ') pattern
  rw [hcons] at hhead
  have hc : c = ' ' := by simpa using hhead
  rw [hc] at hcons
  rw [hcons] at hsplit
  rw [cut, hcons]
  exact hsplit

theorem blank_not_mem_cut (pattern : Text) : ' ' ∉ (cut pattern).1 := by
  intro h
  exact absurd (List.mem_takeWhile_imp h) (by decide)

theorem cut_start (pattern : Text) : (cut pattern).1 <+: pattern := List.takeWhile_prefix _

theorem not_infix_of_absent {words : List Text} {pattern : Text} (hwords : ∀ w ∈ words, ' ' ∉ w)
    (h : Absent words pattern) : ¬pattern <:+: joinBlank words := by
  intro hin
  rw [Absent] at h
  by_cases hblank : ' ' ∈ pattern
  · rw [if_pos hblank] at h
    have hpart : (cut pattern).1 ++ ' ' :: (cut (cut pattern).2).1 <:+: joinBlank words := by
      refine List.IsInfix.trans ?_ hin
      conv_rhs => rw [← cut_eq hblank]
      exact ((List.prefix_append_right_inj _).mpr ((List.prefix_cons_inj ' ').mpr (cut_start _))).isInfix
    obtain ⟨first, w, w', rest, heq, hleft, hright⟩ :=
      infix_join (blank_not_mem_cut _) (blank_not_mem_cut _) hwords hpart
    obtain hnone | hnone := h
    · exact hnone w (by rw [heq]; simp) hleft
    · exact hnone w' (by rw [heq]; simp) hright
  · rw [if_neg hblank] at h
    obtain ⟨w, hw, hword⟩ := infix_join_word hblank h.1 hin
    exact h.2 w hw hword

theorem Absent.subset {words words' : List Text} {pattern : Text} (h : Absent words pattern)
    (hsub : ∀ w ∈ words', w ∈ words) : Absent words' pattern := by
  rw [Absent] at h ⊢
  split
  · next hblank =>
    rw [if_pos hblank] at h
    exact h.imp (fun h w hw => h w (hsub w hw)) (fun h w hw => h w (hsub w hw))
  · next hblank =>
    rw [if_neg hblank] at h
    exact ⟨h.1, fun w hw => h.2 w (hsub w hw)⟩

theorem quietWords_plain (tool : Tool) : ∀ w ∈ quietWords tool, visibleWord w = true ∧ ' ' ∉ w ∧ w ∉ decisiveWords := by
  cases tool <;> exact List.forall_iff_forall_mem.mp (by decide +kernel)

/-- The tool is not in front of the operation. -/
theorem toolPattern_absent {words : List Text} (hne : words ≠ []) (hwords : ∀ w ∈ words, w ∈ optionTokens tool) :
    ¬toolPattern tool <:+: joinBlank (tool.word :: (words ++ [operation tool])) := by
  have htool : ∀ w ∈ optionTokens tool, ¬tool.word <:+ w := by
    cases tool <;> exact List.forall_iff_forall_mem.mp (by decide +kernel)
  have hoperation : ∀ w ∈ optionTokens tool, ¬operation tool <+: w := by
    cases tool <;> exact List.forall_iff_forall_mem.mp (by decide +kernel)
  have hlast : ¬tool.word <:+ operation tool := by cases tool <;> decide
  have hquiet : ∀ w ∈ tool.word :: (words ++ [operation tool]), w ∈ quietWords tool := by
    intro w hw
    obtain rfl | hw := List.mem_cons.mp hw
    · exact List.mem_cons_self
    · obtain hw | hw := List.mem_append.mp hw
      · exact List.mem_cons_of_mem _ (List.mem_cons_of_mem _ (hwords w hw))
      · exact List.mem_cons_of_mem _ (List.mem_cons.mpr (.inl (List.mem_singleton.mp hw)))
  have hblank : ∀ w ∈ tool.word :: (words ++ [operation tool]), ' ' ∉ w :=
    fun w hw => (quietWords_plain tool w (hquiet w hw)).2.1
  intro hin
  have hplace : operation tool ∈ quietWords tool := List.mem_cons_of_mem _ List.mem_cons_self
  obtain ⟨first, w, w', rest, heq, hleft, hright⟩ := infix_join (quietWords_plain tool _ List.mem_cons_self).2.1
    (quietWords_plain tool _ hplace).2.1 hblank hin
  cases first with
  | nil =>
    obtain ⟨next, words, rfl⟩ := List.exists_cons_of_ne_nil hne
    have hnext : next = w' := (List.cons.inj (List.cons.inj heq).2).1
    exact hoperation next (hwords next List.mem_cons_self) (hnext ▸ hright)
  | cons v first =>
    have hmem : w ∈ words ++ [operation tool] := by
      rw [(List.cons.inj heq).2]
      exact List.mem_append_right _ List.mem_cons_self
    obtain hw | hw := List.mem_append.mp hmem
    · exact htool w (hwords w hw) hleft
    · exact hlast (List.mem_singleton.mp hw ▸ hleft)

theorem quiet_safe {words : List Text} (hquiet : ∀ w ∈ words, w ∈ quietWords tool)
    (htool : ¬toolPattern tool <:+: joinBlank words) :
    (riskOfText t (joinBlank words)).level = .safe ∧ (riskOfText t (joinBlank words)).needsConfirmation = false := by
  have hplain (w : Text) (hw : w ∈ words) := quietWords_plain tool w (hquiet w hw)
  apply riskOfText_safe
  · intro w hw hmem
    rw [splitBlanks_join (fun w hw => (hplain w hw).1)] at hmem
    exact (hplain w hmem).2.2 hw
  · intro p hp
    obtain heq | habsent := quiet_patterns tool p hp
    · rw [heq]
      exact htool
    · exact not_infix_of_absent (fun w hw => (hplain w hw).2.1) (habsent.subset hquiet)

theorem stuck_safe {tokens : List Text} (h : Stuck tool tokens) :
    (riskOfText t (joinBlank (tool.word :: tokens))).level = .safe ∧
      (riskOfText t (joinBlank (tool.word :: tokens))).needsConfirmation = false := by
  obtain rfl | ⟨words, hne, hwords, rfl⟩ := h
  · apply quiet_safe (List.forall_mem_singleton.mpr List.mem_cons_self)
    rw [joinBlank_singleton]
    intro hin
    have hlength := hin.length_le
    rw [toolPattern, List.length_append, List.length_cons] at hlength
    omega
  · refine quiet_safe ?_ (toolPattern_absent hne hwords)
    intro w hw
    obtain rfl | hw := List.mem_cons.mp hw
    · exact List.mem_cons_self
    · obtain hw | hw := List.mem_append.mp hw
      · exact List.mem_cons_of_mem _ (List.mem_cons_of_mem _ (hwords w hw))
      · exact List.mem_cons_of_mem _ (List.mem_cons.mpr (.inl (List.mem_singleton.mp hw)))

theorem spells_word (tool : Tool) : Spells tool tool.word := by
  refine ⟨0, 0, [], tool.word, by simp, ?_, .inl ⟨?_, ?_⟩⟩
  · intro c hc
    cases hc
  · cases tool <;> decide
  · cases tool <;> exact List.forall_iff_forall_mem.mp (by decide)

theorem operation_stops (tool : Tool) : afterOptions tool [operation tool] = [operation tool] := by
  cases tool <;> decide +kernel

theorem toolPattern_mem (tool : Tool) : ∃ p ∈ patterns, p.1.toList = toolPattern tool := by
  cases tool <;> decide +kernel

theorem operation_risky : (analyzeCommandRisk t (.arguments [tool.word, operation tool])).level ≠ .safe := by
  obtain ⟨p, hp, hpattern⟩ := toolPattern_mem tool
  rw [analyzeCommandRisk, canonical_of_spelled (spells_word tool), tokens_operation, operation_stops,
    joinBlank_cons (List.cons_ne_nil _ _), joinBlank_singleton]
  exact riskOfText_ne_safe ⟨p, hp, hpattern ▸ List.infix_refl _⟩

theorem lengthenFrom_unspaced {one : Nat → Nat} {run : Nat} (h : ' ' ∉ word) : lengthenFrom one run word = word := by
  induction word with
  | nil => rfl
  | cons c rest ih =>
    have hc : ¬(c = ' ' ∧ rest.head? ≠ some ' ') := fun hboth => h (hboth.1 ▸ List.mem_cons_self)
    rw [lengthenFrom, if_neg hc, ih (List.not_mem_of_not_mem_cons h)]

theorem rank_pos {level : Level} (h : level ≠ .safe) : 0 < level.rank := by
  cases level with
  | safe => exact absurd rfl h
  | changesDeviceState => decide
  | mayEraseData => decide
  | critical => decide

/-- An option that the parser does not pass over makes the pattern of the operation vanish. -/
theorem passed_of_keeps (hknown : ∀ f ∈ forms, f.Known tool) (h : Keeps t tool forms extra) : passed forms = true := by
  by_contra hpassed
  have hlengthen : lengthen extra [operation tool] = [operation tool] := by
    have hunspaced : ' ' ∉ operation tool := by cases tool <;> decide
    exact congrArg (fun word => [word]) (lengthenFrom_unspaced hunspaced)
  obtain ⟨hrank, -⟩ := h (forms.map plainValue) tool.word tool.word [operation tool] (fits_plain forms)
    (spells_word tool) (spells_word tool) operation_risky
  have hsafe : (analyzeCommandRisk t (.arguments
      (tool.word :: (inserted forms (forms.map plainValue) ++ lengthen extra [operation tool])))).level = .safe := by
    rw [hlengthen, analyzeCommandRisk, canonical_of_spelled (spells_word tool)]
    exact (stuck_safe (stuck_of_not_passed hknown hpassed)).1
  rw [hsafe] at hrank
  exact absurd (rank_pos operation_risky) (Nat.not_lt.mpr hrank)

/-- An argument with the pattern of a root shell behind so many other runs of blanks. -/
def rootArgument : Nat → Text
  | 0 => "su -c".toList
  | n + 1 => 'x' :: ' ' :: rootArgument n

theorem rootArgument_head (n : Nat) : (rootArgument n).head? ≠ some ' ' := by
  cases n with
  | zero => decide
  | succ n => exact fun h => absurd (Option.some_inj.mp h) (by decide)

theorem lengthened_root (one : Nat → Nat) (run n : Nat) :
    ∃ before, lengthenFrom one run (rootArgument n) =
        before ++ ('s' :: 'u' :: ' ' :: (List.replicate (one (run + n)) ' ' ++ "-c".toList)) ∧
      (∀ c ∈ before, c = 'x' ∨ c = ' ') ∧ before.head? ≠ some ' ' := by
  induction n generalizing run with
  | zero => exact ⟨[], rfl, fun c hc => absurd hc List.not_mem_nil, by decide⟩
  | succ n ih =>
    obtain ⟨before, heq, hbefore, -⟩ := ih (run + 1)
    have hx : ¬('x' = ' ' ∧ (' ' :: rootArgument n).head? ≠ some ' ') := fun h => absurd h.1 (by decide)
    refine ⟨'x' :: ' ' :: (List.replicate (one run) ' ' ++ before), ?_, ?_, ?_⟩
    · rw [rootArgument, lengthenFrom, if_neg hx, lengthenFrom, if_pos ⟨rfl, rootArgument_head n⟩, heq,
        Nat.add_right_comm]
      simp only [List.cons_append, List.append_assoc]
      rfl
    · refine List.forall_mem_cons.mpr ⟨.inl rfl, List.forall_mem_cons.mpr ⟨.inr rfl, ?_⟩⟩
      intro c hc
      obtain hc | hc := List.mem_append.mp hc
      · exact .inr (List.eq_of_mem_replicate hc)
      · exact hbefore c hc
    · exact fun h => absurd (Option.some_inj.mp h) (by decide)

/-- The characters of the arguments. -/
def rootChars : Text := "x su-c".toList

/-- A text of the arguments, which is its own token and no option. -/
structure RootText (s : Text) : Prop where
  head : s.head? = some 'x' ∨ s.head? = some 's'
  last : s.getLast? = some 'x' ∨ s.getLast? = some 'c'
  chars : ∀ c ∈ s, c ∈ rootChars

theorem rootText_x : RootText ['x'] := ⟨.inl rfl, .inl rfl, List.forall_iff_forall_mem.mp (by decide)⟩

theorem rootText_lengthened (one : Nat → Nat) (run n : Nat) : RootText (lengthenFrom one run (rootArgument n)) := by
  obtain ⟨before, heq, hbefore, hhead⟩ := lengthened_root one run n
  have htail : ∀ c ∈ "-c".toList, c ∈ rootChars := List.forall_iff_forall_mem.mp (by decide)
  rw [heq]
  refine ⟨?_, ?_, ?_⟩
  · cases before with
    | nil => exact .inr rfl
    | cons c before =>
      obtain rfl | rfl := hbefore c List.mem_cons_self
      · exact .inl rfl
      · exact absurd rfl hhead
  · refine .inr ?_
    have hsplit : before ++ ('s' :: 'u' :: ' ' :: (List.replicate (one (run + n)) ' ' ++ "-c".toList)) =
        (before ++ ('s' :: 'u' :: ' ' :: (List.replicate (one (run + n)) ' ' ++ ['-']))) ++ ['c'] := by
      simp
    rw [hsplit, List.getLast?_concat]
  · intro c hc
    obtain hc | hc := List.mem_append.mp hc
    · obtain rfl | rfl := hbefore c hc <;> decide
    · simp only [List.mem_cons, List.mem_append, List.mem_replicate] at hc
      obtain rfl | rfl | rfl | ⟨-, rfl⟩ | hc := hc
      · decide
      · decide
      · decide
      · decide
      · exact htail c hc

theorem rootArgument_plain (n : Nat) : lengthenFrom (fun _ => 0) 0 (rootArgument n) = rootArgument n :=
  lengthenFrom_zero 0 _

theorem rootText_rootArgument (n : Nat) : RootText (rootArgument n) := by
  rw [← rootArgument_plain n]
  exact rootText_lengthened _ 0 n

theorem rootChars_facts : ∀ c ∈ rootChars, c.toNat < 128 ∧ c.toLower = c ∧ c ≠ '"' ∧
    (c ≠ ' ' → 33 ≤ c.toNat ∧ c.toNat ≤ 126) :=
  List.forall_iff_forall_mem.mp (by decide)

theorem RootText.token {s : Text} (h : RootText s) : Risk.token t s = s ∧ ¬isBlank t s = true := by
  have hx : t.isSpace 'x' = false := t.isSpace_visible 'x' (by decide) (by decide)
  have hs : t.isSpace 's' = false := t.isSpace_visible 's' (by decide) (by decide)
  have hc : t.isSpace 'c' = false := t.isSpace_visible 'c' (by decide) (by decide)
  have hquote : '"' ∉ s := fun hmem => (rootChars_facts _ (h.chars _ hmem)).2.2.1 rfl
  have hlower : t.lower s = s := by
    rw [t.lower_ascii s (fun c hc => (rootChars_facts c (h.chars c hc)).1)]
    conv_rhs => rw [← List.map_id s]
    exact List.map_congr_left (fun c hc => (rootChars_facts c (h.chars c hc)).2.1)
  have hhead : ∃ c rest, s = c :: rest ∧ t.isSpace c = false := by
    cases s with
    | nil => exact absurd h.head (by decide)
    | cons c rest =>
      refine ⟨c, rest, rfl, ?_⟩
      obtain heq | heq := h.head
      · exact (Option.some_inj.mp heq) ▸ hx
      · exact (Option.some_inj.mp heq) ▸ hs
  have hlast : ∀ c ∈ s.getLast?, t.isSpace c = false := by
    intro d hd
    obtain heq | heq := h.last
    · exact (Option.some_inj.mp (heq.symm.trans hd)) ▸ hx
    · exact (Option.some_inj.mp (heq.symm.trans hd)) ▸ hc
  obtain ⟨c, rest, hcons, hspace⟩ := hhead
  have hstrip : strip t.toUnicodeData s = s := by
    have hdrop : s.dropWhile t.isSpace = s := by
      rw [hcons]
      exact dropWhile_head hspace rest
    rw [strip, hdrop, List.rdropWhile_eq_self_iff]
    intro hne
    rw [hlast _ (List.getLast?_eq_some_getLast hne)]
    exact Bool.false_ne_true
  refine ⟨?_, not_isBlank_of_mem (hcons ▸ List.mem_cons_self) hspace⟩
  rw [Risk.token, hstrip, stripQuotes, lstripChar_of_not_mem hquote, rstripChar_of_not_mem hquote, hlower]

theorem options_dashed (tool : Tool) : (∀ o ∈ valueOptions tool, o.head? = some '-') ∧
    ∀ o ∈ flagOptions tool, o.head? = some '-' := by
  cases tool <;> exact ⟨List.forall_iff_forall_mem.mp (by decide), List.forall_iff_forall_mem.mp (by decide)⟩

theorem RootText.stops {s : Text} (h : RootText s) (tool : Tool) :
    (valueOptions tool).contains s = false ∧ passes tool s = false := by
  have hdash : s.head? ≠ some '-' := by
    obtain heq | heq := h.head
    · rw [heq]
      decide
    · rw [heq]
      decide
  obtain ⟨hvalued, hflag⟩ := options_dashed tool
  constructor
  · rw [List.contains_eq_mem, decide_eq_false_iff_not]
    exact fun hmem => hdash (hvalued s hmem)
  · rw [passes, Bool.or_eq_false_iff, List.contains_eq_mem, decide_eq_false_iff_not]
    refine ⟨fun hmem => hdash (hflag s hmem), ?_⟩
    rw [Bool.eq_false_iff, Ne, List.isPrefixOf_iff_prefix]
    rintro ⟨rest, rfl⟩
    exact hdash rfl

theorem tokens_root {words : List Text} (h : ∀ w ∈ words, RootText w) : tokens t words = words := by
  induction words with
  | nil => rfl
  | cons w words ih =>
    obtain ⟨hw, hwords⟩ := List.forall_mem_cons.mp h
    rw [tokens_cons_visible hw.token.2, hw.token.1, ih hwords]

/-- The arguments stay behind the tool as they are. -/
theorem canonical_root {words : List Text} (h : ∀ w ∈ words, RootText w) :
    canonicalCommandText t (.arguments (tool.word :: words)) = joinBlank (tool.word :: words) := by
  rw [canonical_of_spelled (spells_word tool), tokens_root h]
  cases words with
  | nil => rfl
  | cons w words =>
    have hstops := (h w List.mem_cons_self).stops tool
    rw [afterOptions_stop hstops.1 hstops.2]

/-- The arguments up to the pattern. -/
def rootArguments (i : Nat) (argument : Text) : List Text := List.replicate i ['x'] ++ [argument]

theorem rootArguments_root {i : Nat} {argument : Text} (h : RootText argument) :
    ∀ w ∈ rootArguments i argument, RootText w := by
  intro w hw
  obtain hw | hw := List.mem_append.mp hw
  · exact (List.eq_of_mem_replicate hw) ▸ rootText_x
  · exact (List.mem_singleton.mp hw) ▸ h

theorem lengthen_rootArguments (i n : Nat) : lengthen extra (rootArguments i (rootArgument n)) =
    rootArguments i (lengthenFrom (extra i) 0 (rootArgument n)) := by
  rw [lengthen, rootArguments, List.mapIdx_append]
  congr 1
  · apply List.ext_getElem (List.length_mapIdx ..)
    intro k _ hk
    rw [List.getElem_mapIdx, List.getElem_replicate]
    exact lengthenFrom_unspaced (by decide)
  · rw [List.length_replicate, List.mapIdx_singleton, Nat.zero_add]

theorem join_rootArguments (i : Nat) (argument : Text) :
    ∃ before, joinBlank (rootArguments i argument) = before ++ argument ∧ ∀ c ∈ before, c = 'x' ∨ c = ' ' := by
  induction i with
  | zero => exact ⟨[], joinBlank_singleton, fun c hc => absurd hc List.not_mem_nil⟩
  | succ i ih =>
    obtain ⟨before, heq, hbefore⟩ := ih
    have hne : rootArguments i argument ≠ [] := List.append_ne_nil_of_right_ne_nil _ (List.cons_ne_nil _ _)
    refine ⟨'x' :: ' ' :: before, ?_, ?_⟩
    · rw [rootArguments, List.replicate_succ, List.cons_append, ← rootArguments, joinBlank_cons hne, heq]
      rfl
    · exact List.forall_mem_cons.mpr ⟨.inl rfl, List.forall_mem_cons.mpr ⟨.inr rfl, hbefore⟩⟩

theorem mem_of_mem_splitBlanks {s w : Text} (hw : w ∈ splitBlanks t s) {c : Char} (hc : c ∈ w) : c ∈ s := by
  have hpart : ∀ part ∈ s.splitOnP t.isSpace, ∀ d ∈ part, d ∈ s := by
    clear hw
    induction s with
    | nil =>
      intro part hpart d hd
      rw [List.splitOnP_nil, List.mem_singleton] at hpart
      rw [hpart] at hd
      exact hd
    | cons e s ih =>
      intro part hpart d hd
      rw [List.splitOnP_cons_eq_if_modifyHead] at hpart
      by_cases he : t.isSpace e = true
      · rw [if_pos he] at hpart
        obtain rfl | hpart := List.mem_cons.mp hpart
        · cases hd
        · exact List.mem_cons_of_mem _ (ih part hpart d hd)
      · rw [if_neg he] at hpart
        obtain ⟨first, parts, hsplit⟩ := List.exists_cons_of_ne_nil (List.splitOnP_ne_nil t.isSpace s)
        rw [hsplit] at hpart ih
        obtain rfl | hpart := List.mem_cons.mp hpart
        · obtain rfl | hd := List.mem_cons.mp hd
          · exact List.mem_cons_self
          · exact List.mem_cons_of_mem _ (ih first List.mem_cons_self d hd)
        · exact List.mem_cons_of_mem _ (ih part (List.mem_cons_of_mem _ hpart) d hd)
  exact hpart w (List.mem_of_mem_filter hw) c hc

/-- Of the patterns only the one for a root shell is written in the characters of the arguments. -/
theorem patterns_foreign (tool : Tool) : ∀ p ∈ patterns, p.1.toList = "su -c".toList ∨
    (' ' ∈ p.1.toList ∧ ∃ c ∈ (cut p.1.toList).2, c ∉ rootChars) ∨
      (' ' ∉ p.1.toList ∧ ∃ c ∈ p.1.toList, c ∉ rootChars ∧ c ∉ tool.word) := by
  have hall : patterns.all (fun p => decide (p.1.toList = "su -c".toList) ||
      (decide (' ' ∈ p.1.toList) && (cut p.1.toList).2.any (fun c => decide (c ∉ rootChars))) ||
        (decide (' ' ∉ p.1.toList) && p.1.toList.any (fun c => decide (c ∉ rootChars ∧ c ∉ tool.word)))) = true := by
    cases tool <;> decide +kernel
  intro p hp
  have hpattern := List.all_eq_true.mp hall p hp
  simpa only [Bool.or_eq_true, Bool.and_eq_true, decide_eq_true_iff, List.any_eq_true, or_assoc] using hpattern

theorem infix_first {c : Char} {rest before after : Text} (hbefore : c ∉ before) (hafter : c ∉ after)
    (h : c :: rest <:+: before ++ c :: after) : rest <+: after := by
  obtain ⟨p, q, heq⟩ := h
  rw [List.append_assoc, List.cons_append] at heq
  by_cases hp : c ∈ p
  · obtain ⟨p₁, p₂, rfl, hp₁⟩ := List.eq_append_cons_of_mem hp
    rw [List.append_assoc, List.cons_append] at heq
    have hmem : c ∈ after := by
      rw [← (cut_inj hp₁ hbefore heq).2]
      exact List.mem_append_right _ List.mem_cons_self
    exact absurd hmem hafter
  · exact ⟨q, (cut_inj hp hbefore heq).2⟩

/-- The pattern needs a single blank. -/
theorem rootPattern_absent {before : Text} {k : Nat} (hbefore : ∀ c ∈ before, c = 'x' ∨ c = ' ') (h : k ≠ 0) :
    ¬"su -c".toList <:+: before ++ ('s' :: 'u' :: ' ' :: (List.replicate k ' ' ++ "-c".toList)) := by
  intro hin
  obtain ⟨m, rfl⟩ := Nat.exists_eq_succ_of_ne_zero h
  have hfirst : 's' ∉ before := fun hmem => (hbefore _ hmem).elim (by decide) (by decide)
  have hlast : 's' ∉ 'u' :: ' ' :: (List.replicate (m + 1) ' ' ++ "-c".toList) := by
    intro hmem
    simp [List.mem_replicate] at hmem
  have hlead := infix_first hfirst hlast hin
  rw [List.replicate_succ] at hlead
  have hthird := (List.cons_prefix_cons.mp (List.cons_prefix_cons.mp hlead).2).2
  exact absurd (List.cons_prefix_cons.mp hthird).1 (by decide)

/-- With a longer run in the pattern nothing is left to see. -/
theorem lengthened_safe {i n : Nat} (h : extra i n ≠ 0) :
    (riskOfText t (joinBlank (tool.word :: rootArguments i (lengthenFrom (extra i) 0 (rootArgument n))))).level =
      .safe := by
  have hroot := rootText_lengthened (extra i) 0 n
  obtain ⟨before, hlong, hbefore, -⟩ := lengthened_root (extra i) 0 n
  obtain ⟨first, hjoin, hfirst⟩ := join_rootArguments i (lengthenFrom (extra i) 0 (rootArgument n))
  have hne : rootArguments i (lengthenFrom (extra i) 0 (rootArgument n)) ≠ [] :=
    List.append_ne_nil_of_right_ne_nil _ (List.cons_ne_nil _ _)
  have hchars : ∀ c ∈ first ++ lengthenFrom (extra i) 0 (rootArgument n), c ∈ rootChars := by
    intro c hc
    obtain hc | hc := List.mem_append.mp hc
    · obtain rfl | rfl := hfirst c hc <;> decide
    · exact hroot.chars c hc
  have htool : visibleWord tool.word = true ∧ ' ' ∉ tool.word ∧ tool.word ∉ decisiveWords :=
    quietWords_plain tool tool.word List.mem_cons_self
  have hsplit : splitBlanks t tool.word = [tool.word] := by
    have hwords := splitBlanks_join (t := t) (List.forall_mem_singleton.mpr htool.1)
    rw [joinBlank_singleton] at hwords
    exact hwords
  rw [joinBlank_cons hne, hjoin]
  refine (riskOfText_safe ?_ ?_).1
  · intro w hw hmem
    rw [splitBlanks_append, hsplit, List.singleton_append] at hmem
    obtain rfl | hmem := List.mem_cons.mp hmem
    · exact htool.2.2 hw
    · have hforeign : decisiveWords.all (fun w => w.any (fun c => decide (c ∉ rootChars))) = true := by decide
      obtain ⟨c, hc, hout⟩ := List.any_eq_true.mp (List.all_eq_true.mp hforeign w hw)
      exact of_decide_eq_true hout (hchars c (mem_of_mem_splitBlanks hmem hc))
  · intro p hp hin
    obtain heq | ⟨hblank, c, hc, hout⟩ | ⟨hblank, c, hc, hout, hout'⟩ := patterns_foreign tool p hp
    · rw [heq] at hin
      have hsides := infix_across (a := "su".toList) (b := "-c".toList) (by decide) htool.2.1 hin
      obtain ⟨hleft, -⟩ | hin := hsides
      · exact absurd hleft (by cases tool <;> decide)
      · rw [hlong, ← List.append_assoc, Nat.zero_add] at hin
        refine rootPattern_absent ?_ h hin
        intro c hc
        exact (List.mem_append.mp hc).elim (hfirst c) (hbefore c)
    · rw [← cut_eq hblank] at hin
      obtain ⟨-, hright⟩ | hin := infix_across (blank_not_mem_cut _) htool.2.1 hin
      · exact hout (hchars c (hright.subset hc))
      · exact hout (hchars c (hin.subset (List.mem_append_right _ (List.mem_cons_of_mem _ hc))))
    · obtain hleft | hright := infix_append_cons hblank hin
      · exact hout' (hleft.subset hc)
      · exact hout (hchars c (hright.subset hc))

theorem rootArgument_pattern (n : Nat) : "su -c".toList <:+ rootArgument n := by
  induction n with
  | zero => exact List.suffix_refl _
  | succ n ih => exact ih.trans ((List.suffix_cons _ _).trans (List.suffix_cons _ _))

theorem unlengthened_of_keeps (hpassed : passed forms = true) (hknown : ∀ f ∈ forms, f.Known tool)
    (h : Keeps t tool forms extra) (i n : Nat) : extra i n = 0 := by
  by_contra hextra
  have hplain := rootArguments_root (i := i) (rootText_rootArgument n)
  have hlong := rootArguments_root (i := i) (rootText_lengthened (extra i) 0 n)
  have hrisky : (analyzeCommandRisk t (.arguments (tool.word :: rootArguments i (rootArgument n)))).level ≠ .safe := by
    obtain ⟨before, hjoin, -⟩ := join_rootArguments i (rootArgument n)
    have hne : rootArguments i (rootArgument n) ≠ [] :=
      List.append_ne_nil_of_right_ne_nil _ (List.cons_ne_nil _ _)
    rw [analyzeCommandRisk, canonical_root hplain, joinBlank_cons hne, hjoin]
    refine riskOfText_ne_safe ⟨("su -c", critical "This runs an arbitrary command with existing root privileges."), ?_, ?_⟩
    · decide +kernel
    · have hsuffix := (rootArgument_pattern n).trans (List.suffix_append before _)
      exact (hsuffix.trans ((List.suffix_cons _ _).trans (List.suffix_append tool.word _))).isInfix
  obtain ⟨hrank, -⟩ := h (forms.map plainValue) tool.word tool.word _ (fits_plain forms) (spells_word tool)
    (spells_word tool) hrisky
  have hsafe : (analyzeCommandRisk t (.arguments (tool.word ::
      (inserted forms (forms.map plainValue) ++ lengthen extra (rootArguments i (rootArgument n)))))).level = .safe := by
    rw [lengthen_rootArguments, analyzeCommandRisk, canonical_of_spelled (spells_word tool),
      afterOptions_passed hknown (fits_plain forms) hpassed, ← canonical_of_spelled (spells_word tool),
      canonical_root hlong]
    exact lengthened_safe hextra
  rw [hsafe] at hrank
  exact absurd (rank_pos hrisky) (Nat.not_lt.mpr hrank)

/-- A rewriting lowers no command exactly when the parser passes over the inserted words and no run of blanks gets
longer. -/
theorem keeps_iff (hknown : ∀ f ∈ forms, f.Known tool) :
    Keeps t tool forms extra ↔ passed forms = true ∧ ∀ i run, extra i run = 0 := by
  constructor
  · intro h
    have hpassed := passed_of_keeps hknown h
    exact ⟨hpassed, unlengthened_of_keeps hpassed hknown h⟩
  · intro h
    exact keeps_of_passed hknown h.1 h.2

theorem ascii_isSpace_blank : VisibleTables.ascii.isSpace ' ' = true := rfl

theorem map_lower_ascii (s : Text) (_ : ∀ c ∈ s, c.toNat < 128) : s.map Char.toLower = s.map Char.toLower := rfl

theorem map_lower_neutral (a b : Text) (c : Char) (h : neutral c) :
    (a ++ c :: b).map Char.toLower = a.map Char.toLower ++ c :: b.map Char.toLower := by
  rw [List.map_append, List.map_cons]
  obtain rfl | rfl | rfl := h
  · rfl
  · rfl
  · rfl

/-- The tables restricted to ASCII, for commands that come as arguments. -/
def asciiTables : Tables where
  toVisibleTables := VisibleTables.ascii
  lower s := s.map Char.toLower
  shlexSplit _ := none
  isSpace_blank := ascii_isSpace_blank
  lower_ascii := map_lower_ascii
  lower_neutral := map_lower_neutral

theorem serial_valued : "-s".toList ∈ valuedNames .adb := by decide

theorem usb_switch : "-d".toList ∈ switchNames .adb := by decide

/-- A reboot behind a serial in the same word as its option. -/
theorem attached_serial_hides_reboot : (∀ f ∈ [Form.attached "-s".toList], f.Known .adb) ∧
    ¬Keeps asciiTables .adb [.attached "-s".toList] (fun _ _ => 0) := by
  constructor
  · exact List.forall_mem_singleton.mpr serial_valued
  · intro h
    have hkept := h [['X']] "adb".toList "adb".toList ["reboot".toList] (.cons (List.cons_ne_nil _ _) .nil) (spells_word .adb)
      (spells_word .adb) (by decide +kernel)
    exact absurd hkept.1 (by decide +kernel)

theorem keeps_serial : Keeps asciiTables .adb [.separate "-s".toList, .switch "-d".toList] (fun _ _ => 0) := by
  have hvalued : Form.Known .adb (.separate "-s".toList) := serial_valued
  have hswitch : Form.Known .adb (.switch "-d".toList) := usb_switch
  exact (keeps_iff (List.forall_mem_cons.mpr ⟨hvalued, List.forall_mem_singleton.mpr hswitch⟩)).mpr
    ⟨rfl, fun _ _ => rfl⟩

end OpenAdb.Commands.RiskRewriting
