import OpenAdb.Commands.Redaction

namespace OpenAdb.Commands.PairingCode

open OpenAdb.Lib.PyText OpenAdb.Commands.Scopes OpenAdb.Commands.Redaction

/-- The global options of adb without a value. -/
inductive Switch
  | a | d | e | exitOnWriteError

/-- The global options of one letter with a value. -/
inductive Letter
  | s | t | H | P | L

/-- The global options of one word with a value. -/
inductive Long
  | oneDevice | serial | transportId

def Switch.word : Switch → Text
  | .a => "-a".toList
  | .d => "-d".toList
  | .e => "-e".toList
  | .exitOnWriteError => "--exit-on-write-error".toList

def Letter.word : Letter → Text
  | .s => "-s".toList
  | .t => "-t".toList
  | .H => "-H".toList
  | .P => "-P".toList
  | .L => "-L".toList

def Long.word : Long → Text
  | .oneDevice => "--one-device".toList
  | .serial => "--serial".toList
  | .transportId => "--transport-id".toList

/-- A global option as adb takes it. Behind a letter there is a value in the same word only when that word is
longer than the letter. -/
inductive GlobalOption
  | switch (name : Switch)
  | letter (name : Letter) (value : Text)
  | attached (name : Letter) (value : Text) (some : value ≠ [])
  | long (name : Long) (value : Text)
  | equals (name : Long) (value : Text)

def GlobalOption.words : GlobalOption → List Text
  | switch name => [name.word]
  | letter name value => [name.word, value]
  | attached name value _ => [name.word ++ value]
  | long name value => [name.word, value]
  | equals name value => [name.word ++ '=' :: value]

def GlobalOption.isAttached : GlobalOption → Bool
  | attached _ _ _ => true
  | _ => false

/-- A text in letters of any case. -/
def AnyCase (plain text : Text) : Prop :=
  List.Forall₂ (fun c d => d = c ∨ lowerAscii c ∧ d.toNat + 32 = c.toNat) plain text

/-- The executable by its name or by a path. -/
def NamesAdb (executable : Text) : Prop :=
  ∃ folder name, executable = folder ++ name ∧ (∀ c ∈ folder.getLast?, c = '/' ∨ c = '\\') ∧
    (AnyCase "adb".toList name ∨ AnyCase "adb.exe".toList name)

/-- The arguments of a pairing. -/
def pairCommand (executable : Text) (options : List GlobalOption) (target : Text) (secrets : List Text) : List Text :=
  executable :: (options.flatMap GlobalOption.words ++ ("pair".toList :: target :: secrets))

variable (t : Tables) (r : CommandRunner)

def shown (command : List Text) : List Text := redactCommandArguments (redacting t r) command

/-- Nothing behind the target can be told from what is shown. -/
def Hidden (executable : Text) (options : List GlobalOption) (target : Text) : Prop :=
  ∀ secrets secrets' : List Text, secrets.length = secrets'.length →
    (shown t r (pairCommand executable options target secrets)).length =
      (pairCommand executable options target secrets).length ∧
    shown t r (pairCommand executable options target secrets) =
      shown t r (pairCommand executable options target secrets')

variable {t r} {executable target : Text} {options : List GlobalOption} {i : Nat} {rest : List Text}

/-- The characters that folding keeps. -/
def plainChar (c : Char) : Bool := lowerAscii c || c = '-' || c = '=' || c = '.'

theorem casefold_plainChar {c : Char} (h : plainChar c = true) : t.casefold c = [c] := by
  rw [plainChar, Bool.or_eq_true, Bool.or_eq_true, Bool.or_eq_true, decide_eq_true_eq, decide_eq_true_eq,
    decide_eq_true_eq, decide_eq_true_eq] at h
  obtain ((h | h) | h) | h := h
  · exact t.casefold_lower c h
  · exact t.casefold_symbol c (.inl h)
  · exact t.casefold_symbol c (.inr (.inl h))
  · exact t.casefold_symbol c (.inr (.inr h))

theorem casefold_append (a b : Text) :
    casefold t.toUnicodeData (a ++ b) = casefold t.toUnicodeData a ++ casefold t.toUnicodeData b :=
  List.flatMap_append

theorem casefold_plain {text : Text} (h : text.all plainChar = true) : casefold t.toUnicodeData text = text := by
  induction text with
  | nil => rfl
  | cons c text ih =>
    rw [List.all_cons, Bool.and_eq_true] at h
    change t.casefold c ++ casefold t.toUnicodeData text = c :: text
    rw [casefold_plainChar h.1, ih h.2]
    rfl

theorem casefold_ne_nil {text : Text} (h : text ≠ []) : casefold t.toUnicodeData text ≠ [] := by
  cases text with
  | nil => exact absurd rfl h
  | cons c text => exact List.append_ne_nil_of_left_ne_nil (t.casefold_ne c) _

theorem casefold_anyCase {plain text : Text} (h : AnyCase plain text) (hplain : plain.all plainChar = true) :
    casefold t.toUnicodeData text = plain := by
  induction h with
  | nil => rfl
  | @cons c d plain text hd _ ih =>
    rw [List.all_cons, Bool.and_eq_true] at hplain
    have hfold : t.casefold d = [c] := by
      obtain rfl | ⟨hlower, hd⟩ := hd
      · exact casefold_plainChar hplain.1
      · have hlow := hlower.1
        have hhigh := hlower.2
        rw [t.casefold_upper d (by omega) (by omega), hd, Char.ofNat_toNat]
    change t.casefold d ++ casefold t.toUnicodeData text = c :: plain
    rw [hfold, ih hplain.2]
    rfl

/-- The name of a program has neither quotes nor slashes. -/
def nameChar (c : Char) : Bool := c ≠ '"' && c ≠ '/' && c ≠ '\\'

theorem anyCase_names {plain name : Text} (h : AnyCase plain name) (hplain : plain.all nameChar = true) :
    name.all nameChar = true := by
  induction h with
  | nil => rfl
  | @cons c d plain name hd _ ih =>
    rw [List.all_cons, Bool.and_eq_true] at hplain ⊢
    refine ⟨?_, ih hplain.2⟩
    obtain rfl | ⟨hlower, hd⟩ := hd
    · exact hplain.1
    · have hlow := hlower.1
      have hhigh := hlower.2
      have hne (e : Char) (he : e.toNat < 65 ∨ 90 < e.toNat) : d ≠ e := by
        rintro rfl
        omega
      rw [nameChar, decide_eq_true (hne '"' (by decide)), decide_eq_true (hne '/' (by decide)),
        decide_eq_true (hne '\\' (by decide))]
      rfl

/-- Quotes in front of a name go with the folder. -/
theorem lstripChar_append_name {folder name : Text} (hname : '"' ∉ name) :
    ∃ folder', lstripChar '"' (folder ++ name) = folder' ++ name ∧ ∀ c ∈ folder'.getLast?, c ∈ folder.getLast? := by
  rw [lstripChar, List.dropWhile_append]
  by_cases hempty : (folder.dropWhile (· == '"')).isEmpty = true
  · rw [if_pos hempty]
    refine ⟨[], lstripChar_of_not_mem hname, ?_⟩
    rintro c ⟨⟩
  · rw [if_neg hempty]
    refine ⟨_, rfl, ?_⟩
    intro c hc
    obtain ⟨before, hbefore⟩ := List.dropWhile_suffix (· == '"') (l := folder)
    rw [← hbefore, List.getLast?_append, Option.mem_def.mp hc]
    rfl

theorem rstripChar_append_name {folder name : Text} (hname : '"' ∉ name) (hne : name ≠ []) :
    rstripChar '"' (folder ++ name) = folder ++ name := by
  rw [rstripChar, List.rdropWhile_eq_self_iff]
  intro h
  rw [List.getLast_append_of_ne_nil h hne, beq_iff_eq]
  rintro heq
  exact hname (heq ▸ List.getLast_mem hne)

theorem executable_append_name {folder name : Text} (hfolder : ∀ c ∈ folder.getLast?, c = '/' ∨ c = '\\')
    (hname : name.all nameChar = true) (hne : name ≠ []) :
    Scopes.executable t.toUnicodeData (folder ++ name) = casefold t.toUnicodeData name := by
  have hchars : ∀ c ∈ name, c ≠ '"' ∧ c ≠ '/' ∧ c ≠ '\\' := by
    simpa [List.all_eq_true, nameChar, and_assoc] using hname
  have hquote : '"' ∉ name := fun h => (hchars _ h).1 rfl
  have hslash : '/' ∉ name := fun h => (hchars _ h).2.1 rfl
  have hback : '\\' ∉ name := fun h => (hchars _ h).2.2 rfl
  obtain ⟨folder', hstrip, hlast⟩ := @lstripChar_append_name folder _ hquote
  have hreplace : replaceChar '\\' '/' (folder' ++ name) = replaceChar '\\' '/' folder' ++ name := by
    conv_rhs => rw [← replaceChar_eq_self (b := '/') hback]
    exact List.map_append
  have hfolder' : ∀ c ∈ (replaceChar '\\' '/' folder').getLast?, c = '/' := by
    intro c hc
    rw [replaceChar, List.getLast?_map, Option.mem_def, Option.map_eq_some_iff] at hc
    obtain ⟨d, hd, rfl⟩ := hc
    obtain rfl | rfl := hfolder d (hlast d hd)
    · rfl
    · rfl
  rw [Scopes.executable, hstrip, rstripChar_append_name hquote hne, hreplace]
  rw [getLast?_splitOn_slash hfolder' hslash]
  rfl

theorem executable_of_namesAdb (h : NamesAdb executable) :
    Scopes.executable t.toUnicodeData executable = "adb".toList ∨
      Scopes.executable t.toUnicodeData executable = "adb.exe".toList := by
  obtain ⟨folder, name, rfl, hfolder, hname⟩ := h
  obtain hname | hname := hname
  · have hne : name ≠ [] := by
      rintro rfl
      cases hname
    rw [executable_append_name hfolder (anyCase_names hname (by decide)) hne, casefold_anyCase hname (by decide)]
    exact .inl rfl
  · have hne : name ≠ [] := by
      rintro rfl
      cases hname
    rw [executable_append_name hfolder (anyCase_names hname (by decide)) hne, casefold_anyCase hname (by decide)]
    exact .inr rfl

theorem switch_scanned (name : Switch) :
    adbOperationIndex t.toUnicodeData false i (name.word :: rest) =
      adbOperationIndex t.toUnicodeData false (i + 1) rest := by
  have hfold : casefold t.toUnicodeData name.word = name.word := casefold_plain (by cases name <;> decide)
  have hvalue : name.word ∉ optionsWithValue := by cases name <;> decide
  have hswitch : name.word ∈ optionsWithoutValue := by cases name <;> decide
  rw [adbOperationIndex, hfold]
  rw [if_neg hvalue, if_pos (.inl hswitch)]

/-- The next word is the value of the option. -/
theorem valued_scanned {word value : Text} (h : casefold t.toUnicodeData word ∈ optionsWithValue) :
    adbOperationIndex t.toUnicodeData false i (word :: value :: rest) =
      adbOperationIndex t.toUnicodeData false (i + 2) rest := by
  rw [adbOperationIndex, if_pos h, adbOperationIndex]

def Letter.folded : Letter → Text
  | .s => "-s".toList
  | .t => "-t".toList
  | .H => "-h".toList
  | .P => "-p".toList
  | .L => "-l".toList

theorem casefold_letter (name : Letter) : casefold t.toUnicodeData name.word = name.folded := by
  have hcase : AnyCase name.folded name.word := by
    cases name <;> exact .cons (.inl rfl) (.cons (by decide) .nil)
  exact casefold_anyCase hcase (by cases name <;> decide)

theorem equals_scanned (name : Long) (value : Text) :
    adbOperationIndex t.toUnicodeData false i ((name.word ++ '=' :: value) :: rest) =
      adbOperationIndex t.toUnicodeData false (i + 1) rest := by
  have hplain : (name.word ++ ['=']).all plainChar = true := by cases name <;> decide
  have hfold : casefold t.toUnicodeData (name.word ++ '=' :: value) =
      (name.word ++ ['=']) ++ casefold t.toUnicodeData value := by
    rw [List.append_cons, casefold_append, casefold_plain hplain]
  have hvalue : (name.word ++ ['=']) ++ casefold t.toUnicodeData value ∉ optionsWithValue := by
    have hequals : ∀ word ∈ optionsWithValue, '=' ∉ word := List.forall_iff_forall_mem.mp (by decide)
    intro hmem
    exact hequals _ hmem (by simp)
  have hlong : name.word ++ ['='] ∈ optionsWithEquals := by cases name <;> decide
  have hlead : optionsWithEquals.any (·.isPrefixOf ((name.word ++ ['=']) ++ casefold t.toUnicodeData value)) = true :=
    List.any_eq_true.mpr ⟨_, hlong, List.isPrefixOf_iff_prefix.mpr (List.prefix_append _ _)⟩
  rw [adbOperationIndex, hfold, if_neg hvalue, if_pos (.inr hlead)]

/-- A word that begins like a letter option and goes on is taken for the operation, and it is not `pair`. -/
theorem attached_scanned (name : Letter) {value : Text} (hvalue : value ≠ []) :
    adbOperationIndex t.toUnicodeData false i ((name.word ++ value) :: rest) = some i ∧
      casefold t.toUnicodeData (name.word ++ value) ≠ "pair".toList := by
  have hfold : casefold t.toUnicodeData (name.word ++ value) = name.folded ++ casefold t.toUnicodeData value := by
    rw [casefold_append, casefold_letter]
  have hne : casefold t.toUnicodeData value ≠ [] := casefold_ne_nil hvalue
  have hlength : name.folded.length = 2 := by cases name <;> rfl
  have hstart (text : Text) : (name.folded ++ text).take 2 = name.folded := by
    rw [← hlength, List.take_left]
  have hdashes : name.folded ≠ "--".toList := by cases name <;> decide
  have hlong : 2 < (name.folded ++ casefold t.toUnicodeData value).length := by
    rw [List.length_append, hlength]
    exact Nat.lt_add_of_pos_right (List.length_pos_iff.mpr hne)
  have hnot (words : List Text) (hwords : ∀ word ∈ words, word.length = 2 ∨ word.take 2 = "--".toList) :
      name.folded ++ casefold t.toUnicodeData value ∉ words := by
    intro hmem
    obtain hshort | hlong' := hwords _ hmem
    · exact absurd hshort hlong.ne'
    · exact hdashes ((hstart _).symm.trans hlong')
  have hvalued := hnot optionsWithValue (List.forall_iff_forall_mem.mp (by decide))
  have hswitch := hnot optionsWithoutValue (List.forall_iff_forall_mem.mp (by decide))
  have hequals : ¬optionsWithEquals.any (·.isPrefixOf (name.folded ++ casefold t.toUnicodeData value)) = true := by
    have hwords : ∀ word ∈ optionsWithEquals, word.take 2 = "--".toList := List.forall_iff_forall_mem.mp (by decide)
    intro hany
    obtain ⟨word, hmem, hlead⟩ := List.any_eq_true.mp hany
    have hdashed : "--".toList <+: name.folded ++ casefold t.toUnicodeData value := by
      rw [← hwords word hmem]
      exact (List.take_prefix 2 word).trans (List.isPrefixOf_iff_prefix.mp hlead)
    exact hdashes ((hstart _).symm.trans (List.prefix_iff_eq_take.mp hdashed).symm)
  constructor
  · rw [adbOperationIndex, hfold, if_neg hvalued, if_neg (not_or.mpr ⟨hswitch, hequals⟩)]
  · rw [hfold]
    intro heq
    have htake := congrArg (List.take 2) heq
    rw [hstart] at htake
    cases name <;> exact absurd htake (by decide)

theorem option_scanned {o : GlobalOption} (h : ¬o.isAttached = true) :
    adbOperationIndex t.toUnicodeData false i (o.words ++ rest) =
      adbOperationIndex t.toUnicodeData false (i + o.words.length) rest := by
  cases o with
  | switch name => exact switch_scanned name
  | letter name value =>
    apply valued_scanned
    rw [casefold_letter]
    cases name <;> decide
  | attached name value hvalue => exact absurd rfl h
  | long name value =>
    have hplain : name.word.all plainChar = true := by cases name <;> decide
    apply valued_scanned
    rw [casefold_plain hplain]
    cases name <;> decide
  | equals name value => exact equals_scanned name value

theorem options_scanned (h : ∀ o ∈ options, ¬o.isAttached = true) :
    adbOperationIndex t.toUnicodeData false i (options.flatMap GlobalOption.words ++ rest) =
      adbOperationIndex t.toUnicodeData false (i + (options.flatMap GlobalOption.words).length) rest := by
  induction options generalizing i with
  | nil => rfl
  | cons o options ih =>
    obtain ⟨ho, hoptions⟩ := List.forall_mem_cons.mp h
    rw [List.flatMap_cons, List.append_assoc, option_scanned ho, ih hoptions, List.length_append, Nat.add_assoc]

/-- The scan ends at the first option with its value in the same word. -/
theorem attached_found (h : ∃ o ∈ options, o.isAttached = true) :
    ∃ before part after, options.flatMap GlobalOption.words = before ++ part :: after ∧
      casefold t.toUnicodeData part ≠ "pair".toList ∧ ∀ rest i,
        adbOperationIndex t.toUnicodeData false i (options.flatMap GlobalOption.words ++ rest) =
          some (i + before.length) := by
  induction options with
  | nil =>
    obtain ⟨o, ho, -⟩ := h
    cases ho
  | cons o options ih =>
    by_cases ho : o.isAttached = true
    · cases o with
      | attached name value hvalue =>
        refine ⟨[], name.word ++ value, options.flatMap GlobalOption.words, rfl, ?_, ?_⟩
        · exact (@attached_scanned t 0 [] name value hvalue).2
        · intro rest i
          exact (attached_scanned name hvalue).1
      | switch name => cases ho
      | letter name value => cases ho
      | long name value => cases ho
      | equals name value => cases ho
    · have hrest : ∃ o ∈ options, o.isAttached = true := by
        obtain ⟨o', hmem, ho'⟩ := h
        obtain rfl | hmem := List.mem_cons.mp hmem
        · exact absurd ho' ho
        · exact ⟨o', hmem, ho'⟩
      obtain ⟨before, part, after, heq, hpart, hscan⟩ := ih hrest
      refine ⟨o.words ++ before, part, after, ?_, hpart, ?_⟩
      · rw [List.flatMap_cons, heq, List.append_assoc]
      · intro rest i
        rw [List.flatMap_cons, List.append_assoc, option_scanned ho, hscan, List.length_append, Nat.add_assoc]

theorem mapIdx_redacted {first secrets : List Text} {n : Nat} (h : first.length = n) :
    (first ++ secrets).mapIdx (fun candidate part => if n ≤ candidate then redacted else part) =
      first ++ List.replicate secrets.length redacted := by
  rw [List.mapIdx_append]
  congr 1
  · apply List.ext_getElem (List.length_mapIdx ..)
    intro i _ hi
    rw [List.getElem_mapIdx, if_neg (by omega)]
  · apply List.ext_getElem
    · rw [List.length_mapIdx, List.length_replicate]
    · intro i _ hi
      rw [List.getElem_mapIdx, List.getElem_replicate, if_pos (by omega)]

/-- The words of a pairing in front of what is secret. -/
def opening (executable : Text) (options : List GlobalOption) (target : Text) : List Text :=
  executable :: (options.flatMap GlobalOption.words ++ ["pair".toList, target])

theorem pairCommand_eq (secrets : List Text) :
    pairCommand executable options target secrets = opening executable options target ++ secrets := by
  rw [pairCommand, opening, List.cons_append, List.append_assoc]
  rfl

theorem length_shown (command : List Text) : (shown t r command).length = command.length := by
  rw [shown, redactCommandArguments]
  split
  · split
    · split
      · rw [List.length_mapIdx, List.length_map]
      · rw [List.length_map]
    · rw [List.length_map]
  · rw [List.length_map]

theorem casefold_pair : casefold t.toUnicodeData "pair".toList = "pair".toList := casefold_plain (by decide)

theorem pair_scanned : adbOperationIndex t.toUnicodeData false i ("pair".toList :: rest) = some i := by
  have hplace : ¬("pair".toList ∈ optionsWithoutValue ∨ optionsWithEquals.any (·.isPrefixOf "pair".toList) = true) := by
    decide
  rw [adbOperationIndex, casefold_pair, if_neg (by decide), if_neg hplace]

theorem getD_after (before : List Text) (after : List Text) {part : Text} :
    (executable :: (before ++ part :: after)).getD (1 + before.length) [] = part := by
  rw [Nat.add_comm, List.getD_cons_succ, List.getD_eq_getElem?_getD, List.getElem?_append_right (le_refl _), Nat.sub_self]
  rfl

/-- What is shown is decided by the word at which the scan ends. -/
theorem shown_of_found (h : NamesAdb executable) {words : List Text} {index : Nat}
    (hfound : adbOperationIndex t.toUnicodeData false 1 words = some index) :
    shown t r (executable :: words) =
      if casefold t.toUnicodeData ((executable :: words).getD index []) = "pair".toList then
        ((executable :: words).map (redactSensitiveText t)).mapIdx
          (fun candidate part => if index + 2 ≤ candidate then redacted else part)
      else (executable :: words).map (redactSensitiveText t) := by
  have hname : Scopes.executable (redacting t r).unicode executable = "adb".toList ∨
      Scopes.executable (redacting t r).unicode executable = "adb.exe".toList := executable_of_namesAdb h
  have hindex : adbOperationIndex (redacting t r).unicode false 1 words = some index := hfound
  rw [shown, redactCommandArguments]
  refine (if_pos hname).trans ?_
  rw [List.tail_cons, hindex]
  rfl

theorem shown_pair (h : NamesAdb executable) (hplain : ∀ o ∈ options, ¬o.isAttached = true) (secrets : List Text) :
    shown t r (pairCommand executable options target secrets) =
      (opening executable options target).map (redactSensitiveText t) ++ List.replicate secrets.length redacted := by
  have hfound : adbOperationIndex t.toUnicodeData false 1
      (options.flatMap GlobalOption.words ++ ("pair".toList :: target :: secrets)) =
        some (1 + (options.flatMap GlobalOption.words).length) := by
    rw [options_scanned hplain, pair_scanned]
  have hpair : (executable :: (options.flatMap GlobalOption.words ++ ("pair".toList :: target :: secrets))).getD
      (1 + (options.flatMap GlobalOption.words).length) [] = "pair".toList := by
    exact getD_after _ _
  have hlength : ((opening executable options target).map (redactSensitiveText t)).length =
      1 + (options.flatMap GlobalOption.words).length + 2 := by
    rw [List.length_map, opening, List.length_cons, List.length_append]
    change _ + 2 + 1 = _
    omega
  rw [pairCommand, shown_of_found h hfound, hpair, if_pos casefold_pair, ← pairCommand, pairCommand_eq, List.map_append,
    mapIdx_redacted hlength, List.length_map]

theorem shown_attached (h : NamesAdb executable) (hattached : ∃ o ∈ options, o.isAttached = true)
    (secrets : List Text) :
    shown t r (pairCommand executable options target secrets) =
      (pairCommand executable options target secrets).map (redactSensitiveText t) := by
  obtain ⟨before, part, after, hwords, hpart, hscan⟩ := @attached_found t options hattached
  have hpair : (executable :: (options.flatMap GlobalOption.words ++ ("pair".toList :: target :: secrets))).getD
      (1 + before.length) [] = part := by
    rw [hwords, List.append_assoc]
    exact getD_after _ _
  rw [pairCommand, shown_of_found h (hscan _ 1), hpair, if_neg hpart]

/-- What is shown of a pairing does not tell the arguments behind the target exactly when no option has its value in
the same word. -/
theorem pairing_code_hidden_iff (h : NamesAdb executable) :
    Hidden t r executable options target ↔ ∀ o ∈ options, ¬o.isAttached = true := by
  constructor
  · intro hhidden
    by_contra hattached
    push Not at hattached
    have hequal := (hhidden [[]] [['1']] rfl).2
    rw [shown_attached h hattached, shown_attached h hattached, pairCommand_eq, pairCommand_eq, List.map_append,
      List.map_append, List.append_cancel_left_eq] at hequal
    exact redactSensitiveText_ne_nil (List.cons_ne_nil '1' []) (List.cons.inj hequal).1.symm
  · intro hplain secrets secrets' hlength
    refine ⟨length_shown _, ?_⟩
    rw [shown_pair h hplain, shown_pair h hplain, hlength]

theorem mem_id (values : List Text) (v : Text) : v ∈ id values ↔ v ∈ values := Iff.rfl

def plainRunner : CommandRunner where
  unicode := .ascii
  lower := id
  redactSensitiveText := id
  setOrder := id
  mem_setOrder := mem_id
  stack := []
  logsFolder := []

theorem namesAdb_adb : NamesAdb "adb".toList := by
  refine ⟨[], "adb".toList, rfl, ?_, .inl (List.forall₂_same.mpr (fun _ _ => .inl rfl))⟩
  intro c hc
  cases hc

/-- The code behind a serial in the same word as its option. -/
theorem attached_serial_shows_code : NamesAdb "adb".toList ∧ ¬Hidden .ascii plainRunner "adb".toList
    [.attached .s "X".toList (by decide)] "host:37123".toList := by
  refine ⟨namesAdb_adb, ?_⟩
  intro hhidden
  have hequal := (hhidden ["123456".toList] ["654321".toList] rfl).2
  exact absurd hequal (by decide +kernel)

theorem pairing_code_hidden_adb :
    Hidden .ascii plainRunner "adb".toList [.letter .s "X".toList, .switch .d] "host:37123".toList :=
  (pairing_code_hidden_iff namesAdb_adb).mpr (List.forall_iff_forall_mem.mp (by decide))

end OpenAdb.Commands.PairingCode
