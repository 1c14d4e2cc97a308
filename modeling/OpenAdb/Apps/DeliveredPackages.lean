import OpenAdb.Apps.InstalledPackages

namespace OpenAdb.Apps.DeliveredPackages

open OpenAdb.Lib.PyText OpenAdb.Lib.PyLines OpenAdb.Lib.PyWords
open OpenAdb.Lib.PackageName (ValidPackage packageChar_range)
open OpenAdb.Apps.AppCache (AppInfo)
open OpenAdb.Apps.PackageList OpenAdb.Apps.InstalledPackages
open OpenAdb.Commands.Results (CommandResult)

/-- The answers of a phone to the queries. -/
structure Answers (d : Device) where
  shell : Text → CommandResult
  outcome : ∀ query : Query, Outcome d query (shell query.command)

def withPaths : Query → Bool
  | .versions | .paths => true
  | _ => false

/-- Whether the line gives this name: the first word ends with it. -/
def givesName (u : Tables) (query : Query) (name line : Text) : Bool :=
  if withPaths query = true then
    match words u.toUnicodeData line with
    | word :: _ => ('=' :: name).isSuffixOf word
    | [] => false
  else line = packagePrefix ++ name

/-- The first word is the path and the name of the package, and a version code behind it is its own. -/
def Tells (u : Tables) (query : Query) (p : Package) (line : Text) : Prop :=
  withPaths query = true → ∃ later, words u.toUnicodeData line = (packagePrefix ++ (p.path ++ '=' :: p.name)) :: later ∧
    ∀ word, later.find? versionPrefix.isPrefixOf = some word →
      word = versionPrefix ∨ word = versionPrefix ++ p.versionCode

variable {u : Tables} {d : Device}

section
variable (shell : Text → CommandResult)

def lines (query : Query) : List Text := splitlines (stdout shell query)

/-- Some line of the answer is longer than the marker in front of it. -/
def delivers (query : Query) : Bool := (lines shell query).any (fun line => packagePrefix.length < line.length)

/-- The query whose answer the list is made of. -/
def source : Query :=
  if delivers shell .versions = true then .versions else if delivers shell .paths = true then .paths else .names

/-- None of the first three answers delivers a package, and the last two of them are empty. -/
def NothingDelivered : Prop :=
  delivers shell .versions = false ∧ stdout shell .paths = [] ∧ stdout shell .names = []

/-- The delivered lines tell what the list has to say. -/
structure LinesTell (u : Tables) (d : Device) (includeSystem : Bool) : Prop where
  row : ∀ p ∈ wanted d includeSystem, ∃ line,
    (lines shell (source shell)).filter (givesName u (source shell) p.name) = [line] ∧
      Tells u (source shell) p line
  user : ∀ p ∈ d.packages, p.user = true → packagePrefix ++ p.name ∈ lines shell .user
  system : ∀ p ∈ d.packages, p.user = true → packagePrefix ++ p.name ∉ lines shell .system
  disabled : ∀ p ∈ wanted d includeSystem, packagePrefix ++ p.name ∈ lines shell .disabled ↔ p.disabled = true

end

theorem isSpace_of_valid {name : Text} (h : ValidPackage name) : ∀ c ∈ name, u.isSpace c = false := by
  intro c hc
  have hrange := packageChar_range (h.2 c hc)
  exact u.isSpace_visible c (by omega) (by omega)

theorem isSpace_start : ∀ c ∈ packagePrefix, u.isSpace c = false := by
  have hvisible : ∀ c ∈ packagePrefix, 33 ≤ c.toNat ∧ c.toNat ≤ 126 :=
    List.forall_iff_forall_mem.mp (by decide)
  exact fun c hc => u.isSpace_visible c (hvisible c hc).1 (hvisible c hc).2

theorem strip_unspaced {s : Text} (h : ∀ c ∈ s, u.isSpace c = false) : strip u.toUnicodeData s = s :=
  Files.Listing.strip_visible (u := u.toTables) (fun c hc => h c (List.mem_of_mem_head? hc))
    (fun c hc => h c (List.mem_of_mem_getLast? hc))

/-- A line of a name shows it, and one that is cut off before the name shows nothing. -/
theorem parsePackageLine_name {name : Text} (h : ∀ c ∈ name, u.isSpace c = false) :
    parsePackageLine u (packagePrefix ++ name) = if name = [] then none else some name := by
  have hall : ∀ c ∈ packagePrefix ++ name, u.isSpace c = false := by
    intro c hc
    obtain hc | hc := List.mem_append.mp hc
    · exact isSpace_start c hc
    · exact h c hc
  rw [parsePackageLine, strip_unspaced hall, if_pos (List.isPrefixOf_iff_prefix.mpr (List.prefix_append _ _)), List.drop_left, strip_unspaced h]
  by_cases hne : name = []
  · rw [if_pos hne, hne]
    rfl
  · rw [if_neg hne, words_word hne h]
    rfl

theorem parsePackageLine_short {part : Text} (h : part <+: packagePrefix) (hne : part ≠ packagePrefix) :
    parsePackageLine u part = none := by
  have hvisible : ∀ c ∈ part, u.isSpace c = false := fun c hc => isSpace_start c (h.subset hc)
  rw [parsePackageLine, strip_unspaced hvisible, if_neg]
  intro hpre
  exact hne (h.eq_of_length (Nat.le_antisymm h.length_le (List.isPrefixOf_iff_prefix.mp hpre).length_le))

/-- What the part of a line that was delivered shows. -/
theorem parsePackageLine_part {name part shown : Text} (hname : ValidPackage name)
    (h : part <+: packagePrefix ++ name) :
    parsePackageLine u part = some shown ↔ part = packagePrefix ++ shown ∧ shown ≠ [] := by
  obtain hshort | ⟨rest, hrest⟩ := List.prefix_or_prefix_of_prefix h (List.prefix_append _ _)
  · have hnone : parsePackageLine u part = none := by
      by_cases hwhole : part = packagePrefix
      · have hempty := @parsePackageLine_name u [] (by simp)
        rwa [List.append_nil, if_pos rfl, ← hwhole] at hempty
      · exact parsePackageLine_short hshort hwhole
    rw [hnone]
    refine ⟨fun hcontra => (by cases hcontra), ?_⟩
    rintro ⟨heq, hne⟩
    have hlength := hshort.length_le
    rw [heq, List.length_append] at hlength
    have := List.length_pos_of_ne_nil hne
    omega
  · rw [← hrest, List.prefix_append_right_inj] at h
    rw [← hrest, parsePackageLine_name (fun c hc => isSpace_of_valid hname c (h.subset hc)),
      List.append_cancel_left_eq]
    by_cases hempty : rest = []
    · rw [if_pos hempty, hempty]
      exact ⟨fun hcontra => (by cases hcontra), fun h => absurd h.1.symm h.2⟩
    · rw [if_neg hempty, Option.some.injEq]
      exact ⟨fun heq => ⟨heq, heq ▸ hempty⟩, And.left⟩

theorem splitLast_entry {path name : Text} (hname : '=' ∉ name) :
    splitLast (path ++ '=' :: name) = some (path, name) := by
  have hpos : ∀ c ∈ name, (decide (c ≠ '=')) = true := by
    intro c hc
    rw [decide_eq_true_iff]
    intro heq
    exact hname (heq ▸ hc)
  have htake : (path ++ '=' :: name).rtakeWhile (· ≠ '=') = name := by
    rw [List.rtakeWhile, List.reverse_append, List.reverse_cons, List.append_assoc,
      List.takeWhile_append_of_pos (fun c hc => hpos c (List.mem_reverse.mp hc)), List.singleton_append,
      List.takeWhile_cons_of_neg (by simp), List.append_nil, List.reverse_reverse]
  have hdrop : (path ++ '=' :: name).rdropWhile (· ≠ '=') = path ++ ['='] := by
    have hsplit : path ++ '=' :: name = (path ++ ['=']) ++ name := by simp
    rw [hsplit, rdropWhile_append_of_all _ hpos, List.rdropWhile_concat_neg _ _ _ (by simp)]
  rw [splitLast, if_pos (by simp), htake, hdrop, List.dropLast_concat]

theorem not_mem_name {p : Package} {c : Char} (h : c.toNat < 46 ∨ c = '=') : c ∉ p.name := by
  intro hc
  have hchar := p.valid.2 c hc
  obtain h | h := h
  · have := (packageChar_range hchar).1
    omega
  · rw [h] at hchar
    exact absurd hchar (by decide)


theorem path_ne_nil (p : Package) : p.path ≠ [] := by
  intro h
  have habsolute := p.absolute
  rw [h] at habsolute
  cases habsolute

/-- The row of a line whose words are known. -/
def rowIn (u : Tables) (main : Text) (later : List Text) : Row :=
  match splitLast main with
  | some (apkPath, packageName) => ⟨apkPath, packageName, versionOf u later⟩
  | none => ⟨[], main, versionOf u later⟩

theorem splitLast_eq_some {main path name : Text} (h : splitLast main = some (path, name)) :
    main = path ++ '=' :: name ∧ '=' ∉ name := by
  rw [splitLast] at h
  by_cases hin : '=' ∈ main
  · rw [if_pos hin, Option.some.injEq, Prod.mk.injEq] at h
    have hname : '=' ∉ name := by
      rw [← h.2]
      intro hc
      exact absurd (List.mem_rtakeWhile_imp hc) (by decide)
    have hsplit : main.rdropWhile (· ≠ '=') ++ main.rtakeWhile (· ≠ '=') = main := List.rdropWhile_append_rtakeWhile
    have hne : main.rdropWhile (· ≠ '=') ≠ [] := by
      rw [ne_eq, List.rdropWhile_eq_nil_iff]
      intro hall
      exact absurd (hall '=' hin) (by decide)
    have hlast := List.rdropWhile_last_not (· ≠ '=') main hne
    have hequals : (main.rdropWhile (· ≠ '=')).getLast hne = '=' := by simpa using hlast
    have hconcat := List.dropLast_append_getLast hne
    rw [hequals, h.1] at hconcat
    rw [← hconcat, h.2] at hsplit
    refine ⟨?_, hname⟩
    rw [← hsplit, List.append_assoc, List.singleton_append]
  · rw [if_neg hin] at h
    cases h

/-- A line that is longer than its marker has a row. -/
theorem parsePathLine_long (s : Text) : ∃ word later, (∀ c ∈ word, u.isSpace c = false) ∧
    words u.toUnicodeData (packagePrefix ++ '/' :: s) = (packagePrefix ++ '/' :: word) :: later ∧
    parsePathLine u (packagePrefix ++ '/' :: s) = some (rowIn u ('/' :: word) later) := by
  have hslash : u.isSpace '/' = false := u.isSpace_visible '/' (by decide) (by decide)
  obtain ⟨word, later, hword, hfront⟩ := words_front hslash s
  have hempty := hfront [] (by simp)
  have hwords := hfront packagePrefix isSpace_start
  refine ⟨word, later, hword, hwords, ?_⟩
  have hdrop : ('/' :: s).rdropWhile u.isSpace = '/' :: s.rdropWhile u.isSpace :=
    rdropWhile_append_cons u.isSpace hslash [] s
  have hstrip : strip u.toUnicodeData (packagePrefix ++ '/' :: s) =
      packagePrefix ++ ('/' :: s).rdropWhile u.isSpace := by
    have hletter : ¬ u.isSpace 'p' = true := by
      rw [isSpace_start 'p' (by decide)]
      exact Bool.false_ne_true
    have hhead : (packagePrefix ++ '/' :: s).dropWhile u.isSpace = packagePrefix ++ '/' :: s :=
      List.dropWhile_cons_of_neg hletter
    rw [strip, hhead, hdrop]
    exact rdropWhile_append_cons u.isSpace hslash packagePrefix s
  have hmain : ∀ c ∈ '/' :: word, u.isSpace c = false := List.forall_mem_cons.mpr ⟨hslash, hword⟩
  rw [parsePathLine, hstrip, if_pos (List.isPrefixOf_iff_prefix.mpr (List.prefix_append _ _)), List.drop_left]
  rw [List.nil_append, List.nil_append] at hempty
  simp only [words_rdropWhile, hempty, List.headD_cons, List.tail_cons]
  rw [rowIn]
  cases hsplit : splitLast ('/' :: word) with
  | none =>
    simp only
    rw [strip_unspaced hmain, if_neg (by simp)]
  | some pair =>
    obtain ⟨path, name⟩ := pair
    obtain ⟨heq, _⟩ := splitLast_eq_some hsplit
    have hpath : ∀ c ∈ path, u.isSpace c = false := fun c hc => hmain c (heq ▸ List.mem_append_left _ hc)
    have hname : ∀ c ∈ name, u.isSpace c = false := fun c hc =>
      hmain c (heq ▸ List.mem_append_right _ (List.mem_cons_of_mem _ hc))
    simp only
    rw [strip_unspaced hpath, strip_unspaced hname]

theorem unbroken_line (query : Query) (p : Package) : ∀ c ∈ line query p, isLineBreak c = false := by
  have hascii : ∀ c ∈ packagePrefix ++ '=' :: ' ' :: versionPrefix, isLineBreak c = false :=
    List.forall_iff_forall_mem.mp (by decide)
  have hvisible : ∀ {c : Char}, c.toNat < 128 → 31 < c.toNat → isLineBreak c = false := by
    intro c hhigh hlow
    simp [isLineBreak]
    omega
  have hname : ∀ c ∈ p.name, isLineBreak c = false := by
    intro c hc
    have hrange := packageChar_range (p.valid.2 c hc)
    exact hvisible (by omega) (by omega)
  have hversion : ∀ c ∈ p.versionCode, isLineBreak c = false := by
    intro c hc
    have hdigit := Char.isDigit_iff_toNat.mp (p.numeric.2 c hc)
    simp at hdigit
    exact hvisible (by omega) (by omega)
  have hlead : ∀ c ∈ packagePrefix, isLineBreak c = false := fun c hc => hascii c (List.mem_append_left _ hc)
  have hsymbol : ∀ c ∈ '=' :: ' ' :: versionPrefix, isLineBreak c = false :=
    fun c hc => hascii c (List.mem_append_right _ hc)
  intro c hc
  cases query with
  | versions =>
    simp only [line, List.append_assoc, List.cons_append, List.mem_append, List.mem_cons] at hc
    obtain hc | hc | hc | hc | hc | hc | hc := hc
    · exact hlead c hc
    · exact p.unbroken c hc
    · exact hsymbol c (hc ▸ List.mem_cons_self)
    · exact hname c hc
    · exact hsymbol c (hc ▸ List.mem_cons_of_mem _ List.mem_cons_self)
    · exact hsymbol c (List.mem_cons_of_mem _ (List.mem_cons_of_mem _ hc))
    · exact hversion c hc
  | paths =>
    simp only [line, List.append_assoc, List.mem_append, List.mem_cons] at hc
    obtain hc | hc | hc | hc := hc
    · exact hlead c hc
    · exact p.unbroken c hc
    · exact hsymbol c (hc ▸ List.mem_cons_self)
    · exact hname c hc
  | _ =>
    obtain hc | hc := List.mem_append.mp hc
    · exact hlead c hc
    · exact hname c hc

/-- The lines of an answer are the first lines of the whole output, and perhaps a part of the next one. -/
theorem lines_of_outcome (a : Answers d) (query : Query) :
    ∃ ps : List Package, ps.Perm (d.packages.filter (selects query)) ∧ ∃ shown hidden last,
      ps.map (line query) = shown ++ hidden ∧ lines a.shell query = shown ++ last ∧
        (last = [] ∨ ∃ part row, last = [part] ∧ row ∈ hidden ∧ part <+: row) := by
  obtain ⟨ps, hperm, hout⟩ := a.outcome query
  have hlead : stdout a.shell query <+: unlines (ps.map (line query)) := by
    obtain ⟨_, hfull⟩ | ⟨_, hpart⟩ := hout
    · exact (show stdout a.shell query = _ from hfull) ▸ List.prefix_refl _
    · exact hpart
  refine ⟨ps, hperm, splitlines_prefix ?_ hlead⟩
  intro row hrow
  obtain ⟨p, _, heq⟩ := List.mem_map.mp hrow
  exact heq ▸ unbroken_line query p

theorem exists_of_mem_lines (a : Answers d) {query : Query} {text : Text} (h : text ∈ lines a.shell query) :
    ∃ p ∈ d.packages, selects query p = true ∧ text <+: line query p := by
  obtain ⟨ps, hperm, shown, hidden, last, hsplit, hlines, hlast⟩ := lines_of_outcome a query
  have hrow : ∀ row ∈ shown ++ hidden, ∃ p ∈ d.packages, selects query p = true ∧ line query p = row := by
    intro row hrow
    rw [← hsplit] at hrow
    obtain ⟨p, hp, heq⟩ := List.mem_map.mp hrow
    obtain ⟨hmem, hselected⟩ := List.mem_filter.mp (hperm.mem_iff.mp hp)
    exact ⟨p, hmem, hselected, heq⟩
  rw [hlines, List.mem_append] at h
  obtain h | h := h
  · obtain ⟨p, hp, hselected, heq⟩ := hrow text (List.mem_append_left _ h)
    exact ⟨p, hp, hselected, heq ▸ List.prefix_refl _⟩
  · obtain hlast | ⟨part, row, hlast, hhidden, hpart⟩ := hlast
    · rw [hlast] at h
      cases h
    · rw [hlast, List.mem_singleton] at h
      obtain ⟨p, hp, hselected, heq⟩ := hrow row (List.mem_append_right _ hhidden)
      exact ⟨p, hp, hselected, by rw [h, heq]; exact hpart⟩

/-- There are no more lines than packages. -/
theorem length_lines_le (a : Answers d) (query : Query) : (lines a.shell query).length ≤ d.packages.length := by
  obtain ⟨ps, hperm, shown, hidden, last, hsplit, hlines, hlast⟩ := lines_of_outcome a query
  have hps : ps.length ≤ d.packages.length := hperm.length_eq ▸ List.length_filter_le _ _
  have hlength : shown.length + hidden.length = ps.length := by
    rw [← List.length_append, ← hsplit, List.length_map]
  rw [hlines, List.length_append]
  obtain hlast | ⟨part, row, hlast, hhidden, _⟩ := hlast
  · rw [hlast, List.length_nil]
    omega
  · have := List.length_pos_of_mem hhidden
    rw [hlast, List.length_singleton]
    omega

/-- The row that is read from one line. -/
def readLine (u : Tables) (query : Query) (text : Text) : Option Row :=
  if withPaths query = true then parsePathLine u text
  else (parsePackageLine u text).map (fun name => ⟨[], name, []⟩)

theorem line_of_withPaths {query : Query} (h : withPaths query = true) (p : Package) :
    ∃ rest, line query p = packagePrefix ++ '/' :: rest := by
  cases hpath : p.path with
  | nil => exact absurd hpath (path_ne_nil p)
  | cons c rest =>
    have habsolute := p.absolute
    rw [hpath, List.head?_cons, Option.some.injEq] at habsolute
    cases query with
    | versions => exact ⟨_, by rw [line, hpath, habsolute]; simp; rfl⟩
    | paths => exact ⟨_, by rw [line, hpath, habsolute]; simp; rfl⟩
    | _ => cases h

/-- A delivered line with a path is a part of the marker, or it is longer. -/
theorem short_or_long {query : Query} (h : withPaths query = true) {p : Package} {text : Text}
    (htext : text <+: line query p) : text <+: packagePrefix ∨ ∃ rest, text = packagePrefix ++ '/' :: rest := by
  obtain ⟨rest, hline⟩ := line_of_withPaths h p
  rw [hline] at htext
  obtain hshort | ⟨later, hlater⟩ := List.prefix_or_prefix_of_prefix htext (List.prefix_append packagePrefix _)
  · exact .inl hshort
  · rw [← hlater, List.prefix_append_right_inj] at htext
    cases later with
    | nil =>
      rw [List.append_nil] at hlater
      exact .inl (hlater ▸ List.prefix_refl _)
    | cons c later =>
      obtain ⟨rfl, _⟩ := List.cons_prefix_cons.mp htext
      exact .inr ⟨later, hlater.symm⟩

theorem parsePathLine_short {text : Text} (h : text <+: packagePrefix) : parsePathLine u text = none := by
  have hvisible : ∀ c ∈ text, u.isSpace c = false := fun c hc => isSpace_start c (h.subset hc)
  rw [parsePathLine, strip_unspaced hvisible]
  by_cases hwhole : text = packagePrefix
  · have hsplit : splitLast [] = none := rfl
    have hstrip : strip u.toUnicodeData [] = [] := rfl
    rw [hwhole, if_pos (by decide), List.drop_length]
    simp only [words_nil, List.headD_nil, hsplit, hstrip, if_true]
  · rw [if_neg]
    intro hpre
    exact hwhole (h.eq_of_length (Nat.le_antisymm h.length_le (List.isPrefixOf_iff_prefix.mp hpre).length_le))

theorem not_mem_prefix : '=' ∉ packagePrefix := by decide

theorem givesName_short {query : Query} (hquery : withPaths query = true) {name text : Text} (h : text <+: packagePrefix) :
    givesName u query name text = false := by
  have hvisible : ∀ c ∈ text, u.isSpace c = false := fun c hc => isSpace_start c (h.subset hc)
  rw [givesName, if_pos hquery]
  by_cases hempty : text = []
  · rw [hempty, words_nil]
  · rw [words_word hempty hvisible]
    simp only
    rw [Bool.eq_false_iff]
    intro hsuffix
    have hmem := (List.isSuffixOf_iff_suffix.mp hsuffix).subset (List.mem_cons_self (a := '='))
    exact not_mem_prefix (h.subset hmem)

/-- The end of the first word is the name that is read. -/
theorem suffix_iff_name {word name : Text} {later : List Text} (hvalid : ValidPackage name) :
    ('=' :: name) <:+ packagePrefix ++ '/' :: word ↔ (rowIn u ('/' :: word) later).packageName = name := by
  have hequals : '=' ∉ name := fun hc => absurd (hvalid.2 '=' hc) (by decide)
  have hslash : '/' ∉ name := fun hc => absurd (hvalid.2 '/' hc) (by decide)
  rw [rowIn]
  constructor
  · rintro ⟨before, hbefore⟩
    -- the equals sign is not one of the marker
    obtain ⟨path, hpath⟩ : ∃ path, '/' :: word = path ++ '=' :: name := by
      obtain ⟨front, hfront, htail⟩ | ⟨path, _, hpath⟩ := List.append_eq_append_iff.mp hbefore
      · cases front with
        | nil =>
          rw [List.nil_append, List.cons.injEq] at htail
          exact absurd htail.1 (by decide)
        | cons c front =>
          rw [List.cons_append, List.cons.injEq] at htail
          have hmem : '=' ∈ packagePrefix := by
            rw [hfront, htail.1]
            exact List.mem_append_right _ List.mem_cons_self
          exact absurd hmem not_mem_prefix
      · exact ⟨path, hpath⟩
    rw [hpath, splitLast_entry hequals]
  · intro hname
    cases hsplit : splitLast ('/' :: word) with
    | none =>
      rw [hsplit] at hname
      exact absurd (hname ▸ List.mem_cons_self) hslash
    | some pair =>
      obtain ⟨path, shown⟩ := pair
      rw [hsplit] at hname
      obtain ⟨heq, _⟩ := splitLast_eq_some hsplit
      have hshown : shown = name := hname
      rw [heq, hshown]
      exact ⟨packagePrefix ++ path, by simp⟩

theorem givesName_iff {query : Query} {p : Package} {text name : Text} (htext : text <+: line query p)
    (hvalid : ValidPackage name) :
    givesName u query name text = true ↔ ∃ row, readLine u query text = some row ∧ row.packageName = name := by
  by_cases hquery : withPaths query = true
  · obtain hshort | ⟨rest, hlong⟩ := short_or_long hquery htext
    · rw [givesName_short hquery hshort, readLine, if_pos hquery, parsePathLine_short hshort]
      simp
    · obtain ⟨word, later, _, hwords, hread⟩ := parsePathLine_long (u := u) rest
      rw [givesName, if_pos hquery, readLine, if_pos hquery, hlong, hwords, hread]
      simp only [Option.some.injEq, exists_eq_left']
      rw [List.isSuffixOf_iff_suffix, suffix_iff_name hvalid]
  · have hline : line query p = packagePrefix ++ p.name := by
      cases query with
      | versions => exact absurd rfl hquery
      | paths => exact absurd rfl hquery
      | _ => rfl
    rw [hline] at htext
    rw [givesName, if_neg hquery, readLine, if_neg hquery, decide_eq_true_iff]
    constructor
    · intro heq
      refine ⟨⟨[], name, []⟩, ?_, rfl⟩
      rw [(parsePackageLine_part p.valid htext).mpr ⟨heq, hvalid.1⟩]
      rfl
    · rintro ⟨row, hrow, hname⟩
      obtain ⟨shown, hshown, heq⟩ := Option.map_eq_some_iff.mp hrow
      rw [((parsePackageLine_part p.valid htext).mp hshown).1, ← hname, ← heq]

theorem versionOf_own {later : List Text} (hlater : ∀ word ∈ later, ∀ c ∈ word, u.isSpace c = false) (p : Package) :
    (versionOf u later = [] ∨ versionOf u later = p.versionCode) ↔
      ∀ word, later.find? versionPrefix.isPrefixOf = some word →
        word = versionPrefix ∨ word = versionPrefix ++ p.versionCode := by
  rw [versionOf]
  cases hfind : later.find? versionPrefix.isPrefixOf with
  | none => simp
  | some word =>
    obtain ⟨rest, hrest⟩ := List.isPrefixOf_iff_prefix.mp (List.find?_some hfind)
    have hvisible := hlater word (List.mem_of_find?_eq_some hfind)
    have hvisible' : ∀ c ∈ rest, u.isSpace c = false := fun c hc =>
      hvisible c (hrest ▸ List.mem_append_right _ hc)
    simp only [Option.some.injEq, forall_eq']
    rw [← hrest, List.drop_left, strip_unspaced hvisible', List.append_right_eq_self, List.append_cancel_left_eq]

theorem rowOf_iff_tells {query : Query} {p q : Package} {text : Text} {row : Row} (htext : text <+: line query q)
    (hrow : readLine u query text = some row) (hname : row.packageName = p.name) :
    RowOf p row ↔ Tells u query p text := by
  by_cases hquery : withPaths query = true
  · rw [readLine, if_pos hquery] at hrow
    obtain hshort | ⟨rest, hlong⟩ := short_or_long hquery htext
    · rw [parsePathLine_short hshort] at hrow
      cases hrow
    · obtain ⟨word, later, _, hwords, hread⟩ := parsePathLine_long (u := u) rest
      have hlater : ∀ w ∈ later, ∀ c ∈ w, u.isSpace c = false := fun w hw =>
        visible_of_mem_words (hwords ▸ List.mem_cons_of_mem _ hw)
      rw [hlong, hread, Option.some.injEq] at hrow
      have hslash : '/' ∉ p.name := fun hc => absurd (p.valid.2 '/' hc) (by decide)
      rw [← hrow, rowIn] at hname ⊢
      cases hsplit : splitLast ('/' :: word) with
      | none =>
        rw [hsplit] at hname
        exact absurd (hname ▸ List.mem_cons_self) hslash
      | some pair =>
        obtain ⟨path, shown⟩ := pair
        rw [hsplit] at hname
        have hshown : shown = p.name := hname
        obtain ⟨heq, _⟩ := splitLast_eq_some hsplit
        have hpathNe : path ≠ [] := by
          intro hempty
          rw [hempty, List.nil_append, List.cons.injEq] at heq
          exact absurd heq.1 (by decide)
        simp only [RowOf, Tells, hlong, hwords, heq, hshown, hquery, forall_const]
        rw [versionOf_own hlater p]
        constructor
        · rintro ⟨hempty | hpath, hversion⟩
          · exact absurd hempty hpathNe
          · exact ⟨later, by rw [hpath], hversion⟩
        · rintro ⟨later', hsame, hversion⟩
          rw [List.cons.injEq, List.append_cancel_left_eq] at hsame
          obtain ⟨hentry, rfl⟩ := hsame
          exact ⟨.inr (List.append_inj_left' hentry rfl), hversion⟩
  · rw [readLine, if_neg hquery] at hrow
    obtain ⟨shown, _, heq⟩ := Option.map_eq_some_iff.mp hrow
    rw [← heq]
    exact ⟨fun _ hcontra => absurd hcontra hquery, fun _ => ⟨.inl rfl, .inl rfl⟩⟩

/-- The rows of the answer that the list is made of. -/
def sourceRows (u : Tables) (shell : Text → CommandResult) : List Row :=
  (lines shell (source shell)).filterMap (readLine u (source shell))

theorem parsePackagePaths_eq (shell : Text → CommandResult) {query : Query} (h : withPaths query = true) :
    parsePackagePaths u (stdout shell query) = (lines shell query).filterMap (readLine u query) := by
  have hread : readLine u query = parsePathLine u := funext fun text => if_pos h
  rw [hread]
  rfl

theorem parsePackageList_eq (shell : Text → CommandResult) {query : Query} (h : withPaths query = false) :
    (parsePackageList u (stdout shell query)).map (fun name => (⟨[], name, []⟩ : Row)) =
      (lines shell query).filterMap (readLine u query) := by
  have hread : readLine u query = fun text => (parsePackageLine u text).map (fun name => ⟨[], name, []⟩) :=
    funext fun text => if_neg (by simp [h])
  rw [hread, parsePackageList, List.map_filterMap]
  rfl

/-- An answer with paths has rows when it has a line that is longer than the marker. -/
theorem delivers_iff (a : Answers d) {query : Query} (h : withPaths query = true) :
    delivers a.shell query = true ↔ parsePackagePaths u (stdout a.shell query) ≠ [] := by
  have hread : readLine u query = parsePathLine u := funext fun text => if_pos h
  rw [parsePackagePaths_eq a.shell h, hread, ne_eq, List.filterMap_eq_nil_iff, delivers, List.any_eq_true]
  constructor
  · rintro ⟨text, htext, hlong⟩ hall
    obtain ⟨p, _, _, hpart⟩ := exists_of_mem_lines a htext
    obtain hshort | ⟨rest, heq⟩ := short_or_long h hpart
    · have hle := hshort.length_le
      rw [decide_eq_true_iff] at hlong
      omega
    · obtain ⟨word, later, _, _, hrow⟩ := parsePathLine_long (u := u) rest
      have hnone := hall text htext
      rw [heq, hrow] at hnone
      cases hnone
  · intro hsome
    by_contra hshort
    refine hsome fun text htext => ?_
    obtain ⟨p, _, _, hpart⟩ := exists_of_mem_lines a htext
    obtain hpart | ⟨rest, heq⟩ := short_or_long h hpart
    · exact parsePathLine_short hpart
    · refine absurd ⟨text, htext, ?_⟩ hshort
      rw [decide_eq_true_iff, heq, List.length_append, List.length_cons]
      omega

theorem packageRows_raises (a : Answers d) (h : NothingDelivered a.shell) :
    ∃ message, packageRows u a.shell = .error message := by
  obtain ⟨hfirst, hpaths, hnames⟩ := h
  have hpaths : (a.shell Query.paths.command).stdout = [] := hpaths
  have hnames : (a.shell Query.names.command).stdout = [] := hnames
  have hrows : parsePackagePaths u [] = [] := rfl
  have hlist : parsePackageList u [] = [] := rfl
  have hnone : parsePackagePaths u (stdout a.shell .versions) = [] := by
    by_contra hsome
    rw [(delivers_iff a rfl).mpr hsome] at hfirst
    cases hfirst
  rw [packageRows]
  simp only
  rw [hnone, if_neg (by simp), hpaths, hnames, hrows, if_neg (by simp), hlist, if_pos ⟨rfl, rfl, rfl⟩]
  exact ⟨_, rfl⟩

theorem packageRows_ok (a : Answers d) (h : ¬ NothingDelivered a.shell) :
    packageRows u a.shell = .ok (sourceRows u a.shell) := by
  have hversions := @delivers_iff u _ a .versions rfl
  have hpaths := @delivers_iff u _ a .paths rfl
  rw [packageRows, sourceRows, source]
  simp only
  by_cases hfirst : delivers a.shell .versions = true
  · rw [if_pos (hversions.mp hfirst), if_pos hfirst, parsePackagePaths_eq a.shell rfl]
  · rw [if_neg (fun hsome => hfirst (hversions.mpr hsome)), if_neg hfirst]
    change (if parsePackagePaths u (stdout a.shell .paths) ≠ [] then _ else _) = _
    by_cases hsecond : delivers a.shell .paths = true
    · rw [if_pos (hpaths.mp hsecond), if_pos hsecond, ← parsePackagePaths_eq a.shell rfl]
      rfl
    · rw [if_neg (fun hsome => hsecond (hpaths.mpr hsome)), if_neg hsecond, if_neg, ← parsePackageList_eq a.shell rfl]
      · rfl
      · rintro ⟨_, hempty, hnames⟩
        exact h ⟨by simpa using hfirst, hempty, hnames⟩

section
variable {α β : Type} {f : α → Option β} {P : β → Bool} {Q : α → Bool} {xs : List α}

theorem filter_filterMap (h : ∀ x ∈ xs, Q x = true ↔ ∃ y, f x = some y ∧ P y = true) :
    (xs.filterMap f).filter P = (xs.filter Q).filterMap f := by
  induction xs with
  | nil => rfl
  | cons x xs ih =>
    obtain ⟨hx, hxs⟩ := List.forall_mem_cons.mp h
    by_cases hQ : Q x = true
    · obtain ⟨y, hy, hP⟩ := hx.mp hQ
      rw [List.filter_cons_of_pos hQ, List.filterMap_cons, List.filterMap_cons, hy]
      simp only
      rw [List.filter_cons_of_pos hP, ih hxs]
    · rw [List.filter_cons_of_neg hQ, List.filterMap_cons]
      cases hfx : f x with
      | none => exact ih hxs
      | some y =>
        simp only
        rw [List.filter_cons_of_neg (fun hP => hQ (hx.mpr ⟨y, hfx, hP⟩)), ih hxs]

/-- One result is left just when one item is. -/
theorem filter_singleton (h : ∀ x ∈ xs, Q x = true ↔ ∃ y, f x = some y ∧ P y = true) (y : β) :
    (xs.filterMap f).filter P = [y] ↔ ∃ x, xs.filter Q = [x] ∧ f x = some y := by
  rw [filter_filterMap h]
  have hsome : ∀ x ∈ xs.filter Q, ∃ y, f x = some y := by
    intro x hx
    obtain ⟨hmem, hQ⟩ := List.mem_filter.mp hx
    obtain ⟨y, hy, _⟩ := (h x hmem).mp hQ
    exact ⟨y, hy⟩
  constructor
  · intro hone
    cases hxs : xs.filter Q with
    | nil =>
      rw [hxs] at hone
      cases hone
    | cons x rest =>
      rw [hxs] at hone hsome
      obtain ⟨hx, hrest⟩ := List.forall_mem_cons.mp hsome
      obtain ⟨z, hz⟩ := hx
      rw [List.filterMap_cons, hz, List.cons.injEq] at hone
      cases rest with
      | nil => exact ⟨x, rfl, by rw [hz, hone.1]⟩
      | cons x' rest =>
        obtain ⟨z', hz'⟩ := (List.forall_mem_cons.mp hrest).1
        have hnil := hone.2
        rw [List.filterMap_cons, hz'] at hnil
        cases hnil
  · rintro ⟨x, hx, hfx⟩
    rw [hx, List.filterMap_cons, hfx]
    rfl

end

theorem row_iff (a : Answers d) (p : Package) :
    (∃ row, (sourceRows u a.shell).filter (fun row => row.packageName = p.name) = [row] ∧ RowOf p row) ↔
      ∃ line, (lines a.shell (source a.shell)).filter (givesName u (source a.shell) p.name) = [line] ∧
        Tells u (source a.shell) p line := by
  have hgives : ∀ text ∈ lines a.shell (source a.shell), givesName u (source a.shell) p.name text = true ↔
      ∃ row, readLine u (source a.shell) text = some row ∧ decide (row.packageName = p.name) = true := by
    intro text htext
    obtain ⟨q, _, _, hpart⟩ := exists_of_mem_lines a htext
    simp only [decide_eq_true_iff]
    exact givesName_iff hpart p.valid
  have htells : ∀ {text : Text} {row : Row}, text ∈ lines a.shell (source a.shell) →
      givesName u (source a.shell) p.name text = true → readLine u (source a.shell) text = some row →
        (RowOf p row ↔ Tells u (source a.shell) p text) := by
    intro text row htext hname hrow
    obtain ⟨q, _, _, hpart⟩ := exists_of_mem_lines a htext
    obtain ⟨row', hrow', hname'⟩ := (hgives text htext).mp hname
    rw [hrow, Option.some.injEq] at hrow'
    rw [← hrow', decide_eq_true_iff] at hname'
    exact rowOf_iff_tells hpart hrow hname'
  constructor
  · rintro ⟨row, hone, hof⟩
    obtain ⟨text, htext, hrow⟩ := (filter_singleton hgives row).mp hone
    obtain ⟨hmem, hname⟩ := List.mem_filter.mp (htext ▸ List.mem_singleton_self text)
    exact ⟨text, htext, (htells hmem hname hrow).mp hof⟩
  · rintro ⟨text, htext, htell⟩
    obtain ⟨hmem, hname⟩ := List.mem_filter.mp (htext ▸ List.mem_singleton_self text)
    obtain ⟨row, hrow, _⟩ := (hgives text hmem).mp hname
    exact ⟨row, (filter_singleton hgives row).mpr ⟨text, htext, hrow⟩, (htells hmem hname hrow).mpr htell⟩

/-- When every package has a row, there is no room for any other row. -/
theorem only_packages (a : Answers d)
    (h : ∀ p ∈ d.packages, ∃ row, (sourceRows u a.shell).filter (fun row => row.packageName = p.name) = [row]) :
    ∀ row ∈ sourceRows u a.shell, ∃ p ∈ d.packages, row.packageName = p.name := by
  have hsubset : d.packages.map Package.name ⊆ (sourceRows u a.shell).map Row.packageName := by
    intro name hname
    obtain ⟨p, hp, heq⟩ := List.mem_map.mp hname
    obtain ⟨row, hrow⟩ := h p hp
    obtain ⟨hmem, hsame⟩ := List.mem_filter.mp (hrow ▸ List.mem_singleton_self row)
    rw [decide_eq_true_iff] at hsame
    exact List.mem_map.mpr ⟨row, hmem, hsame.trans heq⟩
  have hlength : ((sourceRows u a.shell).map Row.packageName).length ≤ (d.packages.map Package.name).length := by
    rw [List.length_map, List.length_map]
    exact (List.length_filterMap_le _ _).trans (length_lines_le a _)
  have hperm := (List.subperm_of_subset d.names_nodup hsubset).perm_of_length_le hlength
  intro row hrow
  obtain ⟨p, hp, heq⟩ := List.mem_map.mp (hperm.mem_iff.mpr (List.mem_map_of_mem (f := Row.packageName) hrow))
  exact ⟨p, hp, heq.symm⟩

theorem mem_shown (a : Answers d) {query : Query} (h : withPaths query = false) {name : Text} (hne : name ≠ []) :
    name ∈ parsePackageList u (stdout a.shell query) ↔ packagePrefix ++ name ∈ lines a.shell query := by
  have hline : ∀ p, line query p = packagePrefix ++ p.name := by
    intro p
    cases query with
    | versions => cases h
    | paths => cases h
    | _ => rfl
  rw [parsePackageList, List.mem_filterMap]
  constructor
  · rintro ⟨text, htext, hshown⟩
    obtain ⟨p, _, _, hpart⟩ := exists_of_mem_lines a htext
    rw [hline] at hpart
    rw [← ((parsePackageLine_part p.valid hpart).mp hshown).1]
    exact htext
  · intro htext
    obtain ⟨p, _, _, hpart⟩ := exists_of_mem_lines a htext
    rw [hline] at hpart
    exact ⟨_, htext, (parsePackageLine_part p.valid hpart).mpr ⟨rfl, hne⟩⟩

/-- When every user package is shown, nothing else is shown with them. -/
theorem shown_users (a : Answers d)
    (hall : ∀ p ∈ d.packages, p.user = true → packagePrefix ++ p.name ∈ lines a.shell .user) :
    ∀ name ∈ parsePackageList u (stdout a.shell .user), ∃ p ∈ d.packages, p.user = true ∧ p.name = name := by
  obtain ⟨ps, hperm, shown, hidden, last, hsplit, hlines, hlast⟩ := lines_of_outcome a .user
  have huser : ∀ p, p ∈ ps ↔ p ∈ d.packages ∧ p.user = true := by
    intro p
    rw [hperm.mem_iff, List.mem_filter]
    rfl
  have hnodup : (shown ++ hidden).Nodup := by
    have hnames : (ps.map Package.name).Nodup := by
      rw [(hperm.map Package.name).nodup_iff]
      exact d.names_nodup.sublist (List.filter_sublist.map _)
    have hrows : ps.map (line .user) = (ps.map Package.name).map (packagePrefix ++ ·) := by
      rw [List.map_map]
      rfl
    rw [← hsplit, hrows]
    exact hnames.map (fun _ _ heq => List.append_cancel_left heq)
  -- a line that was cut off is whole, because its package is shown as well
  have hwhole : ∀ text ∈ lines a.shell .user, text ∈ ps.map (line .user) := by
    intro text htext
    rw [hlines, List.mem_append] at htext
    rw [hsplit, List.mem_append]
    obtain htext | htext := htext
    · exact .inl htext
    · obtain hlast | ⟨part, row, hlast, hhidden, _⟩ := hlast
      · rw [hlast] at htext
        cases htext
      · rw [hlast, List.mem_singleton] at htext
        have hrow : row ∈ ps.map (line .user) := by
          rw [hsplit]
          exact List.mem_append_right _ hhidden
        obtain ⟨p, hp, heq⟩ := List.mem_map.mp hrow
        have hshown : row ∈ lines a.shell .user := heq ▸ hall p ((huser p).mp hp).1 ((huser p).mp hp).2
        rw [hlines, hlast, List.mem_append, List.mem_singleton] at hshown
        obtain hshown | hshown := hshown
        · exact absurd rfl ((List.nodup_append.mp hnodup).2.2 row hshown row hhidden)
        · rw [htext, ← hshown]
          exact .inr hhidden
  intro name hname
  obtain ⟨text, htext, hshown⟩ := List.mem_filterMap.mp hname
  obtain ⟨p, hp, heq⟩ := List.mem_map.mp (hwhole text htext)
  have hself := (parsePackageLine_part (u := u) p.valid (heq ▸ List.prefix_refl _)).mp hshown
  rw [← heq] at hself
  exact ⟨p, ((huser p).mp hp).1, ((huser p).mp hp).2, List.append_cancel_left hself.1⟩

theorem told_iff (a : Answers d) (includeSystem : Bool) :
    Told d includeSystem (sourceRows u a.shell) (parsePackageList u (stdout a.shell .user))
        (parsePackageList u (stdout a.shell .system)) (parsePackageList u (stdout a.shell .disabled)) ↔
      LinesTell a.shell u d includeSystem := by
  constructor
  · intro h
    refine ⟨fun p hp => (row_iff a p).mp (h.row p hp), ?_, ?_, ?_⟩
    · exact fun p hp huser => (mem_shown a rfl (name_ne_nil p)).mp (h.user p hp huser).1
    · exact fun p hp huser hin => (h.user p hp huser).2 ((mem_shown a rfl (name_ne_nil p)).mpr hin)
    · exact fun p hp => (mem_shown (u := u) a rfl (name_ne_nil p)).symm.trans (h.disabled p hp)
  · intro h
    have hrow := fun p hp => (row_iff a p).mpr (h.row p hp)
    refine ⟨hrow, ?_, ?_, ?_⟩
    · intro hinclude row hmem _
      refine only_packages a (fun p hp => ?_) row hmem
      obtain ⟨only, honly, _⟩ := hrow p (mem_wanted.mpr ⟨hp, .inl hinclude⟩)
      exact ⟨only, honly⟩
    · intro p hp huser
      exact ⟨(mem_shown a rfl (name_ne_nil p)).mpr (h.user p hp huser),
        fun hin => h.system p hp huser ((mem_shown a rfl (name_ne_nil p)).mp hin)⟩
    · exact fun p hp => (mem_shown a rfl (name_ne_nil p)).trans (h.disabled p hp)

theorem truthful_perm {includeSystem : Bool} {apps apps' : List AppInfo} (h : apps.Perm apps') :
    Truthful d includeSystem (.ok apps) ↔ Truthful d includeSystem (.ok apps') := by
  rw [Truthful, Truthful]
  constructor
  · rintro ⟨hperm, hown⟩
    exact ⟨(h.map _).symm.trans hperm, fun app happ => hown app (h.mem_iff.mpr happ)⟩
  · rintro ⟨hperm, hown⟩
    exact ⟨(h.map _).trans hperm, fun app happ => hown app (h.mem_iff.mp happ)⟩

theorem truthful_iff_tell (a : Answers d) (includeSystem : Bool) :
    Truthful d includeSystem (listPackages u a.shell includeSystem) ↔
      NothingDelivered a.shell ∨ LinesTell a.shell u d includeSystem := by
  rw [listPackages]
  by_cases hnothing : NothingDelivered a.shell
  · obtain ⟨message, hraise⟩ := packageRows_raises (u := u) a hnothing
    rw [hraise]
    exact ⟨fun _ => .inl hnothing, fun _ => trivial⟩
  · rw [packageRows_ok a hnothing]
    simp only
    rw [truthful_perm (List.mergeSort_perm _ _), ← told_iff a includeSystem]
    constructor
    · intro h
      exact .inr (told_of_truthful h)
    · rintro (h | h)
      · exact absurd h hnothing
      · refine truthful_of_told (shown_users a fun p hp huser => ?_) h
        exact (mem_shown a rfl (name_ne_nil p)).mp (h.user p hp huser).1

theorem isSpace_version (p : Package) : ∀ c ∈ versionPrefix ++ p.versionCode, u.isSpace c = false := by
  have hlead : ∀ c ∈ versionPrefix, 33 ≤ c.toNat ∧ c.toNat ≤ 126 := List.forall_iff_forall_mem.mp (by decide)
  intro c hc
  obtain hc | hc := List.mem_append.mp hc
  · exact u.isSpace_visible c (hlead c hc).1 (hlead c hc).2
  · obtain ⟨hlow, hhigh⟩ := Char.isDigit_iff_toNat.mp (p.numeric.2 c hc)
    simp at hlow hhigh
    exact u.isSpace_visible c (by omega) (by omega)

/-- A whole line is read, when there is no blank in the path. -/
theorem parsePathLine_whole {p : Package} (hpath : ∀ c ∈ p.path, u.isSpace c = false) :
    parsePathLine u (line .versions p) = some ⟨p.path, p.name, p.versionCode⟩ := by
  have hentry : ∀ c ∈ packagePrefix ++ (p.path ++ '=' :: p.name), u.isSpace c = false := by
    intro c hc
    simp only [List.mem_append, List.mem_cons] at hc
    obtain hc | hc | hc | hc := hc
    · exact isSpace_start c hc
    · exact hpath c hc
    · rw [hc]
      exact u.isSpace_visible '=' (by decide) (by decide)
    · exact isSpace_of_valid p.valid c hc
  have hversion := isSpace_version (u := u) p
  have hversionNe : versionPrefix ++ p.versionCode ≠ [] := List.append_ne_nil_of_right_ne_nil _ p.numeric.1
  have hline : line .versions p =
      (packagePrefix ++ (p.path ++ '=' :: p.name)) ++ ' ' :: (versionPrefix ++ p.versionCode) := by
    simp [line]
  have hwords : words u.toUnicodeData (line .versions p) =
      [packagePrefix ++ (p.path ++ '=' :: p.name), versionPrefix ++ p.versionCode] := by
    rw [hline, words_cons (by simp) hentry u.isSpace_blank, words_word hversionNe hversion]
  obtain ⟨rest, hrest⟩ := @line_of_withPaths .versions rfl p
  obtain ⟨word, later, _, hsame, hread⟩ := parsePathLine_long (u := u) rest
  rw [← hrest, hwords, List.cons.injEq, List.append_cancel_left_eq] at hsame
  have hdigits : ∀ c ∈ p.versionCode, u.isSpace c = false := fun c hc => hversion c (List.mem_append_right _ hc)
  rw [hrest, hread, ← hsame.1, ← hsame.2, rowIn, splitLast_entry (not_mem_name (.inr rfl)), versionOf,
    List.find?_cons_of_pos (List.isPrefixOf_iff_prefix.mpr (List.prefix_append _ _))]
  simp only
  rw [List.drop_left, strip_unspaced hdigits]

theorem filterMap_map_some {α β : Type} {f : α → Text} {g : Text → Option β} {h : α → β} {xs : List α}
    (hall : ∀ x ∈ xs, g (f x) = some (h x)) : (xs.map f).filterMap g = xs.map h := by
  induction xs with
  | nil => rfl
  | cons x xs ih =>
    obtain ⟨hx, hxs⟩ := List.forall_mem_cons.mp hall
    rw [List.map_cons, List.filterMap_cons, hx, List.map_cons, ih hxs]

theorem filter_name {ps : List Package} (hsub : ∀ p ∈ ps, p ∈ d.packages) (hnodup : ps.Nodup) {p : Package}
    (hp : p ∈ ps) : ps.filter (fun q => q.name = p.name) = [p] := by
  rw [← List.perm_singleton, List.perm_ext_iff_of_nodup (hnodup.filter _) (List.nodup_singleton p)]
  intro q
  rw [List.mem_filter, List.mem_singleton, decide_eq_true_eq]
  constructor
  · rintro ⟨hq, hname⟩
    exact package_ext (hsub q hq) (hsub p hp) hname
  · intro heq
    rw [heq]
    exact ⟨hp, rfl⟩


/-- A query that succeeds delivers the lines of its packages. -/
theorem lines_of_success (a : Answers d) {query : Query} (h : (a.shell query.command).success = true) :
    ∃ ps : List Package, ps.Perm (d.packages.filter (selects query)) ∧ lines a.shell query = ps.map (line query) := by
  obtain ⟨ps, hperm, ⟨_, hfull⟩ | ⟨hfailed, _⟩⟩ := a.outcome query
  · refine ⟨ps, hperm, ?_⟩
    rw [lines, stdout, hfull]
    refine splitlines_unlines fun text htext => ?_
    obtain ⟨p, _, heq⟩ := List.mem_map.mp htext
    exact heq ▸ unbroken_line query p
  · rw [h] at hfailed
    cases hfailed

theorem mem_lines_of_success (a : Answers d) {query : Query} (hquery : withPaths query = false)
    (h : (a.shell query.command).success = true) {p : Package} (hp : p ∈ d.packages) :
    packagePrefix ++ p.name ∈ lines a.shell query ↔ selects query p = true := by
  obtain ⟨ps, hperm, hlines⟩ := lines_of_success a h
  have hline : line query = fun p => packagePrefix ++ p.name := by
    cases query with
    | versions => cases hquery
    | paths => cases hquery
    | _ => rfl
  rw [hlines, hline, List.mem_map]
  constructor
  · rintro ⟨q, hq, hname⟩
    obtain ⟨hmem, hselected⟩ := List.mem_filter.mp (hperm.mem_iff.mp hq)
    rwa [package_ext hmem hp (List.append_cancel_left hname)] at hselected
  · intro hselected
    exact ⟨p, hperm.mem_iff.mpr (List.mem_filter.mpr ⟨hp, hselected⟩), rfl⟩

theorem rows_of_success (a : Answers d) (h : (a.shell Query.versions.command).success = true)
    (hpaths : ∀ p ∈ d.packages, ∀ c ∈ p.path, u.isSpace c = false) (hsome : d.packages ≠ []) :
    ∃ ps : List Package, ps.Perm d.packages ∧
      sourceRows u a.shell = ps.map (fun p => ⟨p.path, p.name, p.versionCode⟩) := by
  obtain ⟨ps, hperm, hlines⟩ := lines_of_success a h
  have hall : d.packages.filter (selects .versions) = d.packages := List.filter_eq_self.mpr fun _ _ => rfl
  rw [hall] at hperm
  have hdelivers : delivers a.shell .versions = true := by
    obtain ⟨p, hp⟩ := List.exists_mem_of_ne_nil _ hsome
    obtain ⟨rest, hrest⟩ := @line_of_withPaths .versions rfl p
    rw [delivers, List.any_eq_true, hlines]
    refine ⟨_, List.mem_map_of_mem (hperm.mem_iff.mpr hp), ?_⟩
    rw [decide_eq_true_iff, hrest, List.length_append, List.length_cons]
    omega
  refine ⟨ps, hperm, ?_⟩
  rw [sourceRows, source, if_pos hdelivers, hlines]
  exact filterMap_map_some fun p hp => parsePathLine_whole (hpaths p (hperm.mem_iff.mp hp))

theorem tell_of_success (a : Answers d) (includeSystem : Bool)
    (h : ∀ query ∈ [Query.versions, Query.user, Query.system, Query.disabled],
      (a.shell query.command).success = true)
    (hpaths : ∀ p ∈ d.packages, ∀ c ∈ p.path, u.isSpace c = false) :
    LinesTell a.shell u d includeSystem := by
  refine ⟨?_, ?_, ?_, ?_⟩
  · intro p hp
    have hmem := (mem_wanted.mp hp).1
    obtain ⟨ps, hperm, hrows⟩ := rows_of_success (u := u) a (h .versions (by decide)) hpaths (List.ne_nil_of_mem hmem)
    refine (row_iff a p).mp ⟨⟨p.path, p.name, p.versionCode⟩, ?_, .inr rfl, .inr rfl⟩
    have hnodup : ps.Nodup := hperm.nodup_iff.mpr (List.Nodup.of_map _ d.names_nodup)
    have hfilter := filter_name (fun q hq => hperm.mem_iff.mp hq) hnodup (hperm.mem_iff.mpr hmem)
    rw [hrows, List.filter_map]
    change ((ps.filter fun q => q.name = p.name).map _) = _
    rw [hfilter]
    rfl
  · intro p hp huser
    exact (mem_lines_of_success a rfl (h .user (by decide)) hp).mpr huser
  · intro p hp huser hin
    have hsystem := (mem_lines_of_success a rfl (h .system (by decide)) hp).mp hin
    rw [selects, huser] at hsystem
    cases hsystem
  · exact fun p hp => mem_lines_of_success a rfl (h .disabled (by decide)) (mem_wanted.mp hp).1

/-- The list is truthful, or an error, exactly when the delivered lines tell what it has to say; they do so when the
queries succeed and no path has a blank. -/
theorem packages_truthful_iff (u : Tables) (d : Device) (a : Answers d) (includeSystem : Bool) :
    (Truthful d includeSystem (listPackages u a.shell includeSystem) ↔
      NothingDelivered a.shell ∨ LinesTell a.shell u d includeSystem) ∧
    ((∀ query ∈ [Query.versions, Query.user, Query.system, Query.disabled],
        (a.shell query.command).success = true) →
      (∀ p ∈ d.packages, ∀ c ∈ p.path, u.isSpace c = false) → LinesTell a.shell u d includeSystem) :=
  ⟨truthful_iff_tell a includeSystem, tell_of_success a includeSystem⟩

def asciiTables : Tables where
  toTables := Files.Listing.asciiTables
  lower := id

theorem notes_valid : ValidPackage "notes".toList := by decide

theorem notes_unbroken : ∀ c ∈ "/data/app/notes.apk".toList, isLineBreak c = false :=
  List.forall_iff_forall_mem.mp (by decide)

theorem notes_numeric : "7".toList ≠ [] ∧ ∀ c ∈ "7".toList, c.isDigit = true :=
  ⟨by decide, List.forall_iff_forall_mem.mp (by decide)⟩

def notes : Package where
  name := "notes".toList
  path := "/data/app/notes.apk".toList
  versionCode := "7".toList
  user := true
  disabled := false
  valid := notes_valid
  absolute := rfl
  unbroken := notes_unbroken
  numeric := notes_numeric

theorem notes_nodup : ([notes].map Package.name).Nodup := List.nodup_singleton _

def notesOnly : Device := ⟨[notes], notes_nodup⟩

/-- The query for the user packages times out before it prints anything. -/
def timedOut (command : Text) : CommandResult :=
  if command = Query.user.command then ⟨none, [], [], false, "Command timed out".toList, "timeout".toList⟩
  else
    let query := if command = Query.versions.command then Query.versions
      else if command = Query.paths.command then Query.paths
      else if command = Query.names.command then Query.names
      else if command = Query.system.command then Query.system else Query.disabled
    ⟨some 0, unlines ((notesOnly.packages.filter (selects query)).map (line query)), [], true, [], []⟩

theorem timedOut_outcome (query : Query) : Outcome notesOnly query (timedOut query.command) := by
  refine ⟨_, List.Perm.refl _, ?_⟩
  cases query with
  | user => exact .inr ⟨rfl, List.nil_prefix⟩
  | _ => exact .inl ⟨rfl, rfl⟩

def timedOutAnswers : Answers notesOnly := ⟨timedOut, timedOut_outcome⟩

/-- A user app is listed as a system app, because a query that failed looks like one without results. -/
theorem user_listed_as_system :
    ¬ ∀ (u : Tables) (d : Device) (a : Answers d) (includeSystem : Bool),
      Truthful d includeSystem (listPackages u a.shell includeSystem) := by
  intro h
  obtain hnothing | htell := (truthful_iff_tell timedOutAnswers true).mp (h asciiTables notesOnly timedOutAnswers true)
  · have hdelivers : delivers timedOut .versions = true := by decide +kernel
    have hfirst : delivers timedOut .versions = false := hnothing.1
    rw [hdelivers] at hfirst
    cases hfirst
  · exact absurd (htell.user notes List.mem_cons_self rfl) List.not_mem_nil

end OpenAdb.Apps.DeliveredPackages
