import Mathlib.Data.List.Infix
import Mathlib.Logic.Function.Basic
import OpenAdb.Lib.PackageName
import OpenAdb.Lib.PyLines

namespace OpenAdb.Privilege.PackageDetails

open OpenAdb.Lib.PyText OpenAdb.Lib.PyLines OpenAdb.Lib.PackageName

/-- Beside the tables of the parser, `[[:space:]]` of the device and `str.isdigit`. -/
structure Tables extends VisibleTables where
  blank : Char → Bool
  digit : Char → Bool
  blank_visible : ∀ c : Char, 33 ≤ c.toNat → c.toNat ≤ 126 → blank c = false
  digit_ascii : ∀ c : Char, c.isDigit = true → digit c = true

inductive Field
  | versionName | versionCode | appLabel
  deriving DecidableEq

def Field.all : List Field := [.versionName, .versionCode, .appLabel]

/-- What a line of `dumpsys` begins with. -/
def Field.key : Field → Text
  | versionName => "versionName=".toList
  | versionCode => "versionCode=".toList
  | appLabel => "nonLocalizedLabel=".toList

def Field.marker : Field → Text
  | versionName => "OPENADB_VERSION_NAME:".toList
  | versionCode => "OPENADB_VERSION_CODE:".toList
  | appLabel => "OPENADB_LABEL:".toList

def packageMarker : Text := "OPENADB_PACKAGE:".toList

def endMarker : Text := "OPENADB_END".toList

abbrev Row := Field × Text

section Script

variable (u : Tables)

/-- What the expression of a field leaves of the line after its key. -/
def capture (field : Field) (rest : Text) : Option Text :=
  match field with
  | .versionCode => if rest.takeWhile Char.isDigit = [] then none else some (rest.takeWhile Char.isDigit)
  | _ => some rest

def substitute (field : Field) (line : Text) : Option Row :=
  let rest := line.dropWhile u.blank
  if field.key <+: rest then (capture field (rest.drop field.key.length)).map (Prod.mk field) else none

/-- What is printed of a line. A line that one expression has changed begins with its marker, and
no other expression changes it again. -/
def sedLine (line : Text) : Option Row := Field.all.findSome? (fun field => substitute u field line)

def printed (row : Row) : Text := row.1.marker ++ row.2

/-- The lines that end with a line end, and what follows the last of them. -/
def terminated (text : Text) : List Text := (text.splitOn '\n').dropLast

def loose (text : Text) : Text := (text.splitOn '\n').getLast?.getD []

/-- A last line without a line end is printed without one. -/
def sedOutput (text : Text) : Text :=
  unlines (((terminated text).filterMap (sedLine u)).map printed) ++ ((sedLine u (loose text)).map printed).getD []

/-- What the script of `_package_details_script` prints, where `dump` is the output of `dumpsys`. -/
def scriptOutput (package_names : List Text) (dump : Text → Text) : Text :=
  package_names.flatMap (fun p =>
    packageMarker ++ p ++ ['\n'] ++ sedOutput u (dump p) ++ endMarker ++ ['\n'])

end Script

structure Details where
  versionName : Option Text := none
  versionCode : Option Text := none
  appLabel : Option Text := none
  deriving DecidableEq

section Parser

variable (u : Tables)

def isdigit (value : Text) : Bool := !value.isEmpty && value.all u.digit

def cleanLabel (value : Text) : Text := rstripChar '"' (lstripChar '"' (strip u.toUnicodeData value))

def isLabel (value : Text) : Bool := value ≠ [] && casefold u.toUnicodeData value ≠ "null".toList

/-- A field that is there already is kept. -/
def enter (details : Details) (row : Row) : Details :=
  match row.1 with
  | .versionName =>
    if details.versionName.isNone then { details with versionName := some (strip u.toUnicodeData row.2) } else details
  | .versionCode =>
    if details.versionCode.isNone && isdigit u (strip u.toUnicodeData row.2) then
      { details with versionCode := some (strip u.toUnicodeData row.2) }
    else details
  | .appLabel =>
    if details.appLabel.isNone && isLabel u (cleanLabel u row.2) then
      { details with appLabel := some (cleanLabel u row.2) }
    else details

/-- `line.split(":", 1)[1]` -/
def afterColon (line : Text) : Text := (line.dropWhile (· ≠ ':')).drop 1

def fieldOf (line : Text) : Option Field := Field.all.find? (fun field => field.marker.isPrefixOf line)

structure Reading where
  parsed : Text → Option Details
  current : Text

def readLine (expected : List Text) (s : Reading) (raw_line : Text) : Reading :=
  let line := strip u.toUnicodeData raw_line
  if packageMarker.isPrefixOf line then
    let candidate := strip u.toUnicodeData (afterColon line)
    let current := if candidate ∈ expected then candidate else []
    if current = [] then { s with current }
    else ⟨Function.update s.parsed current (some ((s.parsed current).getD {})), current⟩
  else if line = endMarker then { s with current := [] }
  else if s.current = [] then s
  else
    match fieldOf line with
    | none => s
    | some field =>
      let details := (s.parsed s.current).map (fun details => enter u details (field, afterColon line))
      { s with parsed := Function.update s.parsed s.current details }

def parsePackageDetails (output : Text) (expected : List Text) : Text → Option Details :=
  ((splitlines output).foldl (readLine u expected) ⟨fun _ => none, []⟩).parsed

end Parser

/-- The packages of a request, each of them once. -/
structure Requested where
  names : List Text
  valid : ∀ p ∈ names, ValidPackage p
  nodup : names.Nodup

section Property

variable (u : Tables)

/-- What the lines of a text say about the fields. -/
def said (text : Text) : List Row := (text.splitOn '\n').filterMap (sedLine u)

def values (field : Field) (rows : List Row) : List Text := (rows.filter (·.1 = field)).map Prod.snd

/-- The first version name, the first version code and the first label of the rows. -/
def firsts (rows : List Row) : Details where
  versionName := ((values .versionName rows).map (strip u.toUnicodeData)).head?
  versionCode := ((values .versionCode rows).map (strip u.toUnicodeData)).find? (isdigit u)
  appLabel := ((values .appLabel rows).map (cleanLabel u)).find? (isLabel u)

variable (ps : Requested) (dump : Text → Text)

def details : Text → Option Details := parsePackageDetails u (scriptOutput u ps.names dump) ps.names

/-- Each package has the details that its own text gives. -/
def Exact : Prop := ∀ p ∈ ps.names, details u ps dump p = some (firsts u (said u (dump p)))

/-- No text ends with a printed line without a line end, and all that is printed of the lines is
made of these characters. -/
def Over (allowed : Char → Prop) : Prop :=
  ∀ p ∈ ps.names, sedLine u (loose (dump p)) = none ∧ ∀ row ∈ said u (dump p), ∀ c ∈ row.2, allowed c

end Property

variable {u : Tables}

/-! Details -/

theorem values_cons (field : Field) (row : Row) (rows : List Row) :
    values field (row :: rows) = if row.1 = field then row.2 :: values field rows else values field rows := by
  rw [values, List.filter_cons]
  by_cases h : row.1 = field
  · rw [if_pos h, if_pos (decide_eq_true h), List.map_cons]
    rfl
  · rw [if_neg h, if_neg (by simpa using h)]
    rfl

/-- The fields that are there, and the others from the rows. -/
def Details.orFirsts (u : Tables) (details : Details) (rows : List Row) : Details where
  versionName := details.versionName.or (firsts u rows).versionName
  versionCode := details.versionCode.or (firsts u rows).versionCode
  appLabel := details.appLabel.or (firsts u rows).appLabel

theorem enter_orFirsts (details : Details) (row : Row) (rows : List Row) :
    (enter u details row).orFirsts u rows = details.orFirsts u (row :: rows) := by
  obtain ⟨field, value⟩ := row
  obtain ⟨versionName, versionCode, appLabel⟩ := details
  cases field with
  | versionName => cases versionName <;> simp [Details.orFirsts, enter, firsts, values_cons]
  | versionCode =>
    cases versionCode with
    | none =>
      by_cases h : isdigit u (strip u.toUnicodeData value) = true
      · simp [Details.orFirsts, enter, firsts, values_cons, h]
      · simp [Details.orFirsts, enter, firsts, values_cons, h]
    | some _ => simp [Details.orFirsts, enter, firsts, values_cons]
  | appLabel =>
    cases appLabel with
    | none =>
      by_cases h : isLabel u (cleanLabel u value) = true
      · simp [Details.orFirsts, enter, firsts, values_cons, h]
      · simp [Details.orFirsts, enter, firsts, values_cons, h]
    | some _ => simp [Details.orFirsts, enter, firsts, values_cons]

theorem foldl_enter (details : Details) (rows : List Row) :
    rows.foldl (enter u) details = details.orFirsts u rows := by
  induction rows generalizing details with
  | nil => simp [Details.orFirsts, firsts, values]
  | cons row rows ih => rw [List.foldl_cons, ih, enter_orFirsts]

theorem foldl_enter_empty (rows : List Row) : rows.foldl (enter u) {} = firsts u rows := by
  rw [foldl_enter]
  rfl

theorem enter_rdropWhile (details : Details) (field : Field) (value : Text) :
    enter u details (field, value.rdropWhile u.isSpace) = enter u details (field, value) := by
  have hclean : cleanLabel u (value.rdropWhile u.isSpace) = cleanLabel u value := by
    rw [cleanLabel, strip_rdropWhile, cleanLabel]
  cases field <;> simp only [enter, hclean, strip_rdropWhile]

/-! Lines -/

theorem strip_marked {s : Text} (hhead : ∀ c ∈ s.head?, u.isSpace c = false) (value : Text) :
    strip u.toUnicodeData (s ++ ':' :: value) = s ++ ':' :: value.rdropWhile u.isSpace := by
  have hcolon : u.isSpace ':' = false := u.isSpace_visible ':' (by decide) (by decide)
  have hdrop : (s ++ ':' :: value).dropWhile u.isSpace = s ++ ':' :: value := by
    cases s with
    | nil => rw [List.nil_append, List.dropWhile_cons_of_neg (by simp [hcolon])]
    | cons c s => rw [List.cons_append, List.dropWhile_cons_of_neg (by simp [hhead c rfl])]
  rw [strip, hdrop, rdropWhile_append_cons u.isSpace hcolon]

theorem afterColon_append {s : Text} (h : ':' ∉ s) (value : Text) : afterColon (s ++ ':' :: value) = value := by
  have hall : ∀ c ∈ s, decide (c ≠ ':') = true := fun c hc => decide_eq_true (ne_of_mem_of_not_mem hc h)
  rw [afterColon, List.dropWhile_append_of_pos hall]
  rfl

theorem marker_eq (field : Field) : ∃ s, field.marker = 'O' :: s ++ [':'] ∧ ':' ∉ s := by
  cases field
  · exact ⟨"PENADB_VERSION_NAME".toList, rfl, by decide⟩
  · exact ⟨"PENADB_VERSION_CODE".toList, rfl, by decide⟩
  · exact ⟨"PENADB_LABEL".toList, rfl, by decide⟩

theorem isSpace_O : u.isSpace 'O' = false := u.isSpace_visible 'O' (by decide) (by decide)

theorem strip_printed (row : Row) :
    strip u.toUnicodeData (printed row) = printed (row.1, row.2.rdropWhile u.isSpace) := by
  obtain ⟨s, hmarker, -⟩ := marker_eq row.1
  rw [printed, printed, hmarker, List.append_assoc, List.append_assoc]
  exact strip_marked (s := 'O' :: s) (by simp [isSpace_O]) row.2

theorem afterColon_printed (row : Row) : afterColon (printed row) = row.2 := by
  obtain ⟨s, hmarker, hcolon⟩ := marker_eq row.1
  rw [printed, hmarker, List.append_assoc]
  exact afterColon_append (s := 'O' :: s) (by simp [hcolon]) row.2

theorem fieldOf_printed (row : Row) : fieldOf (printed row) = some row.1 := by
  obtain ⟨field, value⟩ := row
  cases field <;> rfl

theorem packageMarker_printed (row : Row) : packageMarker.isPrefixOf (printed row) = false := by
  obtain ⟨field, value⟩ := row
  cases field <;> rfl

theorem printed_ne_endMarker (row : Row) : printed row ≠ endMarker := by
  intro h
  have hcolon : ':' ∈ endMarker := by
    obtain ⟨s, hmarker, -⟩ := marker_eq row.1
    rw [← h, printed, hmarker]
    simp
  exact absurd hcolon (by decide)

theorem readLine_printed {expected : List Text} {parsed : Text → Option Details} {p : Text} (hp : p ≠ [])
    (row : Row) : readLine u expected ⟨parsed, p⟩ (printed row) =
      ⟨Function.update parsed p ((parsed p).map (enter u · row)), p⟩ := by
  have hfield := fieldOf_printed (row.1, row.2.rdropWhile u.isSpace)
  rw [readLine, strip_printed]
  dsimp only
  rw [packageMarker_printed, if_neg Bool.false_ne_true, if_neg (printed_ne_endMarker _), if_neg hp, hfield,
    afterColon_printed]
  simp only [enter_rdropWhile]

theorem readLine_package {ps : Requested} {parsed : Text → Option Details} {current p : Text} (hp : p ∈ ps.names) :
    readLine u ps.names ⟨parsed, current⟩ (packageMarker ++ p) =
      ⟨Function.update parsed p (some ((parsed p).getD {})), p⟩ := by
  have hvalid := ps.valid p hp
  have hstrip : strip u.toUnicodeData (packageMarker ++ p) = packageMarker ++ p := by
    have h := strip_marked (u := u) (s := "OPENADB_PACKAGE".toList) (by simp [isSpace_O]) p
    rw [List.rdropWhile_eq_self_iff.mpr] at h
    · exact h
    · intro hne
      rw [isSpace_packageChar (hvalid.2 _ (List.getLast_mem hne))]
      exact Bool.false_ne_true
  have hafter : afterColon (packageMarker ++ p) = p :=
    afterColon_append (s := "OPENADB_PACKAGE".toList) (by decide) p
  have hlead : packageMarker.isPrefixOf (packageMarker ++ p) = true :=
    List.isPrefixOf_iff_prefix.mpr (List.prefix_append _ _)
  rw [readLine, hstrip]
  dsimp only
  rw [hafter, strip_package hvalid, if_pos hlead, if_pos hp, if_neg hvalid.1]

theorem readLine_end {expected : List Text} (s : Reading) :
    readLine u expected s endMarker = { s with current := [] } := by
  have hstrip : strip u.toUnicodeData endMarker = endMarker := by
    apply strip_unspaced (u := u.toVisibleTables)
    intro c hc
    have hrange : ∀ c ∈ endMarker, 33 ≤ c.toNat ∧ c.toNat ≤ 126 := List.forall_iff_forall_mem.mp (by decide)
    exact u.isSpace_visible c (hrange c hc).1 (hrange c hc).2
  rw [readLine, hstrip]
  rfl

/-- The lines of a section. -/
def sectionLines (p : Text) (rows : List Row) : List Text := (packageMarker ++ p) :: rows.map printed ++ [endMarker]

theorem foldl_rows {expected : List Text} {parsed : Text → Option Details} {p : Text} (hp : p ≠ []) (details : Details)
    (rows : List Row) : (rows.map printed).foldl (readLine u expected) ⟨Function.update parsed p (some details), p⟩ =
      ⟨Function.update parsed p (some (rows.foldl (enter u) details)), p⟩ := by
  induction rows generalizing details with
  | nil => rfl
  | cons row rows ih =>
    rw [List.map_cons, List.foldl_cons, readLine_printed hp, Function.update_self, Function.update_idem]
    exact ih (enter u details row)

theorem foldl_section {ps : Requested} {parsed : Text → Option Details} {current p : Text} (hp : p ∈ ps.names)
    (hnew : parsed p = none) (rows : List Row) :
    (sectionLines p rows).foldl (readLine u ps.names) ⟨parsed, current⟩ =
      ⟨Function.update parsed p (some (firsts u rows)), []⟩ := by
  rw [sectionLines, List.cons_append, List.foldl_cons, readLine_package hp, hnew, Option.getD_none, List.foldl_append,
    foldl_rows (ps.valid p hp).1, foldl_enter_empty, List.foldl_cons, readLine_end, List.foldl_nil]

/-- A section for each of the packages. -/
theorem foldl_sections {ps : Requested} (rows : Text → List Row) {names : List Text} (hnames : ∀ p ∈ names, p ∈ ps.names)
    (hnodup : names.Nodup) {s : Reading} (hnew : ∀ p ∈ names, s.parsed p = none) (q : Text) :
    ((names.flatMap (fun p => sectionLines p (rows p))).foldl (readLine u ps.names) s).parsed q =
      if q ∈ names then some (firsts u (rows q)) else s.parsed q := by
  induction names generalizing s with
  | nil => rfl
  | cons p names ih =>
    obtain ⟨hp, hnames⟩ := List.forall_mem_cons.mp hnames
    obtain ⟨hpnew, hnew⟩ := List.forall_mem_cons.mp hnew
    obtain ⟨hnot, hnodup⟩ := List.nodup_cons.mp hnodup
    have hrest : ∀ q ∈ names, Function.update s.parsed p (some (firsts u (rows p))) q = none := by
      intro q hq
      rw [Function.update_of_ne (ne_of_mem_of_not_mem hq hnot), hnew q hq]
    rw [List.flatMap_cons, List.foldl_append, foldl_section hp hpnew, ih hnames hnodup hrest]
    by_cases hq : q = p
    · subst hq
      rw [if_neg hnot, if_pos List.mem_cons_self]
      exact Function.update_self _ _ _
    · simp only [List.mem_cons, hq, false_or]
      rw [Function.update_of_ne hq]

/-! The output -/

theorem splitOn_eq (text : Text) : text.splitOn '\n' = terminated text ++ [loose text] := by
  have hne := List.splitOn_ne_nil '\n' text
  rw [terminated, loose, List.getLast?_eq_some_getLast hne, Option.getD_some, List.dropLast_append_getLast hne]

theorem said_eq {text : Text} (h : sedLine u (loose text) = none) :
    said u text = (terminated text).filterMap (sedLine u) := by
  rw [said, splitOn_eq, List.filterMap_append, List.filterMap_cons, h]
  simp

theorem sedOutput_eq {text : Text} (h : sedLine u (loose text) = none) :
    sedOutput u text = unlines ((said u text).map printed) := by
  rw [sedOutput, said_eq h, h]
  simp

theorem scriptOutput_eq {names : List Text} {dump : Text → Text} (h : ∀ p ∈ names, sedLine u (loose (dump p)) = none) :
    scriptOutput u names dump = unlines (names.flatMap (fun p => sectionLines p (said u (dump p)))) := by
  induction names with
  | nil => rfl
  | cons p names ih =>
    obtain ⟨hp, hnames⟩ := List.forall_mem_cons.mp h
    have hrest := ih hnames
    rw [scriptOutput] at hrest ⊢
    rw [List.flatMap_cons, List.flatMap_cons, unlines_append, hrest, sedOutput_eq hp, sectionLines,
      unlines_append, unlines]
    simp [unlines]

theorem mem_of_mem_sedLine {line : Text} {row : Row} (h : sedLine u line = some row) {c : Char} (hc : c ∈ row.2) :
    c ∈ line := by
  obtain ⟨field, -, hfield⟩ := List.exists_of_findSome?_eq_some h
  rw [substitute] at hfield
  by_cases hkey : field.key <+: line.dropWhile u.blank
  · rw [if_pos hkey, Option.map_eq_some_iff] at hfield
    obtain ⟨value, hvalue, rfl⟩ := hfield
    have hrest : value.Sublist ((line.dropWhile u.blank).drop field.key.length) := by
      cases field with
      | versionName => exact Option.some.inj hvalue ▸ List.Sublist.refl _
      | appLabel => exact Option.some.inj hvalue ▸ List.Sublist.refl _
      | versionCode =>
        rw [capture] at hvalue
        split_ifs at hvalue
        exact Option.some.inj hvalue ▸ List.takeWhile_sublist _
    exact (List.dropWhile_sublist _).subset ((List.drop_sublist _ _).subset (hrest.subset hc))
  · rw [if_neg hkey] at hfield
    cases hfield

theorem newline_not_mem_said {text : Text} {row : Row} (h : row ∈ said u text) : '\n' ∉ row.2 := by
  obtain ⟨line, hline, hrow⟩ := List.mem_filterMap.mp h
  exact fun hc => not_mem_of_mem_splitOn hline (mem_of_mem_sedLine hrow hc)

theorem marker_unbroken (field : Field) : ∀ c ∈ field.marker, isLineBreak c = false := by
  cases field
  · exact List.forall_iff_forall_mem.mp (by decide)
  · exact List.forall_iff_forall_mem.mp (by decide)
  · exact List.forall_iff_forall_mem.mp (by decide)

theorem sectionLines_unbroken {p : Text} {rows : List Row} (hp : ValidPackage p)
    (hrows : ∀ row ∈ rows, ∀ c ∈ row.2, isLineBreak c = false) :
    ∀ line ∈ sectionLines p rows, ∀ c ∈ line, isLineBreak c = false := by
  have hpackage : ∀ c ∈ packageMarker ++ p, isLineBreak c = false := by
    intro c hc
    obtain hc | hc := List.mem_append.mp hc
    · exact (List.forall_iff_forall_mem.mp (by decide) : ∀ c ∈ packageMarker, isLineBreak c = false) c hc
    · have hrange := packageChar_range (hp.2 c hc)
      simp [isLineBreak]
      omega
  have hprinted : ∀ line ∈ rows.map printed, ∀ c ∈ line, isLineBreak c = false := by
    rw [List.forall_mem_map]
    intro row hrow c hc
    obtain hc | hc := List.mem_append.mp hc
    · exact marker_unbroken row.1 c hc
    · exact hrows row hrow c hc
  have hend : ∀ c ∈ endMarker, isLineBreak c = false := List.forall_iff_forall_mem.mp (by decide)
  rw [sectionLines, List.forall_mem_append, List.forall_mem_cons, List.forall_mem_singleton]
  exact ⟨⟨hpackage, hprinted⟩, hend⟩

variable {ps : Requested} {dump : Text → Text} {allowed : Char → Prop}

theorem exact_of_over (hallowed : ∀ c, allowed c → c ≠ '\n' → isLineBreak c = false) (h : Over u ps dump allowed) :
    Exact u ps dump := by
  intro p hp
  have hlines : ∀ line ∈ ps.names.flatMap (fun p => sectionLines p (said u (dump p))), ∀ c ∈ line,
      isLineBreak c = false := by
    intro line hline
    obtain ⟨q, hq, hline⟩ := List.mem_flatMap.mp hline
    refine sectionLines_unbroken (ps.valid q hq) (fun row hrow c hc => ?_) line hline
    exact hallowed c ((h q hq).2 row hrow c hc) (ne_of_mem_of_not_mem hc (newline_not_mem_said hrow))
  rw [details, parsePackageDetails, scriptOutput_eq (fun q hq => (h q hq).1), splitlines_unlines hlines,
    foldl_sections (fun p => said u (dump p)) (fun _ hq => hq) ps.nodup (fun _ _ => rfl), if_pos hp]

/-! A version name with line breaks in it -/

theorem two_valid : ∀ p ∈ [['a'], ['b']], ValidPackage p := List.forall_iff_forall_mem.mp (by decide)

def twoPackages : Requested := ⟨[['a'], ['b']], two_valid, by decide⟩

/-- A version name that pretends to be a section of the package `b`. -/
def pretending (c : Char) : Text := '1' :: c :: (packageMarker ++ 'b' :: c :: printed (.versionName, ['2']))

def pretendingDump (c : Char) (p : Text) : Text :=
  if p = ['a'] then Field.versionName.key ++ pretending c ++ ['\n'] else []

section Pretending

variable {c : Char}

theorem sedLine_nil : sedLine u [] = none := rfl

theorem sedLine_versionName (value : Text) :
    sedLine u (Field.versionName.key ++ value) = some (.versionName, value) := by
  have hblank : u.blank 'v' = false := u.blank_visible 'v' (by decide) (by decide)
  have hdrop : (Field.versionName.key ++ value).dropWhile u.blank = Field.versionName.key ++ value := by
    have hkey : Field.versionName.key = 'v' :: "ersionName=".toList := rfl
    rw [hkey, List.cons_append, List.dropWhile_cons_of_neg (by rw [hblank]; exact Bool.false_ne_true)]
  have hsub : substitute u .versionName (Field.versionName.key ++ value) = some (.versionName, value) := by
    rw [substitute, hdrop, if_pos (List.prefix_append _ _), List.drop_left]
    rfl
  rw [sedLine, Field.all, List.findSome?_cons, hsub]

theorem splitOn_pretending (hc : c ≠ '\n') : (pretendingDump c ['a']).splitOn '\n' =
    [Field.versionName.key ++ pretending c, []] := by
  have hplain : '\n' ∉ Field.versionName.key ++ '1' :: (packageMarker ++ 'b' :: printed (.versionName, ['2'])) := by
    decide
  have hmem : '\n' ∉ Field.versionName.key ++ pretending c := by
    intro h
    apply hplain
    simpa [pretending, hc.symm] using h
  rw [pretendingDump, if_pos rfl, List.splitOn_append_cons_self_of_not_mem hmem]
  rfl

theorem over_pretending (hvisible : ∀ c : Char, 32 ≤ c.toNat → c.toNat ≤ 126 → allowed c) (hc : c ≠ '\n')
    (hallowed : allowed c) : Over u twoPackages (pretendingDump c) allowed := by
  have hsplit := splitOn_pretending hc
  have hwords : ∀ d ∈ '1' :: (packageMarker ++ 'b' :: printed (.versionName, ['2'])), 32 ≤ d.toNat ∧ d.toNat ≤ 126 :=
    List.forall_iff_forall_mem.mp (by decide)
  have hchars : ∀ d ∈ pretending c, allowed d := by
    intro d hd
    by_cases heq : d = c
    · exact heq ▸ hallowed
    · have hmem : d ∈ '1' :: (packageMarker ++ 'b' :: printed (.versionName, ['2'])) := by
        simpa [pretending, heq] using hd
      exact hvisible d (hwords d hmem).1 (hwords d hmem).2
  have hattacker : sedLine u (loose (pretendingDump c ['a'])) = none ∧
      ∀ row ∈ said u (pretendingDump c ['a']), ∀ d ∈ row.2, allowed d := by
    rw [loose, said, hsplit, List.filterMap_cons, sedLine_versionName, List.filterMap_cons, sedLine_nil]
    exact ⟨rfl, by simpa using hchars⟩
  have hvictim : sedLine u (loose (pretendingDump c ['b'])) = none ∧
      ∀ row ∈ said u (pretendingDump c ['b']), ∀ d ∈ row.2, allowed d := by
    refine ⟨rfl, ?_⟩
    intro row hrow
    cases hrow
  rw [Over, twoPackages, List.forall_mem_cons, List.forall_mem_singleton]
  exact ⟨hattacker, hvictim⟩

/-- The lines that the parser finds. -/
theorem splitlines_pretending (hc : c ≠ '\n') (hbreak : isLineBreak c = true) :
    splitlines (scriptOutput u twoPackages.names (pretendingDump c)) =
      [packageMarker ++ ['a'], printed (.versionName, ['1']), packageMarker ++ ['b'], printed (.versionName, ['2']),
        endMarker, packageMarker ++ ['b'], endMarker] := by
  have hover : Over u twoPackages (pretendingDump c) (fun _ => True) :=
    over_pretending (fun _ _ _ => trivial) hc trivial
  have hloose : ∀ p ∈ twoPackages.names, sedLine u (loose (pretendingDump c p)) = none := fun p hp =>
    (hover p hp).1
  have hsections : twoPackages.names.flatMap (fun p => sectionLines p (said u (pretendingDump c p))) =
      [packageMarker ++ ['a'], printed (.versionName, pretending c), endMarker, packageMarker ++ ['b'], endMarker] := by
    have hattacker : said u (pretendingDump c ['a']) = [(.versionName, pretending c)] := by
      rw [said, splitOn_pretending hc, List.filterMap_cons, sedLine_versionName]
      rfl
    have hvictim : said u (pretendingDump c ['b']) = [] := rfl
    rw [twoPackages, List.flatMap_cons, List.flatMap_singleton, hattacker, hvictim]
    rfl
  have hpieces : ∀ rest, printed (.versionName, pretending c) ++ '\n' :: rest =
      printed (.versionName, ['1']) ++ c :: ((packageMarker ++ ['b']) ++ c ::
        (printed (.versionName, ['2']) ++ '\n' :: rest)) := by
    intro rest
    simp [printed, pretending]
  have hplain : ∀ line ∈ [packageMarker ++ ['a'], printed (.versionName, ['1']), packageMarker ++ ['b'],
      printed (.versionName, ['2'])], ∀ d ∈ line, isLineBreak d = false :=
    List.forall_iff_forall_mem.mp ⟨List.forall_iff_forall_mem.mp (by decide), List.forall_iff_forall_mem.mp (by decide),
      List.forall_iff_forall_mem.mp (by decide), List.forall_iff_forall_mem.mp (by decide)⟩
  have htail : ∀ line ∈ [endMarker, packageMarker ++ ['b'], endMarker], ∀ d ∈ line, isLineBreak d = false :=
    List.forall_iff_forall_mem.mp ⟨List.forall_iff_forall_mem.mp (by decide), List.forall_iff_forall_mem.mp (by decide),
      List.forall_iff_forall_mem.mp (by decide)⟩
  rw [scriptOutput_eq hloose, hsections, splitlines, unlines_cons, splitlinesFrom_append (hplain _ (by simp)),
    unlines_cons, hpieces, splitlinesFrom_break (hplain _ (by simp)) hbreak (fun _ h => by cases h),
    splitlinesFrom_break (hplain _ (by simp)) hbreak (fun _ h => by cases h), splitlinesFrom_append (hplain _ (by simp))]
  exact congrArg _ (congrArg _ (congrArg _ (congrArg _ (splitlines_unlines htail))))

theorem not_exact_pretending (hc : c ≠ '\n') (hbreak : isLineBreak c = true) :
    ¬ Exact u twoPackages (pretendingDump c) := by
  intro h
  have hb := h ['b'] (by decide)
  have hmemA : ['a'] ∈ twoPackages.names := by decide
  have hmemB : ['b'] ∈ twoPackages.names := by decide
  rw [details, parsePackageDetails, splitlines_pretending hc hbreak] at hb
  simp only [List.foldl_cons, List.foldl_nil, readLine_package hmemA, readLine_package hmemB, readLine_end,
    readLine_printed (List.cons_ne_nil _ _)] at hb
  have hown : said u (pretendingDump c ['b']) = [] := rfl
  rw [hown, Function.update_self] at hb
  simp [Function.update_self, Function.update_of_ne, enter, firsts, values] at hb

end Pretending

/-- Characters that an app may use in its version name and label, the visible ones among them. -/
structure Alphabet where
  allowed : Char → Prop
  visible : ∀ c : Char, 32 ≤ c.toNat → c.toNat ≤ 126 → allowed c

def asciiBlank (c : Char) : Bool := c.toNat = 32 || (9 ≤ c.toNat && c.toNat ≤ 13)

theorem asciiBlank_visible (c : Char) (hlow : 33 ≤ c.toNat) (hhigh : c.toNat ≤ 126) : asciiBlank c = false := by
  simp [asciiBlank]
  omega

theorem isDigit_self (c : Char) (h : c.isDigit = true) : c.isDigit = true := h

def Tables.ascii : Tables where
  toVisibleTables := .ascii
  blank := asciiBlank
  digit := Char.isDigit
  blank_visible := asciiBlank_visible
  digit_ascii := isDigit_self

end OpenAdb.Privilege.PackageDetails
