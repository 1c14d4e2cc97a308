import OpenAdb.Lib.PyLines
import Mathlib.Algebra.Order.Ring.Nat
import Mathlib.Data.Bool.AllAny
import Mathlib.Data.List.Sort

namespace OpenAdb.Files.Listing

open OpenAdb.Lib.PyText OpenAdb.Lib.PyLines

/-- The character tables with some more rows of ASCII and the line breaks. -/
structure Tables extends UnicodeData where
  isSpace_blank : isSpace ' ' = true
  isSpace_visible : ∀ c : Char, 33 ≤ c.toNat → c.toNat ≤ 126 → isSpace c = false
  isSpace_lineBreak : ∀ c, isLineBreak c = true → isSpace c = true
  decimal_digit : ∀ c : Char, c.isDigit = true → (decimal c).isSome = true

/-- `int` of a text without blanks: a sign, and decimal digits that single
underscores may group. -/
def parseInt (u : UnicodeData) (s : Text) : Option Int :=
  let signed := match s with
    | '-' :: digits => (true, digits)
    | '+' :: digits => (false, digits)
    | digits => (false, digits)
  let groups := signed.2.splitOn '_'
  if groups.all (isdecimal u) && groups.flatten.length ≤ 4300 then
    let n : Int := intOfDigits u groups.flatten
    some (if signed.1 then -n else n)
  else none

def joinAndroidPath (parent child : Text) : Text :=
  let name := rstripChar '/' (lstripChar '/' child)
  if parent = ['/'] then '/' :: name else rstripChar '/' parent ++ '/' :: name

inductive ItemType
  | folder | file
  deriving DecidableEq

structure FileItem where
  name : Text
  path : Text
  isDir : Bool
  size : Option Int
  modified : Text
  itemType : ItemType
  permissions : Text
  deriving DecidableEq

def arrow : Text := [' ', '-', '>', ' ']

/-- The columns of size, time and name; the name comes too early where the size
is no number. -/
def sizeTimeName (u : UnicodeData) (line : Text) (parts : List Text) : Option Int × Text × Text :=
  match parseInt u (parts.getD 4 []) with
  | some n => (some n, [' '].intercalate ((parts.drop 5).take 2), parts.getD 7 [])
  | none => (none, [], (splitWords u 5 line).getD 5 [])

/-- `_parse_ls_line`. -/
def parseLsLine (u : UnicodeData) (line parent : Text) : Option FileItem :=
  let line := rstrip u line
  let parts := splitWords u 7 line
  if line = [] || "total ".toList.isPrefixOf line || parts.length < 6 then none
  else
    let permissions := parts.getD 0 []
    let isDir := permissions.head? = some 'd'
    let columns := sizeTimeName u line parts
    let name := textBefore arrow columns.2.2
    if name = [] then none
    else some
      { name := name
        path := joinAndroidPath parent name
        isDir := isDir
        size := columns.1
        modified := columns.2.1
        itemType := if isDir then .folder else .file
        permissions := permissions }

def dirMarker : Text := "OPENADB_DIR:".toList

def storageMarker : Text := "OPENADB_STORAGE:".toList

/-- A line without an item, like those of "." and "..", is none. -/
def listedItem (u : UnicodeData) (directoryNames : List Text) (path line : Text) : Option FileItem :=
  match parseLsLine u line path with
  | none => none
  | some item =>
    if item.name = ['.'] ∨ item.name = ['.', '.'] then none
    else if item.name ∈ directoryNames then
      some { item with isDir := true, itemType := .folder, size := none }
    else some item

def directoryNames (u : UnicodeData) (lines : List Text) : List Text :=
  (lines.filter dirMarker.isPrefixOf).filterMap (fun line =>
    let name := strip u (line.drop dirMarker.length)
    if name = [] then none else some name)

def lsLines (lines : List Text) : List Text :=
  lines.filter (fun line => !dirMarker.isPrefixOf line && !storageMarker.isPrefixOf line)

def storageLine (lines : List Text) : Option Text :=
  ((lines.filter (fun line => !dirMarker.isPrefixOf line && storageMarker.isPrefixOf line)).getLast?).map
    (·.drop storageMarker.length)

/-- Folders come first, and within them and within the files the names without case. -/
def itemOrder (lower : Text → Text) (a b : FileItem) : Bool :=
  if a.isDir = b.isDir then decide (¬ lower b.name < lower a.name) else a.isDir

/-- `_parse_file_listing_output`. -/
def parseFileListingOutput {S : Type} (u : UnicodeData) (lower : Text → Text) (parseDfLine : Text → S)
    (noStorage : S) (stdout androidPath : Text) : List FileItem × S :=
  let lines := splitlines stdout
  let items := (lsLines lines).filterMap (listedItem u (directoryNames u lines) androidPath)
  (items.mergeSort (itemOrder lower), ((storageLine lines).map parseDfLine).getD noStorage)

inductive Kind
  | file
  | directory
  | link (target : Text) (toDirectory : Bool)
  | device (block : Bool) (major minor : Nat)
  deriving DecidableEq

def Kind.isDirectory : Kind → Bool
  | .directory => true
  | .link _ toDirectory => toDirectory
  | _ => false

def Kind.letter : Kind → Char
  | .file => '-'
  | .directory => 'd'
  | .link _ _ => 'l'
  | .device block _ _ => if block then 'b' else 'c'

variable (u : Tables)

def Word (s : Text) : Prop := s ≠ [] ∧ ∀ c ∈ s, u.isSpace c = false

/-- What a line of `ls -la` has besides the kind and the name; a column is
followed by one blank and by those that align the next one. -/
structure Row where
  mode : Text
  links : Nat
  owner : Text
  group : Text
  size : Nat
  date : Text
  time : Text
  alignment : Nat → Nat
  mode_word : Word u mode
  owner_word : Word u owner
  group_word : Word u group
  date_word : Word u date
  time_word : Word u time
  size_lt : size < 2 ^ 63

def LegalName (name : Text) : Prop :=
  name ≠ [] ∧ '/' ∉ name ∧ Char.ofNat 0 ∉ name ∧ name ≠ ['.'] ∧ name ≠ ['.', '.']

structure Entry extends Row u where
  name : Text
  kind : Kind
  name_legal : LegalName name

/-- A directory, with the rows of itself and of its parent. -/
structure Directory where
  blocks : Nat
  self : Row u
  parent : Row u
  entries : List (Entry u)
  names_nodup : (entries.map Entry.name).Nodup

variable {u}

def sizeColumns (size : Nat) : Kind → List Text
  | .device _ major minor => [(Nat.repr major).toList ++ [','], (Nat.repr minor).toList]
  | _ => [(Nat.repr size).toList]

def columns (row : Row u) (kind : Kind) : List Text :=
  (kind.letter :: row.mode) :: (Nat.repr row.links).toList :: row.owner :: row.group ::
    (sizeColumns row.size kind ++ [row.date, row.time])

def aligned (alignment : Nat → Nat) : List Text → Text → Text
  | [], rest => rest
  | column :: columns, rest =>
    column ++ (List.replicate (alignment columns.length + 1) ' ' ++ aligned alignment columns rest)

def shownName (name : Text) : Kind → Text
  | .link target _ => name ++ (arrow ++ target)
  | _ => name

def lsLine (row : Row u) (kind : Kind) (name : Text) : Text :=
  aligned row.alignment (columns row kind) (shownName name kind)

def Entry.line (e : Entry u) : Text := lsLine e.toRow e.kind e.name

def totalLine (blocks : Nat) : Text := "total ".toList ++ (Nat.repr blocks).toList

/-- The command prints the lines of `ls` in its order, and then in the order of
the patterns a marker for whatever is a directory. -/
def Output (dir : Directory u) (stdout : Text) : Prop :=
  ∃ rows markers : List Text,
    rows.Perm (lsLine dir.self .directory ['.'] :: lsLine dir.parent .directory ['.', '.'] ::
      dir.entries.map Entry.line) ∧
    markers.Perm ((dir.entries.filter (·.kind.isDirectory)).map (fun e => dirMarker ++ e.name)) ∧
    stdout = unlines (totalLine dir.blocks :: rows ++ markers)

/-- The name, as far as a line can show one. -/
structure Presentable (u : Tables) (name : Text) : Prop where
  unbroken : ∀ c ∈ name, isLineBreak c = false
  head : ∀ c ∈ name.head?, u.isSpace c = false
  arrow : ¬ arrow <:+: name

def EndsVisibly (u : Tables) (name : Text) : Prop := ∀ c ∈ name.getLast?, u.isSpace c = false

/-- What the rest of a line must be for its name to be read. -/
def Readable (u : Tables) (name : Text) : Kind → Prop
  | .device _ _ _ => False
  | .link target toDirectory =>
    ¬ arrow <:+: name ++ arrow.dropLast ∧ (∀ c ∈ target, isLineBreak c = false) ∧
      (∃ c ∈ target, u.isSpace c = false) ∧ (toDirectory = true → EndsVisibly u name)
  | _ => EndsVisibly u name

/-- An entry whose line shows its name, and for a folder its marker too. -/
def Legible (e : Entry u) : Prop := Presentable u e.name ∧ Readable u e.name e.kind

variable {row : Row u} {kind : Kind} {name : Text}

theorem forall_mem_some {α : Type} {p : α → Prop} {o : Option α} {a : α} (h : o = some a) (ha : p a) :
    ∀ c ∈ o, p c := by
  intro c hc
  rw [h] at hc
  cases hc
  exact ha

theorem arrow_unbroken : arrow.all (isLineBreak · = false) = true := by decide

theorem dirMarker_unbroken : dirMarker.all (isLineBreak · = false) = true := by decide

theorem total_unbroken : "total ".toList.all (isLineBreak · = false) = true := by decide

theorem isDigit_of_mem_repr {n : Nat} {c : Char} (h : c ∈ (Nat.repr n).toList) : c.isDigit = true := by
  rw [Nat.toList_repr] at h
  exact Nat.isDigit_of_mem_toDigits (by decide) (by decide) h

theorem isSpace_digit {c : Char} (h : c.isDigit = true) : u.isSpace c = false := by
  obtain ⟨hlow, hhigh⟩ := Char.isDigit_iff_toNat.mp h
  exact u.isSpace_visible c (by simp at hlow; omega) (by simp at hhigh; omega)

theorem word_repr (n : Nat) : Word u (Nat.repr n).toList := by
  refine ⟨?_, fun c hc => isSpace_digit (isDigit_of_mem_repr hc)⟩
  rw [Nat.toList_repr]
  exact List.ne_nil_of_length_pos Nat.length_toDigits_pos

theorem parseInt_repr {n : Nat} (h : n < 2 ^ 63) :
    (parseInt u.toUnicodeData (Nat.repr n).toList).isSome = true := by
  have hdigit : ∀ c ∈ (Nat.repr n).toList, c.isDigit = true := fun c hc => isDigit_of_mem_repr hc
  have hlength : (Nat.repr n).toList.length ≤ 4300 := by
    rw [Nat.toList_repr]
    have hle := (Nat.length_toDigits_le_iff (b := 10) (k := 19) (by decide) (by decide)).mpr
      (Nat.lt_of_lt_of_le h (by decide))
    omega
  have hnone : '_' ∉ (Nat.repr n).toList := fun hc => absurd (hdigit _ hc) (by decide)
  have hgroups : (Nat.repr n).toList.splitOn '_' = [(Nat.repr n).toList] :=
    List.splitOn_eq_singleton hnone
  have hdecimal : isdecimal u.toUnicodeData (Nat.repr n).toList = true := by
    rw [isdecimal, Bool.and_eq_true, List.all_eq_true]
    exact ⟨by simp, fun c hc => u.decimal_digit c (hdigit c hc)⟩
  cases hs : (Nat.repr n).toList with
  | nil => exact absurd hs (word_repr (u := u) n).1
  | cons c rest =>
    rw [hs] at hdigit hlength hgroups hdecimal
    have hc := hdigit c List.mem_cons_self
    have hminus : c ≠ '-' := by
      intro h
      rw [h] at hc
      exact absurd hc (by decide)
    have hplus : c ≠ '+' := by
      intro h
      rw [h] at hc
      exact absurd hc (by decide)
    rw [List.length_cons] at hlength
    simp [parseInt, hminus, hplus, hgroups, hdecimal]
    omega

theorem word_columns (hkind : ∀ block major minor, kind ≠ .device block major minor) :
    ∀ column ∈ columns row kind, Word u column := by
  have hsize : sizeColumns row.size kind = [(Nat.repr row.size).toList] := by
    cases kind with
    | device block major minor => exact absurd rfl (hkind block major minor)
    | _ => rfl
  have hvisible : 33 ≤ kind.letter.toNat ∧ kind.letter.toNat ≤ 126 := by
    cases kind with
    | device block major minor => exact absurd rfl (hkind block major minor)
    | _ => simp [Kind.letter]
  have hletter : u.isSpace kind.letter = false := u.isSpace_visible _ hvisible.1 hvisible.2
  rw [columns, hsize]
  have hmode : Word u (kind.letter :: row.mode) :=
    ⟨by simp, List.forall_mem_cons.mpr ⟨hletter, row.mode_word.2⟩⟩
  simp only [List.singleton_append, List.forall_mem_cons, List.not_mem_nil, false_implies,
    implies_true, and_true]
  exact ⟨hmode, word_repr _, row.owner_word, row.group_word, word_repr _, row.date_word,
    row.time_word⟩

theorem aligned_append (alignment : Nat → Nat) (cols : List Text) (rest : Text) :
    aligned alignment cols rest = aligned alignment cols [] ++ rest := by
  induction cols with
  | nil => rfl
  | cons column cols ih =>
    rw [aligned, ih, aligned]
    simp

/-- The columns are split off, and the name is left. -/
theorem splitWords_aligned (alignment : Nat → Nat) {cols : List Text} (h : ∀ column ∈ cols, Word u column)
    (n : Nat) (rest : Text) :
    splitWords u.toUnicodeData (cols.length + n) (aligned alignment cols rest) =
      cols ++ splitWords u.toUnicodeData n rest := by
  induction cols with
  | nil => simp [aligned]
  | cons column cols ih =>
    obtain ⟨⟨hne, hword⟩, hcols⟩ := List.forall_mem_cons.mp h
    have hlength : (column :: cols).length + n = cols.length + n + 1 := by
      simp only [List.length_cons]
      omega
    rw [hlength, aligned, splitWords_cons hne hword (by simp), ih hcols, List.cons_append]
    intro c hc
    rw [List.eq_of_mem_replicate hc]
    exact u.isSpace_blank

/-- What is left of the end of a line: the name, or the name before its arrow. -/
theorem shownName_read (hhead : ∀ c ∈ name.head?, u.isSpace c = false) (hne : name ≠ [])
    (harrow : ¬ arrow <:+: name) (hread : Readable u name kind) :
    ∃ shown, rstrip u.toUnicodeData (shownName name kind) = shown ∧ shown ≠ [] ∧
      (∀ c ∈ shown.head?, u.isSpace c = false) ∧ textBefore arrow shown = name := by
  have hplain : EndsVisibly u name → ∃ shown, rstrip u.toUnicodeData name = shown ∧ shown ≠ [] ∧
      (∀ c ∈ shown.head?, u.isSpace c = false) ∧ textBefore arrow shown = name := fun hend =>
    ⟨name, rstrip_of_getLast hend, hne, hhead, textBefore_self harrow⟩
  cases kind with
  | file => exact hplain hread
  | directory => exact hplain hread
  | device block major minor => exact absurd hread id
  | link target toDirectory =>
    obtain ⟨hfirst, -, ⟨c, hc, hspace⟩, -⟩ := hread
    refine ⟨name ++ (arrow ++ rstrip u.toUnicodeData target), ?_, by simp [hne], ?_, ?_⟩
    · rw [shownName, rstrip_append ⟨c, List.mem_append_right arrow hc, hspace⟩,
        rstrip_append ⟨c, hc, hspace⟩]
    · rw [List.head?_append_of_ne_nil _ hne]
      exact hhead
    · exact textBefore_append hfirst (by decide)

theorem visible_shownName (hhead : ∀ c ∈ name.head?, u.isSpace c = false) (hne : name ≠ []) :
    ∃ c ∈ shownName name kind, u.isSpace c = false := by
  cases name with
  | nil => exact absurd rfl hne
  | cons c name =>
    refine ⟨c, ?_, hhead c rfl⟩
    cases kind with
    | link target toDirectory => simp [shownName]
    | _ => simp [shownName]

theorem Readable.not_device (h : Readable u name kind) :
    ∀ block major minor, kind ≠ .device block major minor := by
  intro block major minor hkind
  rw [hkind] at h
  exact h

/-- The line of a name that can be read is read as this name. -/
theorem parseLsLine_lsLine (hhead : ∀ c ∈ name.head?, u.isSpace c = false) (hne : name ≠ [])
    (harrow : ¬ arrow <:+: name) (hread : Readable u name kind) (parent : Text) :
    ∃ item, parseLsLine u.toUnicodeData (lsLine row kind name) parent = some item ∧
      item.name = name ∧ item.isDir = decide (kind = .directory) := by
  obtain ⟨shown, hshown, hshownne, hshownhead, hbefore⟩ :=
    shownName_read hhead hne harrow hread
  have hwords := @word_columns u row _ hread.not_device
  have hsize : sizeColumns row.size kind = [(Nat.repr row.size).toList] := by
    cases kind with
    | device block major minor => exact absurd rfl (hread.not_device block major minor)
    | _ => rfl
  have hstrip : rstrip u.toUnicodeData (lsLine row kind name) =
      aligned row.alignment (columns row kind) shown := by
    rw [lsLine, aligned_append, rstrip_append (visible_shownName hhead hne), hshown,
      ← aligned_append]
  have hcolumns : columns row kind = [kind.letter :: row.mode, (Nat.repr row.links).toList, row.owner,
      row.group, (Nat.repr row.size).toList, row.date, row.time] := by
    rw [columns, hsize]
    rfl
  have hparts : splitWords u.toUnicodeData 7 (aligned row.alignment (columns row kind) shown) =
      columns row kind ++ [shown] := by
    have hcount : (columns row kind).length + 0 = 7 := by rw [hcolumns]; rfl
    have hsplit := splitWords_aligned row.alignment hwords 0 shown
    rwa [hcount, splitWords_zero hshownne hshownhead] at hsplit
  obtain ⟨n, hn⟩ := Option.isSome_iff_exists.mp (parseInt_repr (u := u) row.size_lt)
  have hcolumn : sizeTimeName u.toUnicodeData (aligned row.alignment (columns row kind) shown)
      (columns row kind ++ [shown]) = (some n, [' '].intercalate [row.date, row.time], shown) := by
    have hfour : (columns row kind ++ [shown]).getD 4 [] = (Nat.repr row.size).toList := by
      rw [hcolumns]
      rfl
    rw [sizeTimeName, hfour, hn, hcolumns]
    rfl
  have hstart : aligned row.alignment (columns row kind) shown ≠ [] ∧
      "total ".toList.isPrefixOf (aligned row.alignment (columns row kind) shown) = false := by
    rw [hcolumns, aligned]
    refine ⟨by simp, ?_⟩
    cases kind with
    | device block major minor => exact absurd rfl (hread.not_device block major minor)
    | _ => rfl
  have hdir : ((columns row kind ++ [shown]).getD 0 []).head? = some 'd' ↔ kind = .directory := by
    rw [hcolumns]
    cases kind with
    | device block major minor => exact absurd rfl (hread.not_device block major minor)
    | _ => simp [Kind.letter]
  have hlength : ¬ (columns row kind ++ [shown]).length < 6 := by
    rw [hcolumns]
    simp
  simp only [parseLsLine, hstrip, hparts, hcolumn, hbefore]
  rw [decide_eq_false hstart.1, hstart.2, decide_eq_false hlength, if_neg (by decide), if_neg hne]
  exact ⟨_, rfl, rfl, decide_eq_decide.mpr hdir⟩

/-- The files and folders that a listing shows. -/
def shownItems (items : List FileItem) : List (Text × Bool) :=
  items.map (fun item => (item.name, item.isDir))

def Directory.contents (dir : Directory u) : List (Text × Bool) :=
  dir.entries.map (fun e => (e.name, e.kind.isDirectory))

theorem listedItem_entry {e : Entry u} (h : Legible e) {names : List Text}
    (hnames : e.name ∈ names ↔ e.kind.isDirectory = true) (path : Text) :
    ∃ item, listedItem u.toUnicodeData names path e.line = some item ∧
      (item.name, item.isDir) = (e.name, e.kind.isDirectory) := by
  obtain ⟨item, hitem, hname, hdir⟩ := parseLsLine_lsLine h.1.head e.name_legal.1
    h.1.arrow h.2 path
  have hdot : ¬ (item.name = ['.'] ∨ item.name = ['.', '.']) := by
    rw [hname]
    exact not_or.mpr ⟨e.name_legal.2.2.2.1, e.name_legal.2.2.2.2⟩
  rw [Entry.line, listedItem, hitem]
  simp only
  rw [if_neg hdot, hname]
  by_cases hin : e.name ∈ names
  · rw [if_pos hin]
    exact ⟨_, rfl, by rw [hnames.mp hin]⟩
  · rw [if_neg hin]
    refine ⟨item, rfl, ?_⟩
    have hkind : e.kind.isDirectory = false := by simpa using fun hd => hin (hnames.mpr hd)
    have hfile : e.kind ≠ .directory := by
      intro hd
      rw [hd] at hkind
      cases hkind
    rw [hname, hdir, hkind, decide_eq_false hfile]

theorem presentable_dots {name : Text} (hname : name = ['.'] ∨ name = ['.', '.']) :
    Presentable u name ∧ EndsVisibly u name := by
  have hdot : u.isSpace '.' = false := u.isSpace_visible '.' (by decide) (by decide)
  obtain h | h := hname
  · subst h
    exact ⟨⟨List.all_iff_forall_prop.mp (by decide), by simpa using hdot, by decide⟩,
      by simpa [EndsVisibly] using hdot⟩
  · subst h
    exact ⟨⟨List.all_iff_forall_prop.mp (by decide), by simpa using hdot, by decide⟩,
      by simpa [EndsVisibly] using hdot⟩

theorem listedItem_dots (self : Row u) {name : Text} (hname : name = ['.'] ∨ name = ['.', '.'])
    (names : List Text) (path : Text) :
    listedItem u.toUnicodeData names path (lsLine self .directory name) = none := by
  have hne : name ≠ [] := by
    obtain h | h := hname <;> simp [h]
  obtain ⟨hshown, hend⟩ := presentable_dots (u := u) hname
  have hread : Readable u name .directory := hend
  obtain ⟨item, hitem, hitemname, -⟩ :=
    @parseLsLine_lsLine u self _ _ hshown.head hne hshown.arrow hread path
  rw [listedItem, hitem]
  simp only
  rw [if_pos (by rwa [hitemname])]

theorem listedItem_total (blocks : Nat) (names : List Text) (path : Text) :
    listedItem u.toUnicodeData names path (totalLine blocks) = none := by
  have hstrip : rstrip u.toUnicodeData (totalLine blocks) =
      "total ".toList ++ rstrip u.toUnicodeData (Nat.repr blocks).toList := by
    obtain ⟨hne, hword⟩ := word_repr (u := u) blocks
    obtain ⟨c, hc⟩ := List.exists_mem_of_ne_nil _ hne
    exact rstrip_append ⟨c, hc, hword c hc⟩
  have hpre : "total ".toList.isPrefixOf
      ("total ".toList ++ rstrip u.toUnicodeData (Nat.repr blocks).toList) = true :=
    List.isPrefixOf_iff_prefix.mpr (List.prefix_append _ _)
  rw [listedItem, parseLsLine]
  simp only [hstrip, hpre, Bool.or_true, Bool.true_or, if_true]

theorem not_lineBreak_of_visible {c : Char} (h : u.isSpace c = false) : isLineBreak c = false := by
  cases hbreak : isLineBreak c with
  | false => rfl
  | true =>
    rw [u.isSpace_lineBreak c hbreak] at h
    cases h

theorem unbroken_aligned (alignment : Nat → Nat) {cols : List Text} (h : ∀ column ∈ cols, Word u column)
    {rest : Text} (hrest : ∀ c ∈ rest, isLineBreak c = false) :
    ∀ c ∈ aligned alignment cols rest, isLineBreak c = false := by
  induction cols with
  | nil => exact hrest
  | cons column cols ih =>
    obtain ⟨⟨-, hword⟩, hcols⟩ := List.forall_mem_cons.mp h
    intro c hc
    rw [aligned] at hc
    obtain hc | hc := List.mem_append.mp hc
    · exact not_lineBreak_of_visible (hword c hc)
    · obtain hc | hc := List.mem_append.mp hc
      · rw [List.eq_of_mem_replicate hc]
        decide
      · exact ih hcols c hc

theorem unbroken_lsLine (hname : ∀ c ∈ name, isLineBreak c = false) (hread : Readable u name kind) :
    ∀ c ∈ lsLine row kind name, isLineBreak c = false := by
  refine unbroken_aligned row.alignment (word_columns hread.not_device) ?_
  cases kind with
  | link target toDirectory =>
    intro c hc
    obtain hc | hc := List.mem_append.mp hc
    · exact hname c hc
    · obtain hc | hc := List.mem_append.mp hc
      · exact List.all_iff_forall_prop.mp arrow_unbroken c hc
      · exact hread.2.1 c hc
  | _ => exact hname

/-- A line of `ls` begins with its letter, so it is no marker. -/
theorem lsLine_not_marker (row : Row u) (kind : Kind) (name : Text) :
    dirMarker.isPrefixOf (lsLine row kind name) = false ∧
      storageMarker.isPrefixOf (lsLine row kind name) = false := by
  rw [lsLine, columns, aligned]
  cases kind with
  | device block major minor => cases block <;> exact ⟨rfl, rfl⟩
  | _ => exact ⟨rfl, rfl⟩

theorem totalLine_not_marker (blocks : Nat) :
    dirMarker.isPrefixOf (totalLine blocks) = false ∧
      storageMarker.isPrefixOf (totalLine blocks) = false :=
  ⟨rfl, rfl⟩

theorem strip_visible {s : Text} (hhead : ∀ c ∈ s.head?, u.isSpace c = false)
    (hend : EndsVisibly u s) : strip u.toUnicodeData s = s := by
  have hdrop : s.dropWhile u.isSpace = s := by
    cases s with
    | nil => rfl
    | cons c s => rw [List.dropWhile_cons_of_neg (by simp [hhead c rfl])]
  rw [strip, hdrop]
  exact rstrip_of_getLast hend

theorem Legible.endsVisibly {e : Entry u} (h : Legible e) (hdir : e.kind.isDirectory = true) :
    EndsVisibly u e.name := by
  have hread := h.2
  cases hkind : e.kind with
  | file =>
    rw [hkind] at hdir
    cases hdir
  | device block major minor =>
    rw [hkind] at hdir
    cases hdir
  | directory =>
    rw [hkind] at hread
    exact hread
  | link target toDirectory =>
    rw [hkind] at hdir hread
    exact hread.2.2.2 hdir

theorem mem_directoryNames {dir : Directory u} (hlegible : ∀ e ∈ dir.entries, Legible e)
    {lines markers : List Text} (hlines : ∀ line ∈ lines, dirMarker.isPrefixOf line = false)
    (hmarkers : markers.Perm ((dir.entries.filter (·.kind.isDirectory)).map (fun e => dirMarker ++ e.name)))
    {e : Entry u} (he : e ∈ dir.entries) :
    e.name ∈ directoryNames u.toUnicodeData (lines ++ markers) ↔ e.kind.isDirectory = true := by
  have hread : ∀ e ∈ dir.entries, e.kind.isDirectory = true →
      strip u.toUnicodeData ((dirMarker ++ e.name).drop dirMarker.length) = e.name := by
    intro e he hdir
    rw [List.drop_left]
    exact strip_visible (hlegible e he).1.head ((hlegible e he).endsVisibly hdir)
  have hnone : lines.filter dirMarker.isPrefixOf = [] := by
    rw [List.filter_eq_nil_iff]
    intro line hline
    simp [hlines line hline]
  rw [directoryNames, List.filter_append, hnone, List.nil_append, List.mem_filterMap]
  constructor
  · intro h
    obtain ⟨marker, hmarker, hname⟩ := h
    obtain ⟨d, hd, rfl⟩ := List.mem_map.mp (hmarkers.mem_iff.mp (List.mem_filter.mp hmarker).1)
    obtain ⟨hmem, hdir⟩ := List.mem_filter.mp hd
    simp only [hread d hmem hdir, d.name_legal.1, if_false, Option.some.injEq] at hname
    rwa [List.inj_on_of_nodup_map dir.names_nodup he hmem hname.symm]
  · intro hdir
    refine ⟨dirMarker ++ e.name, List.mem_filter.mpr ⟨?_, ?_⟩, ?_⟩
    · exact hmarkers.mem_iff.mpr (List.mem_map.mpr ⟨e, List.mem_filter.mpr ⟨he, hdir⟩, rfl⟩)
    · exact List.isPrefixOf_iff_prefix.mpr (List.prefix_append _ _)
    · simp only [hread e he hdir, e.name_legal.1, if_false]

/-- The lines of legible entries give their names and kinds. -/
theorem shownItems_filterMap {entries : List (Entry u)} {names : List Text} {path : Text}
    (h : ∀ e ∈ entries, Legible e ∧ (e.name ∈ names ↔ e.kind.isDirectory = true)) :
    shownItems ((entries.map Entry.line).filterMap (listedItem u.toUnicodeData names path)) =
      entries.map (fun e => (e.name, e.kind.isDirectory)) := by
  induction entries with
  | nil => rfl
  | cons e entries ih =>
    obtain ⟨he, hentries⟩ := List.forall_mem_cons.mp h
    obtain ⟨item, hitem, hshown⟩ := listedItem_entry he.1 he.2 path
    rw [List.map_cons, List.filterMap_cons_some hitem, shownItems, List.map_cons, hshown,
      List.map_cons, ← ih hentries]
    rfl

theorem shownItems_perm {items items' : List FileItem} (h : items.Perm items') :
    (shownItems items).Perm (shownItems items') :=
  h.map _

variable {lower : Text → Text}

/-- The listing shows the directory: its names, each once, and which are folders. -/
def Exact (lower : Text → Text) (dir : Directory u) (stdout androidPath : Text) : Prop :=
  (shownItems (parseFileListingOutput u.toUnicodeData lower id [] stdout androidPath).1).Perm
    dir.contents

theorem exact_of_legible {dir : Directory u} {stdout : Text} (hout : Output dir stdout)
    (hlegible : ∀ e ∈ dir.entries, Legible e) (androidPath : Text) :
    Exact lower dir stdout androidPath := by
  obtain ⟨rows, markers, hrows, hmarkers, hstdout⟩ := hout
  have hrow : ∀ line ∈ rows, (∀ c ∈ line, isLineBreak c = false) ∧
      dirMarker.isPrefixOf line = false ∧ storageMarker.isPrefixOf line = false := by
    intro line hline
    obtain hself | hline := List.mem_cons.mp (hrows.mem_iff.mp hline)
    · obtain ⟨hshown, hend⟩ := presentable_dots (u := u) (.inl rfl)
      exact hself ▸ ⟨unbroken_lsLine hshown.unbroken hend, lsLine_not_marker dir.self _ _⟩
    · obtain hparent | hline := List.mem_cons.mp hline
      · obtain ⟨hshown, hend⟩ := presentable_dots (u := u) (.inr rfl)
        exact hparent ▸ ⟨unbroken_lsLine hshown.unbroken hend, lsLine_not_marker dir.parent _ _⟩
      · obtain ⟨e, he, rfl⟩ := List.mem_map.mp hline
        exact ⟨unbroken_lsLine (hlegible e he).1.unbroken (hlegible e he).2, lsLine_not_marker _ _ _⟩
  have hmarker : ∀ line ∈ markers, (∀ c ∈ line, isLineBreak c = false) ∧
      dirMarker.isPrefixOf line = true := by
    intro line hline
    obtain ⟨e, he, rfl⟩ := List.mem_map.mp (hmarkers.mem_iff.mp hline)
    refine ⟨?_, List.isPrefixOf_iff_prefix.mpr (List.prefix_append _ _)⟩
    intro c hc
    obtain hc | hc := List.mem_append.mp hc
    · exact List.all_iff_forall_prop.mp dirMarker_unbroken c hc
    · exact (hlegible e (List.mem_filter.mp he).1).1.unbroken c hc
  have htotal : ∀ c ∈ totalLine dir.blocks, isLineBreak c = false := by
    intro c hc
    obtain hc | hc := List.mem_append.mp hc
    · exact List.all_iff_forall_prop.mp total_unbroken c hc
    · exact not_lineBreak_of_visible (u := u) ((word_repr dir.blocks).2 c hc)
  have hlines : splitlines stdout = totalLine dir.blocks :: rows ++ markers := by
    rw [hstdout]
    refine splitlines_unlines ?_
    rw [List.cons_append, List.forall_mem_cons, List.forall_mem_append]
    exact ⟨htotal, fun line hline => (hrow line hline).1, fun line hline => (hmarker line hline).1⟩
  have hls : lsLines (totalLine dir.blocks :: rows ++ markers) = totalLine dir.blocks :: rows := by
    have hkept : ∀ line ∈ totalLine dir.blocks :: rows,
        (!dirMarker.isPrefixOf line && !storageMarker.isPrefixOf line) = true := by
      have htotal := totalLine_not_marker dir.blocks
      refine List.forall_mem_cons.mpr ⟨by rw [htotal.1, htotal.2]; rfl, fun line hline => ?_⟩
      rw [(hrow line hline).2.1, (hrow line hline).2.2]
      rfl
    have hgone : ∀ line ∈ markers,
        ¬ (!dirMarker.isPrefixOf line && !storageMarker.isPrefixOf line) = true := by
      intro line hline
      simp [(hmarker line hline).2]
    rw [lsLines, List.filter_append, List.filter_eq_self.mpr hkept, List.filter_eq_nil_iff.mpr hgone,
      List.append_nil]
  have hnames : ∀ e ∈ dir.entries, Legible e ∧ (e.name ∈ directoryNames u.toUnicodeData
      (totalLine dir.blocks :: rows ++ markers) ↔ e.kind.isDirectory = true) := by
    intro e he
    refine ⟨hlegible e he, mem_directoryNames hlegible ?_ hmarkers he⟩
    exact List.forall_mem_cons.mpr ⟨(totalLine_not_marker _).1, fun line hline => (hrow line hline).2.1⟩
  rw [Exact, parseFileListingOutput, hlines]
  simp only [hls]
  refine (shownItems_perm (List.mergeSort_perm _ _)).trans ?_
  rw [List.filterMap_cons_none (listedItem_total dir.blocks _ _)]
  refine (shownItems_perm (hrows.filterMap _)).trans ?_
  rw [List.filterMap_cons_none (listedItem_dots dir.self (.inl rfl) _ _),
    List.filterMap_cons_none (listedItem_dots dir.parent (.inr rfl) _ _), shownItems_filterMap hnames]
  exact List.Perm.refl _

theorem getD_eq_nil_or_mem (parts : List Text) (n : Nat) : parts.getD n [] = [] ∨ parts.getD n [] ∈ parts := by
  rw [List.getD_eq_getElem?_getD]
  cases h : parts[n]? with
  | none => exact .inl rfl
  | some part => exact .inr (List.mem_of_getElem? h)

theorem sizeTimeName_name (v : UnicodeData) (line : Text) :
    (sizeTimeName v line (splitWords v 7 line)).2.2 = [] ∨
      ∃ n, (sizeTimeName v line (splitWords v 7 line)).2.2 ∈ splitWords v n line := by
  rw [sizeTimeName]
  split
  · exact (getD_eq_nil_or_mem _ 7).imp id (fun h => ⟨7, h⟩)
  · exact (getD_eq_nil_or_mem _ 5).imp id (fun h => ⟨5, h⟩)

/-- Only a presentable name can be read from a line. -/
theorem presentable_parseLsLine {line parent : Text} {item : FileItem}
    (hline : ∀ c ∈ line, isLineBreak c = false)
    (h : parseLsLine u.toUnicodeData line parent = some item) : Presentable u item.name := by
  simp only [parseLsLine] at h
  obtain ⟨-, h⟩ := Option.ite_none_left_eq_some.mp h
  obtain ⟨hne, h⟩ := Option.ite_none_left_eq_some.mp h
  cases h
  obtain hnil | ⟨n, hword⟩ := sizeTimeName_name u.toUnicodeData (rstrip u.toUnicodeData line)
  · rw [hnil] at hne
    exact absurd rfl hne
  · obtain ⟨-, hhead, hsub⟩ := splitWords_head hword
    have hpre := prefix_textBefore arrow
      (sizeTimeName u.toUnicodeData (rstrip u.toUnicodeData line)
        (splitWords u.toUnicodeData 7 (rstrip u.toUnicodeData line))).2.2
    refine ⟨?_, ?_, not_infix_textBefore (by decide) _⟩
    · intro c hc
      exact hline c ((List.rdropWhile_prefix _ line).subset (hsub (hpre.subset hc)))
    · intro c hc
      refine hhead c ?_
      obtain ⟨rest, hrest⟩ := hpre
      rw [← hrest, List.head?_append_of_ne_nil _ hne]
      exact hc

theorem presentable_of_exact {dir : Directory u} {stdout androidPath : Text}
    (h : Exact lower dir stdout androidPath) {e : Entry u} (he : e ∈ dir.entries) :
    Presentable u e.name := by
  have hcontents : (e.name, e.kind.isDirectory) ∈ dir.contents := List.mem_map.mpr ⟨e, he, rfl⟩
  obtain ⟨item, hitem, hname⟩ := List.mem_map.mp (h.mem_iff.mpr hcontents)
  rw [parseFileListingOutput, List.mem_mergeSort, List.mem_filterMap] at hitem
  obtain ⟨line, hline, hlisted⟩ := hitem
  have hunbroken := not_lineBreak_of_mem_splitlines (List.mem_filter.mp hline).1
  have hparsed : ∃ parsed, parseLsLine u.toUnicodeData line androidPath = some parsed ∧
      parsed.name = item.name := by
    rw [listedItem] at hlisted
    split at hlisted
    · cases hlisted
    case h_2 parsed hparsed =>
      refine ⟨parsed, hparsed, ?_⟩
      obtain ⟨-, hlisted⟩ := Option.ite_none_left_eq_some.mp hlisted
      split at hlisted <;> cases hlisted <;> rfl
  obtain ⟨parsed, hparsed, hsame⟩ := hparsed
  have hpresentable := presentable_parseLsLine hunbroken hparsed
  rw [hsame] at hpresentable
  rwa [(Prod.mk.inj hname).1] at hpresentable

theorem asciiSpace_lower (c : Char) (h : lowerAscii c) :
    (UnicodeData.ascii.isSpace c || isLineBreak c) = false := by
  have hlow := h.1
  have hhigh := h.2
  simp only [UnicodeData.ascii.isSpace_lower c h, Bool.false_or, isLineBreak]
  simp
  omega

theorem asciiSpace_digit (c : Char) (h : digitOrUnderscore c) :
    (UnicodeData.ascii.isSpace c || isLineBreak c) = false := by
  have hlow : 48 ≤ c.toNat ∧ c.toNat ≤ 95 := by
    obtain h | h := h
    · subst h
      decide
    · omega
  simp only [UnicodeData.ascii.isSpace_digit c h, Bool.false_or, isLineBreak]
  simp
  omega

theorem asciiSpace_blank : (UnicodeData.ascii.isSpace ' ' || isLineBreak ' ') = true := by decide

theorem asciiSpace_visible (c : Char) (hlow : 33 ≤ c.toNat) (hhigh : c.toNat ≤ 126) :
    (UnicodeData.ascii.isSpace c || isLineBreak c) = false := by
  simp [UnicodeData.ascii, isLineBreak]
  omega

theorem asciiSpace_lineBreak (c : Char) (h : isLineBreak c = true) :
    (UnicodeData.ascii.isSpace c || isLineBreak c) = true := by simp [h]

theorem asciiDecimal_digit (c : Char) (h : c.isDigit = true) : (UnicodeData.ascii.decimal c).isSome = true := by
  obtain ⟨hlow, hhigh⟩ := Char.isDigit_iff_toNat.mp h
  simp only [UnicodeData.ascii]
  rw [if_pos ⟨by simpa using hlow, by simpa using hhigh⟩]
  rfl

/-- The tables of ASCII and of the line breaks. -/
def asciiTables : Tables where
  isSpace c := UnicodeData.ascii.isSpace c || isLineBreak c
  decimal := UnicodeData.ascii.decimal
  casefold := UnicodeData.ascii.casefold
  isSpace_lower := asciiSpace_lower
  isSpace_digit := asciiSpace_digit
  decimal_lower := UnicodeData.ascii.decimal_lower
  casefold_lower := UnicodeData.ascii.casefold_lower
  isSpace_blank := asciiSpace_blank
  isSpace_visible := asciiSpace_visible
  isSpace_lineBreak := asciiSpace_lineBreak
  decimal_digit := asciiDecimal_digit

instance (s : Text) : Decidable (Word asciiTables s) :=
  @instDecidableAnd _ _ _ (List.decidableBAll (asciiTables.isSpace · = false) s)

instance (name : Text) : Decidable (LegalName name) :=
  inferInstanceAs (Decidable (_ ∧ _))

def plainRow : Row asciiTables where
  mode := "rw-r--r--".toList
  links := 1
  owner := "root".toList
  group := "root".toList
  size := 42
  date := "2026-08-24".toList
  time := "12:00".toList
  alignment := fun _ => 0
  mode_word := by decide +kernel
  owner_word := by decide +kernel
  group_word := by decide +kernel
  date_word := by decide +kernel
  time_word := by decide +kernel
  size_lt := by decide

/-- A file and a link to a folder. -/
def notesAndCard : Directory asciiTables where
  blocks := 8
  self := plainRow
  parent := plainRow
  entries := [⟨plainRow, "my notes".toList, .file, by decide +kernel⟩,
    ⟨plainRow, "sd".toList, .link "/sdcard".toList true, by decide +kernel⟩]
  names_nodup := by decide

def notesAndCardOutput : Text :=
  unlines (totalLine 8 :: [lsLine plainRow .directory ['.'], lsLine plainRow .directory ['.', '.'],
    lsLine plainRow .file "my notes".toList, lsLine plainRow (.link "/sdcard".toList true) "sd".toList] ++
    [dirMarker ++ "sd".toList])

/-- A file with an arrow in its name is listed under a name that does not exist. -/
def arrowFile : Directory asciiTables where
  blocks := 8
  self := plainRow
  parent := plainRow
  entries := [⟨plainRow, "a -> b".toList, .file, by decide +kernel⟩]
  names_nodup := by simp

end OpenAdb.Files.Listing
