import Mathlib.Data.List.Nodup
import OpenAdb.Commands.Results
import OpenAdb.Lib.JavaText
import OpenAdb.Lib.PackageName
import OpenAdb.Lib.PyLines
import OpenAdb.Lib.Substring

namespace OpenAdb.Acbridge.Export

open OpenAdb.Lib.PyText OpenAdb.Lib.PyLines OpenAdb.Lib.JavaText OpenAdb.Lib.PackageName OpenAdb.Lib.Substring
open OpenAdb.Commands.Results (formatInt)

/-- A backslash, a plus and a backslash. -/
def LABEL_SEPARATOR : Text := ['\\', '+', '\\']

/-- What Android tells of an installed package. The label may fail to load, and there may be no
version name. -/
structure PackageInfo where
  packageName : Text
  label : Option Text
  versionName : Option Text
  versionCode : Int
  size : Nat
  valid : ValidPackage packageName

def cleanLabel (value : Text) : Text := trim (replaceChar '\r' ' ' (replaceChar '\n' ' ' (replaceChar '|' ' ' value)))

def cleanField (value : Option Text) : Text :=
  match value with
  | none => []
  | some value => trim (replaceChar '\r' ' ' (replaceChar '\n' ' ' (replaceChar '\t' ' ' value)))

def exportedLabel (info : PackageInfo) : Text :=
  match info.label with
  | none => info.packageName
  | some value => if cleanLabel value = [] then info.packageName else cleanLabel value

def labelEntry (info : PackageInfo) : Text := info.packageName ++ LABEL_SEPARATOR ++ exportedLabel info

def metadataFields (info : PackageInfo) : List Text :=
  [info.packageName, cleanField info.versionName, formatInt info.versionCode, formatNat info.size]

def metadataEntry (info : PackageInfo) : Text := ['\t'].intercalate (metadataFields info)

/-- The texts of `.acbridge` and of `metadata.tsv`, for the packages in their order. -/
def exportAppData (selectedPackages : List PackageInfo) : Text × Text :=
  (selectedPackages.flatMap (fun info => labelEntry info ++ ['|']), unlines (selectedPackages.map metadataEntry))

section Parsing

variable (u : VisibleTables) (wanted : List Text)

/-- The text is cut at the first occurrence of the separator. -/
def cutAt (separator s : Text) : Option (Text × Text) :=
  if separator <:+: s then
    some (textBefore separator s, s.drop ((textBefore separator s).length + separator.length))
  else none

/-- `" ".join(s.strip().split())` -/
def joinWords (s : Text) : Text :=
  let s := strip u.toUnicodeData s
  [' '].intercalate (splitWords u.toUnicodeData s.length s)

def parseLabel (labels : Text → Option Text) (chunk : Text) : Text → Option Text :=
  match cutAt LABEL_SEPARATOR chunk with
  | none => labels
  | some (package_name, label) =>
    let package_name := strip u.toUnicodeData package_name
    let label := joinWords u label
    if package_name ∈ wanted ∧ label ≠ [] ∧ label ≠ package_name then
      Function.update labels package_name (some label)
    else labels

/-- `_parse_labels`, on the text of the file. -/
def parseLabels (text : Text) : Text → Option Text :=
  ((translateNewlines text).splitOn '|').foldl (parseLabel u wanted) (fun _ => none)

structure AppMetadata where
  versionName : Text
  versionCode : Text
  sizeBytes : Option Text
  deriving DecidableEq

def parseMetadataLine (metadata : Text → Option AppMetadata) (line : Text) : Text → Option AppMetadata :=
  match line.splitOn '\t' with
  | package_name :: versionName :: versionCode :: rest =>
    let package_name := strip u.toUnicodeData package_name
    if package_name ∈ wanted then
      Function.update metadata package_name
        (some ⟨strip u.toUnicodeData versionName, strip u.toUnicodeData versionCode,
          rest.head?.map (strip u.toUnicodeData)⟩)
    else metadata
  | _ => metadata

/-- `_parse_metadata`, on the text of the file. -/
def parseMetadata (text : Text) : Text → Option AppMetadata :=
  (splitlines (translateNewlines text)).foldl (parseMetadataLine u wanted) (fun _ => none)

end Parsing

/-- The requested packages, each of them once. -/
structure Installed where
  packages : List PackageInfo
  nodup : (packages.map PackageInfo.packageName).Nodup

namespace Installed

variable (u : VisibleTables) (e : Installed)

def names : List Text := e.packages.map PackageInfo.packageName

def find (name : Text) : Option PackageInfo := e.packages.find? (fun info => info.packageName = name)

def labels : Text → Option Text := parseLabels u e.names (exportAppData e.packages).1

def metadata : Text → Option AppMetadata := parseMetadata u e.names (exportAppData e.packages).2

/-- The label of the package itself, cleaned by both sides. -/
def ownLabel (info : PackageInfo) : Option Text :=
  (info.label.map (fun value => joinWords u (cleanLabel value))).filter
    (fun label => label ≠ [] ∧ label ≠ info.packageName)

def ownMetadata (info : PackageInfo) : AppMetadata :=
  ⟨strip u.toUnicodeData (cleanField info.versionName), formatInt info.versionCode, some (formatNat info.size)⟩

/-- Each package has its own label and metadata, and there is nothing else. -/
def Decoded : Prop :=
  e.labels u = (fun name => (e.find name).bind (ownLabel u)) ∧
    e.metadata u = (fun name => (e.find name).map (ownMetadata u))

/-- The reader finds no line break inside a version name that the writer has cleaned. -/
def Unbroken : Prop := ∀ info ∈ e.packages, ∀ c ∈ cleanField info.versionName, isLineBreak c = false

/-- One package has another label and another version name. -/
def change (name : Text) (label versionName : Option Text) : Installed where
  packages := e.packages.map (fun info =>
    if info.packageName = name then { info with label := label, versionName := versionName } else info)
  nodup := by
    have hsame : ∀ info : PackageInfo, (if info.packageName = name then
        { info with label := label, versionName := versionName } else info).packageName = info.packageName := by
      intro info
      split <;> rfl
    rw [List.map_map]
    exact (List.map_congr_left (fun info _ => hsame info)) ▸ e.nodup

end Installed

/-! Dictionaries -/

section Updates

variable {V : Type} (own : PackageInfo → Option V)

def enter (d : Text → Option V) (info : PackageInfo) : Text → Option V :=
  match own info with
  | some v => Function.update d info.packageName (some v)
  | none => d

theorem enter_of_ne {d : Text → Option V} {info : PackageInfo} {name : Text} (h : name ≠ info.packageName) :
    enter own d info name = d name := by
  rw [enter]
  cases own info with
  | none => rfl
  | some v => exact Function.update_of_ne h _ _

theorem enter_self {d : Text → Option V} {info : PackageInfo} (h : d info.packageName = none) :
    enter own d info info.packageName = own info := by
  rw [enter]
  cases own info with
  | none => exact h
  | some v => exact Function.update_self _ _ _

/-- Entering every package once gives each of them its own value. -/
theorem foldl_enter {packages : List PackageInfo} (hnodup : (packages.map PackageInfo.packageName).Nodup)
    {d : Text → Option V} (hd : ∀ info ∈ packages, d info.packageName = none) (name : Text) :
    packages.foldl (enter own) d name =
      match packages.find? (fun info => info.packageName = name) with
      | some info => own info
      | none => d name := by
  induction packages generalizing d with
  | nil => rfl
  | cons info packages ih =>
    rw [List.map_cons, List.nodup_cons] at hnodup
    obtain ⟨hinfo, hnodup⟩ := hnodup
    have hother : ∀ other ∈ packages, other.packageName ≠ info.packageName := fun other hmem heq =>
      hinfo (heq ▸ List.mem_map_of_mem hmem)
    have hnext : ∀ other ∈ packages, enter own d info other.packageName = none := fun other hmem => by
      rw [enter_of_ne own (hother other hmem), hd other (List.mem_cons_of_mem _ hmem)]
    rw [List.foldl_cons, ih hnodup hnext]
    by_cases hname : info.packageName = name
    · have hnone : packages.find? (fun other => other.packageName = name) = none := by
        rw [List.find?_eq_none]
        intro other hmem
        rw [decide_eq_true_eq, ← hname]
        exact hother other hmem
      rw [hnone, List.find?_cons_of_pos (by rw [decide_eq_true_eq]; exact hname)]
      rw [← hname]
      exact enter_self own (hd info List.mem_cons_self)
    · rw [List.find?_cons_of_neg (by rw [decide_eq_true_eq]; exact hname), enter_of_ne own (Ne.symm hname)]

end Updates

/-! Labels -/

section Labels

variable {u : VisibleTables} {info : PackageInfo}

theorem not_mem_trim {c : Char} {s : Text} (h : c ∉ s) : c ∉ trim s := fun hmem =>
  h ((List.dropWhile_sublist _).subset ((List.rdropWhile_prefix _ _).subset hmem))

theorem not_mem_cleanLabel {c : Char} (h : c ∈ ['|', '\n', '\r']) (value : Text) : c ∉ cleanLabel value := by
  apply not_mem_trim
  simp only [List.mem_cons, List.not_mem_nil, or_false] at h
  obtain rfl | rfl | rfl := h
  · exact not_mem_replaceChar (by decide) (not_mem_replaceChar (by decide) (not_mem_replaceChar_self (by decide) _))
  · exact not_mem_replaceChar (by decide) (not_mem_replaceChar_self (by decide) _)
  · exact not_mem_replaceChar_self (by decide) _

theorem not_mem_cleanField {c : Char} (h : c ∈ ['\t', '\n', '\r']) (value : Option Text) :
    c ∉ cleanField value := by
  cases value with
  | none => exact List.not_mem_nil
  | some value =>
    apply not_mem_trim
    simp only [List.mem_cons, List.not_mem_nil, or_false] at h
    obtain rfl | rfl | rfl := h
    · exact not_mem_replaceChar (by decide) (not_mem_replaceChar (by decide) (not_mem_replaceChar_self (by decide) _))
    · exact not_mem_replaceChar (by decide) (not_mem_replaceChar_self (by decide) _)
    · exact not_mem_replaceChar_self (by decide) _

theorem not_mem_package {c : Char} (hc : packageChar c = false) (info : PackageInfo) : c ∉ info.packageName := by
  intro hmem
  rw [info.valid.2 c hmem] at hc
  exact Bool.noConfusion hc

theorem not_mem_labelEntry {c : Char} (h : c ∈ ['|', '\n', '\r']) (info : PackageInfo) : c ∉ labelEntry info := by
  have hpackage : c ∉ info.packageName := not_mem_package (by
    simp only [List.mem_cons, List.not_mem_nil, or_false] at h
    obtain rfl | rfl | rfl := h <;> decide) info
  have hseparator : c ∉ LABEL_SEPARATOR := by
    simp only [List.mem_cons, List.not_mem_nil, or_false] at h
    obtain rfl | rfl | rfl := h <;> decide
  have hlabel : c ∉ exportedLabel info := by
    unfold exportedLabel
    split
    · exact hpackage
    · split
      · exact hpackage
      · exact not_mem_cleanLabel h _
  simp [labelEntry, hpackage, hseparator, hlabel]

theorem splitOn_entries {sep : Char} {entries : List Text} (h : ∀ entry ∈ entries, sep ∉ entry) :
    (entries.flatMap (· ++ [sep])).splitOn sep = entries ++ [[]] := by
  induction entries with
  | nil => rfl
  | cons entry entries ih =>
    obtain ⟨hentry, hentries⟩ := List.forall_mem_cons.mp h
    rw [List.flatMap_cons, List.append_assoc, List.singleton_append,
      List.splitOn_append_cons_self_of_not_mem hentry, ih hentries, List.cons_append]

theorem translateNewlines_eq {s : Text} (h : '\r' ∉ s) : translateNewlines s = s := by
  induction s with
  | nil => rfl
  | cons c s ih =>
    have hc : '\r' ≠ c := List.ne_of_not_mem_cons h
    rw [translateNewlines, ih (List.not_mem_of_not_mem_cons h)]
    · exact fun _ heq _ => hc heq.symm
    · exact fun heq => hc heq.symm

theorem cutAt_labelEntry (info : PackageInfo) :
    cutAt LABEL_SEPARATOR (labelEntry info) = some (info.packageName, exportedLabel info) := by
  have hslash : '\\' ∉ info.packageName := not_mem_package (by decide) info
  have hnot : ¬ LABEL_SEPARATOR <:+: info.packageName ++ LABEL_SEPARATOR.dropLast := by
    intro h
    have hcount := h.sublist.count_le '\\'
    rw [List.count_append, List.count_eq_zero_of_not_mem hslash] at hcount
    exact absurd hcount (by decide)
  have hentry : labelEntry info = info.packageName ++ (LABEL_SEPARATOR ++ exportedLabel info) :=
    List.append_assoc _ _ _
  have hbefore : textBefore LABEL_SEPARATOR (labelEntry info) = info.packageName := by
    rw [hentry]
    exact textBefore_append hnot (by decide)
  have hinfix : LABEL_SEPARATOR <:+: labelEntry info := ⟨info.packageName, exportedLabel info, rfl⟩
  rw [cutAt, if_pos hinfix, hbefore, labelEntry, ← List.length_append, List.drop_left]

theorem joinWords_package (info : PackageInfo) : joinWords u info.packageName = info.packageName := by
  obtain ⟨hne, hchars⟩ := info.valid
  have hspace : ∀ c ∈ info.packageName, u.isSpace c = false := fun c hc => isSpace_packageChar (hchars c hc)
  rw [joinWords, strip_package info.valid]
  cases hname : info.packageName with
  | nil => exact absurd hname hne
  | cons c rest =>
    rw [hname] at hspace
    have hc := hspace c List.mem_cons_self
    have hdrop : (c :: rest).dropWhile u.isSpace = c :: rest :=
      List.dropWhile_cons_of_neg (by simp [hc])
    have hall : ∀ d ∈ c :: rest, (!u.isSpace d) = true := fun d hd => by simp [hspace d hd]
    have hend : splitWords u.toUnicodeData rest.length [] = [] := by cases rest.length <;> rfl
    rw [List.length_cons, splitWords, hdrop, if_neg (List.cons_ne_nil _ _), List.takeWhile_eq_self_iff.mpr hall,
      List.dropWhile_eq_nil_iff.mpr hall, hend]
    simp

/-- The writer's fallback to the package name is taken back by the reader. -/
theorem ownLabel_eq (info : PackageInfo) : Installed.ownLabel u info =
    (some (joinWords u (exportedLabel info))).filter (fun label => label ≠ [] ∧ label ≠ info.packageName) := by
  have hself : (some info.packageName).filter (fun label => label ≠ [] ∧ label ≠ info.packageName) = none := by
    simp [Option.filter]
  have hnil : (some ([] : Text)).filter (fun label => label ≠ [] ∧ label ≠ info.packageName) = none := by
    simp [Option.filter]
  unfold Installed.ownLabel exportedLabel
  cases info.label with
  | none => rw [joinWords_package, hself, Option.map_none, Option.filter_none]
  | some value =>
    dsimp only
    rw [Option.map_some]
    split
    · next hclean =>
      have hjoin : joinWords u [] = [] := rfl
      rw [hclean, hjoin, joinWords_package, hself, hnil]
    · rfl

theorem parseLabel_labelEntry {wanted : List Text} (hwanted : info.packageName ∈ wanted) (d : Text → Option Text) :
    parseLabel u wanted d (labelEntry info) = enter (Installed.ownLabel u) d info := by
  rw [parseLabel, cutAt_labelEntry, enter, ownLabel_eq]
  dsimp only
  rw [strip_package info.valid]
  by_cases h : joinWords u (exportedLabel info) ≠ [] ∧ joinWords u (exportedLabel info) ≠ info.packageName
  · rw [if_pos ⟨hwanted, h⟩, Option.filter_some, if_pos (decide_eq_true h)]
  · rw [if_neg (fun hc => h hc.2), Option.filter_some, if_neg (by rwa [decide_eq_true_eq])]

theorem labels_eq (e : Installed) : e.labels u = fun name => (e.find name).bind (Installed.ownLabel u) := by
  have htext : (exportAppData e.packages).1 = (e.packages.map labelEntry).flatMap (· ++ ['|']) := by
    rw [exportAppData, List.flatMap_map]
  have hreturn : '\r' ∉ (exportAppData e.packages).1 := by
    rw [htext]
    simp only [List.mem_flatMap, List.mem_append, List.mem_singleton, not_exists, not_and, not_or]
    intro entry hentry
    obtain ⟨info, -, rfl⟩ := List.mem_map.mp hentry
    exact ⟨not_mem_labelEntry (by decide) info, by decide⟩
  have hentries : ∀ entry ∈ e.packages.map labelEntry, '|' ∉ entry := by
    intro entry hentry
    obtain ⟨info, -, rfl⟩ := List.mem_map.mp hentry
    exact not_mem_labelEntry (by decide) info
  have hempty : ∀ d, parseLabel u e.names d [] = d := fun d => rfl
  have hfold : (e.packages.map labelEntry).foldl (parseLabel u e.names) (fun _ => none) =
      e.packages.foldl (enter (Installed.ownLabel u)) (fun _ => none) := by
    rw [List.foldl_map]
    exact List.foldl_ext _ _ _ (fun d info hinfo => parseLabel_labelEntry (List.mem_map_of_mem hinfo) d)
  funext name
  rw [Installed.labels, parseLabels, translateNewlines_eq hreturn, htext, splitOn_entries hentries,
    List.foldl_append, List.foldl_cons, List.foldl_nil, hempty, hfold,
    foldl_enter _ e.nodup (fun _ _ => rfl), ← Installed.find]
  cases e.find name <;> rfl

end Labels

/-! Metadata -/

section Metadata

variable {u : VisibleTables} {info : PackageInfo}

theorem formatNat_range {n : Nat} {c : Char} (h : c ∈ formatNat n) : 45 ≤ c.toNat ∧ c.toNat ≤ 57 := by
  have hdigit := Char.isDigit_iff_toNat.mp (Nat.isDigit_of_mem_toDigits (by decide) (by decide) h)
  simp at hdigit
  omega

theorem formatInt_range {n : Int} {c : Char} (h : c ∈ formatInt n) : 45 ≤ c.toNat ∧ c.toNat ≤ 57 := by
  have hnat : ∀ m : Nat, c ∈ (Nat.repr m).toList → 45 ≤ c.toNat ∧ c.toNat ≤ 57 := fun m hm =>
    formatNat_range (by rwa [Nat.toList_repr] at hm)
  cases n with
  | ofNat m => exact hnat m h
  | negSucc m =>
    have hrepr : formatInt (Int.negSucc m) = '-' :: (Nat.repr (m + 1)).toList := by
      simp [formatInt, Int.repr]
    rw [hrepr] at h
    obtain rfl | h := List.mem_cons.mp h
    · decide
    · exact hnat (m + 1) h

theorem metadataEntry_eq (info : PackageInfo) : metadataEntry info = info.packageName ++ '\t' ::
    (cleanField info.versionName ++ '\t' :: (formatInt info.versionCode ++ '\t' :: formatNat info.size)) := by
  simp [metadataEntry, metadataFields, List.intercalate, List.intersperse]

/-- A character that the version name may not contribute. -/
theorem mem_metadataEntry {c : Char} (h : c ∈ metadataEntry info) :
    c ∈ cleanField info.versionName ∨ c = '\t' ∨ 45 ≤ c.toNat ∧ c.toNat ≤ 122 := by
  rw [metadataEntry_eq] at h
  simp only [List.mem_append, List.mem_cons] at h
  obtain h | h | h | h | h | h | h := h
  · exact .inr (.inr ⟨by have := packageChar_range (info.valid.2 c h); omega,
      (packageChar_range (info.valid.2 c h)).2⟩)
  · exact .inr (.inl h)
  · exact .inl h
  · exact .inr (.inl h)
  · exact .inr (.inr ⟨(formatInt_range h).1, by have := formatInt_range h; omega⟩)
  · exact .inr (.inl h)
  · exact .inr (.inr ⟨(formatNat_range h).1, by have := formatNat_range h; omega⟩)

theorem not_mem_metadataEntry {c : Char} (h : c ∈ ['\n', '\r']) (info : PackageInfo) : c ∉ metadataEntry info := by
  intro hmem
  have hfield : c ∈ ['\t', '\n', '\r'] := List.mem_cons_of_mem _ h
  have hrange : c.toNat ≤ 13 ∧ c ≠ '\t' := by
    simp only [List.mem_cons, List.not_mem_nil, or_false] at h
    obtain rfl | rfl := h <;> decide
  obtain hc | hc | hc := mem_metadataEntry hmem
  · exact not_mem_cleanField hfield _ hc
  · exact hrange.2 hc
  · omega

theorem tab_not_mem_fields (info : PackageInfo) : ∀ field ∈ metadataFields info, '\t' ∉ field := by
  have htab : ('\t').toNat = 9 := rfl
  simp only [metadataFields, List.forall_mem_cons, List.not_mem_nil, false_implies, implies_true, and_true]
  refine ⟨fun h => ?_, not_mem_cleanField (by decide) _, fun h => ?_, fun h => ?_⟩
  · have := packageChar_range (info.valid.2 _ h)
    omega
  · have := formatInt_range h
    omega
  · have := formatNat_range h
    omega

theorem splitOn_metadataEntry (info : PackageInfo) : (metadataEntry info).splitOn '\t' = metadataFields info :=
  List.splitOn_intercalate '\t' (tab_not_mem_fields info) (List.cons_ne_nil _ _)

theorem parseMetadataLine_entry {wanted : List Text} (hwanted : info.packageName ∈ wanted)
    (d : Text → Option AppMetadata) : parseMetadataLine u wanted d (metadataEntry info) =
      enter (fun info => some (Installed.ownMetadata u info)) d info := by
  have hcode : strip u.toUnicodeData (formatInt info.versionCode) = formatInt info.versionCode :=
    strip_unspaced (fun c hc => by
      have := formatInt_range hc
      exact u.isSpace_visible c (by omega) (by omega))
  have hsize : strip u.toUnicodeData (formatNat info.size) = formatNat info.size :=
    strip_unspaced (fun c hc => by
      have := formatNat_range hc
      exact u.isSpace_visible c (by omega) (by omega))
  rw [parseMetadataLine, splitOn_metadataEntry, metadataFields]
  dsimp only
  rw [strip_package info.valid, if_pos hwanted, hcode]
  simp only [List.head?_cons, Option.map_some, hsize]
  rfl

theorem entry_unbroken (h : ∀ c ∈ cleanField info.versionName, isLineBreak c = false) :
    ∀ c ∈ metadataEntry info, isLineBreak c = false := by
  intro c hc
  obtain hc | rfl | hc := mem_metadataEntry hc
  · exact h c hc
  · decide
  · simp [isLineBreak]
    omega

theorem translate_metadata (e : Installed) :
    translateNewlines (exportAppData e.packages).2 = unlines (e.packages.map metadataEntry) := by
  refine translateNewlines_eq ?_
  simp only [exportAppData, unlines, List.mem_flatMap, List.mem_append, List.mem_singleton, not_exists, not_and,
    not_or]
  intro entry hentry
  obtain ⟨info, -, rfl⟩ := List.mem_map.mp hentry
  exact ⟨not_mem_metadataEntry (by decide) info, by decide⟩

theorem metadata_eq {e : Installed} (h : e.Unbroken) :
    e.metadata u = fun name => (e.find name).map (Installed.ownMetadata u) := by
  have hlines : ∀ line ∈ e.packages.map metadataEntry, ∀ c ∈ line, isLineBreak c = false := by
    intro line hline
    obtain ⟨info, hinfo, rfl⟩ := List.mem_map.mp hline
    exact entry_unbroken (h info hinfo)
  have hfold : (e.packages.map metadataEntry).foldl (parseMetadataLine u e.names) (fun _ => none) =
      e.packages.foldl (enter (fun info => some (Installed.ownMetadata u info))) (fun _ => none) := by
    rw [List.foldl_map]
    exact List.foldl_ext _ _ _ (fun d info hinfo => parseMetadataLine_entry (List.mem_map_of_mem hinfo) d)
  funext name
  rw [Installed.metadata, parseMetadata, translate_metadata, splitlines_unlines hlines, hfold,
    foldl_enter _ e.nodup (fun _ _ => rfl), ← Installed.find]
  cases e.find name <;> rfl

/-- A version name with a line break tears the entry, and no piece has four fields. -/
theorem piece_of_broken {c : Char} (hc : c ∈ cleanField info.versionName) (hbreak : isLineBreak c = true)
    {line : Text} (h : line ∈ splitlines (metadataEntry info ++ ['\n'])) : (line.splitOn '\t').length < 4 := by
  obtain ⟨v₁, v₂, hversion⟩ := List.append_of_mem hc
  have hnot : c ∉ line := fun hmem => by
    rw [not_lineBreak_of_mem_splitlines h c hmem] at hbreak
    exact Bool.false_ne_true hbreak
  have hentry : metadataEntry info ++ ['\n'] = (info.packageName ++ '\t' :: v₁) ++ c ::
      (v₂ ++ '\t' :: (formatInt info.versionCode ++ '\t' :: (formatNat info.size ++ ['\n']))) := by
    rw [metadataEntry_eq, hversion]
    simp
  obtain ⟨hname, hfield, hcode, hsize⟩ : '\t' ∉ info.packageName ∧ '\t' ∉ cleanField info.versionName ∧
      '\t' ∉ formatInt info.versionCode ∧ '\t' ∉ formatNat info.size := by
    have htabs := tab_not_mem_fields info
    exact ⟨htabs _ (by simp [metadataFields]), htabs _ (by simp [metadataFields]),
      htabs _ (by simp [metadataFields]), htabs _ (by simp [metadataFields])⟩
  rw [hversion, List.mem_append, List.mem_cons, not_or, not_or] at hfield
  obtain ⟨hv₁, -, hv₂⟩ := hfield
  have hinfix : line <:+: [] ++ (metadataEntry info ++ ['\n']) := infix_of_mem_splitlinesFrom h
  rw [List.nil_append, hentry] at hinfix
  rw [length_splitOn]
  obtain hline | hline := infix_append_cons hnot hinfix
  · have hcount := hline.sublist.count_le '\t'
    rw [List.count_append, List.count_cons_self, List.count_eq_zero_of_not_mem hname,
      List.count_eq_zero_of_not_mem hv₁] at hcount
    omega
  · have hcount := hline.sublist.count_le '\t'
    rw [List.count_append, List.count_cons_self, List.count_append, List.count_cons_self, List.count_append,
      List.count_eq_zero_of_not_mem hv₂, List.count_eq_zero_of_not_mem hcode,
      List.count_eq_zero_of_not_mem hsize] at hcount
    have hend : List.count '\t' ['\n'] = 0 := by decide
    omega

/-- There is no size for a package. -/
def Sizeless (name : Text) (d : Text → Option AppMetadata) : Prop := ∀ m, d name = some m → m.sizeBytes = none

theorem Sizeless.parseMetadataLine {wanted : List Text} {name line : Text} {d : Text → Option AppMetadata}
    (hd : Sizeless name d) (hline : ∀ field ∈ (line.splitOn '\t').head?, strip u.toUnicodeData field = name →
      (line.splitOn '\t').length < 4) : Sizeless name (parseMetadataLine u wanted d line) := by
  unfold Export.parseMetadataLine
  split
  · next first versionName versionCode rest hsplit =>
    rw [hsplit] at hline
    dsimp only
    split
    · intro m hm
      by_cases hname : strip u.toUnicodeData first = name
      · have hrest : rest = [] := by
          have hlength := hline first rfl hname
          simp only [List.length_cons] at hlength
          exact List.eq_nil_of_length_eq_zero (by omega)
        rw [hname, Function.update_self] at hm
        cases hm
        rw [hrest]
        rfl
      · rw [Function.update_of_ne (Ne.symm hname)] at hm
        exact hd m hm
    · exact hd
  · exact hd

theorem sizeless_of_broken {e : Installed} (hinfo : info ∈ e.packages) {c : Char}
    (hc : c ∈ cleanField info.versionName) (hbreak : isLineBreak c = true) :
    Sizeless info.packageName (e.metadata u) := by
  have hrows : ∀ row ∈ e.packages.map metadataEntry, '\r' ∉ row := by
    intro row hrow
    obtain ⟨other, -, rfl⟩ := List.mem_map.mp hrow
    exact not_mem_metadataEntry (by decide) other
  have hlines : ∀ line ∈ splitlines (unlines (e.packages.map metadataEntry)),
      ∀ field ∈ (line.splitOn '\t').head?, strip u.toUnicodeData field = info.packageName →
        (line.splitOn '\t').length < 4 := by
    intro line hline field hfield hname
    obtain ⟨row, hrow, hmem⟩ := mem_splitlines_unlines hrows hline
    obtain ⟨other, hother, rfl⟩ := List.mem_map.mp hrow
    by_cases hunbroken : ∀ c ∈ cleanField other.versionName, isLineBreak c = false
    · have hself : splitlines (metadataEntry other ++ ['\n']) = [metadataEntry other] := by
        have h : splitlines (unlines [metadataEntry other]) = [metadataEntry other] := splitlines_unlines (by
          rw [List.forall_mem_singleton]
          exact entry_unbroken hunbroken)
        simpa [unlines] using h
      rw [hself, List.mem_singleton] at hmem
      rw [hmem, splitOn_metadataEntry] at hfield
      cases hfield
      rw [strip_package other.valid] at hname
      have hsame := List.inj_on_of_nodup_map e.nodup hother hinfo hname
      rw [hsame] at hunbroken
      rw [hunbroken c hc] at hbreak
      exact absurd hbreak Bool.false_ne_true
    · push Not at hunbroken
      obtain ⟨d, hd, hdbreak⟩ := hunbroken
      exact piece_of_broken hd (by simpa using hdbreak) hmem
  rw [Installed.metadata, parseMetadata, translate_metadata]
  generalize splitlines (unlines (e.packages.map metadataEntry)) = lines at hlines
  have hstart : Sizeless info.packageName (fun _ => none) := fun m hm => absurd hm (by simp)
  generalize (fun _ => none : Text → Option AppMetadata) = d at hstart
  induction lines generalizing d with
  | nil => exact hstart
  | cons line lines ih =>
    obtain ⟨hline, hlines⟩ := List.forall_mem_cons.mp hlines
    exact ih hlines _ (hstart.parseMetadataLine hline)

theorem find_eq {e : Installed} (hinfo : info ∈ e.packages) : e.find info.packageName = some info := by
  cases hfind : e.find info.packageName with
  | none =>
    have hnone := List.find?_eq_none.mp hfind info hinfo
    exact absurd (decide_eq_true rfl) hnone
  | some other =>
    have hname := List.find?_some hfind
    rw [decide_eq_true_eq] at hname
    rw [List.inj_on_of_nodup_map e.nodup (List.mem_of_find?_eq_some hfind) hinfo hname]

/-- The export is decoded just when no version name has a line break inside. -/
theorem decoded_iff (e : Installed) : e.Decoded u ↔ e.Unbroken := by
  constructor
  · intro h info hinfo c hc
    by_contra hbreak
    have hmetadata := congrFun h.2 info.packageName
    rw [find_eq hinfo, Option.map_some] at hmetadata
    have hsize := sizeless_of_broken (u := u) hinfo hc (by simpa using hbreak) _ hmetadata
    exact absurd hsize (Option.some_ne_none _)
  · intro h
    exact ⟨labels_eq e, metadata_eq h⟩

theorem find_change (e : Installed) {name other : Text} (h : other ≠ name) (label versionName : Option Text) :
    (e.change name label versionName).find other = e.find other := by
  rw [Installed.find, Installed.find, Installed.change]
  dsimp only
  induction e.packages with
  | nil => rfl
  | cons info packages ih =>
    rw [List.map_cons]
    by_cases hname : info.packageName = name
    · have hne : info.packageName ≠ other := fun heq => h (heq.symm.trans hname)
      rw [if_pos hname, List.find?_cons_of_neg (by rw [decide_eq_true_eq]; exact hne),
        List.find?_cons_of_neg (by rw [decide_eq_true_eq]; exact hne), ih]
    · rw [if_neg hname, List.find?_cons, List.find?_cons, ih]

/-- What each package is decoded to is its own, and is not changed by the texts of another package,
just when no version name has a line break inside, neither before nor after the change. -/
theorem export_independent_iff (e : Installed) (name : Text) (label versionName : Option Text) :
    ((e.Decoded u ∧ (e.change name label versionName).Decoded u) ∧ ∀ other ≠ name,
        (e.change name label versionName).labels u other = e.labels u other ∧
        (e.change name label versionName).metadata u other = e.metadata u other) ↔
      e.Unbroken ∧ (e.change name label versionName).Unbroken := by
  rw [decoded_iff, decoded_iff]
  refine ⟨And.left, fun h => ⟨h, fun other hother => ?_⟩⟩
  have hfind := find_change e hother label versionName
  rw [labels_eq, labels_eq, metadata_eq h.1, metadata_eq h.2]
  dsimp only
  rw [hfind]
  exact ⟨rfl, rfl⟩

end Metadata

def attackerInfo (versionName : Text) : PackageInfo :=
  ⟨['c', 'o', 'm', '.', 'b'], some ['B'], some versionName, 7, 8, by decide⟩

def victimInfo : PackageInfo := ⟨['c', 'o', 'm', '.', 'a'], some ['A'], some ['1'], 2, 3, by decide⟩

def twoPackages : Installed := ⟨[victimInfo, attackerInfo ['1']], by decide⟩

/-- A line separator in the version name of one package changes the version of another one. -/
theorem version_name_interferes :
    let after := twoPackages.change ['c', 'o', 'm', '.', 'b'] (some ['B'])
      (some ['1', Char.ofNat 0x2028, 'c', 'o', 'm', '.', 'a'])
    (twoPackages.metadata .ascii ['c', 'o', 'm', '.', 'a'] = some ⟨['1'], ['2'], some ['3']⟩ ∧
      after.metadata .ascii ['c', 'o', 'm', '.', 'a'] = some ⟨['7'], ['8'], none⟩) ∧
      ¬ after.Decoded .ascii := by
  refine ⟨⟨by decide +kernel, by decide +kernel⟩, fun h => ?_⟩
  exact absurd (congrFun h.2 ['c', 'o', 'm', '.', 'a']) (by decide +kernel)

end OpenAdb.Acbridge.Export
