import OpenAdb.Icons.Extractor
import OpenAdb.Lib.Runs

namespace OpenAdb.Icons.Ownership

open OpenAdb.Lib.PyText OpenAdb.Lib.Encoding OpenAdb.Lib.Glob OpenAdb.Lib.PackageName OpenAdb.Lib.Runs
open OpenAdb.Icons.Extractor OpenAdb.Icons.Extractor.IconExtractor

variable {u : VisibleTables} {p q name : Text}

/-! Names -/

theorem packageChar_not_reserved {c : Char} (h : packageChar c = true) : reservedInFilename c = false := by
  have hlist : ∀ d ∈ ['<', '>', ':', '"', '/', '\\', '|', '?', '*'], packageChar d = false :=
    List.forall_iff_forall_mem.mp (by decide)
  rw [reservedInFilename, Bool.or_eq_false_iff]
  constructor
  · rw [decide_eq_false_iff_not]
    intro hmem
    rw [hlist c hmem] at h
    exact Bool.false_ne_true h
  · rw [decide_eq_false_iff_not]
    have := packageChar_range h
    omega

theorem packageChar_ne_star {c : Char} (h : packageChar c = true) : c ≠ '*' := by
  rintro rfl
  exact absurd h (by decide)

theorem replaceReserved_plain {a : Text} (h : ∀ c ∈ a, packageChar c = true) : replaceReserved a = a := by
  rw [replaceReserved, List.map_congr_left (g := id), List.map_id]
  intro c hc
  rw [packageChar_not_reserved (h c hc)]
  rfl

theorem replaceReserved_append (a b : Text) : replaceReserved (a ++ b) = replaceReserved a ++ replaceReserved b :=
  List.map_append

theorem safeFilename_package (hp : ValidPackage p) : safeFilename u p = p := by
  rw [safeFilename, strip_package hp, if_neg hp.1, replaceReserved_plain hp.2]

def before (source_key : Text) : Text := if source_key = [] then [] else source_key ++ ['_']

def after (version_code : Text) : Text := if version_code = [] then [] else '_' :: version_code

theorem key_eq (hp : p ≠ []) (version_code source_key : Text) :
    ['_'].intercalate ([CACHE_VERSION, source_key, p, version_code].filter (· ≠ [])) =
      CACHE_VERSION ++ '_' :: (before source_key ++ (p ++ after version_code)) := by
  have hversion : CACHE_VERSION ≠ [] := by decide
  by_cases hsource : source_key = [] <;> by_cases hcode : version_code = [] <;>
    simp [hp, hsource, hcode, hversion, before, after, List.intercalate, List.intersperse]

theorem strip_key (hp : ValidPackage p) (version_code source_key : Text) :
    ∃ tail, (tail = [] ∨ ∃ y, tail = '_' :: y) ∧
      strip u.toUnicodeData (CACHE_VERSION ++ '_' :: (before source_key ++ (p ++ after version_code))) =
        CACHE_VERSION ++ '_' :: (before source_key ++ (p ++ tail)) := by
  have hv : u.isSpace 'v' = false := u.isSpace_visible 'v' (by decide) (by decide)
  have hdrop : ∀ s, strip u.toUnicodeData (CACHE_VERSION ++ s) = (CACHE_VERSION ++ s).rdropWhile u.isSpace :=
    fun s => by
      rw [strip, CACHE_VERSION, List.cons_append, List.dropWhile_cons_of_neg (by rw [hv]; exact Bool.false_ne_true)]
  by_cases hcode : version_code = []
  · refine ⟨[], .inl rfl, ?_⟩
    rw [hdrop, after, if_pos hcode, List.append_nil]
    have h := rdropWhile_append_package (u := u) hp (CACHE_VERSION ++ '_' :: before source_key)
    simpa only [List.append_assoc, List.cons_append] using h
  · refine ⟨'_' :: version_code.rdropWhile u.isSpace, .inr ⟨_, rfl⟩, ?_⟩
    have hline : u.isSpace '_' = false := u.isSpace_digit _ (.inl rfl)
    rw [hdrop, after, if_neg hcode]
    have h := rdropWhile_append_cons u.isSpace hline (CACHE_VERSION ++ '_' :: (before source_key ++ p)) version_code
    simpa only [List.append_assoc, List.cons_append] using h

/-- How the name of a file is composed. -/
def fileName (middle p tail : Text) : Text := CACHE_VERSION ++ ['_'] ++ middle ++ p ++ tail ++ pngSuffix

theorem cacheName_form (hp : ValidPackage p) (version_code source_key : Text) :
    ∃ middle tail, (middle = [] ∨ ∃ x, middle = x ++ ['_']) ∧ (tail = [] ∨ ∃ y, tail = '_' :: y) ∧
      cacheName u p version_code source_key = fileName middle p tail := by
  obtain ⟨tail, htail, hstrip⟩ := strip_key (u := u) hp version_code source_key
  refine ⟨replaceReserved (before source_key), replaceReserved tail, ?_, ?_, ?_⟩
  · rw [before]
    split
    · exact .inl rfl
    · exact .inr ⟨replaceReserved source_key, List.map_append⟩
  · obtain rfl | ⟨y, rfl⟩ := htail
    · exact .inl rfl
    · exact .inr ⟨replaceReserved y, rfl⟩
  · have hne : CACHE_VERSION ++ '_' :: (before source_key ++ (p ++ tail)) ≠ [] := List.cons_ne_nil _ _
    have hplain : replaceReserved p = p := replaceReserved_plain hp.2
    have hversion : replaceReserved (CACHE_VERSION ++ ['_']) = CACHE_VERSION ++ ['_'] := by decide
    have hsplit : CACHE_VERSION ++ '_' :: (before source_key ++ (p ++ tail)) =
        (CACHE_VERSION ++ ['_']) ++ (before source_key ++ (p ++ tail)) := by simp
    simp only [cacheName, key_eq hp.1, safeFilename, hstrip, if_neg hne, fileName]
    rw [hsplit, replaceReserved_append, hversion, replaceReserved_append, replaceReserved_append, hplain]
    simp only [List.append_assoc]

theorem glob_literal {a rest t : Text} (ha : ∀ c ∈ a, c ≠ '*')
    (h : matchesPattern (globPattern rest) t = true) :
    matchesPattern (globPattern (a ++ rest)) (a ++ t) = true := by
  have hglob : globPattern a = a.map some := List.map_congr_left (fun c hc => if_neg (ha c hc))
  rw [globPattern, List.map_append, ← globPattern, hglob, matches_literal]
  exact ⟨t, rfl, h⟩

theorem glob_star {rest t : Text} (x : Text) (h : matchesPattern (globPattern rest) t = true) :
    matchesPattern (globPattern ('*' :: rest)) (x ++ t) = true :=
  matches_star.mpr ⟨x, t, rfl, h⟩

theorem glob_png : matchesPattern (globPattern pngSuffix) pngSuffix = true := by decide

theorem namedLike_fileName (hp : ValidPackage p) {middle tail : Text}
    (hmiddle : middle = [] ∨ ∃ x, middle = x ++ ['_']) (htail : tail = [] ∨ ∃ y, tail = '_' :: y) :
    namedLike u p (fileName middle p tail) = true := by
  have hstart : ∀ c ∈ CACHE_VERSION ++ ['_'], c ≠ '*' := List.forall_iff_forall_mem.mp (by decide)
  have hline : ∀ c ∈ ['_'], c ≠ '*' := List.forall_iff_forall_mem.mp (by decide)
  have hpackage : ∀ c ∈ p, c ≠ '*' := fun c hc => packageChar_ne_star (hp.2 c hc)
  rw [namedLike, scanPatterns, safeFilename_package hp]
  simp only [List.map_cons, List.map_nil, List.any_cons, List.any_nil, Bool.or_eq_true]
  obtain rfl | ⟨x, rfl⟩ := hmiddle <;> obtain rfl | ⟨y, rfl⟩ := htail
  · refine .inl ?_
    have h := glob_literal hstart (glob_literal hpackage glob_png)
    simpa only [fileName, List.append_assoc, List.append_nil] using h
  · refine .inr (.inl ?_)
    have h := glob_literal hstart (glob_literal hpackage (glob_literal hline (glob_star y glob_png)))
    simpa only [fileName, List.append_assoc, List.cons_append, List.nil_append, List.append_nil] using h
  · refine .inr (.inr (.inl ?_))
    have h := glob_literal hstart (glob_star x (glob_literal hline (glob_literal hpackage glob_png)))
    simpa only [fileName, List.append_assoc, List.cons_append, List.nil_append, List.append_nil] using h
  · refine .inr (.inr (.inr (.inl ?_)))
    have h := glob_literal hstart (glob_star x (glob_literal hline (glob_literal hpackage
      (glob_literal hline (glob_star y glob_png)))))
    simpa only [fileName, List.append_assoc, List.cons_append, List.nil_append, List.append_nil] using h

theorem namedLike_cacheName (hp : ValidPackage p) (version_code source_key : Text) :
    namedLike u p (cacheName u p version_code source_key) = true := by
  obtain ⟨middle, tail, hmiddle, htail, heq⟩ := cacheName_form (u := u) hp version_code source_key
  rw [heq]
  exact namedLike_fileName hp hmiddle htail

/-! Calls -/

/-- What the calls of a run may be about: what is stored, and what is asked for. -/
structure Names where
  stored : (package_name version_code source_key : Text) → Prop
  asked : (package_name : Text) → Prop
  stored_valid : ∀ {q version_code source_key}, stored q version_code source_key → ValidPackage q
  asked_valid : ∀ {p}, asked p → ValidPackage p

namespace Names

variable (names : Names)

def Permits : Call → Prop
  | .importIconBytes q version_code source_key _ _ _ _ => names.stored q version_code source_key
  | .importPreRenderedIconBatch icons _ _ =>
    ∀ icon ∈ icons, names.stored icon.package_name icon.version_code icon.source_key
  | .extractFromApk _ q version_code _ _ => names.stored q version_code []
  | .cachedIconPath p _ _ _ _ => names.asked p
  | .refreshRoot _ => True
  | .clearCache _ _ => True

/-- A name of a file in which a call for the package may write. -/
def Written (u : VisibleTables) (q name : Text) : Prop :=
  ∃ version_code source_key, names.stored q version_code source_key ∧
    (name = cacheName u q version_code source_key ∨
      ∃ thread, name = tempName (cacheName u q version_code source_key) thread)

/-- No file of one package is named like a file of another one that is asked for. -/
def Distinct (u : VisibleTables) : Prop :=
  ∀ p q name, names.asked p → names.Written u q name → namedLike u p name = true → q = p

end Names

def step (u : VisibleTables) (s : IconExtractor) (call : Call) : Option IconExtractor := some (call.run u s)

/-- An icon that is handed out was last stored for the package that asked. -/
def Own (u : VisibleTables) (s : IconExtractor) : Call → Prop
  | .cachedIconPath p version_code source_keys times write =>
    let result := s.cachedIconPath u p version_code source_keys times write
    ∀ path ∈ result.1, (result.2.files.lookup path).map (·.owner) = some p
  | _ => True

instance (u : VisibleTables) (s : IconExtractor) : ∀ call, Decidable (Own u s call)
  | .cachedIconPath p version_code source_keys times write =>
    inferInstanceAs (Decidable (∀ path ∈ (s.cachedIconPath u p version_code source_keys times write).1,
      ((s.cachedIconPath u p version_code source_keys times write).2.files.lookup path).map (·.owner) = some p))
  | .importIconBytes _ _ _ _ _ _ _ => .isTrue trivial
  | .importPreRenderedIconBatch _ _ _ => .isTrue trivial
  | .extractFromApk _ _ _ _ _ => .isTrue trivial
  | .refreshRoot _ => .isTrue trivial
  | .clearCache _ _ => .isTrue trivial

/-! Entries -/

section Entries

variable {κ β : Type} {entries : List (κ × β)} {key : κ} {value : β}

theorem mem_put [DecidableEq κ] {entry : κ × β} (h : entry ∈ put key value entries) :
    entry = (key, value) ∨ entry ∈ entries := by
  obtain rfl | h := List.mem_cons.mp h
  · exact .inl rfl
  · exact .inr (List.mem_of_mem_filter h)

theorem mem_of_lookup [BEq κ] [LawfulBEq κ] (h : entries.lookup key = some value) : (key, value) ∈ entries := by
  obtain ⟨l₁, l₂, rfl, -⟩ := List.lookup_eq_some_iff.mp h
  exact List.mem_append_right _ List.mem_cons_self

end Entries

def Named (u : VisibleTables) (index : Index) : Prop := ∀ p path, (p, path) ∈ index → namedLike u p path.name = true

theorem Named.put {index : Index} {path : Path} (h : Named u index) (hname : namedLike u p path.name = true) :
    Named u (put p path index) := by
  intro q other hmem
  obtain heq | hmem := mem_put hmem
  · cases heq
    exact hname
  · exact h q other hmem

structure Inv (u : VisibleTables) (names : Names) (s : IconExtractor) : Prop where
  files : ∀ path file, (path, file) ∈ s.files → names.Written u file.owner path.name
  index : ∀ index ∈ s.index, Named u index
  saved : ∀ dir index, (dir, index) ∈ s.savedIndexes → Named u index

namespace Inv

variable {names : Names} {s : IconExtractor}

theorem new (dir : Text) : Inv u names (.new dir) :=
  ⟨by simp [IconExtractor.new], by simp [IconExtractor.new], by simp [IconExtractor.new]⟩

theorem loadIndex (h : Inv u names s) : Named u s.loadIndex := by
  unfold IconExtractor.loadIndex
  split
  · next index heq => exact h.index index heq
  · cases hl : s.savedIndexes.lookup s.cacheDir with
    | none => exact fun _ _ hmem => absurd hmem List.not_mem_nil
    | some index => exact h.saved _ index (mem_of_lookup hl)

theorem withIndex (h : Inv u names s) {index : Index} (hindex : Named u index) :
    Inv u names { s with index := some index } :=
  ⟨h.files, fun _ heq => Option.some.inj heq ▸ hindex, h.saved⟩

theorem saveIndex (h : Inv u names s) (write : IndexWrite) : Inv u names (s.saveIndex write) := by
  unfold IconExtractor.saveIndex
  split
  · exact h
  · next index heq =>
    cases write with
    | failed => exact h
    | written =>
      refine ⟨h.files, h.index, fun dir other hmem => ?_⟩
      obtain heq' | hmem := mem_put hmem
      · cases heq'
        exact h.index index heq
      · exact h.saved dir other hmem
    | damaged =>
      refine ⟨h.files, h.index, fun dir other hmem => ?_⟩
      obtain heq' | hmem := mem_put hmem
      · cases heq'
        exact fun _ _ hmem => absurd hmem List.not_mem_nil
      · exact h.saved dir other hmem

theorem rememberIcon (h : Inv u names s) {path : Path} (hname : namedLike u p path.name = true)
    (write : IndexWrite) : Inv u names (s.rememberIcon p path write) := by
  unfold IconExtractor.rememberIcon
  split
  · exact h
  · exact (h.withIndex (h.loadIndex.put hname)).saveIndex write

theorem putFile (h : Inv u names s) {path : Path} {content : Bytes} {files : List (Path × IconFile)}
    (hwritten : names.Written u q path.name) (hfiles : ∀ entry ∈ files, entry ∈ s.files) :
    Inv u names { s with files := put path ⟨q, content⟩ files } := by
  refine ⟨fun other file hmem => ?_, h.index, h.saved⟩
  obtain heq | hmem := mem_put hmem
  · cases heq
    exact hwritten
  · exact h.files other file (hfiles _ hmem)

variable {version_code source_key : Text} {target : Path}

theorem writeIcon (h : Inv u names s) (hstored : names.stored q version_code source_key)
    (htarget : target.name = cacheName u q version_code source_key) (content : Bytes) (thread : Nat)
    (write : IconWrite) : Inv u names (s.writeIcon q target content thread write) := by
  cases write with
  | refused => exact h
  | temporary part =>
    refine h.putFile ⟨version_code, source_key, hstored, .inr ⟨thread, ?_⟩⟩ (fun _ hmem => hmem)
    rw [htarget]
  | replaced =>
    exact h.putFile ⟨version_code, source_key, hstored, .inl htarget⟩ (fun _ hmem => List.mem_of_mem_filter hmem)

theorem saveIcon (h : Inv u names s) (hstored : names.stored q version_code source_key)
    (htarget : target.name = cacheName u q version_code source_key) (content : Bytes) (thread : Nat)
    (write : IconWrite) (indexWrite : IndexWrite) :
    Inv u names (s.saveIcon q target content thread write indexWrite).2 := by
  have hwritten := h.writeIcon hstored htarget content thread write
  have hname : namedLike u q target.name = true := by
    rw [htarget]
    exact namedLike_cacheName (names.stored_valid hstored) _ _
  unfold IconExtractor.saveIcon
  split
  · exact hwritten.rememberIcon hname indexWrite
  · exact hwritten

theorem importIconBytes (h : Inv u names s) (hstored : names.stored q version_code source_key)
    (rendered : Option Bytes) (thread : Nat) (write : IconWrite) (indexWrite : IndexWrite) :
    Inv u names (s.importIconBytes u q version_code source_key rendered thread write indexWrite).2 := by
  cases rendered with
  | none => exact h
  | some image => exact h.saveIcon hstored rfl image thread write indexWrite

theorem importPreRenderedIcon (h : Inv u names s) {icon : PreRenderedIcon} (thread : Nat)
    (hstored : names.stored icon.package_name icon.version_code icon.source_key) (saved : List (Text × Path)) :
    Inv u names (importPreRenderedIcon u thread saved s icon).2 := by
  have hwritten : Inv u names (s.writeIcon icon.package_name
      (s.cachePath u icon.package_name icon.version_code icon.source_key) icon.data thread icon.write) :=
    h.writeIcon hstored rfl icon.data thread icon.write
  unfold IconExtractor.importPreRenderedIcon
  dsimp only
  split
  · exact h
  · split
    · exact hwritten.withIndex
        (hwritten.loadIndex.put (namedLike_cacheName (names.stored_valid hstored) _ _))
    · exact hwritten

theorem importPreRenderedIcons {icons : List PreRenderedIcon} (h : Inv u names s) (thread : Nat)
    (hstored : ∀ icon ∈ icons, names.stored icon.package_name icon.version_code icon.source_key)
    (saved : List (Text × Path)) : Inv u names (importPreRenderedIcons u thread saved s icons).2 := by
  induction icons generalizing s saved with
  | nil => exact h
  | cons icon icons ih =>
    have hnext := h.importPreRenderedIcon thread (hstored icon List.mem_cons_self) saved
    exact ih hnext (fun other hmem => hstored other (List.mem_cons_of_mem _ hmem)) _

theorem importPreRenderedIconBatch {icons : List PreRenderedIcon} (h : Inv u names s) (thread : Nat)
    (hstored : ∀ icon ∈ icons, names.stored icon.package_name icon.version_code icon.source_key)
    (indexWrite : IndexWrite) : Inv u names (importPreRenderedIconBatch u s icons thread indexWrite).2 := by
  unfold IconExtractor.importPreRenderedIconBatch
  split
  · exact h
  · exact ((h.withIndex h.loadIndex).importPreRenderedIcons thread hstored []).saveIndex indexWrite

theorem storeFirst (h : Inv u names s) (hstored : names.stored q version_code source_key)
    (htarget : target.name = cacheName u q version_code source_key) (thread : Nat)
    (candidates : List IconCandidate) : Inv u names (storeFirst q target thread s candidates).2 := by
  induction candidates generalizing s with
  | nil => exact h
  | cons candidate candidates ih =>
    unfold IconExtractor.storeFirst
    split
    · exact ih h
    · next image _ =>
      have hsaved := h.saveIcon hstored htarget image thread candidate.write candidate.indexWrite
      dsimp only
      split
      · exact hsaved
      · exact ih hsaved

theorem extractFromApk (h : Inv u names s) (hstored : names.stored q version_code []) (apk : Apk)
    (thread : Nat) (indexWrite : IndexWrite) :
    Inv u names (extractFromApk u s apk q version_code thread indexWrite).2 := by
  unfold IconExtractor.extractFromApk
  dsimp only
  split
  · exact h.rememberIcon (namedLike_cacheName (names.stored_valid hstored) _ _) indexWrite
  · split
    · exact h
    · split
      · exact h
      · exact h.storeFirst hstored rfl thread apk.candidates

theorem refreshRoot (h : Inv u names s) (dir : Text) : Inv u names (s.refreshRoot dir) :=
  ⟨h.files, by simp [IconExtractor.refreshRoot], h.saved⟩

theorem clearCache (h : Inv u names s) (kept : Path → Bool) (keptIndex : Bool) :
    Inv u names (s.clearCache kept keptIndex) := by
  refine ⟨fun path file hmem => h.files path file (List.mem_of_mem_filter hmem), fun index heq => ?_,
    fun dir index hmem => h.saved dir index (List.mem_of_mem_filter hmem)⟩
  cases heq
  exact fun _ _ hmem => absurd hmem List.not_mem_nil

end Inv

section Reading

variable {names : Names} {s : IconExtractor} {version_code : Text} {source_keys : List Text} {path : Path}
  {times : Path → Int}

theorem mem_newest {paths : List Path} (h : newest times paths = some path) : path ∈ paths := by
  induction paths generalizing path with
  | nil => exact absurd h (by simp [newest])
  | cons first rest ih =>
    rw [newest] at h
    split at h
    · cases h
      exact List.mem_cons_self
    · next other heq =>
      split at h
      · cases h
        exact List.mem_cons_of_mem _ (ih heq)
      · cases h
        exact List.mem_cons_self

theorem newest_cons (first : Path) (rest : List Path) : (newest times (first :: rest)).isSome = true := by
  rw [newest]
  split
  · rfl
  · split <;> rfl

theorem mem_scanCandidates : path ∈ s.scanCandidates u p ↔
    path ∈ s.files.map (·.1) ∧ path.dir = s.cacheDir ∧ namedLike u p path.name = true ∧
      s.validIconFile path = true := by
  simp only [scanCandidates, namedLike, List.mem_flatMap, List.mem_filter, Bool.and_eq_true, decide_eq_true_eq,
    List.any_eq_true]
  constructor
  · intro h
    obtain ⟨pattern, hpattern, hmem, ⟨hdir, hmatch⟩, hvalid⟩ := h
    exact ⟨hmem, hdir, ⟨pattern, hpattern, hmatch⟩, hvalid⟩
  · intro h
    obtain ⟨hmem, hdir, ⟨pattern, hpattern, hmatch⟩, hvalid⟩ := h
    exact ⟨pattern, hpattern, hmem, ⟨hdir, hmatch⟩, hvalid⟩

theorem directPath_some (hp : ValidPackage p) (h : s.directPath u p version_code source_keys = some path) :
    namedLike u p path.name = true ∧ s.validIconFile path = true := by
  have hmem := List.mem_of_find?_eq_some h
  obtain ⟨source_key, -, rfl⟩ := List.mem_map.mp hmem
  exact ⟨namedLike_cacheName hp version_code source_key, List.find?_some h⟩

theorem indexedPath_some (hs : Inv u names s) (h : s.indexedPath p = some path) :
    namedLike u p path.name = true ∧ s.validIconFile path = true := by
  obtain ⟨hlookup, hvalid⟩ := Option.filter_eq_some_iff.mp h
  exact ⟨hs.loadIndex p path (mem_of_lookup hlookup), hvalid⟩

theorem scanLatest_some (h : s.scanLatestIconForPackage u p times = some path) :
    namedLike u p path.name = true ∧ s.validIconFile path = true := by
  obtain ⟨-, -, hname, hvalid⟩ := mem_scanCandidates.mp (mem_newest h)
  exact ⟨hname, hvalid⟩

theorem saveIndex_keeps (write : IndexWrite) :
    (s.saveIndex write).files = s.files ∧ (s.saveIndex write).cacheDir = s.cacheDir := by
  unfold IconExtractor.saveIndex
  cases s.index with
  | none => exact ⟨rfl, rfl⟩
  | some index => cases write <;> exact ⟨rfl, rfl⟩

theorem rememberIcon_keeps (write : IndexWrite) :
    (s.rememberIcon p path write).files = s.files ∧ (s.rememberIcon p path write).cacheDir = s.cacheDir := by
  unfold IconExtractor.rememberIcon
  split
  · exact ⟨rfl, rfl⟩
  · exact saveIndex_keeps write

/-- What is handed out is a file, and named like a file of the package; no file changes. -/
theorem cachedIconPath_spec (hs : Inv u names s) (hp : ValidPackage p) (version_code : Text)
    (source_keys : List Text) (times : Path → Int) (write : IndexWrite) :
    (∀ path ∈ (s.cachedIconPath u p version_code source_keys times write).1,
        namedLike u p path.name = true ∧ s.validIconFile path = true) ∧
      (s.cachedIconPath u p version_code source_keys times write).2.files = s.files ∧
      Inv u names (s.cachedIconPath u p version_code source_keys times write).2 := by
  have hloaded : Inv u names { s with index := some s.loadIndex } := hs.withIndex hs.loadIndex
  unfold IconExtractor.cachedIconPath
  split
  · next path hdirect =>
    have hspec := directPath_some hp hdirect
    exact ⟨fun _ heq => Option.some.inj heq ▸ hspec, (rememberIcon_keeps write).1, hs.rememberIcon hspec.1 write⟩
  · dsimp only
    split
    · next path hindexed =>
      have hspec := indexedPath_some hloaded hindexed
      exact ⟨fun _ heq => Option.some.inj heq ▸ hspec, rfl, hloaded⟩
    · split
      · next path hscanned =>
        have hspec := scanLatest_some hscanned
        exact ⟨fun _ heq => Option.some.inj heq ▸ hspec, (rememberIcon_keeps write).1,
          hloaded.rememberIcon hspec.1 write⟩
      · exact ⟨fun _ heq => absurd heq (Option.not_mem_none _), rfl, hloaded⟩

theorem cachedIconPath_isSome (h : path ∈ s.scanCandidates u p) (version_code : Text)
    (source_keys : List Text) (write : IndexWrite) :
    ∃ found, (s.cachedIconPath u p version_code source_keys times write).1 = some found := by
  unfold IconExtractor.cachedIconPath
  split
  · next direct _ => exact ⟨direct, rfl⟩
  · dsimp only
    split
    · next indexed _ => exact ⟨indexed, rfl⟩
    · split
      · next scanned _ => exact ⟨scanned, rfl⟩
      · next hnone =>
        have hsome : (newest times (s.scanCandidates u p)).isSome = true := by
          obtain ⟨first, rest, heq⟩ := List.exists_cons_of_ne_nil (List.ne_nil_of_mem h)
          rw [heq]
          exact newest_cons first rest
        have hscan : newest times (s.scanCandidates u p) = none := hnone
        rw [hscan] at hsome
        exact absurd hsome Bool.false_ne_true

end Reading

/-! Runs -/

variable {names : Names} {s : IconExtractor}

theorem Inv.run (h : Inv u names s) {call : Call} (hp : names.Permits call) : Inv u names (call.run u s) := by
  cases call with
  | importIconBytes q version_code source_key rendered thread write indexWrite =>
    exact h.importIconBytes hp rendered thread write indexWrite
  | importPreRenderedIconBatch icons thread indexWrite => exact h.importPreRenderedIconBatch thread hp indexWrite
  | extractFromApk apk q version_code thread indexWrite => exact h.extractFromApk hp apk thread indexWrite
  | cachedIconPath p version_code source_keys times indexWrite =>
    exact (cachedIconPath_spec h (names.asked_valid hp) version_code source_keys times indexWrite).2.2
  | refreshRoot dir => exact h.refreshRoot dir
  | clearCache kept keptIndex => exact h.clearCache kept keptIndex

theorem exists_file {path : Path} (h : s.validIconFile path = true) :
    ∃ file, s.files.lookup path = some file := by
  unfold validIconFile at h
  split at h
  · exact absurd h Bool.false_ne_true
  · next file heq => exact ⟨file, heq⟩

theorem own_of_distinct (hdistinct : names.Distinct u) (h : Inv u names s) {call : Call}
    (hp : names.Permits call) : Own u s call := by
  cases call with
  | cachedIconPath p version_code source_keys times indexWrite =>
    obtain ⟨hfound, hfiles, -⟩ :=
      cachedIconPath_spec h (names.asked_valid hp) version_code source_keys times indexWrite
    intro path hmem
    obtain ⟨hname, hvalid⟩ := hfound path hmem
    obtain ⟨file, hfile⟩ := exists_file hvalid
    rw [hfiles, hfile, Option.map_some]
    exact congrArg some (hdistinct p file.owner path.name hp (h.files path file (mem_of_lookup hfile)) hname)
  | importIconBytes => trivial
  | importPreRenderedIconBatch => trivial
  | extractFromApk => trivial
  | refreshRoot => trivial
  | clearCache => trivial

theorem along_of_distinct (hdistinct : names.Distinct u) (h : Inv u names s) {calls : List Call}
    (hp : ∀ call ∈ calls, names.Permits call) : Along (step u) (Own u) s calls := by
  induction calls generalizing s with
  | nil => trivial
  | cons call calls ih =>
    have hcall := hp call List.mem_cons_self
    exact ⟨own_of_distinct hdistinct h hcall, ih (h.run hcall) (fun other hmem => hp other (List.mem_cons_of_mem _ hmem))⟩

/-- A lone file is handed out to every package that it is named like. -/
theorem own_lone {path : Path} {file : IconFile} {version_code : Text} {source_keys : List Text}
    {times : Path → Int} {write : IndexWrite} (hs : Inv u names s) (hp : ValidPackage p)
    (hfiles : s.files = [(path, file)]) (hdir : path.dir = s.cacheDir) (hcontent : file.content ≠ [])
    (hname : namedLike u p path.name = true)
    (hown : Own u s (.cachedIconPath p version_code source_keys times write)) : file.owner = p := by
  have hlookup : s.files.lookup path = some file := by rw [hfiles, List.lookup_cons_self]
  have hvalid : s.validIconFile path = true := by simp [validIconFile, hlookup, hcontent]
  have hcandidate : path ∈ s.scanCandidates u p :=
    mem_scanCandidates.mpr ⟨by simp [hfiles], hdir, hname, hvalid⟩
  obtain ⟨found, hfound⟩ := cachedIconPath_isSome hcandidate version_code source_keys write
  obtain ⟨hspec, hkept, -⟩ := cachedIconPath_spec hs hp version_code source_keys times write
  obtain ⟨other, hother⟩ := exists_file (hspec found hfound).2
  have howner := hown found hfound
  rw [hkept, hother, Option.map_some] at howner
  have hmem := mem_of_lookup hother
  rw [hfiles, List.mem_singleton] at hmem
  cases hmem
  exact Option.some.inj howner

/-- How a lone icon is stored under the target name, or is left under the temporary name. -/
def storeLone (q version_code source_key : Text) (thread : Nat) (write : IconWrite) : Call :=
  .importIconBytes q version_code source_key (some [1]) thread write .failed

theorem storeLone_files {version_code source_key : Text} (hname : name = cacheName u q version_code source_key ∨
    ∃ thread, name = tempName (cacheName u q version_code source_key) thread) (dir : Text) :
    ∃ thread write, ((storeLone q version_code source_key thread write).run u (.new dir)).files =
        [(⟨dir, name⟩, ⟨q, [1]⟩)] ∧
      ((storeLone q version_code source_key thread write).run u (.new dir)).cacheDir = dir := by
  obtain rfl | ⟨thread, rfl⟩ := hname
  · refine ⟨0, .replaced, ?_⟩
    exact rememberIcon_keeps (p := q) .failed
  · exact ⟨thread, .temporary [1], rfl, rfl⟩

def shortPackage : Text := ['c', 'o', 'm', '.', 'a']

def longPackage : Text := ['c', 'o', 'm', '.', 'a', '_', 'b']

end OpenAdb.Icons.Ownership
