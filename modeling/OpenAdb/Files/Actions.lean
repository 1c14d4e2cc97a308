import OpenAdb.Files.Listing
import OpenAdb.Files.Requests
import OpenAdb.Lib.PackageName
import OpenAdb.Lib.SlashPath

namespace OpenAdb.Files.Actions

open OpenAdb.Lib.PyText OpenAdb.Lib.PackageName OpenAdb.Lib.SlashPath
open OpenAdb.Backup.Names (isDots suffix pathName)
open OpenAdb.Context.Device (DeviceContext adbMode)
open OpenAdb.Files.Listing (joinAndroidPath)
open OpenAdb.Files.Requests (FileManagerAction recoveryMode)

variable {π : Type} (u : VisibleTables)

def cleanName (value : Text) : Except Text Text :=
  let name := strip u.toUnicodeData value
  if name = [] ∨ isDots name then .error "A non-empty item name is required".toList
  else if '/' ∈ name ∨ '\\' ∈ name ∨ '\x00' ∈ name then .error "Item names cannot contain path separators".toList
  else .ok name

/-- The names that `_android_path` reads: a backslash separates them as a slash does. -/
def segments (value : Text) : List Text := components (replaceChar '\\' '/' (strip u.toUnicodeData value))

def androidPath (value : Text) : Except Text Text :=
  let path := replaceChar '\\' '/' (strip u.toUnicodeData value)
  if path.head? ≠ some '/' then .error "Android paths must be absolute".toList
  else
    let parts := components path
    if ∃ part ∈ parts, isDots part then .error "Android paths cannot contain traversal segments".toList
    else .ok (render parts)

def parentAndroidPath (path : Text) : Text :=
  let clean := rstripChar '/' path
  if clean = [] ∨ clean = ['/'] then ['/']
  else
    let parent := if '/' ∈ clean then (clean.rdropWhile (· ≠ '/')).dropLast else clean
    if parent = [] then ['/'] else parent

/-- The fields of a request before they are checked. -/
structure RequestFields (π : Type) where
  action : FileManagerAction
  deviceContext : DeviceContext π
  paths : List Text := []
  target : Text := []
  localPath : Option Text := none
  useRootRequested : Bool := false
  allowStorageGrant : Bool := false

def hasApkSuffix (path : Text) : Prop := casefold u.toUnicodeData (suffix (pathName path)) = ".apk".toList

instance (path : Text) : Decidable (hasApkSuffix u path) :=
  inferInstanceAs (Decidable (casefold u.toUnicodeData (suffix (pathName path)) = ".apk".toList))

def requireThat (p : Prop) [Decidable p] (message : String) : Except Text Unit :=
  if p then .ok () else .error message.toList

def requireCanonical (message : String) (path : Text) : Except Text Unit := do
  let canonical ← androidPath u path
  requireThat (canonical = path) message

def checkTarget (target : Text) : Except Text Unit :=
  if target = [] then .ok () else requireCanonical u "Android target paths must be canonical" target

/-- The fields that an action needs. -/
def checkAction (r : RequestFields π) : Except Text Unit :=
  match r.action with
  | .createFolder =>
    requireThat (r.paths = [] ∧ r.target ≠ [] ∧ r.localPath = none) "Create-folder requires only an Android target"
  | .delete =>
    requireThat (r.paths ≠ [] ∧ r.target = [] ∧ r.localPath = none) "Delete requires Android source paths"
  | .rename =>
    requireThat (r.paths.length = 1 ∧ r.target ≠ [] ∧ r.localPath = none)
      "Rename requires one Android source and target"
  | .properties =>
    requireThat (r.paths.length = 1 ∧ r.target = [] ∧ r.localPath = none) "Properties requires one Android path"
  | .installApk =>
    match r.localPath with
    | none => .error "Install requires one local APK path".toList
    | some path => do
      requireThat (r.paths = [] ∧ r.target = []) "Install requires one local APK path"
      requireThat (hasApkSuffix u path) "Install requires a local APK Path"

def postInit (r : RequestFields π) : Except Text Unit := do
  requireThat (r.deviceContext.serial ≠ [] ∧ (r.deviceContext.mode = adbMode ∨ r.deviceContext.mode = recoveryMode))
    "Android file actions require an ADB or Recovery context"
  r.paths.forM (requireCanonical u "Android source paths must be canonical")
  checkTarget u r.target
  checkAction u r

/-- A request carries the checks that its construction passed. -/
structure AndroidActionRequest (π : Type) extends RequestFields π where
  checked : postInit u toRequestFields = .ok ()

def build (r : RequestFields π) : Except Text (AndroidActionRequest u π) :=
  match h : postInit u r with
  | .ok () => .ok ⟨r, h⟩
  | .error message => .error message

namespace AndroidActionRequest

variable (context : DeviceContext π)

def installApk (apk_path : Text) : Except Text (AndroidActionRequest u π) := do
  requireThat (hasApkSuffix u apk_path) "Only APK files can be installed"
  build u { action := .installApk, deviceContext := context, localPath := some apk_path }

def createFolder (parent name : Text) (useRootRequested : Bool) : Except Text (AndroidActionRequest u π) := do
  let parent_path ← androidPath u parent
  let clean_name ← cleanName u name
  let target ← androidPath u (joinAndroidPath parent_path clean_name)
  build u { action := .createFolder, deviceContext := context, target, useRootRequested }

def delete (paths : List Text) (useRootRequested allowStorageGrant : Bool) :
    Except Text (AndroidActionRequest u π) := do
  let paths ← paths.mapM (androidPath u)
  build u { action := .delete, deviceContext := context, paths, useRootRequested, allowStorageGrant }

def rename (source new_name : Text) (useRootRequested : Bool) : Except Text (AndroidActionRequest u π) := do
  let source_path ← androidPath u source
  let clean_name ← cleanName u new_name
  let target ← androidPath u (joinAndroidPath (parentAndroidPath source_path) clean_name)
  build u { action := .rename, deviceContext := context, paths := [source_path], target, useRootRequested }

def properties (path : Text) (useRootRequested : Bool) : Except Text (AndroidActionRequest u π) := do
  let path ← androidPath u path
  build u { action := .properties, deviceContext := context, paths := [path], useRootRequested }

end AndroidActionRequest

/-- What Android takes for one item: an absolute path all of whose names are legal. -/
structure ItemPath where
  text : Text
  absolute : text.head? = some '/'
  legal : ∀ name ∈ components text, ¬ isDots name ∧ '\x00' ∉ name

/-- No backslash, and no blank at the end. -/
def Verbatim (path : Text) : Prop := '\\' ∉ path ∧ ∀ c ∈ path.getLast?, u.isSpace c = false

def Traversal (path : Text) : Prop := ∃ name ∈ segments u path, isDots name

def BlankEnd (names : List Text) : Prop := ∃ name ∈ names.getLast?, ∃ c ∈ name.getLast?, u.isSpace c = true

/-- None of the names that are read is a dot or two, and the last one does not end with a blank. -/
def Readable (path : Text) : Prop := ¬ Traversal u path ∧ ¬ BlankEnd u (segments u path)

def GoodName (value : Text) : Prop :=
  strip u.toUnicodeData value ≠ [] ∧ ¬ isDots (strip u.toUnicodeData value) ∧ '/' ∉ strip u.toUnicodeData value ∧
    '\\' ∉ strip u.toUnicodeData value ∧ '\x00' ∉ strip u.toUnicodeData value

def Usable (context : DeviceContext π) : Prop :=
  context.serial ≠ [] ∧ (context.mode = adbMode ∨ context.mode = recoveryMode)

variable {u} {path value : Text} {context : DeviceContext π}

theorem cleanName_eq_ok {name : Text} :
    cleanName u value = .ok name ↔ GoodName u value ∧ name = strip u.toUnicodeData value := by
  rw [cleanName, GoodName]
  by_cases h1 : strip u.toUnicodeData value = [] ∨ isDots (strip u.toUnicodeData value)
  · rw [if_pos h1]
    obtain h1 | h1 := h1
    · simp [h1]
    · simp [h1]
  · rw [if_neg h1]
    rw [not_or] at h1
    by_cases h2 : '/' ∈ strip u.toUnicodeData value ∨ '\\' ∈ strip u.toUnicodeData value ∨
        '\x00' ∈ strip u.toUnicodeData value
    · rw [if_pos h2]
      obtain h2 | h2 | h2 := h2
      · simp [h2]
      · simp [h2]
      · simp [h2]
    · rw [if_neg h2]
      rw [not_or, not_or] at h2
      simp only [Except.ok.injEq]
      constructor
      · rintro rfl
        exact ⟨⟨h1.1, h1.2, h2⟩, rfl⟩
      · intro h
        exact h.2.symm

theorem strip_absolute (h : path.head? = some '/') : strip u.toUnicodeData path = path.rdropWhile u.isSpace := by
  obtain ⟨rest, rfl⟩ := List.head?_eq_some_iff.mp h
  rw [strip, List.dropWhile_cons_of_neg]
  rw [u.isSpace_visible '/' (by decide) (by decide)]
  exact Bool.false_ne_true

theorem rdropWhile_eq_self : path.rdropWhile u.isSpace = path ↔ ∀ c ∈ path.getLast?, u.isSpace c = false := by
  rw [List.rdropWhile_eq_self_iff]
  constructor
  · intro h c hc
    obtain ⟨hne, rfl⟩ := List.mem_getLast?_eq_getLast hc
    exact Bool.eq_false_iff.mpr (h hne)
  · intro h hne
    rw [h _ (List.getLast?_eq_some_getLast hne)]
    exact Bool.false_ne_true

theorem head_replaceChar (h : path.head? = some '/') : (replaceChar '\\' '/' path).head? = some '/' := by
  rw [replaceChar, List.head?_map, h]
  rfl

theorem head_strip (h : path.head? = some '/') : (strip u.toUnicodeData path).head? = some '/' := by
  rw [strip_absolute h]
  obtain ⟨tail, htail⟩ := List.rdropWhile_prefix u.isSpace (l := path)
  cases hrest : path.rdropWhile u.isSpace with
  | nil =>
    have hall := List.rdropWhile_eq_nil_iff.mp hrest '/' (List.mem_of_mem_head? h)
    rw [u.isSpace_visible '/' (by decide) (by decide)] at hall
    cases hall
  | cons c rest =>
    rw [hrest] at htail
    rw [← htail] at h
    exact h

theorem head_stripped (h : path.head? = some '/') :
    (replaceChar '\\' '/' (strip u.toUnicodeData path)).head? = some '/' := head_replaceChar (head_strip h)

theorem isName_of_mem_segments {name : Text} (h : name ∈ segments u path) : IsName name := isName_of_mem_components h

theorem no_backslash_of_mem_segments {name : Text} (h : name ∈ segments u path) : '\\' ∉ name := by
  exact fun hmem => not_mem_replaceChar_self (by decide) _ (mem_of_mem_components h hmem)

/-- The names that are read are those of the path only where it is taken verbatim. -/
theorem segments_eq_iff (h : path.head? = some '/') : segments u path = components path ↔ Verbatim u path := by
  constructor
  · intro heq
    have hback : '\\' ∉ path := by
      intro hmem
      obtain ⟨name, hname, hc⟩ := exists_component hmem (by decide)
      rw [← heq] at hname
      exact no_backslash_of_mem_segments hname hc
    refine ⟨hback, rdropWhile_eq_self.mp ?_⟩
    have hsplit : path.rdropWhile u.isSpace ++ path.rtakeWhile u.isSpace = path := List.rdropWhile_append_rtakeWhile
    have hback' : '\\' ∉ path.rdropWhile u.isSpace := fun hmem =>
      hback ((List.rdropWhile_prefix u.isSpace path).subset hmem)
    have hflat := congrArg List.flatten heq
    rw [segments, strip_absolute h, replaceChar_eq_self hback', flatten_components, flatten_components] at hflat
    -- what was stripped holds no slash, so nothing of it may count
    have htail : path.rtakeWhile u.isSpace = [] := by
      rw [List.eq_nil_iff_forall_not_mem]
      intro c hc
      have hspace : u.isSpace c = true := List.mem_rtakeWhile_imp hc
      have hne : c ≠ '/' := by
        rintro rfl
        rw [u.isSpace_visible '/' (by decide) (by decide)] at hspace
        cases hspace
      have hnil : (path.rtakeWhile u.isSpace).filter (· ≠ '/') = [] := by
        apply List.append_cancel_left
        rw [← List.filter_append, hsplit, List.append_nil, hflat]
      exact absurd (List.mem_filter.mpr ⟨hc, decide_eq_true hne⟩) (hnil ▸ List.not_mem_nil)
    rw [htail, List.append_nil] at hsplit
    exact hsplit
  · rintro ⟨hback, hlast⟩
    rw [segments, strip_absolute h, rdropWhile_eq_self.mpr hlast, replaceChar_eq_self hback]

theorem androidPath_eq_ok {p : Text} (h : path.head? = some '/') :
    androidPath u path = .ok p ↔ ¬ Traversal u path ∧ p = render (segments u path) := by
  rw [androidPath, if_neg (not_not.mpr (head_stripped h))]
  by_cases ht : Traversal u path
  · have ht' : ∃ part ∈ components (replaceChar '\\' '/' (strip u.toUnicodeData path)), isDots part := ht
    simp only [if_pos ht', ht, not_true_eq_false, false_and, reduceCtorEq]
  · have ht' : ¬ ∃ part ∈ components (replaceChar '\\' '/' (strip u.toUnicodeData path)), isDots part := ht
    simp only [if_neg ht', ht, not_false_eq_true, true_and, Except.ok.injEq]
    exact eq_comm

/-- Names that a path may have. -/
def Plain (names : List Text) : Prop := ∀ name ∈ names, IsName name ∧ '\\' ∉ name ∧ ¬ isDots name

theorem plain_segments (h : ¬ Traversal u path) : Plain (segments u path) := by
  intro name hname
  refine ⟨isName_of_mem_segments hname, no_backslash_of_mem_segments hname, ?_⟩
  exact fun hdots => h ⟨name, hname, hdots⟩

theorem plain_concat {names : List Text} {name : Text} (h : Plain names) (hname : GoodName u value)
    (heq : name = strip u.toUnicodeData value) : Plain (names ++ [name]) := by
  subst heq
  obtain ⟨hne, hdots, hslash, hback, -⟩ := hname
  rw [Plain, List.forall_mem_append, List.forall_mem_singleton]
  exact ⟨h, ⟨hne, hslash⟩, hback, hdots⟩

theorem last_render {names : List Text} (h : Plain names) :
    (∀ c ∈ (render names).getLast?, u.isSpace c = false) ↔ ¬ BlankEnd u names := by
  obtain rfl | ⟨init, last, rfl⟩ := names.eq_nil_or_concat'
  · simp [render, BlankEnd, u.isSpace_visible '/' (by decide) (by decide)]
  · have hlast : (render (init ++ [last])).getLast? = last.getLast? := by
      obtain ⟨c, rest, rfl⟩ := List.exists_cons_of_ne_nil (h last (by simp)).1.ne_nil
      rw [render_concat, List.getLast?_append_cons, List.getLast?_cons_cons]
    simp [hlast, BlankEnd]

theorem androidPath_render {names : List Text} (h : Plain names) :
    androidPath u (render names) = .ok (render names) ↔ ¬ BlankEnd u names := by
  have hcomponents : components (render names) = names := components_render (fun name hname => (h name hname).1)
  have hback : '\\' ∉ render names := by
    intro hmem
    obtain ⟨name, hname, hc⟩ := exists_component hmem (by decide)
    rw [hcomponents] at hname
    exact (h name hname).2.1 hc
  have hverbatim : Verbatim u (render names) ↔ ¬ BlankEnd u names := by
    rw [Verbatim, last_render h]
    exact and_iff_right hback
  rw [androidPath_eq_ok rfl, ← hverbatim]
  constructor
  · rintro ⟨htraversal, heq⟩
    rw [← segments_eq_iff rfl, hcomponents]
    exact (render_injOn (fun name hname => (h name hname).1) (fun _ => isName_of_mem_segments) heq).symm
  · intro hv
    have hsegments := (segments_eq_iff (u := u) rfl).mpr hv
    rw [hcomponents] at hsegments
    rw [Traversal, hsegments]
    refine ⟨?_, rfl⟩
    rintro ⟨name, hname, hdots⟩
    exact (h name hname).2.2 hdots

theorem render_eq_slash {names : List Text} (h : Plain names) : render names = ['/'] ↔ names = [] := by
  constructor
  · intro heq
    rw [← components_render (fun name hname => (h name hname).1), heq]
    rfl
  · rintro rfl
    rfl

theorem rstripChar_render {names : List Text} (h : Plain names) (hne : names ≠ []) :
    rstripChar '/' (render names) = render names := by
  obtain rfl | ⟨init, last, rfl⟩ := names.eq_nil_or_concat'
  · exact absurd rfl hne
  · have hlast := (h last (by simp)).1
    rw [rstripChar, List.rdropWhile_eq_self_iff]
    intro hrender heq
    have hmem : '/' ∈ last := by
      rw [← eq_of_beq heq]
      obtain ⟨c, rest, rfl⟩ := List.exists_cons_of_ne_nil hlast.ne_nil
      simp [render_concat]
    exact hlast.no_slash hmem

theorem joinAndroidPath_render {names : List Text} {name : Text} (h : Plain names) (hname : IsName name) :
    joinAndroidPath (render names) name = render (names ++ [name]) := by
  have hstrip : rstripChar '/' (lstripChar '/' name) = name := by
    rw [lstripChar_of_not_mem hname.no_slash, rstripChar_of_not_mem hname.no_slash]
  rw [joinAndroidPath, hstrip, render_concat]
  by_cases hnames : names = []
  · rw [if_pos ((render_eq_slash h).mpr hnames), if_pos hnames]
    rfl
  · rw [if_neg (fun heq => hnames ((render_eq_slash h).mp heq)), if_neg hnames, rstripChar_render h hnames]

theorem parentAndroidPath_render {names : List Text} (h : Plain names) :
    parentAndroidPath (render names) = render names.dropLast := by
  obtain rfl | ⟨init, last, rfl⟩ := names.eq_nil_or_concat'
  · rfl
  · have hlast := (h last (by simp)).1
    have hne : init ++ [last] ≠ [] := by simp
    have hroot : ¬ (render (init ++ [last]) = [] ∨ render (init ++ [last]) = ['/']) := by
      rintro (heq | heq)
      · cases heq
      · exact hne ((render_eq_slash h).mp heq)
    have hparent : ((render (init ++ [last])).rdropWhile (· ≠ '/')).dropLast =
        if init = [] then [] else render init := by
      have hall : ∀ c ∈ last, decide (c ≠ '/') = true := fun c hc =>
        decide_eq_true (ne_of_mem_of_not_mem hc hlast.no_slash)
      rw [render_concat, List.append_cons, rdropWhile_append_of_all _ hall, List.rdropWhile_concat_neg _ _ _ (by decide),
        List.dropLast_concat]
    have hslash : '/' ∈ render (init ++ [last]) := List.mem_cons_self
    rw [parentAndroidPath, rstripChar_render h hne]
    dsimp only
    rw [if_neg hroot, if_pos hslash, hparent, List.dropLast_concat]
    by_cases hinit : init = []
    · rw [if_pos hinit, if_pos rfl, hinit]
      rfl
    · rw [if_neg hinit]
      exact if_neg (List.cons_ne_nil _ _)

theorem requireThat_eq_ok {p : Prop} [Decidable p] {message : String} :
    requireThat p message = .ok () ↔ p := by
  rw [requireThat]
  by_cases h : p
  · simp [h]
  · simp [h]

theorem andThen_eq_ok {x y : Except Text Unit} : (do x; y) = .ok () ↔ x = .ok () ∧ y = .ok () := by
  cases x with
  | error message =>
    constructor
    · intro h
      cases h
    · intro h
      cases h.1
  | ok _ => exact ⟨fun h => ⟨rfl, h⟩, And.right⟩

theorem requireCanonical_eq_ok {message : String} :
    requireCanonical u message path = .ok () ↔ androidPath u path = .ok path := by
  rw [requireCanonical]
  cases androidPath u path with
  | error text =>
    constructor
    · intro h
      cases h
    · intro h
      cases h
  | ok canonical =>
    rw [Except.ok.injEq]
    exact requireThat_eq_ok

theorem forM_requireCanonical {message : String} {paths : List Text} :
    paths.forM (requireCanonical u message) = .ok () ↔ ∀ path ∈ paths, androidPath u path = .ok path := by
  induction paths with
  | nil => exact iff_of_true rfl (List.forall_mem_nil _)
  | cons path paths ih =>
    rw [List.forall_mem_cons, ← ih, ← requireCanonical_eq_ok]
    exact andThen_eq_ok

/-- What the checks ask of any request for the action. -/
def Shape (r : RequestFields π) : Prop :=
  match r.action with
  | .createFolder => r.paths = [] ∧ r.target ≠ [] ∧ r.localPath = none
  | .delete => r.paths ≠ [] ∧ r.target = [] ∧ r.localPath = none
  | .rename => r.paths.length = 1 ∧ r.target ≠ [] ∧ r.localPath = none
  | .properties => r.paths.length = 1 ∧ r.target = [] ∧ r.localPath = none
  | .installApk => ∃ path, r.localPath = some path ∧ (r.paths = [] ∧ r.target = []) ∧ hasApkSuffix u path

theorem checkAction_eq_ok {r : RequestFields π} : checkAction u r = .ok () ↔ Shape (u := u) r := by
  rw [checkAction, Shape]
  cases r.action with
  | createFolder => exact requireThat_eq_ok
  | delete => exact requireThat_eq_ok
  | rename => exact requireThat_eq_ok
  | properties => exact requireThat_eq_ok
  | installApk =>
    cases r.localPath with
    | none => simp
    | some path =>
      simp only [Option.some.injEq, exists_eq_left']
      rw [andThen_eq_ok, requireThat_eq_ok, requireThat_eq_ok]

theorem checkTarget_eq_ok {target : Text} :
    checkTarget u target = .ok () ↔ target = [] ∨ androidPath u target = .ok target := by
  rw [checkTarget]
  by_cases h : target = []
  · simp [h]
  · rw [if_neg h, requireCanonical_eq_ok]
    simp [h]

theorem postInit_eq_ok {r : RequestFields π} : postInit u r = .ok () ↔ Usable r.deviceContext ∧
    (∀ path ∈ r.paths, androidPath u path = .ok path) ∧
    (r.target = [] ∨ androidPath u r.target = .ok r.target) ∧ Shape (u := u) r := by
  rw [postInit, andThen_eq_ok, andThen_eq_ok, andThen_eq_ok, requireThat_eq_ok, forM_requireCanonical,
    checkTarget_eq_ok, checkAction_eq_ok]
  rfl

theorem build_eq_ok {fields : RequestFields π} {r : AndroidActionRequest u π} :
    build u fields = .ok r ↔ r.toRequestFields = fields := by
  constructor
  · intro h
    unfold build at h
    split at h
    · cases h
      rfl
    · cases h
  · rintro rfl
    have hchecked := r.checked
    unfold build
    split
    · rfl
    · next h => exact absurd (hchecked.symm.trans h) (by simp)

theorem exists_build {fields : RequestFields π} : (∃ r, build u fields = .ok r) ↔ postInit u fields = .ok () := by
  constructor
  · rintro ⟨r, h⟩
    rw [← build_eq_ok.mp h]
    exact r.checked
  · intro h
    exact ⟨⟨fields, h⟩, build_eq_ok.mpr rfl⟩

theorem bind_eq_ok {α β : Type} {x : Except Text α} {f : α → Except Text β} {b : β} :
    (x >>= f) = .ok b ↔ ∃ a, x = .ok a ∧ f a = .ok b := by
  cases x with
  | error message =>
    constructor
    · intro h
      cases h
    · rintro ⟨a, h, -⟩
      cases h
  | ok a =>
    constructor
    · intro h
      exact ⟨a, rfl, h⟩
    · rintro ⟨a', ha, h⟩
      cases ha
      exact h

theorem mapM_androidPath (paths : List ItemPath) (qs : List Text) :
    (paths.map ItemPath.text).mapM (androidPath u) = .ok qs ↔
      (∀ path ∈ paths, ¬ Traversal u path.text) ∧ qs = paths.map (fun path => render (segments u path.text)) := by
  induction paths generalizing qs with
  | nil => simp [pure, Except.pure, eq_comm]
  | cons path paths ih =>
    rw [List.map_cons, List.mapM_cons, bind_eq_ok, List.forall_mem_cons]
    simp only [androidPath_eq_ok path.absolute, bind_eq_ok, ih]
    constructor
    · rintro ⟨first, ⟨hfirst, rfl⟩, rest, ⟨hrest, rfl⟩, hqs⟩
      exact ⟨⟨hfirst, hrest⟩, (Except.ok.inj hqs).symm⟩
    · rintro ⟨⟨hfirst, hrest⟩, rfl⟩
      exact ⟨_, ⟨hfirst, rfl⟩, _, ⟨hrest, rfl⟩, rfl⟩

theorem not_blankEnd_concat (names : List Text) (h : GoodName u value) :
    ¬ BlankEnd u (names ++ [strip u.toUnicodeData value]) := by
  have hlast := (OpenAdb.Backup.Names.trimmed_strip h.1).2.2
  simp only [BlankEnd, List.getLast?_append_cons, List.getLast?_singleton, Option.mem_def, Option.some.injEq,
    exists_eq_left', not_exists, not_and, Bool.not_eq_true]
  exact hlast

theorem androidPath_join {names : List Text} (h : Plain names) (hname : GoodName u value) (target : Text) :
    androidPath u (joinAndroidPath (render names) (strip u.toUnicodeData value)) = .ok target ↔
      target = render (names ++ [strip u.toUnicodeData value]) := by
  have hplain : Plain (names ++ [strip u.toUnicodeData value]) := plain_concat h hname rfl
  rw [joinAndroidPath_render h ⟨hname.1, hname.2.2.1⟩,
    (androidPath_render hplain).mpr (not_blankEnd_concat names hname), Except.ok.injEq]
  exact eq_comm

namespace AndroidActionRequest

section Requests

variable (u) (context : DeviceContext π) (flag grant : Bool)

/-- What is asked of the device when the paths and names are read. -/
def folderRequest (parent : ItemPath) (name : Text) : RequestFields π where
  action := .createFolder
  deviceContext := context
  target := render (segments u parent.text ++ [strip u.toUnicodeData name])
  useRootRequested := flag

def deleteRequest (paths : List ItemPath) : RequestFields π where
  action := .delete
  deviceContext := context
  paths := paths.map (fun path => render (segments u path.text))
  useRootRequested := flag
  allowStorageGrant := grant

def renameRequest (source : ItemPath) (new_name : Text) : RequestFields π where
  action := .rename
  deviceContext := context
  paths := [render (segments u source.text)]
  target := render ((segments u source.text).dropLast ++ [strip u.toUnicodeData new_name])
  useRootRequested := flag

def propertiesRequest (path : ItemPath) : RequestFields π where
  action := .properties
  deviceContext := context
  paths := [render (segments u path.text)]
  useRootRequested := flag

end Requests

variable {r : AndroidActionRequest u π} {flag grant : Bool}

theorem createFolder_eq_ok (parent : ItemPath) (name : Text) :
    createFolder u context parent.text name flag = .ok r ↔
      (Usable context ∧ ¬ Traversal u parent.text ∧ GoodName u name) ∧
      r.toRequestFields = folderRequest u context flag parent name := by
  simp only [createFolder, bind_eq_ok, androidPath_eq_ok parent.absolute, cleanName_eq_ok, build_eq_ok]
  constructor
  · rintro ⟨_, ⟨htraversal, rfl⟩, _, ⟨hname, rfl⟩, target, htarget, hr⟩
    rw [androidPath_join (plain_segments htraversal) hname] at htarget
    subst htarget
    have hchecked := r.checked
    rw [hr, postInit_eq_ok] at hchecked
    exact ⟨⟨hchecked.1, htraversal, hname⟩, hr⟩
  · rintro ⟨⟨-, htraversal, hname⟩, hr⟩
    exact ⟨_, ⟨htraversal, rfl⟩, _, ⟨hname, rfl⟩, _,
      (androidPath_join (plain_segments htraversal) hname _).mpr rfl, hr⟩

theorem delete_eq_ok (paths : List ItemPath) :
    delete u context (paths.map ItemPath.text) flag grant = .ok r ↔
      (Usable context ∧ paths ≠ [] ∧ ∀ path ∈ paths, Readable u path.text) ∧
      r.toRequestFields = deleteRequest u context flag grant paths := by
  simp only [delete, bind_eq_ok, mapM_androidPath, build_eq_ok]
  constructor
  · rintro ⟨_, ⟨htraversal, rfl⟩, hr⟩
    have hchecked := r.checked
    rw [hr, postInit_eq_ok] at hchecked
    obtain ⟨husable, hpaths, -, hne, -⟩ := hchecked
    refine ⟨⟨husable, fun hnil => hne (by rw [hnil]; rfl), fun path hpath => ⟨htraversal path hpath, ?_⟩⟩, hr⟩
    rw [← androidPath_render (plain_segments (htraversal path hpath))]
    exact hpaths _ (List.mem_map_of_mem hpath)
  · rintro ⟨⟨-, -, hpaths⟩, hr⟩
    exact ⟨_, ⟨fun path hpath => (hpaths path hpath).1, rfl⟩, hr⟩

theorem rename_eq_ok (source : ItemPath) (new_name : Text) :
    rename u context source.text new_name flag = .ok r ↔
      (Usable context ∧ Readable u source.text ∧ GoodName u new_name) ∧
      r.toRequestFields = renameRequest u context flag source new_name := by
  have hjoin : ¬ Traversal u source.text → GoodName u new_name → ∀ target,
      androidPath u (joinAndroidPath (parentAndroidPath (render (segments u source.text)))
        (strip u.toUnicodeData new_name)) = .ok target ↔
      target = render ((segments u source.text).dropLast ++ [strip u.toUnicodeData new_name]) := by
    intro htraversal hname target
    have hplain := plain_segments htraversal
    rw [parentAndroidPath_render hplain]
    exact androidPath_join (fun name h => hplain name (List.mem_of_mem_dropLast h)) hname target
  simp only [rename, bind_eq_ok, androidPath_eq_ok source.absolute, cleanName_eq_ok, build_eq_ok]
  constructor
  · rintro ⟨_, ⟨htraversal, rfl⟩, _, ⟨hname, rfl⟩, target, htarget, hr⟩
    rw [hjoin htraversal hname] at htarget
    subst htarget
    have hchecked := r.checked
    rw [hr, postInit_eq_ok] at hchecked
    obtain ⟨husable, hpaths, -⟩ := hchecked
    have hcanonical := hpaths _ List.mem_cons_self
    rw [androidPath_render (plain_segments htraversal)] at hcanonical
    exact ⟨⟨husable, ⟨htraversal, hcanonical⟩, hname⟩, hr⟩
  · rintro ⟨⟨-, ⟨htraversal, -⟩, hname⟩, hr⟩
    exact ⟨_, ⟨htraversal, rfl⟩, _, ⟨hname, rfl⟩, _, (hjoin htraversal hname _).mpr rfl, hr⟩

theorem properties_eq_ok (path : ItemPath) :
    properties u context path.text flag = .ok r ↔ (Usable context ∧ Readable u path.text) ∧
      r.toRequestFields = propertiesRequest u context flag path := by
  simp only [properties, bind_eq_ok, androidPath_eq_ok path.absolute, build_eq_ok]
  constructor
  · rintro ⟨_, ⟨htraversal, rfl⟩, hr⟩
    have hchecked := r.checked
    rw [hr, postInit_eq_ok] at hchecked
    obtain ⟨husable, hpaths, -⟩ := hchecked
    have hcanonical := hpaths _ List.mem_cons_self
    rw [androidPath_render (plain_segments htraversal)] at hcanonical
    exact ⟨⟨husable, htraversal, hcanonical⟩, hr⟩
  · rintro ⟨⟨-, htraversal, -⟩, hr⟩
    exact ⟨_, ⟨htraversal, rfl⟩, hr⟩

theorem canonical_of_readable (h : Readable u path) :
    androidPath u (render (segments u path)) = .ok (render (segments u path)) :=
  (androidPath_render (plain_segments h.1)).mpr h.2

theorem exists_createFolder {parent : ItemPath} {name : Text} (husable : Usable context)
    (htraversal : ¬ Traversal u parent.text) (hname : GoodName u name) :
    ∃ r, createFolder u context parent.text name flag = .ok r := by
  have htarget := (androidPath_render (u := u) (plain_concat (plain_segments htraversal) hname rfl)).mpr
    (not_blankEnd_concat _ hname)
  have hchecked : postInit u (folderRequest u context flag parent name) = .ok () :=
    postInit_eq_ok.mpr ⟨husable, List.forall_mem_nil _, .inr htarget, rfl, List.cons_ne_nil _ _, rfl⟩
  exact ⟨⟨_, hchecked⟩, (createFolder_eq_ok parent name).mpr ⟨⟨husable, htraversal, hname⟩, rfl⟩⟩

theorem exists_delete {paths : List ItemPath} (husable : Usable context) (hne : paths ≠ [])
    (hpaths : ∀ path ∈ paths, Readable u path.text) :
    ∃ r, delete u context (paths.map ItemPath.text) flag grant = .ok r := by
  have hcanonical : ∀ path ∈ paths.map (fun path => render (segments u path.text)), androidPath u path = .ok path := by
    rw [List.forall_mem_map]
    exact fun path hpath => canonical_of_readable (hpaths path hpath)
  have hchecked : postInit u (deleteRequest u context flag grant paths) = .ok () :=
    postInit_eq_ok.mpr ⟨husable, hcanonical, .inl rfl, mt List.map_eq_nil_iff.mp hne, rfl, rfl⟩
  exact ⟨⟨_, hchecked⟩, (delete_eq_ok paths).mpr ⟨⟨husable, hne, hpaths⟩, rfl⟩⟩

theorem exists_rename {source : ItemPath} {new_name : Text} (husable : Usable context)
    (hsource : Readable u source.text) (hname : GoodName u new_name) :
    ∃ r, rename u context source.text new_name flag = .ok r := by
  have hplain := plain_segments hsource.1
  have hparent : Plain (segments u source.text).dropLast := fun name h => hplain name (List.mem_of_mem_dropLast h)
  have htarget := (androidPath_render (u := u) (plain_concat hparent hname rfl)).mpr (not_blankEnd_concat _ hname)
  have hchecked : postInit u (renameRequest u context flag source new_name) = .ok () :=
    postInit_eq_ok.mpr ⟨husable, List.forall_mem_singleton.mpr (canonical_of_readable hsource), .inr htarget,
      rfl, List.cons_ne_nil _ _, rfl⟩
  exact ⟨⟨_, hchecked⟩, (rename_eq_ok source new_name).mpr ⟨⟨husable, hsource, hname⟩, rfl⟩⟩

theorem exists_properties {path : ItemPath} (husable : Usable context) (hpath : Readable u path.text) :
    ∃ r, properties u context path.text flag = .ok r := by
  have hchecked : postInit u (propertiesRequest u context flag path) = .ok () :=
    postInit_eq_ok.mpr ⟨husable, List.forall_mem_singleton.mpr (canonical_of_readable hpath), .inl rfl, rfl, rfl, rfl⟩
  exact ⟨⟨_, hchecked⟩, (properties_eq_ok path).mpr ⟨⟨husable, hpath⟩, rfl⟩⟩

/-- A request that is made is for items with just these names. -/
def Selects (request : Except Text (AndroidActionRequest u π)) (names : List (List Text)) : Prop :=
  ∀ r, request = .ok r → r.paths.map components = names

/-- A request that is made puts its target right into the folder. -/
def Places (request : Except Text (AndroidActionRequest u π)) (folder : List Text) : Prop :=
  ∀ r, request = .ok r → ∃ name, IsName name ∧ components r.target = folder ++ [name]

theorem components_segments : components (render (segments u path)) = segments u path :=
  components_render (fun _ => isName_of_mem_segments)

theorem isName_of_goodName (h : GoodName u value) : IsName (strip u.toUnicodeData value) := ⟨h.1, h.2.2.1⟩

theorem components_concat (names : List Text) (h : ∀ name ∈ names, IsName name) (hname : GoodName u value) :
    components (render (names ++ [strip u.toUnicodeData value])) = names ++ [strip u.toUnicodeData value] := by
  apply components_render
  rw [List.forall_mem_append, List.forall_mem_singleton]
  exact ⟨h, isName_of_goodName hname⟩

theorem selects_delete_iff (paths : List ItemPath) :
    Selects (delete u context (paths.map ItemPath.text) flag grant) (paths.map (fun path => components path.text)) ↔
      (Usable context → (∀ path ∈ paths, Readable u path.text) → ∀ path ∈ paths, Verbatim u path.text) := by
  have hcarried : ∀ r : AndroidActionRequest u π, r.toRequestFields = deleteRequest u context flag grant paths →
      r.paths.map components = paths.map (fun path => segments u path.text) := by
    intro r hr
    rw [hr, deleteRequest, List.map_map]
    exact List.map_congr_left (fun _ _ => components_segments)
  have hsame : paths.map (fun path => segments u path.text) = paths.map (fun path => components path.text) ↔
      ∀ path ∈ paths, Verbatim u path.text := by
    rw [List.map_inj_left]
    exact forall₂_congr (fun path _ => segments_eq_iff path.absolute)
  rw [← hsame]
  constructor
  · intro h husable hpaths
    by_cases hne : paths = []
    · rw [hne]
      rfl
    · obtain ⟨r, hr⟩ := exists_delete husable hne hpaths
      rw [← hcarried r ((delete_eq_ok paths).mp hr).2]
      exact h r hr
  · intro h r hr
    obtain ⟨⟨husable, -, hpaths⟩, hfields⟩ := (delete_eq_ok paths).mp hr
    rw [hcarried r hfields]
    exact h husable hpaths

theorem selects_properties_iff (path : ItemPath) :
    Selects (properties u context path.text flag) [components path.text] ↔
      (Usable context → Readable u path.text → Verbatim u path.text) := by
  have hcarried : ∀ r : AndroidActionRequest u π, r.toRequestFields = propertiesRequest u context flag path →
      r.paths.map components = [segments u path.text] := by
    intro r hr
    rw [hr, propertiesRequest, List.map_singleton, components_segments]
  rw [← segments_eq_iff path.absolute]
  constructor
  · intro h husable hpath
    obtain ⟨r, hr⟩ := exists_properties husable hpath
    have heq := h r hr
    rw [hcarried r ((properties_eq_ok path).mp hr).2] at heq
    exact List.singleton_inj.mp heq
  · intro h r hr
    obtain ⟨⟨husable, hpath⟩, hfields⟩ := (properties_eq_ok path).mp hr
    rw [hcarried r hfields, h husable hpath]

theorem selects_rename_iff (source : ItemPath) (new_name : Text) :
    Selects (rename u context source.text new_name flag) [components source.text] ∧
        Places (rename u context source.text new_name flag) (components source.text).dropLast ↔
      (Usable context → Readable u source.text → GoodName u new_name → Verbatim u source.text) := by
  have hcarried : ∀ r : AndroidActionRequest u π, r.toRequestFields = renameRequest u context flag source new_name →
      r.paths.map components = [segments u source.text] := by
    intro r hr
    rw [hr, renameRequest, List.map_singleton, components_segments]
  rw [← segments_eq_iff source.absolute]
  constructor
  · rintro ⟨h, -⟩ husable hsource hname
    obtain ⟨r, hr⟩ := exists_rename husable hsource hname
    have heq := h r hr
    rw [hcarried r ((rename_eq_ok source new_name).mp hr).2] at heq
    exact List.singleton_inj.mp heq
  · intro h
    constructor
    · intro r hr
      obtain ⟨⟨husable, hsource, hname⟩, hfields⟩ := (rename_eq_ok source new_name).mp hr
      rw [hcarried r hfields, h husable hsource hname]
    · intro r hr
      obtain ⟨⟨husable, hsource, hname⟩, hfields⟩ := (rename_eq_ok source new_name).mp hr
      refine ⟨_, isName_of_goodName hname, ?_⟩
      rw [hfields, renameRequest, components_concat _ _ hname, h husable hsource hname]
      exact fun name hmem => isName_of_mem_segments (List.mem_of_mem_dropLast hmem)

theorem places_createFolder_iff (parent : ItemPath) (name : Text) :
    Places (createFolder u context parent.text name flag) (components parent.text) ↔
      (Usable context → ¬ Traversal u parent.text → GoodName u name → Verbatim u parent.text) := by
  have hplaced : GoodName u name → ∀ r : AndroidActionRequest u π,
      r.toRequestFields = folderRequest u context flag parent name →
      components r.target = segments u parent.text ++ [strip u.toUnicodeData name] := by
    intro hname r hr
    rw [hr, folderRequest, components_concat _ (fun _ => isName_of_mem_segments) hname]
  rw [← segments_eq_iff parent.absolute]
  constructor
  · intro h husable htraversal hname
    obtain ⟨r, hr⟩ := exists_createFolder husable htraversal hname
    obtain ⟨placed, -, heq⟩ := h r hr
    rw [hplaced hname r ((createFolder_eq_ok parent name).mp hr).2] at heq
    exact List.append_inj_left' heq rfl
  · intro h r hr
    obtain ⟨⟨husable, htraversal, hname⟩, hfields⟩ := (createFolder_eq_ok parent name).mp hr
    refine ⟨_, isName_of_goodName hname, ?_⟩
    rw [hplaced hname r hfields, h husable htraversal hname]

/-- A request that is made is for the items and the folder that were meant if and only if each
path is read verbatim. -/
theorem requests_exact_iff (u : VisibleTables) (context : DeviceContext π) (flag grant : Bool) :
    (∀ paths : List ItemPath,
      Selects (delete u context (paths.map ItemPath.text) flag grant) (paths.map (fun path => components path.text)) ↔
        (Usable context → (∀ path ∈ paths, Readable u path.text) → ∀ path ∈ paths, Verbatim u path.text)) ∧
    (∀ path : ItemPath,
      Selects (properties u context path.text flag) [components path.text] ↔
        (Usable context → Readable u path.text → Verbatim u path.text)) ∧
    (∀ (source : ItemPath) (new_name : Text),
      Selects (rename u context source.text new_name flag) [components source.text] ∧
          Places (rename u context source.text new_name flag) (components source.text).dropLast ↔
        (Usable context → Readable u source.text → GoodName u new_name → Verbatim u source.text)) ∧
    ∀ (parent : ItemPath) (name : Text),
      Places (createFolder u context parent.text name flag) (components parent.text) ↔
        (Usable context → ¬ Traversal u parent.text → GoodName u name → Verbatim u parent.text) :=
  ⟨selects_delete_iff, selects_properties_iff, selects_rename_iff, places_createFolder_iff⟩

theorem blankFolder_legal : ∀ name ∈ components "/sdcard/ ".toList, ¬ isDots name ∧ '\x00' ∉ name :=
  List.forall_iff_forall_mem.mp (by decide)

/-- The folder `/sdcard/ `, whose name is a blank. -/
def blankFolder : ItemPath where
  text := "/sdcard/ ".toList
  absolute := rfl
  legal := blankFolder_legal

/-- Its deletion is a request to delete `/sdcard`. -/
theorem blank_named_folder_retargets :
    ¬ ∀ (u : VisibleTables) (context : DeviceContext Unit) (path : ItemPath),
      Selects (delete u context [path.text] false false) [components path.text] := by
  intro h
  let context : DeviceContext Unit := ⟨['s'], adbMode, [], [], [], ⟨(), (), (), ()⟩, 0⟩
  have hchecked : postInit .ascii { action := .delete, deviceContext := context, paths := ["/sdcard".toList] } = .ok () :=
    rfl
  have hmade : delete .ascii context [blankFolder.text] false false = .ok ⟨_, hchecked⟩ := rfl
  have hpaths : ["/sdcard".toList].map components = [components blankFolder.text] :=
    h .ascii context blankFolder _ hmade
  exact absurd hpaths (by decide)

end AndroidActionRequest

end OpenAdb.Files.Actions
