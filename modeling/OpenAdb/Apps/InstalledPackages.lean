import OpenAdb.Apps.PackageList
import OpenAdb.Lib.PackageName

namespace OpenAdb.Apps.InstalledPackages

open OpenAdb.Lib.PyText OpenAdb.Lib.PyLines
open OpenAdb.Lib.PackageName (ValidPackage packageChar_range)
open OpenAdb.Apps.AppCache (AppInfo)
open OpenAdb.Apps.PackageList
open OpenAdb.Commands.Results (CommandResult)

/-- An installed package with its APK. -/
structure Package where
  name : Text
  path : Text
  versionCode : Text
  user : Bool
  disabled : Bool
  valid : ValidPackage name
  absolute : path.head? = some '/'
  unbroken : ∀ c ∈ path, isLineBreak c = false
  numeric : versionCode ≠ [] ∧ ∀ c ∈ versionCode, c.isDigit = true

structure Device where
  packages : List Package
  names_nodup : (packages.map Package.name).Nodup

def selects : Query → Package → Bool
  | .user, p => p.user
  | .system, p => !p.user
  | .disabled, p => p.disabled
  | _, _ => true

/-- The line that `pm` prints for a package. -/
def line : Query → Package → Text
  | .versions, p => packagePrefix ++ p.path ++ '=' :: p.name ++ ' ' :: versionPrefix ++ p.versionCode
  | .paths, p => packagePrefix ++ p.path ++ '=' :: p.name
  | _, p => packagePrefix ++ p.name

/-- A query that succeeds delivers everything, and any other one some part from the beginning. -/
def Outcome (d : Device) (query : Query) (result : CommandResult) : Prop :=
  ∃ ps : List Package, ps.Perm (d.packages.filter (selects query)) ∧
    (result.success = true ∧ result.stdout = unlines (ps.map (line query)) ∨
      result.success = false ∧ result.stdout <+: unlines (ps.map (line query)))

def wanted (d : Device) (includeSystem : Bool) : List Package := d.packages.filter (fun p => includeSystem || p.user)

/-- An app that says nothing but the truth about a package. -/
structure Own (p : Package) (app : AppInfo) : Prop where
  name : app.packageName = p.name
  type : app.appType = if p.user then USER else SYSTEM
  state : app.state = if p.disabled then DISABLED else ENABLED
  path : ∀ path ∈ app.apkPaths, path = p.path
  version : app.versionCode = [] ∨ app.versionCode = p.versionCode

def Truthful (d : Device) (includeSystem : Bool) : Except Text (List AppInfo) → Prop
  | .error _ => True
  | .ok apps => (apps.map AppInfo.packageName).Perm ((wanted d includeSystem).map Package.name) ∧
    ∀ app ∈ apps, ∃ p ∈ wanted d includeSystem, Own p app

/-- A row that says nothing but the truth about a package. -/
def RowOf (p : Package) (row : Row) : Prop :=
  (row.apkPath = [] ∨ row.apkPath = p.path) ∧ (row.versionCode = [] ∨ row.versionCode = p.versionCode)

/-- What the answers still have to tell. -/
structure Told (d : Device) (includeSystem : Bool) (rows : List Row) (users systems disabled : List Text) : Prop where
  row : ∀ p ∈ wanted d includeSystem, ∃ row, rows.filter (fun row => row.packageName = p.name) = [row] ∧ RowOf p row
  only : includeSystem = true → ∀ row ∈ rows, row.packageName ≠ [] → ∃ p ∈ d.packages, row.packageName = p.name
  user : ∀ p ∈ d.packages, p.user = true → p.name ∈ users ∧ p.name ∉ systems
  disabled : ∀ p ∈ wanted d includeSystem, p.name ∈ disabled ↔ p.disabled = true

variable {u : Tables} {d : Device}

theorem name_ne_nil (p : Package) : p.name ≠ [] := p.valid.1

theorem package_ext {p q : Package} (hp : p ∈ d.packages) (hq : q ∈ d.packages) (h : p.name = q.name) : p = q :=
  List.inj_on_of_nodup_map d.names_nodup hp hq h

theorem mem_wanted {includeSystem : Bool} {p : Package} :
    p ∈ wanted d includeSystem ↔ p ∈ d.packages ∧ (includeSystem = true ∨ p.user = true) := by
  rw [wanted, List.mem_filter, Bool.or_eq_true]

theorem wanted_nodup (includeSystem : Bool) : ((wanted d includeSystem).map Package.name).Nodup :=
  d.names_nodup.sublist (List.filter_sublist.map _)

section
variable {includeSystem : Bool} {users systems disabled : List Text}

/-- Whether the rows of this name get an app. -/
def Visible (includeSystem : Bool) (users systems : List Text) (name : Text) : Prop :=
  name ≠ [] ∧ ¬ (includeSystem = false ∧ appType users systems name = SYSTEM)

theorem appOf_eq_some {row : Row} {app : AppInfo} :
    appOf includeSystem users systems disabled row = some app ↔
      Visible includeSystem users systems row.packageName ∧
        { AppInfo.named row.packageName with
          appType := appType users systems row.packageName
          state := if row.packageName ∈ disabled then DISABLED else ENABLED
          versionCode := row.versionCode
          apkPaths := if row.apkPath ≠ [] then [row.apkPath] else [] } = app := by
  rw [appOf, Visible]
  by_cases hname : row.packageName = []
  · rw [if_pos hname]
    simp [hname]
  · rw [if_neg hname]
    by_cases hsystem : includeSystem = false ∧ appType users systems row.packageName = SYSTEM
    · simp only
      rw [if_pos hsystem]
      simp [hsystem]
    · simp only
      rw [if_neg hsystem, Option.some.injEq]
      exact ⟨fun h => ⟨⟨hname, hsystem⟩, h⟩, And.right⟩

theorem packageName_of_appOf {row : Row} {app : AppInfo}
    (h : appOf includeSystem users systems disabled row = some app) : app.packageName = row.packageName := by
  rw [← (appOf_eq_some.mp h).2]
  rfl

open Classical in
/-- Each row of a visible name gives one app of that name. -/
theorem count_apps (rows : List Row) (name : Text) :
    ((rows.filterMap (appOf includeSystem users systems disabled)).map AppInfo.packageName).count name =
      if Visible includeSystem users systems name then (rows.filter (fun row => row.packageName = name)).length
      else 0 := by
  induction rows with
  | nil => simp
  | cons row rows ih =>
    rw [List.filterMap_cons]
    cases happ : appOf includeSystem users systems disabled row with
    | none =>
      have hhidden : ¬ Visible includeSystem users systems row.packageName := by
        intro hvisible
        rw [appOf_eq_some.mpr ⟨hvisible, rfl⟩] at happ
        cases happ
      by_cases heq : row.packageName = name
      · rw [heq] at hhidden
        rw [if_neg hhidden] at ih ⊢
        exact ih
      · rw [List.filter_cons_of_neg (by simpa using heq)]
        exact ih
    | some app =>
      have hvisible := (appOf_eq_some.mp happ).1
      have hname := packageName_of_appOf happ
      rw [List.map_cons, hname]
      by_cases heq : row.packageName = name
      · rw [heq] at hvisible ⊢
        rw [if_pos hvisible] at ih ⊢
        rw [List.count_cons_self, ih, List.filter_cons_of_pos (by simpa using heq), List.length_cons]
      · rw [List.count_cons_of_ne heq, ih, List.filter_cons_of_neg (by simpa using heq)]

theorem appType_eq_user {name : Text} :
    appType users systems name = USER ↔ name ∈ users ∧ name ∉ systems := by
  have hne : SYSTEM ≠ USER := by decide
  rw [appType]
  by_cases hsystem : name ∈ systems
  · simp [hsystem, hne]
  · by_cases huser : name ∈ users <;> simp [hsystem, huser, hne]

theorem appType_eq_system {name : Text} :
    appType users systems name = SYSTEM ↔ ¬ (name ∈ users ∧ name ∉ systems) := by
  have hne : USER ≠ SYSTEM := by decide
  rw [appType]
  by_cases hsystem : name ∈ systems
  · simp [hsystem]
  · by_cases huser : name ∈ users <;> simp [hsystem, huser, hne]

theorem state_disabled {p : Package} {state : Text} (h : state = if p.disabled then DISABLED else ENABLED) :
    state = DISABLED ↔ p.disabled = true := by
  have hne : ENABLED ≠ DISABLED := by decide
  rw [h]
  cases p.disabled <;> simp [hne]

theorem state_of_set {name : Text} :
    (if name ∈ disabled then DISABLED else ENABLED) = DISABLED ↔ name ∈ disabled := by
  have hne : ENABLED ≠ DISABLED := by decide
  by_cases h : name ∈ disabled <;> simp [h, hne]

variable {rows : List Row}

theorem told_of_truthful
    (h : Truthful d includeSystem (.ok (rows.filterMap (appOf includeSystem users systems disabled)))) :
    Told d includeSystem rows users systems disabled := by
  obtain ⟨hperm, hown⟩ := h
  -- every wanted package has an app, and that app comes from some row
  have happ : ∀ p ∈ wanted d includeSystem, ∃ row ∈ rows, ∃ app,
      appOf includeSystem users systems disabled row = some app ∧ row.packageName = p.name ∧ Own p app := by
    intro p hp
    have hname : p.name ∈ (rows.filterMap (appOf includeSystem users systems disabled)).map AppInfo.packageName :=
      hperm.mem_iff.mpr (List.mem_map_of_mem hp)
    obtain ⟨app, hmem, hsame⟩ := List.mem_map.mp hname
    obtain ⟨row, hrow, hsome⟩ := List.mem_filterMap.mp hmem
    obtain ⟨q, hq, hq'⟩ := hown app hmem
    have heq : q = p := package_ext (mem_wanted.mp hq).1 (mem_wanted.mp hp).1 (hq'.name.symm.trans hsame)
    rw [heq] at hq'
    exact ⟨row, hrow, app, hsome, (packageName_of_appOf hsome).symm.trans hsame, hq'⟩
  constructor
  · intro p hp
    obtain ⟨row, hrow, app, hsome, hname, hp'⟩ := happ p hp
    have hvisible := (appOf_eq_some.mp hsome).1
    rw [hname] at hvisible
    have hcount := @count_apps includeSystem users systems disabled rows p.name
    rw [if_pos hvisible, hperm.count_eq, List.count_eq_one_of_mem (wanted_nodup includeSystem)
      (List.mem_map_of_mem hp)] at hcount
    obtain ⟨only, honly⟩ := List.length_eq_one_iff.mp hcount.symm
    have hself : row ∈ rows.filter (fun row => row.packageName = p.name) :=
      List.mem_filter.mpr ⟨hrow, by simpa using hname⟩
    rw [honly, List.mem_singleton] at hself
    refine ⟨row, hself ▸ honly, ?_⟩
    have hfields := (appOf_eq_some.mp hsome).2
    have hpath := hp'.path
    have hversion := hp'.version
    rw [← hfields] at hpath hversion
    refine ⟨?_, hversion⟩
    by_cases hempty : row.apkPath = []
    · exact .inl hempty
    · simp only [ne_eq, hempty, not_false_eq_true, if_true] at hpath
      exact .inr (hpath _ List.mem_cons_self)
  · intro hinclude row hrow hne
    have hvisible : Visible includeSystem users systems row.packageName := ⟨hne, by simp [hinclude]⟩
    obtain ⟨app, hsome⟩ : ∃ app, appOf includeSystem users systems disabled row = some app :=
      ⟨_, appOf_eq_some.mpr ⟨hvisible, rfl⟩⟩
    obtain ⟨q, hq, hq'⟩ := hown app (List.mem_filterMap.mpr ⟨row, hrow, hsome⟩)
    exact ⟨q, (mem_wanted.mp hq).1, (packageName_of_appOf hsome).symm.trans hq'.name⟩
  · intro p hp huser
    obtain ⟨row, hrow, app, hsome, hname, hp'⟩ := happ p (mem_wanted.mpr ⟨hp, .inr huser⟩)
    have htype := hp'.type
    rw [← (appOf_eq_some.mp hsome).2, if_pos huser] at htype
    rw [← hname]
    exact appType_eq_user.mp htype
  · intro p hp
    obtain ⟨row, hrow, app, hsome, hname, hp'⟩ := happ p hp
    have hstate := hp'.state
    rw [← (appOf_eq_some.mp hsome).2] at hstate
    rw [← state_disabled hstate, ← hname]
    exact state_of_set.symm

theorem truthful_of_told (husers : ∀ name ∈ users, ∃ p ∈ d.packages, p.user = true ∧ p.name = name)
    (h : Told d includeSystem rows users systems disabled) :
    Truthful d includeSystem (.ok (rows.filterMap (appOf includeSystem users systems disabled))) := by
  classical
  have htype : ∀ p ∈ d.packages, (p.name ∈ users ∧ p.name ∉ systems ↔ p.user = true) := by
    intro p hp
    refine ⟨fun hin => ?_, h.user p hp⟩
    obtain ⟨q, hq, huser, hname⟩ := husers _ hin.1
    rwa [← package_ext hq hp hname]
  have hvisible : ∀ p ∈ wanted d includeSystem, Visible includeSystem users systems p.name := by
    intro p hp
    obtain ⟨hmem, hinclude | huser⟩ := mem_wanted.mp hp
    · exact ⟨name_ne_nil p, by simp [hinclude]⟩
    · refine ⟨name_ne_nil p, fun hsystem => ?_⟩
      exact appType_eq_system.mp hsystem.2 ((htype p hmem).mpr huser)
  -- a row that gets an app names a wanted package
  have hnamed : ∀ row ∈ rows, Visible includeSystem users systems row.packageName →
      ∃ p ∈ wanted d includeSystem, p.name = row.packageName := by
    intro row hrow hvis
    by_cases hinclude : includeSystem = true
    · obtain ⟨p, hp, hname⟩ := h.only hinclude row hrow hvis.1
      exact ⟨p, mem_wanted.mpr ⟨hp, .inl hinclude⟩, hname.symm⟩
    · have huser : row.packageName ∈ users ∧ row.packageName ∉ systems := by
        by_contra hnot
        exact hvis.2 ⟨by simpa using hinclude, appType_eq_system.mpr hnot⟩
      obtain ⟨p, hp, hpuser, hname⟩ := husers _ huser.1
      exact ⟨p, mem_wanted.mpr ⟨hp, .inr hpuser⟩, hname⟩
  constructor
  · rw [List.perm_iff_count]
    intro name
    rw [count_apps]
    by_cases hmem : name ∈ (wanted d includeSystem).map Package.name
    · rw [List.count_eq_one_of_mem (wanted_nodup includeSystem) hmem]
      obtain ⟨p, hp, hname⟩ := List.mem_map.mp hmem
      obtain ⟨row, hrow, hof⟩ := h.row p hp
      rw [← hname, if_pos (hvisible p hp), hrow]
      rfl
    · rw [List.count_eq_zero_of_not_mem hmem]
      split
      · case isTrue hvis =>
        rw [List.length_eq_zero_iff, List.filter_eq_nil_iff]
        intro row hrow hname
        have heq : row.packageName = name := by simpa using hname
        obtain ⟨p, hp, hpname⟩ := hnamed row hrow (heq ▸ hvis)
        exact hmem (List.mem_map.mpr ⟨p, hp, hpname.trans heq⟩)
      · rfl
  · intro app happ
    obtain ⟨row, hrow, hsome⟩ := List.mem_filterMap.mp happ
    obtain ⟨hvis, hfields⟩ := appOf_eq_some.mp hsome
    obtain ⟨p, hp, hname⟩ := hnamed row hrow hvis
    obtain ⟨only, honly, hof⟩ := h.row p hp
    have hself : row ∈ rows.filter (fun row => row.packageName = p.name) :=
      List.mem_filter.mpr ⟨hrow, by simpa using hname.symm⟩
    rw [honly, List.mem_singleton] at hself
    rw [← hself] at hof
    have hmem := (mem_wanted.mp hp).1
    refine ⟨p, hp, ?_⟩
    rw [← hfields]
    refine ⟨hname.symm, ?_, ?_, ?_, hof.2⟩
    · change appType users systems row.packageName = _
      rw [← hname]
      by_cases huser : p.user = true
      · rw [if_pos huser]
        exact appType_eq_user.mpr ((htype p hmem).mpr huser)
      · rw [if_neg huser]
        exact appType_eq_system.mpr (fun hin => huser ((htype p hmem).mp hin))
    · change (if row.packageName ∈ disabled then DISABLED else ENABLED) = _
      rw [← hname]
      by_cases hdis : p.disabled = true
      · rw [if_pos ((h.disabled p hp).mpr hdis), if_pos hdis]
      · rw [if_neg (fun hin => hdis ((h.disabled p hp).mp hin)), if_neg hdis]
    · intro path hpath
      change path ∈ (if row.apkPath ≠ [] then [row.apkPath] else []) at hpath
      obtain hempty | hown := hof.1
      · rw [if_neg (not_not.mpr hempty)] at hpath
        cases hpath
      · split at hpath
        · rw [List.mem_singleton.mp hpath, hown]
        · cases hpath

end

end OpenAdb.Apps.InstalledPackages
