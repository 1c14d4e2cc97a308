import Mathlib.Data.List.Forall2
import OpenAdb.Lib.PyText

namespace OpenAdb.Apps.AppCache

open OpenAdb.Lib.PyText

structure AppInfo where
  packageName : Text
  appLabel : Text
  appType : Text
  state : Text
  versionName : Text
  versionCode : Text
  apkPaths : List Text
  size : Text
  iconPath : Text
  bloatwareRemoval : Text
  bloatwareList : Text
  bloatwareDescription : Text
  bloatwareLabels : List Text
  metadataChecked : Bool
  assetsChecked : Bool
  deriving DecidableEq

def UNKNOWN : Text := ['U', 'n', 'k', 'n', 'o', 'w', 'n']

/-- An app with the defaults of its class. -/
def AppInfo.named (packageName : Text) : AppInfo where
  packageName := packageName
  appLabel := []
  appType := ['u', 's', 'e', 'r']
  state := ['e', 'n', 'a', 'b', 'l', 'e', 'd']
  versionName := []
  versionCode := []
  apkPaths := []
  size := UNKNOWN
  iconPath := []
  bloatwareRemoval := []
  bloatwareList := []
  bloatwareDescription := []
  bloatwareLabels := []
  metadataChecked := false
  assetsChecked := false

/-- `x or y` -/
def orElse {α : Type} [DecidableEq α] (x y : List α) : List α := if x ≠ [] then x else y

/-- The characters that `strip` knows, and the path of a file that is there and not empty. -/
structure Surroundings where
  unicode : UnicodeData
  file : Text → Option Text

variable (env : Surroundings)

/-- `_valid_icon_path` -/
def validIconPath (value : Text) : Text := if value = [] then [] else (env.file value).getD []

/-- `_same_app_version` -/
def sameAppVersion (fresh cached : AppInfo) : Bool :=
  let freshCode := strip env.unicode fresh.versionCode
  let cachedCode := strip env.unicode cached.versionCode
  if freshCode ≠ [] ∧ cachedCode ≠ [] ∧ freshCode ≠ cachedCode then false
  else
    let freshName := strip env.unicode fresh.versionName
    let cachedName := strip env.unicode cached.versionName
    if freshName ≠ [] ∧ cachedName ≠ [] ∧ freshName ≠ cachedName then false
    else true

/-- The entry of a dictionary by packages: the last one. -/
def cachedFor (cachedApps : List AppInfo) (packageName : Text) : Option AppInfo :=
  cachedApps.reverse.find? (fun app => decide (app.packageName = packageName))

def mergeApp (app cached : AppInfo) : AppInfo :=
  let sameVersion := sameAppVersion env app cached
  { packageName := app.packageName
    appLabel := orElse app.appLabel (if sameVersion = true then cached.appLabel else [])
    appType := orElse app.appType cached.appType
    state := orElse app.state cached.state
    versionName := orElse app.versionName (if sameVersion = true then cached.versionName else [])
    versionCode := orElse app.versionCode cached.versionCode
    apkPaths := orElse app.apkPaths cached.apkPaths
    size := if app.size ≠ [] ∧ app.size ≠ UNKNOWN then app.size else cached.size
    iconPath := orElse app.iconPath (if sameVersion = true then validIconPath env cached.iconPath else [])
    bloatwareRemoval := orElse app.bloatwareRemoval cached.bloatwareRemoval
    bloatwareList := orElse app.bloatwareList cached.bloatwareList
    bloatwareDescription := orElse app.bloatwareDescription cached.bloatwareDescription
    bloatwareLabels := orElse app.bloatwareLabels cached.bloatwareLabels
    metadataChecked := cached.metadataChecked && sameVersion
    assetsChecked := cached.assetsChecked && sameVersion }

/-- `AppInfoCache.merge` -/
def merge (freshApps cachedApps : List AppInfo) : List AppInfo :=
  freshApps.map (fun app =>
    match cachedFor cachedApps app.packageName with
    | none => app
    | some cached => mergeApp env app cached)

/-! What a merge is for. -/

/-- The version codes, or the version names, are both known and differ. -/
def VersionsDiffer (fresh cached : AppInfo) : Prop :=
  let Differ : Text → Text → Prop := fun x y =>
    strip env.unicode x ≠ [] ∧ strip env.unicode y ≠ [] ∧ strip env.unicode x ≠ strip env.unicode y
  Differ fresh.versionCode cached.versionCode ∨ Differ fresh.versionName cached.versionName

/-- What is known of a fresh app stays. -/
structure Kept (fresh merged : AppInfo) : Prop where
  packageName : merged.packageName = fresh.packageName
  appLabel : fresh.appLabel ≠ [] → merged.appLabel = fresh.appLabel
  appType : fresh.appType ≠ [] → merged.appType = fresh.appType
  state : fresh.state ≠ [] → merged.state = fresh.state
  versionName : fresh.versionName ≠ [] → merged.versionName = fresh.versionName
  versionCode : fresh.versionCode ≠ [] → merged.versionCode = fresh.versionCode
  apkPaths : fresh.apkPaths ≠ [] → merged.apkPaths = fresh.apkPaths
  size : fresh.size ≠ [] → fresh.size ≠ UNKNOWN → merged.size = fresh.size
  iconPath : fresh.iconPath ≠ [] → merged.iconPath = fresh.iconPath
  bloatwareRemoval : fresh.bloatwareRemoval ≠ [] → merged.bloatwareRemoval = fresh.bloatwareRemoval
  bloatwareList : fresh.bloatwareList ≠ [] → merged.bloatwareList = fresh.bloatwareList
  bloatwareDescription : fresh.bloatwareDescription ≠ [] → merged.bloatwareDescription = fresh.bloatwareDescription
  bloatwareLabels : fresh.bloatwareLabels ≠ [] → merged.bloatwareLabels = fresh.bloatwareLabels
  metadataChecked : fresh.metadataChecked = true → merged.metadataChecked = true
  assetsChecked : fresh.assetsChecked = true → merged.assetsChecked = true

/-- Nothing of what describes a version comes from elsewhere. -/
structure OwnVersion (fresh merged : AppInfo) : Prop where
  appLabel : merged.appLabel = fresh.appLabel
  versionName : merged.versionName = fresh.versionName
  versionCode : merged.versionCode = fresh.versionCode
  size : merged.size = fresh.size
  apkPaths : merged.apkPaths = fresh.apkPaths
  iconPath : merged.iconPath = fresh.iconPath
  metadataChecked : merged.metadataChecked = true → fresh.metadataChecked = true
  assetsChecked : merged.assetsChecked = true → fresh.assetsChecked = true

/-- The fresh apps in their order, each with what is known of it and nothing that describes another version. -/
def Truthful (freshApps cachedApps : List AppInfo) : Prop :=
  List.Forall₂ (fun app merged => Kept app merged ∧
      ∀ cached, cachedFor cachedApps app.packageName = some cached → VersionsDiffer env app cached →
        OwnVersion app merged)
    freshApps (merge env freshApps cachedApps)

/-- A cached entry that does no harm to a fresh app. -/
structure Harmless (app cached : AppInfo) : Prop where
  metadataChecked : app.metadataChecked = true → cached.metadataChecked = true ∧ ¬VersionsDiffer env app cached
  assetsChecked : app.assetsChecked = true → cached.assetsChecked = true ∧ ¬VersionsDiffer env app cached
  versionCode : VersionsDiffer env app cached → app.versionCode = [] → cached.versionCode = []
  apkPaths : VersionsDiffer env app cached → app.apkPaths = [] → cached.apkPaths = []
  size : VersionsDiffer env app cached → app.size = [] ∨ app.size = UNKNOWN → cached.size = app.size

variable {env} {app cached : AppInfo} {freshApps cachedApps : List AppInfo}

theorem orElse_of_ne {α : Type} [DecidableEq α] {x y : List α} (h : x ≠ []) : orElse x y = x := if_pos h

theorem orElse_nil {α : Type} [DecidableEq α] (x : List α) : orElse x [] = x := by
  by_cases h : x = []
  · rw [orElse, if_neg (not_not_intro h), h]
  · exact orElse_of_ne h

theorem orElse_eq_left {α : Type} [DecidableEq α] {x y : List α} : orElse x y = x ↔ (x = [] → y = []) := by
  constructor
  · rintro h rfl
    exact h
  · intro h
    by_cases hx : x = []
    · rw [h hx, orElse_nil]
    · exact orElse_of_ne hx

theorem sameAppVersion_eq_false : sameAppVersion env app cached = false ↔ VersionsDiffer env app cached := by
  rw [sameAppVersion, VersionsDiffer]
  dsimp only
  split
  · next h => exact iff_of_true rfl (.inl h)
  · next h =>
    split
    · next h' => exact iff_of_true rfl (.inr h')
    · next h' => exact iff_of_false Bool.noConfusion (fun hor => hor.elim h h')

theorem size_eq_left {x y : Text} :
    (if x ≠ [] ∧ x ≠ UNKNOWN then x else y) = x ↔ (x = [] ∨ x = UNKNOWN → y = x) := by
  by_cases h : x ≠ [] ∧ x ≠ UNKNOWN
  · rw [if_pos h]
    exact iff_of_true rfl (fun hor => hor.elim (fun hx => absurd hx h.1) (fun hx => absurd hx h.2))
  · rw [if_neg h]
    have hor : x = [] ∨ x = UNKNOWN := by
      by_contra hnot
      exact h (not_or.mp hnot)
    exact ⟨fun heq _ => heq, fun heq => heq hor⟩

/-- The flags of an app are kept when the cached ones hold for its version. -/
theorem flag_kept {fresh flag : Bool} :
    (fresh = true → (flag && sameAppVersion env app cached) = true) ↔
      (fresh = true → flag = true ∧ ¬VersionsDiffer env app cached) := by
  rw [← sameAppVersion_eq_false, Bool.and_eq_true, Bool.not_eq_false]

theorem kept_mergeApp : Kept app (mergeApp env app cached) ↔
    (app.metadataChecked = true → cached.metadataChecked = true ∧ ¬VersionsDiffer env app cached) ∧
      (app.assetsChecked = true → cached.assetsChecked = true ∧ ¬VersionsDiffer env app cached) := by
  constructor
  · intro h
    exact ⟨flag_kept.mp h.metadataChecked, flag_kept.mp h.assetsChecked⟩
  · rintro ⟨hmetadata, hassets⟩
    exact
      { packageName := rfl
        appLabel := orElse_of_ne
        appType := orElse_of_ne
        state := orElse_of_ne
        versionName := orElse_of_ne
        versionCode := orElse_of_ne
        apkPaths := orElse_of_ne
        size := fun h h' => if_pos ⟨h, h'⟩
        iconPath := orElse_of_ne
        bloatwareRemoval := orElse_of_ne
        bloatwareList := orElse_of_ne
        bloatwareDescription := orElse_of_ne
        bloatwareLabels := orElse_of_ne
        metadataChecked := flag_kept.mpr hmetadata
        assetsChecked := flag_kept.mpr hassets }

theorem ownVersion_mergeApp (h : VersionsDiffer env app cached) : OwnVersion app (mergeApp env app cached) ↔
    (app.versionCode = [] → cached.versionCode = []) ∧ (app.apkPaths = [] → cached.apkPaths = []) ∧
      (app.size = [] ∨ app.size = UNKNOWN → cached.size = app.size) := by
  have hsame := sameAppVersion_eq_false.mpr h
  constructor
  · intro hown
    exact ⟨orElse_eq_left.mp hown.versionCode, orElse_eq_left.mp hown.apkPaths, size_eq_left.mp hown.size⟩
  · rintro ⟨hcode, hpaths, hsize⟩
    have hflag : ∀ flag fresh : Bool, (flag && sameAppVersion env app cached) = true → fresh = true := by
      intro flag fresh hflag
      rw [hsame, Bool.and_false] at hflag
      cases hflag
    have hgated : ∀ x y : Text, orElse x (if sameAppVersion env app cached = true then y else []) = x := by
      intro x y
      rw [hsame, if_neg Bool.false_ne_true, orElse_nil]
    exact
      { appLabel := hgated _ _
        versionName := hgated _ _
        versionCode := orElse_eq_left.mpr hcode
        size := size_eq_left.mpr hsize
        apkPaths := orElse_eq_left.mpr hpaths
        iconPath := hgated _ _
        metadataChecked := hflag _ _
        assetsChecked := hflag _ _ }

theorem harmless_iff : (Kept app (mergeApp env app cached) ∧
    (VersionsDiffer env app cached → OwnVersion app (mergeApp env app cached))) ↔ Harmless env app cached := by
  rw [kept_mergeApp]
  constructor
  · rintro ⟨⟨hmetadata, hassets⟩, hown⟩
    have hparts := fun h => (ownVersion_mergeApp h).mp (hown h)
    exact ⟨hmetadata, hassets, fun h => (hparts h).1, fun h => (hparts h).2.1, fun h => (hparts h).2.2⟩
  · intro h
    exact ⟨⟨h.metadataChecked, h.assetsChecked⟩,
      fun hdiffer => (ownVersion_mergeApp hdiffer).mpr ⟨h.versionCode hdiffer, h.apkPaths hdiffer, h.size hdiffer⟩⟩

theorem Kept.refl (app : AppInfo) : Kept app app := by
  constructor <;> intros <;> first | rfl | assumption

/-- A merge is truthful just when each cached entry that it uses does no harm. -/
theorem truthful_iff : Truthful env freshApps cachedApps ↔
    ∀ app ∈ freshApps, ∀ cached, cachedFor cachedApps app.packageName = some cached → Harmless env app cached := by
  rw [Truthful, merge, List.forall₂_map_right_iff, List.forall₂_same]
  refine forall₂_congr (fun app _ => ?_)
  cases h : cachedFor cachedApps app.packageName with
  | none => exact iff_of_true ⟨Kept.refl app, fun _ hnone => by cases hnone⟩ (fun _ hnone => by cases hnone)
  | some cached =>
    dsimp only
    simp only [Option.some.injEq, forall_eq']
    exact harmless_iff

def freshDemo : AppInfo := { AppInfo.named ['d', 'e', 'm', 'o'] with versionName := ['2'] }

/-- The same app before an update. -/
def oldDemo : AppInfo :=
  { AppInfo.named ['d', 'e', 'm', 'o'] with
    versionName := ['1']
    versionCode := ['1', '0']
    apkPaths := [['/', 'o', 'l', 'd']]
    size := ['5', ' ', 'M', 'B'] }

def noFiles : Surroundings := ⟨.ascii, fun _ => none⟩

/-- The code, the APK path and the size of the old version end up in the entry of the new one. -/
theorem old_version_leaks : ¬Truthful noFiles [freshDemo] [oldDemo] := by
  intro h
  have hdiffer : VersionsDiffer noFiles freshDemo oldDemo := .inr (by decide +kernel)
  have hpair := List.forall₂_cons.mp h
  have hcode := (hpair.1.2 oldDemo rfl hdiffer).versionCode
  exact absurd hcode (by decide +kernel)

end OpenAdb.Apps.AppCache
