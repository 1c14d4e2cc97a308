import Mathlib.Data.List.Infix
import OpenAdb.Apps.AppCache
import OpenAdb.Lib.PyWords
import OpenAdb.Lib.SortedRows
import OpenAdb.Lib.TextOrder

namespace OpenAdb.Apps.AppTable

open OpenAdb.Lib.PyText OpenAdb.Lib.PyWords OpenAdb.Lib.SortedRows OpenAdb.Lib.TextOrder
open OpenAdb.Apps.AppCache (AppInfo UNKNOWN orElse)

/-- `truncated` is `int` of a product; infinities have none. `less` is the order of Qt on texts. -/
structure Surroundings (φ : Type) extends UnicodeData where
  lower : Text → Text
  unescape : Text → Text
  float : Text → Option φ
  truncated : φ → Nat → Option Int
  less : Text → Text → Bool

inductive Column
  | check | icon | application | bloatware | appType | state | size
  deriving DecidableEq

inductive Icon
  | file (path : Text)
  | fallback
  deriving DecidableEq

/-- A `QTableWidgetItem` with its `PACKAGE_ROLE`. -/
structure Item where
  package : Text
  text : Option Text
  icon : Option Icon
  checked : Bool
  deriving DecidableEq

namespace Item

def setText (text : Text) (item : Item) : Item := { item with text := some text }

def setIcon (icon : Icon) (item : Item) : Item := { item with icon := some icon }

def setCheckState (checked : Bool) (item : Item) : Item := { item with checked := checked }

end Item

abbrev Row := Column → Option Item

inductive SortMode
  | name | sizeDesc | sizeAsc
  deriving DecidableEq

def SortMode.ofText (mode : Text) : SortMode :=
  if mode = "size_desc".toList then .sizeDesc else if mode = "size_asc".toList then .sizeAsc else .name

/-- The package names are distinct. -/
structure DistinctApps where
  apps : List AppInfo
  nodup : (apps.map AppInfo.packageName).Nodup

variable {φ : Type} (env : Surroundings φ)

section texts

def NO_LABELS : List Text := ["not extracted".toList, "unknown".toList, "none".toList, "null".toList]

def RAW_TOKENS : List Text := [['<'], ['>'], "type 0x".toList, "0x".toList, "resource id".toList]

/-- `_clean_label_text` -/
def cleanLabelText (value : Text) : Text :=
  let text := strip env.toUnicodeData (env.unescape value)
  let lowered := env.lower text
  if text = [] then []
  else if lowered ∈ NO_LABELS then []
  else if ['@'] <+: text ∨ ['0', 'x'] <+: lowered then []
  else if RAW_TOKENS.any (fun token => token <:+: lowered) then []
  else [' '].intercalate (words env.toUnicodeData text)

/-- `_label_text` -/
def labelText (app : AppInfo) : Text := orElse (cleanLabelText env app.appLabel) app.packageName

def NOT_LISTED : Text := "Not listed".toList

def CATEGORIES : List Text := ["Recommended".toList, "Advanced".toList, "Expert".toList, "Unsafe".toList]

/-- `_bloatware_category` -/
def bloatwareCategory (app : AppInfo) : Text :=
  let removal := strip env.toUnicodeData app.bloatwareRemoval
  if removal ∈ CATEGORIES then removal else NOT_LISTED

/-- `_bloatware_text` -/
def bloatwareText (app : AppInfo) : Text :=
  let removal := bloatwareCategory env app
  let source := strip env.toUnicodeData app.bloatwareList
  if removal = NOT_LISTED then NOT_LISTED
  else if source ≠ [] then removal ++ [' ', '/', ' '] ++ source
  else removal

def multipliers : List (Text × Nat) :=
  [(['b'], 1), ("byte".toList, 1), ("bytes".toList, 1), (['k', 'b'], 1024), ("kib".toList, 1024),
    (['m', 'b'], 1024 * 1024), ("mib".toList, 1024 * 1024),
    (['g', 'b'], 1024 * 1024 * 1024), ("gib".toList, 1024 * 1024 * 1024),
    (['t', 'b'], 1024 * 1024 * 1024 * 1024), ("tib".toList, 1024 * 1024 * 1024 * 1024)]

/-- `_size_sort_value`; there is none when `int` raises. -/
def sizeSortValue (value : Text) : Option Int :=
  let text := replaceChar ',' '.' (strip env.toUnicodeData value)
  if text = [] ∨ env.lower text = "unknown".toList then some (-1)
  else
    match words env.toUnicodeData text with
    | [] => some (-1)
    | number :: rest =>
      match env.float number with
      | none => some (-1)
      | some number =>
        let unit := match rest with
          | [] => ['b']
          | unit :: _ => env.lower unit
        env.truncated number ((multipliers.lookup unit).getD 1)

def converts (app : AppInfo) : Bool := (sizeSortValue env app.size).isSome

structure SizeKey where
  unknown : Bool
  size : Int
  label : Text
  package : Text

/-- `_size_sort_key` of a size that converts. -/
def sizeSortKey (descending : Bool) (app : AppInfo) : SizeKey :=
  let size := (sizeSortValue env app.size).getD 0
  let unknown : Bool := size < 0
  { unknown := unknown
    size := if descending && !unknown then -size else size
    label := env.lower (labelText env app)
    package := env.lower app.packageName }

/-- The order of tuples. -/
def SizeKey.less (a b : SizeKey) : Bool :=
  if a.unknown ≠ b.unknown then b.unknown
  else if a.size ≠ b.size then a.size < b.size
  else if a.label ≠ b.label then textLess a.label b.label
  else textLess a.package b.package

end texts

section rows

def Icon.ofPath (path : Text) : Icon := if path ≠ [] then .file path else .fallback

/-- The text of an app in a column. -/
def textOf (app : AppInfo) : Column → Option Text
  | .check => none
  | .icon => none
  | .application => some (labelText env app)
  | .bloatware => some (bloatwareText env app)
  | .appType => some app.appType
  | .state => some app.state
  | .size => some app.size

def iconOf (app : AppInfo) : Column → Option Icon
  | .icon => some (Icon.ofPath app.iconPath)
  | _ => none

/-- The row that `set_apps` makes of an app. -/
def rowOf (app : AppInfo) (checked : Bool) : Row := fun col =>
  some { package := app.packageName, text := textOf env app col, icon := iconOf app col,
         checked := checked && col = .check }

/-- The loop of `set_apps`, and whether it raised. The sort value of a size is read before its item is set. -/
def fillRows (checkedPackages : List Text) : List Row → List AppInfo → List Row × Bool
  | row :: rows, app :: apps =>
    let filled := rowOf env app (app.packageName ∈ checkedPackages)
    if converts env app then
      let rest := fillRows checkedPackages rows apps
      (filled :: rest.1, rest.2)
    else (Function.update filled .size (row .size) :: rows, true)
  | rows, _ => (rows, false)

/-- `setRowCount` -/
def setRowCount (rows : List Row) (n : Nat) : List Row :=
  rows.take n ++ List.replicate (n - rows.length) (fun _ => none)

/-- What is missing comes last. -/
def missingLast {α : Type} (less : α → α → Bool) : Option α → Option α → Bool
  | none, _ => false
  | some _, none => true
  | some a, some b => less a b

/-- The items without a text, and the rows without an item, come last. -/
def before (descending : Bool) (a b : Option (Option Text)) : Bool :=
  missingLast (fun x y => if descending then missingLast env.less y x else missingLast env.less x y) a b

def keyOf (col : Column) (row : Row) : Option (Option Text) := (row col).map Item.text

def writeItem (col : Column) (f : Item → Item) (row : Row) : Row := Function.update row col ((row col).map f)

end rows

namespace DistinctApps

def find (apps : DistinctApps) (package : Text) : Option AppInfo :=
  apps.apps.find? (fun app => app.packageName = package)

def sortedBy (apps : DistinctApps) (descending : Bool) : DistinctApps where
  apps := stableSort SizeKey.less (sizeSortKey env descending) apps.apps
  nodup := ((stableSort_perm _ _ _).map _).nodup_iff.mpr apps.nodup

theorem nodup_change (apps : DistinctApps) (package : Text) {f : AppInfo → AppInfo}
    (hf : ∀ app, (f app).packageName = app.packageName) :
    ((apps.apps.map (fun app => if app.packageName = package then f app else app)).map
      AppInfo.packageName).Nodup := by
  rw [List.map_map]
  have hsame : AppInfo.packageName ∘ (fun app => if app.packageName = package then f app else app) =
      AppInfo.packageName := by
    funext app
    rw [Function.comp_apply, apply_ite AppInfo.packageName, hf, ite_self]
  rw [hsame]
  exact apps.nodup

/-- The object of a package is changed in place. -/
def change (apps : DistinctApps) (package : Text) (f : AppInfo → AppInfo)
    (hf : ∀ app, (f app).packageName = app.packageName) : DistinctApps where
  apps := apps.apps.map (fun app => if app.packageName = package then f app else app)
  nodup := apps.nodup_change package hf

end DistinctApps

/-- The fields that `update_app_details` takes from the new app. -/
def merge (updated app : AppInfo) : AppInfo where
  packageName := app.packageName
  appLabel := orElse (cleanLabelText env updated.appLabel) (cleanLabelText env app.appLabel)
  appType := app.appType
  state := app.state
  versionName := orElse updated.versionName app.versionName
  versionCode := orElse updated.versionCode app.versionCode
  apkPaths := orElse updated.apkPaths app.apkPaths
  size :=
    if updated.size ≠ [] ∧ env.lower (strip env.toUnicodeData updated.size) ≠ "unknown".toList then updated.size
    else orElse app.size UNKNOWN
  iconPath := orElse updated.iconPath app.iconPath
  bloatwareRemoval := orElse updated.bloatwareRemoval app.bloatwareRemoval
  bloatwareList := orElse updated.bloatwareList app.bloatwareList
  bloatwareDescription := orElse updated.bloatwareDescription app.bloatwareDescription
  bloatwareLabels := orElse updated.bloatwareLabels app.bloatwareLabels
  metadataChecked := updated.metadataChecked || app.metadataChecked
  assetsChecked := updated.assetsChecked || app.assetsChecked

theorem merge_packageName (updated app : AppInfo) : (merge env updated app).packageName = app.packageName := rfl

def withIcon (path : Text) (app : AppInfo) : AppInfo := { app with iconPath := path }

@[simp] theorem withIcon_packageName (path : Text) (app : AppInfo) :
    (withIcon path app).packageName = app.packageName := rfl

@[simp] theorem withIcon_appType (path : Text) (app : AppInfo) : (withIcon path app).appType = app.appType := rfl

@[simp] theorem withIcon_state (path : Text) (app : AppInfo) : (withIcon path app).state = app.state := rfl

@[simp] theorem withIcon_size (path : Text) (app : AppInfo) : (withIcon path app).size = app.size := rfl

@[simp] theorem withIcon_iconPath (path : Text) (app : AppInfo) : (withIcon path app).iconPath = path := rfl

@[simp] theorem labelText_withIcon (path : Text) (app : AppInfo) :
    labelText env (withIcon path app) = labelText env app := rfl

@[simp] theorem bloatwareText_withIcon (path : Text) (app : AppInfo) :
    bloatwareText env (withIcon path app) = bloatwareText env app := rfl

/-- `apps` also stands for `_app_by_package`. The rows at the indexes in `hidden` are hidden by the filters. -/
structure Table where
  apps : DistinctApps
  rows : List Row
  hidden : List Nat
  sortingEnabled : Bool
  sortColumn : Column
  descending : Bool

namespace Table

def init : Table where
  apps := ⟨[], List.nodup_nil⟩
  rows := []
  hidden := []
  sortingEnabled := true
  sortColumn := .check
  descending := true

def item (t : Table) (i : Nat) (col : Column) : Option Item := t.rows[i]?.bind (· col)

/-- `for row in range(self.rowCount())` -/
def eachRow {β : Type} (t : Table) (f : Row → Nat → Option β) : List β :=
  t.rows.zipIdx.filterMap (fun place => f place.1 place.2)

/-- `_rows_for_package` -/
def rowsForPackage (t : Table) (package : Text) : List Nat :=
  t.eachRow (fun row i => if (row .application).any (fun item => item.package = package) then some i else none)

def checkedApp (t : Table) (includeHidden : Bool) (row : Row) (i : Nat) : Option AppInfo :=
  (row .check).bind (fun item =>
    if item.checked && (includeHidden || !t.hidden.contains i) then t.apps.find item.package else none)

def checkedApps (t : Table) (includeHidden : Bool) : List AppInfo := t.eachRow (t.checkedApp includeHidden)

def checkedPackageNames (t : Table) : List Text :=
  t.eachRow (fun row _ => (row .check).bind (fun item =>
    if item.checked && item.package ≠ [] then some item.package else none))

def sortRows (t : Table) : Table :=
  { t with rows := stableSort (before env t.descending) (keyOf t.sortColumn) t.rows }

def setSortingEnabled (t : Table) (enabled : Bool) : Table :=
  if enabled then { t.sortRows env with sortingEnabled := true } else { t with sortingEnabled := false }

def sortItems (t : Table) (col : Column) (descending : Bool) : Table :=
  { t with sortColumn := col, descending := descending }.sortRows env

/-- While sorting is enabled, a row whose item in the sort column changes moves to its place at once. -/
def itemChanged (t : Table) (i : Nat) (col : Column) : Table :=
  if t.sortingEnabled ∧ t.sortColumn = col then
    { t with rows := settle (before env t.descending) (keyOf col) t.rows i }
  else t

def write (t : Table) (i : Nat) (col : Column) (f : Item → Item) : Table :=
  { t with rows := t.rows.modify i (writeItem col f) }

def change (t : Table) (i : Nat) (col : Column) (f : Item → Item) : Table :=
  match t.item i col with
  | none => t
  | some item => if f item = item then t else (t.write i col f).itemChanged env i col

def setText (t : Table) (i : Nat) (col : Column) (text : Text) : Table := t.change env i col (Item.setText text)

def setIcon (t : Table) (i : Nat) (icon : Icon) : Table := t.change env i .icon (Item.setIcon icon)

def setCheckState (t : Table) (i : Nat) (checked : Bool) : Table :=
  t.change env i .check (Item.setCheckState checked)

def sortByLabel (t : Table) : Table := (t.setSortingEnabled env true).sortItems env .application false

def setApps (t : Table) (apps : DistinctApps) (sort : Bool) (checkedPackages : List Text) : Table :=
  let t := t.setSortingEnabled env false
  let filled := fillRows env checkedPackages (setRowCount t.rows apps.apps.length) apps.apps
  let t := { t with apps := apps, rows := filled.1 }
  if filled.2 then t
  else if sort then (t.setSortingEnabled env true).sortByLabel env
  else t.setSortingEnabled env false

/-- All sort keys are computed before the first app is set. -/
def setAppsSorted (t : Table) (apps : DistinctApps) (mode : SortMode) (checkedPackages : List Text) : Table :=
  if mode = .name then t.setApps env apps true checkedPackages
  else if apps.apps.all (converts env) then
    t.setApps env (apps.sortedBy env (mode = .sizeDesc)) false checkedPackages
  else t

def setIconForPackage (t : Table) (package path : Text) : Table :=
  let t := match t.apps.find package with
    | none => t
    | some _ => { t with apps := t.apps.change package (withIcon path) (withIcon_packageName path) }
  (t.rowsForPackage package).foldl (fun t i => t.setIcon env i (Icon.ofPath path)) t

/-- The texts and the icon of one row, and whether the sort value of the size raised. -/
def updateRow (t : Table) (i : Nat) (app : AppInfo) : Table × Bool :=
  let t := t.setText env i .application (labelText env app)
  let t := t.setText env i .bloatware (bloatwareText env app)
  let sized := (t.item i .size).isSome
  let t := t.setText env i .size app.size
  if sized && !converts env app then (t, true)
  else if app.iconPath ≠ [] then (t.setIcon env i (.file app.iconPath), false)
  else (t, false)

def updateRows (app : AppInfo) : List Nat → Table → Table
  | [], t => t
  | i :: rows, t =>
    let updated := t.updateRow env i app
    if updated.2 then updated.1 else updateRows app rows updated.1

def updateAppDetails (t : Table) (updated : AppInfo) : Table :=
  match t.apps.find updated.packageName with
  | none => t
  | some app =>
    let apps := t.apps.change updated.packageName (merge env updated) (merge_packageName env updated)
    let t := { t with apps := apps }
    updateRows env (merge env updated app) (t.rowsForPackage updated.packageName) t

def sortBySize (t : Table) (mode : SortMode) : Table := t.setAppsSorted env t.apps mode t.checkedPackageNames

def applySort (t : Table) (mode : SortMode) : Table :=
  if mode = .name then t.sortByLabel env else t.sortBySize env mode

/-- The user sorts by a column header. -/
def sortByHeader (t : Table) (col : Column) (descending : Bool) : Table :=
  let t := { t with sortColumn := col, descending := descending }
  if t.sortingEnabled then t.sortRows env else t

inductive Call
  | setAppsSorted (apps : DistinctApps) (mode : Text) (checkedPackages : List Text)
  | updateAppDetails (updated : AppInfo)
  | setIconForPackage (package path : Text)
  | applySort (mode : Text)
  | sortByHeader (col : Column) (descending : Bool)
  | setCheckState (row : Nat) (checked : Bool)

def step (t : Table) : Call → Option Table
  | .setAppsSorted apps mode checkedPackages => some (t.setAppsSorted env apps (.ofText mode) checkedPackages)
  | .updateAppDetails updated => some (t.updateAppDetails env updated)
  | .setIconForPackage package path => some (t.setIconForPackage env package path)
  | .applySort mode => some (t.applySort env (.ofText mode))
  | .sortByHeader col descending => some (t.sortByHeader env col descending)
  | .setCheckState row checked => some (t.setCheckState env row checked)

end Table

end OpenAdb.Apps.AppTable
