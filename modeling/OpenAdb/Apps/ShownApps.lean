import OpenAdb.Apps.AppTable
import OpenAdb.Lib.Runs

namespace OpenAdb.Apps.AppTable

open OpenAdb.Lib.PyText OpenAdb.Lib.Runs OpenAdb.Lib.SortedRows OpenAdb.Lib.TextOrder
open OpenAdb.Apps.AppCache (AppInfo UNKNOWN orElse)

variable {φ : Type} {env : Surroundings φ}

/-- An app and whether its row is checked. -/
abbrev Mark := AppInfo × Bool

def Mark.name (mark : Mark) : Text := mark.1.packageName

variable (env) in
def Mark.row (mark : Mark) : Row := rowOf env mark.1 mark.2

def marksOf (checkedPackages : List Text) (apps : List AppInfo) : List Mark :=
  apps.map (fun app => (app, decide (app.packageName ∈ checkedPackages)))

theorem fst_marksOf (checkedPackages : List Text) (apps : List AppInfo) :
    (marksOf checkedPackages apps).map Prod.fst = apps := by
  rw [marksOf, List.map_map]
  exact List.map_id apps

theorem fillRows_eq {checkedPackages : List Text} {rows : List Row} {apps : List AppInfo}
    (hlen : rows.length = apps.length) (h : ∀ app ∈ apps, converts env app = true) :
    fillRows env checkedPackages rows apps =
      ((marksOf checkedPackages apps).map (Mark.row env), false) := by
  induction apps generalizing rows with
  | nil =>
    obtain rfl := List.length_eq_zero_iff.mp hlen
    rfl
  | cons app apps ih =>
    obtain ⟨row, rows, rfl⟩ := List.exists_cons_of_length_eq_add_one hlen
    obtain ⟨happ, happs⟩ := List.forall_mem_cons.mp h
    rw [fillRows, if_pos happ, ih (Nat.succ.inj hlen) happs]
    rfl

theorem length_setRowCount (rows : List Row) (n : Nat) : (setRowCount rows n).length = n := by
  rw [setRowCount, List.length_append, List.length_take, List.length_replicate]
  omega

namespace DistinctApps

theorem find_of_mem {apps : DistinctApps} {app : AppInfo} (h : app ∈ apps.apps) :
    apps.find app.packageName = some app := by
  cases hfind : apps.find app.packageName with
  | none =>
    have hnone := List.find?_eq_none.mp hfind app h
    exact absurd (decide_eq_true rfl) hnone
  | some other =>
    have hname : other.packageName = app.packageName := by simpa using List.find?_some hfind
    rw [List.inj_on_of_nodup_map apps.nodup (List.mem_of_find?_eq_some hfind) h hname]

theorem mem_of_find {apps : DistinctApps} {package : Text} {app : AppInfo} (h : apps.find package = some app) :
    app ∈ apps.apps ∧ app.packageName = package :=
  ⟨List.mem_of_find?_eq_some h, by simpa using List.find?_some h⟩

end DistinctApps

namespace Table

variable {t t' : Table} {marks marks' : List Mark} {mark : Mark} {i : Nat} {col : Column}

variable (env) in
/-- The rows are those of the apps, each once, and none is hidden. -/
structure Shows (t : Table) (marks : List Mark) : Prop where
  rows : t.rows = marks.map (Mark.row env)
  apps : (marks.map Prod.fst).Perm t.apps.apps
  hidden : t.hidden = []

theorem Shows.perm (h : Shows env t marks) (hperm : marks'.Perm marks) (hrows : t'.rows = marks'.map (Mark.row env))
    (happs : t'.apps = t.apps) (hhidden : t'.hidden = t.hidden) : Shows env t' marks' where
  rows := hrows
  apps := by
    rw [happs]
    exact (hperm.map _).trans h.apps
  hidden := hhidden.trans h.hidden

theorem Shows.nodup (h : Shows env t marks) : (marks.map Mark.name).Nodup := by
  have hnames : marks.map Mark.name = (marks.map Prod.fst).map AppInfo.packageName := by
    rw [List.map_map]
    rfl
  rw [hnames, (h.apps.map _).nodup_iff]
  exact t.apps.nodup

theorem Shows.find (h : Shows env t marks) (hmark : mark ∈ marks) : t.apps.find mark.name = some mark.1 :=
  DistinctApps.find_of_mem (h.apps.mem_iff.mp (List.mem_map_of_mem hmark))

theorem Shows.exists_mark (h : Shows env t marks) {package : Text} {app : AppInfo}
    (hfind : t.apps.find package = some app) :
    ∃ (i : Nat) (mark : Mark), marks[i]? = some mark ∧ mark.1 = app ∧ mark.name = package := by
  obtain ⟨hmem, hname⟩ := DistinctApps.mem_of_find hfind
  obtain ⟨mark, hmark, rfl⟩ := List.mem_map.mp (h.apps.mem_iff.mpr hmem)
  obtain ⟨i, hi⟩ := List.getElem?_of_mem hmark
  exact ⟨i, mark, hi, rfl, hname⟩

theorem eachRow_map (h : Shows env t marks) {β : Type} (f : Row → Nat → Option β) :
    t.eachRow f = marks.zipIdx.filterMap (fun place => f (place.1.row env) place.2) := by
  rw [eachRow, h.rows, List.zipIdx_map, List.filterMap_map]
  rfl

theorem Shows.rowsForPackage_eq (h : Shows env t marks) (package : Text) :
    t.rowsForPackage package =
      ((marks.map Mark.name).zipIdx 0).filterMap (fun place => if place.1 = package then some place.2 else none) := by
  rw [rowsForPackage, eachRow_map h, List.zipIdx_map, List.filterMap_map]
  refine List.filterMap_congr (fun place _ => ?_)
  simp [Mark.row, rowOf, Mark.name]
  rfl

theorem Shows.rowsForPackage_mark (h : Shows env t marks) (hi : marks[i]? = some mark) :
    t.rowsForPackage mark.name = [i] := by
  have hname : (marks.map Mark.name)[i]? = some mark.name := by
    rw [List.getElem?_map, hi]
    rfl
  rw [h.rowsForPackage_eq, indexes_unique h.nodup hname, Nat.zero_add]

theorem Shows.rowsForPackage_none (h : Shows env t marks) {package : Text} (hfind : t.apps.find package = none) :
    t.rowsForPackage package = [] := by
  rw [h.rowsForPackage_eq]
  refine indexes_absent (fun hmem => ?_) 0
  obtain ⟨mark, hmark, rfl⟩ := List.mem_map.mp hmem
  rw [h.find hmark] at hfind
  cases hfind

/-- The checked apps are those of the checked rows. -/
theorem Shows.checkedApps (h : Shows env t marks) (includeHidden : Bool) :
    t.checkedApps includeHidden = (marks.filter Prod.snd).map Prod.fst := by
  have hrow : ∀ mark ∈ marks, ∀ i, t.checkedApp includeHidden (mark.row env) i =
      if mark.2 then some mark.1 else none := by
    intro mark hmark i
    have hfind := h.find hmark
    rw [Mark.name] at hfind
    simp [checkedApp, Mark.row, rowOf, h.hidden, hfind]
  rw [Table.checkedApps, eachRow_map h, filterMap_zipIdx hrow]
  clear h hrow
  induction marks with
  | nil => rfl
  | cons mark marks ih =>
    rw [List.filterMap_cons, ih]
    cases hchecked : mark.2 with
    | false => simp [hchecked]
    | true => simp [hchecked]

theorem Shows.sortRows (h : Shows env t marks) : ∃ marks', Shows env (t.sortRows env) marks' := by
  refine ⟨_, h.perm (stableSort_perm (before env t.descending) (keyOf t.sortColumn ∘ Mark.row env) marks) ?_ rfl rfl⟩
  rw [Table.sortRows, h.rows]
  exact stableSort_map _ _ _ _

theorem Shows.setSortingEnabled (h : Shows env t marks) (enabled : Bool) :
    ∃ marks', Shows env (t.setSortingEnabled env enabled) marks' := by
  cases enabled with
  | true =>
    obtain ⟨marks', hsorted⟩ := h.sortRows
    exact ⟨marks', hsorted.rows, hsorted.apps, hsorted.hidden⟩
  | false => exact ⟨marks, h.rows, h.apps, h.hidden⟩

theorem Shows.sortByLabel (h : Shows env t marks) : ∃ marks', Shows env (t.sortByLabel env) marks' := by
  obtain ⟨marks', hsorted⟩ := h.setSortingEnabled true
  exact Shows.sortRows ⟨hsorted.rows, hsorted.apps, hsorted.hidden⟩

theorem Shows.sortByHeader (h : Shows env t marks) (col : Column) (descending : Bool) :
    ∃ marks', Shows env (t.sortByHeader env col descending) marks' := by
  rw [Table.sortByHeader]
  dsimp only
  split_ifs with hsorting
  · exact Shows.sortRows ⟨h.rows, h.apps, h.hidden⟩
  · exact ⟨marks, h.rows, h.apps, h.hidden⟩

theorem shows_setApps {apps : DistinctApps} (hhidden : t.hidden = []) (h : ∀ app ∈ apps.apps, converts env app = true)
    (sort : Bool) (checkedPackages : List Text) :
    ∃ marks, Shows env (t.setApps env apps sort checkedPackages) marks := by
  have hfilled := @fillRows_eq _ env checkedPackages
    (setRowCount (t.setSortingEnabled env false).rows apps.apps.length) apps.apps (length_setRowCount _ _) h
  have happs : ((marksOf checkedPackages apps.apps).map Prod.fst).Perm apps.apps :=
    List.Perm.of_eq (fst_marksOf _ _)
  simp only [setApps, hfilled, Bool.false_eq_true, if_false]
  split_ifs with hsort
  · obtain ⟨marks, hsorted⟩ := Shows.setSortingEnabled (t := { t.setSortingEnabled env false with
      apps := apps
      rows := (marksOf checkedPackages apps.apps).map (Mark.row env) }) ⟨rfl, happs, hhidden⟩ true
    exact hsorted.sortByLabel
  · exact ⟨_, rfl, happs, hhidden⟩

theorem Shows.setAppsSorted (h : Shows env t marks) {apps : DistinctApps} {mode : SortMode}
    (hconverts : mode = .name → ∀ app ∈ apps.apps, converts env app = true) (checkedPackages : List Text) :
    ∃ marks', Shows env (t.setAppsSorted env apps mode checkedPackages) marks' := by
  rw [Table.setAppsSorted]
  split_ifs with hmode hall
  · exact shows_setApps h.hidden (hconverts hmode) true checkedPackages
  · refine shows_setApps h.hidden (fun app happ => ?_) false checkedPackages
    exact List.all_eq_true.mp hall app ((stableSort_perm _ _ _).mem_iff.mp happ)
  · exact ⟨marks, h⟩

theorem Shows.applySort (h : Shows env t marks) (mode : SortMode) :
    ∃ marks', Shows env (t.applySort env mode) marks' := by
  rw [Table.applySort]
  split_ifs with hmode
  · exact h.sortByLabel
  · exact h.setAppsSorted (fun hname => absurd hname hmode) _

section writes

variable {c : Column} {f : Item → Item} {item : Item} {text : Text} {rows : List Row}

variable (env) in
/-- The row keeps its place when its text in a column is set. -/
def stays (t : Table) (i : Nat) (col : Column) (text : Text) : Bool :=
  !(t.sortingEnabled && t.sortColumn = col) || (t.item i col).all (fun item => item.text = some text) ||
    (place (before env t.descending) ((t.rows.map (keyOf col)).set i (some (some text))) i = i)

theorem exists_row (h : t.item i col = some item) : ∃ row, t.rows[i]? = some row ∧ row col = some item :=
  Option.bind_eq_some_iff.mp h

theorem keys_modify_of_ne (hne : c ≠ col) :
    (rows.modify i (writeItem col f)).map (keyOf c) = rows.map (keyOf c) := by
  apply List.ext_getElem?
  intro j
  rw [List.getElem?_map, List.getElem?_map, List.getElem?_modify]
  cases rows[j]? with
  | none => rfl
  | some row =>
    have hkey : keyOf c (writeItem col f row) = keyOf c row := by
      rw [keyOf, writeItem, Function.update_of_ne hne, keyOf]
    by_cases hj : i = j
    · simp [hj, hkey]
    · simp [hj]

theorem keys_modify {row : Row} (hrow : rows[i]? = some row) (hitem : row col = some item) :
    (rows.modify i (writeItem col f)).map (keyOf col) = (rows.map (keyOf col)).set i (some (f item).text) := by
  have hkey : keyOf col (writeItem col f row) = some (f item).text := by
    rw [keyOf, writeItem, Function.update_self, hitem]
    rfl
  apply List.ext_getElem?
  intro j
  rw [List.getElem?_map, List.getElem?_modify, List.getElem?_set, List.length_map, List.getElem?_map]
  obtain rfl | hne := eq_or_ne i j
  · have hlt := (List.getElem?_eq_some_iff.mp hrow).1
    rw [hrow, if_pos rfl, if_pos hlt, Option.map_eq_map, Option.map_some, Option.map_some, if_pos rfl, hkey]
  · simp [hne]

theorem item_write_of_ne (hne : c ≠ col) (j : Nat) : (t.write i col f).item j c = t.item j c := by
  rw [Table.item, Table.item, Table.write, List.getElem?_modify]
  cases t.rows[j]? with
  | none => rfl
  | some row =>
    by_cases hj : i = j
    · simp [hj, writeItem, Function.update_of_ne hne]
    · simp [hj]

theorem stays_write_of_ne (hne : c ≠ col) (j : Nat) (text : Text) :
    (t.write i col f).stays env j c text = t.stays env j c text := by
  rw [stays, stays, item_write_of_ne hne, write, keys_modify_of_ne hne]

variable (env) in
theorem change_eq (hitem : t.item i col = some item) :
    ∃ j, (i < t.rows.length → j < t.rows.length) ∧
      t.change env i col f = { t with rows := moveTo (t.write i col f).rows i j } ∧
      (j = i ∨ t.sortingEnabled = true ∧ t.sortColumn = col ∧ f item ≠ item ∧
        j = place (before env t.descending) ((t.rows.map (keyOf col)).set i (some (f item).text)) i) := by
  obtain ⟨row, hrow, hcell⟩ := exists_row hitem
  rw [change, hitem]
  dsimp only
  split_ifs with hsame
  · refine ⟨i, id, ?_, .inl rfl⟩
    have hfixed : writeItem col f row = row := by
      rw [writeItem, hcell, Option.map_some, hsame, ← hcell, Function.update_eq_self]
    rw [moveTo_self, write, modify_of_fixed hrow hfixed]
  · rw [itemChanged]
    split_ifs with hsorting
    · rw [settle, write, keys_modify hrow hcell]
      refine ⟨_, fun hlt => ?_, rfl, .inr ⟨hsorting.1, hsorting.2, hsame, rfl⟩⟩
      have hkeys : i < ((t.rows.map (keyOf col)).set i (some (f item).text)).length := by simpa using hlt
      simpa using place_lt (before env t.descending) hkeys
    · refine ⟨i, id, ?_, .inl rfl⟩
      rw [moveTo_self]
      rfl

variable (env) in
theorem setText_eq (hitem : t.item i col = some item) (text : Text) :
    ∃ j, (i < t.rows.length → j < t.rows.length) ∧
      t.setText env i col text = { t with rows := moveTo (t.write i col (Item.setText text)).rows i j } ∧
      (t.stays env i col text = true → j = i) := by
  obtain ⟨j, hlt, heq, hj⟩ := change_eq env (f := Item.setText text) hitem
  refine ⟨j, hlt, heq, fun hstays => ?_⟩
  obtain rfl | ⟨hsorting, hcol, hchanged, rfl⟩ := hj
  · rfl
  · have htext : item.text ≠ some text := by
      intro htext
      apply hchanged
      rw [Item.setText, ← htext]
    simp only [stays, hsorting, hcol, hitem, Option.all_some, htext, decide_true, Bool.and_self, Bool.not_true,
      decide_false, Bool.or_self, Bool.false_or, decide_eq_true_eq] at hstays
    exact hstays

theorem setText_of_stays (hitem : t.item i col = some item) (hstays : t.stays env i col text = true) :
    t.setText env i col text = t.write i col (Item.setText text) := by
  obtain ⟨j, -, heq, hj⟩ := setText_eq env hitem text
  rw [heq, hj hstays, moveTo_self]
  rfl

/-- In a column without texts no row moves. -/
theorem change_textless (hitem : t.item i col = some item) (htext : (f item).text = none)
    (hkeys : ∀ key ∈ t.rows.map (keyOf col), key = some none) :
    t.change env i col f = t.write i col f := by
  obtain ⟨j, -, heq, hj⟩ := change_eq env (f := f) hitem
  have hstays : j = i := by
    obtain rfl | ⟨-, -, -, rfl⟩ := hj
    · rfl
    · have hall : ∀ key ∈ (t.rows.map (keyOf col)).set i (some (f item).text), key = some none := by
        intro key hkey
        obtain hkey | rfl := List.mem_or_eq_of_mem_set hkey
        · exact hkeys key hkey
        · rw [htext]
      refine place_of_equal (fun x hx y hy => ?_)
      rw [hall x hx, hall y hy]
      simp [before, missingLast]
  rw [heq, hstays, moveTo_self]
  rfl

variable {app old : AppInfo}

theorem written_texts (hname : app.packageName = old.packageName) (htype : app.appType = old.appType)
    (hstate : app.state = old.state) (checked : Bool) :
    writeItem .size (Item.setText app.size) (writeItem .bloatware (Item.setText (bloatwareText env app))
      (writeItem .application (Item.setText (labelText env app)) (rowOf env old checked))) =
      rowOf env (withIcon old.iconPath app) checked := by
  funext col
  cases col <;> simp [writeItem, rowOf, textOf, iconOf, Item.setText, hname, htype, hstate]

theorem written_icon (app : AppInfo) (checked : Bool) (path : Text) :
    writeItem .icon (Item.setIcon (Icon.ofPath path)) (rowOf env app checked) =
      rowOf env (withIcon path app) checked := by
  funext col
  cases col <;> simp [writeItem, rowOf, textOf, iconOf, Item.setIcon]

theorem written_check (app : AppInfo) (checked checked' : Bool) :
    writeItem .check (Item.setCheckState checked') (rowOf env app checked) = rowOf env app checked' := by
  funext col
  cases col <;> simp [writeItem, rowOf, textOf, iconOf, Item.setCheckState]

theorem exists_item (hrows : t.rows = marks.map (Mark.row env)) (hi : marks[i]? = some mark) (col : Column) :
    ∃ item, t.item i col = some item := by
  rw [Table.item, hrows, List.getElem?_map, hi]
  exact ⟨_, rfl⟩

theorem textless_keys (hrows : t.rows = marks.map (Mark.row env)) (hcol : ∀ app, textOf env app col = none) :
    ∀ key ∈ t.rows.map (keyOf col), key = some none := by
  rw [hrows]
  intro key hkey
  obtain ⟨row, hrow, rfl⟩ := List.mem_map.mp hkey
  obtain ⟨mark, -, rfl⟩ := List.mem_map.mp hrow
  rw [keyOf, Mark.row, rowOf, Option.map_some, hcol]

/-- An item without a text changes in its place. -/
theorem change_mark (hrows : t.rows = marks.map (Mark.row env)) (hi : marks[i]? = some mark) {m : Mark → Mark}
    (hcol : ∀ app, textOf env app col = none) (hf : ∀ item, (f item).text = item.text)
    (hm : writeItem col f (mark.row env) = (m mark).row env) :
    t.change env i col f = { t with rows := (marks.modify i m).map (Mark.row env) } := by
  obtain ⟨item, hitem⟩ := exists_item hrows hi col
  have htext : item.text = none := by
    rw [Table.item, hrows, List.getElem?_map, hi] at hitem
    obtain rfl := Option.some.inj hitem
    exact hcol mark.1
  rw [change_textless hitem ((hf item).trans htext) (textless_keys hrows hcol), write, hrows, map_modify hi hm]

theorem setIcon_eq (hrows : t.rows = marks.map (Mark.row env)) (hi : marks[i]? = some mark) (path : Text) :
    t.setIcon env i (Icon.ofPath path) =
      { t with rows := (marks.modify i (fun mark => (withIcon path mark.1, mark.2))).map (Mark.row env) } :=
  change_mark hrows hi (m := fun mark => (withIcon path mark.1, mark.2)) (fun _ => rfl) (fun _ => rfl)
    (written_icon mark.1 mark.2 path)

theorem setCheckState_eq (hrows : t.rows = marks.map (Mark.row env)) (hi : marks[i]? = some mark) (checked : Bool) :
    t.setCheckState env i checked =
      { t with rows := (marks.modify i (fun mark => (mark.1, checked))).map (Mark.row env) } :=
  change_mark hrows hi (m := fun mark => (mark.1, checked)) (fun _ => rfl) (fun _ => rfl)
    (written_check mark.1 mark.2 checked)

/-- The row of an app shows what the app became. It may move when its last text is set. -/
theorem updateRow_eq (hrows : t.rows = marks.map (Mark.row env)) (hi : marks[i]? = some mark)
    (hname : app.packageName = mark.1.packageName) (htype : app.appType = mark.1.appType)
    (hstate : app.state = mark.1.state) (hicon : app.iconPath = [] → mark.1.iconPath = [])
    (hconverts : converts env app = true) (hlabel : t.stays env i .application (labelText env app) = true)
    (hbloatware : t.stays env i .bloatware (bloatwareText env app) = true)
    (hsize : app.iconPath = [] ∨ t.stays env i .size app.size = true) :
    ∃ j, (i < marks.length → j < marks.length) ∧ t.updateRow env i app =
      ({ t with rows := (moveTo (marks.modify i (fun mark => (app, mark.2))) i j).map (Mark.row env) }, false) := by
  obtain ⟨labelItem, hlabelItem⟩ := exists_item hrows hi .application
  obtain ⟨bloatwareItem, hbloatwareItem⟩ := exists_item hrows hi .bloatware
  obtain ⟨sizeItem, hsizeItem⟩ := exists_item hrows hi .size
  obtain ⟨iconItem, hiconItem⟩ := exists_item hrows hi .icon
  have hfirst := setText_of_stays hlabelItem hlabel
  generalize hlabelled : t.write i .application (Item.setText (labelText env app)) = labelled at hfirst
  have hsecond : labelled.setText env i .bloatware (bloatwareText env app) =
      labelled.write i .bloatware (Item.setText (bloatwareText env app)) := by
    subst hlabelled
    refine setText_of_stays ((item_write_of_ne (by decide) i).trans hbloatwareItem) ?_
    · rw [stays_write_of_ne (by decide), hbloatware]
  generalize hlisted : labelled.write i .bloatware (Item.setText (bloatwareText env app)) = listed at hsecond
  have hlistedItem : listed.item i .size = some sizeItem := by
    subst hlisted hlabelled
    rw [item_write_of_ne (by decide), item_write_of_ne (by decide), hsizeItem]
  have hlistedStays : listed.stays env i .size app.size = t.stays env i .size app.size := by
    subst hlisted hlabelled
    rw [stays_write_of_ne (by decide), stays_write_of_ne (by decide)]
  obtain ⟨j, hlt, hthird, hj⟩ := setText_eq env hlistedItem app.size
  have hlength : listed.rows.length = marks.length := by
    subst hlisted hlabelled
    simp [write, hrows]
  have htexts : (listed.write i .size (Item.setText app.size)).rows =
      (marks.modify i (fun mark => (withIcon mark.1.iconPath app, mark.2))).map (Mark.row env) := by
    subst hlisted hlabelled
    rw [write, write, write, List.modify_modify_eq, List.modify_modify_eq, hrows]
    exact map_modify hi (written_texts hname htype hstate mark.2)
  have hsame : ({ listed with rows := t.rows } : Table) = t := by
    subst hlisted hlabelled
    rfl
  rw [updateRow, hfirst, hsecond, hthird, hconverts, Bool.not_true, Bool.and_false, if_neg Bool.false_ne_true]
  rw [hlength] at hlt
  split_ifs with hpath
  · have hplace := hj (hlistedStays.trans (hsize.resolve_left hpath))
    have hmark : (marks.modify i (fun mark => (withIcon mark.1.iconPath app, mark.2)))[i]? =
        some (withIcon mark.1.iconPath app, mark.2) := by
      rw [List.getElem?_modify_eq, hi]
      rfl
    have hfile : Icon.file app.iconPath = Icon.ofPath app.iconPath := (if_pos hpath).symm
    refine ⟨i, id, ?_⟩
    rw [hplace, moveTo_self, moveTo_self, htexts, hfile, setIcon_eq rfl hmark, List.modify_modify_eq, ← hsame]
    rfl
  · have hempty := not_not.mp hpath
    have hkept : (withIcon mark.1.iconPath app, mark.2) = (app, mark.2) := by
      rw [hicon hempty, ← hempty]
      rfl
    refine ⟨j, hlt, ?_⟩
    rw [htexts, moveTo_map, modify_congr (g := fun mark => (app, mark.2)) hi hkept, ← hsame]

end writes

theorem Shows.perm_change (h : Shows env t marks) (hi : marks[i]? = some mark) {f : AppInfo → AppInfo}
    (hf : ∀ app, (f app).packageName = app.packageName) :
    ((marks.modify i (fun mark => (f mark.1, mark.2))).map Prod.fst).Perm (t.apps.change mark.name f hf).apps := by
  rw [modify_eq_map h.nodup hi, List.map_map]
  have hsame : Prod.fst ∘ (fun other : Mark => if other.name = mark.name then (f other.1, other.2) else other) =
      (fun app => if app.packageName = mark.name then f app else app) ∘ Prod.fst := by
    funext other
    exact apply_ite Prod.fst _ _ _
  rw [hsame, ← List.map_map]
  exact h.apps.map _

theorem Shows.setIconForPackage (h : Shows env t marks) (package path : Text) :
    ∃ marks', Shows env (t.setIconForPackage env package path) marks' := by
  rw [Table.setIconForPackage]
  cases hfind : t.apps.find package with
  | none =>
    dsimp only
    rw [h.rowsForPackage_none hfind]
    exact ⟨marks, h⟩
  | some app =>
    obtain ⟨i, mark, hi, rfl, rfl⟩ := h.exists_mark hfind
    have hrows := h.rowsForPackage_mark hi
    dsimp only
    refine ⟨marks.modify i (fun mark => (withIcon path mark.1, mark.2)), ?_⟩
    have hset := setIcon_eq (t := { t with apps := t.apps.change mark.name (withIcon path) (withIcon_packageName path) })
      h.rows hi path
    rw [rowsForPackage, eachRow] at hrows ⊢
    rw [hrows, List.foldl_cons, List.foldl_nil, hset]
    exact ⟨rfl, h.perm_change hi (withIcon_packageName path), h.hidden⟩

theorem Shows.setCheckState (h : Shows env t marks) (i : Nat) (checked : Bool) :
    ∃ marks', Shows env (t.setCheckState env i checked) marks' := by
  cases hi : marks[i]? with
  | none =>
    have hitem : t.item i .check = none := by
      rw [Table.item, h.rows, List.getElem?_map, hi]
      rfl
    rw [Table.setCheckState, change, hitem]
    exact ⟨marks, h⟩
  | some mark =>
    rw [setCheckState_eq h.rows hi]
    refine ⟨marks.modify i (fun mark => (mark.1, checked)), rfl, ?_, h.hidden⟩
    have happs := map_modify (f := Prod.fst) (g := id) (m := fun mark : Mark => (mark.1, checked)) hi rfl
    rw [← happs, List.modify_id]
    exact h.apps

variable (env) in
/-- No text of an update moves the row that is updated, unless nothing is written after it; and the sizes convert. -/
def inPlace (t : Table) : Call → Bool
  | .setAppsSorted apps mode _ => SortMode.ofText mode ≠ .name || apps.apps.all (converts env)
  | .updateAppDetails updated =>
    (t.apps.find updated.packageName).all (fun app =>
      let app := merge env updated app
      converts env app && (t.rowsForPackage updated.packageName).all (fun i =>
        t.stays env i .application (labelText env app) && t.stays env i .bloatware (bloatwareText env app) &&
          (app.iconPath = [] || t.stays env i .size app.size)))
  | _ => true

theorem orElse_eq_nil {x y : Text} (h : orElse x y = []) : y = [] := by
  rw [orElse] at h
  split_ifs at h with hx
  · exact absurd h hx
  · exact h

theorem Shows.updateAppDetails (h : Shows env t marks) {updated : AppInfo}
    (hplace : t.inPlace env (.updateAppDetails updated) = true) :
    ∃ marks', Shows env (t.updateAppDetails env updated) marks' := by
  rw [Table.updateAppDetails]
  cases hfind : t.apps.find updated.packageName with
  | none => exact ⟨marks, h⟩
  | some app =>
    obtain ⟨i, mark, hi, rfl, hname⟩ := h.exists_mark hfind
    have hrows := h.rowsForPackage_mark hi
    rw [hname] at hrows
    simp only [inPlace, hfind, Option.all_some, hrows, List.all_cons, List.all_nil, Bool.and_true, Bool.and_eq_true,
      Bool.or_eq_true, decide_eq_true_eq] at hplace
    obtain ⟨hconverts, ⟨hlabel, hbloatware⟩, hsize⟩ := hplace
    have hperm := h.perm_change hi (merge_packageName env updated)
    rw [hname] at hperm
    have hmarks : marks.modify i (fun other => (merge env updated mark.1, other.2)) =
        marks.modify i (fun other => (merge env updated other.1, other.2)) := modify_congr hi rfl
    obtain ⟨j, hlt, hrow⟩ := updateRow_eq
      (t := { t with apps := t.apps.change updated.packageName (merge env updated) (merge_packageName env updated) })
      h.rows hi (merge_packageName env updated mark.1) rfl rfl orElse_eq_nil hconverts hlabel hbloatware hsize
    dsimp only
    rw [rowsForPackage, eachRow] at hrows ⊢
    rw [hrows, updateRows, hrow, if_neg Bool.false_ne_true, updateRows, hmarks]
    refine ⟨_, rfl, ((moveTo_perm ?_).map _).trans hperm, h.hidden⟩
    rwa [List.length_modify]

theorem Shows.step (h : Shows env t marks) {call : Call} (hplace : t.inPlace env call = true)
    (hstep : t.step env call = some t') : ∃ marks', Shows env t' marks' := by
  cases call with
  | setAppsSorted apps mode checkedPackages =>
    obtain rfl := Option.some.inj hstep
    refine h.setAppsSorted (fun hmode => List.all_eq_true.mp ?_) checkedPackages
    simpa [inPlace, hmode] using hplace
  | updateAppDetails updated =>
    obtain rfl := Option.some.inj hstep
    exact h.updateAppDetails hplace
  | setIconForPackage package path =>
    obtain rfl := Option.some.inj hstep
    exact h.setIconForPackage package path
  | applySort mode =>
    obtain rfl := Option.some.inj hstep
    exact h.applySort _
  | sortByHeader col descending =>
    obtain rfl := Option.some.inj hstep
    exact h.sortByHeader col descending
  | setCheckState row checked =>
    obtain rfl := Option.some.inj hstep
    exact h.setCheckState row checked

theorem shows_init : Shows env init [] := ⟨rfl, List.Perm.nil, rfl⟩

/-- Every row shows its own app, and the checked apps are those of the checked rows. -/
theorem rows_show_their_apps {calls : List Call} (hplace : Along (step env) (fun t call => t.inPlace env call) init calls)
    (hrun : exec (step env) init calls = some t) :
    ∃ marks, t.Shows env marks ∧
      ∀ includeHidden, t.checkedApps includeHidden = (marks.filter Prod.snd).map Prod.fst := by
  obtain ⟨marks, h⟩ := exec_along (fun t => ∃ marks, Shows env t marks)
    (fun _ _ _ hshows hplace hstep => hshows.elim (fun _ h => h.step hplace hstep)) ⟨[], shows_init⟩ hplace hrun
  exact ⟨marks, h, h.checkedApps⟩

end Table

def ascii : Surroundings Nat where
  toUnicodeData := .ascii
  lower := casefold .ascii
  unescape := id
  float text := if isdecimal .ascii text then some (intOfDigits .ascii text) else none
  truncated number multiplier := some (number * multiplier)
  less := textLess

def alpha : AppInfo := { AppInfo.named ['a'] with appLabel := ['A'], size := ['1', ' ', 'K', 'B'] }

def beta : AppInfo := { AppInfo.named ['b'] with appLabel := ['B'], size := ['2', ' ', 'M', 'B'] }

theorem nodup_twoApps : ([beta, alpha].map AppInfo.packageName).Nodup := by decide

def twoApps : DistinctApps := ⟨[beta, alpha], nodup_twoApps⟩

def unsafeAlpha : AppInfo := { alpha with bloatwareRemoval := "Unsafe".toList, iconPath := ['i'] }

def quietCalls : List Table.Call :=
  [.setAppsSorted twoApps "name".toList [], .setCheckState 0 true, .updateAppDetails unsafeAlpha,
    .sortByHeader .size true, .setIconForPackage ['b'] ['j'], .applySort "size_desc".toList]

theorem quietCalls_show : ∃ t, exec (Table.step ascii) Table.init quietCalls = some t ∧
    ∃ marks, t.Shows ascii marks ∧
      ∀ includeHidden, t.checkedApps includeHidden = (marks.filter Prod.snd).map Prod.fst := by
  have hplace : Along (Table.step ascii) (fun t call => t.inPlace ascii call) Table.init quietCalls := by decide
  exact ⟨_, rfl, Table.rows_show_their_apps hplace rfl⟩

/-- The new label takes the row of the first app down, and its category is written into the row of the second. -/
def renamedAlpha : AppInfo := { unsafeAlpha with appLabel := ['Z'] }

theorem category_of_other_app : ∃ t,
    exec (Table.step ascii) Table.init [.setAppsSorted twoApps "name".toList [], .updateAppDetails renamedAlpha] = some t ∧
      (t.item 0 .bloatware).map Item.package = some ['b'] ∧ t.apps.find ['b'] = some beta ∧
      (t.item 0 .bloatware).bind Item.text = some "Unsafe".toList ∧ bloatwareText ascii beta = NOT_LISTED :=
  ⟨_, rfl, rfl, rfl, rfl, rfl⟩

end OpenAdb.Apps.AppTable
