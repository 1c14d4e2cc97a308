import OpenAdb.Backup.Scan

namespace OpenAdb.Backup.DamagedMetadata

open OpenAdb.Lib.PyText OpenAdb.Backup.Scan
open OpenAdb.Backup.Snapshot (BackupInfo)

/-- Not empty. -/
def nameText : Json → Option Text
  | .str (c :: s) => some (c :: s)
  | _ => none

/-- One APK name, or none that is stated. -/
def statedApk : Option Json → Option (List Text)
  | none => some []
  | some (.str []) => some []
  | some j => (nameText j).map (fun name => [name])

/-- The APK list that well-formed metadata state. -/
def statedApks (fields : List (Text × Json)) : Option (List Text) :=
  match fields.lookup "apk_files".toList with
  | none => statedApk (fields.lookup "apk_filename".toList)
  | some (.array []) => statedApk (fields.lookup "apk_filename".toList)
  | some (.array (j :: items)) => (j :: items).mapM nameText
  | some _ => none

/-- The package name and the APK list of metadata, when they are well formed. -/
def stated (fields : List (Text × Json)) : Option (Text × List Text) :=
  match fields.lookup "package_name".toList with
  | none => none
  | some j =>
    match nameText j, statedApks fields with
    | some package, some apks => some (package, apks)
    | _, _ => none

variable (py : Python)

/-- The fields of the metadata of a folder, when these are an object. -/
def metadataFields (d : SnapshotFolder) : Option (List (Text × Json)) :=
  match d.metadata with
  | .bytes content =>
    match py.decode content with
    | none => none
    | some text =>
      match py.loads text with
      | .ok (.object fields) => some fields
      | _ => none
  | _ => none

/-- The place of a snapshot folder. -/
def place (x : Text × SnapshotFolder) : Text × Text := (x.1, x.2.name)

/-- The package name and the APK list of its own well-formed metadata, else those of the folder. -/
def Described (x : Text × SnapshotFolder) (backup : BackupInfo) : Prop :=
  backup.path = place x ∧
    (backup.packageName, backup.apkFiles) = ((metadataFields py x.2).bind stated).getD (x.1, x.2.apkNames)

/-- The digits of a date, from the year to the second. -/
def moment (date : Text) : Text := (date.filter (fun c => '0' ≤ c && c ≤ '9')).take 14

/-- Every snapshot folder once, the newest first, each as described. -/
def Complete (root : BackupRoot) : Prop :=
  ∃ backups, scanBackups py root = .ok backups ∧
    (backups.map BackupInfo.path).Perm ((listed root).map place) ∧
    (backups.map BackupInfo.path).Nodup ∧
    backups.Pairwise (fun a b => ¬moment (sortKey a) < moment (sortKey b)) ∧
    ∀ x ∈ listed root, ∃ backup ∈ backups, Described py x backup

/-- Metadata that is no JSON text, or is an object that gives what is described. -/
def Usable (x : Text × SnapshotFolder) : Prop :=
  match x.2.metadata with
  | .bytes content =>
    ∃ text, py.decode content = some text ∧
      (py.loads text = .error .jsonDecode ∨
        ∃ fields, py.loads text = .ok (.object fields) ∧
          (stated fields = none → (∃ items, (apkFilesValue fields).iterate = some items ∧
            (items.filter Json.truthy).map (pyStr py) = x.2.apkNames) ∧ textField py fields "package_name" = x.1))
  | _ => True

/-- The date by which a folder is sorted. -/
def dateText (d : SnapshotFolder) : Text :=
  match metadataFields py d with
  | none => d.name
  | some fields => if textField py fields "backup_date" ≠ [] then textField py fields "backup_date" else d.name

/-- Dates that are compared as texts agree with the times that they give. -/
def Comparable (root : BackupRoot) : Prop :=
  ∀ x ∈ listed root, ∀ y ∈ listed root, moment (dateText py x.2) < moment (dateText py y.2) →
    dateText py x.2 < dateText py y.2

variable {py} {root : BackupRoot} {x : Text × SnapshotFolder} {fields : List (Text × Json)}

theorem nameText_eq_some {j : Json} {s : Text} (h : nameText j = some s) : j = .str s ∧ s ≠ [] := by
  unfold nameText at h
  split at h
  · cases h
    exact ⟨rfl, List.cons_ne_nil _ _⟩
  · cases h

theorem truthy_str {s : Text} (h : s ≠ []) : (Json.str s).truthy = true := by
  cases s with
  | nil => exact absurd rfl h
  | cons c s => rfl

/-- Names that are all stated come out as they are. -/
theorem names_stated {items : List Json} {names : List Text} (h : items.mapM nameText = some names) :
    (items.filter Json.truthy).map (pyStr py) = names := by
  induction items generalizing names with
  | nil =>
    cases h
    rfl
  | cons j items ih =>
    rw [List.mapM_cons] at h
    obtain ⟨name, hname, h⟩ := Option.bind_eq_some_iff.mp h
    obtain ⟨rest, hrest, h⟩ := Option.bind_eq_some_iff.mp h
    cases h
    obtain ⟨rfl, hne⟩ := nameText_eq_some hname
    rw [List.filter_cons_of_pos (truthy_str hne), List.map_cons, ih hrest]
    rfl

theorem apk_stated {o : Option Json} {names : List Text} (h : statedApk o = some names) :
    ∃ items, (singleApk o).iterate = some items ∧ (items.filter Json.truthy).map (pyStr py) = names := by
  unfold statedApk at h
  split at h
  · cases h
    exact ⟨[], rfl, rfl⟩
  · cases h
    exact ⟨[], rfl, rfl⟩
  · obtain ⟨name, hname, rfl⟩ := Option.map_eq_some_iff.mp h
    obtain ⟨rfl, hne⟩ := nameText_eq_some hname
    refine ⟨[.str name], ?_, ?_⟩
    · rw [singleApk, if_pos (truthy_str hne)]
      rfl
    · rw [List.filter_cons_of_pos (truthy_str hne)]
      rfl

theorem apks_stated {names : List Text} (h : statedApks fields = some names) :
    ∃ items, (apkFilesValue fields).iterate = some items ∧ (items.filter Json.truthy).map (pyStr py) = names := by
  unfold statedApks at h
  unfold apkFilesValue
  split at h
  · next hfield =>
    rw [hfield]
    exact apk_stated h
  · next hfield =>
    rw [hfield]
    exact apk_stated h
  · next j items hfield =>
    rw [hfield]
    exact ⟨j :: items, rfl, names_stated h⟩
  · cases h

theorem package_stated {package : Text} {names : List Text} (h : stated fields = some (package, names)) :
    textField py fields "package_name" = package ∧ statedApks fields = some names := by
  rw [stated] at h
  rw [textField]
  cases hfield : fields.lookup "package_name".toList with
  | none =>
    rw [hfield] at h
    cases h
  | some j =>
    rw [hfield] at h
    dsimp only at h ⊢
    cases hname : nameText j with
    | none =>
      rw [hname] at h
      cases h
    | some name =>
      rw [hname] at h
      cases hapks : statedApks fields with
      | none =>
        rw [hapks] at h
        cases h
      | some apks =>
        rw [hapks] at h
        cases h
        rw [(nameText_eq_some hname).1]
        exact ⟨rfl, rfl⟩

theorem metadataFields_bytes {content : List UInt8} {text : Text} (hfile : x.2.metadata = .bytes content)
    (htext : py.decode content = some text) (hloads : py.loads text = .ok (.object fields)) :
    metadataFields py x.2 = some fields := by
  rw [metadataFields, hfile]
  dsimp only
  rw [htext]
  dsimp only
  rw [hloads]

/-- What is read of a folder: its own data, or that of an object in its metadata. -/
theorem read_cases {backup : BackupInfo} (h : readBackup py x.1 x.2 = .ok backup) :
    metadataFields py x.2 = none ∧ backup = fromFolder x.1 x.2 ∨
      ∃ fields items, metadataFields py x.2 = some fields ∧ (apkFilesValue fields).iterate = some items ∧
        backup = fromMetadata py x.1 x.2 fields items := by
  unfold readBackup at h
  unfold metadataFields
  split at h
  · cases h
    exact .inl ⟨by simp only [*], rfl⟩
  · cases h
    exact .inl ⟨by simp only [*], rfl⟩
  · split at h
    · cases h
    · split at h
      · cases h
        exact .inl ⟨by simp only [*], rfl⟩
      · cases h
      · cases h
      · next fields _ =>
        split at h
        · cases h
        · next items hitems =>
          cases h
          exact .inr ⟨fields, items, by simp only [*], hitems, rfl⟩
      · cases h

theorem path_read {backup : BackupInfo} (h : readBackup py x.1 x.2 = .ok backup) :
    backup.path = place x := by
  obtain ⟨_, rfl⟩ | ⟨_, _, _, _, rfl⟩ := read_cases h
  · rfl
  · rfl

theorem sortKey_read {backup : BackupInfo} (h : readBackup py x.1 x.2 = .ok backup) :
    sortKey backup = dateText py x.2 := by
  obtain ⟨hnone, rfl⟩ | ⟨fields, items, hsome, _, rfl⟩ := read_cases h
  · rw [dateText, hnone]
    exact ite_self _
  · rw [dateText, hsome]
    rfl

/-- Metadata with a package name and an APK list are read as they state. -/
theorem described_stated {package : Text} {names : List Text} {items : List Json}
    (hfields : metadataFields py x.2 = some fields) (hstated : stated fields = some (package, names))
    (hitems : (apkFilesValue fields).iterate = some items) :
    Described py x (fromMetadata py x.1 x.2 fields items) := by
  obtain ⟨hpackage, hnames⟩ := @package_stated py _ _ _ hstated
  obtain ⟨items', hitems', happs⟩ := @apks_stated py _ _ hnames
  obtain rfl := Option.some.inj (hitems.symm.trans hitems')
  refine ⟨rfl, ?_⟩
  rw [hfields, Option.bind_some, hstated]
  exact Prod.ext hpackage happs

theorem described_object {items : List Json} (hfields : metadataFields py x.2 = some fields)
    (hitems : (apkFilesValue fields).iterate = some items) :
    Described py x (fromMetadata py x.1 x.2 fields items) ↔
      (stated fields = none → (∃ items, (apkFilesValue fields).iterate = some items ∧
        (items.filter Json.truthy).map (pyStr py) = x.2.apkNames) ∧ textField py fields "package_name" = x.1) := by
  cases hstated : stated fields with
  | some given =>
    constructor
    · intro _ h
      cases h
    · intro _
      exact described_stated hfields hstated hitems
  | none =>
    rw [Described, hfields, Option.bind_some, hstated, Option.getD_none]
    constructor
    · rintro ⟨_, hpair⟩ _
      exact ⟨⟨items, hitems, congrArg Prod.snd hpair⟩, congrArg Prod.fst hpair⟩
    · intro h
      obtain ⟨⟨items', hitems', hnames⟩, hpackage⟩ := h rfl
      obtain rfl := Option.some.inj (hitems.symm.trans hitems')
      exact ⟨rfl, Prod.ext hpackage hnames⟩

theorem described_fromFolder (hnone : metadataFields py x.2 = none) : Described py x (fromFolder x.1 x.2) := by
  refine ⟨rfl, ?_⟩
  rw [hnone]
  rfl

/-- A folder is read as described just when its metadata are usable. -/
theorem described_iff : (∃ backup, readBackup py x.1 x.2 = .ok backup ∧ Described py x backup) ↔ Usable py x := by
  constructor
  · rintro ⟨backup, hread, hdescribed⟩
    unfold readBackup at hread
    unfold Usable
    split at hread
    · next hfile => simp only [hfile]
    · next hfile => simp only [hfile]
    · next content hfile =>
      rw [hfile]
      dsimp only
      split at hread
      · cases hread
      · next text htext =>
        refine ⟨text, htext, ?_⟩
        split at hread
        · next hloads => exact .inl hloads
        · cases hread
        · cases hread
        · next fields hloads =>
          split at hread
          · cases hread
          · next items hitems =>
            cases hread
            have hfields := metadataFields_bytes hfile htext hloads
            exact .inr ⟨fields, hloads, (described_object hfields hitems).mp hdescribed⟩
        · cases hread
  · intro h
    unfold Usable at h
    split at h
    · next content hfile =>
      obtain ⟨text, htext, hloads | ⟨fields, hloads, hstated⟩⟩ := h
      · refine ⟨fromFolder x.1 x.2, ?_, described_fromFolder ?_⟩
        · simp only [readBackup, hfile, htext, hloads]
        · simp only [metadataFields, hfile, htext, hloads]
      · have hfields := metadataFields_bytes hfile htext hloads
        have hiterates : ∃ items, (apkFilesValue fields).iterate = some items := by
          cases hgiven : stated fields with
          | none =>
            obtain ⟨⟨items, hitems, _⟩, _⟩ := hstated hgiven
            exact ⟨items, hitems⟩
          | some given =>
            obtain ⟨items, hitems, _⟩ := @apks_stated py _ _ (@package_stated py _ _ _ hgiven).2
            exact ⟨items, hitems⟩
        obtain ⟨items, hitems⟩ := hiterates
        refine ⟨fromMetadata py x.1 x.2 fields items, ?_, (described_object hfields hitems).mpr hstated⟩
        simp only [readBackup, hfile, htext, hloads, hitems]
    · next hfile =>
      have hread : readBackup py x.1 x.2 = .ok (fromFolder x.1 x.2) ∧ metadataFields py x.2 = none := by
        cases hmetadata : x.2.metadata with
        | missing => exact ⟨by rw [readBackup, hmetadata], by simp only [metadataFields, hmetadata]⟩
        | unreadable => exact ⟨by rw [readBackup, hmetadata], by simp only [metadataFields, hmetadata]⟩
        | bytes content => exact absurd hmetadata (hfile content)
      exact ⟨_, hread.1, described_fromFolder hread.2⟩

theorem mapM_ok {α β ε : Type} {f : α → Except ε β} {xs : List α} {ys : List β} :
    xs.mapM f = .ok ys ↔ List.Forall₂ (fun x y => f x = .ok y) xs ys := by
  induction xs generalizing ys with
  | nil =>
    rw [List.mapM_nil, List.forall₂_nil_left_iff]
    constructor
    · intro h
      cases h
      rfl
    · rintro rfl
      rfl
  | cons x xs ih =>
    rw [List.mapM_cons, List.forall₂_cons_left_iff]
    cases hx : f x with
    | error e =>
      constructor
      · intro h
        cases h
      · rintro ⟨y, _, h, _⟩
        cases h
    | ok y =>
      cases hxs : xs.mapM f with
      | error e =>
        constructor
        · intro h
          cases h
        · rintro ⟨_, zs, _, h, _⟩
          cases hxs.symm.trans (ih.mpr h)
      | ok zs =>
        constructor
        · intro h
          cases h
          exact ⟨y, zs, rfl, ih.mp hxs, rfl⟩
        · rintro ⟨_, zs', h, hrest, rfl⟩
          cases h
          cases hxs.symm.trans (ih.mpr hrest)
          rfl

theorem mapM_of_forall {α β ε : Type} {f : α → Except ε β} {xs : List α} (h : ∀ x ∈ xs, ∃ y, f x = .ok y) :
    ∃ ys, List.Forall₂ (fun x y => f x = .ok y) xs ys := by
  induction xs with
  | nil => exact ⟨[], .nil⟩
  | cons x xs ih =>
    rw [List.forall_mem_cons] at h
    obtain ⟨⟨y, hy⟩, hrest⟩ := h
    obtain ⟨ys, hys⟩ := ih hrest
    exact ⟨y :: ys, .cons hy hys⟩

theorem map_place (package : PackageFolder) (ds : List SnapshotFolder) :
    (ds.map (fun d => (package.name, d))).map place = (ds.map SnapshotFolder.name).map (Prod.mk package.name) := by
  rw [List.map_map, List.map_map]
  rfl

theorem nodup_places : ((listed root).map place).Nodup := by
  rw [listed, List.map_flatMap]
  simp only [map_place]
  rw [List.nodup_flatMap]
  constructor
  · intro package hpackage
    have hnodup := root.entries_nodup package (List.mem_of_mem_filter hpackage)
    exact (hnodup.sublist (List.filter_sublist.map _)).map (Prod.mk_right_injective _)
  · have hnodup : ((root.packages.filter PackageFolder.isDir).map PackageFolder.name).Nodup :=
      root.packages_nodup.sublist (List.filter_sublist.map _)
    refine (List.pairwise_map.mp hnodup).imp ?_
    intro a b hne y ha hb
    obtain ⟨_, _, rfl⟩ := List.mem_map.mp ha
    obtain ⟨_, _, hb⟩ := List.mem_map.mp hb
    exact hne (congrArg Prod.fst hb).symm

theorem paths_read {backups : List BackupInfo} {xs : List (Text × SnapshotFolder)}
    (h : List.Forall₂ (fun x backup => readBackup py x.1 x.2 = .ok backup) xs backups) :
    backups.map BackupInfo.path = xs.map place := by
  induction h with
  | nil => rfl
  | cons hread _ ih => rw [List.map_cons, List.map_cons, path_read hread, ih]

/-- A listed folder has what was read of it among the backups. -/
theorem mem_read {backups : List BackupInfo} {xs : List (Text × SnapshotFolder)}
    (h : List.Forall₂ (fun x backup => readBackup py x.1 x.2 = .ok backup) xs backups) (hx : x ∈ xs) :
    ∃ backup ∈ backups, readBackup py x.1 x.2 = .ok backup := by
  induction h with
  | nil => cases hx
  | cons hread _ ih =>
    obtain rfl | hx := List.mem_cons.mp hx
    · exact ⟨_, List.mem_cons_self, hread⟩
    · obtain ⟨backup, hmem, hread⟩ := ih hx
      exact ⟨backup, List.mem_cons_of_mem _ hmem, hread⟩

theorem read_mem {backups : List BackupInfo} {backup : BackupInfo} {xs : List (Text × SnapshotFolder)}
    (h : List.Forall₂ (fun x backup => readBackup py x.1 x.2 = .ok backup) xs backups) (hmem : backup ∈ backups) :
    ∃ x ∈ xs, readBackup py x.1 x.2 = .ok backup := by
  induction h with
  | nil => cases hmem
  | cons hread _ ih =>
    obtain rfl | hmem := List.mem_cons.mp hmem
    · exact ⟨_, List.mem_cons_self, hread⟩
    · obtain ⟨x, hx, hread⟩ := ih hmem
      exact ⟨x, List.mem_cons_of_mem _ hx, hread⟩

theorem scan_eq_ok {backups : List BackupInfo} :
    scanBackups py root = .ok backups ↔
      ∃ found, List.Forall₂ (fun x backup => readBackup py x.1 x.2 = .ok backup) (listed root) found ∧
        backups = found.mergeSort notBefore := by
  rw [scanBackups]
  cases hfound : (listed root).mapM (fun x => readBackup py x.1 x.2) with
  | error e =>
    constructor
    · intro h
      cases h
    · rintro ⟨found, hread, _⟩
      cases hfound.symm.trans (mapM_ok.mpr hread)
  | ok found =>
    constructor
    · intro h
      cases h
      exact ⟨found, mapM_ok.mp hfound, rfl⟩
    · rintro ⟨found', hread, rfl⟩
      cases hfound.symm.trans (mapM_ok.mpr hread)
      rfl

theorem notBefore_iff {a b : BackupInfo} : notBefore a b = true ↔ ¬sortKey a < sortKey b := by
  rw [notBefore, decide_eq_true_iff]

theorem mergeSort_newest (backups : List BackupInfo) :
    (backups.mergeSort notBefore).Pairwise (fun a b => ¬sortKey a < sortKey b) := by
  have htrans : ∀ a b c, notBefore a b = true → notBefore b c = true → notBefore a c = true := by
    intro a b c hab hbc
    rw [notBefore_iff, List.not_lt] at hab hbc ⊢
    exact List.le_trans hbc hab
  have htotal : ∀ a b, (notBefore a b || notBefore b a) = true := by
    intro a b
    rw [Bool.or_eq_true, notBefore_iff, notBefore_iff, List.not_lt, List.not_lt]
    exact List.le_total _ _
  refine (List.pairwise_mergeSort htrans htotal backups).imp ?_
  intro a b h
  exact notBefore_iff.mp h

theorem lt_of_ne {a b : Text} (h : ¬b < a) (hne : a ≠ b) : a < b := by
  by_contra hlt
  exact hne (List.le_antisymm h hlt)

theorem either_order {α : Type} {R : α → α → Prop} {l : List α} {a b : α} (h : l.Pairwise R) (ha : a ∈ l)
    (hb : b ∈ l) (hne : a ≠ b) : R a b ∨ R b a := by
  have hsymm : Std.Symm (fun a b => R a b ∨ R b a) := ⟨fun _ _ => Or.symm⟩
  exact List.Pairwise.forall (R := fun a b => R a b ∨ R b a) (h.imp Or.inl) ha hb hne

/-- A folder whose backup is listed as described is usable. -/
theorem usable_of_described {found backups : List BackupInfo} (hx : x ∈ listed root)
    (hread : List.Forall₂ (fun x backup => readBackup py x.1 x.2 = .ok backup) (listed root) found)
    (hperm : backups.Perm found) (hnodup : (backups.map BackupInfo.path).Nodup)
    (h : ∃ backup ∈ backups, Described py x backup) : Usable py x := by
  obtain ⟨backup, hmem, hdescribed⟩ := h
  obtain ⟨own, hown, hownRead⟩ := mem_read hread hx
  have hpath : backup.path = own.path := hdescribed.1.trans (path_read hownRead).symm
  have heq : backup = own := List.inj_on_of_nodup_map hnodup hmem (hperm.mem_iff.mpr hown) hpath
  exact described_iff.mp ⟨backup, heq ▸ hownRead, hdescribed⟩

theorem comparable_of_sorted {found backups : List BackupInfo}
    (hread : List.Forall₂ (fun x backup => readBackup py x.1 x.2 = .ok backup) (listed root) found)
    (hperm : backups.Perm found) (hsorted : backups.Pairwise (fun a b => ¬sortKey a < sortKey b))
    (hnewest : backups.Pairwise (fun a b => ¬moment (sortKey a) < moment (sortKey b))) : Comparable py root := by
  intro x hx y hy hlt
  obtain ⟨a, ha, hreadA⟩ := mem_read hread hx
  obtain ⟨b, hb, hreadB⟩ := mem_read hread hy
  rw [← sortKey_read hreadA, ← sortKey_read hreadB] at hlt ⊢
  have hne : sortKey a ≠ sortKey b := by
    intro heq
    rw [heq] at hlt
    exact List.lt_irrefl _ hlt
  have hab : a ≠ b := fun h => hne (congrArg sortKey h)
  obtain ⟨_, hnot⟩ | ⟨hnot, _⟩ :=
    either_order (hsorted.and hnewest) (hperm.mem_iff.mpr ha) (hperm.mem_iff.mpr hb) hab
  · exact absurd hlt hnot
  · exact lt_of_ne hnot hne

theorem newest_of_comparable {found backups : List BackupInfo} (hcomparable : Comparable py root)
    (hread : List.Forall₂ (fun x backup => readBackup py x.1 x.2 = .ok backup) (listed root) found)
    (hperm : backups.Perm found) (hsorted : backups.Pairwise (fun a b => ¬sortKey a < sortKey b)) :
    backups.Pairwise (fun a b => ¬moment (sortKey a) < moment (sortKey b)) := by
  refine hsorted.imp_of_mem ?_
  intro a b ha hb hnot hlt
  obtain ⟨x, hx, hreadX⟩ := read_mem hread (hperm.mem_iff.mp ha)
  obtain ⟨y, hy, hreadY⟩ := read_mem hread (hperm.mem_iff.mp hb)
  rw [sortKey_read hreadX, sortKey_read hreadY] at hnot hlt
  exact hnot (hcomparable x hx y hy hlt)

/-- Every snapshot is listed, as its usable metadata or its folder say and the newest first, just
when no metadata fail in another way than as JSON text and all dates compare as the times they give. -/
theorem scan_complete_iff : Complete py root ↔ (∀ x ∈ listed root, Usable py x) ∧ Comparable py root := by
  constructor
  · rintro ⟨backups, hscan, _, hnodup, hnewest, hdescribed⟩
    obtain ⟨found, hread, rfl⟩ := scan_eq_ok.mp hscan
    have hperm := List.mergeSort_perm found notBefore
    exact ⟨fun x hx => usable_of_described hx hread hperm hnodup (hdescribed x hx),
      comparable_of_sorted hread hperm (mergeSort_newest found) hnewest⟩
  · rintro ⟨husable, hcomparable⟩
    obtain ⟨found, hread⟩ :
        ∃ found, List.Forall₂ (fun x backup => readBackup py x.1 x.2 = .ok backup) (listed root) found := by
      apply mapM_of_forall
      intro x hx
      obtain ⟨backup, hbackup, _⟩ := described_iff.mpr (husable x hx)
      exact ⟨backup, hbackup⟩
    have hperm := List.mergeSort_perm found notBefore
    have hpaths : ((found.mergeSort notBefore).map BackupInfo.path).Perm ((listed root).map place) :=
      paths_read hread ▸ hperm.map _
    refine ⟨_, scan_eq_ok.mpr ⟨found, hread, rfl⟩, hpaths, hpaths.nodup_iff.mpr nodup_places,
      newest_of_comparable hcomparable hread hperm (mergeSort_newest found), ?_⟩
    intro x hx
    obtain ⟨backup, hmem, hbackup⟩ := mem_read hread hx
    obtain ⟨own, hown, hdescribed⟩ := described_iff.mpr (husable x hx)
    cases hown.symm.trans hbackup
    exact ⟨backup, hperm.mem_iff.mpr hmem, hdescribed⟩

/-- A library that decodes what is ASCII and reads no text as JSON. -/
def asciiPython : Python where
  decode content := content.mapM (fun byte => if byte < 128 then some (Char.ofNat byte.toNat) else none)
  loads _ := .error .jsonDecode
  shown _ := []

def damagedSnapshot : SnapshotFolder where
  name := "2024-01-01_10-00-00-a".toList
  isDir := true
  metadata := .bytes [0xFF]
  apkNames := ["base.apk".toList]

def goodSnapshot : SnapshotFolder where
  name := "2024-01-02_10-00-00-b".toList
  isDir := true
  metadata := .missing
  apkNames := ["base.apk".toList]

def twoPackages : List PackageFolder :=
  [⟨"com.a".toList, true, [damagedSnapshot]⟩, ⟨"com.b".toList, true, [goodSnapshot]⟩]

theorem twoPackages_nodup : (twoPackages.map PackageFolder.name).Nodup := by
  decide

theorem twoPackages_entries : ∀ p ∈ twoPackages, (p.entries.map SnapshotFolder.name).Nodup := by
  intro p hp
  obtain rfl | hp := List.mem_cons.mp hp
  · exact List.nodup_singleton _
  · obtain rfl := List.mem_singleton.mp hp
    exact List.nodup_singleton _

def twoSnapshots : BackupRoot where
  packages := twoPackages
  packages_nodup := twoPackages_nodup
  entries_nodup := twoPackages_entries

/-- Bytes that are no text in one file leave no snapshot in the list. -/
theorem undecodable_metadata_hides : ¬Complete asciiPython twoSnapshots := by
  rintro ⟨backups, hscan, _⟩
  have hraised : scanBackups asciiPython twoSnapshots = .error .unicodeDecode := rfl
  cases hraised.symm.trans hscan

end OpenAdb.Backup.DamagedMetadata
