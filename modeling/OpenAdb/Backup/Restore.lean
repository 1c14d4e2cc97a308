import Mathlib.Data.List.Forall2
import OpenAdb.Backup.Contents

namespace OpenAdb.Backup.Restore

open OpenAdb.Lib.PyText OpenAdb.Lib.Effects OpenAdb.Backup.Names OpenAdb.Backup.Snapshot
open OpenAdb.Backup.Contents

variable {κ : Type} {u : UnicodeData} {host : Host κ}

/-- `iterdir` yields neither `.` nor `..`. -/
def isEntry (name : Text) : Prop := name ≠ [] ∧ ¬ isDots name

instance (name : Text) : Decidable (isEntry name) :=
  inferInstanceAs (Decidable (name ≠ [] ∧ ¬ isDots name))

def isListed (path : Text × Text) : Prop :=
  isEntry path.1 ∧ isEntry path.2 ∧ ¬ PARTIAL <+: path.2

instance (path : Text × Text) : Decidable (isListed path) :=
  inferInstanceAs (Decidable (isEntry path.1 ∧ isEntry path.2 ∧ ¬ PARTIAL <+: path.2))

/-- The order of the list is left out. A cancelled scan lists nothing. -/
def scanBackups (cancelled : Bool) (w : World κ) : Finset BackupInfo :=
  if cancelled then ∅
  else (w.root.keys.filter isListed).image (fun path => readBackup path (w.directory path) true)

structure RestoreResult where
  success : Bool
  status : Text
  errorType : Text
  stderr : Text
  deriving DecidableEq

inductive RestoreStop
  | fault (f : Fault)
  | refused (result : RestoreResult)

def restoreError (status errorType details : Text) : RestoreStop :=
  .refused ⟨false, status, errorType, details⟩

def RestoreResult.of (result : CommandResult) : RestoreResult :=
  ⟨result.success, result.status, [], result.stderr⟩

/-- A path is the list of its components. -/
def normalize (parts : List Text) : List Text :=
  parts.foldl (fun acc part =>
    if part = [] ∨ part = ['.'] then acc
    else if part = ['.', '.'] then acc.dropLast
    else acc ++ [part]) []

def backupParts (folder : List Text) (path : Text × Text) : List Text := folder ++ [path.1, path.2]

/-- `backup.path / filename` -/
def candidateParts (folder : List Text) (path : Text × Text) (filename : Text) : List Text :=
  if filename.head? = some '/' then filename.splitOn '/'
  else backupParts folder path ++ filename.splitOn '/'

/-- The `name` of a path. -/
def lastName (parts : List Text) : Text :=
  (parts.filter (fun part => part ≠ [] ∧ part ≠ ['.'])).getLast?.getD []

/-- `path.suffix.casefold() == ".apk"` -/
def isApk (u : UnicodeData) (name : Text) : Prop := casefold u (suffix name) = ['.', 'a', 'p', 'k']

instance (u : UnicodeData) (name : Text) : Decidable (isApk u name) :=
  inferInstanceAs (Decidable (casefold u (suffix name) = ['.', 'a', 'p', 'k']))

/-- Inside the backups folder all files lie in the directory of a backup. -/
def isFile (w : World κ) (folder resolved : List Text) : Bool :=
  match resolved.drop (normalize folder).length with
  | [packageDir, name, file] =>
    (normalize folder).isPrefixOf resolved && decide (file ∈ w.directory (packageDir, name))
  | _ => false

def cancelCheck (host : Host κ) (status details : Text) : Effect RestoreStop (World κ) Unit := do
  let cancelled ← poll host
  require (cancelled = false) (restoreError status "cancelled".toList details)

/-- `resolve(strict=False)`; nothing in the backups folder is a link. -/
def resolve (host : Host κ) (parts : List Text) (failure : Text → RestoreStop) :
    Effect RestoreStop (World κ) (List Text) := fun w =>
  match host.unresolved w with
  | none => (.ok (normalize parts), w.record .operation)
  | some details => (.error (failure details), w.record .operation)

def checkIsFile (host : Host κ) (folder resolved : List Text) :
    Effect RestoreStop (World κ) Bool := fun w =>
  match host.fault w with
  | none => (.ok (isFile w folder resolved), w.record .operation)
  | some f => (.error (.fault f), w.record .operation)

def unsafePath (details : Text) : RestoreStop :=
  restoreError "Backup metadata contains an unsafe APK path".toList
    "unsafe_backup_apk_path".toList details

/-- The loop over the declared files; the accumulator is `apk_paths`. -/
def validateFiles (u : UnicodeData) (host : Host κ) (folder : List Text) (path : Text × Text)
    (backupRoot : List Text) (apkPaths : List (List Text)) :
    List Text → Effect RestoreStop (World κ) (List (List Text))
  | [] => pure apkPaths
  | filename :: rest => do
    cancelCheck host "Restore cancelled".toList
      "The restore operation was cancelled while validating local APK files.".toList
    let candidate := candidateParts folder path filename
    let resolved ← resolve host candidate
      (fun _ => unsafePath ("Unsafe APK entry in backup metadata: ".toList ++ filename))
    require (backupRoot <+: resolved)
      (unsafePath ("Unsafe APK entry in backup metadata: ".toList ++ filename))
    require (isApk u (lastName candidate) ∧ isApk u (lastName resolved))
      (unsafePath ("Backup entry is not an APK file: ".toList ++ filename))
    let found ← checkIsFile host folder resolved
    require (found = true) (restoreError "Backup APK file is missing".toList
      "missing_backup_apk".toList ("Declared backup APK does not exist: ".toList ++ filename))
    validateFiles u host folder path backupRoot (apkPaths ++ [resolved]) rest

/-- `adb install` for one file, `adb install-multiple` for more. -/
def installApks (host : Host κ) (apkPaths : List (List Text)) :
    Effect RestoreStop (World κ) RestoreResult := fun w =>
  match host.install w with
  | .ok result => (.ok (.of result), w.record (.install apkPaths))
  | .error f => (.error (.fault f), w.record (.install apkPaths))

def restoreExistingPackage (host : Host κ) (packageName : Text) :
    Effect RestoreStop (World κ) RestoreResult := fun w =>
  match host.install w with
  | .ok result => (.ok (.of result), w.record (.installExisting packageName))
  | .error f => (.error (.fault f), w.record (.installExisting packageName))

def declaredFiles (u : UnicodeData) (backup : BackupInfo) : List Text :=
  (backup.apkFiles.map (strip u)).filter (· ≠ [])

def restoreFiles (u : UnicodeData) (host : Host κ) (folder : List Text) (backup : BackupInfo) :
    Effect RestoreStop (World κ) RestoreResult := do
  require (declaredFiles u backup ≠ []) (restoreError "No APK files in backup".toList
    "missing_backup_apk".toList "No APK files in backup.".toList)
  let backupRoot ← resolve host (backupParts folder backup.path)
    (fun details => restoreError "Backup path could not be validated".toList
      "unsafe_backup_apk_path".toList ("Backup path could not be resolved safely: ".toList ++ details))
  let apkPaths ← validateFiles u host folder backup.path backupRoot [] (declaredFiles u backup)
  cancelCheck host "Restore cancelled before installation".toList
    "The restore operation was cancelled before Android package installation started.".toList
  installApks host apkPaths

def restoreBody (u : UnicodeData) (host : Host κ) (folder : List Text) (backup : BackupInfo)
    (preferInstallExisting : Bool) : Effect RestoreStop (World κ) RestoreResult := do
  cancelCheck host "Restore cancelled before it started".toList
    "The restore operation was cancelled before Android package installation started.".toList
  if preferInstallExisting ∧ backup.packageName ≠ [] then
    restoreExistingPackage host backup.packageName
  else restoreFiles u host folder backup

def restoreBackup (u : UnicodeData) (host : Host κ) (folder : List Text) (backup : BackupInfo)
    (preferInstallExisting : Bool) : Effect Fault (World κ) RestoreResult := fun w =>
  match restoreBody u host folder backup preferInstallExisting w with
  | (.ok result, t) => (.ok result, t)
  | (.error (.refused result), t) => (.ok result, t)
  | (.error (.fault f), t) => (.error f, t)

theorem normalize_append (parts rest : List Text) (h : ∀ part ∈ rest, isEntry part) :
    normalize (parts ++ rest) = normalize parts ++ rest := by
  induction rest using List.reverseRecOn with
  | nil => rw [List.append_nil, List.append_nil]
  | append_singleton rest part ih =>
    obtain ⟨hne, hdots⟩ := h part (by simp)
    rw [isDots, not_or] at hdots
    rw [← List.append_assoc, ← List.append_assoc, ← ih (fun p hp => h p (by simp [hp])), normalize,
      normalize, List.foldl_append, List.foldl_cons, List.foldl_nil,
      if_neg (not_or.mpr ⟨hne, hdots.1⟩), if_neg hdots.2]

theorem lastName_append (parts : List Text) {name : Text} (h : isEntry name) :
    lastName (parts ++ [name]) = name := by
  have hkeep : [name].filter (fun part => part ≠ [] ∧ part ≠ ['.']) = [name] :=
    List.filter_eq_self.mpr (by simpa [h.1] using fun he => h.2 (.inl he))
  rw [lastName, List.filter_append, hkeep, List.getLast?_append_of_ne_nil _ (by simp)]
  rfl

theorem PlainName.isEntry {name : Text} (h : PlainName u name) : isEntry name :=
  ⟨h.trimmed.1, h.no_dots⟩

/-- Where a file of a listed backup lies. -/
def location (folder : List Text) (path : Text × Text) (name : Text) : List Text :=
  normalize folder ++ [path.1, path.2, name]

theorem candidateParts_plain (folder : List Text) (path : Text × Text) {name : Text}
    (h : '/' ∉ name) : candidateParts folder path name = backupParts folder path ++ [name] := by
  have hhead : name.head? ≠ some '/' := fun he => h (List.mem_of_head? he)
  rw [candidateParts, if_neg hhead, List.splitOn_eq_singleton h]

theorem normalize_backupParts (folder : List Text) {path : Text × Text} (h : isListed path) :
    normalize (backupParts folder path) = normalize folder ++ [path.1, path.2] :=
  normalize_append folder _ (by simp [h.1, h.2.1])

theorem normalize_candidate (folder : List Text) {path : Text × Text} (h : isListed path)
    {name : Text} (hname : isEntry name) :
    normalize (backupParts folder path ++ [name]) = location folder path name := by
  rw [normalize_append _ _ (by simp [hname]), normalize_backupParts folder h, location,
    List.append_assoc]
  rfl

theorem isFile_location (w : World κ) (folder : List Text) (path : Text × Text) (name : Text) :
    isFile w folder (location folder path name) = decide (name ∈ w.directory path) := by
  rw [isFile, location, List.drop_left]
  have hlead : (normalize folder).isPrefixOf (normalize folder ++ [path.1, path.2, name]) = true :=
    List.isPrefixOf_iff_prefix.mpr (List.prefix_append _ _)
  rw [hlead]
  rfl

variable {w₀ : World κ} {folder : List Text} {path : Text × Text} {d : Directory κ}
  {files : List Text}

/-- So far the restore has only looked. -/
def Looking (w₀ w : World κ) : Prop :=
  (∃ since, w.trace = since ++ w₀.trace ∧ ∀ e ∈ since, Neutral e) ∧ w.root = w₀.root

theorem Looking.stable : Stable (Looking w₀) := by
  rintro w e he ⟨⟨since, ht, hs⟩, hroot⟩
  exact ⟨⟨e :: since, congrArg (List.cons e) ht, neutral_cons he hs⟩, hroot⟩

/-- Nothing is cancelled, and no operation of the restore fails. -/
def Smooth (host : Host κ) : Prop :=
  (∀ w, host.cancelled w = false) ∧ (∀ w, host.fault w = none) ∧ ∀ w, host.unresolved w = none

theorem smooth_steady (apkPaths : List Text) (pull : Text → PullOutcome κ) :
    Smooth (Host.steady apkPaths pull) := ⟨fun _ => rfl, fun _ => rfl, fun _ => rfl⟩

def Usable (u : UnicodeData) (d : Directory κ) (name : Text) : Prop := isApk u name ∧ name ∈ d

/-- The restore ended without an install, and with `φ` it was not to go on. -/
def Refused (host : Host κ) (w₀ : World κ) (φ : Prop) (_ : RestoreStop) (w : World κ) : Prop :=
  Looking w₀ w ∧ (Smooth host → ¬ φ)

theorem cancelCheck_meets (status details : Text) (φ : Prop) :
    Meets (Looking w₀) (cancelCheck host status details) (fun _ => Looking w₀)
      (Refused host w₀ φ) := by
  intro w hw
  refine Outcome.bind_ok rfl ?_
  have hlook := Looking.stable w (.polled (host.cancelled w)) trivial hw
  by_cases hc : host.cancelled w = false
  · rw [require_pos hc]
    exact hlook
  · rw [require_neg hc]
    exact ⟨hlook, fun hsmooth => absurd (hsmooth.1 w) hc⟩

theorem resolve_meets (parts : List Text) (failure : Text → RestoreStop) (φ : Prop) :
    Meets (Looking w₀) (resolve host parts failure)
      (fun resolved w => resolved = normalize parts ∧ Looking w₀ w) (Refused host w₀ φ) := by
  intro w hw
  have hlook := Looking.stable w .operation trivial hw
  rw [resolve]
  cases hresolve : host.unresolved w with
  | none => exact ⟨rfl, hlook⟩
  | some details => exact ⟨hlook, fun hsmooth => by rw [hsmooth.2.2 w] at hresolve; cases hresolve⟩

theorem checkIsFile_meets (hd : w₀.directory path = d) (name : Text) (φ : Prop) :
    Meets (Looking w₀) (checkIsFile host folder (location folder path name))
      (fun found w => (found = true ↔ name ∈ d) ∧ Looking w₀ w) (Refused host w₀ φ) := by
  intro w hw
  have hlook := Looking.stable w .operation trivial hw
  rw [checkIsFile]
  cases hfault : host.fault w with
  | none =>
    refine ⟨?_, hlook⟩
    rw [isFile_location, decide_eq_true_iff, ← hd, World.directory, World.directory, hw.2]
  | some f => exact ⟨hlook, fun hsmooth => by rw [hsmooth.2.1 w] at hfault; cases hfault⟩

theorem require_meets {p : Prop} [Decidable p] (stop : RestoreStop) {φ : Prop} (h : ¬ p → ¬ φ) :
    Meets (Looking w₀) (require p stop) (fun _ w => p ∧ Looking w₀ w) (Refused host w₀ φ) :=
  Meets.require (fun hp _ hw => ⟨hp, hw⟩) (fun hp _ hw => ⟨hw, fun _ => h hp⟩)

theorem Refused.mono {φ ψ : Prop} (h : ψ → φ) (e : RestoreStop) (w : World κ)
    (hr : Refused host w₀ φ e w) : Refused host w₀ ψ e w :=
  ⟨hr.1, fun hsmooth hψ => hr.2 hsmooth (h hψ)⟩

/-- The loop accepts exactly usable files. -/
theorem validateFiles_meets (hpath : isListed path) (hd : w₀.directory path = d)
    (files : List Text) : ∀ apkPaths, (∀ name ∈ files, PlainName u name) →
      Meets (Looking w₀)
        (validateFiles u host folder path (normalize (backupParts folder path)) apkPaths files)
        (fun out w => (out = apkPaths ++ files.map (location folder path) ∧
          ∀ name ∈ files, Usable u d name) ∧ Looking w₀ w)
        (Refused host w₀ (∀ name ∈ files, Usable u d name)) := by
  induction files with
  | nil => exact fun _ _ => Meets.pure (fun w h => ⟨⟨by simp, by simp⟩, h⟩)
  | cons name files ih =>
    intro apkPaths hplain
    obtain ⟨hname, hfiles⟩ := List.forall_mem_cons.mp hplain
    have hentry := PlainName.isEntry hname
    refine (cancelCheck_meets _ _ _).bind (fun _ => ?_)
    dsimp only
    rw [candidateParts_plain folder path hname.no_slash]
    refine (resolve_meets _ _ _).bind (fun resolved => Meets.of_fact fun hresolved => ?_)
    rw [normalize_candidate folder hpath hentry] at hresolved
    subst hresolved
    have hinside : normalize (backupParts folder path) <+: location folder path name := by
      rw [normalize_backupParts folder hpath]
      exact ⟨[name], by simp [location]⟩
    have hlast : lastName (location folder path name) = name := by
      rw [location, show [path.1, path.2, name] = [path.1, path.2] ++ [name] from rfl,
        ← List.append_assoc, lastName_append _ hentry]
    refine (require_meets _ (fun h => absurd hinside h)).bind (fun _ => Meets.of_fact fun _ => ?_)
    rw [lastName_append _ hentry, hlast]
    refine (require_meets _ (fun h hall => h ⟨(hall name List.mem_cons_self).1,
      (hall name List.mem_cons_self).1⟩)).bind (fun _ => Meets.of_fact fun hapk => ?_)
    refine (checkIsFile_meets hd name _).bind (fun found => Meets.of_fact fun hfound => ?_)
    refine (require_meets _ (fun h hall => h (hfound.mpr (hall name List.mem_cons_self).2))).bind
      (fun _ => Meets.of_fact fun hmem => ?_)
    refine (ih (apkPaths ++ [location folder path name]) hfiles).mono (fun _ h => h)
      (fun out w h => ⟨⟨?_, ?_⟩, h.2⟩)
      (Refused.mono (fun hall name hm => hall name (List.mem_cons_of_mem _ hm)))
    · rw [h.1.1, List.append_assoc]
      rfl
    · exact List.forall_mem_cons.mpr ⟨⟨hapk.1, hfound.mp hmem⟩, h.1.2⟩

/-- There is something to install, and all of it can be used. -/
def Acceptable (u : UnicodeData) (d : Directory κ) (files : List Text) : Prop :=
  files ≠ [] ∧ ∀ name ∈ files, Usable u d name

/-- A restore has looked, and then it has either refused or issued one install. -/
def Restored (u : UnicodeData) (host : Host κ) (w₀ : World κ) (folder : List Text)
    (path : Text × Text) (d : Directory κ) (files : List Text) (w : World κ) : Prop :=
  (Looking w₀ w ∧ (Smooth host → ¬ Acceptable u d files)) ∨
    (Acceptable u d files ∧ ∃ t, Looking w₀ t ∧
      w.trace = .install (files.map (location folder path)) :: t.trace)

theorem installApks_meets (hfiles : Acceptable u d files) :
    Meets (Looking w₀) (installApks host (files.map (location folder path)))
      (fun _ => Restored u host w₀ folder path d files)
      (fun _ => Restored u host w₀ folder path d files) := by
  intro w hw
  rw [installApks]
  cases host.install w with
  | ok result => exact .inr ⟨hfiles, w, hw, rfl⟩
  | error f => exact .inr ⟨hfiles, w, hw, rfl⟩

theorem declaredFiles_plain {backup : BackupInfo} (h : ∀ name ∈ backup.apkFiles, PlainName u name) :
    declaredFiles u backup = backup.apkFiles := by
  have hstrip : backup.apkFiles.map (strip u) = backup.apkFiles :=
    (List.map_congr_left (fun name hn => (h name hn).trimmed.strip_eq)).trans (List.map_id' _)
  rw [declaredFiles, hstrip, List.filter_eq_self]
  exact fun name hn => decide_eq_true (h name hn).trimmed.1

theorem Refused.restored {φ : Prop} {e : RestoreStop} {w : World κ} (h : Refused host w₀ φ e w)
    (hφ : Acceptable u d files → φ) : Restored u host w₀ folder path d files w :=
  .inl ⟨h.1, fun hsmooth hfiles => h.2 hsmooth (hφ hfiles)⟩

theorem restoreFiles_meets {backup : BackupInfo} (hpath : isListed backup.path)
    (hd : w₀.directory backup.path = d) (hplain : ∀ name ∈ backup.apkFiles, PlainName u name) :
    Meets (Looking w₀) (restoreFiles u host folder backup)
      (fun _ => Restored u host w₀ folder backup.path d backup.apkFiles)
      (fun _ => Restored u host w₀ folder backup.path d backup.apkFiles) := by
  rw [restoreFiles, declaredFiles_plain hplain]
  refine Meets.bind (Q := fun _ w => backup.apkFiles ≠ [] ∧ Looking w₀ w)
    (Meets.require (fun hne _ h => ⟨hne, h⟩) (fun hne _ h => .inl ⟨h, fun _ hfiles => hne hfiles.1⟩))
    (fun _ => Meets.of_fact fun hne => ?_)
  refine Meets.bind ((resolve_meets _ _ True).weaken (fun _ _ h => h.restored fun _ => trivial))
    (fun backupRoot => Meets.of_fact fun hroot => ?_)
  rw [hroot]
  refine Meets.bind ((validateFiles_meets hpath hd backup.apkFiles [] hplain)
    |>.weaken (fun _ _ h => h.restored And.right)) (fun apkPaths => Meets.of_fact fun hfiles => ?_)
  refine Meets.bind ((cancelCheck_meets _ _ True).weaken (fun _ _ h => h.restored fun _ => trivial)) (fun _ => ?_)
  rw [hfiles.1, List.nil_append]
  exact installApks_meets ⟨hne, hfiles.2⟩

theorem restoreBackup_restored {backup : BackupInfo} (host : Host κ) (folder : List Text)
    (hpath : isListed backup.path) (hd : w₀.directory backup.path = d)
    (hplain : ∀ name ∈ backup.apkFiles, PlainName u name) :
    Restored u host w₀ folder backup.path d backup.apkFiles
      (restoreBackup u host folder backup false w₀).2 := by
  have hbody : Meets (Looking w₀) (restoreBody u host folder backup false)
      (fun _ => Restored u host w₀ folder backup.path d backup.apkFiles)
      (fun _ => Restored u host w₀ folder backup.path d backup.apkFiles) := by
    refine Meets.bind ((cancelCheck_meets _ _ True).weaken (fun _ _ h => h.restored fun _ => trivial)) (fun _ => ?_)
    exact Meets.ite (fun h => absurd h.1 Bool.false_ne_true)
      (fun _ => restoreFiles_meets hpath hd hplain)
  have h := hbody w₀ ⟨⟨[], rfl, by simp⟩, rfl⟩
  rw [restoreBackup]
  cases hrun : restoreBody u host folder backup false w₀ with
  | mk out t =>
    rw [hrun] at h
    cases out with
    | ok result => exact h
    | error stop =>
      cases stop with
      | fault f => exact h
      | refused result => exact h

def installsOf (trace : List (Event κ)) : List (List (List Text)) :=
  trace.filterMap (fun
    | .install apkPaths => some apkPaths
    | _ => none)

theorem installsOf_neutral {since : List (Event κ)} (h : ∀ e ∈ since, Neutral e) :
    installsOf since = [] := by
  rw [installsOf, List.filterMap_eq_nil_iff]
  intro e he
  have hneutral := h e he
  cases e <;> first | rfl | exact hneutral.elim

/-- Whatever happens, the restore issues no install, or exactly one with `G`. -/
def WholeOrNothing (u : UnicodeData) (backup : BackupInfo) (w : World κ)
    (G : List Text → List (List Text) → Prop) : Prop :=
  ∀ (host : Host κ) (folder : List Text), ∃ since,
    (restoreBackup u host folder backup false w).2.trace = since ++ w.trace ∧
      (installsOf since = [] ∨ ∃ files, installsOf since = [files] ∧ G folder files)

theorem wholeOrNothing_iff {backup : BackupInfo} {G : List Text → List (List Text) → Prop}
    (hpath : isListed backup.path) (hd : w₀.directory backup.path = d)
    (hplain : ∀ name ∈ backup.apkFiles, PlainName u name) :
    WholeOrNothing u backup w₀ G ↔ (Acceptable u d backup.apkFiles →
      ∀ folder, G folder (backup.apkFiles.map (location folder backup.path))) := by
  constructor
  · intro h hfiles folder
    obtain ⟨since, ht, hinstalls⟩ := h (Host.steady [] (fun _ => ⟨none, .ok .ok⟩)) folder
    obtain ⟨-, hsmooth⟩ | ⟨-, t, ⟨⟨before, htrace, hneutral⟩, -⟩, hrestored⟩ := restoreBackup_restored
      (Host.steady [] (fun _ => ⟨none, .ok .ok⟩)) folder hpath hd hplain
    · exact absurd hfiles (hsmooth (smooth_steady _ _))
    · rw [hrestored, htrace, ← List.cons_append, List.append_cancel_right_eq] at ht
      subst ht
      have hone : installsOf (.install (backup.apkFiles.map (location folder backup.path)) :: before) =
          [backup.apkFiles.map (location folder backup.path)] :=
        congrArg (List.cons _) (installsOf_neutral hneutral)
      rw [hone] at hinstalls
      obtain hnone | ⟨files, hfiles, hG⟩ := hinstalls
      · cases hnone
      · cases hfiles
        exact hG
  · intro h host folder
    obtain ⟨⟨⟨since, ht, hneutral⟩, -⟩, -⟩ | ⟨hfiles, t, ⟨⟨since, ht, hneutral⟩, -⟩, hrestored⟩ :=
      restoreBackup_restored host folder hpath hd hplain
    · exact ⟨since, ht, .inl (installsOf_neutral hneutral)⟩
    · refine ⟨.install (backup.apkFiles.map (location folder backup.path)) :: since, ?_, .inr
        ⟨_, congrArg (List.cons _) (installsOf_neutral hneutral), h hfiles folder⟩⟩
      rw [hrestored, ht, List.cons_append]

/-- The files are all different and lie in the backup's directory, and for each reported path
one of them has what its pull delivered. -/
def OneForEach (path : Text × Text) (d : Directory κ) (apkPaths : List Text)
    (pulls : List (Pull κ)) (folder : List Text) (installed : List (List Text)) : Prop :=
  ∃ files contents, installed = files.map (location folder path) ∧ files.Nodup ∧
    contents.length = apkPaths.length ∧ pulls = delivered apkPaths contents ∧
    List.Forall₂ (fun name content => d.lookup name = some (.apk content)) files contents

def arrived (p : Pull κ) : Bool := p.2.1 && p.2.2.isSome

/-- How many pulls arrived before the first that did not. -/
def arrivals (pulls : List (Pull κ)) : Nat := (pulls.takeWhile arrived).length

/-- Everything arrived under names that do not clash, or nothing did, or the names give the
backup away: one is not that of an APK, or the failed pull has removed the file of another. -/
def Restorable (u : UnicodeData) (s : Nat → Text) (n : Nat) (pulls : List (Pull κ)) : Prop :=
  arrivals pulls = n ∧ (∀ i < n, ¬ Clash s i) ∨ arrivals pulls = 0 ∨
    (∃ i < arrivals pulls, ¬ isApk u (target s i)) ∨
    Clash s (arrivals pulls) ∧ pulls[arrivals pulls]?.any (fun p => p.2.2.isNone) = true

theorem casefold_extension {extension : Text} (h : Lower extension) :
    casefold u ('.' :: extension) = u.casefold '.' ++ extension :=
  congrArg (u.casefold '.' ++ ·) (casefold_lower u h)

/-- The files that the backup writes itself are no APKs. -/
theorem isApk_ne {name : Text} (h : isApk u name) :
    name ≠ LOG_NAME ∧ name ≠ METADATA_NAME ∧ name ≠ ICON_NAME := by
  have hlast : ∀ extension, Lower extension → suffix name = '.' :: extension →
      extension.getLast? = none ∨ extension.getLast? = some 'k' := by
    intro extension hlower hsuffix
    rw [isApk, hsuffix, casefold_extension hlower] at h
    have hk := congrArg List.getLast? h
    rw [List.getLast?_append] at hk
    cases hl : extension.getLast? with
    | none => exact .inl rfl
    | some c =>
      rw [hl] at hk
      exact .inr hk
  refine ⟨?_, ?_, ?_⟩
  · rintro rfl
    exact absurd (hlast ['t', 'x', 't'] (by decide) (by decide)) (by decide)
  · rintro rfl
    exact absurd (hlast ['j', 's', 'o', 'n'] (by decide) (by decide)) (by decide)
  · rintro rfl
    exact absurd (hlast ['p', 'n', 'g'] (by decide) (by decide)) (by decide)

theorem location_injective {a b : List Text} (h : a.map (location folder path) = b.map (location folder path)) :
    a = b := by
  refine List.map_injective_iff.mpr (fun x y hxy => ?_) h
  have := List.append_cancel_left hxy
  simpa using this

variable {s : Nat → Text} {r : Request} {apkPaths : List Text} {pulls : List (Pull κ)} {icon : Bool}

theorem fileNames_ne_nil {n : Nat} : fileNames s n ≠ [] ↔ n ≠ 0 := by
  rw [← List.length_pos_iff, length_fileNames]
  omega

theorem mem_finished {before : Directory κ} {name : Text} (h : Finished r files before d)
    (hname : isApk u name) : name ∈ d ↔ name ∈ before := by
  rw [← Finmap.lookup_isSome, ← Finmap.lookup_isSome,
    h.lookup_of_ne (isApk_ne hname).1 (isApk_ne hname).2.1]

theorem arrived_delivered {contents : List κ} {p : Pull κ} (h : p ∈ delivered apkPaths contents) :
    arrived p = true := by
  obtain ⟨i, hi, rfl⟩ := List.getElem_of_mem h
  simp only [delivered, List.getElem_zipWith]
  rfl

theorem arrivals_delivered {contents : List κ} (h : contents.length = apkPaths.length) :
    arrivals (delivered apkPaths contents) = apkPaths.length := by
  rw [arrivals, List.takeWhile_eq_self_iff.mpr (fun p hp => arrived_delivered hp), delivered,
    List.length_zipWith, h, Nat.min_self]

theorem length_delivered_take {contents : List κ} (h : contents.length < apkPaths.length) :
    (delivered (apkPaths.take contents.length) contents).length = contents.length := by
  rw [delivered, List.length_zipWith, List.length_take_of_le (by omega), Nat.min_self]

theorem arrivals_cut {contents : List κ} (h : contents.length < apkPaths.length) {p : Pull κ}
    (hp : arrived p = false) :
    arrivals (delivered (apkPaths.take contents.length) contents ++ [p]) = contents.length := by
  rw [arrivals, List.takeWhile_append_of_pos (fun q hq => arrived_delivered hq),
    List.takeWhile_cons_of_neg (by simp [hp]), List.append_nil, length_delivered_take h]

/-- The backup lists so many names, and restoring it is all or nothing just when the pulls and
the names say so. -/
def Decided (u : UnicodeData) (r : Request) (s : Nat → Text) (apkPaths : List Text)
    (path : Text × Text) (d : Directory κ) (pulls : List (Pull κ)) : Prop :=
  ∃ k, (∃ m, d.lookup METADATA_NAME = some (.metadata m) ∧ Recorded r (fileNames s k) m) ∧
    ((Acceptable u d (fileNames s k) → ∀ folder, OneForEach path d apkPaths pulls folder
      ((fileNames s k).map (location folder path))) ↔ Restorable u s apkPaths.length pulls)

theorem decided_of_whole (path : Text × Text) (h : Whole r s apkPaths d pulls icon) :
    Decided u r s apkPaths path d pulls := by
  obtain ⟨contents, before, hlen, hcopied, rfl, hfinished⟩ := h
  have harrivals := arrivals_delivered hlen
  refine ⟨apkPaths.length, hfinished.lookup_metadata, ?_⟩
  constructor
  · intro hall
    by_cases hfiles : Acceptable u d (fileNames s apkPaths.length)
    · obtain ⟨files, contents', hmap, hnodup, -⟩ := hall hfiles []
      rw [← location_injective hmap] at hnodup
      exact .inl ⟨harrivals, (nodup_fileNames_iff _).mp hnodup⟩
    · rw [Restorable, harrivals]
      by_cases hzero : apkPaths.length = 0
      · exact .inr (.inl hzero)
      · refine .inr (.inr (.inl ?_))
        by_contra hapk
        refine hfiles ⟨fileNames_ne_nil.mpr hzero, fun name hname => ?_⟩
        obtain ⟨j, hj, rfl⟩ := mem_fileNames.mp hname
        have hj' : isApk u (target s j) := by
          by_contra hno
          exact hapk ⟨j, hj, hno⟩
        refine ⟨hj', (mem_finished hfinished hj').mpr ?_⟩
        have hmem : target s j ∈ before := (hcopied.mem_iff _).mpr ⟨j, hlen ▸ hj, rfl⟩
        cases icon with
        | false => exact hmem
        | true => exact (Finmap.mem_insert).mpr (.inr hmem)
  · rw [Restorable, harrivals]
    rintro (⟨-, hclash⟩ | hzero | ⟨j, hj, hno⟩ | ⟨-, hgone⟩) hfiles folder
    · refine ⟨_, contents, rfl, (nodup_fileNames_iff _).mpr hclash, hlen, rfl, ?_⟩
      rw [List.forall₂_iff_get]
      refine ⟨(length_fileNames _ _).trans hlen.symm, fun j hj hj' => ?_⟩
      rw [List.get_eq_getElem, getElem_fileNames]
      obtain ⟨hlog, hmeta, hicon⟩ := isApk_ne
        (hfiles.2 _ (mem_fileNames.mpr ⟨j, hlen ▸ hj', rfl⟩)).1
      exact lookup_copied hcopied hfinished (hlen ▸ hclash) j hj' ⟨hlog, hmeta, fun _ => hicon⟩
    · exact absurd hzero (fileNames_ne_nil.mp hfiles.1)
    · exact absurd (hfiles.2 _ (mem_fileNames.mpr ⟨j, hj, rfl⟩)).1 hno
    · rw [List.getElem?_eq_none (by rw [delivered, List.length_zipWith]; omega)] at hgone
      cases hgone

theorem not_arrived (apkPath : Text) {success : Bool} {leaves : Option κ}
    (h : success = true → leaves = none) : arrived (apkPath, success, leaves) = false := by
  cases success with
  | false => rfl
  | true =>
    rw [h rfl]
    rfl

theorem lookup_leave_of_ne (before : Directory κ) {name x : Text} (h : x ≠ name) (leaves : Option κ) :
    (leave before name leaves).lookup x = before.lookup x := by
  cases leaves with
  | none => exact Finmap.lookup_erase_ne h
  | some c => exact Finmap.lookup_insert_of_ne _ h

/-- A backup that was cut off has to be refused. -/
theorem decided_of_cut (path : Text × Text) (h : Cut r s apkPaths d pulls icon) :
    Decided u r s apkPaths path d pulls := by
  obtain ⟨contents, before, success, leaves, hlen, hcopied, hleaves, rfl, hfinished⟩ := h
  have hlast := not_arrived apkPaths[contents.length] hleaves
  have harrivals := arrivals_cut hlen hlast
  have hget : (delivered (apkPaths.take contents.length) contents ++
      [(apkPaths[contents.length], success, leaves)])[contents.length]? =
        some (apkPaths[contents.length], success, leaves) := by
    rw [List.getElem?_append_right (by rw [length_delivered_take hlen]), length_delivered_take hlen,
      Nat.sub_self]
    rfl
  refine ⟨contents.length, hfinished.lookup_metadata, ?_⟩
  rw [Restorable, harrivals, hget]
  constructor
  · intro hall
    by_cases hfiles : Acceptable u d (fileNames s contents.length)
    · obtain ⟨-, contents', -, -, -, hpulls, -⟩ := hall hfiles []
      have hmem := List.mem_of_getElem? hget
      rw [hpulls] at hmem
      rw [arrived_delivered hmem] at hlast
      cases hlast
    · by_cases hzero : contents.length = 0
      · exact .inr (.inl hzero)
      by_cases hapk : ∃ i < contents.length, ¬ isApk u (target s i)
      · exact .inr (.inr (.inl hapk))
      by_contra hno
      refine hfiles ⟨fileNames_ne_nil.mpr hzero, fun name hname => ?_⟩
      obtain ⟨j, hj, rfl⟩ := mem_fileNames.mp hname
      have hj' : isApk u (target s j) := by
        by_contra h
        exact hapk ⟨j, hj, h⟩
      refine ⟨hj', (mem_finished hfinished hj').mpr ?_⟩
      have hmem : target s j ∈ before := (hcopied.mem_iff _).mpr ⟨j, hj, rfl⟩
      by_cases he : target s j = target s contents.length
      · cases leaves with
        | some c =>
          rw [he]
          exact Finmap.mem_insert.mpr (.inl rfl)
        | none => exact absurd (.inr (.inr (.inr ⟨(clash_iff _).mpr ⟨j, hj, he⟩, rfl⟩))) hno
      · rw [← Finmap.lookup_isSome, lookup_leave_of_ne before he, Finmap.lookup_isSome]
        exact hmem
  · rintro (⟨hfull, -⟩ | hzero | ⟨j, hj, hno⟩ | ⟨hclash, hgone⟩) hfiles folder
    · omega
    · exact absurd hzero (fileNames_ne_nil.mp hfiles.1)
    · exact absurd (hfiles.2 _ (mem_fileNames.mpr ⟨j, hj, rfl⟩)).1 hno
    · have hnone : leaves = none := Option.isNone_iff_eq_none.mp hgone
      obtain ⟨j, hj, he⟩ := (clash_iff _).mp hclash
      obtain ⟨hapk, hmem⟩ := hfiles.2 _ (mem_fileNames.mpr ⟨j, hj, rfl⟩)
      rw [mem_finished hfinished hapk, he, hnone, leave, Finmap.mem_erase] at hmem
      exact absurd rfl hmem.1

theorem apkFilesOf_recorded {m : Metadata} (h : Recorded r files m) : apkFilesOf m = files := by
  obtain ⟨-, hfiles, hfirst⟩ := h
  rw [apkFilesOf, hfiles, hfirst]
  cases files with
  | nil => rfl
  | cons name files => rfl

theorem readBackup_recorded {m : Metadata} (path : Text × Text)
    (hm : d.lookup METADATA_NAME = some (.metadata m)) (h : Recorded r files m)
    (hplain : ∀ name ∈ files, PlainName u name) :
    (readBackup path d true).path = path ∧ (readBackup path d true).apkFiles = files := by
  simp only [readBackup, hm, apkFilesOf_recorded h, true_and]
  rw [List.filter_eq_self]
  exact fun name hn => decide_eq_true (hplain name hn).trimmed.1

/-- What the scan lists that it did not list before. -/
theorem scan_new {w₀ w : World κ} {cancelled : Bool} {b : BackupInfo}
    (hb : b ∈ scanBackups cancelled w) (hnew : b ∉ scanBackups false w₀) :
    ∃ path, isListed path ∧ path ∈ w.root ∧ b = readBackup path (w.directory path) true ∧
      w.root.lookup path ≠ w₀.root.lookup path := by
  cases cancelled with
  | true => simp [scanBackups] at hb
  | false =>
    rw [scanBackups, if_neg Bool.false_ne_true, Finset.mem_image] at hb hnew
    obtain ⟨path, hpath, rfl⟩ := hb
    rw [Finset.mem_filter, Finmap.mem_keys] at hpath
    refine ⟨path, hpath.2, hpath.1, rfl, fun he => hnew ⟨path, ?_, ?_⟩⟩
    · rw [Finset.mem_filter, Finmap.mem_keys, ← Finmap.lookup_isSome, ← he, Finmap.lookup_isSome]
      exact hpath
    · rw [World.directory, World.directory, he]

theorem plain_fileNames (apkPaths : List Text) (n : Nat) :
    ∀ name ∈ fileNames (names u apkPaths) n, PlainName u name := by
  intro name hname
  obtain ⟨j, -, rfl⟩ := mem_fileNames.mp hname
  exact plain_target apkPaths j

theorem pullsOf_append (since trace : List (Event κ)) :
    pullsOf (since ++ trace) = pullsOf trace ++ pullsOf since := by
  induction since with
  | nil => exact (List.append_nil _).symm
  | cons e since ih =>
    cases e <;> simp only [List.cons_append, pullsOf, ih, List.append_assoc]

/-- `R` holds of the paths of the run and of its pulls. -/
def OfRun (app : AppInfo) (w₀ w : World κ) (R : List Text → List (Pull κ) → Prop) : Prop :=
  ∃ since freshPaths, w.trace = since ++ w₀.trace ∧
    .reported app.packageName freshPaths ∈ since ∧ R (usedPaths app freshPaths) (pullsOf since)

/-- Restoring the backup installs the files of all these paths or nothing. -/
def RestoresWhole (u : UnicodeData) (w : World κ) (b : BackupInfo) (apkPaths : List Text)
    (pulls : List (Pull κ)) : Prop :=
  WholeOrNothing u b w (OneForEach b.path (w.directory b.path) apkPaths pulls)

def RestorableRun (u : UnicodeData) (apkPaths : List Text) (pulls : List (Pull κ)) : Prop :=
  Restorable u (names u apkPaths) apkPaths.length pulls

theorem restores_of_made {w : World κ} {b : BackupInfo}
    {C : Request → (Nat → Text) → List Text → Directory κ → List (Pull κ) → Bool → Prop}
    (hC : ∀ {apkPaths d pulls icon} path, C r (names u apkPaths) apkPaths d pulls icon →
      Decided u r (names u apkPaths) apkPaths path d pulls)
    (h : BackupMade u r C w₀ w) (hpath : isListed path)
    (hb : b = readBackup path (w.directory path) true)
    (hne : w.root.lookup path ≠ w₀.root.lookup path) :
    OfRun r.app w₀ w (fun apkPaths pulls =>
      RestoresWhole u w b apkPaths pulls ↔ RestorableRun u apkPaths pulls) := by
  obtain ⟨later, since, before, freshPaths, final, d, ht, ⟨hl, -, hbefore⟩, -, ⟨-, hd, hothers⟩, hc⟩ := h
  have hfinal : path = final := by
    by_contra hp
    exact hne (hothers path hp)
  subst hfinal
  have hdir : w.directory path = d := Inside.directory hd
  obtain ⟨k, ⟨m, hm, hrecorded⟩, hiff⟩ := hC path hc
  have hplain := plain_fileNames (u := u) (usedPaths r.app freshPaths) k
  obtain ⟨hbpath, hbfiles⟩ := readBackup_recorded path hm hrecorded hplain
  rw [hdir] at hb
  rw [← hb] at hbpath hbfiles
  have hpulls : pullsOf (later ++ .published path d ::
      (since ++ .reported r.app.packageName freshPaths :: before)) = pullsOf since := by
    rw [pullsOf_append, (pullsOf_of_neutral hl).1, List.append_nil]
    change pullsOf (since ++ _) = _
    rw [pullsOf_append]
    change pullsOf before ++ _ = _
    rw [(pullsOf_of_neutral hbefore).1, List.nil_append]
  refine ⟨later ++ .published path d :: (since ++ .reported r.app.packageName freshPaths :: before),
    freshPaths, ?_, ?_, ?_⟩
  · rw [ht]
    simp only [List.append_assoc, List.cons_append]
  · simp
  · dsimp only [RestoresWhole, RestorableRun]
    rw [hpulls, ← hiff, wholeOrNothing_iff (hbpath ▸ hpath)
      (hbpath ▸ hdir) (hbfiles ▸ hplain), hbfiles, hbpath, hdir]

/-- Of two splits the second cannot be pulled. -/
def cutHost : Host Nat :=
  Host.steady [['a', '.', 'a', 'p', 'k'], ['b', '.', 'a', 'p', 'k']] (fun apkPath =>
    if apkPath = ['a', '.', 'a', 'p', 'k'] then ⟨some 1, .ok .ok⟩
    else ⟨none, .ok ⟨false, [], [], []⟩⟩)

def cutRequest : Request := ⟨⟨['p'], [], [], [], [], [], []⟩, ⟨[], [], []⟩, [], [], false⟩

def cutBackup : BackupInfo :=
  ⟨(['p'], ['-']), ['p'], ['p'], [], [], [], [], [['a', '.', 'a', 'p', 'k']],
    restoreMethod [['a', '.', 'a', 'p', 'k']], true, []⟩

theorem cut_backup :
    installsOf (createBackup .ascii cutHost cutRequest ⟨∅, []⟩).2.trace = [] ∧
      (pullsOf (createBackup .ascii cutHost cutRequest ⟨∅, []⟩).2.trace).all arrived = false ∧
      installsOf (restoreBackup .ascii (Host.steady [] (fun _ => ⟨none, .ok .ok⟩)) [] cutBackup false
        (createBackup .ascii cutHost cutRequest ⟨∅, []⟩).2).2.trace ≠ [] := by
  decide +kernel

end OpenAdb.Backup.Restore
