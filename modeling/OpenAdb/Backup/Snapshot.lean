import Mathlib.Data.Char
import Mathlib.Data.Finset.Sort
import Mathlib.Data.Finmap
import Mathlib.Data.List.Lex
import OpenAdb.Lib.Effects
import OpenAdb.Backup.Names

namespace OpenAdb.Backup.Snapshot

open OpenAdb.Lib.PyText OpenAdb.Lib.Effects OpenAdb.Backup.Names

structure AppInfo where
  packageName : Text
  appLabel : Text
  appType : Text
  versionName : Text
  versionCode : Text
  apkPaths : List Text
  iconPath : Text
  deriving DecidableEq

def AppInfo.displayName (app : AppInfo) : Text :=
  if app.appLabel = [] then app.packageName else app.appLabel

def AppInfo.isSystem (app : AppInfo) : Bool := app.appType = ['s', 'y', 's', 't', 'e', 'm']

structure DeviceInfo where
  serial : Text
  model : Text
  androidVersion : Text
  deriving DecidableEq

structure Metadata where
  packageName : Text
  appLabel : Text
  versionName : Text
  versionCode : Text
  apkPathOnDevice : Text
  apkPathsOnDevice : List Text
  backupDate : Text
  deviceModel : Text
  deviceSerial : Text
  androidVersion : Text
  uninstallMethod : Text
  apkFilename : Text
  apkFiles : List Text
  iconFilename : Text
  backupStatus : Text
  deriving DecidableEq

structure BackupInfo where
  path : Text × Text
  packageName : Text
  appLabel : Text
  backupDate : Text
  deviceModel : Text
  deviceSerial : Text
  androidVersion : Text
  apkFiles : List Text
  restoreMethod : Text
  metadataExists : Bool
  uninstallMethod : Text
  deriving DecidableEq

variable {κ α ε : Type}

inductive FileContent (κ : Type)
  | apk (c : κ)
  | log (text : Text)
  | metadata (m : Metadata)
  | icon
  deriving DecidableEq

abbrev Directory (κ : Type) := Finmap (fun _ : Text => FileContent κ)

/-- What a run does and sees. A pull leaves a file at its target or none. -/
inductive Event (κ : Type)
  | polled (set : Bool)
  | verified
  | operation
  | reported (packageName : Text) (apkPaths : List Text)
  | pulled (apkPath : Text) (success : Bool) (leaves : Option κ)
  | iconWritten
  | published (path : Text × Text) (content : Directory κ)
  | uninstall (packageName : Text) (systemApp useRoot : Bool)
  | install (apkPaths : List (List Text))
  | installExisting (packageName : Text)

/-- The backups folder: a directory for each package and in it one for each
backup. The latest event comes first. -/
structure World (κ : Type) where
  root : Finmap (fun _ : Text × Text => Directory κ)
  trace : List (Event κ)

inductive Fault
  | osError
  | other
  deriving DecidableEq

/-- `log` is the entry that `_command_log` makes of the result. -/
structure CommandResult where
  success : Bool
  status : Text
  stderr : Text
  log : Text
  deriving DecidableEq

structure PullOutcome (κ : Type) where
  leaves : Option κ
  result : Except Fault CommandResult

/-- Copying the icon: whether it touches `icon.png`, and what it raises. -/
structure IconCopy where
  writes : Bool
  fault : Option Fault

/-- The device, the user and the local machine. Whatever they do may depend on
all that happened before. `unresolved` is the text of the error when a path cannot be resolved. -/
structure Host (κ : Type) where
  cancelled : World κ → Bool
  current : World κ → Option Fault
  fault : World κ → Option Fault
  packagePaths : World κ → Text → Except Fault (List Text)
  pull : World κ → Bool → Text → Text → PullOutcome κ
  icon : World κ → Text → IconCopy
  timestamp : World κ → Text
  isoDate : World κ → Text
  temporary : World κ → Text
  prepared : World κ → Except Fault (Option Bool)
  rootAvailable : World κ → Except Fault Bool
  uninstall : World κ → Text → Except Fault CommandResult
  install : World κ → Except Fault CommandResult
  unresolved : World κ → Option Text

def World.record (w : World κ) (e : Event κ) : World κ := { w with trace := e :: w.trace }

def World.directory (w : World κ) (path : Text × Text) : Directory κ :=
  (w.root.lookup path).getD ∅

def World.store (w : World κ) (path : Text × Text) (d : Directory κ) : World κ :=
  { w with root := w.root.insert path d }

/-- How a run of the backup ends before its last line: by an exception, by an early return, or
by the return after a failed backup was published. -/
inductive Stop
  | fault (f : Fault)
  | refused (message : Text)
  | failed (message : Text)

def poll (host : Host κ) : Effect ε (World κ) Bool := fun w =>
  (.ok (host.cancelled w), w.record (.polled (host.cancelled w)))

def checkpoint (host : Host κ) (message : Text) : Effect Stop (World κ) Unit := do
  let cancelled ← poll host
  require (cancelled = false) (.refused message)

/-- A call of the local file system. -/
def operation (host : Host κ) : Effect Stop (World κ) Unit := fun w =>
  (match host.fault w with
    | some f => .error (.fault f)
    | none => .ok (), w.record .operation)

def writeText (host : Host κ) (path : Text × Text) (name : Text) (content : FileContent κ) :
    Effect Stop (World κ) Unit := do
  operation host
  update (fun w => w.store path ((w.directory path).insert name content))

def fileExists (host : Host κ) (path : Text × Text) (name : Text) : Effect Stop (World κ) Bool := do
  operation host
  read (fun w => decide (isDots name ∨ name ∈ w.directory path))

def getPackagePath (host : Host κ) (packageName : Text) : Effect Stop (World κ) (List Text) :=
  fun w =>
    match host.packagePaths w packageName with
    | .ok apkPaths => (.ok apkPaths, w.record (.reported packageName apkPaths))
    | .error f => (.error (.fault f), w.record .operation)

def leave (d : Directory κ) (name : Text) : Option κ → Directory κ
  | some c => d.insert name (.apk c)
  | none => d.erase name

/-- `adb.pull`, or `adb.pull_file_streaming_to_file` with root. -/
def pullApk (host : Host κ) (useRoot : Bool) (path : Text × Text) (apkPath name : Text) :
    Effect Stop (World κ) CommandResult := fun w =>
  let o := host.pull w useRoot apkPath name
  let w := w.store path (leave (w.directory path) name o.leaves)
  match o.result with
  | .ok result => (.ok result, w.record (.pulled apkPath result.success o.leaves))
  | .error f => (.error (.fault f), w.record (.pulled apkPath false o.leaves))

def METADATA_NAME : Text := ['m', 'e', 't', 'a', 'd', 'a', 't', 'a', '.', 'j', 's', 'o', 'n']

def LOG_NAME : Text :=
  ['c', 'o', 'm', 'm', 'a', 'n', 'd', '_', 'l', 'o', 'g', '.', 't', 'x', 't']

def ICON_NAME : Text := ['i', 'c', 'o', 'n', '.', 'p', 'n', 'g']

def PARTIAL : Text := ['.', 'p', 'a', 'r', 't', 'i', 'a', 'l', '-']

def metadataOf (app : AppInfo) (device : DeviceInfo) (uninstallMethod : Text)
    (apkFiles : List Text) (iconFilename status backupDate : Text) : Metadata where
  packageName := app.packageName
  appLabel := app.displayName
  versionName := app.versionName
  versionCode := app.versionCode
  apkPathOnDevice := app.apkPaths.headD []
  apkPathsOnDevice := app.apkPaths
  backupDate := backupDate
  deviceModel := device.model
  deviceSerial := device.serial
  androidVersion := device.androidVersion
  uninstallMethod := uninstallMethod
  apkFilename := apkFiles.headD []
  apkFiles := apkFiles
  iconFilename := iconFilename
  backupStatus := status

/-- What the calls of one backup share. -/
structure Request where
  app : AppInfo
  device : DeviceInfo
  uninstallMethod : Text
  iconPath : Text
  useRoot : Bool

def writeMetadata (host : Host κ) (r : Request) (path : Text × Text) (apkFiles : List Text)
    (iconFilename status : Text) : Effect Stop (World κ) Unit := do
  let backupDate ← read host.isoDate
  writeText host path METADATA_NAME
    (.metadata (metadataOf r.app r.device r.uninstallMethod apkFiles iconFilename status backupDate))

/-- `name.removeprefix(lead)` -/
def removeLead (lead name : Text) : Text := if lead.isPrefixOf name then name.drop lead.length else name

def partialLead (timestamp : Text) : Text := PARTIAL ++ timestamp ++ ['-']

def finalPath (path : Text × Text) (timestamp : Text) : Text × Text :=
  (path.1, timestamp ++ '-' :: removeLead (partialLead timestamp) path.2)

/-- A directory that exists is not replaced. -/
def publishBackupDirectory (host : Host κ) (path : Text × Text) (timestamp : Text) :
    Effect Stop (World κ) (Text × Text) := do
  operation host
  let free ← read (fun w => decide (finalPath path timestamp ∉ w.root))
  require (free = true) (.fault .osError)
  update (fun w => { w with
    root := (w.root.erase path).insert (finalPath path timestamp) (w.directory path)
    trace := .published (finalPath path timestamp) (w.directory path) :: w.trace })
  return finalPath path timestamp

/-- The path is not tried when the first name is free. -/
def chooseTarget (host : Host κ) (path : Text × Text) (index : Nat) (name : Text) :
    Effect Stop (World κ) Text := do
  let used ← fileExists host path name
  return if used then indexed index name else name

/-- `result.success and target.exists()` -/
def copySucceeded (host : Host κ) (path : Text × Text) (name : Text) (result : CommandResult) :
    Effect Stop (World κ) Bool :=
  if result.success then fileExists host path name else pure false

def failureMessage (result : CommandResult) : Text :=
  if result.status ≠ [] then result.status
  else if result.stderr ≠ [] then result.stderr
  else "Failed to pull APK from device.".toList

def logText (logs : List Text) : Text := ['\n'].intercalate logs

/-- The branch of a failed pull: the backup is published as far as it came. -/
def publishFailure (host : Host κ) (r : Request) (path : Text × Text) (timestamp filename : Text)
    (logs apkFiles : List Text) (result : CommandResult) :
    Effect Stop (World κ) (List Text × List Text) := do
  checkpoint host ("Backup cancelled while copying ".toList ++ filename ++ ['.'])
  writeText host path LOG_NAME (.log (logText logs))
  checkpoint host "Backup cancelled before writing failure metadata.".toList
  writeMetadata host r path apkFiles r.iconPath ['f', 'a', 'i', 'l', 'e', 'd']
  checkpoint host "Backup cancelled before publishing failure metadata.".toList
  let _ ← publishBackupDirectory host path timestamp
  raise (.failed (failureMessage result))

/-- The loop over the APK paths. The accumulators are the log entries and the file names. -/
def copyApks (u : UnicodeData) (host : Host κ) (r : Request) (path : Text × Text)
    (timestamp : Text) (index : Nat) (logs apkFiles : List Text) :
    List Text → Effect Stop (World κ) (List Text × List Text)
  | [] => pure (logs, apkFiles)
  | apkPath :: rest => do
    checkpoint host "Backup cancelled before the next split APK.".toList
    let filename := apkName index apkPath
    let name ← chooseTarget host path index (safeFilename u filename)
    let result ← pullApk host r.useRoot path apkPath name
    checkpoint host ("Backup cancelled while copying ".toList ++ filename ++ ['.'])
    let copied ← copySucceeded host path name result
    if copied then
      copyApks u host r path timestamp (index + 1) (logs ++ [result.log]) (apkFiles ++ [name]) rest
    else publishFailure host r path timestamp filename (logs ++ [result.log]) apkFiles result

/-- An `OSError` leaves the backup without an icon. -/
def copyIcon (host : Host κ) (path : Text × Text) (iconPath : Text) :
    Effect Stop (World κ) Text := fun w =>
  if iconPath = [] then (.ok [], w)
  else
    let copy := host.icon w iconPath
    let w := if copy.writes then
        (w.store path ((w.directory path).insert ICON_NAME .icon)).record .iconWritten
      else w.record .operation
    match copy.fault with
    | some .other => (.error (.fault .other), w)
    | some .osError => (.ok [], w)
    | none => (.ok (if copy.writes then ICON_NAME else []), w)

/-- The body of the `try`. -/
def fillBackup (u : UnicodeData) (host : Host κ) (r : Request) (path : Text × Text)
    (timestamp : Text) (apkPaths : List Text) : Effect Stop (World κ) (Text × Text) := do
  checkpoint host "Backup cancelled before copying APK files.".toList
  let (logs, apkFiles) ← copyApks u host r path timestamp 1 [] [] apkPaths
  checkpoint host "Backup cancelled before writing local metadata.".toList
  let iconFilename ← copyIcon host path r.iconPath
  checkpoint host "Backup cancelled before writing local metadata.".toList
  writeText host path LOG_NAME (.log (logText logs))
  checkpoint host "Backup cancelled before writing backup metadata.".toList
  writeMetadata host r path apkFiles iconFilename ['s', 'u', 'c', 'c', 'e', 's', 's']
  checkpoint host "Backup cancelled before publishing backup metadata.".toList
  publishBackupDirectory host path timestamp

/-- An `OSError` leaves the partial directory where it is. -/
def discardPartialBackup (host : Host κ) (path : Text × Text) (w : World κ) : World κ :=
  match host.fault w with
  | some _ => w.record .operation
  | none => { w with root := w.root.erase path, trace := .operation :: w.trace }

/-- The `finally`. -/
def discardUnpublished (host : Host κ) (path : Text × Text) (x : Effect Stop (World κ) α) :
    Effect Stop (World κ) α := fun w =>
  match x w with
  | (.ok a, t) => (.ok a, t)
  | (.error (.failed message), t) => (.error (.failed message), t)
  | (.error (.refused message), t) => (.error (.refused message), discardPartialBackup host path t)
  | (.error (.fault f), t) => (.error (.fault f), discardPartialBackup host path t)

/-- `tempfile.mkdtemp`, which gives up when the name is taken. -/
def makeTemporary (host : Host κ) (packageDir timestamp : Text) :
    Effect Stop (World κ) (Text × Text) := do
  operation host
  let random ← read host.temporary
  let free ← read (fun w => decide ((packageDir, partialLead timestamp ++ random) ∉ w.root))
  require (free = true) (.fault .osError)
  update (fun w => w.store (packageDir, partialLead timestamp ++ random) ∅)
  return (packageDir, partialLead timestamp ++ random)

def restoreMethod (apkFiles : List Text) : Text :=
  ['a', 'd', 'b', ' ', 'i', 'n', 's', 't', 'a', 'l', 'l'] ++
    if 1 < apkFiles.length then ['-', 'm', 'u', 'l', 't', 'i', 'p', 'l', 'e'] else []

def apkFilesOf (m : Metadata) : List Text :=
  if m.apkFiles ≠ [] then m.apkFiles else if m.apkFilename ≠ [] then [m.apkFilename] else []

/-- `glob("*.apk")` -/
def globApk (d : Directory κ) : List Text :=
  (d.keys.filter (fun name => ['.', 'a', 'p', 'k'] <:+ name)).sort (· ≤ ·)

/-- `_read_backup`. Metadata that cannot be read are treated as missing. -/
def readBackup (path : Text × Text) (d : Directory κ) (readable : Bool) : BackupInfo :=
  match d.lookup METADATA_NAME, readable with
  | some (.metadata m), true =>
    { path := path
      packageName := m.packageName
      appLabel := m.appLabel
      backupDate := m.backupDate
      deviceModel := m.deviceModel
      deviceSerial := m.deviceSerial
      androidVersion := m.androidVersion
      apkFiles := (apkFilesOf m).filter (· ≠ [])
      restoreMethod := restoreMethod (apkFilesOf m)
      metadataExists := true
      uninstallMethod := m.uninstallMethod }
  | _, _ =>
    { path := path
      packageName := path.1
      appLabel := []
      backupDate := path.2
      deviceModel := []
      deviceSerial := []
      androidVersion := []
      apkFiles := globApk d
      restoreMethod := restoreMethod (globApk d)
      metadataExists := false
      uninstallMethod := [] }

def readPublished (host : Host κ) (path : Text × Text) : Effect Stop (World κ) BackupInfo :=
  fun w =>
    match host.fault w with
    | some .other => (.error (.fault .other), w.record .operation)
    | some .osError => (.ok (readBackup path (w.directory path) false), w.record .operation)
    | none => (.ok (readBackup path (w.directory path) true), w.record .operation)

def runBackup (u : UnicodeData) (host : Host κ) (r : Request) :
    Effect Stop (World κ) BackupInfo := do
  checkpoint host "Backup cancelled before it started.".toList
  operation host
  checkpoint host "Backup cancelled before it started.".toList
  let freshPaths ← getPackagePath host r.app.packageName
  checkpoint host "Backup cancelled while reading APK paths.".toList
  let apkPaths := if freshPaths ≠ [] then freshPaths else r.app.apkPaths
  require (apkPaths ≠ []) (.refused "No APK path returned by pm path.".toList)
  checkpoint host "Backup cancelled before creating local backup files.".toList
  let timestamp ← read host.timestamp
  operation host
  let path ← makeTemporary host (safeFilename u r.app.packageName) timestamp
  let final ← discardUnpublished host path (fillBackup u host r path timestamp apkPaths)
  readPublished host final

def createBackup (u : UnicodeData) (host : Host κ) (r : Request) :
    Effect Fault (World κ) (Bool × Option BackupInfo × Text) := fun w =>
  match runBackup u host r w with
  | (.ok backup, t) => (.ok (true, some backup, "Backup created".toList), t)
  | (.error (.refused message), t) => (.ok (false, none, message), t)
  | (.error (.failed message), t) => (.ok (false, none, message), t)
  | (.error (.fault f), t) => (.error f, t)

def CommandResult.ok : CommandResult := ⟨true, [], [], []⟩

/-- Nothing is cancelled and no local operation fails. -/
def Host.steady (apkPaths : List Text) (pull : Text → PullOutcome κ) : Host κ where
  cancelled _ := false
  current _ := none
  fault _ := none
  packagePaths _ _ := .ok apkPaths
  pull _ _ apkPath _ := pull apkPath
  icon _ _ := ⟨false, none⟩
  timestamp _ := []
  isoDate _ := []
  temporary _ := []
  prepared _ := .ok (some false)
  rootAvailable _ := .ok false
  uninstall _ _ := .ok .ok
  install _ := .ok .ok
  unresolved _ := none

end OpenAdb.Backup.Snapshot
