import OpenAdb.Backup.Snapshot

namespace OpenAdb.Backup.Scan

open OpenAdb.Lib.PyText OpenAdb.Backup.Snapshot

/-- What `json.loads` makes of a text. -/
inductive Json
  | null
  | bool (b : Bool)
  | int (n : Int)
  | float (isZero : Bool) (text : Text)
  | str (s : Text)
  | array (items : List Json)
  | object (fields : List (Text × Json))

inductive LoadsError
  | jsonDecode
  | value
  | recursion

/-- The library: decoding of a file as UTF-8, `json.loads`, and `str` of what is not a string. -/
structure Python where
  decode : List UInt8 → Option Text
  loads : Text → Except LoadsError Json
  shown : Json → Text

/-- `metadata.json` in a folder: none, one that cannot be read, or its bytes. -/
inductive MetadataFile
  | missing
  | unreadable
  | bytes (content : List UInt8)

structure SnapshotFolder where
  name : Text
  isDir : Bool
  metadata : MetadataFile
  apkNames : List Text

structure PackageFolder where
  name : Text
  isDir : Bool
  entries : List SnapshotFolder

/-- What is below the backup root. Names in one folder differ. -/
structure BackupRoot where
  packages : List PackageFolder
  packages_nodup : (packages.map PackageFolder.name).Nodup
  entries_nodup : ∀ p ∈ packages, (p.entries.map SnapshotFolder.name).Nodup

inductive Raised
  | unicodeDecode
  | value
  | recursion
  | attribute
  | typeError

def Json.truthy : Json → Bool
  | .null | .bool false | .int 0 | .float true _ | .str [] | .array [] | .object [] => false
  | _ => true

variable (py : Python)

def pyStr : Json → Text
  | .str s => s
  | .null => "None".toList
  | .bool true => "True".toList
  | .bool false => "False".toList
  | j => py.shown j

/-- `str(metadata.get(field, ""))` -/
def textField (fields : List (Text × Json)) (field : String) : Text :=
  match fields.lookup field.toList with
  | none => []
  | some j => pyStr py j

/-- `[metadata.get("apk_filename")] if metadata.get("apk_filename") else []` -/
def singleApk : Option Json → Json
  | none => .array []
  | some j => if j.truthy = true then .array [j] else .array []

/-- The value of `apk_files` before it is gone through. -/
def apkFilesValue (fields : List (Text × Json)) : Json :=
  match fields.lookup "apk_files".toList with
  | none => singleApk (fields.lookup "apk_filename".toList)
  | some j => if j.truthy = true then j else singleApk (fields.lookup "apk_filename".toList)

/-- What a `for` takes from a value, unless it raises. -/
def Json.iterate : Json → Option (List Json)
  | .array items => some items
  | .str s => some (s.map (fun c => .str [c]))
  | .object fields => some (fields.map (fun field => .str field.1))
  | _ => none

def fromMetadata (package : Text) (d : SnapshotFolder) (fields : List (Text × Json)) (items : List Json) : BackupInfo where
  path := (package, d.name)
  packageName := textField py fields "package_name"
  appLabel := textField py fields "app_label"
  backupDate := textField py fields "backup_date"
  deviceModel := textField py fields "device_model"
  deviceSerial := textField py fields "device_serial"
  androidVersion := textField py fields "android_version"
  apkFiles := (items.filter Json.truthy).map (pyStr py)
  restoreMethod := if 1 < items.length then "adb install-multiple".toList else "adb install".toList
  metadataExists := true
  uninstallMethod := textField py fields "uninstall_method"

def fromFolder (package : Text) (d : SnapshotFolder) : BackupInfo where
  path := (package, d.name)
  packageName := package
  appLabel := []
  backupDate := d.name
  deviceModel := []
  deviceSerial := []
  androidVersion := []
  apkFiles := d.apkNames
  restoreMethod := restoreMethod d.apkNames
  metadataExists := false
  uninstallMethod := []

/-- `_read_backup` -/
def readBackup (package : Text) (d : SnapshotFolder) : Except Raised BackupInfo :=
  match d.metadata with
  | .missing => .ok (fromFolder package d)
  | .unreadable => .ok (fromFolder package d)
  | .bytes content =>
    match py.decode content with
    | none => .error .unicodeDecode
    | some text =>
      match py.loads text with
      | .error .jsonDecode => .ok (fromFolder package d)
      | .error .value => .error .value
      | .error .recursion => .error .recursion
      | .ok (.object fields) =>
        match (apkFilesValue fields).iterate with
        | none => .error .typeError
        | some items => .ok (fromMetadata py package d fields items)
      | .ok _ => .error .attribute

/-- The snapshot folders, each with the name of its package folder. -/
def listed (root : BackupRoot) : List (Text × SnapshotFolder) :=
  (root.packages.filter PackageFolder.isDir).flatMap (fun package =>
    (package.entries.filter (fun d => d.isDir && !PARTIAL.isPrefixOf d.name)).map (fun d => (package.name, d)))

/-- `item.backup_date or item.path.name` -/
def sortKey (backup : BackupInfo) : Text := if backup.backupDate ≠ [] then backup.backupDate else backup.path.2

def notBefore (a b : BackupInfo) : Bool := decide (¬sortKey a < sortKey b)

/-- `scan_backups`, when it is not cancelled. -/
def scanBackups (root : BackupRoot) : Except Raised (List BackupInfo) := do
  let backups ← (listed root).mapM (fun x => readBackup py x.1 x.2)
  pure (backups.mergeSort notBefore)

end OpenAdb.Backup.Scan
