import OpenAdb.Backup.Scan
import OpenAdb.Lib.LinkTree

namespace OpenAdb.Backup.Cleanup

open OpenAdb.Lib.Effects OpenAdb.Lib.LinkTree OpenAdb.Lib.PyText
open OpenAdb.Backup.Names (safeFilename)
open OpenAdb.Backup.Scan (Json Python pyStr)

/-- What an entry has besides its kind: the reparse flag, and the bytes of a file. -/
structure Data where
  reparse : Bool
  content : List UInt8
  deriving DecidableEq

/-- The names of a path, after the one of its drive. -/
abbrev Path := List Text

inductive Op
  | iterdir (path : Path)
  | readText (path : Path)
  | scandir (place : Path)
  | unlink (place : Path)
  | rmdir (place : Path)

inductive Raised
  | osError (message : Text)
  | unicodeDecode
  | value
  | recursion

variable {κ : Type} [DecidableEq κ] {key : Data → Text → κ}

structure State (κ : Type) (key : Data → Text → κ) where
  tree : Tree Text Data κ key
  log : List Op

/-- The library and the platform: `json`, `str` methods, `expanduser` to an absolute path, `normcase`,
`resolve`, the home folder, and the operations that fail with a message. -/
structure Host (κ : Type) (key : Data → Text → κ) where
  python : Python
  unicode : UnicodeData
  lower : Text → Text
  normcase : Text → Text
  expand : Text → Path
  resolve : Tree Text Data κ key → Path → Option Path
  home : Path
  fails : List Op → Op → Option Text

structure Settings where
  baseConfigDir : Path
  configDir : Path
  data : List (Text × Json)

structure ApkBackupCleanupResult where
  backupRoots : List Path
  removedSnapshots : List Path
  failures : List Text

abbrev Step (κ : Type) (key : Data → Text → κ) := Effect Raised (State κ key)

section Paths

variable (h : Host κ key)

def pathText : Path → Text
  | [] => []
  | drive :: names => drive ++ ['\\'].intercalate names

/-- `..` does not lead above the drive. -/
def enterName (names : Path) (name : Text) : Path :=
  if name = "..".toList then names.take 1 ++ names.tail.dropLast else names ++ [name]

/-- `os.path.normpath` of an absolute path. -/
def lexicalAbsolutePath (path : Path) : Path := path.foldl enterName []

def lexicalPathKey (path : Path) : Path :=
  (lexicalAbsolutePath path).map fun name => casefold h.unicode (h.normcase name)

def appendUniqueLexicalPath (paths : List Path) (path : Path) : List Path :=
  let lexical := lexicalAbsolutePath path
  if paths.any (fun existing => lexicalPathKey h existing = lexicalPathKey h lexical) then paths
  else paths ++ [lexical]

def appendUniquePath (t : Tree Text Data κ key) (paths : List Path) (path : Path) : List Path :=
  let resolved := (h.resolve t path).getD path
  if paths.any (fun existing => h.lower (pathText existing) = h.lower (pathText resolved)) then paths
  else paths ++ [resolved]

/-- `os.path.commonpath((path, root)) == root` on the keys. -/
def lexicallyWithin (path root : Path) : Bool := (lexicalPathKey h root).isPrefixOf (lexicalPathKey h path)

/-- `str(fields.get(field, "") or "")` -/
def textOr (fields : List (Text × Json)) (field : String) : Text :=
  match fields.lookup field.toList with
  | none => []
  | some value => if value.truthy then pyStr h.python value else []

end Paths

section Looks

variable (links : Nat) (t : Tree Text Data κ key)

def linked (e : Entry Text Data) : Bool :=
  e.data.reparse || match e.kind with
    | .link _ _ => true
    | _ => false

/-- `lstat` of a path: the last name is not followed. -/
def isLinkOrReparsePoint (path : Path) : Bool := ((t.place links path).bind t.entry).any linked

def entryAt (path : Path) : Option (Entry Text Data) := (t.follow links [] (path.map .into)).bind t.entry

def isDirectory (path : Path) : Bool := (entryAt links t path).any fun e => decide (e.kind = .dir)

/-- Each component below a place is looked at; nothing is below a missing one. -/
def crossesLink (place : Path) : Path → Bool
  | [] => false
  | name :: names =>
    match t.child place name with
    | none => false
    | some m => (t.entry (place ++ [m])).any linked || crossesLink (place ++ [m]) names

end Looks

section Operations

variable (h : Host κ key) (links : Nat)

def attempt (op : Op) : Step κ key Unit := do
  let fault ← read fun s => h.fails s.log op
  update fun s => ⟨s.tree, op :: s.log⟩
  match fault with
  | some message => raise (.osError message)
  | none => pure ()

/-- `except OSError` -/
def orOsError {α : Type} (x : Step κ key α) (handler : Text → Step κ key α) : Step κ key α :=
  catching x fun raised =>
    match raised with
    | .osError message => handler message
    | other => raise other

def missing : Raised := .osError "No such file or directory".toList

def iterdir (path : Path) : Step κ key (List Text) := do
  attempt h (.iterdir path)
  match ← read fun s => (isDirectory links s.tree path, s.tree.follow links [] (path.map .into), s.tree) with
  | (true, some place, t) => pure (t.names place)
  | _ => raise missing

/-- The names in a directory, or the message of the error. -/
def tryIterdir (path : Path) : Step κ key (Except Text (List Text)) :=
  orOsError (do
    let names ← iterdir h links path
    pure (.ok names)) fun message => pure (.error message)

/-- `json.loads(path.read_text(encoding="utf-8"))`, without a value for a file that cannot be read or parsed. -/
def loadJson (path : Path) : Step κ key (Option Json) :=
  orOsError (do
    attempt h (.readText path)
    match ← read fun s => entryAt links s.tree path with
    | some ⟨.file, data⟩ =>
      match h.python.decode data.content with
      | none => raise .unicodeDecode
      | some text =>
        match h.python.loads text with
        | .ok value => pure (some value)
        | .error .jsonDecode => pure none
        | .error .value => raise .value
        | .error .recursion => raise .recursion
    | _ => raise missing) fun _ => pure none

/-- Remove an entry of an allowed kind that has nothing in it. -/
def removing (op : Op) (place : Path) (allowed : Entry Text Data → Bool) : Step κ key Unit := do
  attempt h op
  fun s =>
    if hempty : s.tree.names place = [] then
      if (s.tree.entry place).any allowed = true then (.ok (), ⟨s.tree.remove place hempty, s.log⟩)
      else (.error missing, s)
    else (.error missing, s)

/-- A directory, or a junction, which looks like one. -/
def looksLikeDirectory (e : Entry Text Data) : Bool :=
  match e.kind with
  | .dir => true
  | .file => false
  | .link _ _ => e.data.reparse

def rmdir (place : Path) : Step κ key Unit := removing h (.rmdir place) place looksLikeDirectory

def unlink (place : Path) : Step κ key Unit := removing h (.unlink place) place fun e => decide (e.kind ≠ .dir)

def scandir (place : Path) : Step κ key (List Text) := do
  attempt h (.scandir place)
  read fun s => s.tree.names place

def removeEntries (remove : Path → Step κ key Unit) (place : Path) : List Text → Step κ key Unit
  | [] => pure ()
  | name :: names => do
    remove (place ++ [name])
    removeEntries remove place names

/-- `_remove_backup_tree`, with the frames that are left for its recursion. The root is as it is configured,
and the place is the one below it. -/
def removeBackupTree (root : Path) (rootPlace : Path) : Nat → Path → Step κ key Unit
  | 0, _ => raise .recursion
  | frames + 1, place => do
    require (lexicallyWithin h (root ++ place.drop rootPlace.length) root = true)
      (.osError "refusing to delete a backup path outside its configured root".toList)
    match ← read fun s => s.tree.entry place with
    | none => raise missing
    | some e =>
      if linked e then
        if looksLikeDirectory e then rmdir h place else unlink h place
      else if e.kind = .dir then do
        let names ← scandir h place
        removeEntries (removeBackupTree root rootPlace frames) place names
        rmdir h place
      else unlink h place

end Operations

section Snapshots

variable (h : Host κ key) (links : Nat)

/-- The text after so many digits. -/
def afterDigits (n : Nat) (s : Text) : Option Text :=
  if (s.take n).length = n ∧ (s.take n).all (fun c => (h.unicode.decimal c).isSome) = true then some (s.drop n)
  else none

def afterText (word : String) (s : Text) : Option Text :=
  if word.toList.isPrefixOf s then some (s.drop word.length) else none

def afterTime (s : Text) : Option Text :=
  (do
    let s ← afterDigits h 2 s
    let s ← afterText "-" s
    let s ← afterDigits h 2 s
    let s ← afterText "-" s
    afterDigits h 2 s).or (afterDigits h 6 s)

/-- `^\.partial-\d{4}-\d{2}-\d{2}_(?:\d{2}-\d{2}-\d{2}|\d{6})-.+$` -/
def isPartialName (name : Text) : Bool :=
  match (do
    let s ← afterText ".partial-" name
    let s ← afterDigits h 4 s
    let s ← afterText "-" s
    let s ← afterDigits h 2 s
    let s ← afterText "-" s
    let s ← afterDigits h 2 s
    let s ← afterText "_" s
    let s ← afterTime h s
    afterText "-" s) with
  | some rest => rest ≠ [] && decide ('\n' ∉ rest)
  | none => false

def schemaMarkers : List String :=
  ["app_label", "backup_date", "backup_status", "device_model", "device_serial", "uninstall_method",
    "apk_filename", "apk_path_on_device"]

/-- The metadata is of a backup of the package of the folder. -/
def describes (package : Text) (fields : List (Text × Json)) : Bool :=
  let packageName := strip h.unicode (textOr h fields "package_name")
  packageName ≠ [] &&
    casefold h.unicode (safeFilename h.unicode packageName) = casefold h.unicode package &&
    (match fields.lookup "apk_files".toList with
      | some (.array _) => true
      | _ => false) &&
    2 ≤ (schemaMarkers.filter fun marker => (fields.lookup marker.toList).isSome).length

def metadataName : Text := "metadata.json".toList

def looksLikeOpenadbBackupSnapshot (package : Text) (path : Path) : Step κ key Bool := do
  let t ← read State.tree
  if isLinkOrReparsePoint links t path then pure false
  else if !isDirectory links t path then pure false
  else if isPartialName h (path.getLast?.getD []) then pure true
  else if isLinkOrReparsePoint links t (path ++ [metadataName]) then pure false
  else
    match ← loadJson h links (path ++ [metadataName]) with
    | some (.object fields) => pure (describes h package fields)
    | _ => pure false

/-- The recognised snapshots among the entries of a package folder. -/
def ownedCandidates (packageDir : Path) (package : Text) : List Text → Step κ key (List Text)
  | [] => pure []
  | name :: names => do
    let owned ← looksLikeOpenadbBackupSnapshot h links package (packageDir ++ [name])
    let rest ← ownedCandidates packageDir package names
    pure (if owned then name :: rest else rest)

/-- What has been removed, and what could not be. -/
structure Report where
  removed : List Path
  failures : List Text

def Report.fail (r : Report) (path : Path) (problem : Text) : Report :=
  { r with failures := r.failures ++ [pathText path ++ ": ".toList ++ problem] }

def removeOwned (frames : Nat) (root rootPlace packagePlace packageDir : Path) (r : Report) :
    List Text → Step κ key Report
  | [] => pure r
  | name :: names => do
    let r ← orOsError (do
      removeBackupTree h root rootPlace frames (packagePlace ++ [name])
      pure { r with removed := r.removed ++ [packageDir ++ [name]] })
      fun message => pure (r.fail (packageDir ++ [name]) message)
    removeOwned frames root rootPlace packagePlace packageDir r names

def removeEmptyPackage (packagePlace packageDir : Path) (r : Report) : Step κ key Report :=
  orOsError (do
    let names ← iterdir h links packageDir
    if names = [] then rmdir h packagePlace else pure ()
    pure r)
    fun message => pure (r.fail packageDir ("could not remove empty package folder: ".toList ++ message))

def removePackage (frames : Nat) (root rootPlace : Path) (r : Report) (package : Text) : Step κ key Report := do
  let packageDir := root ++ [package]
  let packagePlace := rootPlace ++ [package]
  let t ← read State.tree
  if isLinkOrReparsePoint links t packageDir then
    pure (r.fail packageDir "linked/reparse backup package folder was preserved".toList)
  else if !isDirectory links t packageDir then pure r
  else
    match ← tryIterdir h links packageDir with
    | .error message =>
      pure (r.fail packageDir ("could not list backup package folder: ".toList ++ message))
    | .ok candidates => do
      let owned ← ownedCandidates h links packageDir package candidates
      if owned = [] then pure r
      else do
        let r ← removeOwned h frames root rootPlace packagePlace packageDir r owned
        removeEmptyPackage h links packagePlace packageDir r

def removePackages (frames : Nat) (root rootPlace : Path) (r : Report) : List Text → Step κ key Report
  | [] => pure r
  | package :: packages => do
    let r ← removePackage h links frames root rootPlace r package
    removePackages frames root rootPlace r packages

/-- `_remove_backup_snapshots`, of a root that exists. -/
def removeBackupSnapshots (frames : Nat) (r : Report) (root : Path) : Step κ key Report := do
  match ← read fun s => s.tree.follow links [] (root.map .into) with
  | none => pure r
  | some rootPlace =>
    match ← tryIterdir h links root with
    | .error message => pure (r.fail root ("could not list backup folder: ".toList ++ message))
    | .ok packages => removePackages h links frames root rootPlace r packages

def removeAll (frames : Nat) (r : Report) : List Path → Step κ key Report
  | [] => pure r
  | root :: roots => do
    let r ← removeBackupSnapshots h links frames r root
    removeAll frames r roots

end Snapshots

section Discovery

variable (h : Host κ key) (links : Nat) (settings : Settings)

structure Discovery where
  paths : List Path
  configDirs : List Path
  failures : List Text

def Discovery.fail (d : Discovery) (path : Path) (problem : String) : Discovery :=
  { d with failures := d.failures ++ [pathText path ++ ": ".toList ++ problem.toList] }

def backupsName : Text := "backups".toList

def inspectConfigDir (t : Tree Text Data κ key) (d : Discovery) (path : Path) : Discovery :=
  let lexical := lexicalAbsolutePath path
  let d := { d with configDirs := appendUniqueLexicalPath h d.configDirs lexical }
  if isLinkOrReparsePoint links t lexical then
    d.fail lexical "an OpenADB configuration root is a symlink, junction, or reparse point"
  else d

def inspectProfile (t : Tree Text Data κ key) (container : Path) (d : Discovery) (name : Text) : Discovery :=
  let profile := container ++ [name]
  if isLinkOrReparsePoint links t profile then
    { d with paths := appendUniqueLexicalPath h d.paths (profile ++ [backupsName]) }.fail profile
      "a device profile is a symlink, junction, or reparse point"
  else if isDirectory links t profile then { d with configDirs := appendUniqueLexicalPath h d.configDirs profile }
  else d

def inspectContainer (d : Discovery) (name : String) : Step κ key Discovery := do
  let container := lexicalAbsolutePath (settings.baseConfigDir ++ [name.toList])
  let t ← read State.tree
  if isLinkOrReparsePoint links t container then
    pure ({ d with paths := appendUniqueLexicalPath h d.paths (container ++ [backupsName]) }.fail container
      "a profile container is a symlink, junction, or reparse point")
  else if (entryAt links t container).isNone then pure d
  else if !isDirectory links t container then pure (d.fail container "a profile container is not a directory")
  else
    match ← tryIterdir h links container with
    | .error message => pure { d with failures :=
        d.failures ++ [pathText container ++ ": could not inspect device profiles: ".toList ++ message] }
    | .ok names => pure (names.foldl (inspectProfile h links t container) d)

def addFolder (d : Discovery) (value : Text) : Discovery :=
  let value := strip h.unicode value
  if value ≠ [] then { d with paths := appendUniqueLexicalPath h d.paths (h.expand value) } else d

/-- The backups folder that a settings file names. -/
def readFolder (d : Discovery) (file : Path) : Step κ key Discovery := do
  match ← loadJson h links file with
  | some (.object fields) => pure (addFolder h d (textOr h fields "backups_folder"))
  | _ => pure d

def readConfigDirs (d : Discovery) : List Path → Step κ key Discovery
  | [] => pure d
  | dir :: dirs => do
    let d := { d with paths := appendUniqueLexicalPath h d.paths (dir ++ [backupsName]) }
    let d ← readFolder h links d (dir ++ ["settings.json".toList])
    let d ← readFolder h links d (dir ++ ["settings.json.bak".toList])
    readConfigDirs d dirs

def discoverApkBackupFolders : Step κ key Discovery := do
  let t ← read State.tree
  let d := [settings.baseConfigDir, settings.configDir].foldl (inspectConfigDir h links t) ⟨[], [], []⟩
  let d ← inspectContainer h links settings d "Phones"
  let d ← inspectContainer h links settings d "TVs"
  let d ← inspectContainer h links settings d "devices"
  let d ← readConfigDirs h links d d.configDirs
  pure (addFolder h d (textOr h settings.data "backups_folder"))

def configuredFolderPaths (field : String) (paths : List Path) : List Path → Step κ key (List Path)
  | [] => pure paths
  | dir :: dirs => do
    let file := dir ++ ["settings.json".toList]
    let t ← read State.tree
    if (entryAt links t file).isNone then configuredFolderPaths field paths dirs
    else
      match ← loadJson h links file with
      | some (.object fields) =>
        let value := strip h.unicode (textOr h fields field)
        configuredFolderPaths field (if value ≠ [] then appendUniquePath h t paths (h.expand value) else paths) dirs
      | _ => configuredFolderPaths field paths dirs

/-- The folders of one kind, with the one that is current. -/
def protectedFolders (configDirs : List Path) (field : String) (folders : List Path) : Step κ key (List Path) := do
  let configured ← configuredFolderPaths h links field [] configDirs
  let current := strip h.unicode (textOr h settings.data field)
  let t ← read State.tree
  pure (if current ≠ [] then appendUniquePath h t (folders ++ configured) (h.expand current) else folders ++ configured)

def backupCleanupProtectedPaths (configDirs : List Path) : Step κ key (List Path) := do
  let folders := h.home :: settings.baseConfigDir :: configDirs
  let folders ← protectedFolders h links settings configDirs "logs_folder" folders
  let folders ← protectedFolders h links settings configDirs "temp_folder" folders
  let t ← read State.tree
  pure (folders.foldl (appendUniquePath h t) [])

/-- `relative_to` compares the parts as Windows does. -/
def parts (path : Path) : Path := path.map h.lower

def overlapError (t : Tree Text Data κ key) (resolved protectedPath : Path) : Option Text :=
  match h.resolve t protectedPath with
  | none => none
  | some place =>
    if lexicalPathKey h resolved = lexicalPathKey h place then
      some "the configured backup root overlaps protected OpenADB or user data".toList
    else if parts h resolved <+: parts h place then
      some "the configured backup root is an ancestor of protected OpenADB or user data".toList
    else none

def backupRootSafetyError (t : Tree Text Data κ key) (protectedPaths : List Path) (root : Path) : Option Text :=
  let lexical := lexicalAbsolutePath root
  if lexicalPathKey h lexical = lexicalPathKey h (lexical.take 1) then
    some "a drive/filesystem root cannot be used for destructive cleanup".toList
  else if crossesLink t [] lexical then
    some "the configured backup path crosses a symlink, junction, or reparse point".toList
  else match h.resolve t lexical with
    | none => some "the configured backup root could not be resolved safely".toList
    | some resolved =>
      if (entryAt links t lexical).isSome && !isDirectory links t lexical then
        some "the configured backup root is not a directory".toList
      else protectedPaths.findSome? (overlapError h t resolved)

def candidateFailures (t : Tree Text Data κ key) (packageDir : Path) (candidates : List Text) : List Text :=
  (candidates.filter fun name => isLinkOrReparsePoint links t (packageDir ++ [name])).map fun name =>
    pathText (packageDir ++ [name]) ++ ": linked/reparse backup snapshot cannot be cleaned safely".toList

/-- Links at the top of a root are found before anything is removed. -/
def packageFailures (root : Path) : List Text → Step κ key (List Text)
  | [] => pure []
  | package :: packages => do
    let packageDir := root ++ [package]
    let t ← read State.tree
    let failures ← (
      if isLinkOrReparsePoint links t packageDir then
        pure [pathText packageDir ++ ": linked/reparse backup package folder cannot be cleaned safely".toList]
      else if !isDirectory links t packageDir then pure []
      else do
        match ← tryIterdir h links packageDir with
        | .error message => pure [pathText packageDir ++
            ": could not inspect backup package folder safely: ".toList ++ message]
        | .ok candidates => pure (candidateFailures links t packageDir candidates))
    let rest ← packageFailures root packages
    pure (failures ++ rest)

def backupRootContentSafetyFailures (root : Path) : Step κ key (List Text) := do
  match ← tryIterdir h links root with
  | .error message => pure [pathText root ++ ": could not inspect backup folder safely: ".toList ++ message]
  | .ok packages => packageFailures h links root packages

def contentFailures : List Path → Step κ key (List Text)
  | [] => pure []
  | root :: roots => do
    let t ← read State.tree
    let failures ← (
      if (entryAt links t root).isSome then backupRootContentSafetyFailures h links root else pure [])
    let rest ← contentFailures roots
    pure (failures ++ rest)

/-- The folders that the caller expects are those that were found. -/
def asExpected (expected : Option (List Path)) (paths : List Path) : Bool :=
  match expected with
  | none => true
  | some folders =>
    let keys := paths.map (lexicalPathKey h)
    let expectedKeys := folders.map (lexicalPathKey h)
    keys.all (expectedKeys.contains ·) && expectedKeys.all (keys.contains ·)

def clearApkBackups (frames : Nat) (expected : Option (List Path)) : Step κ key ApkBackupCleanupResult := do
  let d ← discoverApkBackupFolders h links settings
  if !asExpected h expected d.paths then
    pure ⟨d.paths, [], ["APK backup locations changed after confirmation; nothing was deleted.".toList]⟩
  else if d.failures ≠ [] then pure ⟨d.paths, [], d.failures⟩
  else do
    let protectedPaths ← backupCleanupProtectedPaths h links settings d.configDirs
    let t ← read State.tree
    let failures := d.paths.filterMap fun root =>
      (backupRootSafetyError h links t protectedPaths root).map fun e => pathText root ++ ": ".toList ++ e
    if failures ≠ [] then pure ⟨d.paths, [], failures⟩
    else do
      let failures ← contentFailures h links d.paths
      if failures ≠ [] then pure ⟨d.paths, [], failures⟩
      else do
        let r ← removeAll h links frames ⟨[], []⟩ d.paths
        pure ⟨d.paths, r.removed, r.failures⟩

end Discovery

end OpenAdb.Backup.Cleanup
