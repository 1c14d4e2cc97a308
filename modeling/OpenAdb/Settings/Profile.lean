import OpenAdb.Backup.Names
import OpenAdb.Settings.Files
import OpenAdb.Settings.Values

namespace OpenAdb.Settings.Profile

open OpenAdb.Lib.Effects OpenAdb.Lib.Faults OpenAdb.Lib.PyText OpenAdb.Settings.Files
  OpenAdb.Settings.Values
open OpenAdb.Backup.Names (safeFilename)

/-- The names of a path below the base folder. -/
abbrev Dir := List Text

/-- A folder with its settings files and everything else in it. -/
structure Folder (β ρ : Type) where
  scope : Scope β
  content : ρ

/-- The system: the folder that a path names, what a removal that fails leaves, and the text of a
path, alone, among the legacy folders or moved to another folder. -/
structure Host (F β ρ : Type) extends Tables where
  encode : Data → β
  decode : β → Option Data
  decode_encode : ∀ d, decode (encode d) = some d
  blank : β
  nt : Bool
  empty : ρ
  resolve : Dir → F
  leftover : Folder β ρ → Option (Folder β ρ)
  pathText : Dir → Text
  isLegacyFolder : Text → Bool
  relocate : Dir → Dir → Text → Option Text

@[ext] structure Memory where
  configDir : Dir
  activeProfileSerial : Text
  activeProfileKind : Option Kind
  data : Data

/-- The folder of the settings file, which is always that of the configuration. -/
def Memory.path (m : Memory) : Dir := m.configDir

/-- The variables of an activation. `tryDisk` is history: the disk when its `try` block began. -/
structure Locals (F β ρ : Type) where
  pendingBackend : Option Backend
  candidateCreated : Bool
  recoveryTransactionStarted : Bool
  globalCommitStarted : Bool
  tryDisk : Option (F → Option (Folder β ρ))

/-- `work` are the work folders of unfinished migrations, the newest first. -/
structure Store (F β ρ : Type) where
  disk : F → Option (Folder β ρ)
  work : List (Folder β ρ)
  memory : Memory
  deferred : Option (Dir × List RecoveryRecord)
  published : List (Dir × RecoveryRecord)
  locals : Locals F β ρ

variable {F β ρ : Type} [DecidableEq F] (h : Host F β ρ) (plan : Nat → Verdict) (clock : Nat → Nat)

abbrev Act (F β ρ α : Type) := Effect Interrupt (Counted (Store F β ρ)) α

def Host.codec : Codec β Data := ⟨h.encode, h.decode, h.decode_encode, h.blank, defaultSettings h.toTables⟩

def nothing : Scope β := ⟨none, none, [], []⟩

def Scope.isNothing (s : Scope β) : Bool :=
  s.primary.isNone && s.backup.isNone && s.temporaries.isEmpty && s.forensic.isEmpty

def Store.world (s : Store F β ρ) (f : F) : World β Data := ⟨((s.disk f).map Folder.scope).getD nothing, [], none⟩

/-- A folder that is not there is created with its first file. -/
def filled (scope : Scope β) : Option (Folder β ρ) → Option (Folder β ρ)
  | some folder => some { folder with scope }
  | none => if Scope.isNothing scope then none else some ⟨scope, h.empty⟩

/-- Recoveries of a profile candidate are kept back. -/
def Store.report (dir : Dir) (records : List RecoveryRecord) (s : Store F β ρ) : Store F β ρ :=
  match s.deferred with
  | none => { s with published := s.published ++ records.map (Prod.mk dir) }
  | some (path, kept) =>
    if path = dir then { s with deferred := some (path, kept ++ records) }
    else { s with published := s.published ++ records.map (Prod.mk dir) }

def Store.put (dir : Dir) (w : World β Data) (s : Store F β ρ) : Store F β ρ :=
  Store.report dir w.records
    { s with disk := Function.update s.disk (h.resolve dir) (filled h w.scope (s.disk (h.resolve dir))) }

/-- An operation on the settings files of a folder. -/
def onPath {α : Type} (dir : Dir) (x : Files.Disk β Data α) : Act F β ρ α :=
  within (fun s => ⟨s.value.world (h.resolve dir), s.ops⟩)
    (fun t s => ⟨s.value.put h dir t.value, t.ops⟩) x

def memory : Act F β ρ Memory := Lib.Effects.read (fun s => s.value.memory)

def setMemory (f : Memory → Memory) : Act F β ρ Unit := note (fun s => { s with memory := f s.memory })

def setData (f : Data → Data) : Act F β ρ Unit := setMemory (fun m => { m with data := f m.data })

def loadSettingsPath (dir : Dir) : Act F β ρ (Option Data) :=
  onPath h dir (Files.loadSettings h.codec plan h.nt clock)

def writeSettingsPath (dir : Dir) (d : Data) : Act F β ρ Unit :=
  onPath h dir (Files.writeJsonAtomic h.codec plan d id)

def save : Act F β ρ Unit := do
  let m ← memory
  onPath h m.path (Files.save h.codec plan h.nt clock m.data)

def load : Act F β ρ Unit := do
  let m ← memory
  match ← loadSettingsPath h plan clock m.path with
  | none => pure ()
  | some loaded => setData (fun _ => adopt h.toTables (m.path = []) loaded)

/-- `get_global`, for a name that is in `DEFAULT_SETTINGS`. -/
def getGlobal (key : Key) : Act F β ρ (Option PyObject) := do
  let m ← memory
  if m.path = [] then pure (m.data key)
  else
    let loaded ← loadSettingsPath h plan clock []
    pure (merge (defaultSettings h.toTables) (loaded.getD (fun _ => none)) key)

/-- The value of a pending choice. -/
def pendingOf (T : Tables) (value : Option PyObject) : Option Backend :=
  normalizePendingPrivilegeBackendValue T (strip T.unicode ((value.getD (.str [])).orEmptyText))

def pendingPrivilegeBackend : Act F β ρ (Option Backend) := do
  let value ← getGlobal h plan clock .pendingPrivilegeBackend
  pure (pendingOf h.toTables value)

/-- `set_global_values` with `update_active=False` -/
def setGlobalValues (values : Data) : Act F β ρ Unit := do
  let m ← memory
  if m.path = [] then
    setData (fun d => merge d values)
    save h plan clock
  else
    let loaded ← loadSettingsPath h plan clock []
    writeSettingsPath h plan [] (merge (merge (defaultSettings h.toTables) (loaded.getD (fun _ => none))) values)

/-- The two settings of a mode. -/
def chosen (backend : Backend) (d : Data) : Data :=
  set (set d .privilegeBackend (.str backend.text)) .rootModeEnabled (.bool (backend = .root))

def noValues : Data := fun _ => none

/-- `select_privilege_backend`; without a profile the choice is queued. -/
def selectPrivilegeBackend (value : PyObject) (profileAvailable : Bool) : Act F β ρ Backend := do
  let backend := normalizePrivilegeBackendValue h.toTables value
  if profileAvailable then
    setData (chosen backend)
    save h plan clock
  else
    setGlobalValues h plan clock (set (chosen backend noValues) .pendingPrivilegeBackend (.str backend.text))
  pure backend

def clearedChoice (d : Data) : Data := set (chosen .standard d) .pendingPrivilegeBackend (.str [])

def clearPendingPrivilegeBackend : Act F β ρ Unit := setGlobalValues h plan clock (clearedChoice noValues)

/-- The global settings that point to the active device. -/
def pointer (serial displayName : Text) (kind : Kind) (clear : Bool) (d : Data) : Data :=
  let d := set (set (set d .activeDeviceSerial (.str serial)) .lastConnectedDeviceSerial (.str serial))
    .deviceProfileKind (.str kind.text)
  let d := if clear then clearedChoice d else d
  if displayName.isEmpty then d else set d .deviceProfileName (.str displayName)

def writeGlobalActiveDevice (serial displayName : Text) (kind : Kind) (clear : Bool) : Act F β ρ Unit := do
  let loaded ← loadSettingsPath h plan clock []
  writeSettingsPath h plan [] (pointer serial displayName kind clear
    (merge (defaultSettings h.toTables) (loaded.getD noValues)))

/-- The contents of the two files, or that they are not there. -/
abbrev Snapshot (β : Type) := Option β × Option β

def snapshotSettingsFiles (dir : Dir) : Act F β ρ (Snapshot β) := onPath h dir (do
  let primary ← readFile plan .primary
  let backup ← readFile plan .backup
  pure (primary, backup))

def restoreSettingsFiles (dir : Dir) (snapshot : Snapshot β) (s : Store F β ρ) : Store F β ρ :=
  s.put h dir (onScope (fun scope => { scope with primary := snapshot.1, backup := snapshot.2 })
    (s.world (h.resolve dir)))

def rootName : Kind → Text
  | .phone => ['P', 'h', 'o', 'n', 'e', 's']
  | .tv => ['T', 'V', 's']

def deviceProfileDir (serial : Text) (kind : Kind) : Dir := [rootName kind, safeFilename h.unicode serial]

def legacyDeviceProfileDir (serial : Text) : Dir :=
  [['d', 'e', 'v', 'i', 'c', 'e', 's'], safeFilename h.unicode serial]

/-- `ensure_dir`: the folder holds no settings files. -/
def ensureDir : Act F β ρ Unit := perform plan id

def exists? (dir : Dir) : Act F β ρ Bool := consult plan (fun s => (s.disk (h.resolve dir)).isSome)

def copyTree (source : Dir) (s : Store F β ρ) : Store F β ρ :=
  match s.disk (h.resolve source) with
  | none => s
  | some folder => { s with work := folder :: s.work.tail }

def renameWork (target : Dir) (s : Store F β ρ) : Store F β ρ :=
  { s with disk := Function.update s.disk (h.resolve target) s.work.head?, work := s.work.tail }

def discardWork (s : Store F β ρ) : Store F β ρ := { s with work := s.work.tail }

def copySource : Option Dir → Act F β ρ Unit
  | none => pure ()
  | some source => perform plan (copyTree h source)

/-- A work folder is filled and then exposed with one rename. -/
def publishProfileCandidate (target : Dir) (source : Option Dir) : Act F β ρ Unit := do
  perform plan (fun s => { s with work := ⟨nothing, h.empty⟩ :: s.work })
  cleaning (do
    copySource h plan source
    perform plan (renameWork h target)) discardWork

/-- The first source that can be copied; the result is the source. -/
def migrateFrom (target : Dir) : List Dir → Bool → Act F β ρ (Option Dir)
  | [], true => raise .osError
  | [], false => do
    publishProfileCandidate h plan target none
    pure none
  | source :: sources, failed => do
    if ← exists? h plan source then
      match ← attempt (publishProfileCandidate h plan target (some source)) with
      | some () => pure (some source)
      | none => migrateFrom target sources true
    else migrateFrom target sources failed

/-- `_migrate_device_profile`: the source, and whether a candidate was created. -/
def migrateDeviceProfile (serial : Text) (kind : Kind) (target : Dir) : Act F β ρ (Option Dir × Bool) := do
  if ← exists? h plan target then pure (none, false)
  else
    ensureDir plan
    let source ← migrateFrom h plan target
      [legacyDeviceProfileDir h serial, deviceProfileDir h serial (oppositeProfileKind kind)] false
    pure (source, true)

def rebased (source target : Dir) (key : FolderKey) (d : Data) : Data :=
  let configured := strip h.unicode (textOf d (.folder key))
  if configured.isEmpty then d
  else
    match h.relocate source target configured with
    | none => d
    | some moved => set d (.folder key) (.str moved)

def rebaseMigratedProfilePaths (source target : Dir) (d : Data) : Data :=
  rebased h source target .logs (rebased h source target .temp (rebased h source target .backups d))

def folderName : FolderKey → Text
  | .backups => ['b', 'a', 'c', 'k', 'u', 'p', 's']
  | .temp => ['t', 'e', 'm', 'p']
  | .logs => ['l', 'o', 'g', 's']

def isUnset (d : Data) (key : FolderKey) : Bool :=
  (strip h.unicode (textOf d (.folder key))).isEmpty || h.isLegacyFolder (strip h.unicode (textOf d (.folder key)))

def withFolder (key : FolderKey) (m : Memory) : Memory :=
  if isUnset h m.data key then
    { m with data := set m.data (.folder key) (.str (h.pathText (m.configDir ++ [folderName key]))) }
  else m

def ensureDefaultFolder (key : FolderKey) : Act F β ρ Bool := do
  let m ← memory
  setMemory (withFolder h key)
  ensureDir plan
  pure (isUnset h m.data key)

def ensureDefaultFolders : Act F β ρ Unit := do
  let backups ← ensureDefaultFolder h plan .backups
  let temp ← ensureDefaultFolder h plan .temp
  let logs ← ensureDefaultFolder h plan .logs
  if backups || temp || logs then save h plan clock else pure ()

/-- What an activation settles before its `try` block. -/
structure Prepared (β : Type) where
  serial : Text
  displayName : Text
  kind : Kind
  target : Dir
  pending : Option Backend
  previous : Memory
  globalSnapshot : Snapshot β
  targetSnapshot : Option (Snapshot β)

def snapshotTarget (target : Dir) : Option Backend → Act F β ρ (Option (Snapshot β))
  | none => pure none
  | some _ => do
    if ← exists? h plan target then
      let snapshot ← snapshotSettingsFiles h plan target
      pure (some snapshot)
    else pure none

def beginTry (s : Store F β ρ) : Store F β ρ := { s with locals := { s.locals with tryDisk := some s.disk } }

def prepare (serial displayName : Text) (kind : Kind) (target : Dir) (pending : Option Backend) :
    Act F β ρ (Prepared β) := do
  let previous ← memory
  save h plan clock
  let _ ← loadSettingsPath h plan clock []
  let globalSnapshot ← snapshotSettingsFiles h plan []
  let targetSnapshot ← snapshotTarget h plan target pending
  note beginTry
  pure ⟨serial, displayName, kind, target, pending, previous, globalSnapshot, targetSnapshot⟩

variable (p : Prepared β)

def enterProfile (created : Bool) (s : Store F β ρ) : Store F β ρ :=
  { s with
    memory := ⟨p.target, p.serial, some p.kind, s.memory.data⟩
    deferred := if created then some (p.target, []) else s.deferred
    locals := { s.locals with candidateCreated := created, recoveryTransactionStarted := created } }

/-- The settings of the profile before the folders are checked. -/
def profileData (source : Option Dir) (d : Data) : Data :=
  let d := match source with
    | none => d
    | some source => rebaseMigratedProfilePaths h source p.target d
  let d := set (set (set d .activeDeviceSerial (.str p.serial)) .lastConnectedDeviceSerial (.str p.serial))
    .deviceProfileKind (.str p.kind.text)
  let d := if p.displayName.isEmpty then d else set d .deviceProfileName (.str p.displayName)
  match p.pending with
  | none => d
  | some backend => chosen backend d

def openProfile : Act F β ρ Unit := do
  if ← onPath h p.target (anyExists plan) then
    setData (fun _ => defaultSettings h.toTables)
    load h plan clock
  else
    setData (fun _ => normalizeWirelessModeSettings h.toTables
      (initialProfileData h.toTables p.previous.data p.serial p.displayName p.kind))

def startGlobalCommit (s : Store F β ρ) : Store F β ρ :=
  { s with locals := { s.locals with globalCommitStarted := true } }

/-- The `try` block. -/
def commitProfile : Act F β ρ (Option Dir) := do
  let (source, created) ← migrateDeviceProfile h plan p.serial p.kind p.target
  note (enterProfile p created)
  openProfile h plan clock p
  setData (profileData h p source)
  ensureDefaultFolders h plan clock
  save h plan clock
  note startGlobalCommit
  writeGlobalActiveDevice h plan clock p.serial p.displayName p.kind p.pending.isSome
  pure source

def rollbackTarget (s : Store F β ρ) : Store F β ρ :=
  if s.locals.candidateCreated then { s with disk := Function.update s.disk (h.resolve p.target) none }
  else
    match p.targetSnapshot with
    | none => s
    | some snapshot => restoreSettingsFiles h p.target snapshot s

/-- The `except` block, whose own operations succeed. -/
def rollback (s : Store F β ρ) : Store F β ρ :=
  let s := if s.locals.recoveryTransactionStarted then { s with deferred := none } else s
  let s := rollbackTarget h p { s with memory := p.previous }
  if s.locals.globalCommitStarted then restoreSettingsFiles h [] p.globalSnapshot s else s

def finishRecoveryTransaction (s : Store F β ρ) : Store F β ρ :=
  match s.deferred with
  | none => s
  | some (path, records) =>
    { s with deferred := none, published := s.published ++ records.map (Prod.mk path) }

def Store.setFolder (dir : Dir) (o : Option (Folder β ρ)) (s : Store F β ρ) : Store F β ρ :=
  { s with disk := Function.update s.disk (h.resolve dir) o }

/-- A removal that fails is given up on. -/
def retireMigratedProfile : Option Dir → Act F β ρ Unit
  | none => pure ()
  | some source => fun s =>
    match plan s.ops with
    | .proceeds => (.ok (), ⟨s.value.setFolder h source none, s.ops + 1⟩)
    | .fails =>
      (.ok (), ⟨s.value.setFolder h source ((s.value.disk (h.resolve source)).bind h.leftover), s.ops + 1⟩)
    | .stops => (.error .stopped, s)

def switchProfile (serial displayName : Text) (kind : Kind) (target : Dir) (pending : Option Backend) :
    Act F β ρ Bool := do
  let p ← prepare h plan clock serial displayName kind target pending
  let source ← cleaning (commitProfile h plan clock p) (rollback h p)
  note finishRecoveryTransaction
  retireMigratedProfile h plan source
  pure true

def rollbackChoice (previous : Memory) (profileSnapshot globalSnapshot : Snapshot β) (s : Store F β ρ) :
    Store F β ρ :=
  restoreSettingsFiles h [] globalSnapshot (restoreSettingsFiles h s.memory.path profileSnapshot
    { s with memory := { s.memory with data := previous.data } })

/-- A choice that is pending for the profile that is active already. -/
def reactivate (backend : Backend) : Act F β ρ Bool := do
  let previous ← memory
  let profileSnapshot ← snapshotSettingsFiles h plan previous.path
  let globalSnapshot ← snapshotSettingsFiles h plan []
  note beginTry
  cleaning (do
    setData (chosen backend)
    save h plan clock
    clearPendingPrivilegeBackend h plan clock)
    (rollbackChoice h previous profileSnapshot globalSnapshot)
  pure true

def activateSerial (serial displayName : Text) (kind : Kind) (target : Dir) (pending : Option Backend) :
    Act F β ρ Bool := do
  let m ← memory
  if serial = m.activeProfileSerial ∧ some kind = m.activeProfileKind ∧ m.configDir = target then
    match pending with
    | none => pure false
    | some backend => reactivate h plan clock backend
  else switchProfile h plan clock serial displayName kind target pending

def activateDeviceProfile (serial displayName formFactor : Text) : Act F β ρ Bool := do
  if (strip h.unicode serial).isEmpty then pure false
  else
    note (fun s => { s with locals := ⟨none, false, false, false, none⟩ })
    let pending ← pendingPrivilegeBackend h plan clock
    note (fun s => { s with locals := { s.locals with pendingBackend := pending } })
    let m ← memory
    let kind := profileKindForDevice h.toTables m.data (strip h.unicode serial) formFactor
    activateSerial h plan clock (strip h.unicode serial) displayName kind
      (deviceProfileDir h (strip h.unicode serial) kind) pending

end OpenAdb.Settings.Profile
