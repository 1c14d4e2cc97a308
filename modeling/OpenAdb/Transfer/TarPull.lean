import OpenAdb.Commands.Results
import OpenAdb.Lib.Encoding
import OpenAdb.Lib.HostPath
import OpenAdb.Lib.SharedFiles

namespace OpenAdb.Transfer.TarPull

open OpenAdb.Lib.Effects OpenAdb.Lib.Encoding OpenAdb.Lib.PyText OpenAdb.Lib.SharedFiles
open OpenAdb.Commands.Results (CommandResult)
open OpenAdb.Lib.HostPath (components)

/-- The names of a path, each as paths compare it. -/
abbrev Path := List Text

inductive Raised
  | fileExists (message : Text)
  | osError (message : Text)
  | other

/-- A file may be cut off by what its reading raises. -/
inductive MemberKind
  | directory
  | file (chunks : List Bytes) (cut : Option Raised)
  | special

structure Member where
  name : Text
  kind : MemberKind
  mtime : Nat

structure Vars (μ : Type) where
  pending : List (Path × Path)
  backups : List (Path × Path)
  reserved : List Path
  committed : List Path
  marks : List (Path × μ)
  created : List Path
  receivedBytes : Nat
  receivedFiles : Nat

def tempPrefix : Text := ".openadb-part-".toList

def backupPrefix : Text := ".openadb-backup-".toList

/-- One pull: the archive that is received, the places that its names lead to, and what is asked on the way. No
name leads to a place that is made up. -/
structure Pull (μ : Type) where
  world : World Path μ Raised
  windows : Bool
  destination : Path
  root : Path
  resolve : List Text → Except Raised Path
  display : Path → Text
  random : List (Event Path μ) → Text
  cancelled : List (Event Path μ) → Bool
  members : List Member
  broken : Option Raised
  starts : List (Event Path μ) → Bool
  answer : List (Event Path μ) → Except Raised CommandResult
  entrySize : Nat
  entryCount : Nat
  apart : ∀ names target log dir, resolve names = .ok target →
    target ≠ dir ++ [tempPrefix ++ random log] ∧ target ≠ dir ++ [backupPrefix ++ random log]

abbrev Run (μ : Type) := Step Path μ (Vars μ) Raised

section Dictionaries

variable {α β : Type} [DecidableEq α]

/-- A key keeps the place that it was first given. -/
def assign (key : α) (value : β) : List (α × β) → List (α × β)
  | [] => [(key, value)]
  | (k, v) :: rest => if k = key then (k, value) :: rest else (k, v) :: assign key value rest

def pop (key : α) (dict : List (α × β)) : List (α × β) := dict.filter fun entry => entry.1 ≠ key

def add (a : α) (set : List α) : List α := if a ∈ set then set else set ++ [a]

end Dictionaries

section Helpers

variable {μ : Type} {α : Type} (p : Pull μ)

/-- `except OSError` -/
def orOsError (x : Run μ α) (handler : Text → Run μ α) : Run μ α :=
  catching x fun raised =>
    match raised with
    | .fileExists message => handler message
    | .osError message => handler message
    | .other => raise .other

def mkstemp (pre : Text) (dir : Path) : Run μ Path := do
  let text ← ask p.random
  create p.world (dir ++ [pre ++ text])
  pure (dir ++ [pre ++ text])

def removeTempFile (place : Path) : Run μ Unit := orOsError (unlink p.world place) fun _ => pure ()

def removeTempFiles : List Path → Run μ Unit
  | [] => pure ()
  | place :: places => do
    removeTempFile p place
    removeTempFiles places

def cleanupPendingFiles : Run μ Unit := do
  removeTempFiles p (← read fun s => s.vars.pending.map Prod.snd)

/-- `exists() or is_symlink()` -/
def targetExists (place : Path) : Run μ Bool := do
  if ← existsAt p.world place then pure true else isSymlink p.world place

/-- The missing folders, the outer first, and what is found above them; the names come from the last on. -/
def climb : List Text → Run μ (List Path × Path)
  | [] => do
    if ← targetExists p [] then pure ([], []) else pure ([[]], [])
  | name :: names => do
    if ← targetExists p (name :: names).reverse then pure ([], (name :: names).reverse)
    else do
      let (missing, candidate) ← climb names
      pure (missing ++ [(name :: names).reverse], candidate)

def overNonDirectory (place : Path) : Raised :=
  .osError ("Cannot create directory over a non-directory: ".toList ++ p.display place)

/-- Whether the folder was made here. -/
def makeFolder (place : Path) : Run μ Bool :=
  catching (do
    mkdir p.world place
    pure true) fun raised =>
    match raised with
    | .fileExists _ => do
      if ← isDir p.world place then pure false else raise (overNonDirectory p place)
    | e => raise e

def makeFolders : List Path → Run μ Unit
  | [] => pure ()
  | place :: places => do
    let made ← makeFolder p place
    if made then setVars fun v => { v with created := add place v.created } else pure ()
    makeFolders places

def ensureDirectory (directory : Path) : Run μ Unit := do
  let (missing, candidate) ← climb p directory.reverse
  if ← isDir p.world candidate then makeFolders p missing else raise (overNonDirectory p candidate)

def removeFolders : List Path → Run μ Unit
  | [] => pure ()
  | place :: places => do
    orOsError (rmdir p.world place) fun _ => pure ()
    removeFolders places

def cleanupCreatedDirectories : Run μ Unit := do
  let created ← read fun s => s.vars.created
  removeFolders p (created.mergeSort fun a b => decide (b.length ≤ a.length))

def reserveBackupFile (target : Path) : Run μ Path := do
  let backup ← mkstemp p backupPrefix target.dropLast
  setVars fun v => { v with reserved := add backup v.reserved }
  pure backup

def fileFingerprint (target : Path) : Run μ (Option μ) :=
  orOsError (do
    let found ← look p.world .stat target
    pure (found.map Entry.mark)) fun _ => pure none

def cancelledText : Text := "Transfer cancelled by user".toList

def checkCancelled : Run μ Unit := do
  if ← ask p.cancelled then raise (.osError cancelledText) else pure ()

end Helpers

section Receiving

variable {μ : Type} (p : Pull μ)

/-- The place of a member, if its name stays below the destination. -/
def safeTarget (name : Text) : Except Raised (Option Path) :=
  let parts := components '/' (replaceChar '\\' '/' name)
  if parts = [] ∨ "..".toList ∈ parts then .ok none
  else
    match p.resolve parts with
    | .error e => .error e
    | .ok target => .ok (if p.root.isPrefixOf target then some target else none)

def copyChunks (temp : Path) (cut : Option Raised) : List Bytes → Run μ Unit
  | [] => do
    checkCancelled p
    match cut with
    | none => pure ()
    | some e => raise e
  | chunk :: chunks => do
    checkCancelled p
    write p.world temp chunk
    setVars fun v => { v with receivedBytes := v.receivedBytes + chunk.length }
    call p.world
    copyChunks temp cut chunks

/-- A staged file is removed when its content cannot be received. -/
def stage (temp : Path) (chunks : List Bytes) (cut : Option Raised) : Run μ Unit :=
  catching (do
    write p.world temp []
    copyChunks p temp cut chunks) fun e => do
    removeTempFile p temp
    raise e

def setTime (temp : Path) (mtime : Nat) : Run μ Unit :=
  if mtime ≠ 0 then orOsError (utime p.world temp) fun _ => pure () else pure ()

def removePrevious (target : Path) : Run μ Unit := do
  let previous ← read fun s => s.vars.pending.lookup target
  removeTempFiles p previous.toList

def receiveFile (target : Path) (chunks : List Bytes) (cut : Option Raised) (mtime : Nat) : Run μ Unit := do
  ensureDirectory p target.dropLast
  let temp ← mkstemp p tempPrefix target.dropLast
  stage p temp chunks cut
  setTime p temp mtime
  removePrevious p target
  setVars fun v => { v with pending := assign target temp v.pending, receivedFiles := v.receivedFiles + 1 }
  call p.world

def receiveMember (member : Member) : Run μ Unit := do
  checkCancelled p
  match ← lift (safeTarget p member.name) with
  | none => pure ()
  | some target => do
    call p.world
    match member.kind with
    | .directory => ensureDirectory p target
    | .special => pure ()
    | .file chunks cut => receiveFile p target chunks cut member.mtime

def receiveMembers : List Member → Run μ Unit
  | [] => do
    match p.broken with
    | none => pure ()
    | some e => raise e
  | member :: members => do
    receiveMember p member
    receiveMembers members

def outputWriter : Run μ Unit := do
  ensureDirectory p p.destination
  receiveMembers p p.members

/-- `adb.pull_tar_streaming`: no success when the writer was not started or has raised. -/
def pullTarStreaming : Run μ CommandResult := do
  if ← ask p.starts then
    match ← trying (ρ := Raised) (outputWriter p) with
    | .ok () => lift (← ask p.answer)
    | .error _ => do
      let result ← lift (← ask p.answer)
      pure { result with success := false }
  else do
    let result ← lift (← ask p.answer)
    pure { result with success := false }

end Receiving

section Committing

variable {μ : Type} [DecidableEq μ] (p : Pull μ)

def refuseFolder (target : Path) : Run μ Bool := do
  let present ← targetExists p target
  let folder ← if present then isDir p.world target else pure false
  if folder then raise (.osError ("Cannot overwrite directory: ".toList ++ p.display target)) else pure present

def checkTargets : List (Path × Path) → Run μ Unit
  | [] => pure ()
  | (target, _) :: pending => do
    let _ ← refuseFolder p target
    checkTargets pending

/-- Publish a staged file at a place where nothing is. -/
def installLocalStagedFile (staged target : Path) : Run μ Unit := do
  let linked ← catching (do
    link p.world staged target
    pure true) fun raised =>
    match raised with
    | .osError message => if p.windows then pure false else raise (.osError message)
    | e => raise e
  if linked then orOsError (unlink p.world staged) fun _ => pure () else rename p.world staged target

def moveAside (target : Path) : Run μ Unit := do
  let backup ← reserveBackupFile p target
  replace p.world target backup
  setVars fun v => { v with backups := assign target backup v.backups }

def publish (target temp : Path) : Run μ Unit := do
  match ← fileFingerprint p temp with
  | none => raise (.osError ("Could not verify staged file: ".toList ++ p.display target))
  | some mark => do
    installLocalStagedFile p temp target
    setVars fun v => { v with committed := add target v.committed, marks := assign target mark v.marks }
    let now ← fileFingerprint p target
    require (now = some mark)
      (.osError ("Destination changed while the file was being committed: ".toList ++ p.display target))

def commitFile (target temp : Path) : Run μ Unit := do
  checkCancelled p
  let present ← refuseFolder p target
  if present then moveAside p target else pure ()
  publish p target temp

def commitFiles : List (Path × Path) → Run μ Unit
  | [] => pure ()
  | (target, temp) :: pending => do
    commitFile p target temp
    commitFiles pending

def commit : Run μ Unit := do
  let pending ← read fun s => s.vars.pending
  checkTargets p pending
  commitFiles p pending
  checkCancelled p

/-- Whether the place still has what this pull has put there. -/
def targetIsOurs (target : Path) (present : Bool) : Run μ Bool := do
  match ← read fun s => s.vars.marks.lookup target with
  | none => pure false
  | some mark =>
    if present then do
      let now ← fileFingerprint p target
      pure (now = some mark)
    else pure false

def rollbackTarget (target : Path) : Run μ (Option Text) :=
  orOsError (do
    let backup ← read fun s => s.vars.backups.lookup target
    let present ← targetExists p target
    let ours ← targetIsOurs p target present
    match backup with
    | some backup =>
      if present && !ours then
        pure (some (p.display target ++ ": destination changed concurrently; original retained at ".toList ++
          p.display backup))
      else do
        replace p.world backup target
        setVars fun v => { v with backups := pop target v.backups, reserved := v.reserved.filter (· ≠ backup) }
        pure none
    | none => do
      let committed ← read fun s => s.vars.committed.contains target
      if committed && present then
        if !ours then
          pure (some (p.display target ++
            ": destination changed concurrently; the newer file was retained".toList))
        else do
          unlink p.world target
          pure none
      else pure none)
    fun message => pure (some (p.display target ++ ": ".toList ++ message))

def rollbackTargets : List Path → Run μ (List Text)
  | [] => pure []
  | target :: targets => do
    let error ← rollbackTarget p target
    let errors ← rollbackTargets targets
    pure (error.toList ++ errors)

def rollbackReplacements : Run μ (List Text) := do
  rollbackTargets p (← read fun s => (s.vars.pending.map Prod.fst).reverse)

def removeBackups : List Path → Run μ Unit
  | [] => pure ()
  | backup :: backups => do
    removeTempFile p backup
    setVars fun v => { v with reserved := v.reserved.filter (· ≠ backup) }
    removeBackups backups

def cleanupUnprotectedBackups : Run μ Unit := do
  removeBackups p (← read fun s => s.vars.reserved.filter fun backup => !(s.vars.backups.map Prod.snd).contains backup)

def cancelledResult (result : CommandResult) : CommandResult :=
  { result with success := false, status := cancelledText, errorType := "cancelled".toList }

def withDetail (result : CommandResult) (message : Text) (errors : List Text) : CommandResult :=
  { result with stderr := (if result.stderr ≠ [] then result.stderr ++ ['\n'] else []) ++ (message ++
      if errors ≠ [] then "\nRollback warning: ".toList ++ "; ".toList.intercalate errors else []) }

def failedResult (result : CommandResult) (message : Text) : CommandResult :=
  { result with
    success := false
    status := "Local TAR extraction finalize failed: ".toList ++ message
    errorType := "local_rename_failed".toList }

def reportFailure (result : CommandResult) (errors : List Text) (message : Text) : Run μ CommandResult := do
  let cancelled ← ask p.cancelled
  pure (withDetail (if cancelled then cancelledResult result else failedResult result message) message errors)

def rolledBack (result : CommandResult) (raised : Raised) : Run μ CommandResult := do
  let errors ← rollbackReplacements p
  cleanupUnprotectedBackups p
  match raised with
  | .other => do
    cleanupPendingFiles p
    cleanupCreatedDirectories p
    raise .other
  | .osError message => reportFailure p result errors message
  | .fileExists message => reportFailure p result errors message

def finalize (result : CommandResult) : Run μ CommandResult := do
  match ← trying (ρ := Raised) (commit p) with
  | .error raised => rolledBack p result raised
  | .ok () => do
    setVars fun v => { v with backups := [] }
    cleanupUnprotectedBackups p
    cleanupPendingFiles p
    pure result

structure Report where
  result : CommandResult
  observedBytes : Nat
  observedFiles : Nat

def received : Run μ CommandResult :=
  catching (pullTarStreaming p) fun e => do
    cleanupPendingFiles p
    cleanupCreatedDirectories p
    raise e

def settle (result : CommandResult) : Run μ CommandResult := do
  let cancelled ← ask p.cancelled
  let result := if cancelled then cancelledResult result else result
  if result.success then finalize p result else pure result

def cleanupFailed (result : CommandResult) : Run μ Unit :=
  if result.success then pure ()
  else do
    cleanupPendingFiles p
    cleanupUnprotectedBackups p
    cleanupCreatedDirectories p

/-- `_run_fast_tar_pull_with_progress` -/
def runFastTarPull : Run μ Report := do
  let result ← received p
  let result ← settle p result
  cleanupFailed p result
  let counts ← read fun s => (s.vars.receivedBytes, s.vars.receivedFiles)
  pure ⟨result, if result.success then p.entrySize else counts.1, if result.success then p.entryCount else counts.2⟩

def start (disk : Disk Path μ) : Files Path μ (Vars μ) := ⟨disk, [], ⟨[], [], [], [], [], [], 0, 0⟩⟩

end Committing

end OpenAdb.Transfer.TarPull
