import OpenAdb.Backup.Snapshot
import OpenAdb.Lib.EventLog
import OpenAdb.Lib.LinkTree

namespace OpenAdb.Backup.Deletion

open OpenAdb.Lib.Effects OpenAdb.Lib.EventLog OpenAdb.Lib.LinkTree OpenAdb.Lib.PyText

/-- An operation on the file system. -/
inductive Op
  | resolve (path : List (Step Text))
  | mkdir
  | scandir (place : List Text)
  | isDir (place : List Text)
  | unlink (place : List Text)
  | rmdir (place : List Text)

inductive Event
  | cancelled (answer : Bool)
  | current (answer : Bool)
  | tried (op : Op)

abbrev Log := List Event

/-- What is up to the surroundings: whether the deletion is cancelled, whether the profile is still the
current one, and which operation fails. -/
structure World where
  cancelled : Flag Event
  current : Log → Bool
  fails : Log → Op → Bool

inductive Raised
  | unavailable
  | stale
  | value
  | osError
  | recursion

variable {α κ π : Type} {key : α → Text → κ}

structure State (α κ : Type) (key : α → Text → κ) where
  tree : Tree Text α κ key
  log : Log

/-- A snapshot as it is listed, by the names of its package folder and of its own. -/
structure Listing where
  package : Text
  snapshot : Text
  deriving DecidableEq

def Listing.path (root : List (Step Text)) (x : Listing) : List (Step Text) :=
  root ++ [.into x.package] ++ [.into x.snapshot]

section Listed

variable [DecidableEq κ] (links : Nat) (root : List (Step Text)) (t : Tree Text α κ key)

/-- `Path.is_dir`, which follows links -/
def isDirectory (path : List (Step Text)) : Bool :=
  ((t.follow links [] path).bind t.entry).any (fun e => decide (e.kind = .dir))

def iterdir (path : List (Step Text)) : List Text := ((t.follow links [] path).map t.names).getD []

/-- The folders that `scan_backups` reads in the folder of a package. -/
def listedIn (package : Text) : List Listing :=
  ((iterdir links t (root ++ [.into package])).filter (fun snapshot =>
    isDirectory links t (root ++ [.into package] ++ [.into snapshot]) &&
      !Snapshot.PARTIAL.isPrefixOf snapshot)).map (fun snapshot => ⟨package, snapshot⟩)

def listed : List Listing :=
  ((iterdir links t root).filter (fun package => isDirectory links t (root ++ [.into package]))).flatMap
    (listedIn links root t)

end Listed

variable (w : World)

def note (event : Event) : Effect Raised (State α κ key) Unit := update (fun s => ⟨s.tree, event :: s.log⟩)

def isCancelled : Effect Raised (State α κ key) Bool := do
  let answer ← read (fun s => w.cancelled.isSet s.log)
  note (.cancelled answer)
  pure answer

/-- `is_profile_current` -/
def isProfileCurrent : Effect Raised (State α κ key) Bool := do
  let answer ← read (fun s => w.current s.log)
  note (.current answer)
  pure answer

/-- Whether an operation of the file system goes ahead. -/
def attempt (op : Op) : Effect Raised (State α κ key) Bool := do
  let fails ← read (fun s => w.fails s.log op)
  note (.tried op)
  pure !fails

/-- Remove an entry of the given kind, when there is nothing in it. -/
def removing (op : Op) (place : List Text) (allowed : Entry Text α → Bool) : Effect Raised (State α κ key) Unit := do
  match ← attempt w op with
  | false => raise .osError
  | true => fun s =>
    if h : s.tree.names place = [] then
      if (s.tree.entry place).any allowed = true then (.ok (), ⟨s.tree.remove place h, s.log⟩)
      else (.error .osError, s)
    else (.error .osError, s)

def isReal (e : Entry Text α) : Bool := decide (e.kind = .dir)

def rmdir (place : List Text) : Effect Raised (State α κ key) Unit := removing w (.rmdir place) place isReal

def unlink (place : List Text) : Effect Raised (State α κ key) Unit :=
  removing w (.unlink place) place (fun e => !isReal e)

def scandir (place : List Text) : Effect Raised (State α κ key) (List Text) := do
  match ← attempt w (.scandir place) with
  | false => raise .osError
  | true => do
    match ← read (fun s => ((s.tree.entry place).any isReal, s.tree.names place)) with
    | (true, names) => pure names
    | _ => raise .osError

/-- `entry.is_dir(follow_symlinks=False)`, and no junction -/
def isRealDir (place : List Text) : Effect Raised (State α κ key) Bool := do
  match ← attempt w (.isDir place) with
  | false => pure false
  | true => read (fun s => (s.tree.entry place).any isReal)

def removeEntries (remove : List Text → Effect Raised (State α κ key) Unit) (place : List Text) :
    List Text → Effect Raised (State α κ key) Unit
  | [] => pure ()
  | n :: names => do
    match ← isRealDir w (place ++ [n]) with
    | true => remove (place ++ [n])
    | false => unlink w (place ++ [n])
    removeEntries remove place names

/-- `shutil.rmtree`, with the frames that are left for its recursion -/
def rmtree : Nat → List Text → Effect Raised (State α κ key) Unit
  | 0, _ => raise .recursion
  | frames + 1, place => do
    let names ← scandir w place
    removeEntries w (rmtree frames) place names
    rmdir w place

variable [DecidableEq κ] [DecidableEq π] (part : Text → π) (links : Nat)

/-- `Path.resolve` of a path that leads somewhere -/
def resolve (path : List (Step Text)) : Effect Raised (State α κ key) (List Text) := do
  match ← attempt w (.resolve path) with
  | false => raise .osError
  | true => do
    match ← read (fun s => s.tree.follow links [] path) with
    | none => raise .osError
    | some place => pure place

/-- `relative_to` compares the parts of the paths as the platform does. -/
def relativeTo (target root : List Text) : Effect Raised (State α κ key) Unit :=
  require (root.map part <+: target.map part) .value

def belongs (root path : List (Step Text)) : Effect Raised (State α κ key) Unit := do
  let target ← resolve w links path
  let place ← resolve w links root
  relativeTo part target place

/-- `_require_backup_in_profile` -/
def requireBackupInProfile (root path : List (Step Text)) : Effect Raised (State α κ key) Unit :=
  catching (belongs w part links root path) (fun _ => raise .unavailable)

/-- `BackupManager.delete_backup` -/
def deleteBackup (frames : Nat) (root path : List (Step Text)) : Effect Raised (State α κ key) Unit := do
  let place ← resolve w links root
  let target ← resolve w links path
  relativeTo part target place
  rmtree w frames target

/-- `BackupManager`, which makes sure of its root -/
def managerForProfile : Effect Raised (State α κ key) Unit := do
  match ← attempt w .mkdir with
  | false => raise .osError
  | true => pure ()

/-- `delete_local_backup` -/
def deleteLocalBackup (frames : Nat) (root path : List (Step Text)) : Effect Raised (State α κ key) Bool := do
  match ← isCancelled w with
  | true => pure false
  | false => do
    requireBackupInProfile w part links root path
    match ← isProfileCurrent w with
    | false => raise .stale
    | true => do
      managerForProfile w
      match ← isCancelled w with
      | true => pure false
      | false =>
        match ← isProfileCurrent w with
        | false => raise .stale
        | true => do
          deleteBackup w part links frames root path
          pure true

end OpenAdb.Backup.Deletion
