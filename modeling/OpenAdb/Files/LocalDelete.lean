import OpenAdb.Lib.EventLog
import OpenAdb.Lib.LinkTree

namespace OpenAdb.Files.LocalDelete

open OpenAdb.Lib.Effects OpenAdb.Lib.EventLog OpenAdb.Lib.LinkTree

variable {ν κ : Type} [DecidableEq ν] [DecidableEq κ]

/-- A directory may be a reparse point. A link is a junction, which looks like a directory, or a symbolic link. -/
structure Attributes where
  reparse : Bool
  deriving DecidableEq

abbrev LocalPath (ν : Type) := List (Step ν)

inductive Op
  | lstat
  | isDir
  | isSymlink
  | scandir
  | next
  | rmdir
  | unlink
  deriving DecidableEq

/-- An error that `Path.is_dir` and `Path.is_symlink` take for a no, or another one. -/
inductive Fault
  | ignored
  | raised
  deriving DecidableEq

inductive Event (ν : Type)
  | checkpoint (cancelled : Bool)
  | tried (op : Op) (path : LocalPath ν)
  | removed (place : List ν)
  deriving DecidableEq

abbrev Log (ν : Type) := List (Event ν)

/-- What is up to the surroundings, after whatever has happened: whether the action is cancelled, and which operation
fails. -/
structure World (ν : Type) where
  cancelled : Flag (Event ν)
  fault : Log ν → Op → LocalPath ν → Option Fault

structure State (ν κ : Type) (key : Attributes → ν → κ) where
  tree : Tree ν Attributes κ key
  log : Log ν

inductive Raised
  | cancelled
  | osError
  | recursion
  deriving DecidableEq

def looksLikeDirectory (e : Entry ν Attributes) : Bool :=
  match e.kind with
  | .dir => true
  | .file => false
  | .link _ _ => e.data.reparse

variable {key : Attributes → ν → κ} (w : World ν) (links : Nat) (path : LocalPath ν)

def note (event : Event ν) : Effect Raised (State ν κ key) Unit := update (fun s => ⟨s.tree, event :: s.log⟩)

def checkpoint : Effect Raised (State ν κ key) Bool := do
  let cancelled ← read (fun s => w.cancelled.isSet s.log)
  note (.checkpoint cancelled)
  pure cancelled

/-- Try an operation on the file system, which may fail. -/
def attempt (op : Op) : Effect Raised (State ν κ key) (Option Fault) := do
  let fault ← read (fun s => w.fault s.log op path)
  note (.tried op path)
  pure fault

def entryAt (t : Tree ν Attributes κ key) : Option (Entry ν Attributes) := (t.locate links path).bind t.entry

/-- `_is_windows_directory_reparse_point` -/
def isWindowsDirectoryReparsePoint : Effect Raised (State ν κ key) Bool := do
  match ← attempt w path .lstat with
  | some _ => pure false
  | none =>
    match ← read (fun s => entryAt links path s.tree) with
    | none => pure false
    | some e => pure (e.data.reparse && looksLikeDirectory e)

def leadsToDirectory (t : Tree ν Attributes κ key) : Bool :=
  (((t.follow links [] path).bind t.entry).map Entry.kind) = some .dir

def isDir : Effect Raised (State ν κ key) Bool := do
  match ← attempt w path .isDir with
  | some .ignored => pure false
  | some .raised => raise .osError
  | none => read (fun s => leadsToDirectory links path s.tree)

def isSymlink : Effect Raised (State ν κ key) Bool := do
  match ← attempt w path .isSymlink with
  | some .ignored => pure false
  | some .raised => raise .osError
  | none =>
    match ← read (fun s => entryAt links path s.tree) with
    | none => pure false
    | some e => pure (e.kind ≠ .dir && e.kind ≠ .file && !e.data.reparse)

def scandir : Effect Raised (State ν κ key) (List ν) := do
  match ← attempt w path .scandir with
  | some _ => raise .osError
  | none =>
    match ← read (fun s => (leadsToDirectory links path s.tree, (s.tree.follow links [] path).map s.tree.names)) with
    | (true, some names) => pure names
    | _ => raise .osError

/-- Remove an entry that an operation is for, when there is nothing in it. -/
def removing (op : Op) (allowed : Entry ν Attributes → Bool) : Effect Raised (State ν κ key) Unit := do
  match ← attempt w path op with
  | some _ => raise .osError
  | none => fun s =>
    match s.tree.locate links path with
    | none => (.error .osError, s)
    | some a =>
      if h : s.tree.names a = [] then
        if (s.tree.entry a).any allowed = true then (.ok (), ⟨s.tree.remove a h, .removed a :: s.log⟩)
        else (.error .osError, s)
      else (.error .osError, s)

def rmdir : Effect Raised (State ν κ key) Unit := removing w links path .rmdir looksLikeDirectory

def unlink : Effect Raised (State ν κ key) Unit := removing w links path .unlink (fun e => decide (e.kind ≠ .dir))

/-- The loop over the entries of a directory. -/
def deleteEntries (delete : LocalPath ν → Effect Raised (State ν κ key) Unit) :
    List ν → Effect Raised (State ν κ key) Unit
  | [] => do
    match ← attempt w path .next with
    | some _ => raise .osError
    | none => pure ()
  | n :: names => do
    match ← attempt w path .next with
    | some _ => raise .osError
    | none => do
      delete (path ++ [.into n])
      deleteEntries delete names

/-- `path.is_dir() and not path.is_symlink()` -/
def isRealDirectory : Effect Raised (State ν κ key) Bool := do
  match ← isDir w links path with
  | false => pure false
  | true => do
    let symlink ← isSymlink w links path
    pure !symlink

/-- `_delete_windows_path`, with the frames that are left for its recursion. -/
def deleteWindowsPath : Nat → LocalPath ν → Effect Raised (State ν κ key) Unit
  | 0, _ => raise .recursion
  | frames + 1, path => do
    match ← checkpoint w with
    | true => raise .cancelled
    | false =>
      match ← isWindowsDirectoryReparsePoint w links path with
      | true => rmdir w links path
      | false =>
        match ← isRealDirectory w links path with
        | false => unlink w links path
        | true => do
          let names ← scandir w links path
          deleteEntries w path (deleteWindowsPath frames) names
          match ← checkpoint w with
          | true => raise .cancelled
          | false => rmdir w links path

structure FileActionItemResult (ν : Type) where
  path : LocalPath ν
  success : Bool

structure FileManagerActionResult (ν : Type) where
  items : List (FileActionItemResult ν)
  cancelled : Bool

def deleteItems (frames : Nat) :
    List (LocalPath ν) → List (FileActionItemResult ν) → Effect Raised (State ν κ key) (List (FileActionItemResult ν))
  | [], items => pure items
  | path :: paths, items => do
    match ← checkpoint w with
    | true => pure items
    | false =>
      match ← trying (deleteWindowsPath w links frames path) with
      | .ok _ => deleteItems frames paths (items ++ [⟨path, true⟩])
      | .error .cancelled => pure items
      | .error .osError => deleteItems frames paths (items ++ [⟨path, false⟩])
      | .error .recursion => raise .recursion

/-- `execute_windows`, for a deletion -/
def executeWindows (frames : Nat) (paths : List (LocalPath ν)) :
    Effect Raised (State ν κ key) (FileManagerActionResult ν) := do
  match ← checkpoint w with
  | true => pure ⟨[], true⟩
  | false => do
    let items ← deleteItems w links frames paths []
    let cancelled ← read (fun s => w.cancelled.isSet s.log)
    pure ⟨items, cancelled⟩

end OpenAdb.Files.LocalDelete
