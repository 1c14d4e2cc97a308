import OpenAdb.Lib.LinkTree
import OpenAdb.Lib.SlashPath
import OpenAdb.Lib.SortedRows
import OpenAdb.Lib.TextOrder
import OpenAdb.P2p.Entry

namespace OpenAdb.P2p.Collection

open OpenAdb.Lib.LinkTree OpenAdb.Lib.PyText OpenAdb.Lib.SlashPath OpenAdb.Lib.SortedRows OpenAdb.Lib.TextOrder
open OpenAdb.P2p.Entry

/-- A file has its size; a file without one is a socket, a pipe or a device. -/
abbrev FileTree := Tree Text (Option Nat) Text (fun _ name => name)

/-- `expanduser` gives the text of a path and raises without a home. `place` is where a path leads when the links
above its last part are followed. `cancelled` is the answer to each check of the event. -/
structure Computer where
  unicode : UnicodeData
  casefold_slash : unicode.casefold '/' = ['/']
  tree : FileTree
  names : ∀ x ∈ tree.nodes, ∀ name ∈ x.1, IsName name
  expanduser : Text → Option Text
  place : Text → List Text
  cancelled : Nat → Bool

inductive CollectError
  | cancelled
  | noHome
  | link (path : Text)
  | missing (path : Text)
  | name (error : NameError)
  | tooMany
  | noFiles
  | duplicateNames
  deriving DecidableEq

/-- What stands below a directory: the names that lead there, and the entry. -/
abbrev Child := List Text × Entry Text (Option Nat)

/-- `Path.name` -/
def nameOf (path : Text) : Text := if path = ['.'] then [] else ((path.splitOn '/').getLast?).getD []

/-- `as_posix` of a path below another. -/
def childText (path : Text) (names : List Text) : Text := ['/'].intercalate (path :: names)

namespace Computer

variable (c : Computer)

/-- `path.rglob("*")`, which follows no links. -/
def rglob (place : List Text) : List Child :=
  (c.tree.nodes.filter (fun x => place <+: x.1 ∧ x.1 ≠ place)).map (fun x => (x.1.drop place.length, x.2))

/-- The entry of a child; what is neither a directory nor a regular file has none. -/
def childEntry (path relative : Text) (child : Child) : Option P2PEntry :=
  match child.2.kind with
  | .dir => some ⟨none, relative, 0, true⟩
  | .file => child.2.data.map (fun size => ⟨some (childText path child.1), relative, size, false⟩)
  | .link _ _ => none

def addChildren (path rootName : Text) : Nat → List P2PEntry → List Child → Except CollectError (Nat × List P2PEntry)
  | clock, entries, [] => .ok (clock, entries)
  | clock, entries, child :: children =>
    if c.cancelled clock then .error .cancelled
    else
      match child.2.kind with
      | .link _ _ => .error (.link (childText path child.1))
      | _ =>
        match safeRelativeName (childText rootName child.1) with
        | .error e => .error (.name e)
        | .ok relative =>
          let entries := entries ++ (childEntry path relative child).toList
          if P2P_MAX_ENTRIES < entries.length then .error .tooMany
          else addChildren path rootName (clock + 1) entries children

/-- The directory and its children, in the order of their folded paths. -/
def addDirectory (clock : Nat) (entries : List P2PEntry) (path : Text) : Except CollectError (Nat × List P2PEntry) :=
  match safeRelativeName (nameOf path) with
  | .error e => .error (.name e)
  | .ok rootName =>
    let children := c.rglob (c.place path)
    if (List.range children.length).any (fun k => c.cancelled (clock + k)) then .error .cancelled
    else
      c.addChildren path rootName (clock + children.length) (entries ++ [⟨none, rootName, 0, true⟩])
        (stableSort textLess (fun child => casefold c.unicode (childText path child.1)) children)

def addPath (clock : Nat) (entries : List P2PEntry) (rawPath : Text) : Except CollectError (Nat × List P2PEntry) :=
  if c.cancelled clock then .error .cancelled
  else
    match c.expanduser rawPath with
    | none => .error .noHome
    | some path =>
      match c.tree.entry (c.place path) with
      | none => .error (.missing path)
      | some ⟨.link _ _, _⟩ => .error (.link path)
      | some ⟨.file, none⟩ => .error (.missing path)
      | some ⟨.file, some size⟩ =>
        match safeRelativeName (nameOf path) with
        | .error e => .error (.name e)
        | .ok relative => .ok (clock + 1, entries ++ [⟨some path, relative, size, false⟩])
      | some ⟨.dir, _⟩ => c.addDirectory (clock + 1) entries path

def addPaths : Nat → List P2PEntry → List Text → Except CollectError (List P2PEntry)
  | _, entries, [] => .ok entries
  | clock, entries, rawPath :: rawPaths =>
    match c.addPath clock entries rawPath with
    | .error e => .error e
    | .ok (clock, entries) => addPaths clock entries rawPaths

def collectP2pEntries (rawPaths : List Text) : Except CollectError (List P2PEntry) :=
  match c.addPaths 0 [] rawPaths with
  | .error e => .error e
  | .ok entries =>
    if entries = [] then .error .noFiles
    else if (entries.map P2PEntry.relative_path).Nodup then .ok entries
    else .error .duplicateNames

end Computer

end OpenAdb.P2p.Collection
