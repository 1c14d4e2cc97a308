import OpenAdb.Lib.Encoding
import OpenAdb.Lib.SlashPath

namespace OpenAdb.Transfer.TarPush

open OpenAdb.Lib.PyText OpenAdb.Lib.Encoding

/-- What is found at a place when links are followed. -/
inductive Found
  | directory
  | regular (data : Bytes)
  deriving DecidableEq

/-- An entry below the folder that is sent. Nothing is found behind a link that leads nowhere, and in the place of a
special file. -/
structure Entry where
  path : List Text
  isLink : Bool
  found : Option Found
  deriving DecidableEq

def Legal (windows : Bool) (name : Text) : Prop :=
  name ≠ [] ∧ name ≠ ['.'] ∧ name ≠ ['.', '.'] ∧ '/' ∉ name ∧ (windows = true → '\\' ∉ name ∧ ':' ∉ name)

instance (windows : Bool) (name : Text) : Decidable (Legal windows name) :=
  inferInstanceAs (Decidable (_ ∧ _))

def InFolder (entries : List Entry) (entry : Entry) : Prop :=
  entry.path.dropLast = [] ∨
    ∃ above ∈ entries, above.path = entry.path.dropLast ∧ above.isLink = false ∧ above.found = some .directory

instance (entries : List Entry) (entry : Entry) : Decidable (InFolder entries entry) :=
  inferInstanceAs (Decidable (_ ∨ _))

/-- A local folder, with its entries in the order in which a scan comes to them. -/
structure Folder where
  windows : Bool
  name : Text
  entries : List Entry
  name_legal : Legal windows name
  path_ne_nil : ∀ entry ∈ entries, entry.path ≠ []
  path_legal : ∀ entry ∈ entries, ∀ name ∈ entry.path, Legal windows name
  inFolder : ∀ entry ∈ entries, InFolder entries entry
  nodup : (entries.map Entry.path).Nodup

/-- The folder itself. -/
def top : Entry := ⟨[], false, some .directory⟩

/-- How `is_dir` and `is_file` answer: with the truth, with no because of an error, or with an `OSError`. -/
inductive Answer
  | told
  | hidden
  | raised
  deriving DecidableEq

/-- The course of one push. The scan may raise after some entries, and the cancel event may be set while the push is
planned, after some of its checks. -/
structure Run where
  checkRaises : Bool
  listed : List Text → Bool
  broken : Option Nat
  cancelled : Option Nat
  isDir : List Text → Answer
  isFile : List Text → Answer
  statRaises : List Text → Bool
  interrupted : List Text → Bool
  infoRaises : List Text → Bool
  readRaises : List Text → Bool
  commandFails : Bool

structure Item where
  entry : Entry
  arcname : Text

structure Member where
  name : Text
  found : Found
  deriving DecidableEq

/-- The archive as far as it is written. -/
structure Stream where
  members : List Member
  finished : Bool
  deriving DecidableEq

variable (folder : Folder) (run : Run)

/-- `rglob("*")`: a folder that cannot be listed yields nothing below it. -/
def rglob : List Entry :=
  let found := folder.entries.filter (fun entry => entry.path.dropLast.inits.all run.listed)
  match run.broken with
  | none => found
  | some count => found.take count

inductive Kind
  | directory
  | file
  | skipped
  deriving DecidableEq

/-- One step of the planning loop: an entry whose look raises is skipped. -/
def classify (entry : Entry) : Kind :=
  if run.isDir entry.path = .raised then .skipped
  else if run.isDir entry.path = .told ∧ entry.found = some .directory then .directory
  else if run.isFile entry.path ≠ .told ∨ entry.found = some .directory ∨ entry.found = none then .skipped
  else if run.statRaises entry.path = true then .skipped
  else .file

def hostSep : Char := if folder.windows = true then '\\' else '/'

def arcname (path : List Text) : Text := replaceChar '\\' '/' ([hostSep folder].intercalate (folder.name :: path))

/-- The entries that the loop comes to before the cancel event is seen. -/
def visited : List Entry :=
  match run.cancelled with
  | none => rglob folder run
  | some checks => (rglob folder run).take (checks - 1)

/-- The directories and the files, for a source that is a folder. -/
def tarStreamItems : List Item × List Item :=
  if run.cancelled = some 0 ∨ run.checkRaises = true then ([], [])
  else
    let items kind := ((visited folder run).filter (fun entry => classify run entry = kind)).map
      (fun entry => Item.mk entry (arcname folder entry.path))
    (⟨top, folder.name⟩ :: items .directory, items .file)

/-- `gettarinfo`, with links followed. -/
def tarInfo (item : Item) : Option Member :=
  if run.infoRaises item.entry.path = true then none
  else item.entry.found.map (fun found => ⟨lstripChar '/' item.arcname, found⟩)

def addDirectory (item : Item) : Option Member :=
  if run.interrupted item.entry.path = true then none else tarInfo run item

def addFile (item : Item) : Option Member :=
  if run.interrupted item.entry.path = true then none
  else (tarInfo run item).bind (fun info => if run.readRaises item.entry.path = true then none else some info)

/-- The members up to the first item that raises. -/
def addAll (add : Item → Option Member) : List Item → Stream
  | [] => ⟨[], true⟩
  | item :: items => match add item with
    | none => ⟨[], false⟩
    | some member => ⟨member :: (addAll add items).members, (addAll add items).finished⟩

def inputWriter : Stream :=
  let (directories, files) := tarStreamItems folder run
  let first := addAll (addDirectory run) directories
  if first.finished = false then first
  else
    let second := addAll (addFile run) files
    ⟨first.members ++ second.members, second.finished⟩

/-- The command is not started once the cancel event is set, and it fails with the input writer. -/
def succeeds : Bool := run.cancelled.isNone && (inputWriter folder run).finished && !run.commandFails

end OpenAdb.Transfer.TarPush
