import OpenAdb.Lib.EventLog
import OpenAdb.Lib.SlashPath
import OpenAdb.P2p.Destination

namespace OpenAdb.P2p.TreeGrants

open OpenAdb.Lib.PyText OpenAdb.Lib.JavaText OpenAdb.Lib.Effects OpenAdb.Lib.EventLog
open OpenAdb.P2p.Destination

/-- What is thrown on the way to a directory: the two kinds that are told apart, and the rest. -/
inductive Thrown
  | security (message : Text)
  | fileNotFound (message : Text)
  | other (message : Text)
  deriving DecidableEq

/-- A directory document by the place where the provider keeps it. -/
structure SafDirectory where
  volume : Text
  path : List Text
  deriving DecidableEq

inductive Event
  | looked (dir : SafDirectory) (name : Text)
  | created (dir : SafDirectory) (name : Text)
  | verified (dir : SafDirectory)
  | discarded (uri : Text)
  deriving DecidableEq

abbrev Log := List Event

/-- What the system fixes: the letters that `equalsIgnoreCase` does not tell apart, the document of a tree, if the
address is one, and the name under which a new directory is created. -/
structure Provider where
  caseKey : Char → Char
  treeDocumentId : Text → Option Text
  naming : SafDirectory → Text → Text

/-- What the system answers, after whatever has happened. A child is there as a directory or as a file; a create may
give no document. -/
structure World where
  child : Log → SafDirectory → Text → Except Thrown (Option Bool)
  create : Log → SafDirectory → Text → Except Thrown Bool
  verify : Log → SafDirectory → Except Thrown Unit
  discard : Log → Text → Except Thrown Unit

structure UriPermission where
  uri : Text
  readPermission : Bool
  writePermission : Bool

/-- `isInternalSharedStoragePath` -/
def isInternalSharedStoragePath (path : Text) : Bool := isUnder emulatedRoot (trimTrailingSlash path)

def primary : Text := "primary".toList

def storageIdFromPath (path : Text) : Text :=
  let clean := normalizeStoragePath path
  if isInternalSharedStoragePath clean = true then primary
  else
    match afterPrefix storagePrefix clean with
    | none => []
    | some rest => rest.takeWhile (· ≠ '/')

def relativePathFromStoragePath (path : Text) : Text :=
  let clean := normalizeStoragePath path
  if isInternalSharedStoragePath clean = true then clean.drop (emulatedRoot.length + 1)
  else
    match afterPrefix storagePrefix clean with
    | none => []
    | some rest => (rest.dropWhile (· ≠ '/')).tail

def volumeFromDocumentId (documentId : Text) : Text := documentId.takeWhile (· ≠ ':')

def relativeFromDocumentId (documentId : Text) : Text := (documentId.dropWhile (· ≠ ':')).tail

def pathComponents (path : Text) : List Text := OpenAdb.Lib.SlashPath.components (replaceChar '\\' '/' path)

def isHexDigit (c : Char) : Bool :=
  (48 ≤ c.toNat && c.toNat ≤ 57) || (65 ≤ c.toNat && c.toNat ≤ 70) || (97 ≤ c.toNat && c.toNat ≤ 102)

def hexDigits (s : Text) : Text := (s.filter isHexDigit).map Char.toLower

variable (p : Provider)

def equalsIgnoreCase (a b : Text) : Bool := a.map p.caseKey = b.map p.caseKey

def storageMatchesTree (storageId treeVolume : Text) : Bool :=
  let left := hexDigits storageId
  let right := hexDigits treeVolume
  if storageId = [] ∨ treeVolume = [] then false
  else if equalsIgnoreCase p storageId treeVolume = true then true
  else if equalsIgnoreCase p primary storageId = true ∧ equalsIgnoreCase p primary treeVolume = true then true
  else if left = [] ∨ right = [] then false
  else if left = right then true
  else
    (left.length = 16 ∧ right.length = 8 ∧ (right.isPrefixOf left ∨ right.isSuffixOf left)) ∨
      (right.length = 16 ∧ left.length = 8 ∧ (left.isPrefixOf right ∨ left.isSuffixOf right))

/-- What is left of a path below the path of a tree. -/
def remaining (relative treeRelative : Text) : Option Text :=
  if treeRelative = [] then some relative
  else if relative = treeRelative then some []
  else afterPrefix (treeRelative ++ ['/']) relative

def addNew (uris : List Text) (uri : Text) : List Text := if uris.contains uri = true then uris else uris ++ [uri]

def addActivePreferenceUri (active result : List Text) (rawUri : Text) : List Text :=
  if rawUri = [] then result else if active.contains rawUri = true then addNew result rawUri else result

def activeUris (permissions : List UriPermission) : List Text :=
  ((permissions.filter (fun permission => permission.readPermission && permission.writePermission)).map
    UriPermission.uri).foldl addNew []

/-- The trees of the preferences come first. -/
def persistedTreeUris (permissions : List UriPermission) (forVolume last : Text) : List Text :=
  let active := activeUris permissions
  active.foldl addNew (addActivePreferenceUri active (addActivePreferenceUri active [] forVolume) last)

variable (w : World)

def findChild (dir : SafDirectory) (name : Text) : Effect Thrown Log (Option Bool) :=
  ask (fun log => w.child log dir name) (fun _ => .looked dir name)

def createDocument (dir : SafDirectory) (name : Text) : Effect Thrown Log Bool :=
  ask (fun log => w.create log dir name) (fun _ => .created dir name)

def verifySafDestinationWritable (dir : SafDirectory) : Effect Thrown Log Unit :=
  ask (fun log => w.verify log dir) (fun _ => .verified dir)

def discardStaleTreeGrant (uri : Text) : Effect Thrown Log Unit :=
  ask (fun log => w.discard log uri) (fun _ => .discarded uri)

def SafDirectory.child (dir : SafDirectory) (name : Text) : SafDirectory := ⟨dir.volume, dir.path ++ [name]⟩

def ensureDirectoryComponents : SafDirectory → List Text → Effect Thrown Log SafDirectory
  | current, [] => pure current
  | current, component :: components => do
    match ← findChild w current component with
    | some true => ensureDirectoryComponents (current.child component) components
    | some false => raise (.other ("A file blocks destination directory ".toList ++ component))
    | none =>
      match ← createDocument w current component with
      | true => ensureDirectoryComponents (current.child (p.naming current component)) components
      | false => raise (.other ("SAF could not create directory ".toList ++ component))

/-- The root of a tree that is taken for a destination, and the path below it. -/
def taken (clean uri : Text) : Option (SafDirectory × Text) :=
  match p.treeDocumentId uri with
  | none => none
  | some treeId =>
    if storageMatchesTree p (storageIdFromPath clean) (volumeFromDocumentId treeId) = true then
      (remaining (relativePathFromStoragePath clean) (relativeFromDocumentId treeId)).map
        (fun rest => (⟨volumeFromDocumentId treeId, pathComponents (relativeFromDocumentId treeId)⟩, rest))
    else none

def permissionRequired (clean : Text) : Thrown :=
  .security ("SAF_PERMISSION_REQUIRED: grant ACBridge access to this MicroSD/USB location before using P2P: ".toList ++
    clean)

def unavailable : Thrown := .other "SAF destination became unavailable while checking write access.".toList

/-- The loop over the trees. -/
def resolveFrom (clean : Text) : List Text → Effect Thrown Log SafDirectory
  | [] => raise (permissionRequired clean)
  | uri :: uris =>
    match taken p clean uri with
    | none => resolveFrom clean uris
    | some (root, rest) => do
      match ← trying (ensureDirectoryComponents p w root (pathComponents rest)) with
      | .error (.other message) => raise (.other message)
      | .error _ => do
        discardStaleTreeGrant w uri
        resolveFrom clean uris
      | .ok resolved =>
        match ← trying (verifySafDestinationWritable w resolved) with
        | .ok _ => pure resolved
        | .error (.security _) => do
          discardStaleTreeGrant w uri
          resolveFrom clean uris
        | .error (.fileNotFound _) => raise unavailable
        | .error (.other message) => raise (.other message)

def resolveDestinationDirectory (permissions : List UriPermission) (forVolume last destination : Text) :
    Effect Thrown Log SafDirectory :=
  resolveFrom p w (normalizeStoragePath destination) (persistedTreeUris permissions forVolume last)

end OpenAdb.P2p.TreeGrants
