import OpenAdb.Lib.HostPath
import OpenAdb.Transfer.StreamPush

namespace OpenAdb.Transfer.FilePull

open OpenAdb.Lib.PyText OpenAdb.Lib.Encoding OpenAdb.Lib.HostPath
open OpenAdb.Acbridge.Probe (formatNat)
open OpenAdb.Commands.Results (CommandResult contains)
open OpenAdb.Transfer.StreamPush (hex6)

inductive Entry
  | file (content : Bytes)
  | folder
  deriving DecidableEq

abbrev Disk := Place → Option Entry

/-- How the stream went: the greatest number of bytes it told, the folders it made of those that were missing, what
it left in the file it was given, and its result, unless it raised. -/
structure Stream where
  reported : Nat
  made : Place → Bool
  bytes : Option Bytes
  result : Option CommandResult

/-- What answers one pull. A text stands for the `OSError` of an operation that fails. -/
structure Surroundings where
  host : Host
  display : PurePath → Text
  isFolder : Option Bool
  stamp : Nat
  suffix : Nat
  stream : Stream
  emits : Bool
  cancelled : Bool
  stat : Option Text
  missing : Text
  targetIsFolder : Except Text Bool
  replace : Option Text
  blocked : Text

variable (w : Surroundings)

/-- `PurePosixPath(source).name` -/
def posixName (source : Text) : Text := ((components '/' source).getLast?).getD []

/-- `Path(source).name` -/
def hostName : Host → Text → Text
  | .posix, source => posixName source
  | .windows _ _, source => ((components sep (splitRoot (replaceChar '/' sep source)).2.2).getLast?).getD []

def localPullTarget (source : Text) (destination : PurePath) : Option PurePath :=
  let name := posixName (rstripChar '/' source)
  let sourceName := if name ≠ [] then name else hostName w.host source
  w.isFolder.map (fun isFolder => if isFolder then join w.host destination sourceName else destination)

def localTempSiblingPath (target : PurePath) : Option PurePath :=
  withName target (".openadb-part-".toList ++ formatNat w.stamp ++ '-' :: hex6 (w.suffix % 2 ^ 24))

structure Report where
  result : CommandResult
  observedBytes : Nat
  observedFiles : Nat

/-- How a pull ends; without a report it has raised. -/
structure Ended where
  report : Option Report
  disk : Disk
  written : List Place

def cancel (result : CommandResult) : CommandResult :=
  if w.cancelled = true then
    { result with success := false, status := "Transfer cancelled by user".toList, errorType := "cancelled".toList }
  else result

def put (disk : Disk) (place : Place) (entry : Option Entry) : Disk := fun other =>
  if other = place then entry else disk other

/-- The missing folders that the stream makes. -/
def madeFolders (disk : Disk) (temp : Place) : List Place :=
  temp.above.filter (fun place => (disk place).isNone && w.stream.made place)

def streamed (disk : Disk) (temp : Place) : Disk := fun place =>
  if place = temp ∧ w.stream.bytes.isSome = true then w.stream.bytes.map Entry.file
  else if place ∈ madeFolders w disk temp then some .folder
  else disk place

def streamWritten (disk : Disk) (temp : Place) : List Place :=
  madeFolders w disk temp ++ (if w.stream.bytes.isSome = true then [temp] else [])

def sizeChanged (entrySize actualSize : Nat) : Text :=
  "Downloaded file size changed: expected ".toList ++ formatNat entrySize ++ " bytes, received ".toList ++
    formatNat actualSize ++ " bytes".toList

def actualSize (disk : Disk) (temp : Place) : Except Text Nat :=
  match w.stat with
  | some text => .error text
  | none => match disk temp with
    | some (.file content) => .ok content.length
    | some .folder => .ok 0
    | none => .error w.missing

/-- The checks after the stream, and the replacement: the disk afterwards. -/
def publish (disk : Disk) (target : PurePath) (temp : Place) (entrySize : Nat) : Except Text Disk :=
  match actualSize w disk temp with
  | .error text => .error text
  | .ok size =>
    if size ≠ entrySize then .error (sizeChanged entrySize size)
    else match w.targetIsFolder with
      | .error text => .error text
      | .ok true => .error ("Cannot overwrite directory: ".toList ++ w.display target)
      | .ok false => match w.replace with
        | some text => .error text
        | none =>
          if disk (locate w.host target) = some .folder then .error w.blocked
          else .ok (put (put disk temp none) (locate w.host target) (disk temp))

def failed (result : CommandResult) (exc : Text) : CommandResult :=
  { result with
    success := false
    status := if contains "Downloaded file size changed".toList exc = true then
        "Downloaded file changed during transfer; existing destination was preserved".toList
      else "Local file rename failed: ".toList ++ exc
    errorType := if contains "Downloaded file size changed".toList exc = true then "source_changed".toList
      else "local_rename_failed".toList
    stderr := (if result.stderr ≠ [] then result.stderr ++ ['\n'] else []) ++ exc }

def received (disk : Disk) (temp : Place) : Nat := max w.stream.reported ((actualSize w disk temp).toOption.getD 0)

/-- From the stream to the end of the `finally` block. -/
def transfer (disk : Disk) (target : PurePath) (temp : Place) (entrySize : Nat) : Ended :=
  let later := streamed w disk temp
  let written := streamWritten w disk temp
  match w.stream.result with
  | none => ⟨none, put later temp none, written⟩
  | some result =>
    if w.emits = false then ⟨none, put later temp none, written⟩
    else
      let result := cancel w result
      if result.success = false then ⟨some ⟨result, w.stream.reported, 0⟩, put later temp none, written⟩
      else match publish w later target temp entrySize with
        | .error exc => ⟨some ⟨failed result exc, received w later temp, 0⟩, put later temp none, written⟩
        | .ok after => ⟨some ⟨result, entrySize, 1⟩, after, written ++ [locate w.host target]⟩

def runSingleFilePull (disk : Disk) (displaySource : Text) (destination : PurePath) (entrySize : Nat) : Ended :=
  match localPullTarget w displaySource destination with
  | none => ⟨none, disk, []⟩
  | some target => match localTempSiblingPath w target with
    | none => ⟨none, disk, []⟩
    | some temp => transfer w disk target (locate w.host temp) entrySize

end OpenAdb.Transfer.FilePull
