import OpenAdb.Lib.HostPath
import OpenAdb.Transfer.StreamPush

namespace OpenAdb.Transfer.FolderPush

open OpenAdb.Lib.PyText OpenAdb.Lib.HostPath
open OpenAdb.Acbridge.Probe (formatNat)
open OpenAdb.Commands.Results (CommandResult classifyError)
open OpenAdb.Files.Listing (joinAndroidPath)
open OpenAdb.Transfer.StreamPush (isProbablyWritableAndroidPath)

/-- A file that is streamed to its place on the device. -/
structure Request where
  source : PurePath
  target : Text
  useRoot : Bool
  expectedSize : Nat
  deriving DecidableEq

/-- What the push of a folder meets: the local paths with their texts and what is found there (`is_file` of what
exists), the scan of the folder unless it raises, the sizes unless they cannot be read, and the outcomes of the
streams. -/
structure World where
  unicode : UnicodeData
  lower : Text → Text
  host : Host
  normcase : Text → Text
  display : PurePath → Text
  isFile : PurePath → Option Bool
  scan : Option (List PurePath)
  size : PurePath → Option Nat
  stream : Request → Bool

/-- How `adb push` ends, with the texts that are kept of its output. -/
inductive Ending
  | exited (exitCode : Int) (stdout stderr : Text)
  | timedOut (exitCode : Option Int) (stdout stderr timeout : Text)
  | stopTimedOut (stdout stderr : Text)
  | notFound (stdout stderr : Text)
  | osError (stdout stderr : Text)
  | shuttingDown

variable (w : World)

def pushStreaming : Ending → CommandResult
  | .exited exitCode stdout stderr =>
    if exitCode = 0 then ⟨some exitCode, stdout, stderr, true, "Success".toList, []⟩
    else
      let (status, errorType) := classifyError w.lower (if stderr = [] then stdout else stderr) exitCode
      ⟨some exitCode, stdout, stderr, false, status, errorType⟩
  | .timedOut exitCode stdout stderr timeout =>
    ⟨exitCode, stdout, stderr, false, "Timed out after ".toList ++ timeout ++ " seconds".toList, "timeout".toList⟩
  | .stopTimedOut stdout stderr =>
    ⟨none, stdout, stderr, false, "Timed out while stopping process".toList, "timeout".toList⟩
  | .notFound stdout stderr => ⟨none, stdout, stderr, false, "Executable not found".toList, "not_found".toList⟩
  | .osError stdout stderr => ⟨none, stdout, stderr, false, "Operating system error".toList, "os_error".toList⟩
  | .shuttingDown => ⟨none, [], [], false, "Command runner is shutting down".toList, "shutdown".toList⟩

def lstatFailed : Text := "cannot lstat '".toList

/-- Two characters of a pattern and a text that `re.IGNORECASE` takes for the same. -/
def sameLetter (p c : Char) : Bool := c = p || c.toLower = p || (p = 's' && c = 'ſ')

def startsLike : Text → Text → Bool
  | [], _ => true
  | _ :: _, [] => false
  | p :: pattern, c :: text => sameLetter p c && startsLike pattern text

/-- The group of `ADB_LSTAT_FAILED_PATTERN` at the start of a text. -/
def lstatGroup (text : Text) : Option Text :=
  if startsLike lstatFailed text = true then
    let rest := text.drop lstatFailed.length
    let group := rest.takeWhile (· ≠ '\'')
    if group ≠ [] ∧ (rest.drop group.length).head? = some '\'' then some group else none
  else none

/-- `finditer` goes on behind a match. -/
def lstatGroups : Nat → Text → List Text
  | _, [] => []
  | skip + 1, _ :: text => lstatGroups skip text
  | 0, c :: text => match lstatGroup (c :: text) with
    | none => lstatGroups 0 text
    | some group => group :: lstatGroups (lstatFailed.length + group.length) text

/-- `Path(text)` -/
def purePath : Host → Text → PurePath
  | .posix, text =>
    let root := if text.head? ≠ some '/' then [] else
      if text.take 2 = ['/', '/'] ∧ text.take 3 ≠ ['/', '/', '/'] then ['/', '/'] else ['/']
    ⟨[], root, components '/' text⟩
  | .windows _ _, text =>
    let (drive, root, rest) := splitRoot (replaceChar '/' sep text)
    ⟨drive, shareRoot drive root, components sep rest⟩

/-- The texts that the command has put out. -/
def output (result : CommandResult) : Text :=
  ['\n'].intercalate ([result.stdout, result.stderr].filter (· ≠ []))

def candidates (result : CommandResult) : List Text :=
  ((lstatGroups 0 (output result)).map (strip w.unicode)).filter (· ≠ [])

/-- The files of the scan, with the last one where two have one key. -/
def knownFile (key : Text) : Option PurePath :=
  ((w.scan.getD []).filter (fun path => w.isFile path = some true && w.normcase (w.display path) = key)).getLast?

/-- The file that a reported text leads to. -/
def localFile (raw : Text) : Option PurePath :=
  let path := purePath w.host raw
  let path := if (w.isFile path).isSome = true then path else (knownFile w (w.normcase raw)).getD path
  if w.isFile path = some true then some path else none

def key (path : PurePath) : Text := w.normcase (w.display path)

/-- The loop skips the files whose keys it has seen. -/
def unseen (seen : List Text) : List PurePath → List PurePath
  | [] => []
  | path :: paths =>
    if key w path ∈ seen then unseen seen paths else path :: unseen (key w path :: seen) paths

def standardPushFailedLocalPaths (result : CommandResult) : List PurePath :=
  unseen w [] ((candidates w result).filterMap (localFile w))

/-- `relative_to`: Windows compares without regard to case. -/
def relativeTo : Host → PurePath → PurePath → Option (List Text)
  | .posix, path, root =>
    if path.drive = root.drive ∧ path.root = root.root ∧ path.parts.take root.parts.length = root.parts then
      some (path.parts.drop root.parts.length)
    else none
  | .windows lower _, path, root =>
    if lower path.drive = lower root.drive ∧ path.root = root.root ∧
        (path.parts.take root.parts.length).map lower = root.parts.map lower then
      some (path.parts.drop root.parts.length)
    else none

/-- The name of a path, which is empty where it has none. -/
def pathName (path : PurePath) : Text := (path.parts.getLast?).getD []

section Repair

variable (sourceRoot : PurePath) (destination : Text) (useRoot : Bool)

def remoteTarget (path : PurePath) : Text :=
  let relative := match relativeTo w.host path sourceRoot with
    | some parts => if parts = [] then ['.'] else ['/'].intercalate parts
    | none => pathName path
  joinAndroidPath (joinAndroidPath destination (pathName sourceRoot)) relative

def repairRequest (path : PurePath) : Request :=
  let target := remoteTarget w sourceRoot destination path
  ⟨path, target, useRoot && !isProbablyWritableAndroidPath target, (w.size path).getD 0⟩

/-- The streams in their order, with their outcomes. -/
def repairStandardPushMissingFiles (missing : List PurePath) : List (Request × Bool) :=
  missing.map (fun path =>
    let request := repairRequest w sourceRoot destination useRoot path
    (request, w.stream request))

structure Push where
  result : CommandResult
  streams : List (Request × Bool)

def partialStatus (fixed all failed : Nat) : Text :=
  "Partial transfer: repaired ".toList ++ formatNat fixed ++ '/' :: formatNat all ++ " long-path file(s); ".toList ++
    formatNat failed ++ " file(s) still failed.".toList

def repairedStatus (fixed : Nat) : Text :=
  "Success; repaired ".toList ++ formatNat fixed ++ " long-path file(s) through OpenADB streaming fallback.".toList

/-- What follows the `adb push` of a local folder while nobody cancels it. -/
def runEntryCommand (ending : Ending) : Push :=
  let result := pushStreaming w ending
  let missing := standardPushFailedLocalPaths w result
  let streams := repairStandardPushMissingFiles w sourceRoot destination useRoot missing
  let failed := (streams.filter (fun stream => !stream.2)).map (fun stream => stream.1.source)
  let fixed := (streams.filter (fun stream => stream.2)).length
  if missing = [] then ⟨result, []⟩
  else if failed ≠ [] then
    ⟨{ result with
      success := false
      status := partialStatus fixed missing.length failed.length
      stderr := (if result.stderr ≠ [] then result.stderr ++ ['\n'] else []) ++
        ['\n'].intercalate ((failed.take 10).map w.display) }, streams⟩
  else if fixed ≠ 0 then ⟨{ result with status := repairedStatus fixed }, streams⟩
  else ⟨result, streams⟩

end Repair

end OpenAdb.Transfer.FolderPush
