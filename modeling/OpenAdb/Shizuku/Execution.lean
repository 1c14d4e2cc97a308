import OpenAdb.Acbridge.Trust
import OpenAdb.Files.Listing
import OpenAdb.Shizuku.Preparation

namespace OpenAdb.Shizuku.Execution

open OpenAdb.Lib.PyText OpenAdb.Lib.PyLines OpenAdb.Lib.Encoding OpenAdb.Lib.Effects OpenAdb.Lib.EventLog
open OpenAdb.Acbridge.Device (RequestId isHex isRequestId)
open OpenAdb.Acbridge.Probe (shellQuote formatNat)
open OpenAdb.Acbridge.Trust (component contentDelete hostStatusUri partition remoteAppDir removeFiles rstripReturn)
open OpenAdb.Commands.Results (formatInt)
open OpenAdb.Files.Listing (parseInt)
open OpenAdb.Shizuku.Preparation (CommandResult ShizukuState cancelledResult identityChanged orElse rejected
  statusPrepareWarning unavailable verifiedUid)
open OpenAdb.Shizuku.Request (requestPayload validateArguments protocolVersion)

variable {ε : Type}

/-- The text methods and codecs that a result is read with. -/
structure Tables extends UnicodeData where
  alnum : Char → Bool
  b64decode : Text → Option Bytes
  decodeReplace : Bytes → Text

/-- A command that goes to the phone. The caller's event goes with the watched ones. -/
inductive AdbCall
  | inputStream (script : Text) (payload : Bytes)
  | shell (command : Text) (timeout : Int) (watched : Bool)
  deriving DecidableEq

/-- What one execution does, in its order. -/
inductive Event (ε : Type)
  | cancelled (set : Bool)
  | status (reply : Except ε ShizukuState)
  | adb (call : AdbCall) (reply : Except ε CommandResult)
  | binary (path : Text) (reply : Except ε (CommandResult × Bytes))

abbrev Log (ε : Type) := List (Event ε)

abbrev Procedure (ε α : Type) := Effect ε (Log ε) α

/-- What answers an execution, as a function of the events before: the cancel event, one that is never set
where there is none, the check of the service and the adb client, which may not read binary output. -/
structure World (ε : Type) extends Flag (Event ε) where
  checkStatus : Log ε → Except ε ShizukuState
  adb : Log ε → AdbCall → Except ε CommandResult
  binary : Option (Log ε → Text → Except ε (CommandResult × Bytes))

section Paths

structure Paths where
  request : Text
  stdout : Text
  stderr : Text
  result : Text
  resultTmp : Text
  cancel : Text
  status : Text
  statusTmp : Text

def Paths.values (paths : Paths) : List Text :=
  [paths.request, paths.stdout, paths.stderr, paths.result, paths.resultTmp, paths.cancel, paths.status,
    paths.statusTmp]

def statusPath (requestId : Text) : Text :=
  remoteAppDir ++ "/shizuku_status_".toList ++ requestId ++ ".txt".toList

def statusTemporaryPath (requestId : Text) : Text :=
  remoteAppDir ++ "/.shizuku_status_".toList ++ requestId ++ ".tmp".toList

def executionPaths (requestId : Text) : Paths :=
  let start := "/data/local/tmp/openadb-shizuku-".toList ++ requestId
  { request := start ++ ".request".toList
    stdout := start ++ ".stdout".toList
    stderr := start ++ ".stderr".toList
    result := start ++ ".result".toList
    resultTmp := start ++ ".result.tmp".toList
    cancel := start ++ ".cancel".toList
    status := statusPath requestId
    statusTmp := statusTemporaryPath requestId }

def statusUri (requestId : Text) : Text := hostStatusUri "shizuku" requestId

/-- `/shizuku_status_([0-9a-f]{32})\.txt\Z`: only the last 52 characters can match. -/
def statusRequestIdFromPath (path : Text) : Option Text :=
  let tail := path.drop (path.length - 52)
  let requestId := (tail.drop 16).take 32
  if tail = "/shizuku_status_".toList ++ requestId ++ ".txt".toList ∧ isRequestId requestId = true then
    some requestId
  else none

end Paths

section Scripts

def writeScript (paths : Paths) : Text :=
  "umask 077; ".toList ++ removeFiles paths.values ++ "; cat > ".toList ++ shellQuote paths.request ++
    "; chmod 0600 ".toList ++ shellQuote paths.request

def cleanupScript (paths : Paths) : Text :=
  removeFiles paths.values ++
    match statusRequestIdFromPath paths.status with
    | some requestId => "; ".toList ++ contentDelete (statusUri requestId)
    | none => []

def cancelScript (paths : Paths) : Text := "umask 077; : > ".toList ++ shellQuote paths.cancel

def prepareStatusScript (requestId : Text) : Text :=
  contentDelete (statusUri requestId) ++ "; ".toList ++
    removeFiles [statusPath requestId, statusTemporaryPath requestId] ++ " >/dev/null 2>&1 || true".toList

def startScript (u : UnicodeData) (operation requestId : Text) (timeoutSeconds : Int)
    (permissionHostRequestId : Text) : Text :=
  let waitForLaunch := if casefold u operation = "requestpermission".toList then [] else "-W ".toList
  let hostRequestId := casefold u (strip u permissionHostRequestId)
  "am start ".toList ++ waitForLaunch ++ "-n ".toList ++ shellQuote (component "ShizukuActivity") ++
    " --es operation ".toList ++ shellQuote operation ++ " --es request_id ".toList ++ shellQuote requestId ++
    " --ei timeout_seconds ".toList ++ formatInt timeoutSeconds ++
    (if isRequestId hostRequestId then " --es permission_host_request_id ".toList ++ shellQuote hostRequestId
      else [])

def waitScript (paths : Paths) (timeout : Int) : Text :=
  "result=".toList ++ shellQuote paths.result ++ "; status=".toList ++ shellQuote paths.status ++
    "; provider=".toList ++ shellQuote (((statusRequestIdFromPath paths.status).map statusUri).getD []) ++
    "; deadline=$(( $(date +%s) + ".toList ++ formatInt timeout ++
    (" )); delay=0.1; while [ \"$(date +%s)\" -lt \"$deadline\" ]; do if [ -s \"$result\" ]; then " ++
    "cat \"$result\" && exit 0; echo 'Shizuku result exists but ADB shell cannot read it.' >&2; exit 13; fi; " ++
    "if [ -n \"$provider\" ]; then provider_payload=\"$(content read --uri \"$provider\" 2>/dev/null)\"; " ++
    "case \"$provider_payload\" in \"OPENADB_SHIZUKU_STATUS 1\"*) " ++
    "printf '%s\\n' \"$provider_payload\"; exit 0;; esac; fi; if [ -s \"$status\" ]; then " ++
    "cat \"$status\" && exit 0; echo 'Shizuku status exists but ADB shell cannot read it.' >&2; exit 13; fi; " ++
    "sleep \"$delay\"; done; echo 'Shizuku result was not produced before timeout.' >&2; exit 124").toList

end Scripts

section Protocol

variable (t : Tables)

/-- The latest value of a key comes first. -/
abbrev Fields := List (Text × Text)

def get (fields : Fields) (key : String) : Option Text :=
  (fields.find? (fun field => field.1 = key.toList)).map Prod.snd

def isalnum (s : Text) : Bool := !s.isEmpty && s.all t.alnum

def addField (fields : Fields) (line : Text) : Fields :=
  match partition '=' line with
  | none => fields
  | some (key, value) =>
    let key := strip t.toUnicodeData key
    if key ≠ [] ∧ isalnum t (key.filter (· ≠ '_')) = true then (key, strip t.toUnicodeData value) :: fields
    else fields

/-- The fields after the marker line. -/
def parseProtocol (text : Text) (start : String) : Option Fields :=
  match ((splitlines text).map rstripReturn).dropWhile (· ≠ start.toList ++ ' ' :: formatNat protocolVersion) with
  | [] => none
  | _ :: lines => some (lines.foldl (addField t) [])

def resultPrefix : String := "OPENADB_SHIZUKU_RESULT"

def statusPrefix : String := "OPENADB_SHIZUKU_STATUS"

def integer (value : Option Text) : Option Int :=
  value.bind (fun text => parseInt t.toUnicodeData (strip t.toUnicodeData text))

/-- `str(value or "").strip().casefold()` -/
def folded (value : Option Text) : Text := casefold t.toUnicodeData (strip t.toUnicodeData (value.getD []))

def truthy (value : Option Text) : Bool := ["1", "true", "yes"].any (fun word => folded t value = word.toList)

def protocolBoolean (value : Option Text) : Bool :=
  ["0", "1", "true", "false"].any (fun word => folded t value = word.toList)

def required (keys : List String) (fields : Fields) : Bool := keys.all (fun key => (get fields key).isSome)

def validResultFields (fields : Fields) (requestId : Text) (expectedUid : Nat) : Bool :=
  required ["request_id", "state", "exit_code", "uid", "timed_out", "cancelled"] fields &&
    get fields "request_id" = some requestId && (integer t (get fields "exit_code")).isSome &&
    integer t (get fields "uid") = some (expectedUid : Int) && protocolBoolean t (get fields "timed_out") &&
    protocolBoolean t (get fields "cancelled") && strip t.toUnicodeData ((get fields "state").getD []) ≠ []

def validStatusFields (fields : Fields) (requestId : Text) : Bool :=
  required ["request_id", "state", "installed", "binder", "permission", "uid", "mode", "api"] fields &&
    get fields "request_id" = some requestId && (integer t (get fields "uid")).isSome &&
    (integer t (get fields "api")).isSome && protocolBoolean t (get fields "installed") &&
    protocolBoolean t (get fields "binder") && strip t.toUnicodeData ((get fields "state").getD []) ≠ []

def normalizedMode (value : Text) (uid : Option Int) : Text :=
  if uid = some 0 then "root".toList
  else if uid = some 2000 then "shell".toList
  else
    let mode := folded t (some value)
    if mode = "root".toList ∨ mode = "shell".toList then mode else "unavailable".toList

def decodeMessage (value : Text) : Text :=
  if value = [] then []
  else match t.b64decode value with
    | some payload => strip t.toUnicodeData (t.decodeReplace payload)
    | none => []

def stateMessages : List (String × String) :=
  [("not_installed", "Shizuku is not installed on this device."),
    ("stopped", "Shizuku is installed but its service is not running."),
    ("permission_required", "Grant OpenADB Bridge access in the Shizuku prompt on the device."),
    ("permission_denied", "Shizuku permission was denied for OpenADB Bridge."),
    ("unsupported", "The running Shizuku service is too old for OpenADB."),
    ("binder_dead", "The Shizuku service disconnected.")]

def defaultStateMessage (state : Text) (uid : Option Int) : Text :=
  if state = "ready".toList ∧ uid = some 0 then "Shizuku is ready with root identity (UID 0).".toList
  else if state = "ready".toList ∧ uid = some 2000 then
    "Shizuku is ready with Android shell identity (UID 2000).".toList
  else match stateMessages.find? (fun entry => state = entry.1.toList) with
    | some entry => entry.2.toList
    | none => "Shizuku is unavailable.".toList

/-- The permission that a status names, if it is one of the known. -/
def statedPermission (fields : Fields) : Text :=
  let permission := casefold t.toUnicodeData
    (strip t.toUnicodeData ((get fields "permission").getD "unknown".toList))
  if ["unknown", "required", "denied", "granted", "unsupported"].any (fun known => permission = known.toList) then
    permission
  else "unknown".toList

def statedState (fields : Fields) : Text :=
  let state := casefold t.toUnicodeData (strip t.toUnicodeData ((get fields "state").getD "unknown".toList))
  let permission := statedPermission t fields
  let state := if state = "unavailable".toList ∧ truthy t (get fields "binder") = false then
      if truthy t (get fields "installed") then "stopped".toList else "not_installed".toList
    else state
  if state = "permission_granted".toList ∧ permission = "granted".toList then "ready".toList
  else if state = "permission_required".toList ∧ permission = "denied".toList then "permission_denied".toList
  else if state = "permission_required".toList ∧ permission = "unsupported".toList then "unsupported".toList
  else state

def stateFromFields (fields : Fields) : ShizukuState :=
  let uid := integer t (get fields "uid")
  let running := truthy t (get fields "binder")
  let permission := statedPermission t fields
  let stated := statedState t fields
  let inconsistent := stated = "ready".toList ∧
    ¬(running = true ∧ permission = "granted".toList ∧ (uid = some 0 ∨ uid = some 2000))
  let state := if inconsistent then "error".toList else stated
  { state := state
    running := running
    permission := permission
    uid := uid
    message := orElse (if inconsistent then ("ACBridge returned inconsistent Shizuku readiness details; " ++
          "access was not accepted.").toList else [])
      (orElse (if state = "permission_denied".toList ∨ state = "unsupported".toList then
          defaultStateMessage state uid else [])
        (orElse (decodeMessage t ((get fields "message_b64").getD [])) (defaultStateMessage state uid))) }

end Protocol

section Output

variable (t : Tables)

def maxDesktopOutputBytes : Nat := 2 * 1024 * 1024

def appendNotice (output : Text) (notice : String) : Text :=
  output ++ (if output = [] ∨ output.getLast? = some '\n' then [] else ['\n']) ++ notice.toList ++ ['\n']

def boundedOutputTextWithTruncation (payload : Bytes) : Text × Bool :=
  if maxDesktopOutputBytes < payload.length then
    (appendNotice (t.decodeReplace (payload.take maxDesktopOutputBytes))
      "[OpenADB: Shizuku output was shortened to 2 MiB for UI responsiveness.]", true)
  else (t.decodeReplace payload, false)

end Output

section Steps

variable (t : Tables) (w : World ε)

def cancelled : Procedure ε Bool := look w.isSet .cancelled

def command (call : AdbCall) : Procedure ε CommandResult := ask (fun log => w.adb log call) (.adb call)

def runShell (script : Text) (timeout : Int) (watched : Bool) : Procedure ε CommandResult :=
  command w (.shell script timeout watched)

def writeRequest (payload : Bytes) (paths : Paths) : Procedure ε CommandResult :=
  command w (.inputStream (writeScript paths) payload)

def prepareStatus (requestId : Text) : Procedure ε CommandResult :=
  runShell w (prepareStatusScript requestId) 8 true

def startActivity (operation requestId : Text) (timeoutSeconds : Int) (watched : Bool) :
    Procedure ε CommandResult :=
  runShell w (startScript t.toUnicodeData operation requestId timeoutSeconds []) 20 watched

def cancelActivity (requestId : Text) : Procedure ε CommandResult :=
  startActivity t w "cancel".toList requestId 10 false

def signalCancel (paths : Paths) : Procedure ε CommandResult := runShell w (cancelScript paths) 5 false

def cleanupExecution (paths : Paths) : Procedure ε CommandResult := runShell w (cleanupScript paths) 8 false

def waitForExecutionResult (paths : Paths) (timeout : Int) (watched : Bool) : Procedure ε CommandResult :=
  runShell w (waitScript paths (max 1 timeout)) (max 1 timeout + 8) watched

def catScript (path : Text) : Text := "cat ".toList ++ shellQuote path ++ " 2>/dev/null".toList

/-- The output as the shell prints it. -/
def readShellOutput (path : Text) : Procedure ε (Text × Bool) := do
  let result ← runShell w (catScript path) 20 true
  pure (boundedOutputTextWithTruncation t (utf8 result.stdout))

/-- The shell reads what cannot be read as binary output. -/
def readOutput (path : Text) : Procedure ε (Text × Bool) :=
  match w.binary with
  | none => readShellOutput t w path
  | some runRawBinaryOutput => do
    let (result, payload) ← ask (fun log => runRawBinaryOutput log path) (.binary path)
    if result.success then pure (boundedOutputTextWithTruncation t payload)
    else do
      let stop ← cancelled w
      if stop then pure ([], false) else readShellOutput t w path

def readOutputWithTruncation (path : Text) : Procedure ε (Text × Bool) := do
  let stop ← cancelled w
  if stop then pure ([], false) else readOutput t w path

/-- Cancelled by the service or by the caller. -/
def wasCancelled (fields : Fields) : Procedure ε Bool :=
  if truthy t (get fields "cancelled") then pure true else cancelled w

end Steps

section Executing

variable (t : Tables) (w : World ε)

/-- The whole seconds of a timeout; nothing stands for no timeout and for one that is no number. -/
def normalizeTimeout : Option Int → Int
  | none => 120
  | some value => max 1 (min value 900)

/-- What a command printed, and whether the desktop cut it short. -/
structure Printed where
  stdout : Text
  stderr : Text
  truncated : Bool

def rejection (status errorType : Text) : CommandResult := rejected status status errorType

def noticed (fields : Fields) (key : String) (output : Text) (notice : String) : Text :=
  if truthy t (get fields key) then appendNotice output notice else output

/-- The result that valid fields make. -/
def resultOf (fields : Fields) (printed : Printed) (isCancelled : Bool) : CommandResult :=
  let exitCode := integer t (get fields "exit_code")
  let uid := integer t (get fields "uid")
  let mode := normalizedMode t ((get fields "mode").getD []) uid
  let state := casefold t.toUnicodeData (strip t.toUnicodeData ((get fields "state").getD "complete".toList))
  let timedOut := truthy t (get fields "timed_out")
  let message := decodeMessage t ((get fields "message_b64").getD [])
  let stdout := noticed t fields "stdout_truncated" printed.stdout
    "[OpenADB: Shizuku stdout was truncated at the safety limit.]"
  let stderr := noticed t fields "stderr_truncated" printed.stderr
    "[OpenADB: Shizuku stderr was truncated at the safety limit.]"
  let outputTruncated := truthy t (get fields "stdout_truncated") || truthy t (get fields "stderr_truncated") ||
    printed.truncated
  let success := state = "complete".toList && exitCode = some 0 && !timedOut && !isCancelled && !outputTruncated
  let (errorType, status) :=
    if isCancelled then ("cancelled", orElse message "Shizuku command cancelled.".toList)
    else if outputTruncated then
      ("shizuku_output_truncated", ("Shizuku command output exceeded a safety limit and was truncated; " ++
        "OpenADB rejected the incomplete result.").toList)
    else if timedOut then ("shizuku_timeout", orElse message "Shizuku command timed out.".toList)
    else if state = "permission_required".toList ∨ state = "permission_denied".toList then
      ("shizuku_permission_required", orElse message "Shizuku permission is required.".toList)
    else if state = "stopped".toList ∨ state = "binder_dead".toList ∨ state = "unavailable".toList then
      ("shizuku_unavailable", orElse message "Shizuku is not running.".toList)
    else if success then
      ("", orElse message ("Shizuku command completed through ".toList ++ mode ++ " (UID ".toList ++
        (uid.map formatInt).getD "None".toList ++ ").".toList))
    else ("shizuku_command_failed", orElse message ("Shizuku command failed with exit code ".toList ++
        (exitCode.map formatInt).getD "None".toList ++ ['.']))
  { exitCode := exitCode
    stdout := stdout
    stderr := if success = false ∧ stderr = [] then status else stderr
    success := success
    status := status
    errorType := errorType.toList }

/-- The fields of a result for this request, or else of a status. -/
def readFields (metadataText requestId : Text) (expectedUid : Nat) : Option (Fields ⊕ Fields) :=
  match (parseProtocol t metadataText resultPrefix).filter
      (fun fields => validResultFields t fields requestId expectedUid) with
  | some fields => some (.inl fields)
  | none => ((parseProtocol t metadataText statusPrefix).filter
      (fun fields => validStatusFields t fields requestId)).map .inr

def unusableStatus (fields : Fields) : CommandResult :=
  let state := stateFromFields t fields
  rejection (orElse state.message "Shizuku could not start the command service.".toList)
    (if state.state = "permission_required".toList ∨ state.state = "permission_denied".toList then
      "shizuku_permission_required".toList
    else "shizuku_unavailable".toList)

def protocolError (printed : Printed) : CommandResult :=
  let detail := "ACBridge returned an invalid Shizuku result.".toList
  { rejected detail (orElse printed.stderr detail) "shizuku_protocol_error".toList with stdout := printed.stdout }

/-- The files are read and removed, whether the result is valid or not. -/
def readPrinted (paths : Paths) : Procedure ε Printed := do
  let (stdout, stdoutTruncated) ← readOutputWithTruncation t w paths.stdout
  let (stderr, stderrTruncated) ← readOutputWithTruncation t w paths.stderr
  let _ ← cleanupExecution w paths
  pure ⟨stdout, stderr, stdoutTruncated || stderrTruncated⟩

/-- The end of an execution that has found some text. -/
def concludeExecution (requestId metadataText : Text) (expectedUid : Nat) : Procedure ε CommandResult :=
  let paths := executionPaths requestId
  match readFields t metadataText requestId expectedUid with
  | some (.inr statusFields) => do
    let _ ← cleanupExecution w paths
    let stop ← cancelled w
    pure (if stop then cancelledResult else unusableStatus t statusFields)
  | some (.inl fields) => do
    let printed ← readPrinted t w paths
    let isCancelled ← wasCancelled t w fields
    pure (resultOf t fields printed isCancelled)
  | none => do
    let printed ← readPrinted t w paths
    pure (protocolError printed)

/-- The service is told to stop. -/
def stopExecution (requestId : Text) : Procedure ε Unit := do
  let _ ← signalCancel w (executionPaths requestId)
  let _ ← cancelActivity t w requestId
  pure ()

/-- What the result of an execution is read from; it is waited for once more when cancelled. -/
def awaitMetadata (requestId : Text) (wait : CommandResult) : Procedure ε Text := do
  let stop ← cancelled w
  if stop then do
    stopExecution t w requestId
    let finalWait ← waitForExecutionResult w (executionPaths requestId) 8 false
    pure finalWait.stdout
  else pure wait.stdout

def withoutResult (wait : CommandResult) (warning : Text) : CommandResult :=
  let detail := orElse wait.stderr (orElse wait.status
    "ACBridge did not produce a Shizuku result before timeout.".toList)
  rejection (if warning = [] then detail
      else detail ++ " Shell-owned status preparation also failed: ".toList ++ warning)
    (if warning ≠ [] ∨ wait.exitCode = some 13 then "shizuku_status_channel_failed".toList
      else "shizuku_timeout".toList)

def awaitExecution (requestId : Text) (timeoutSeconds : Int) (warning : Text) (expectedUid : Nat) :
    Procedure ε CommandResult := do
  let wait ← waitForExecutionResult w (executionPaths requestId) (timeoutSeconds + 20) true
  let metadataText ← awaitMetadata t w requestId wait
  if strip t.toUnicodeData metadataText = [] then do
    stopExecution t w requestId
    let _ ← cleanupExecution w (executionPaths requestId)
    let stop ← cancelled w
    pure (if stop then cancelledResult else withoutResult wait warning)
  else concludeExecution t w requestId metadataText expectedUid

def startExecution (requestId : Text) (timeoutSeconds : Int) (expectedUid : Nat) : Procedure ε CommandResult := do
  let statusPrepare ← prepareStatus w requestId
  let stop ← cancelled w
  if stop then do
    let _ ← cleanupExecution w (executionPaths requestId)
    pure cancelledResult
  else do
    let start ← startActivity t w "execute".toList requestId timeoutSeconds true
    let stop ← cancelled w
    if stop ∨ start.success = false then do
      stopExecution t w requestId
      let _ ← cleanupExecution w (executionPaths requestId)
      pure (if stop then cancelledResult
        else rejection (orElse start.status (orElse start.stderr
          "ACBridge could not start Shizuku execution.".toList)) "shizuku_start_failed".toList)
    else awaitExecution t w requestId timeoutSeconds (statusPrepareWarning statusPrepare) expectedUid

def sendRequest (requestId : Text) (payload : Bytes) (timeoutSeconds : Int) (expectedUid : Nat) :
    Procedure ε CommandResult := do
  let prepare ← writeRequest w payload (executionPaths requestId)
  let stop ← cancelled w
  if stop ∨ prepare.success = false then do
    let _ ← cleanupExecution w (executionPaths requestId)
    pure (if stop then cancelledResult
      else rejection (orElse prepare.stderr (orElse prepare.status
        "Unable to prepare the Shizuku request.".toList)) "shizuku_request_failed".toList)
  else startExecution t w requestId timeoutSeconds expectedUid

/-- The state that was prepared, or a check of its own. -/
def currentState : Option ShizukuState → Procedure ε ShizukuState
  | some state => pure state
  | none => ask w.checkStatus .status

def executeArgvSerialized (arguments : List Text) (timeout expectedUid : Option Int)
    (preparedSession : Option ShizukuState) (requestId : RequestId) : Procedure ε CommandResult := do
  let stop ← cancelled w
  if stop then pure cancelledResult
  else match verifiedUid expectedUid with
  | none => pure (rejected "Check Shizuku access before running a command.".toList
      "A verified Shizuku UID is required before command execution.".toList "shizuku_identity_unverified".toList)
  | some uid =>
    if validateArguments arguments uid ≠ [] then
      pure (rejection (validateArguments arguments uid) "invalid_command".toList)
    else do
      let state ← currentState w preparedSession
      let stop ← cancelled w
      if stop then pure cancelledResult
      else if state.ready = false then pure (unavailable state)
      else if state.uid ≠ expectedUid then pure (rejection identityChanged "shizuku_identity_changed".toList)
      else
        let payload := requestPayload arguments uid
        if Request.maxRequestBytes < payload.length then
          pure (rejection "Shizuku request exceeds the 128 KiB encoded safety limit.".toList
            "invalid_command".toList)
        else sendRequest t w requestId.text payload (normalizeTimeout timeout) uid

end Executing

section Events

def Event.isWrite : Event ε → Prop
  | .adb (.inputStream _ _) _ => True
  | _ => False

/-- A shell command that begins with the removal of all these files. -/
def Event.isCleanup (files : List Text) : Event ε → Prop
  | .adb (.shell command _ _) _ => removeFiles files <+: command
  | _ => False

/-- A call of the adb client that raised. -/
def Event.raised : Event ε → Prop
  | .adb _ (.error _) | .binary _ (.error _) => True
  | _ => False

/-- After the request was written, a command to remove all its files was issued. -/
def Removed (requestId : Text) (log : Log ε) : Prop :=
  Followed Event.isWrite (Event.isCleanup (executionPaths requestId).values) log

/-- No call of the client raises, the cleanup apart. -/
def Undisturbed (requestId : Text) (log : Log ε) : Prop :=
  ∀ e ∈ log, e.raised → e.isCleanup (executionPaths requestId).values

/-- The whole of a file was read, as it is or through the shell. -/
def Read (path : Text) (payload : Bytes) (log : Log ε) : Prop :=
  (∃ result, .binary path (.ok (result, payload)) ∈ log ∧ result.success = true) ∨
    ∃ result, .adb (.shell (catScript path) 20 true) (.ok result) ∈ log ∧ utf8 result.stdout = payload

/-- A wait for this request has returned the text. -/
def Waited (requestId text : Text) (log : Log ε) : Prop :=
  ∃ timeout limit watched result,
    .adb (.shell (waitScript (executionPaths requestId) timeout) limit watched) (.ok result) ∈ log ∧
      result.stdout = text

/-- A result for this request and this user id that is complete, and whole on either side. -/
structure Verified (t : Tables) (requestId : Text) (expectedUid : Nat) (result : CommandResult) (log : Log ε)
    (text : Text) (fields : Fields) : Prop where
  waited : Waited requestId text log
  parsed : parseProtocol t text resultPrefix = some fields
  valid : validResultFields t fields requestId expectedUid = true
  complete : folded t (get fields "state") = "complete".toList
  exitCode : integer t (get fields "exit_code") = some 0
  timedOut : truthy t (get fields "timed_out") = false
  cancelled : truthy t (get fields "cancelled") = false
  unset : .cancelled true ∉ log
  stdoutWhole : truthy t (get fields "stdout_truncated") = false
  stderrWhole : truthy t (get fields "stderr_truncated") = false
  stdout : ∃ payload, Read (executionPaths requestId).stdout payload log ∧
    payload.length ≤ maxDesktopOutputBytes ∧ result.stdout = t.decodeReplace payload
  stderr : ∃ payload, Read (executionPaths requestId).stderr payload log ∧
    payload.length ≤ maxDesktopOutputBytes ∧ result.stderr = t.decodeReplace payload

end Events

section Scripts

variable {files : List Text} {script : Text}

theorem not_removeFiles (h : script.take 2 ≠ ['r', 'm']) : ¬removeFiles files <+: script := by
  intro hstart
  obtain ⟨rest, hrest⟩ := hstart
  refine h ?_
  rw [← hrest]
  rfl

theorem cancelScript_ne (paths : Paths) : ¬removeFiles files <+: cancelScript paths :=
  not_removeFiles (fun h => by cases h)

theorem startScript_ne (u : UnicodeData) (operation requestId : Text) (timeoutSeconds : Int) (host : Text) :
    ¬removeFiles files <+: startScript u operation requestId timeoutSeconds host :=
  not_removeFiles (fun h => by cases h)

theorem waitScript_ne (paths : Paths) (timeout : Int) : ¬removeFiles files <+: waitScript paths timeout :=
  not_removeFiles (fun h => by cases h)

theorem prepareStatusScript_ne (requestId : Text) : ¬removeFiles files <+: prepareStatusScript requestId :=
  not_removeFiles (fun h => by cases h)

theorem catScript_ne (path : Text) : ¬removeFiles files <+: catScript path :=
  not_removeFiles (fun h => by cases h)

theorem cleanupScript_start (paths : Paths) : removeFiles paths.values <+: cleanupScript paths :=
  List.prefix_append _ _

end Scripts

section Ends

variable {t : Tables} {w : World ε} {requestId : Text} {F G : Log ε → Prop}

/-- A check that has found the event set tells that it is set. -/
def Seen (w : World ε) (log : Log ε) : Prop := .cancelled true ∈ log → w.isSet log = true

theorem Seen.cons {e : Event ε} {log : Log ε} (h : Seen w log) (he : e = .cancelled true → w.isSet log = true) :
    Seen w (e :: log) := by
  intro hmem
  refine w.sticky log e ?_
  obtain hhead | htail := List.mem_cons.mp hmem
  · exact he hhead.symm
  · exact h htail

/-- The request is written, nothing was cleaned up and nothing has raised. -/
structure Open (w : World ε) (requestId : Text) (F : Log ε → Prop) (log : Log ε) : Prop where
  written : ∃ e ∈ log, e.isWrite
  kept : ∀ e ∈ log, ¬e.isCleanup (executionPaths requestId).values
  unraised : ∀ e ∈ log, ¬e.raised
  seen : Seen w log
  fact : F log

/-- The request is cleaned up. -/
structure Done (w : World ε) (requestId : Text) (F : Log ε → Prop) (log : Log ε) : Prop where
  removed : Removed requestId log
  undisturbed : Undisturbed requestId log
  seen : Seen w log
  fact : F log

/-- Where an execution that raises ends. -/
def Ended (requestId : Text) (log : Log ε) : Prop := Removed requestId log ↔ Undisturbed requestId log

theorem Open.mono {log : Log ε} (h : Open w requestId F log) (hfact : F log → G log) : Open w requestId G log :=
  ⟨h.written, h.kept, h.unraised, h.seen, hfact h.fact⟩

theorem Open.forget (log : Log ε) (h : Open w requestId F log) : Open w requestId (fun _ => True) log :=
  h.mono fun _ => trivial

theorem Done.mono {log : Log ε} (h : Done w requestId F log) (hfact : F log → G log) : Done w requestId G log :=
  ⟨h.removed, h.undisturbed, h.seen, hfact h.fact⟩

theorem Open.cons {e : Event ε} {log : Log ε} (h : Open w requestId F log)
    (hkept : ¬e.isCleanup (executionPaths requestId).values) (hraised : ¬e.raised)
    (hseen : e = .cancelled true → w.isSet log = true) (hfact : G (e :: log)) : Open w requestId G (e :: log) where
  written := by
    obtain ⟨e', hmem, hwrite⟩ := h.written
    exact ⟨e', List.mem_cons_of_mem e hmem, hwrite⟩
  kept := List.forall_mem_cons.mpr ⟨hkept, h.kept⟩
  unraised := List.forall_mem_cons.mpr ⟨hraised, h.unraised⟩
  seen := h.seen.cons hseen
  fact := hfact

/-- A call that raises leaves the files. -/
theorem Open.raised {e : Event ε} {log : Log ε} (h : Open w requestId F log)
    (hkept : ¬e.isCleanup (executionPaths requestId).values) (hraised : e.raised) :
    Ended requestId (e :: log) := by
  obtain ⟨e', hmem, hwrite⟩ := h.written
  refine iff_of_false (not_followed ⟨e', List.mem_cons_of_mem e hmem, hwrite⟩
    (List.forall_mem_cons.mpr ⟨hkept, h.kept⟩)) fun hundisturbed => ?_
  exact hkept (hundisturbed e List.mem_cons_self hraised)

theorem Open.cleanup {e : Event ε} {log : Log ε} (h : Open w requestId F log)
    (hclean : e.isCleanup (executionPaths requestId).values) (hwrite : ¬e.isWrite) :
    Removed requestId (e :: log) ∧ Undisturbed requestId (e :: log) := by
  refine ⟨followed_cons hwrite hclean, List.forall_mem_cons.mpr ⟨fun _ => hclean, ?_⟩⟩
  intro e' hmem hraised
  exact absurd hraised (h.unraised e' hmem)

/-- What is asked of the client between the writing and the cleanup. -/
theorem command_open {call : AdbCall} (hF : Persists F)
    (hcall : ∀ reply : Except ε CommandResult,
      ¬(Event.adb call reply).isCleanup (executionPaths requestId).values) :
    Meets (Open w requestId F) (command w call)
      (fun result => Open w requestId (fun log => .adb call (.ok result) ∈ log ∧ F log))
      (fun _ => Ended requestId) := by
  refine Meets.ask (fun log result hlog _ => ?_) (fun log e hlog _ => ?_)
  · exact hlog.cons (hcall _) id (fun h => by cases h) ⟨List.mem_cons_self, hF _ _ hlog.fact⟩
  · exact hlog.raised (hcall _) trivial

theorem runShell_open {script : Text} {timeout : Int} {watched : Bool} (hF : Persists F)
    (hscript : ¬removeFiles (executionPaths requestId).values <+: script) :
    Meets (Open w requestId F) (runShell w script timeout watched)
      (fun result => Open w requestId (fun log =>
        .adb (.shell script timeout watched) (.ok result) ∈ log ∧ F log))
      (fun _ => Ended requestId) :=
  command_open hF fun _ => hscript

theorem cancelled_open (hF : Persists F) :
    Meets (Open w requestId F) (cancelled w)
      (fun set => Open w requestId (fun log => (set = true → .cancelled true ∈ log) ∧ F log))
      (fun _ => Ended requestId) := by
  refine Meets.look fun log hlog => ?_
  refine hlog.cons id id (fun h => Event.cancelled.inj h) ⟨fun hset => ?_, hF _ _ hlog.fact⟩
  rw [hset]
  exact List.mem_cons_self

theorem cancelled_done (hF : Persists F) :
    Meets (Done w requestId F) (cancelled w)
      (fun set => Done w requestId (fun log => (set = false → .cancelled true ∉ log) ∧ F log))
      (fun _ => Ended requestId) := by
  refine Meets.look fun log hlog => ?_
  refine ⟨hlog.removed.cons id, List.forall_mem_cons.mpr ⟨False.elim, hlog.undisturbed⟩,
    hlog.seen.cons (fun h => Event.cancelled.inj h), fun hunset hmem => ?_, hF _ _ hlog.fact⟩
  rw [hunset] at hmem
  obtain hhead | htail := List.mem_cons.mp hmem
  · cases hhead
  · exact absurd (hlog.seen htail) (Bool.eq_false_iff.mp hunset)

theorem cleanupExecution_done (hF : Persists F) :
    Meets (Open w requestId F) (cleanupExecution w (executionPaths requestId)) (fun _ => Done w requestId F)
      (fun _ => Ended requestId) := by
  have hclean : ∀ reply : Except ε CommandResult,
      (Event.adb (.shell (cleanupScript (executionPaths requestId)) 8 false) reply).isCleanup
        (executionPaths requestId).values := fun _ => cleanupScript_start _
  refine Meets.ask (fun log result hlog _ => ?_) (fun log e hlog _ => ?_)
  · obtain ⟨hremoved, hundisturbed⟩ := hlog.cleanup (hclean (.ok result)) id
    exact ⟨hremoved, hundisturbed, hlog.seen.cons (fun h => by cases h), hF _ _ hlog.fact⟩
  · obtain ⟨hremoved, hundisturbed⟩ := hlog.cleanup (hclean (.error e)) id
    exact iff_of_true hremoved hundisturbed

section Reading

variable {text : Text} {path : Text} {payload : Bytes}

theorem persists_read : Persists (Read (ε := ε) path payload) := by
  intro e log h
  obtain ⟨result, hmem, hsuccess⟩ | ⟨result, hmem, hutf⟩ := h
  · exact .inl ⟨result, List.mem_cons_of_mem e hmem, hsuccess⟩
  · exact .inr ⟨result, List.mem_cons_of_mem e hmem, hutf⟩

theorem persists_waited : Persists (Waited (ε := ε) requestId text) := by
  intro e log h
  obtain ⟨timeout, limit, watched, result, hmem, hresult⟩ := h
  exact ⟨timeout, limit, watched, result, List.mem_cons_of_mem e hmem, hresult⟩

/-- An output that is not cut short is the whole file, unless the execution was cancelled. -/
def Whole (t : Tables) (path : Text) (output : Text × Bool) (log : Log ε) : Prop :=
  output.2 = false → .cancelled true ∈ log ∨
    ∃ payload, Read path payload log ∧ payload.length ≤ maxDesktopOutputBytes ∧
      output.1 = t.decodeReplace payload

theorem persists_whole {output : Text × Bool} : Persists (Whole (ε := ε) t path output) := by
  intro e log h hwhole
  obtain hset | ⟨payload, hread, hpayload⟩ := h hwhole
  · exact .inl (List.mem_cons_of_mem e hset)
  · exact .inr ⟨payload, persists_read e log hread, hpayload⟩

theorem whole_bounded {log : Log ε} (h : Read path payload log) :
    Whole t path (boundedOutputTextWithTruncation t payload) log := by
  intro hwhole
  rw [boundedOutputTextWithTruncation] at hwhole ⊢
  by_cases hsize : maxDesktopOutputBytes < payload.length
  · rw [if_pos hsize] at hwhole
    cases hwhole
  · rw [if_neg hsize]
    exact .inr ⟨payload, h, Nat.le_of_not_lt hsize, rfl⟩

theorem readShellOutput_open (hF : Persists F) : Meets (Open w requestId F) (readShellOutput t w path)
    (fun output => Open w requestId (fun log => Whole t path output log ∧ F log)) (fun _ => Ended requestId) := by
  refine Meets.bind (runShell_open hF (catScript_ne path)) fun result => ?_
  refine Meets.pure fun log hlog => hlog.mono fun hfact => ⟨?_, hfact.2⟩
  exact whole_bounded (.inr ⟨result, hfact.1, rfl⟩)

theorem whole_of_set {log : Log ε} (h : .cancelled true ∈ log) : Whole t path ([], false) log := fun _ => .inl h

/-- A check that finds the event set ends the reading. -/
theorem unlessCancelled_open {x : Procedure ε (Text × Bool)} (hF : Persists F)
    (hx : Meets (Open w requestId F) x
      (fun output => Open w requestId (fun log => Whole t path output log ∧ F log)) (fun _ => Ended requestId)) :
    Meets (Open w requestId F) (do
      let stop ← cancelled w
      if stop then pure ([], false) else x)
      (fun output => Open w requestId (fun log => Whole t path output log ∧ F log))
      (fun _ => Ended requestId) := by
  refine Meets.bind (cancelled_open hF) fun stop => Meets.ite (fun hstop => ?_) (fun _ => ?_)
  · refine Meets.pure fun log hlog => hlog.mono fun hfact => ⟨?_, hfact.2⟩
    exact whole_of_set (hfact.1 hstop)
  · exact hx.mono (fun log hlog => hlog.mono And.right) (fun _ _ h => h) (fun _ _ h => h)

theorem binary_open {run : Log ε → Text → Except ε (CommandResult × Bytes)} (hF : Persists F) :
    Meets (Open w requestId F) (ask (fun log => run log path) (.binary path))
      (fun output => Open w requestId (fun log => .binary path (.ok output) ∈ log ∧ F log))
      (fun _ => Ended requestId) := by
  refine Meets.ask (fun log result hlog _ => ?_) (fun log e hlog _ => ?_)
  · exact hlog.cons id id (fun h => by cases h) ⟨List.mem_cons_self, hF _ _ hlog.fact⟩
  · exact hlog.raised id trivial

theorem readOutput_open (hF : Persists F) : Meets (Open w requestId F) (readOutput t w path)
    (fun output => Open w requestId (fun log => Whole t path output log ∧ F log)) (fun _ => Ended requestId) := by
  rw [readOutput]
  cases hbinary : w.binary with
  | none => exact readShellOutput_open hF
  | some run =>
    refine Meets.bind (binary_open hF) fun output => ?_
    obtain ⟨result, payload⟩ := output
    refine Meets.ite (fun hsuccess => ?_) (fun _ => ?_)
    · refine Meets.pure fun log hlog => hlog.mono fun hfact => ⟨?_, hfact.2⟩
      exact whole_bounded (.inl ⟨result, hfact.1, hsuccess⟩)
    · refine (unlessCancelled_open hF (readShellOutput_open hF)).mono (fun log hlog => hlog.mono And.right)
        (fun _ _ h => h) (fun _ _ h => h)

theorem readOutputWithTruncation_open (hF : Persists F) :
    Meets (Open w requestId F) (readOutputWithTruncation t w path)
    (fun output => Open w requestId (fun log => Whole t path output log ∧ F log)) (fun _ => Ended requestId) :=
  unlessCancelled_open hF (readOutput_open hF)

/-- What is known of the output of an execution whose files were read. -/
def PrintedWhole (t : Tables) (requestId : Text) (printed : Printed) (log : Log ε) : Prop :=
  printed.truncated = false → .cancelled true ∈ log ∨
    ((∃ payload, Read (executionPaths requestId).stdout payload log ∧ payload.length ≤ maxDesktopOutputBytes ∧
      printed.stdout = t.decodeReplace payload) ∧
    ∃ payload, Read (executionPaths requestId).stderr payload log ∧ payload.length ≤ maxDesktopOutputBytes ∧
      printed.stderr = t.decodeReplace payload)

theorem printedWhole {stdout stderr : Text} {stdoutTruncated stderrTruncated : Bool} {log : Log ε}
    (hstdout : Whole t (executionPaths requestId).stdout (stdout, stdoutTruncated) log)
    (hstderr : Whole t (executionPaths requestId).stderr (stderr, stderrTruncated) log) :
    PrintedWhole t requestId ⟨stdout, stderr, stdoutTruncated || stderrTruncated⟩ log := by
  intro hwhole
  obtain ⟨hout, herr⟩ := Bool.or_eq_false_iff.mp hwhole
  obtain hset | hread := hstdout hout
  · exact .inl hset
  · obtain hset | hread' := hstderr herr
    · exact .inl hset
    · exact .inr ⟨hread, hread'⟩

theorem readPrinted_done (hF : Persists F) : Meets (Open w requestId F)
    (readPrinted t w (executionPaths requestId))
    (fun printed => Done w requestId (fun log => PrintedWhole t requestId printed log ∧ F log))
    (fun _ => Ended requestId) := by
  refine Meets.bind (readOutputWithTruncation_open (t := t) hF) fun out => ?_
  obtain ⟨stdout, stdoutTruncated⟩ := out
  refine Meets.bind (readOutputWithTruncation_open (t := t) (persists_whole.and hF)) fun err => ?_
  obtain ⟨stderr, stderrTruncated⟩ := err
  refine Meets.bind (cleanupExecution_done (persists_whole.and (persists_whole.and hF))) fun _ => ?_
  refine Meets.pure fun log hlog => hlog.mono fun hfact => ⟨?_, hfact.2.2⟩
  exact printedWhole hfact.2.1 hfact.1

end Reading

/-- Success comes with a verified result. -/
def Successful (t : Tables) (requestId : Text) (expectedUid : Nat) (result : CommandResult) (log : Log ε) : Prop :=
  result.success = true → ∃ text fields, Verified t requestId expectedUid result log text fields

theorem successful_of_failed {uid : Nat} {result : CommandResult} {log : Log ε} (h : result.success = false) :
    Successful t requestId uid result log := by
  intro hsuccess
  rw [h] at hsuccess
  cases hsuccess

theorem failed_ite {c : Prop} [Decidable c] {x y : CommandResult} (hx : x.success = false)
    (hy : y.success = false) : (if c then x else y).success = false := by
  by_cases hc : c
  · rw [if_pos hc]
    exact hx
  · rw [if_neg hc]
    exact hy

section Results

variable {text : Text} {fields : Fields} {uid : Nat} {printed : Printed}

theorem readFields_result (h : readFields t text requestId uid = some (.inl fields)) :
    parseProtocol t text resultPrefix = some fields ∧ validResultFields t fields requestId uid = true := by
  rw [readFields] at h
  cases hparse : (parseProtocol t text resultPrefix).filter
      (fun fields => validResultFields t fields requestId uid) with
  | none =>
    rw [hparse] at h
    obtain ⟨fields', -, hinr⟩ := Option.map_eq_some_iff.mp h
    cases hinr
  | some fields' =>
    rw [hparse] at h
    cases h
    exact (Option.filter_eq_some_iff).mp hparse

theorem state_valid (h : validResultFields t fields requestId uid = true) :
    casefold t.toUnicodeData (strip t.toUnicodeData ((get fields "state").getD "complete".toList)) =
      folded t (get fields "state") := by
  cases hstate : get fields "state" with
  | none =>
    rw [validResultFields, Bool.and_eq_true, hstate] at h
    exact absurd rfl (of_decide_eq_true h.2)
  | some state => rfl

theorem resultOf_verified {isCancelled : Bool} {log : Log ε} (hwaited : Waited requestId text log)
    (hread : readFields t text requestId uid = some (.inl fields))
    (hprinted : PrintedWhole t requestId printed log)
    (hunset : isCancelled = false → truthy t (get fields "cancelled") = false ∧ .cancelled true ∉ log) :
    Successful t requestId uid (resultOf t fields printed isCancelled) log := by
  intro hsuccess
  obtain ⟨hparse, hvalid⟩ := readFields_result hread
  have hall := hsuccess
  change (decide _ && decide _ && !_ && !_ && !(_ || _ || _)) = true at hall
  simp only [Bool.and_eq_true, decide_eq_true_eq, Bool.not_eq_true', Bool.or_eq_false_iff] at hall
  obtain ⟨⟨⟨⟨hcomplete, hexit⟩, htimed⟩, hcancelled⟩, ⟨hout, herr⟩, htruncated⟩ := hall
  obtain ⟨hfield, hlog⟩ := hunset hcancelled
  obtain ⟨⟨payload, hreads, hsize, hstdout⟩, payload', hreads', hsize', hstderr⟩ :=
    (hprinted htruncated).resolve_left hlog
  have hwhole : (resultOf t fields printed isCancelled).stdout = printed.stdout := by
    change noticed t fields _ _ _ = _
    rw [noticed, hout]
    rfl
  have hwhole' : (resultOf t fields printed isCancelled).stderr = printed.stderr := by
    refine (if_neg fun hfailed => ?_).trans ?_
    · exact absurd (hsuccess.symm.trans hfailed.1) (by decide)
    · rw [noticed, herr]
      rfl
  refine ⟨text, fields, ?_⟩
  exact
    { waited := hwaited
      parsed := hparse
      valid := hvalid
      complete := (state_valid hvalid).symm.trans hcomplete
      exitCode := hexit
      timedOut := htimed
      cancelled := hfield
      unset := hlog
      stdoutWhole := hout
      stderrWhole := herr
      stdout := ⟨payload, hreads, hsize, hwhole.trans hstdout⟩
      stderr := ⟨payload', hreads', hsize', hwhole'.trans hstderr⟩ }

theorem wasCancelled_done (hF : Persists F) : Meets (Done w requestId F) (wasCancelled t w fields)
    (fun isCancelled => Done w requestId (fun log => (isCancelled = false →
      truthy t (get fields "cancelled") = false ∧ .cancelled true ∉ log) ∧ F log))
    (fun _ => Ended requestId) := by
  refine Meets.ite (fun _ => ?_) (fun hfield => ?_)
  · refine Meets.pure fun log hlog => hlog.mono fun hfact => ⟨fun hunset => ?_, hfact⟩
    cases hunset
  · refine (cancelled_done hF).mono (fun _ h => h) (fun isCancelled log hlog => ?_) (fun _ _ h => h)
    exact hlog.mono fun hfact => ⟨fun hunset => ⟨Bool.eq_false_iff.mpr hfield, hfact.1 hunset⟩, hfact.2⟩

theorem persists_printedWhole : Persists (PrintedWhole (ε := ε) t requestId printed) := by
  intro e log h hwhole
  obtain hset | ⟨⟨payload, hread, hpayload⟩, payload', hread', hpayload'⟩ := h hwhole
  · exact .inl (List.mem_cons_of_mem e hset)
  · exact .inr ⟨⟨payload, persists_read e log hread, hpayload⟩,
      payload', persists_read e log hread', hpayload'⟩

end Results

section Stages

variable {uid : Nat} {text : Text}

theorem persists_true : Persists (fun _ : Log ε => True) := fun _ _ _ => trivial

/-- A result that tells of a failure, after the cleanup and another look at the event. -/
theorem cleanup_failed {f : Bool → CommandResult} (hF : Persists F) (hf : ∀ stop, (f stop).success = false) :
    Meets (Open w requestId F) (do
      let _ ← cleanupExecution w (executionPaths requestId)
      let stop ← cancelled w
      pure (f stop))
      (fun result => Done w requestId (Successful t requestId uid result)) (fun _ => Ended requestId) := by
  refine Meets.bind (cleanupExecution_done hF) fun _ => Meets.bind (cancelled_done hF) fun stop => ?_
  exact Meets.pure fun log hlog => hlog.mono fun _ => successful_of_failed (hf stop)

theorem concludeExecution_done : Meets (Open w requestId (Waited requestId text))
    (concludeExecution t w requestId text uid)
    (fun result => Done w requestId (Successful t requestId uid result)) (fun _ => Ended requestId) := by
  rw [concludeExecution]
  cases hread : readFields t text requestId uid with
  | none =>
    refine Meets.bind (readPrinted_done (t := t) persists_waited) fun printed => ?_
    exact Meets.pure fun log hlog => hlog.mono fun _ => successful_of_failed rfl
  | some found =>
    cases found with
    | inr statusFields => exact cleanup_failed persists_waited (fun stop => failed_ite rfl rfl)
    | inl fields =>
      refine Meets.bind (readPrinted_done (t := t) persists_waited) fun printed => ?_
      refine Meets.bind (wasCancelled_done (persists_printedWhole.and persists_waited)) fun isCancelled => ?_
      exact Meets.pure fun log hlog => hlog.mono fun hfact =>
        resultOf_verified hfact.2.2 hread hfact.2.1 hfact.1

theorem stopExecution_open (hF : Persists F) : Meets (Open w requestId F) (stopExecution t w requestId)
    (fun _ => Open w requestId F) (fun _ => Ended requestId) := by
  refine Meets.bind (runShell_open hF (cancelScript_ne _)) fun _ => ?_
  refine Meets.bind (runShell_open ((persists_mem _).and hF) (startScript_ne _ _ _ _ _)) fun _ => ?_
  exact Meets.pure fun log hlog => hlog.mono fun hfact => hfact.2.2

theorem waitForExecutionResult_open {timeout : Int} {watched : Bool} (hF : Persists F) :
    Meets (Open w requestId F) (waitForExecutionResult w (executionPaths requestId) timeout watched)
      (fun wait => Open w requestId (fun log => Waited requestId wait.stdout log ∧ F log))
      (fun _ => Ended requestId) := by
  refine (runShell_open hF (waitScript_ne _ _)).mono (fun _ h => h) (fun wait log hlog => ?_) (fun _ _ h => h)
  exact hlog.mono fun hfact => ⟨⟨_, _, _, wait, hfact.1, rfl⟩, hfact.2⟩

theorem awaitMetadata_open {wait : CommandResult} :
    Meets (Open w requestId (Waited requestId wait.stdout)) (awaitMetadata t w requestId wait)
      (fun text => Open w requestId (Waited requestId text)) (fun _ => Ended requestId) := by
  refine Meets.bind (cancelled_open persists_waited) fun stop => Meets.ite (fun _ => ?_) (fun _ => ?_)
  · refine Meets.bind ((stopExecution_open (t := t) persists_true).mono Open.forget
      (fun _ _ h => h) (fun _ _ h => h)) fun _ => ?_
    refine Meets.bind (waitForExecutionResult_open persists_true) fun finalWait => ?_
    exact Meets.pure fun log hlog => hlog.mono And.left
  · exact Meets.pure fun log hlog => hlog.mono And.right

theorem awaitExecution_done {timeoutSeconds : Int} {warning : Text} : Meets (Open w requestId (fun _ => True))
    (awaitExecution t w requestId timeoutSeconds warning uid)
    (fun result => Done w requestId (Successful t requestId uid result)) (fun _ => Ended requestId) := by
  refine Meets.bind (waitForExecutionResult_open persists_true) fun wait => ?_
  refine Meets.bind (awaitMetadata_open.mono (fun log hlog => hlog.mono And.left) (fun _ _ h => h) (fun _ _ h => h))
    fun text => Meets.ite (fun _ => ?_) (fun _ => concludeExecution_done)
  refine Meets.bind (stopExecution_open persists_waited) fun _ => ?_
  exact cleanup_failed persists_waited (fun stop => failed_ite rfl (by rfl))

/-- The cleanup, and a result that tells of a failure. -/
theorem cleanup_rejected {result : CommandResult} (hF : Persists F) (hresult : result.success = false) :
    Meets (Open w requestId F) (do
      let _ ← cleanupExecution w (executionPaths requestId)
      pure result)
      (fun result => Done w requestId (Successful t requestId uid result)) (fun _ => Ended requestId) := by
  refine Meets.bind (cleanupExecution_done hF) fun _ => ?_
  exact Meets.pure fun log hlog => hlog.mono fun _ => successful_of_failed hresult

theorem startExecution_done {timeoutSeconds : Int} : Meets (Open w requestId (fun _ => True))
    (startExecution t w requestId timeoutSeconds uid)
    (fun result => Done w requestId (Successful t requestId uid result)) (fun _ => Ended requestId) := by
  refine Meets.bind (runShell_open persists_true (prepareStatusScript_ne _)) fun statusPrepare => ?_
  refine Meets.bind ((cancelled_open persists_true).mono Open.forget (fun _ _ h => h) (fun _ _ h => h)) fun stop =>
    Meets.ite (fun _ => ?_) (fun _ => ?_)
  · exact (cleanup_rejected persists_true rfl).mono Open.forget (fun _ _ h => h) (fun _ _ h => h)
  refine Meets.bind ((runShell_open persists_true (startScript_ne _ _ _ _ _)).mono Open.forget (fun _ _ h => h)
    (fun _ _ h => h)) fun start => ?_
  refine Meets.bind ((cancelled_open persists_true).mono Open.forget (fun _ _ h => h) (fun _ _ h => h)) fun stop =>
    Meets.ite (fun _ => ?_) (fun _ => ?_)
  · refine Meets.bind ((stopExecution_open persists_true).mono Open.forget (fun _ _ h => h) (fun _ _ h => h))
      fun _ => ?_
    exact cleanup_rejected persists_true (failed_ite rfl rfl)
  · exact awaitExecution_done.mono Open.forget (fun _ _ h => h) (fun _ _ h => h)

end Stages

section Beginning

variable {uid : Nat} {expectedUid : Option Int}

/-- Nothing of a request is on the phone. -/
structure Unsent (w : World ε) (requestId : Text) (log : Log ε) : Prop where
  unwritten : ∀ e ∈ log, ¬e.isWrite
  kept : ∀ e ∈ log, ¬e.isCleanup (executionPaths requestId).values
  unraised : ∀ e ∈ log, ¬e.raised
  seen : Seen w log

theorem Unsent.cons {e : Event ε} {log : Log ε} (h : Unsent w requestId log) (hwrite : ¬e.isWrite)
    (hkept : ¬e.isCleanup (executionPaths requestId).values) (hraised : ¬e.raised)
    (hseen : e = .cancelled true → w.isSet log = true) : Unsent w requestId (e :: log) where
  unwritten := List.forall_mem_cons.mpr ⟨hwrite, h.unwritten⟩
  kept := List.forall_mem_cons.mpr ⟨hkept, h.kept⟩
  unraised := List.forall_mem_cons.mpr ⟨hraised, h.unraised⟩
  seen := h.seen.cons hseen

/-- Where an execution that returns ends. -/
structure Finished (t : Tables) (requestId : Text) (expectedUid : Option Int) (result : CommandResult)
    (log : Log ε) : Prop where
  removed : Removed requestId log
  undisturbed : Undisturbed requestId log
  successful : result.success = true → ∃ uid text fields, verifiedUid expectedUid = some uid ∧
    Verified t requestId uid result log text fields

theorem Unsent.finished {log : Log ε} {result : CommandResult} (h : Unsent w requestId log)
    (hresult : result.success = false) : Finished t requestId expectedUid result log where
  removed := followed_of_forall h.unwritten
  undisturbed := fun e hmem hraised => absurd hraised (h.unraised e hmem)
  successful := fun hsuccess => by
    rw [hresult] at hsuccess
    cases hsuccess

theorem Unsent.ended {log : Log ε} (h : Unsent w requestId log) : Ended requestId log :=
  iff_of_true (followed_of_forall h.unwritten) (fun e hmem hraised => absurd hraised (h.unraised e hmem))

theorem Done.finished {log : Log ε} {result : CommandResult}
    (h : Done w requestId (Successful t requestId uid result) log) (huid : verifiedUid expectedUid = some uid) :
    Finished t requestId expectedUid result log where
  removed := h.removed
  undisturbed := h.undisturbed
  successful := fun hsuccess => by
    obtain ⟨text, fields, hverified⟩ := h.fact hsuccess
    exact ⟨uid, text, fields, huid, hverified⟩

theorem cancelled_unsent : Meets (Unsent w requestId) (cancelled w) (fun _ => Unsent w requestId)
    (fun _ => Ended requestId) :=
  Meets.look fun _ hlog => hlog.cons id id id (fun h => Event.cancelled.inj h)

theorem currentState_unsent {prepared : Option ShizukuState} : Meets (Unsent w requestId) (currentState w prepared)
    (fun _ => Unsent w requestId) (fun _ => Ended requestId) := by
  cases prepared with
  | some state => exact Meets.pure fun _ h => h
  | none =>
    refine Meets.ask (fun log state hlog _ => ?_) (fun log e hlog _ => ?_)
    · exact hlog.cons id id id (fun h => by cases h)
    · exact (hlog.cons (e := .status (.error e)) id id id (fun h => by cases h)).ended

theorem writeRequest_open {payload : Bytes} : Meets (Unsent w requestId)
    (writeRequest w payload (executionPaths requestId)) (fun _ => Open w requestId (fun _ => True))
    (fun _ => Ended requestId) := by
  refine Meets.ask (fun log result hlog _ => ?_) (fun log e hlog _ => ?_)
  · exact ⟨⟨_, List.mem_cons_self, trivial⟩, List.forall_mem_cons.mpr ⟨id, hlog.kept⟩,
      List.forall_mem_cons.mpr ⟨id, hlog.unraised⟩, hlog.seen.cons (fun h => by cases h), trivial⟩
  · refine iff_of_false (not_followed ⟨_, List.mem_cons_self, trivial⟩
      (List.forall_mem_cons.mpr ⟨id, hlog.kept⟩)) fun hundisturbed => ?_
    exact hundisturbed _ List.mem_cons_self trivial

theorem sendRequest_done {payload : Bytes} {timeoutSeconds : Int} : Meets (Unsent w requestId)
    (sendRequest t w requestId payload timeoutSeconds uid)
    (fun result => Done w requestId (Successful t requestId uid result)) (fun _ => Ended requestId) := by
  refine Meets.bind writeRequest_open fun prepare => ?_
  refine Meets.bind (cancelled_open persists_true) fun stop => Meets.ite (fun _ => ?_) (fun _ => ?_)
  · exact (cleanup_rejected persists_true (failed_ite rfl rfl)).mono Open.forget (fun _ _ h => h) (fun _ _ h => h)
  · exact startExecution_done.mono Open.forget (fun _ _ h => h) (fun _ _ h => h)

/-- Every way through an execution. -/
theorem executeArgvSerialized_meets {arguments : List Text} {timeout : Option Int}
    {preparedSession : Option ShizukuState} {id : RequestId} : Meets (Unsent w id.text)
    (executeArgvSerialized t w arguments timeout expectedUid preparedSession id)
    (Finished t id.text expectedUid) (fun _ => Ended id.text) := by
  have hfailed : ∀ result : CommandResult, result.success = false →
      Meets (Unsent w id.text) (pure result) (Finished t id.text expectedUid) (fun _ : ε => Ended id.text) :=
    fun result hresult => Meets.pure fun log hlog => hlog.finished hresult
  refine Meets.bind cancelled_unsent fun stop => Meets.ite (fun _ => hfailed _ rfl) (fun _ => ?_)
  cases huid : verifiedUid expectedUid with
  | none => exact hfailed _ rfl
  | some uid =>
    refine Meets.ite (fun _ => hfailed _ rfl) (fun _ => ?_)
    refine Meets.bind currentState_unsent fun state => Meets.bind cancelled_unsent fun stop => ?_
    refine Meets.ite (fun _ => hfailed _ rfl) (fun _ => Meets.ite (fun _ => hfailed _ rfl) fun _ => ?_)
    refine Meets.ite (fun _ => hfailed _ rfl) (fun _ => Meets.ite (fun _ => hfailed _ rfl) fun _ => ?_)
    exact sendRequest_done.mono (fun _ h => h) (fun result log hlog => hlog.finished huid) (fun _ _ h => h)

end Beginning

end Ends

section Requests

variable (t : Tables) (w : World ε) (arguments : List Text) (timeout expectedUid : Option Int)
  (preparedSession : Option ShizukuState) (requestId : RequestId)

/-- The files of a request are removed and a success is verified. -/
structure Cleared (run : Except ε CommandResult × Log ε) : Prop where
  removed : Removed requestId.text run.2
  successful : ∀ result, run.1 = .ok result → result.success = true → ∃ uid text fields,
    verifiedUid expectedUid = some uid ∧ Verified t requestId.text uid result run.2 text fields

theorem unsent_nil : Unsent w requestId.text [] where
  unwritten := List.forall_mem_nil _
  kept := List.forall_mem_nil _
  unraised := List.forall_mem_nil _
  seen := fun h => absurd h List.not_mem_nil

/-- The files of a request stay exactly when a call of the client, the cleanup apart, raises. -/
theorem request_files_removed_iff :
    Cleared t expectedUid requestId
        (executeArgvSerialized t w arguments timeout expectedUid preparedSession requestId []) ↔
      Undisturbed requestId.text
        (executeArgvSerialized t w arguments timeout expectedUid preparedSession requestId []).2 := by
  have hmeets : Outcome (Finished t requestId.text expectedUid) (fun _ => Ended requestId.text)
      (executeArgvSerialized t w arguments timeout expectedUid preparedSession requestId []) :=
    executeArgvSerialized_meets [] (unsent_nil w requestId)
  cases hrun : executeArgvSerialized t w arguments timeout expectedUid preparedSession requestId [] with
  | mk result log =>
    rw [hrun] at hmeets
    cases result with
    | ok result =>
      refine iff_of_true ⟨hmeets.removed, fun result' hok => ?_⟩ hmeets.undisturbed
      cases hok
      exact hmeets.successful
    | error e =>
      constructor
      · intro hcleared
        exact Iff.mp hmeets hcleared.removed
      · intro hundisturbed
        refine ⟨Iff.mpr hmeets hundisturbed, fun result' hok => ?_⟩
        cases hok

def Tables.ascii : Tables where
  toUnicodeData := UnicodeData.ascii
  alnum c := c.isAlphanum
  b64decode := OpenAdb.Lib.Base64.decode
  decodeReplace := Utf8Decoder.replacing.decode

/-- The client raises when the result is waited for, and carries out whatever else it is told. -/
def lostWait : World Unit where
  isSet _ := false
  sticky _ _ h := h
  checkStatus _ := .ok ⟨"ready".toList, true, "granted".toList, some 2000, []⟩
  adb _ call := match call with
    | .shell _ 148 _ => .error ()
    | _ => .ok ⟨some 0, [], [], true, [], []⟩
  binary := none

def zeros : RequestId := ⟨List.replicate 32 '0', by decide⟩

def lostRun : Except Unit CommandResult × Log Unit :=
  executeArgvSerialized Tables.ascii lostWait [['i', 'd']] none (some 2000) none zeros []

/-- A call that raised and is no removal of files. -/
def Event.lost : Event Unit → Bool
  | .adb (.shell script _ _) (.error _) => decide (script.take 2 ≠ ['r', 'm'])
  | _ => false

theorem lostRun_raises : lostRun.1.isOk = false ∧ lostRun.2.any Event.lost = true := by decide +kernel

theorem Event.not_cleanup_of_lost {e : Event Unit} {files : List Text} (h : e.lost = true) :
    e.raised ∧ ¬e.isCleanup files := by
  cases e with
  | cancelled set => cases h
  | status reply => cases h
  | binary path reply => cases h
  | adb call reply =>
    cases call with
    | inputStream script payload => cases h
    | shell script timeout watched =>
      cases reply with
      | ok result => cases h
      | error e => exact ⟨trivial, not_removeFiles (of_decide_eq_true h)⟩

/-- The files stay where the client raises while it waits for the result. -/
theorem lost_wait_leaves_files : ¬Cleared Tables.ascii (some 2000) zeros lostRun := by
  intro hcleared
  obtain ⟨hraised, hlost⟩ := lostRun_raises
  obtain ⟨e, hmem, he⟩ := List.any_eq_true.mp hlost
  obtain ⟨hraise, hkept⟩ : e.raised ∧ ¬e.isCleanup (executionPaths zeros.text).values :=
    Event.not_cleanup_of_lost he
  have hmeets : Outcome (Finished Tables.ascii zeros.text (some 2000)) (fun _ => Ended zeros.text) lostRun :=
    executeArgvSerialized_meets [] (unsent_nil lostWait zeros)
  cases hrun : lostRun with
  | mk result log =>
    rw [hrun] at hcleared hmeets hraised hmem
    cases result with
    | ok result => cases hraised
    | error _ => exact hkept (Iff.mp hmeets hcleared.removed e hmem hraise)

end Requests

end OpenAdb.Shizuku.Execution
