import OpenAdb.Acbridge.Maintenance

namespace OpenAdb.Acbridge.Trust

open OpenAdb.Lib.PyText OpenAdb.Lib.PyLines OpenAdb.Lib.Encoding OpenAdb.Lib.Effects OpenAdb.Lib.EventLog
open OpenAdb.Commands.Results (CommandResult contains formatInt)
open OpenAdb.Acbridge.Device OpenAdb.Acbridge.Probe OpenAdb.Acbridge.Maintenance

section
variable (u : Tables) (sha256 : Bytes → Bytes) (w : World)

/-- The second reading of the version, after an installation. -/
def confirmInstalled (requireCurrent : Bool) : Exchange (Bool × Text) := do
  let probe ← probeInstalledVersion u w
  let installedVersion := probe.versionCode.getD 0
  if probe.state = .cancelled then pure (false, orElse [probe.message] "ACBridge setup was cancelled.".toList)
  else if probe.state = .queryFailed then
    pure (false, orElse [probe.message] "Android could not confirm the installed ACBridge version.".toList)
  else if probe.state = .installed ∧ versionCode ≤ installedVersion then
    pure (true, "ACBridge installed from bundled APK (versionCode ".toList ++ formatNat installedVersion ++ ").".toList)
  else if probe.state = .installed then
    pure (false, "ACBridge install command finished, but Android reported versionCode ".toList ++
      formatNat installedVersion ++ "; required versionCode ".toList ++ formatNat versionCode ++ ['.'])
  else if requireCurrent = true then
    pure (false, "ACBridge install command finished, but Android did not report the required versionCode ".toList ++
      formatNat versionCode ++ ['.'])
  else pure (false, ("ACBridge install command finished, but Android does not report the helper package " ++
    "as installed.").toList)

def ensureInstalledUnlocked (requireCurrent : Bool) : Exchange (Bool × Text) := do
  let early ← check w
  if early = true then pure (false, "ACBridge setup was cancelled before it started.".toList)
  else do
    let probe ← probeInstalledVersion u w
    let installedVersion := probe.versionCode.getD 0
    if probe.state = .cancelled then pure (false, orElse [probe.message] "ACBridge setup was cancelled.".toList)
    else if probe.state = .queryFailed then
      pure (false, orElse [probe.message] "Android could not report the installed ACBridge version.".toList)
    else if probe.state = .installed ∧ versionCode ≤ installedVersion then
      pure (true, "ACBridge is already installed (versionCode ".toList ++ formatNat installedVersion ++ ").".toList)
    else do
      let found ← apkExists w
      if found = false then
        pure (false, "ACBridge APK was not found at ".toList ++ w.apk ++
          ". Build it with tools/build_acbridge.py or place ACBridge.apk there.".toList)
      else do
        match ← watched w (installWithPermissions w) with
        | none => pure (false, "ACBridge setup was cancelled.".toList)
        | some result =>
          if result.success = false ∧
              looksLikeSignatureMismatch u (['\n'].intercalate [result.stdout, result.stderr, result.status]) = true then
            if 0 < installedVersion then
              if requireCurrent = true then
                pure (false, "This ACBridge operation requires bundled versionCode ".toList ++ formatNat versionCode ++
                  ", but Android reports an installed helper with versionCode ".toList ++ formatNat installedVersion ++
                  " and a different signature. Uninstall ".toList ++ package ++ " manually, then try again.".toList)
              else
                pure (true, "Using existing ACBridge versionCode ".toList ++ formatNat installedVersion ++
                  (". Bundled ACBridge could not update it because Android reports a signature mismatch; " ++
                  "OpenADB did not delete the existing helper.").toList)
            else
              pure (false, ("ACBridge is installed with a different signature. OpenADB will not delete it " ++
                "automatically; uninstall ").toList ++ package ++
                " manually if you want OpenADB to install the bundled helper.".toList)
          else if result.success = false then
            pure (false, orElse [result.status, result.stderr] "Unable to install ACBridge helper APK.".toList)
          else confirmInstalled u w requireCurrent

def ensureInstalled (requireCurrent : Bool) : Exchange (Bool × Text) := do
  let acquired ← installationGuard w
  if acquired = false then
    pure (false, "ACBridge setup was cancelled while waiting for another helper update.".toList)
  else ensureInstalledUnlocked u w requireCurrent

/-- When the event is set after the installation, the verification is left out. -/
def ensureTrusted : Exchange (Bool × Text) := do
  let installed ← ensureInstalled u w true
  if installed.1 = false then pure installed
  else do
    let cancelled ← check w
    if cancelled = true then pure installed
    else do
      let trusted ← verifyBundledApk u sha256 w
      if trusted.1 = false then pure (false, trusted.2) else pure (true, installed.2)

end

/-- `except (OSError, RuntimeError)`. -/
def catching {α : Type} (x : Exchange α) (handler : Text → Exchange α) : Exchange α := fun log =>
  match x log with
  | (.error (.operating text), later) => handler text later
  | outcome => outcome

/-- `finally`: an exception of the cleanup takes the place of the outcome. -/
def ensuring {α : Type} (x : Exchange α) (cleanup : Exchange Unit) : Exchange α := fun log =>
  match cleanup (x log).2 with
  | (.ok _, later) => ((x log).1, later)
  | (.error e, later) => (.error e, later)

def componentPackage : Text := "com.communism420.acbridge".toList

def component (name : String) : Text := package ++ '/' :: componentPackage ++ '.' :: name.toList

def activity : Text := component "CommandActivity"

def privilegeActivity : Text := component "PrivilegeActivity"

def permissionHostActivity : Text := component "PermissionHostActivity"

def permissionHostReceiver : Text := component "PermissionHostReceiver"

def hostStatusAuthority : Text := package ++ ".openadb.status".toList

def hostStatusUri (kind : String) (id : Text) : Text :=
  "content://".toList ++ hostStatusAuthority ++ '/' :: kind.toList ++ '/' :: id

def permissionHostProtocolHeader : Text := "OPENADB_PERMISSION_HOST_STATUS 1".toList

def contentDelete (uri : Text) : Text :=
  "content delete --uri ".toList ++ shellQuote uri ++ " >/dev/null 2>&1 || true".toList

/-- Text before and after the first separator, if there is one. -/
def partition (separator : Char) (s : Text) : Option (Text × Text) :=
  if separator ∈ s then some (s.takeWhile (· ≠ separator), (s.dropWhile (· ≠ separator)).tail) else none

/-- Lines of `key=value`, no key twice. -/
def statusFields (fields : List (Text × Text)) : List Text → Option (List (Text × Text))
  | [] => some fields
  | line :: lines =>
    match partition '=' line with
    | none => none
    | some (key, value) =>
      if fields.any (fun field => field.1 = key) = true then none else statusFields (fields ++ [(key, value)]) lines

def rstripReturn (line : Text) : Text := rstripChar '\r' line

/-- The reply is the header and exactly these fields. -/
def isHostState (id state stdout : Text) : Bool :=
  match (splitlines stdout).map rstripReturn with
  | [] => false
  | header :: lines =>
    if header ≠ permissionHostProtocolHeader then false
    else match statusFields [] lines with
      | none => false
      | some fields => fields.length = 2 && fields.contains ("request_id".toList, id) &&
          fields.contains ("state".toList, state)

section
variable (u : Tables) (sha256 : Bytes → Bytes) (w : World)

def runShell (script : Text) (watched : Bool) : Exchange CommandResult := command w ⟨shell script, watched⟩

def normalizeId (id : Text) : Text := casefold u.toUnicodeData (strip u.toUnicodeData id)

def waitScript (uri state : Text) (timeout : Nat) : Text :=
  "provider=".toList ++ shellQuote uri ++ "; deadline=$(( $(date +%s) + ".toList ++ formatNat timeout ++
    " )); expected=".toList ++ shellQuote ("state=".toList ++ state) ++
    ("; while [ \"$(date +%s)\" -lt \"$deadline\" ]; do " ++
    "payload=\"$(content read --uri \"$provider\" 2>/dev/null)\"; case \"$payload\" in \"").toList ++
    permissionHostProtocolHeader ++ ("\"*) case \"$payload\" in *\"$expected\"*) printf '%s\\n' \"$payload\"; " ++
    "exit 0;; esac;; esac; sleep 0.1; done; exit 124").toList

def waitForPermissionHostState (requestId state : Text) (timeout : Nat) : Exchange Bool :=
  let id := normalizeId u requestId
  if isRequestId id = false then pure false
  else catching (do
      let result ← runShell w (waitScript (hostStatusUri "permission_host" id) state timeout) false
      pure (result.success && isHostState id state result.stdout))
    (fun _ => pure false)

def dismissScript (id : Text) : Text :=
  "am broadcast --receiver-foreground -n ".toList ++ shellQuote permissionHostReceiver ++
    " --es operation dismiss --es request_id ".toList ++ shellQuote id

/-- Whether the dismissal could be delivered and was acknowledged. -/
def dismissOnce (id : Text) : Exchange Bool := do
  let delivered ← catching (do
      let _ ← runShell w (dismissScript id) false
      pure true)
    (fun _ => pure false)
  if delivered = true then waitForPermissionHostState u w id "closed".toList 6 else pure false

/-- None of its commands goes with the caller's event. -/
def dismissPermissionHost (requestId : Text) : Exchange Bool := do
  let id := normalizeId u requestId
  if isRequestId id = false then pure false
  else do
    let first ← dismissOnce u w id
    let closed ← (if first = true then pure true else dismissOnce u w id)
    catching (do
        let _ ← runShell w (contentDelete (hostStatusUri "permission_host" id)) false
        pure closed)
      (fun _ => pure closed)

structure PermissionHostResult where
  backend : Text
  requestId : Text
  started : Bool
  message : Text

def orUnknown (backend : Text) : Text := if backend = [] then "unknown".toList else backend

def clamp (low high n : Int) : Int := max low (min high n)

def hostStartScript (backend id : Text) (timeout : Int) : Text :=
  "am start -W -f 0x10000000 -n ".toList ++ shellQuote permissionHostActivity ++
    " --es operation open --es backend ".toList ++ shellQuote backend ++ " --es request_id ".toList ++
    shellQuote id ++ " --ei timeout_seconds ".toList ++ formatInt timeout

/-- What follows the gate: the host is opened, and closed again unless Android confirms it. -/
def openPermissionHost (selected : Text) (timeout : Int) : Exchange PermissionHostResult := do
  let requestId ← read (fun log => (w.requestId log).text)
  let refused := fun (message : Text) => do
    let _ ← dismissPermissionHost u w requestId
    pure ({ backend := selected, requestId := requestId, started := false, message := message } : PermissionHostResult)
  let start ← catching (do
      let _ ← runShell w (contentDelete (hostStatusUri "permission_host" requestId)) true
      let start ← runShell w (hostStartScript selected requestId (clamp 30 900 timeout)) true
      pure (Sum.inr start))
    (fun text => pure (Sum.inl text))
  match start with
  | .inl text => refused ("Android could not open the ACBridge permission host: ".toList ++ text)
  | .inr start => do
    let cancelled ← check w
    if cancelled = true then refused "ACBridge permission hosting was cancelled.".toList
    else if start.success = false then
      refused (orElse [start.status, start.stderr]
        "Android could not keep ACBridge in the foreground for the permission request.".toList)
    else do
      let ready ← waitForPermissionHostState u w requestId "ready".toList 12
      if ready = false then
        refused ("ACBridge opened, but Android did not confirm that its permission host had foreground focus. " ++
          "Unlock the device and try again.").toList
      else
        pure
          { backend := selected
            requestId := requestId
            started := true
            message := "Android confirmed that the ACBridge permission host is in the foreground.".toList }

def startPermissionHost (backend : Text) (timeout : Int) (bridgeIsCurrent : Bool) : Exchange PermissionHostResult := do
  let selected := normalizeId u backend
  let refused := fun (message : Text) =>
    ({ backend := orUnknown selected, requestId := [], started := false, message := message } : PermissionHostResult)
  if selected ≠ "root".toList ∧ selected ≠ "shizuku".toList then
    pure (refused "ACBridge permission hosting supports Root and Shizuku only.".toList)
  else do
    let early ← check w
    if early = true then pure (refused "ACBridge permission hosting was cancelled.".toList)
    else if bridgeIsCurrent = true then openPermissionHost u w selected timeout
    else do
      let installed ← ensureTrusted u sha256 w
      if installed.1 = false then
        pure (refused (orElse [installed.2] "The trusted ACBridge helper is unavailable.".toList))
      else openPermissionHost u w selected timeout

def remotePrivilegePrefix : Text := "/sdcard/.adac/privilege_status_".toList

def remoteAppDir : Text := "/sdcard/Android/data/".toList ++ package ++ "/files/openadb".toList

def remoteAppPrivilegePrefix : Text := remoteAppDir ++ "/privilege_status_".toList

/-- The result files of a request, and the temporary names beside them. -/
def privilegeFiles (id : Text) : List Text :=
  [remotePrivilegePrefix ++ id ++ ".txt".toList,
    "/sdcard/.adac/.privilege_status_".toList ++ id ++ ".txt.tmp".toList,
    remoteAppPrivilegePrefix ++ id ++ ".txt".toList,
    remoteAppDir ++ "/.privilege_status_".toList ++ id ++ ".txt.tmp".toList]

def removeFiles (files : List Text) : Text := "rm -f ".toList ++ [' '].intercalate (files.map shellQuote)

def prepareScript (id : Text) : Text :=
  contentDelete (hostStatusUri "privilege" id) ++ "; ".toList ++ removeFiles (privilegeFiles id) ++
    " >/dev/null 2>&1 || true".toList

def cleanupScript (id : Text) : Text :=
  removeFiles (privilegeFiles id) ++ " >/dev/null 2>&1 || true; ".toList ++
    contentDelete (hostStatusUri "privilege" id)

def privilegeStartScript (backend id hostId : Text) (timeout : Int) : Text :=
  "am start -n ".toList ++ shellQuote privilegeActivity ++
    " --es operation requestPrivilege --es backend ".toList ++ shellQuote backend ++
    " --es request_id ".toList ++ shellQuote id ++ " --ei timeout_seconds ".toList ++ formatInt timeout ++
    (if hostId = [] then [] else " --es permission_host_request_id ".toList ++ shellQuote hostId) ++
    " --ez endexit true".toList

def cancelScript (id : Text) : Text :=
  "am start -n ".toList ++ shellQuote privilegeActivity ++
    " --es operation cancelPrivilege --es request_id ".toList ++ shellQuote id ++ "; sleep 1; ".toList ++
    contentDelete (hostStatusUri "privilege" id) ++ "; ".toList ++ removeFiles (privilegeFiles id)

def privilegeWaitScript (id : Text) (timeout : Int) : Text :=
  "result1=".toList ++ shellQuote (remotePrivilegePrefix ++ id ++ ".txt".toList) ++ "; result2=".toList ++
    shellQuote (remoteAppPrivilegePrefix ++ id ++ ".txt".toList) ++ "; provider=".toList ++
    shellQuote (hostStatusUri "privilege" id) ++ "; deadline=$(( $(date +%s) + ".toList ++ formatInt timeout ++
    (" )); delay=0.2; while [ \"$(date +%s)\" -lt \"$deadline\" ]; do if [ -n \"$provider\" ]; then " ++
    "provider_payload=\"$(content read --uri \"$provider\" 2>/dev/null)\"; case \"$provider_payload\" in " ++
    "\"OPENADB_BRIDGE_PRIVILEGE_STATUS 1\"*) printf '%s\\n' \"$provider_payload\"; exit 0;; esac; fi; " ++
    "result_path=''; [ -s \"$result1\" ] && result_path=\"$result1\"; " ++
    "[ -z \"$result_path\" ] && [ -s \"$result2\" ] && result_path=\"$result2\"; " ++
    "if [ -n \"$result_path\" ]; then cat \"$result_path\" && exit 0; " ++
    "echo 'ACBridge privilege result exists but ADB shell cannot read it.' >&2; exit 13; fi; " ++
    "sleep \"$delay\"; done; " ++
    "echo 'ACBridge privilege result was not produced before timeout.' >&2; exit 1").toList

/-- A refusal with its state and message, or the payload that `_parse_privilege_result` reads. -/
inductive PrivilegeOutcome
  | refused (state message : Text)
  | payload (stdout : Text)

def PrivilegeOutcome.cancelled : PrivilegeOutcome :=
  .refused "cancelled".toList "ACBridge privilege request was cancelled.".toList

/-- A step whose `OSError` or `RuntimeError` is only logged. -/
def ignoring (script : Text) : Exchange Unit :=
  catching (do
      let _ ← runShell w script false
      pure ())
    (fun _ => pure ())

def cancelPrivilegeRequest (id : Text) : Exchange Unit := ignoring w (cancelScript id)

def cleanupPrivilegeResult (id : Text) : Exchange Unit := ignoring w (cleanupScript id)

def isUnreadable (raw : CommandResult) : Bool :=
  raw.exitCode = some 13 || contains "cannot read".toList (casefold u.toUnicodeData raw.stderr)

def awaitPrivilegeResult (id prepareWarning : Text) (timeout : Int) : Exchange PrivilegeOutcome := do
  let raw ← runShell w (privilegeWaitScript id timeout) true
  let cancelled ← check w
  if cancelled = true then do
    cancelPrivilegeRequest w id
    pure .cancelled
  else if raw.success = false then do
    cancelPrivilegeRequest w id
    let message := orElse [raw.stderr, raw.status] "ACBridge did not return a privilege decision before timeout.".toList
    pure (.refused (if isUnreadable u raw then "result_unreadable".toList else "timed_out".toList)
      (if prepareWarning = [] then message
        else message ++ " Shell-owned result preparation also failed: ".toList ++ prepareWarning))
  else pure (.payload raw.stdout)

/-- What follows the gate: the request is started, awaited and cleaned up. -/
def startPrivilegeRequest (selected hostId : Text) (timeout : Int) : Exchange PrivilegeOutcome := do
  let id ← read (fun log => (w.requestId log).text)
  let prepare ← runShell w (prepareScript id) true
  let cancelledEarly ← check w
  if cancelledEarly = true then pure .cancelled
  else do
    let warning := if prepare.success = true then []
      else orElse [prepare.stderr, prepare.status] "ACBridge could not prepare its privilege result channel.".toList
    let start ← runShell w (privilegeStartScript selected id hostId timeout) true
    let cancelled ← check w
    if cancelled = true then do
      cancelPrivilegeRequest w id
      cleanupPrivilegeResult w id
      pure .cancelled
    else if start.success = false then do
      cancelPrivilegeRequest w id
      cleanupPrivilegeResult w id
      pure (.refused "start_failed".toList
        (orElse [start.status, start.stderr] "ACBridge privilege request could not be started.".toList))
    else ensuring (awaitPrivilegeResult u w id warning timeout) (cleanupPrivilegeResult w id)

def requestPrivilegeAccess (backend : Text) (timeout : Int) (bridgeIsCurrent : Bool) (hostRequestId : Text) :
    Exchange PrivilegeOutcome := do
  let selected := normalizeId u backend
  if selected ≠ "standard".toList ∧ selected ≠ "root".toList then
    pure (.refused "unsupported".toList ("ACBridge privilege requests support Standard and Root only. " ++
      "Shizuku access is requested through ACBridge ShizukuActivity.").toList)
  else do
    let early ← check w
    if early = true then pure .cancelled
    else do
      let hostId := normalizeId u hostRequestId
      if hostId ≠ [] ∧ isRequestId hostId = false then
        pure (.refused "protocol_error".toList
          "OpenADB supplied an invalid permission-host request identifier.".toList)
      else do
        let installed ← (if bridgeIsCurrent = true then
            pure (true, "The trusted ACBridge helper was already verified for this host.".toList)
          else ensureTrusted u sha256 w)
        let cancelled ← check w
        if cancelled = true then pure .cancelled
        else if installed.1 = false then
          pure (.refused "unavailable".toList (orElse [installed.2] "The trusted ACBridge helper is unavailable.".toList))
        else startPrivilegeRequest u w selected hostId (clamp 5 300 timeout)

def suScript (script : Text) : Text := "su -c ".toList ++ shellQuote script

def hasRootUid (stdout : Text) : Bool := (splitlines stdout).any (fun line => strip u.toUnicodeData line = ['0'])

def rootAvailable : Exchange Bool := do
  let early ← check w
  if early = true then pure false
  else do
    match ← watched w (shell "id -u".toList) with
    | none => pure false
    | some direct =>
      if hasRootUid u direct.stdout = true then pure true
      else do
        match ← watched w (shell (suScript "id -u".toList)) with
        | none => pure false
        | some viaSu => pure (hasRootUid u viaSu.stdout)

def remoteDir : Text := "/sdcard/.adac".toList

def remoteDeleteResult : Text := "/sdcard/.adac/delete_result.txt".toList

def remoteAppDeleteResult : Text := remoteAppDir ++ "/delete_result.txt".toList

def prepareDeleteScript : Text :=
  let quiet := " >/dev/null 2>&1 || true".toList
  let quoted := shellQuote package
  "; ".toList.intercalate
    ["mkdir -p ".toList ++ shellQuote remoteDir ++ ' ' :: shellQuote remoteAppDir,
      "rm -f ".toList ++ shellQuote remoteDeleteResult ++ ' ' :: shellQuote remoteAppDeleteResult,
      "pm grant ".toList ++ quoted ++ " android.permission.WRITE_EXTERNAL_STORAGE".toList ++ quiet,
      "pm grant ".toList ++ quoted ++ " android.permission.READ_EXTERNAL_STORAGE".toList ++ quiet,
      "appops set ".toList ++ quoted ++ " android:legacy_storage allow".toList ++ quiet,
      "appops set ".toList ++ quoted ++ " MANAGE_EXTERNAL_STORAGE allow".toList ++ quiet,
      "appops set --uid ".toList ++ quoted ++ " MANAGE_EXTERNAL_STORAGE allow".toList ++ quiet,
      "chmod -R 0777 ".toList ++ shellQuote remoteDir ++ ' ' :: shellQuote remoteAppDir ++ quiet]

def formatBool (b : Bool) : Text := if b then "true".toList else "false".toList

def deleteScript (path : Text) (recursive useRoot : Bool) : Text :=
  "am start -n ".toList ++ shellQuote activity ++ " --es operation delete --es path ".toList ++ shellQuote path ++
    " --ez recursive ".toList ++ formatBool recursive ++ " --ez rootmode ".toList ++ formatBool useRoot ++
    " --ez endexit true".toList

def waitForDeleteScript (timeout : Int) : Text :=
  "result1=".toList ++ shellQuote remoteDeleteResult ++ "; result2=".toList ++ shellQuote remoteAppDeleteResult ++
    "; timeout=".toList ++ formatInt timeout ++
    ("; i=0; while [ \"$i\" -lt \"$timeout\" ]; do result_path=''; " ++
    "[ -s \"$result1\" ] && result_path=\"$result1\"; " ++
    "[ -z \"$result_path\" ] && [ -s \"$result2\" ] && result_path=\"$result2\"; " ++
    "if [ -n \"$result_path\" ]; then printf 'OPENADB_DELETE_RESULT '; cat \"$result_path\" 2>/dev/null; exit 0; " ++
    "fi; i=$((i + 1)); sleep 1; done; " ++
    "echo 'ERROR\tACBridge delete result was not produced before timeout.'; exit 1").toList

def runAs (root : Bool) (script : Text) : Exchange CommandResult :=
  runShell w (if root then suScript script else script) true

/-- What the helper reported, as the result of the command that waited for it. -/
def readDeleteResult (path : Text) (waited : CommandResult) : CommandResult :=
  let output := strip u.toUnicodeData (orElse [waited.stdout, waited.stderr] [])
  let output := if "OPENADB_DELETE_RESULT ".toList.isPrefixOf output
    then strip u.toUnicodeData (output.drop "OPENADB_DELETE_RESULT ".toList.length) else output
  if "OK\t".toList.isPrefixOf output then
    { waited with
      success := true
      exitCode := some 0
      status := orElse [strip u.toUnicodeData (output.drop 3)] ("Deleted through ACBridge: ".toList ++ path) }
  else if "ERROR\t".toList.isPrefixOf output then
    let status := orElse [strip u.toUnicodeData (output.drop 6)] ("ACBridge could not delete: ".toList ++ path)
    { waited with
      success := false
      exitCode := if waited.exitCode = none ∨ waited.exitCode = some 0 then some 1 else waited.exitCode
      status := status
      stderr := status }
  else if waited.success = true then
    { waited with status := orElse [output] ("ACBridge delete finished: ".toList ++ path) }
  else
    { waited with status := orElse [output, waited.status] ("ACBridge delete timed out for: ".toList ++ path) }

/-- Look for the path again after a deletion that was reported. -/
def checkDeleted (path : Text) (result : CommandResult) : Exchange CommandResult := do
  let verify ← runShell w ("if [ -e ".toList ++ shellQuote path ++ " ]; then echo exists; exit 1; fi".toList) true
  let status := result.status ++ " Android still reports this path after ACBridge delete attempt: ".toList ++ path
  pure (if verify.success = true then result
    else { result with success := false, exitCode := some 1, status := status, stderr := status })

/-- What follows the gate: the helper is told to delete the path, and the path is looked for afterwards. -/
def deleteThroughBridge (path : Text) (recursive useRoot : Bool) (timeout : Int) : Exchange CommandResult := do
  let rootAvailable ← (if useRoot = true then rootAvailable u w else pure false)
  let cancelledEarly ← check w
  if cancelledEarly = true then pure { cancelledBeforeStart with status := "Cancelled by user".toList }
  else do
    let _ ← runAs w rootAvailable prepareDeleteScript
    let cancelled ← check w
    if cancelled = true then pure { cancelledBeforeStart with status := "Cancelled by user".toList }
    else do
      let start ← runAs w rootAvailable (deleteScript path recursive rootAvailable)
      if start.success = false then
        pure { start with
          status := orElse [start.status, start.stderr] "ACBridge delete operation could not be started.".toList }
      else do
        let waited ← runShell w (waitForDeleteScript (max 10 timeout)) true
        let result := readDeleteResult u path waited
        let result ← (if result.success = true then checkDeleted w path result else pure result)
        pure (if rootAvailable = true ∧ result.status ≠ [] then
            { result with status := result.status ++ " Root mode: active.".toList } else result)

def deletePath (path : Text) (recursive useRoot : Bool) (timeout : Int) : Exchange CommandResult := do
  let early ← check w
  if early = true then pure { cancelledBeforeStart with status := "Cancelled by user".toList }
  else do
    let installed ← ensureTrusted u sha256 w
    let cancelled ← check w
    if cancelled = true then pure { cancelledBeforeStart with status := "Cancelled by user".toList }
    else if installed.1 = false then do
      let result ← runShell w "true".toList true
      pure { result with success := false, exitCode := some 1, status := installed.2, stderr := installed.2 }
    else deleteThroughBridge u w path recursive useRoot timeout

end

variable {α β : Type} {u : Tables} {sha256 : Bytes → Bytes} {w : World} {P : Log → Prop}

theorem Meets.catching {x : Exchange α} {handler : Text → Exchange α} {Q : α → Log → Prop} {E E' : Raised → Log → Prop}
    (hx : Meets P x Q E) (hhandler : ∀ text, Meets (E (.operating text)) (handler text) Q E')
    (hvalue : ∀ log, E .value log → E' .value log) : Meets P (catching x handler) Q E' := by
  intro log hlog
  have h := hx log hlog
  rw [Trust.catching]
  cases hrun : x log with
  | mk outcome later =>
    rw [hrun] at h
    match outcome, h with
    | .ok a, h => exact h
    | .error .value, h => exact hvalue later h
    | .error (.operating text), h => exact hhandler text later h

/-- Whatever holds on along all events holds after the task, if it did before. -/
def Kept (x : Exchange α) : Prop := ∀ P, Stable (fun _ => True) P → Meets P x (fun _ => P) (fun _ => P)

theorem Kept.pure (a : α) : Kept (pure a : Exchange α) := fun _ _ => Meets.pure fun _ h => h

theorem Kept.bind {x : Exchange α} {f : α → Exchange β} (hx : Kept x) (hf : ∀ a, Kept (f a)) : Kept (x >>= f) :=
  fun P hP => Meets.bind (hx P hP) fun a => hf a P hP

theorem Kept.ite {c : Prop} [Decidable c] {x y : Exchange α} (hx : c → Kept x) (hy : ¬c → Kept y) :
    Kept (if c then x else y) :=
  fun P hP => Meets.ite (fun h => hx h P hP) (fun h => hy h P hP)

theorem Kept.read (f : Log → α) : Kept (read f : Exchange α) := fun _ _ => Meets.read fun _ h => h

theorem Kept.check : Kept (check w) := fun _ hP => Meets.look fun log h => hP log _ (only_of_call rfl) h

theorem Kept.command (call : Call) : Kept (command w call) := fun _ hP =>
  (start_keeps (hP.call trivial) (fun _ => rfl) (fun _ => rfl)).mono (fun _ h => h) (fun _ _ h => h.1) (fun _ _ h => h)

theorem Kept.runShell (script : Text) (watched : Bool) : Kept (runShell w script watched) := Kept.command _

theorem Kept.heeding {x : Exchange α} (hx : Kept x) : Kept (heeding w x) :=
  hx.bind fun _ => Kept.check.bind fun _ => Kept.pure _

theorem Kept.catching {x : Exchange α} {handler : Text → Exchange α} (hx : Kept x) (hh : ∀ text, Kept (handler text)) :
    Kept (catching x handler) :=
  fun P hP => Meets.catching (hx P hP) (fun text => hh text P hP) (fun _ h => h)

theorem Kept.ensuring {x : Exchange α} {cleanup : Exchange Unit} (hx : Kept x) (hc : Kept cleanup) :
    Kept (ensuring x cleanup) := by
  intro P hP log hlog
  have hlater : P (x log).2 := by
    have h := hx P hP log hlog
    cases hrun : x log with
    | mk outcome later =>
      rw [hrun] at h
      cases outcome <;> exact h
  have h := hc P hP _ hlater
  rw [Trust.ensuring]
  cases hrun : cleanup (x log).2 with
  | mk outcome later =>
    rw [hrun] at h
    cases outcome with
    | error e => exact h
    | ok _ =>
      cases (x log).1 <;> exact h

theorem Kept.ignoring (script : Text) : Kept (ignoring w script) :=
  Kept.catching ((Kept.runShell script false).bind fun _ => Kept.pure _) fun _ => Kept.pure _

theorem kept_wait (requestId state : Text) (timeout : Nat) :
    Kept (waitForPermissionHostState u w requestId state timeout) :=
  Kept.ite (fun _ => Kept.pure _) fun _ =>
    Kept.catching ((Kept.runShell _ false).bind fun _ => Kept.pure _) fun _ => Kept.pure _

theorem kept_dismissOnce (id : Text) : Kept (dismissOnce u w id) :=
  Kept.bind (Kept.catching ((Kept.runShell _ false).bind fun _ => Kept.pure _) fun _ => Kept.pure _) fun _ =>
    Kept.ite (fun _ => kept_wait _ _ _) fun _ => Kept.pure _

theorem kept_dismiss (requestId : Text) : Kept (dismissPermissionHost u w requestId) :=
  Kept.ite (fun _ => Kept.pure _) fun _ => (kept_dismissOnce _).bind fun _ =>
    Kept.bind (Kept.ite (fun _ => Kept.pure _) fun _ => kept_dismissOnce _) fun _ =>
      Kept.catching ((Kept.runShell _ false).bind fun _ => Kept.pure _) fun _ => Kept.pure _

theorem kept_openPermissionHost (selected : Text) (timeout : Int) : Kept (openPermissionHost u w selected timeout) := by
  refine (Kept.read _).bind fun requestId => ?_
  have hrefused : ∀ message : Text, Kept (do
      let _ ← dismissPermissionHost u w requestId
      pure ({ backend := selected, requestId := requestId, started := false, message := message } :
        PermissionHostResult)) :=
    fun message => (kept_dismiss requestId).bind fun _ => Kept.pure _
  refine (Kept.catching ((Kept.runShell _ true).bind fun _ => (Kept.runShell _ true).bind fun _ => Kept.pure _)
    fun _ => Kept.pure _).bind fun started => ?_
  cases started with
  | inl text => exact hrefused _
  | inr result =>
    refine Kept.check.bind fun _ => Kept.ite (fun _ => hrefused _) fun _ => Kept.ite (fun _ => hrefused _) fun _ => ?_
    exact (kept_wait _ _ _).bind fun _ => Kept.ite (fun _ => hrefused _) fun _ => Kept.pure _

theorem kept_startPrivilegeRequest (selected hostId : Text) (timeout : Int) :
    Kept (startPrivilegeRequest u w selected hostId timeout) := by
  have hawait : ∀ id warning, Kept (awaitPrivilegeResult u w id warning timeout) := fun id warning =>
    (Kept.runShell _ true).bind fun _ => Kept.check.bind fun _ =>
      Kept.ite (fun _ => (Kept.ignoring _).bind fun _ => Kept.pure _) fun _ =>
        Kept.ite (fun _ => (Kept.ignoring _).bind fun _ => Kept.pure _) fun _ => Kept.pure _
  refine (Kept.read _).bind fun id => (Kept.runShell _ true).bind fun _ => Kept.check.bind fun _ =>
    Kept.ite (fun _ => Kept.pure _) fun _ => (Kept.runShell _ true).bind fun _ => Kept.check.bind fun _ => ?_
  refine Kept.ite (fun _ => (Kept.ignoring _).bind fun _ => (Kept.ignoring _).bind fun _ => Kept.pure _) fun _ => ?_
  exact Kept.ite (fun _ => (Kept.ignoring _).bind fun _ => (Kept.ignoring _).bind fun _ => Kept.pure _) fun _ =>
    (hawait _ _).ensuring (Kept.ignoring _)

theorem kept_rootAvailable : Kept (rootAvailable u w) := by
  refine Kept.check.bind fun _ => Kept.ite (fun _ => Kept.pure _) fun _ => (Kept.command _).heeding.bind fun direct => ?_
  cases direct with
  | none => exact Kept.pure _
  | some direct =>
    refine Kept.ite (fun _ => Kept.pure _) fun _ => (Kept.command _).heeding.bind fun viaSu => ?_
    cases viaSu with
    | none => exact Kept.pure _
    | some viaSu => exact Kept.pure _

theorem kept_deleteThroughBridge (path : Text) (recursive useRoot : Bool) (timeout : Int) :
    Kept (deleteThroughBridge u w path recursive useRoot timeout) := by
  refine Kept.bind (Kept.ite (fun _ => kept_rootAvailable) fun _ => Kept.pure _) fun _ => Kept.check.bind fun _ =>
    Kept.ite (fun _ => Kept.pure _) fun _ => (Kept.runShell _ true).bind fun _ => Kept.check.bind fun _ => ?_
  refine Kept.ite (fun _ => Kept.pure _) fun _ => (Kept.runShell _ true).bind fun _ =>
    Kept.ite (fun _ => Kept.pure _) fun _ => (Kept.runShell _ true).bind fun _ => ?_
  exact Kept.bind (Kept.ite (fun _ => (Kept.runShell _ true).bind fun _ => Kept.pure _) fun _ => Kept.pure _)
    fun _ => Kept.pure _

end OpenAdb.Acbridge.Trust
