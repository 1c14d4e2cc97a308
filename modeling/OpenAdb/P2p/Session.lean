import OpenAdb.Acbridge.Device
import OpenAdb.Commands.Scopes
import OpenAdb.Files.Listing
import OpenAdb.P2p.ControlChannel
import OpenAdb.P2p.Entry
import OpenAdb.P2p.Wire

namespace OpenAdb.P2p.Session

open OpenAdb.Lib.PyText OpenAdb.Lib.PyLines OpenAdb.Lib.Encoding OpenAdb.Lib.Effects OpenAdb.Lib.EventLog
open OpenAdb.Acbridge.Device (RequestId)
open OpenAdb.Commands.Results (CommandResult applyScopedLogCommand contains)
open OpenAdb.Commands.Scopes (CommandRunner scopedLogCommand Harmless)
open OpenAdb.Files.Listing (parseInt)
open OpenAdb.P2p.Bootstrap (HexSecret clampTimeout requestText)
open OpenAdb.P2p.ControlChannel (ControlError)
open OpenAdb.P2p.Destination (normalizeDestination)
open OpenAdb.P2p.Entry (P2PEntry)
open OpenAdb.P2p.Wire (Crypto)

/-- The classes of exceptions that the clauses tell apart, with their texts. A timeout is an
`OSError` too. -/
inductive Fault
  | transfer (message : Text)
  | timeout (message : Text)
  | os (message : Text)
  | eof (message : Text)
  | value (message : Text)
  | other (message : Text)
  deriving DecidableEq

def Fault.text : Fault → Text
  | .transfer message | .timeout message | .os message | .eof message | .value message | .other message => message

def Fault.className : Fault → Text
  | .transfer _ => "P2PTransferError".toList
  | .timeout _ => "TimeoutError".toList
  | .os _ => "OSError".toList
  | .eof _ => "EOFError".toList
  | .value _ => "ValueError".toList
  | .other _ => "Exception".toList

/-- What the methods of a control channel raise: their own errors and those of the socket. -/
inductive ChannelFault
  | control (e : ControlError)
  | os (message : Text)

def ChannelFault.fault : ChannelFault → Fault
  | .control (.transfer message) => .transfer message
  | .control (.timeout message) => .timeout message
  | .control (.eof message) => .eof message
  | .os message => .os message

/-- The adb commands of a session: `forward tcp:0 SPEC`, `forward --list`, `forward --remove LOCAL`,
and the two service commands. -/
inductive AdbCall
  | createForward (request_id : Text)
  | listForwards
  | removeForward (local_spec : Text)
  | startService (request_id : Text)
  | cancelService (session_id : Text)
  deriving DecidableEq

abbrev Reply := Except Fault CommandResult

structure P2PSession where
  host : Text
  port : Int
  token : Text
  expires_at_ms : Int
  session_id : Text

structure P2PTransferResult where
  success : Bool
  message : Text
  bytes_sent : Nat
  files_sent : Nat
  entries_sent : Nat

/-- What happens, in its order. The replies of adb are those of the process, before the runner. -/
inductive Event
  | check (set : Bool)
  | trusted (reply : Except Fault (Bool × Text))
  | addresses (reply : Except Fault (List Text))
  | drawn (request_id : RequestId)
  | adb (call : AdbCall) (reply : Reply)
  | recorded (port : Nat)
  | dialled (reply : Except Fault Unit)
  | configured (reply : Except Fault Unit)
  | opened (channel : Nat)
  | closed (channel : Nat)
  | socketClosed (reply : Except Fault Unit)
  | wrote (channel : Nat) (reply : Except Fault Unit)
  | line (channel : Nat) (reply : Except Fault Text)
  | granted (reply : Reply)
  | emitted (reply : Except Fault Unit)
  | connected (reply : Except Fault Unit)
  | disconnected
  | transferred (reply : Except Fault (Text × Nat × Nat))

abbrev Log := List Event

/-- What answers the program, as a function of the events before: the runner with its adb, the
sockets, the bridge, the callback, the clock, the random numbers, and whoever sets the event. The
loops with a deadline make the turns that the clock allows. -/
structure World where
  isSet : Log → Bool
  lockWaits : Log → Nat
  trusted : Log → Except Fault (Bool × Text)
  addresses : Log → Except Fault (List Text)
  uuid : Log → RequestId
  secret : Log → HexSecret
  adb : Log → AdbCall → Reply
  turns : Log → Nat
  dial : Log → Except Fault Unit
  configure : Log → Except Text Unit
  closeSocket : Log → Except Text Unit
  write : Log → Nat → Bytes → Except ChannelFault Unit
  line : Log → Nat → Except ChannelFault Text
  grant : Log → Text → Reply
  emit : Log → Except Fault Unit
  connect : Log → P2PSession → Except Fault Unit
  transfer : Log → P2PSession → List P2PEntry → Except Fault (Text × Nat × Nat)
  crypto : Crypto
  runner : CommandRunner
  harmless : ∀ request_id : RequestId, Harmless runner request_id.text

structure Handle where
  forward_port : Nat
  channel : Option Nat
  service_started : Bool
  deriving DecidableEq

/-- The log, the table of the client, and the locals that handlers read after a raise. The local
handle and its entry in the table are one object. -/
structure Process where
  log : Log
  handles : Text → Option Handle
  handle : Option Handle
  sock : Bool
  channel : Option Nat
  remote_terminal_status : Bool
  connected : Bool
  completed : Bool
  remote_terminal : Bool

def Process.start (handles : Text → Option Handle) : Process where
  log := []
  handles := handles
  handle := none
  sock := false
  channel := none
  remote_terminal_status := false
  connected := false
  completed := false
  remote_terminal := false

def opened (log : Log) : List Nat := log.filterMap fun
  | .opened channel => some channel
  | _ => none

abbrev Procedure (α : Type) := Effect Fault Process α

def asking {α : Type} (answer : Log → Except Fault α) (event : Except Fault α → Event) : Procedure α :=
  within Process.log (fun log p => { p with log := log }) (ask answer event)

def looking {α : Type} (answer : Log → α) (event : α → Event) : Procedure α :=
  within Process.log (fun log p => { p with log := log }) (look answer event)

def note (event : Event) : Procedure Unit := update fun p => { p with log := event :: p.log }

/-- `a or b` -/
def orElse (a b : Text) : Text := if a = [] then b else a

def redactExact (text : Text) (secrets_to_remove : List Text) : Text :=
  secrets_to_remove.foldl
    (fun text value => if value = [] then text else replaceText value "[private]".toList text) text

/-- `localabstract:openadb_p2p_control_` and the request id. -/
def remoteSpec (request_id : Text) : Text := "localabstract:openadb_p2p_control_".toList ++ request_id

def tcpPrefix : Text := ['t', 'c', 'p', ':']

def tcpSpec (port : Nat) : Text := tcpPrefix ++ (Nat.repr port).toList

def errorPrefix : Text := "ERROR\t".toList
def permissionPrefix : Text := "PERMISSION_REQUIRED\t".toList
def readyPrefix : Text := "READY\t".toList
/-- `ACCEPTED` -/
def P2P_CONTROL_ACCEPTED : Text := "ACCEPTED".toList

def cancelledByUser : Fault := .transfer "P2P transfer cancelled by user.".toList
def noForwardPort : Fault :=
  .transfer "Platform Tools did not return a valid local port for the ACBridge control tunnel.".toList
def tooManyDigits : Fault := .value "Exceeds the limit (4300 digits) for integer string conversion".toList
def malformedMetadata : Fault := .transfer "ACBridge returned malformed P2P session metadata.".toList
def invalidMetadata : Fault := .transfer "ACBridge returned invalid P2P session metadata.".toList
def noTunnel : Text := "Could not create the private ACBridge P2P control tunnel.".toList

section Parsing

variable (u : UnicodeData)

def forwardPortFrom : List Text → Except Fault Nat
  | [] => .error noForwardPort
  | line :: lines =>
    let value := strip u line
    if isdecimal u value then
      if 4300 < value.length then .error tooManyDigits
      else if 1 ≤ intOfDigits u value ∧ intOfDigits u value ≤ 65535 then .ok (intOfDigits u value)
      else forwardPortFrom lines
    else forwardPortFrom lines

def parseForwardPort (output : Text) : Except Fault Nat := forwardPortFrom u (splitlines output).reverse

/-- `line.split()` -/
def fields (line : Text) : List Text := splitWords u line.length line

def localSpec (remote_spec line : Text) : Option Text :=
  if 3 ≤ (fields u line).length ∧ (fields u line).getLast? = some remote_spec then
    ((fields u line).dropLast.getLast?).filter tcpPrefix.isPrefixOf
  else none

/-- The keys of the dictionary that the listed specs make. -/
def localSpecs (remote_spec stdout : Text) : List Text :=
  ((splitlines stdout).filterMap (localSpec u remote_spec)).eraseDups

def hexDigit (c : Char) : Option Nat :=
  if c.isDigit then some (c.toNat - 48)
  else if 'a' ≤ c ∧ c ≤ 'f' then some (c.toNat - 87)
  else if 'A' ≤ c ∧ c ≤ 'F' then some (c.toNat - 55)
  else none

/-- `bytes.fromhex` lets blanks stand between the pairs. -/
def fromhex : Text → Option Bytes
  | [] => some []
  | c :: rest =>
    if c ∈ [' ', '\t', '\n', '\r', '\x0b', '\x0c'] then fromhex rest
    else match rest with
      | [] => none
      | d :: rest => do
        let high ← hexDigit c
        let low ← hexDigit d
        let bytes ← fromhex rest
        pure (UInt8.ofNat (16 * high + low) :: bytes)

def parseReadyStatus (c : Crypto) (status : Text) (expected_port : Int) (bootstrap_secret : Text) :
    Except Fault (Int × Text × Int) :=
  match status.splitOn '\t' with
  | [ready, port, token, expires, proof] =>
    if ready ≠ "READY".toList then .error malformedMetadata
    else
      match parseInt u (strip u port), parseInt u (strip u expires), fromhex token, fromhex proof,
          fromhex bootstrap_secret with
      | some ready_port, some expires_at_ms, some token_bytes, some proof_bytes, some bootstrap_key =>
        let ready_payload := utf8 (['\t'].intercalate [ready, port, token, expires])
        if (expected_port ≠ 0 ∧ ready_port ≠ expected_port) ∨ ready_port < 1024 ∨ 65535 < ready_port
            ∨ token_bytes.length ≠ 32 ∨ bootstrap_key.length ≠ 32 ∨ proof_bytes.length ≠ 32
            ∨ c.hmac bootstrap_key ready_payload ≠ proof_bytes then .error invalidMetadata
        else .ok (ready_port, token, expires_at_ms)
      | _, _, _, _, _ => .error malformedMetadata
  | _ => .error malformedMetadata

end Parsing

section Calls

variable (w : World)

def isCancelled : Procedure Bool := looking w.isSet .check

def checkCancelled : Procedure Unit := do
  let set ← isCancelled w
  require (set = false) cancelledByUser

def emit : Procedure Unit := asking w.emit .emitted

/-- The runner as a call finds it in the scope of `_private_adb_log`. -/
def privateAdbLog (operation : String) (session_id : Text) : CommandRunner :=
  scopedLogCommand w.runner ["adb".toList, "<ACBridge P2P ".toList ++ operation.toList ++ ['>']] [session_id]

/-- What the runner makes of the reply of the process. -/
def scrubbed (operation : String) (session_id : Text) (result : CommandResult) : CommandResult :=
  applyScopedLogCommand (privateAdbLog w operation session_id).runner result

def runAdb (operation : String) (session_id : Text) (call : AdbCall) : Procedure CommandResult := do
  let result ← asking (fun log => w.adb log call) (.adb call)
  pure (scrubbed w operation session_id result)

def removeEach (request_id : Text) : List Text → Procedure Unit
  | [] => pure ()
  | local_spec :: local_specs => do
    let _ ← runAdb w "remove malformed control forward" request_id (.removeForward local_spec)
    removeEach request_id local_specs

def removeUntrackedControlForwardSafely (remote_spec request_id : Text) : Procedure Unit :=
  catching (do
      let listed ← runAdb w "locate malformed control forward" request_id .listForwards
      if listed.success = false then pure ()
      else removeEach w request_id (localSpecs w.runner.unicode remote_spec listed.stdout))
    (fun _ => pure ())

/-- `write_payload` and `read_line` of a channel. -/
def writePayload (channel : Nat) (payload : Bytes) : Procedure Unit :=
  asking (fun log => (w.write log channel payload).mapError ChannelFault.fault) (.wrote channel)

def readLine (channel : Nat) : Procedure Text :=
  asking (fun log => (w.line log channel).mapError ChannelFault.fault) (.line channel)

def sendCommand (channel : Nat) (command : Text) : Procedure Bool :=
  catching (do
      writePayload w channel (utf8 (command ++ ['\n']))
      pure true)
    (fun
      | .value message => raise (.value message)
      | .other message => raise (.other message)
      | _ => pure false)

def closeChannel (channel : Nat) : Procedure Unit := note (.closed channel)

/-- Every channel has a number of its own. -/
def openChannel : Procedure Nat := fun p =>
  (.ok (opened p.log).length,
    { p with log := .opened (opened p.log).length :: p.log, channel := some (opened p.log).length })

end Calls

section Connection

variable (w : World)

/-- What both handlers of an attempt close. -/
def closeAttempt : Procedure Unit := do
  let channel ← read Process.channel
  let sock ← read Process.sock
  match channel with
  | some channel => closeChannel channel
  | none => if sock then asking (fun log => (w.closeSocket log).mapError .os) .socketClosed else pure ()

def handshake (payload : Bytes) : Procedure Nat := do
  asking w.dial .dialled
  update fun p => { p with sock := true }
  asking (fun log => (w.configure log).mapError .os) .configured
  let channel ← openChannel
  checkCancelled w
  writePayload w channel payload
  let acknowledgement ← readLine w channel
  if acknowledgement = P2P_CONTROL_ACCEPTED then pure channel
  else if errorPrefix.isPrefixOf acknowledgement then
    raise (.transfer (orElse (strip w.runner.unicode (acknowledgement.drop errorPrefix.length))
      "ACBridge rejected the private P2P control channel.".toList))
  else raise (.transfer "ACBridge returned an invalid P2P control acknowledgement.".toList)

/-- One turn of the loop: the channel, or the text of the last error. -/
def attempt (payload : Bytes) : Procedure (Except Text Nat) := do
  checkCancelled w
  update fun p => { p with sock := false, channel := none }
  catching (do
      let channel ← handshake w payload
      pure (.ok channel))
    (fun
      | .transfer message => do
        closeAttempt w
        raise (.transfer message)
      | .os message | .timeout message | .eof message => do
        closeAttempt w
        checkCancelled w
        pure (.error message)
      | e => raise e)

def connectAttempts (payload : Bytes) : Nat → Option Text → Procedure Nat
  | 0, last_error =>
    raise (.transfer ("Could not connect to ACBridge through the private ADB control tunnel.".toList ++
      match last_error with
      | some error => if error = [] then [] else " Details: ".toList ++ error
      | none => []))
  | turns + 1, _ => do
    let outcome ← attempt w payload
    match outcome with
    | .ok channel => pure channel
    | .error error => connectAttempts payload turns (some error)

def connectControlChannel (payload : Bytes) : Procedure Nat := do
  let turns ← read (fun p => w.turns p.log)
  connectAttempts w payload turns none

end Connection

section Cleanup

variable (w : World)

def popHandle (session_id : Text) : Procedure (Option Handle) := fun p =>
  (.ok (p.handles session_id), { p with handles := Function.update p.handles session_id none })

def releaseChannel (signal_cancel : Bool) : Option Nat → Procedure Unit
  | none => pure ()
  | some channel => do
    let _ ← sendCommand w channel (if signal_cancel then "CANCEL".toList else "CLOSE".toList)
    closeChannel channel

def signalService (session_id : Text) : Procedure Text :=
  catching (do
      let cancelled_result ← runAdb w "cancel session" session_id (.cancelService session_id)
      pure (if cancelled_result.success then []
        else orElse cancelled_result.stderr
          (orElse cancelled_result.status "Android did not acknowledge P2P cancellation.".toList)))
    (fun e => pure e.text)

def removeControlForward (session_id : Text) (forward_port : Nat) (cleanup_error : Text) : Procedure Text :=
  catching (do
      let removed ← runAdb w "remove control forward" session_id (.removeForward (tcpSpec forward_port))
      pure (if removed.success = false ∧ cleanup_error = [] then
          orElse removed.stderr
            (orElse removed.status "Could not remove the ACBridge P2P control tunnel.".toList)
        else cleanup_error))
    (fun e => pure (orElse cleanup_error e.text))

def cleanupSessionFiles (session_id : Text) (signal_cancel : Bool) : Procedure Unit :=
  if session_id.length ≠ 32 then pure ()
  else do
    let entry ← popHandle session_id
    match entry with
    | none => pure ()
    | some handle => do
      let _ ← isCancelled w
      releaseChannel w signal_cancel handle.channel
      let cleanup_error ← if signal_cancel && handle.service_started then signalService w session_id else pure []
      let cleanup_error ← removeControlForward w session_id handle.forward_port cleanup_error
      require (cleanup_error = []) (.transfer (redactExact cleanup_error [session_id]))

def cleanupSessionFilesSafely (session_id : Text) (signal_cancel : Bool) : Procedure Unit :=
  catching (cleanupSessionFiles w session_id signal_cancel)
    (fun _ => catching (emit w) (fun _ => pure ()))

def sessionErrorFrom (session_id : Text) (channel : Nat) : Nat → Procedure Text
  | 0 => pure []
  | turns + 1 => do
    let set ← isCancelled w
    if set then pure []
    else do
      let status ← readLine w channel
      if status = [] then pure []
      else if errorPrefix.isPrefixOf status then
        pure (redactExact (strip w.runner.unicode (status.drop errorPrefix.length)) [session_id])
      else sessionErrorFrom session_id channel turns

def fetchSessionError (session_id : Text) : Procedure Text := do
  let set ← isCancelled w
  if set then pure []
  else do
    let entry ← read (fun p => p.handles session_id)
    match entry.bind Handle.channel with
    | none => pure []
    | some channel => do
      let turns ← read (fun p => w.turns p.log)
      sessionErrorFrom w session_id channel turns

def fetchSessionErrorSafely (session_id : Text) : Procedure Text :=
  catching (fetchSessionError w session_id) (fun _ => pure [])

end Cleanup

section Preparation

variable (w : World)

def newRequestId : Nat → Procedure RequestId
  | 0 => raise (.transfer "Could not allocate a unique P2P request identifier.".toList)
  | attempts + 1 => do
    let request_id ← looking w.uuid .drawn
    let entry ← read (fun p => p.handles request_id.text)
    match entry with
    | none => pure request_id
    | some _ => newRequestId attempts

def createForward (request_id bootstrap_secret : Text) : Procedure CommandResult :=
  catching (runAdb w "create control forward" request_id (.createForward request_id))
    (fun e => do
      removeUntrackedControlForwardSafely w (remoteSpec request_id) request_id
      raise (.transfer (orElse (redactExact e.text [request_id, bootstrap_secret]) noTunnel)))

def forwardPort (request_id bootstrap_secret : Text) : Procedure Nat := do
  let forwarded ← createForward w request_id bootstrap_secret
  if forwarded.success = false then do
    removeUntrackedControlForwardSafely w (remoteSpec request_id) request_id
    checkCancelled w
    raise (.transfer (orElse
      (redactExact (orElse forwarded.stderr forwarded.status) [request_id, bootstrap_secret]) noTunnel))
  else
    catching (lift (parseForwardPort w.runner.unicode forwarded.stdout))
      (fun
        | .transfer message => do
          removeUntrackedControlForwardSafely w (remoteSpec request_id) request_id
          raise (.transfer message)
        | e => raise e)

def recordHandle (request_id : Text) (forward_port : Nat) : Procedure Unit := do
  update fun p => { p with handle := some ⟨forward_port, none, false⟩ }
  let entry ← read (fun p => p.handles request_id)
  require (entry = none) (.transfer "ACBridge generated a duplicate P2P request identifier.".toList)
  update fun p => { p with
    handles := Function.update p.handles request_id p.handle
    log := .recorded forward_port :: p.log }

/-- The handle is changed where it stands: in the local name and in the table. -/
def changeHandle (request_id : Text) (change : Handle → Handle) : Procedure Unit := update fun p =>
  { p with
    handle := p.handle.map change
    handles := Function.update p.handles request_id (p.handle.map change) }

def startService (request_id bootstrap_secret : Text) : Procedure Unit := do
  let started ← runAdb w "start service" request_id (.startService request_id)
  changeHandle request_id fun handle => { handle with service_started := started.success }
  checkCancelled w
  require (started.success = true) (.transfer (orElse
    (redactExact (orElse started.stderr started.status) [request_id, bootstrap_secret])
    "Android refused to start the ACBridge P2P foreground service.".toList))

/-- The first `try` of the preparation. -/
def openTunnel (request_id bootstrap_secret request_text : Text) : Procedure Unit := do
  checkCancelled w
  let forward_port ← forwardPort w request_id bootstrap_secret
  recordHandle request_id forward_port
  checkCancelled w
  startService w request_id bootstrap_secret
  let channel ← connectControlChannel w (utf8 request_text)
  changeHandle request_id fun handle => { handle with channel := some channel }

/-- The status line, or nothing when the deadline ends the loop. -/
def readStatus (channel : Nat) : Procedure (Option Text) :=
  catching (do
      let status ← readLine w channel
      pure (some status))
    (fun
      | .timeout _ => pure none
      | .eof _ => raise (.transfer
        "ACBridge closed the private P2P control channel before the session was ready.".toList)
      | e => raise e)

def requestPermission (destination : Text) : Procedure Unit := do
  emit w
  let grant_result ← asking (fun log => w.grant log destination) .granted
  checkCancelled w
  require (grant_result.success = true) (.transfer ("Android storage access was not granted: ".toList ++
    orElse grant_result.status
      (orElse grant_result.stderr "Android storage access was not granted.".toList)))
  emit w

def awaitReady (request_id bootstrap_secret destination host : Text) (channel : Nat) :
    Nat → Bool → Procedure (Option P2PSession)
  | 0, _ => pure none
  | turns + 1, permission_requested => do
    checkCancelled w
    let line ← readStatus w channel
    match line with
    | none => pure none
    | some line => do
      let status := redactExact line [request_id, bootstrap_secret]
      checkCancelled w
      if errorPrefix.isPrefixOf status then do
        update fun p => { p with remote_terminal_status := true }
        raise (.transfer (strip w.runner.unicode (status.drop errorPrefix.length)))
      else if permissionPrefix.isPrefixOf status then
        if permission_requested then
          awaitReady request_id bootstrap_secret destination host channel turns true
        else do
          requestPermission w destination
          awaitReady request_id bootstrap_secret destination host channel turns true
      else if readyPrefix.isPrefixOf status then do
        let ready ← lift (parseReadyStatus w.runner.unicode w.crypto status 0 bootstrap_secret)
        checkCancelled w
        pure (some ⟨host, ready.1, ready.2.1, ready.2.2, request_id⟩)
      else awaitReady request_id bootstrap_secret destination host channel turns permission_requested

/-- The second `try` of the preparation. -/
def awaitSession (request_id bootstrap_secret destination host : Text) : Procedure (Option P2PSession) := do
  let handle ← read Process.handle
  match handle.bind Handle.channel with
  | none => raise (.other [])
  | some channel => do
    let turns ← read (fun p => w.turns p.log)
    awaitReady w request_id bootstrap_secret destination host channel turns false

def serviceStarted (p : Process) : Bool := (p.handle.map Handle.service_started).getD false

def prepareSessionLocked (destination : Text) (timeout_seconds : Int) : Procedure P2PSession := do
  checkCancelled w
  let destination ← lift ((normalizeDestination destination).mapError fun _ => .transfer
    "ACBridge P2P requires /sdcard or a valid Android storage path under /storage/.".toList)
  let (installed, install_message) ← asking w.trusted .trusted
  checkCancelled w
  require (installed = true) (.transfer install_message)
  let addresses ← asking w.addresses .addresses
  checkCancelled w
  match addresses with
  | [] => raise (.transfer ("ACBridge P2P could not determine the Android device's local IPv4 address. " ++
      "Keep Platform Tools connected, and connect the PC and Android TV to the same local network.").toList)
  | host :: _ => do
    let request_id ← newRequestId w 8
    let bootstrap_secret ← read (fun p => w.secret p.log)
    let request_text := requestText 0 (clampTimeout timeout_seconds) destination bootstrap_secret.val
    catching (openTunnel w request_id.text bootstrap_secret.val request_text)
      (fun e => do
        let service_started ← read serviceStarted
        cleanupSessionFilesSafely w request_id.text service_started
        raise e)
    let session ← catching (awaitSession w request_id.text bootstrap_secret.val destination host)
      (fun e => do
        let signal_cancel ← read (fun p => serviceStarted p && !p.remote_terminal_status)
        cleanupSessionFilesSafely w request_id.text signal_cancel
        raise e)
    match session with
    | some session => pure session
    | none => do
      let service_started ← read serviceStarted
      cleanupSessionFilesSafely w request_id.text service_started
      raise (.transfer ("ACBridge did not open the one-time P2P session before timeout. " ++
        "Check the Android notification and Platform Tools connection.").toList)

def awaitLock : Nat → Procedure Unit
  | 0 => pure ()
  | waits + 1 => do
    checkCancelled w
    awaitLock waits

def prepareSession (destination : Text) (timeout_seconds : Int) : Procedure P2PSession := do
  let waits ← read (fun p => w.lockWaits p.log)
  awaitLock w waits
  checkCancelled w
  prepareSessionLocked w destination timeout_seconds

end Preparation

section Upload

variable (w : World)

def friendlyNetworkError (e : Fault) : Text :=
  ("ACBridge P2P transfer was interrupted. No incomplete file is committed by ACBridge. " ++
    "Details: ").toList ++ orElse (strip w.runner.unicode e.text) e.className

/-- The connection and the frames, which touch neither the handles nor the control channel. -/
def transferEntries (session : P2PSession) (entries : List P2PEntry) : Procedure (Text × Nat × Nat) := do
  asking (fun log => w.connect log session) .connected
  update fun p => { p with connected := true }
  let sent ← asking (fun log => w.transfer log session entries) .transferred
  update fun p => { p with completed := true }
  pure sent

def reportFault (session_id : Text) : Fault → Procedure (Text × Nat × Nat)
  | .transfer message => do
    if contains "cancel".toList (w.runner.lower message) then raise (.transfer message)
    else do
      let remote_error ← fetchSessionErrorSafely w session_id
      if remote_error = [] then raise (.transfer message)
      else do
        update fun p => { p with remote_terminal := true }
        raise (.transfer remote_error)
  | .other message => raise (.other message)
  | e => do
    let remote_error ← fetchSessionErrorSafely w session_id
    update fun p => { p with remote_terminal := !remote_error.isEmpty }
    raise (.transfer (orElse remote_error (friendlyNetworkError w e)))

def disconnect : Procedure Unit := do
  let connected ← read Process.connected
  if connected then note .disconnected else pure ()

def uploadEntryBatch (entries : List P2PEntry) (android_destination : Text) (session_timeout : Int) :
    Procedure P2PTransferResult := do
  let session ← prepareSession w android_destination session_timeout
  let (message, sent_bytes, sent_files) ← always
    (catching (transferEntries w session entries) (reportFault w session.session_id))
    (do
      disconnect
      let signal_cancel ← read (fun p => !(p.completed || p.remote_terminal))
      cleanupSessionFilesSafely w session.session_id signal_cancel)
  pure ⟨true, message, sent_bytes, sent_files, entries.length⟩

end Upload

end OpenAdb.P2p.Session
