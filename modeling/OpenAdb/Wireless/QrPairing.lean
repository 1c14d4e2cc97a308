import OpenAdb.Commands.Results
import OpenAdb.Lib.EventLog
import OpenAdb.Wireless.MdnsServices

namespace OpenAdb.Wireless.QrPairing

open OpenAdb.Lib.PyText OpenAdb.Lib.PyLines OpenAdb.Lib.PyWords
open OpenAdb.Lib.SortedRows OpenAdb.Lib.TextOrder
open OpenAdb.Lib.Effects OpenAdb.Lib.EventLog
open OpenAdb.Commands.Results (CommandResult contains)
open OpenAdb.Wireless.Endpoints OpenAdb.Wireless.MdnsServices

/-- The `adb` commands of a pairing. The secret of a pair goes to its input. -/
inductive Command
  | startServer
  | mdnsServices
  | devices
  | pair (target secret : Text)
  | connect (target : Text)
  deriving DecidableEq

/-- How a call ends without a result. A loop that a deadline never ends is left unfinished. -/
inductive Stop
  | raised (message : Text)
  | unfinished
  deriving DecidableEq

inductive Event
  | check (cancelled : Bool)
  | clock (late : Bool)
  | browse (answer : Except Stop (List Service))
  | ran (command : Command) (answer : Except Stop CommandResult)
  deriving DecidableEq

/-- What is around a pairing: `cancel_event`, a clock that may pass a deadline at any look at it,
the services that zeroconf finds, and `adb`. -/
structure Network where
  cancel : Flag Event
  late : List Event → Bool
  browse : List Event → Except Stop (List Service)
  run : Command → List Event → Except Stop CommandResult
  redactSensitiveText : Text → Text

abbrev Step := Effect Stop (List Event)

section Answers

variable (u : Tables)

def joinOutput (result : CommandResult) : Text :=
  ['\n'].intercalate ([result.stdout, result.stderr].filter (· ≠ []))

def connectFailureMarkers : List String :=
  ["cannot connect", "failed to connect", "unable to connect", "connection refused", "actively refused",
    "no route to host", "timed out", "timeout", "10060", "10061", "10065"]

def pairFailureMarkers : List String :=
  ["failed", "cannot", "unable", "invalid", "refused", "timed out", "timeout", "protocol fault",
    "10060", "10061", "10065"]

def marked (markers : List String) (lowered : Text) : Bool :=
  markers.any fun marker => contains marker.toList lowered

def normalizeAdbConnectResult (result : CommandResult) (target : Text) : CommandResult :=
  let lowered := u.lower (joinOutput result)
  if result.errorType ≠ [] ∧ result.errorType ≠ "command_failed".toList then result
  else if marked connectFailureMarkers lowered then
    { result with
      success := false
      status := "Wireless ADB connection failed: ".toList ++ target
      errorType := "connection_failed".toList }
  else if result.exitCode = some 0 ∧ marked ["connected to", "already connected to"] lowered = false then
    { result with
      success := false
      status := "Wireless ADB connection result is unclear for ".toList ++ target ++
        ". ADB did not report a successful connection.".toList
      errorType := "connection_unknown".toList }
  else result

def normalizeAdbPairResult (result : CommandResult) (target : Text) : CommandResult :=
  if result.errorType ≠ [] ∧ result.errorType ≠ "command_failed".toList then result
  else if marked pairFailureMarkers (u.lower (joinOutput result)) = true ∧
      (result.exitCode = some 0 ∨ result.errorType = "command_failed".toList) then
    { result with
      success := false
      status := "Wireless ADB pairing failed: ".toList ++ target
      errorType := "pairing_failed".toList }
  else result

structure Device where
  serial : Text
  state : Text
  deriving DecidableEq

def deviceRow (line : Text) : Option Device :=
  let line := strip u.toUnicodeData line
  if line = [] ∨ "list of devices".toList.isPrefixOf (u.lower line) = true then none
  else match words u.toUnicodeData line with
    | serial :: state :: _ => some ⟨serial, state⟩
    | _ => none

def synthetic (success : Bool) (status stdout stderr errorType : Text) : CommandResult where
  exitCode := if success then some 0 else none
  stdout := stdout
  stderr := stderr
  success := success
  status := status
  errorType := errorType

def cancelledResult (status : String) (stdout stderr : Text) : CommandResult :=
  synthetic false status.toList stdout stderr "cancelled".toList

def connectedDevice (serial : Text) : Text := "connected device: ".toList ++ serial

end Answers

variable (u : Tables) (net : Network)

section Steps

variable {α : Type}

/-- Look at `cancel_event`, and return the given value if it is set. -/
def unlessCancelled (a : α) (next : Step α) : Step α := do
  if ← look net.cancel.isSet .check then pure a else next

/-- Look at the clock, and return the given value after the deadline. -/
def unlessLate (atEnd next : Step α) : Step α := do
  if ← look net.late .clock then atEnd else next

def runRaw (command : Command) : Step CommandResult := ask (net.run command) (.ran command)

end Steps

def discoverWirelessMdnsServices : Step (List Service) :=
  unlessCancelled net [] do
    let browsed ← ask net.browse .browse
    unlessCancelled net [] do
      let result ← runRaw net .mdnsServices
      unlessCancelled net []
        (pure (dedupeMdnsServices u [] (browsed ++ if result.success then parseMdnsServices u result.stdout else [])))

def wirelessConnectCandidates (pairingTarget : Text) : Step (List Text) := do
  let services ← discoverWirelessMdnsServices u net
  pure (wirelessConnectCandidatesFromServices u services pairingTarget)

/-- The cancel event is looked at before each line. -/
def collectDevices (devices : List Device) : List Text → Step (List Device)
  | [] => pure devices
  | line :: lines => unlessCancelled net [] (collectDevices (devices ++ (deviceRow u line).toList) lines)

def listDevices : Step (List Device) :=
  unlessCancelled net [] do
    let result ← runRaw net .devices
    unlessCancelled net [] do
      if result.stdout = [] then pure [] else collectDevices u net [] (splitlines result.stdout)

def wirelessDeviceSerials : Step (List Text) := do
  let devices ← listDevices u net
  pure ((devices.filter fun device =>
    device.state = "device".toList && looksLikeWirelessSerial u device.serial).map Device.serial).dedup

def newWirelessDeviceSerial (before expectedTargets : List Text) : Step Text :=
  unlessCancelled net [] do
    let current ← wirelessDeviceSerials u net
    unlessCancelled net [] do
      let sorted := stableSort textLess id current
      if expectedTargets = [] then pure ((sorted.find? (· ∉ before)).getD [])
      else pure ((sorted.find? fun serial =>
        expectedTargets.any fun target => wirelessSerialMatchesExpected u serial target).getD [])

def waitForNewWirelessDevice (before expectedTargets : List Text) : Nat → Step Text
  | 0 => raise .unfinished
  | fuel + 1 =>
    unlessLate net (pure []) do
      unlessCancelled net [] do
        let serial ← newWirelessDeviceSerial u net before expectedTargets
        if serial ≠ [] then pure serial else waitForNewWirelessDevice before expectedTargets fuel

def waitForWirelessConnectCandidates (pairingTarget : Text) : Nat → Step (List Text)
  | 0 => raise .unfinished
  | fuel + 1 =>
    unlessLate net (pure []) do
      unlessCancelled net [] do
        let candidates ← wirelessConnectCandidates u net pairingTarget
        if candidates ≠ [] then pure candidates else waitForWirelessConnectCandidates pairingTarget fuel

def connectWirelessTarget (target : Text) : Step CommandResult := do
  let target := strip u.toUnicodeData target
  require (target ≠ []) (.raised "Wireless debugging connection target is empty.".toList)
  let result ← runRaw net (.connect target)
  pure (normalizeAdbConnectResult u result target)

def hideSecret (secret text : Text) : Text :=
  net.redactSensitiveText (replaceText secret "[private]".toList text)

def pairWirelessTargetViaStdin (target secret : Text) : Step CommandResult := do
  let result ← runRaw net (.pair target secret)
  pure { result with
    stdout := hideSecret net secret result.stdout
    stderr := hideSecret net secret result.stderr
    status := hideSecret net secret result.status }

def pairWirelessTarget (target pairingCode : Text) : Step CommandResult := do
  let target := strip u.toUnicodeData target
  let code := strip u.toUnicodeData pairingCode
  require (target ≠ []) (.raised "Wireless debugging pairing target is empty.".toList)
  require (code ≠ []) (.raised "Wireless debugging pairing code is empty.".toList)
  require ('\x00' ∉ code ∧ '\r' ∉ code ∧ '\n' ∉ code)
    (.raised "Wireless debugging pairing code contains invalid characters.".toList)
  let result ← pairWirelessTargetViaStdin net target code
  pure (normalizeAdbPairResult u result target)

section Connection

/-- The variables of the connection loop. -/
structure Attempts where
  lastResult : Option CommandResult
  target : Text
  tried : List Text
  candidates : List Text

def maxAttempts : Nat := 8

def connectionCancelled (result : Option CommandResult) : CommandResult :=
  cancelledResult "QR wireless ADB connection cancelled"
    ((result.map CommandResult.stdout).getD []) ((result.map CommandResult.stderr).getD [])

/-- What follows the loop. -/
def connectionFailed (s : Attempts) : Step CommandResult :=
  unlessCancelled net (connectionCancelled s.lastResult) do
    match s.lastResult with
    | some result =>
      let tried := [',', ' '].intercalate s.tried
      pure { result with status :=
        ("Wireless ADB connection failed. QR pairing itself may have succeeded, " ++
          "but OpenADB could not connect to any discovered _adb-tls-connect service. Tried: ").toList ++
          (if tried ≠ [] then tried else s.target) ++ ['.'] }
    | none => pure (synthetic false
      ("Wireless ADB connection failed before adb connect could run: ".toList ++ s.target) [] []
      "connection_failed".toList)

def notReady (result : CommandResult) (target : Text) : CommandResult :=
  { result with
    success := false
    errorType := "connection_not_ready".toList
    status := "ADB accepted the connection to ".toList ++ target ++
      (", but the Wireless debugging transport did not become ready. " ++
        "Retrying the discovered mDNS service.").toList }

/-- After a connection that did not become ready: the device may be connected all the same. -/
def recheckDevice (before pool : List Text) (result : CommandResult) (next : Step CommandResult) :
    Step CommandResult := do
  let autoDevice ← newWirelessDeviceSerial u net before pool
  unlessCancelled net (connectionCancelled (some result)) do
    if autoDevice ≠ [] then
      pure (synthetic true
        ("adb connect reported an error, but the wireless device is connected: ".toList ++ autoDevice)
        (connectedDevice autoDevice) [] [])
    else next

/-- One attempt on a target of the pool. -/
def attempt (fuel : Nat) (before pool : List Text) (target : Text)
    (next : CommandResult → Step CommandResult) : Step CommandResult := do
  let result ← connectWirelessTarget u net target
  unlessCancelled net (connectionCancelled (some result)) do
    if result.success then do
      let readyDevice ← waitForNewWirelessDevice u net before pool fuel
      unlessCancelled net (connectionCancelled (some result)) do
        if readyDevice ≠ [] then
          let parts := [strip u.toUnicodeData result.stdout, connectedDevice readyDevice].filter (· ≠ [])
          pure { result with stdout := ['\n'].intercalate parts }
        else recheckDevice u net before pool (notReady result target) (next (notReady result target))
    else recheckDevice u net before pool result (next result)

/-- New candidates go behind the known ones. -/
def mergeCandidates (candidates : List Text) : List Text → List Text
  | [] => candidates
  | candidate :: refreshed =>
    mergeCandidates (if candidate ∈ candidates then candidates else candidates ++ [candidate]) refreshed

/-- The loop with the number of attempts that are left. -/
def connectLoop (fuel : Nat) (pairingTarget : Text) (before : List Text) : Nat → Attempts → Step CommandResult
  | 0, s => connectionFailed net s
  | left + 1, s =>
    unlessLate net (connectionFailed net s) do
      unlessCancelled net (connectionCancelled none) do
        let autoDevice ← newWirelessDeviceSerial u net before s.candidates
        if autoDevice ≠ [] then
          pure (synthetic true ("Wireless ADB device is already connected: ".toList ++ autoDevice)
            (connectedDevice autoDevice) [] [])
        else do
          let refreshed ← wirelessConnectCandidates u net pairingTarget
          let candidates := mergeCandidates s.candidates refreshed
          let pool := candidates.filter (· ≠ [])
          match pool[(maxAttempts - (left + 1)) % pool.length]? with
          | none => connectionFailed net { s with candidates := candidates }
          | some target =>
            attempt u net fuel before pool target fun result =>
              connectLoop fuel pairingTarget before left
                { lastResult := some result
                  target := target
                  tried := if target ∈ s.tried then s.tried else s.tried ++ [target]
                  candidates := candidates }

def connectWirelessQrTargetUntilReady (fuel : Nat) (candidates : List Text) (pairingTarget : Text)
    (before : List Text) : Step CommandResult :=
  connectLoop u net fuel pairingTarget before maxAttempts
    { lastResult := none, target := candidates.head?.getD [], tried := [], candidates := candidates }

end Connection

def pairingCancelled : CommandResult := cancelledResult "QR pairing cancelled" [] []

/-- The pairing service is found: pair, wait for a connect service and connect. -/
def pairAndConnect (fuel : Nat) (before : List Text) (password pairingTarget : Text) : Step CommandResult := do
  let pairResult ← pairWirelessTarget u net pairingTarget password
  unlessCancelled net (cancelledResult "QR pairing cancelled" pairResult.stdout pairResult.stderr) do
    if !pairResult.success then
      pure { pairResult with status := pairResult.status ++
        ("\n\nThe phone may stay on the QR pairing screen until you close it. " ++
          "Check that Windows Firewall/router does not block local mDNS/TCP traffic.").toList }
    else do
      let candidates ← waitForWirelessConnectCandidates u net pairingTarget fuel
      unlessCancelled net
          (cancelledResult "QR wireless ADB connection cancelled" pairResult.stdout pairResult.stderr) do
        if candidates = [] then
          pure (synthetic false
            ("QR pairing completed, but no ready Wireless ADB connection appeared. " ++
              "Keep Wireless debugging open and try QR pairing again.").toList
            pairResult.stdout pairResult.stderr "connection_not_ready".toList)
        else do
          let result ← connectWirelessQrTargetUntilReady u net fuel candidates pairingTarget before
          if result.success then
            pure { result with status := "QR pairing and wireless ADB connection succeeded".toList }
          else
            pure { result with status :=
              (if result.status ≠ [] then result.status
                else "QR pairing succeeded, but wireless ADB connection failed.".toList) ++
              ("\n\nCheck Windows Firewall, router client isolation, " ++
                "and that the phone stays on the same Wi-Fi network.").toList }

def searchPairingService (fuel : Nat) (before : List Text) (serviceName password : Text) : Nat → Step CommandResult
  | 0 => raise .unfinished
  | rounds + 1 =>
    unlessLate net
        (unlessCancelled net pairingCancelled (pure (synthetic false
          ("Timed out waiting for QR pairing. Make sure the phone is on the same network, " ++
            "Wireless debugging is enabled, and the QR code is scanned from Android settings.").toList [] []
          "timeout".toList))) do
      unlessCancelled net pairingCancelled do
        let services ← discoverWirelessMdnsServices u net
        unlessCancelled net pairingCancelled do
          match findMdnsService u services serviceName pairingType with
          | none => searchPairingService fuel before serviceName password rounds
          | some pairing => pairAndConnect u net fuel before password pairing.target

/-- The loops that wait for a deadline go round as often as the fuel says. -/
def pairWirelessQr (fuel : Nat) (serviceName password : Text) : Step CommandResult := do
  let serviceName := strip u.toUnicodeData serviceName
  let password := strip u.toUnicodeData password
  require (serviceName ≠ []) (.raised "QR pairing service name is empty.".toList)
  require (password ≠ []) (.raised "QR pairing password is empty.".toList)
  unlessCancelled net pairingCancelled do
    let before ← wirelessDeviceSerials u net
    unlessCancelled net pairingCancelled do
      let _ ← runRaw net .startServer
      unlessCancelled net pairingCancelled (searchPairingService u net fuel before serviceName password fuel)

end OpenAdb.Wireless.QrPairing
