import OpenAdb.Acbridge.Probe
import OpenAdb.Files.Actions
import OpenAdb.Settings.Values

namespace OpenAdb.Transfer.StreamPush

open OpenAdb.Lib.PyText OpenAdb.Lib.Encoding OpenAdb.Lib.Effects OpenAdb.Lib.EventLog
open OpenAdb.Acbridge.Probe (formatNat shellQuote)
open OpenAdb.Commands.Results (CommandResult classifyError)
open OpenAdb.Files.Actions (parentAndroidPath)
open OpenAdb.Files.Listing (joinAndroidPath)
open OpenAdb.Settings.Values (Backend)

variable {ε : Type}

/-- An error of the program, or whatever the surroundings raise. A writer that is not done when its command
is over ends in one of the latter. -/
inductive Raised (ε : Type)
  | os (text : Text)
  | external (e : ε)

structure Fingerprint where
  device : Nat
  inode : Nat
  size : Nat
  mtimeNs : Int
  deriving DecidableEq

/-- Where a shell script goes: the client's root shell or shell, its shell for public storage, or the
direct client behind it. -/
inductive Route
  | rootShell | shell | publicStorage | direct
  deriving DecidableEq

inductive Start
  | refused (status errorType : Text)
  | started

/-- How a command ends: by itself, or stopped or lost. -/
inductive Ending
  | exited (exitCode : Int) (stdout stderr : Text)
  | interrupted (exitCode : Option Int) (stdout stderr status errorType : Text)

/-- What one push does, in its order. -/
inductive Event (ε : Type)
  | stat (reply : Except (Raised ε) Nat)
  | rootScript (script : Text) (reply : Except (Raised ε) Text)
  | start (script : Text) (reply : Except (Raised ε) Start)
  | opened (reply : Except (Raised ε) Unit)
  | fstat (reply : Except (Raised ε) Fingerprint)
  | cancelled (set : Bool)
  | read (limit : Nat) (reply : Except (Raised ε) Bytes)
  | write (pending : Bytes) (reply : Except (Raised ε) (Option Nat))
  | progress (reply : Except (Raised ε) Unit)
  | ended (reply : Except (Raised ε) Ending)
  | adb (route : Route) (script : Text) (watched : Bool) (reply : Except (Raised ε) CommandResult)

abbrev Log (ε : Type) := List (Event ε)

/-- What answers a push, as a function of the events before. A file returns no more than it is asked for,
and a stream takes no more than it is given. The clock tells when progress is due. -/
structure World (ε : Type) where
  unicode : UnicodeData
  lower : Text → Text
  stamp : Nat
  suffix : Nat
  stat : Log ε → Except (Raised ε) Nat
  rootShellScript : Log ε → Text → Except (Raised ε) Text
  start : Log ε → Text → Except (Raised ε) Start
  openSource : Log ε → Except (Raised ε) Unit
  fstat : Log ε → Except (Raised ε) Fingerprint
  isSet : Log ε → Bool
  read : Log ε → (limit : Nat) → Except (Raised ε) {bytes : Bytes // bytes.length ≤ limit}
  write : Log ε → (pending : Bytes) → Except (Raised ε) (Option {n : Nat // n ≤ pending.length})
  due : Log ε → Bool
  progress : Log ε → Except (Raised ε) Unit
  ended : Log ε → Except (Raised ε) Ending
  adb : Log ε → Route → Text → Except (Raised ε) CommandResult

/-- The variables that the writer, the transaction and its cleanup share. -/
structure State (ε : Type) where
  log : Log ε
  sentBytes : Nat
  sourceChanged : Text
  committed : Bool

abbrev Procedure (ε α : Type) := Effect (Raised ε) (State ε) α

/-- What is known of the adb client. -/
structure Client where
  effectivePrivilegeBackend : Option Backend
  runPublicStorageShell : Bool
  directAdb : Bool

section Texts

/-- `^/storage/[^/]+/` -/
def isVolumePath (clean : Text) : Bool :=
  "/storage/".toList.isPrefixOf clean && (clean.drop 9).head? ≠ some '/' && '/' ∈ clean.drop 9

def isProbablyWritableAndroidPath (path : Text) : Bool :=
  let clean := rstripChar '/' (replaceChar '\\' '/' path) ++ ['/']
  "/sdcard/".toList.isPrefixOf clean || "/storage/emulated/0/".toList.isPrefixOf clean ||
    (isVolumePath clean && !"/storage/emulated/".toList.isPrefixOf clean &&
      !"/storage/self/".toList.isPrefixOf clean)

/-- `{value:06x}` -/
def hex6 (value : Nat) : Text :=
  List.replicate (6 - (Nat.toDigits 16 value).length) '0' ++ Nat.toDigits 16 value

def androidTempSiblingPath (target : Text) (stamp suffix : Nat) : Text :=
  joinAndroidPath (parentAndroidPath target)
    (".openadb-part-".toList ++ formatNat stamp ++ '-' :: hex6 (suffix % 2 ^ 24))

def paths (target temp : Text) : Text :=
  "target=".toList ++ shellQuote target ++ "; tmp=".toList ++ shellQuote temp ++ "; ".toList

def streamScript (target temp : Text) : Text :=
  paths target temp ++ ("parent=$\x7btarget%/*\x7d; [ \"$parent\" = \"$target\" ] && parent=.; " ++
    "mkdir -p \"$parent\" && cat > \"$tmp\"").toList

def sizeVerification (expectedSize : Nat) : Text :=
  "expected=\"".toList ++ formatNat expectedSize ++ ("\"; actual=\"\"; stable=0; i=0; " ++
    "while [ \"$i\" -lt 20 ]; do actual=$(stat -c %s \"$tmp\" 2>/dev/null) || actual=\"\"; " ++
    "if [ \"$actual\" = \"$expected\" ]; then stable=$((stable + 1)); [ \"$stable\" -ge 2 ] && break; " ++
    "else stable=0; fi; i=$((i + 1)); sleep 1; done; [ -n \"$actual\" ] || \x7b " ++
    "echo \"OpenADB: could not verify temporary file size\" >&2; exit 74; \x7d; " ++
    "[ \"$actual\" = \"$expected\" ] && [ \"$stable\" -ge 2 ] || \x7b " ++
    "echo \"OpenADB: temporary file size mismatch (expected $expected, got $actual)\" >&2; exit 75; \x7d; ").toList

def noDirectory : Text :=
  "if [ -d \"$target\" ]; then echo \"OpenADB: destination is a directory\" >&2; exit 73; fi; ".toList

/-- Under root the file gets the owner and the label of its place. -/
def finalizeScript (target temp : Text) (expectedSize : Nat) (useRoot : Bool) : Text :=
  if useRoot then
    paths target temp ++ "parent=$\x7btarget%/*\x7d; [ \"$parent\" = \"$target\" ] && parent=.; ".toList ++
      sizeVerification expectedSize ++ noDirectory ++
      ("owner=$(stat -c \"%u:%g\" \"$parent\" 2>/dev/null || true); mv -f \"$tmp\" \"$target\"; rc=$?; " ++
      "if [ $rc -eq 0 ] && [ -n \"$owner\" ]; then chown \"$owner\" \"$target\" 2>/dev/null || true; " ++
      "restorecon \"$target\" 2>/dev/null || true; fi; exit $rc").toList
  else paths target temp ++ sizeVerification expectedSize ++ noDirectory ++ "mv -f \"$tmp\" \"$target\"".toList

def verifyScript (target temp : Text) (expectedSize : Nat) : Text :=
  paths target temp ++ ("[ ! -e \"$tmp\" ] && [ ! -L \"$tmp\" ] || exit 76; " ++
    "[ -f \"$target\" ] && [ ! -L \"$target\" ] || exit 77; " ++
    "actual=$(stat -c %s \"$target\" 2>/dev/null) || exit 78; [ \"$actual\" = \"").toList ++
    formatNat expectedSize ++ "\" ]".toList

def cleanupScript (temp : Text) : Text := "rm -f ".toList ++ shellQuote temp

def singleFileStreamBufferSize (wirelessMode : Bool) : Nat :=
  if wirelessMode then 8 * 1024 * 1024 else 4 * 1024 * 1024

end Texts

section Steps

variable (w : World ε)

/-- Ask the surroundings, and log the answer. -/
def asks {α : Type} (answer : Log ε → Except (Raised ε) α) (event : Except (Raised ε) α → Event ε) :
    Procedure ε α :=
  within State.log (fun log s => { s with log := log }) (ask answer event)

def cancelled : Procedure ε Bool :=
  within State.log (fun log s => { s with log := log }) (look w.isSet .cancelled)

def sourceStat : Procedure ε Nat := asks w.stat .stat

def fstat : Procedure ε Fingerprint := asks w.fstat .fstat

def readSource (limit : Nat) : Procedure ε {bytes : Bytes // bytes.length ≤ limit} :=
  asks (fun log => w.read log limit) (fun reply => .read limit (reply.map Subtype.val))

def writeStream (pending : Bytes) : Procedure ε (Option {n : Nat // n ≤ pending.length}) :=
  asks (fun log => w.write log pending) (fun reply => .write pending (reply.map (Option.map Subtype.val)))

def shell (route : Route) (script : Text) (watched : Bool) : Procedure ε CommandResult :=
  asks (fun log => w.adb log route script) (.adb route script watched)

/-- Progress that is not forced waits for its time. -/
def emitProgress (force : Bool) : Procedure ε Unit := do
  let due ← read (fun s => w.due s.log)
  if force ∨ due then asks w.progress .progress else pure ()

def setChanged (text : Text) : Procedure ε Unit := update (fun s => { s with sourceChanged := text })

def addSent (n : Nat) : Procedure ε Unit := update (fun s => { s with sentBytes := s.sentBytes + n })

def setCommitted (committed : Bool) : Procedure ε Unit := update (fun s => { s with committed := committed })

def transferCancelled : Raised ε := .os "Transfer cancelled by user".toList

def raiseIfCancelled : Procedure ε Unit := do
  let stop ← cancelled w
  require (stop = false) transferCancelled

end Steps

section Writing

variable (w : World ε) (expectedSize bufferSize : Nat)

/-- The part that the stream takes at once. -/
def sendSome (pending : Bytes) : Procedure ε {n : Nat // 0 < n} := do
  raiseIfCancelled w
  let written ← writeStream w pending
  match written with
  | some ⟨n + 1, _⟩ => do
    addSent (n + 1)
    pure ⟨n + 1, n.succ_pos⟩
  | _ => raise (.os "ADB input stream stopped accepting file data".toList)

def sendPending (pending : Bytes) : Procedure ε Unit :=
  if _h : pending = [] then pure ()
  else do
    let written ← sendSome w pending
    emitProgress w false
    sendPending (pending.drop written.val)
termination_by pending.length
decreasing_by
  have := List.length_pos_iff.mpr _h
  have := written.property
  rw [List.length_drop]
  omega

def sizeDetail (start middle : String) (sentBytes : Nat) (finish : String) : Text :=
  start.toList ++ formatNat expectedSize ++ middle.toList ++ formatNat sentBytes ++ finish.toList

def sourceEnded : Procedure ε Unit := do
  let sentBytes ← read State.sentBytes
  setChanged
    (sizeDetail expectedSize "Source ended during streaming: expected " " bytes, read " sentBytes " bytes")

/-- The loop of the writer; `expected_size - sent_bytes` is what remains. -/
def copySource (remaining : Nat) : Procedure ε Unit :=
  if _h : remaining = 0 then pure ()
  else do
    raiseIfCancelled w
    let chunk ← readSource w (min bufferSize remaining)
    if _hchunk : chunk.val = [] then sourceEnded expectedSize
    else do
      sendPending w chunk.val
      copySource (remaining - chunk.val.length)
termination_by remaining
decreasing_by
  have := List.length_pos_iff.mpr _hchunk
  omega

/-- Run only while the source has not changed. -/
def ifUnchanged (x : Procedure ε Unit) : Procedure ε Unit := do
  let changed ← read State.sourceChanged
  if changed = [] then x else pure ()

def noteGrowth : Procedure ε Unit := do
  let more ← readSource w 1
  if more.val = [] then pure ()
  else setChanged ("Source grew during streaming: expected ".toList ++ formatNat expectedSize ++ " bytes".toList)

def noteMetadata (initial final : Fingerprint) : Procedure ε Unit :=
  if final = initial then pure () else setChanged "Source metadata changed during streaming".toList

def inputWriter : Procedure ε Unit := do
  asks w.openSource .opened
  let opened ← fstat w
  if opened.size ≠ expectedSize then do
    setChanged (sizeDetail expectedSize "Source size changed before streaming: expected " " bytes, found "
      opened.size " bytes")
    emitProgress w true
  else do
    copySource w expectedSize bufferSize expectedSize
    ifUnchanged (noteGrowth w expectedSize)
    let finished ← fstat w
    ifUnchanged (noteMetadata opened finished)
    emitProgress w true

/-- Whether the writer has returned. -/
def attempt (x : Procedure ε Unit) : Procedure ε Bool :=
  catching (do
      x
      pure true)
    (fun _ => pure false)

def streamResult (lower : Text → Text) (written : Bool) : Ending → CommandResult
  | .exited exitCode stdout stderr =>
    if exitCode = 0 ∧ written = true then ⟨some exitCode, stdout, stderr, true, "Success".toList, []⟩
    else
      let (status, errorType) := classifyError lower (if stderr = [] then stdout else stderr) exitCode
      ⟨some exitCode, stdout, stderr, false, status, errorType⟩
  | .interrupted exitCode stdout stderr status errorType => ⟨exitCode, stdout, stderr, false, status, errorType⟩

/-- The writer feeds the command, which succeeds only when both are done. -/
def runRawWithInputStream (script : Text) (writer : Procedure ε Unit) : Procedure ε CommandResult := do
  let start ← asks (fun log => w.start log script) (.start script)
  match start with
  | .refused status errorType => pure ⟨none, [], [], false, status, errorType⟩
  | .started => do
    let written ← attempt writer
    let ending ← asks w.ended .ended
    pure (streamResult w.lower written ending)

end Writing

section Pushing

variable (w : World ε) (c : Client) (target temp : Text) (expectedSize : Nat) (useRoot wirelessMode : Bool)

def runPublicTransferShell (script : Text) (watched : Bool) : Procedure ε CommandResult :=
  if c.effectivePrivilegeBackend = some .shizuku ∧ isProbablyWritableAndroidPath target = true ∧
      c.runPublicStorageShell = true then
    shell w .publicStorage script watched
  else shell w .shell script watched

def failed (result : CommandResult) (status errorType : String) : CommandResult :=
  { result with success := false, status := status.toList, errorType := errorType.toList }

def appendDetail (stderr detail : Text) : Text := (if stderr = [] then [] else stderr ++ ['\n']) ++ detail

/-- The result of the stream, unless it was cancelled or the source has changed. -/
def checkStream (result : CommandResult) : Procedure ε CommandResult := do
  let stop ← cancelled w
  let sourceChanged ← read State.sourceChanged
  let sentBytes ← read State.sentBytes
  if stop then pure (failed result "Transfer cancelled by user" "cancelled")
  else if result.success = true ∧ (sourceChanged ≠ [] ∨ sentBytes ≠ expectedSize) then
    let detail := if sourceChanged ≠ [] then sourceChanged
      else
        sizeDetail expectedSize "Source size changed during streaming: expected " " bytes, read " sentBytes " bytes"
    let status := "Source file changed during transfer; temporary upload was discarded"
    pure { failed result status "source_changed" with stderr := appendDetail result.stderr detail }
  else pure result

def acceptVerified (verified : CommandResult) : Procedure ε Bool :=
  if verified.success then do
    let stop ← cancelled w
    pure !stop
  else pure false

def publicPushCommitVerified : Procedure ε Bool := do
  let stop ← cancelled w
  if stop then pure false
  else do
    catching (do
        let verified ← runPublicTransferShell w c target (verifyScript target temp expectedSize) true
        acceptVerified w verified)
      (fun _ => pure false)

/-- Only a timeout on public storage leaves open whether the file is in its place. -/
def reconcile (finalizeResult : CommandResult) : Procedure ε Bool :=
  if useRoot = false ∧ isProbablyWritableAndroidPath target = true ∧
      casefold w.unicode finalizeResult.errorType = "timeout".toList then
    publicPushCommitVerified w c target temp expectedSize
  else pure false

def orElse (first second : Text) : Text := if first = [] then second else first

def finalizeFailed (result finalizeResult : CommandResult) : CommandResult :=
  { result with
    success := false
    status := "Remote file finalize failed: ".toList ++ finalizeResult.status
    errorType := orElse finalizeResult.errorType "remote_finalize_failed".toList
    stderr := appendDetail result.stderr
      (orElse finalizeResult.stderr (orElse finalizeResult.stdout finalizeResult.status)) }

def settle (result finalizeResult : CommandResult) : Procedure ε CommandResult := do
  let stop ← cancelled w
  if stop then pure (failed result "Transfer cancelled before the remote file was finalized" "cancelled")
  else if finalizeResult.success = true then pure result
  else do
    let verifiedCommit ← reconcile w c target temp expectedSize useRoot finalizeResult
    if verifiedCommit then do
      setCommitted true
      let stop ← cancelled w
      pure (if stop then failed result "Transfer was cancelled after the remote file was finalized" "cancelled"
        else { result with status := "Success".toList })
    else pure (finalizeFailed result finalizeResult)

def runFinalize : Procedure ε CommandResult :=
  let script := finalizeScript target temp expectedSize useRoot
  if useRoot then shell w .rootShell script true else runPublicTransferShell w c target script true

def finalize (result : CommandResult) : Procedure ε CommandResult := do
  emitProgress w true
  let finalizeResult ← runFinalize w c target temp expectedSize useRoot
  setCommitted finalizeResult.success
  settle w c target temp expectedSize useRoot result finalizeResult

def withSent (result : CommandResult) : Procedure ε (CommandResult × Nat) := do
  let sentBytes ← read State.sentBytes
  pure (result, sentBytes)

def publish (script : Text) : Procedure ε (CommandResult × Nat) := do
  let streamed ← runRawWithInputStream w script
    (inputWriter w expectedSize (singleFileStreamBufferSize wirelessMode))
  let result ← checkStream w expectedSize streamed
  if result.success then do
    let result ← finalize w c target temp expectedSize useRoot result
    withSent result
  else withSent result

def removeStaged : Procedure ε CommandResult :=
  if useRoot then shell w .rootShell (cleanupScript temp) false
  else runPublicTransferShell w c target (cleanupScript temp) false

/-- A facade that is no longer valid leaves the direct client. -/
def removeDirectly : Procedure ε Unit :=
  if c.directAdb = true ∧ useRoot = false ∧ isProbablyWritableAndroidPath target = true then
    catching (do
        let _ ← shell w .direct (cleanupScript temp) false
        pure ())
      (fun _ => pure ())
  else pure ()

def discard : Procedure ε Unit := do
  let committed ← read State.committed
  if committed then pure ()
  else do
    catching (do
        let _ ← removeStaged w c target temp useRoot
        pure ())
      (fun _ => removeDirectly w c target temp useRoot)

def stageScript : Procedure ε Text :=
  if useRoot then
    asks (fun log => w.rootShellScript log (streamScript target temp)) (.rootScript (streamScript target temp))
  else pure (streamScript target temp)

/-- The size that is expected, or the size that the source has. -/
def expectedBytes : Option Int → Procedure ε Nat
  | some size => pure size.toNat
  | none => sourceStat w

def streamPushFileToAndroidTarget (expected : Option Int) : Procedure ε (CommandResult × Nat) := do
  let temp := androidTempSiblingPath target w.stamp w.suffix
  let size ← expectedBytes w expected
  let script ← stageScript w target temp useRoot
  always (publish w c target temp size useRoot wirelessMode script) (discard w c target temp useRoot)

end Pushing

section Readings

/-- What the stream has taken. -/
def writtenBytes : Log ε → Bytes
  | [] => []
  | .write pending (.ok (some n)) :: past => writtenBytes past ++ pending.take n
  | _ :: past => writtenBytes past

/-- What was read of the source. -/
def readBytes : Log ε → Bytes
  | [] => []
  | .read _ (.ok bytes) :: past => readBytes past ++ bytes
  | _ :: past => readBytes past

/-- What the source has looked like. -/
def fingerprints : Log ε → List Fingerprint
  | [] => []
  | .fstat (.ok fingerprint) :: past => fingerprints past ++ [fingerprint]
  | _ :: past => fingerprints past

/-- A transfer under way. -/
structure Staging where
  target : Text
  temp : Text
  size : Nat
  useRoot : Bool

variable (g : Staging)

def Event.isAdb : Event ε → Prop
  | .adb _ _ _ _ => True
  | _ => False

/-- The file was moved into its place. -/
def Event.publishes : Event ε → Prop
  | .adb _ script _ (.ok result) =>
    script = finalizeScript g.target g.temp g.size g.useRoot ∧ result.success = true
  | _ => False

/-- The file was found in its place. -/
def Event.verifies : Event ε → Prop
  | .adb _ script _ (.ok result) => script = verifyScript g.target g.temp g.size ∧ result.success = true
  | _ => False

def Event.isVerification : Event ε → Prop
  | .adb _ script _ _ => script = verifyScript g.target g.temp g.size
  | _ => False

def Event.isRemoval : Event ε → Prop
  | .adb _ script _ _ => script = cleanupScript g.temp
  | _ => False

/-- The file was found in its place, and the check that follows did not find the transfer cancelled. -/
def Accepted (log : Log ε) : Prop :=
  ∃ later past e, log = later ++ .cancelled false :: e :: past ∧ e.verifies g

/-- The commit is established: reported, or proven after a timeout. -/
def Established (log : Log ε) : Prop := (∃ e ∈ log, e.publishes g) ∨ Accepted g log

def Attempted (log : Log ε) : Prop := ∃ e ∈ log, e.isRemoval g

/-- The stream command was run. -/
def Streamed (log : Log ε) : Prop := ∃ script reply, .start script reply ∈ log

/-- The stream took exactly what was read, and the source looked the same before and after. -/
structure Complete (log : Log ε) : Prop where
  size : (writtenBytes log).length = g.size
  content : writtenBytes log = readBytes log
  unchanged : ∃ fingerprint, fingerprints log = [fingerprint, fingerprint]

end Readings

end OpenAdb.Transfer.StreamPush
