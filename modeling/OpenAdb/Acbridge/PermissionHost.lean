import OpenAdb.Lib.JavaText
import OpenAdb.Shizuku.Cancellation

namespace OpenAdb.Acbridge.PermissionHost

open OpenAdb.Lib.PyText OpenAdb.Lib.JavaText
open OpenAdb.Shizuku.Cancellation (isValidRequestId)

structure Intent where
  operation : Option Text
  backend : Option Text
  requestId : Option Text
  closePending : Bool
  timeoutSeconds : Int

/-- One instance of the activity. `timeout` is the delay of a safety timeout that is pending, and `finishing` tells
that the system was asked to finish the instance. -/
structure Activity where
  requestId : Text
  backend : Text
  hostOpened : Bool
  finished : Bool
  terminalCloseRequestId : Text
  timeout : Option Int
  finishing : Bool

def Activity.new : Activity := ⟨[], [], false, false, [], none, false⟩

structure Preferences where
  activeRequest : Text
  activeBackend : Text
  closingRequest : Text

/-- The instances that are not destroyed yet, numbered in the order of their creation; the static reference; the
preferences, which outlive the process; the intents that were sent, and the tokens published as closed. -/
structure State where
  activities : Nat → Option Activity
  nextId : Nat
  activeRequest : Option Nat
  preferences : Preferences
  started : List Intent
  published : List Text

def State.initial (preferences : Preferences) : State := ⟨fun _ => none, 0, none, preferences, [], []⟩

def State.put (s : State) (i : Nat) (this : Activity) : State :=
  { s with activities := Function.update s.activities i (some this) }

variable (lower : Text → Text)

def normalizedOperation (value : Option Text) : Text := lower (trim (value.getD []))

def normalizedHostBackend (value : Option Text) : Text :=
  let normalized := lower (trim (value.getD []))
  if normalized = "root".toList ∨ normalized = "shizuku".toList then normalized else []

/-- The token and the backend of an intent that the activity accepts. -/
def openRequest (intent : Intent) : Option (Text × Text) :=
  match intent.requestId with
  | none => none
  | some id =>
    let backend := normalizedHostBackend lower intent.backend
    if normalizedOperation lower intent.operation ≠ "open".toList ∨ isValidRequestId id = false ∨
        (backend ≠ "root".toList ∧ backend ≠ "shizuku".toList) then none
    else some (id, backend)

/-- `publishStatus(context, id, "closed")` -/
def publishClosed (s : State) (id : Text) : State :=
  if isValidRequestId id = true then { s with published := s.published ++ [id] } else s

def clearPersistedRequestIfMatching (preferences : Preferences) (id : Text) : Preferences :=
  if id = preferences.activeRequest then ⟨[], [], []⟩ else preferences

def finishHost (s : State) (i : Nat) (expected : Text) : State :=
  match s.activities i with
  | none => s
  | some this =>
    if isValidRequestId expected = false then s
    else if expected ≠ this.requestId then
      publishClosed { s with preferences := clearPersistedRequestIfMatching s.preferences expected } expected
    else if s.activeRequest ≠ some i ∨ expected ≠ s.preferences.activeRequest then s
    else if this.finished = true then s
    else
      let this := { this with
        finished := true
        terminalCloseRequestId := expected
        timeout := none
        finishing := true }
      { s.put i this with preferences := { s.preferences with closingRequest := expected } }

def minTimeout : Int := 30

def maxTimeout : Int := 900

def activateRequest (s : State) (i : Nat) (this : Activity) (id backend : Text) (timeoutSeconds : Int) : State :=
  let this := { this with
    requestId := id
    backend := backend
    hostOpened := true
    finished := false
    terminalCloseRequestId := []
    timeout := some (max minTimeout (min maxTimeout timeoutSeconds)) }
  { s.put i this with activeRequest := some i, preferences := ⟨id, backend, []⟩ }

/-- The end of `onCreate` and of `onNewIntent`: a request that is to be closed is opened first. -/
def openHost (s : State) (i : Nat) (this : Activity) (id backend : Text) (intent : Intent) : State :=
  let closePending := id = s.preferences.closingRequest ∨ intent.closePending = true
  let opened := activateRequest s i this id backend intent.timeoutSeconds
  if closePending then finishHost opened i id else opened

def onCreate (s : State) (intent : Intent) (saved : Bool) : State :=
  let s := { s with nextId := s.nextId + 1 }
  let i := s.nextId - 1
  match openRequest lower intent with
  | none => s.put i { Activity.new with finishing := true }
  | some (id, backend) =>
    if saved = true ∧ id ≠ s.preferences.activeRequest then
      publishClosed (s.put i { Activity.new with finishing := true }) id
    else openHost s i Activity.new id backend intent

def onNewIntent (s : State) (i : Nat) (this : Activity) (intent : Intent) : State :=
  match openRequest lower intent with
  | none => s
  | some (id, backend) =>
    if this.hostOpened = true then
      if this.requestId ≠ id then publishClosed s id
      else if id = s.preferences.closingRequest ∨ intent.closePending = true then finishHost s i id
      else s
    else openHost s i this id backend intent

def onDestroy (s : State) (i : Nat) (this : Activity) : State :=
  let closed := this.terminalCloseRequestId
  let gone := { s with
    activities := Function.update s.activities i none
    activeRequest := if s.activeRequest = some i then none else s.activeRequest }
  if this.finished = true ∧ isValidRequestId closed = true ∧ closed = this.requestId then
    publishClosed { gone with preferences := clearPersistedRequestIfMatching s.preferences closed } closed
  else gone

def completeRequest (s : State) (id : Text) : State :=
  if isValidRequestId id = false then s
  else match s.activeRequest with
    | some i => finishHost s i id
    | none =>
      if id = s.preferences.activeRequest then
        let backend := normalizedHostBackend lower (some s.preferences.activeBackend)
        if backend = [] then s
        else { s with
          preferences := { s.preferences with closingRequest := id }
          started := s.started ++ [⟨some "open".toList, some backend, some id, true, 300⟩] }
      else publishClosed s id

/-- What happens on the main thread. A completion is also what a dismissal by the receiver comes to. -/
inductive Event
  | create (intent : Intent) (saved : Bool)
  | newIntent (intent : Intent)
  | complete (id : Text)
  | timeout (i : Nat)
  | destroy (i : Nat)
  | death

/-- An intent for the task goes to the instance that was created last. -/
def step (s : State) : Event → Option State
  | .create intent saved => some (onCreate lower s intent saved)
  | .newIntent intent =>
    (s.activities (s.nextId - 1)).map (fun this => onNewIntent lower s (s.nextId - 1) this intent)
  | .complete id => some (completeRequest lower s id)
  | .timeout i => match s.activities i with
    | none => none
    | some this =>
      if this.timeout = none then none
      else some (finishHost (s.put i { this with timeout := none }) i this.requestId)
  | .destroy i => (s.activities i).map (onDestroy s i)
  | .death => some { s with activities := fun _ => none, activeRequest := none }

end OpenAdb.Acbridge.PermissionHost
