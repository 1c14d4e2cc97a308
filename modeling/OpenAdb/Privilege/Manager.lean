import OpenAdb.Context.Device
import OpenAdb.Lib.Threads
import OpenAdb.Settings.Values

namespace OpenAdb.Privilege.Manager

open OpenAdb.Lib.Effects OpenAdb.Lib.PyText OpenAdb.Lib.Threads OpenAdb.Lib.Threads.Program
open OpenAdb.Context.Device (DeviceContext DeviceManager adbMode)
open OpenAdb.Settings.Values (Backend)

variable {δ π : Type} (u : UnicodeData)

/-- `PrivilegeBackend.normalize` -/
def normalize (value : PyObject) : Backend :=
  let normalized := casefold u (strip u value.orEmptyText)
  if normalized ∈ [Backend.root.text, ['s', 'u']] then .root
  else if normalized ∈ [Backend.shizuku.text, ['s', 'u', 'i']] then .shizuku
  else .standard

inductive AccessState
  | ready | blocked | unavailable | cancelled
  | other (name : Text)
  deriving DecidableEq

structure ShizukuState where
  state : AccessState := .unavailable
  running : Bool := false
  permissionGranted : Bool := false
  uid : Option Nat := none
  deriving DecidableEq

def verifiedUid (uid : Option Nat) : Bool := uid = some 0 ∨ uid = some 2000

def ShizukuState.ready (s : ShizukuState) : Bool :=
  s.state = .ready && s.running && s.permissionGranted && verifiedUid s.uid

/-- `ShizukuExecutionSession` -/
structure Session where
  state : ShizukuState := {}
  expectedUid : Option Nat := none

def Session.ready (s : Session) : Bool :=
  s.state.ready && verifiedUid s.expectedUid && s.state.uid = s.expectedUid

structure PrivilegeStatus where
  backend : Backend
  state : AccessState
  uid : Option Nat
  deviceSerial : Text
  deviceGeneration : Option Nat
  shizuku : Option ShizukuState
  deriving DecidableEq

def PrivilegeStatus.available (s : PrivilegeStatus) : Bool := s.state = .ready

variable (context : DeviceContext π)

def standardWithUid (uid : Option Nat) : PrivilegeStatus where
  backend := .standard
  state := if uid = some 2000 then .ready else if uid.isSome then .blocked else .unavailable
  uid := uid
  deviceSerial := context.serial
  deviceGeneration := some context.generation
  shizuku := none

def fromRootCheck (available : Bool) : PrivilegeStatus where
  backend := .root
  state := if available then .ready else .unavailable
  uid := if available then some 0 else none
  deviceSerial := context.serial
  deviceGeneration := some context.generation
  shizuku := none

def fromShizuku (state : ShizukuState) : PrivilegeStatus where
  backend := .shizuku
  state := if state.ready then .ready else state.state
  uid := state.uid
  deviceSerial := context.serial
  deviceGeneration := some context.generation
  shizuku := some state

/-- The cancellation events are numbered in the order of their creation. -/
structure PrivilegeOperationLease where
  backend : Backend
  cancelEvent : Nat
  deriving DecidableEq

/-- What a facade hands its commands to: the bound client, as it is or through `su`, the session, or
a raw method of the bound client. -/
inductive Executor
  | directShell | rootShell | session
  | raw (method : Text)
  deriving DecidableEq

/-- A prepared client; `shell` is where its `run_shell` sends a command. -/
structure Facade (π : Type) where
  backend : Backend
  deviceContext : DeviceContext π
  backendCancelEvent : Nat
  shell : Executor
  deriving DecidableEq

/-- `error_type` of a result: those that invalidate a session, the other ones of Shizuku, and none. -/
inductive ErrorType
  | identityUnverified | identityChanged | permissionRequired | unavailable | bridgeUnavailable
  | startFailed | protocolError | sessionStale
  | outputTruncated | requestFailed | timeout
  | other
  deriving DecidableEq

def ErrorType.invalidating : ErrorType → Bool
  | .outputTruncated | .requestFailed | .timeout | .other => false
  | _ => true

def ErrorType.infrastructure : ErrorType → Bool
  | .other => false
  | _ => true

/-- What a section learns from outside: the operation's own event, the time and the device. -/
structure Answer where
  operationCancelled : Bool := false
  raises : Bool := false
  uid : Option Nat := none
  rootUid : Bool := false
  state : ShizukuState := {}
  session : Session := {}
  recent : Bool := false
  validResult : Bool := true
  truncated : Bool := false
  errorType : ErrorType := .other

inductive Raised
  | accessModeChanged | cancelled | staleDeviceContext | unavailable | external
  deriving DecidableEq

/-- What the checks read: the setting, the current event, the events that are set, newest first, and
the device. `resetting` is history: the events that a reset has replaced and not set yet. -/
structure Now (δ π : Type) where
  setting : Option PyObject
  event : Nat
  finished : List Nat
  resetting : List Nat
  device : DeviceManager δ π

/-- History: a command that was handed over or whose result was returned, with what its checks saw; a
reset for a lease, with the event that it replaced and the one that a status it cleared was verified
under; and a status that `cached_status` returned, with what its reads saw. -/
inductive Entry (δ π : Type)
  | handed (facade : Facade π) (executor : Executor) (selected current : Now δ π)
  | returned (facade : Facade π) (executor : Executor) (settled selected current : Now δ π)
  | reset (lease : PrivilegeOperationLease) (replaced : Nat) (cleared : Option Nat) (seen : Now δ π)
  | reported (status : PrivilegeStatus) (verified : Nat) (cached serial generation selected : Now δ π)

/-- `verified`, `leases`, `facades` and `log` are history: the event of the lease that the cached
status was verified under, and what was captured and prepared so far. -/
structure PrivilegeManager (δ π : Type) where
  now : Now δ π
  cached : Option PrivilegeStatus
  verified : Nat
  leases : List PrivilegeOperationLease
  facades : List (Facade π)
  log : List (Entry δ π)

abbrev Prog (δ π α : Type) := Program (PrivilegeManager δ π) Answer Raised α

def Now.selectedBackend (n : Now δ π) : Backend := normalize u (n.setting.getD (.str Backend.standard.text))

def record (e : Entry δ π) : Prog δ π Unit := update (fun s => { s with log := s.log ++ [e] })

def discardResult {α : Type} (x : Prog δ π α) : Prog δ π Unit := x >>= fun _ => pure ()

/-- A check, with what it saw. -/
def examine (c : Answer → Now δ π → Bool) (e : Raised) : Prog δ π (Now δ π) :=
  locked (fun i s => (if c i s.now then .ok s.now else .error e, s))

def raiseIfCancelled (event : Nat) : Prog δ π (Now δ π) := examine (fun _ n => event ∉ n.finished) .cancelled

/-- `_LinkedCancellationEvent.is_set` -/
def linkedIsSet (event : Nat) (i : Answer) (n : Now δ π) : Bool := event ∈ n.finished || i.operationCancelled

def raiseIfLinkedCancelled (event : Nat) : Prog δ π (Now δ π) :=
  examine (fun i n => !linkedIsSet event i n) .cancelled

def requireSelectedBackend (expected : Backend) : Prog δ π (Now δ π) :=
  examine (fun _ n => n.selectedBackend u = expected) .accessModeChanged

def requireContextCurrent [DecidableEq π] : Prog δ π (Now δ π) :=
  examine (fun _ n => n.device.isContextCurrent u context) .staleDeviceContext

def requireOperationLease (lease : PrivilegeOperationLease) : Prog δ π Unit := do
  let _ ← examine (fun _ n => lease.cancelEvent = n.event) .accessModeChanged
  let _ ← examine (fun _ n => lease.cancelEvent ∉ n.finished) .accessModeChanged
  let _ ← requireSelectedBackend u lease.backend

def captureOperationLease : Prog δ π PrivilegeOperationLease := locked (fun _ s =>
  let lease := ⟨s.now.selectedBackend u, s.now.event⟩
  (.ok lease, { s with leases := lease :: s.leases }))

/-- The locked part of a reset: a new event and no cached status. -/
def PrivilegeManager.replaceEvent (s : PrivilegeManager δ π) : PrivilegeManager δ π :=
  { s with
    now := { s.now with event := s.now.event + 1, resetting := s.now.event :: s.now.resetting }
    cached := none }

def PrivilegeManager.setEvent (event : Nat) (s : PrivilegeManager δ π) : PrivilegeManager δ π :=
  { s with
    now := { s.now with
      finished := event :: s.now.finished
      resetting := s.now.resetting.erase event } }

def reset : Prog δ π Unit := do
  let stale ← locked (fun _ s => (.ok s.now.event, s.replaceEvent))
  update (PrivilegeManager.setEvent stale)

/-- The locked part of `_reset_if_lease_current`. -/
def PrivilegeManager.replaceEventFor (lease : PrivilegeOperationLease) (s : PrivilegeManager δ π) :
    Option Nat × PrivilegeManager δ π :=
  if lease.cancelEvent ≠ s.now.event ∨ lease.cancelEvent ∈ s.now.finished ∨
      s.now.selectedBackend u ≠ lease.backend then (none, s)
  else
    (some s.now.event, { s.replaceEvent with
      log := s.log ++ [.reset lease s.now.event (s.cached.map (fun _ => s.verified)) s.now] })

def resetIfLeaseCurrent (lease : PrivilegeOperationLease) : Prog δ π Bool := do
  match ← locked (fun _ s => (.ok (s.replaceEventFor u lease).1, (s.replaceEventFor u lease).2)) with
  | none => pure false
  | some stale => do
    update (PrivilegeManager.setEvent stale)
    pure true

def Now.serialMatches (n : Now δ π) (status : PrivilegeStatus) : Bool := status.deviceSerial = n.device.active.serial

def Now.generationMatches (n : Now δ π) (status : PrivilegeStatus) : Bool :=
  status.deviceGeneration.all (fun g => g = n.device.generation)

/-- The locked part of `_cache_if_current`. -/
def PrivilegeManager.publish (status : PrivilegeStatus) (lease : PrivilegeOperationLease)
    (s : PrivilegeManager δ π) : PrivilegeManager δ π :=
  if status.backend ≠ s.now.selectedBackend u ∨ lease.cancelEvent ≠ s.now.event ∨
      lease.cancelEvent ∈ s.now.finished ∨ lease.backend ≠ status.backend ∨
      ¬(s.now.serialMatches status && s.now.generationMatches status) then s
  else { s with cached := some status, verified := lease.cancelEvent }

def cacheIfCurrent (status : PrivilegeStatus) (lease : PrivilegeOperationLease) : Prog δ π Unit :=
  if status.state = .cancelled then pure () else update (PrivilegeManager.publish u status lease)

/-- The reads after the one of the cache. -/
def confirmStatus (status : PrivilegeStatus) (verified : Nat) (cached : Now δ π) :
    Prog δ π (Option PrivilegeStatus) := do
  let serial ← read PrivilegeManager.now
  if serial.serialMatches status then
    let generation ← read PrivilegeManager.now
    if generation.generationMatches status then
      let selected ← read PrivilegeManager.now
      if status.backend = selected.selectedBackend u then
        record (.reported status verified cached serial generation selected)
        pure (some status)
      else pure none
    else pure none
  else pure none

def cachedStatus : Prog δ π (Option PrivilegeStatus) := do
  let (status, verified, cached) ← read (fun s => (s.cached, s.verified, s.now))
  match status with
  | none => pure none
  | some status => confirmStatus u status verified cached

/-- `_cached_status_is_recent`; the clock is outside. -/
def cachedStatusIsRecent (status : PrivilegeStatus) : Prog δ π Bool :=
  locked (fun i s => (.ok (s.cached = some status && i.recent), s))

/-- A call to the device, which may raise. -/
def consult {α : Type} (f : Answer → α) : Prog δ π α :=
  ask (fun i => if i.raises then .error .external else .ok (f i))

def leaseOr (lease : Option PrivilegeOperationLease) : Prog δ π PrivilegeOperationLease :=
  match lease with
  | some lease => pure lease
  | none => captureOperationLease u

/-- How `check` verifies a mode. -/
def probe (backend : Backend) (i : Answer) : PrivilegeStatus :=
  match backend with
  | .standard => standardWithUid context i.uid
  | .root => fromRootCheck context i.rootUid
  | .shizuku => fromShizuku context i.state

def check (backend : Option PyObject) (lease : Option PrivilegeOperationLease) : Prog δ π PrivilegeStatus := do
  let selected ← read (fun s => match backend.filter PyObject.truthy with
    | some backend => normalize u backend
    | none => s.now.selectedBackend u)
  let lease ← leaseOr u lease
  if selected ≠ lease.backend then raise .accessModeChanged
  else
    requireOperationLease u lease
    let status ← consult (probe context selected)
    let _ ← examine (fun _ n => lease.cancelEvent ∉ n.finished) .accessModeChanged
    if ← ask (fun i => .ok i.operationCancelled) then pure status
    else
      requireOperationLease u lease
      if ← locked (fun i s => (.ok (linkedIsSet lease.cancelEvent i s.now), s)) then pure status
      else
        cacheIfCurrent u status lease
        pure status

variable [DecidableEq π]

/-- The permission request and `request_and_check_shizuku`, which ask the device differently. -/
def requestState (lease : Option PrivilegeOperationLease) : Prog δ π PrivilegeStatus := do
  let lease ← leaseOr u lease
  if lease.backend ≠ .shizuku then raise .unavailable
  else
    requireOperationLease u lease
    let _ ← requireContextCurrent u context
    let status ← consult (fun i => fromShizuku context i.state)
    requireOperationLease u lease
    let _ ← requireContextCurrent u context
    if ← locked (fun i s => (.ok (linkedIsSet lease.cancelEvent i s.now), s)) then pure status
    else
      cacheIfCurrent u status lease
      pure status

def requestShizuku (lease : Option PrivilegeOperationLease) : Prog δ π PrivilegeStatus :=
  requestState u context lease

def requestAndCheckShizuku (lease : Option PrivilegeOperationLease) : Prog δ π PrivilegeStatus :=
  requestState u context lease

/-- History: the facade is given to the caller. -/
def prepared (facade : Facade π) : Prog δ π (Option (Facade π)) :=
  locked (fun _ s => (.ok (some facade), { s with facades := facade :: s.facades }))

/-- Nothing was prepared unless the mode is Standard. -/
def prepareStandardAdb (lease : PrivilegeOperationLease) : Prog δ π (Option (Facade π)) := do
  let uid ← consult Answer.uid
  let _ ← raiseIfLinkedCancelled lease.cancelEvent
  requireOperationLease u lease
  let status := standardWithUid context uid
  cacheIfCurrent u status lease
  if status.available then pure none else raise .unavailable

/-- An error resets the mode unless the preparation was cancelled. -/
def resetOnError {α : Type} (lease : PrivilegeOperationLease) (x : Prog δ π α) : Prog δ π α :=
  x.handle (fun e => do
    if ← locked (fun i s => (.ok (linkedIsSet lease.cancelEvent i s.now), s)) then raise e
    else
      let _ ← resetIfLeaseCurrent u lease
      raise e)

/-- The checks after each probe. -/
def stillPreparing (lease : PrivilegeOperationLease) : Prog δ π Unit := do
  let _ ← raiseIfLinkedCancelled lease.cancelEvent
  let _ ← requireContextCurrent u context
  requireOperationLease u lease

/-- The user id of the direct shell and the verified route to root. -/
def probeRoot (lease : PrivilegeOperationLease) : Prog δ π (Option Nat × Option Executor) := do
  let (uid, root) ← consult (fun i => (i.uid, i.rootUid))
  stillPreparing u context lease
  if root then pure (uid, some .directShell)
  else
    let su ← consult Answer.rootUid
    stillPreparing u context lease
    pure (uid, if su then some .rootShell else none)

def recoveryMode : Text := ['R', 'e', 'c', 'o', 'v', 'e', 'r', 'y']

def prepareRootAdb (lease : PrivilegeOperationLease) : Prog δ π (Option (Facade π)) := do
  if context.mode ≠ adbMode ∧ context.mode ≠ recoveryMode then
    let _ ← requireContextCurrent u context
    pure none
  else
    let (uid, strategy) ← resetOnError u lease (probeRoot u context lease)
    stillPreparing u context lease
    cacheIfCurrent u (fromRootCheck context strategy.isSome) lease
    let _ ← requireContextCurrent u context
    requireOperationLease u lease
    match strategy with
    | none => if (standardWithUid context uid).available then pure none else raise .unavailable
    | some shell =>
      let _ ← requireContextCurrent u context
      prepared ⟨.root, context, lease.cancelEvent, shell⟩

/-- The cached state that a session may be made from. -/
def trustedState (cached : PrivilegeStatus) : Option ShizukuState :=
  if cached.backend = .shizuku ∧ cached.available ∧ verifiedUid cached.uid then
    cached.shizuku.filter (fun state => state.ready && state.uid = cached.uid)
  else none

/-- The verified user id of the cached status, and the state that needs no new probe. -/
def cachedIdentity : Prog δ π (Option Nat × Option ShizukuState) := do
  match ← cachedStatus u with
  | none => pure (none, none)
  | some cached =>
    if ← cachedStatusIsRecent cached then
      pure (if cached.backend = .shizuku ∧ cached.available ∧ verifiedUid cached.uid then cached.uid else none,
        trustedState cached)
    else pure (none, none)

/-- `session_from_verified_state` or `prepare_session`; the second is whether the cached state is used. -/
def openSession (state : Option ShizukuState) : Prog δ π (Session × Bool) :=
  match state with
  | some state => consult (fun _ => (⟨state, state.uid⟩, true))
  | none => do
    let session ← consult Answer.session
    pure (session, false)

/-- `_prepared_session_identity` -/
def sessionUid (session : Session) : Option Nat :=
  if verifiedUid session.expectedUid then session.expectedUid
  else if verifiedUid session.state.uid then session.state.uid
  else none

/-- A session made from the cached state is no new verification. -/
def cacheSession (usedCachedState : Bool) (session : Session) (lease : PrivilegeOperationLease) : Prog δ π Unit :=
  if usedCachedState then pure () else cacheIfCurrent u (fromShizuku context session.state) lease

def rejectSession (lease : PrivilegeOperationLease) : Prog δ π (Option (Facade π)) := do
  let _ ← resetIfLeaseCurrent u lease
  raise .unavailable

def prepareShizukuAdb (lease : PrivilegeOperationLease) : Prog δ π (Option (Facade π)) := do
  if context.mode ≠ adbMode then
    requireOperationLease u lease
    let _ ← requireContextCurrent u context
    raise .unavailable
  else
    let (cachedUid, cachedState) ← cachedIdentity u
    let (session, usedCachedState) ← resetOnError u lease (openSession cachedState)
    stillPreparing u context lease
    if session.state.state = .cancelled then raise .cancelled
    else if ¬(session.ready ∧ verifiedUid (sessionUid session)) then rejectSession u lease
    else if cachedUid.isSome ∧ sessionUid session ≠ cachedUid then rejectSession u lease
    else
      let _ ← raiseIfLinkedCancelled lease.cancelEvent
      let _ ← requireContextCurrent u context
      cacheSession u context usedCachedState session lease
      let _ ← requireContextCurrent u context
      requireOperationLease u lease
      let _ ← requireContextCurrent u context
      prepared ⟨.shizuku, context, lease.cancelEvent, .session⟩

/-- Without a facade the result is the bound client itself. -/
def prepareAdb (lease : Option PrivilegeOperationLease) : Prog δ π (Option (Facade π)) := do
  let lease ← leaseOr u lease
  requireOperationLease u lease
  let _ ← requireContextCurrent u context
  let _ ← examine (fun i _ => !i.operationCancelled) .cancelled
  consult (fun _ => ())
  requireOperationLease u lease
  let _ ← requireContextCurrent u context
  match lease.backend with
  | .standard => prepareStandardAdb u context lease
  | .root => prepareRootAdb u context lease
  | .shizuku => prepareShizukuAdb u context lease

variable (facade : Facade π)

/-- The checks before a command, and that it is handed over. -/
def handOver (expected : Backend) (executor : Executor) : Prog δ π Unit := do
  let _ ← raiseIfCancelled facade.backendCancelEvent
  let selected ← requireSelectedBackend u expected
  let current ← requireContextCurrent u facade.deviceContext
  let _ ← raiseIfLinkedCancelled facade.backendCancelEvent
  record (.handed facade executor selected current)

/-- The last checks after a command, and that its result is returned. -/
def giveBack (expected : Backend) (executor : Executor) (settled : Now δ π) : Prog δ π Unit := do
  let selected ← requireSelectedBackend u expected
  let current ← requireContextCurrent u facade.deviceContext
  record (.returned facade executor settled selected current)

/-- `_delegate_prepared_raw` -/
def delegatePreparedRaw (method : Text) : Prog δ π Unit := do
  handOver u facade facade.backend (.raw method)
  consult (fun _ => ())
  let settled ← raiseIfCancelled facade.backendCancelEvent
  giveBack u facade facade.backend (.raw method) settled

def rootRunShell : Prog δ π Unit := do
  handOver u facade .root facade.shell
  consult (fun _ => ())
  let settled ← raiseIfCancelled facade.backendCancelEvent
  giveBack u facade .root facade.shell settled

def resetBackendIfCurrent : Prog δ π Bool := resetIfLeaseCurrent u ⟨.shizuku, facade.backendCancelEvent⟩

def resetOnErrorType (errorType : ErrorType) : Prog δ π Unit :=
  if errorType.invalidating then discardResult (resetBackendIfCurrent u facade) else pure ()

/-- `_prepare_logical_result`, which returns the type of the error. -/
def prepareLogicalResult : Prog δ π ErrorType := do
  let (errorType, truncated) ← ask (fun i =>
    if i.validResult then .ok (i.errorType, i.truncated) else .error .external)
  resetOnErrorType u facade errorType
  if truncated then pure .outputTruncated else pure errorType

def shizukuRunShell : Prog δ π Unit := do
  handOver u facade .shizuku facade.shell
  (consult (fun _ => ())).handle (fun e => do
    let _ ← resetBackendIfCurrent u facade
    raise e)
  let settled ← raiseIfCancelled facade.backendCancelEvent
  let errorType ← prepareLogicalResult u facade
  consult (fun _ => ())
  let selected ← requireSelectedBackend u .shizuku
  let current ← requireContextCurrent u facade.deviceContext
  if errorType.infrastructure then raise .external
  else record (.returned facade facade.shell settled selected current)

def runShell : Prog δ π Unit :=
  match facade.backend with
  | .shizuku => shizukuRunShell u facade
  | _ => rootRunShell u facade

/-- `linked_cancellation_event`; `validate_operation_lease` is the check alone. -/
def linkedCancellationEvent (lease : PrivilegeOperationLease) : Prog δ π Nat := do
  requireOperationLease u lease
  pure lease.cancelEvent

/-- A call of one thread. -/
inductive Request (π : Type)
  | captureOperationLease
  | reset
  | resetIfLeaseCurrent (lease : PrivilegeOperationLease)
  | linkedCancellationEvent (lease : PrivilegeOperationLease)
  | cachedStatus
  | check (context : DeviceContext π) (backend : Option PyObject) (lease : Option PrivilegeOperationLease)
  | requestShizuku (context : DeviceContext π) (lease : Option PrivilegeOperationLease)
  | requestAndCheckShizuku (context : DeviceContext π) (lease : Option PrivilegeOperationLease)
  | prepareAdb (context : DeviceContext π) (lease : Option PrivilegeOperationLease)
  | runShell (facade : Facade π)
  | delegatePreparedRaw (facade : Facade π) (method : Text)

def Request.program : Request π → Prog δ π Unit
  | .captureOperationLease => discardResult (Manager.captureOperationLease u)
  | .reset => Manager.reset
  | .resetIfLeaseCurrent lease => discardResult (Manager.resetIfLeaseCurrent u lease)
  | .linkedCancellationEvent lease => discardResult (Manager.linkedCancellationEvent u lease)
  | .cachedStatus => discardResult (Manager.cachedStatus u)
  | .check context backend lease => discardResult (Manager.check u context backend lease)
  | .requestShizuku context lease => discardResult (Manager.requestShizuku u context lease)
  | .requestAndCheckShizuku context lease => discardResult (Manager.requestAndCheckShizuku u context lease)
  | .prepareAdb context lease => discardResult (Manager.prepareAdb u context lease)
  | .runShell facade => Manager.runShell u facade
  | .delegatePreparedRaw facade method => Manager.delegatePreparedRaw u facade method

/-- Leases are captured and facades are prepared before they are used. -/
def Request.allowed (s : PrivilegeManager δ π) : Request π → Bool
  | .resetIfLeaseCurrent lease | .linkedCancellationEvent lease => lease ∈ s.leases
  | .check _ _ lease | .requestShizuku _ lease | .requestAndCheckShizuku _ lease | .prepareAdb _ lease =>
    lease.all (fun lease => lease ∈ s.leases)
  | .runShell facade | .delegatePreparedRaw facade _ => facade ∈ s.facades
  | _ => true

def start (request : Request π) (s : PrivilegeManager δ π) : Option (Prog δ π Unit) :=
  if request.allowed s then some (request.program u) else none

/-- The setting is written and the device changes at any time. -/
inductive Change (δ π : Type)
  | select (value : Option PyObject)
  | device (a : DeviceManager.Action δ π)

def environment [DecidableEq δ] (s : PrivilegeManager δ π) : Change δ π → Option (PrivilegeManager δ π)
  | .select value => some { s with now := { s.now with setting := value } }
  | .device a => (DeviceManager.step u s.now.device a).map
    (fun device => { s with now := { s.now with device } })

def init (setting : Option PyObject) (device : DeviceManager δ π) : PrivilegeManager δ π where
  now := ⟨setting, 0, [], [], device⟩
  cached := none
  verified := 0
  leases := []
  facades := []
  log := []

/-- No thread has begun a call. -/
def idle {τ : Type} (s : PrivilegeManager δ π) : Pool τ (PrivilegeManager δ π) Answer Raised := ⟨s, fun _ => pure ()⟩

end OpenAdb.Privilege.Manager
