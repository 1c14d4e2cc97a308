import OpenAdb.Context.Device

namespace OpenAdb.Acbridge.UpdateScheduler

open OpenAdb.Lib.PyText OpenAdb.Lib.Runs
open OpenAdb.Context.Device (DeviceManager DeviceContext)

variable {τ π : Type}

/-- A serial and a generation. -/
abbrev Key := Text × Nat

def keyOf (context : DeviceContext π) : Key := (context.serial, context.generation)

/-- The token of an update; `ref` is the identity of the object. -/
structure OperationToken (π : Type) where
  ref : Nat
  deviceContext : DeviceContext π
  deriving DecidableEq

/-- A callback that a timer holds. -/
inductive Callback (π : Type)
  | retry (context : DeviceContext π) (key : Key)
  | resume (context : DeviceContext π)
  | release

/-- A worker that was started, and whether its context was current when its token was registered. -/
structure Start where
  key : Key
  current : Bool

/-- The window as the scheduler sees it. `busyCalls` are the calls of `_set_acbridge_maintenance_ui_busy`, the
newest first, and `starts` are the workers started; both are history. -/
structure MainWindow (τ π : Type) where
  deviceManager : DeviceManager τ π
  closing : Bool
  updateToken : Option (OperationToken π)
  lastUpdateKey : Option Key
  pendingUpdateContext : Option (DeviceContext π)
  updateRetryKey : Option Key
  updateAttempts : List (Key × Nat)
  timers : List (Callback π)
  workers : List (OperationToken π)
  busyCalls : List Bool
  starts : List Start
  nextRef : Nat

/-- How registering and starting a worker end. -/
inductive Launch
  | started | refused | runtimeError
  deriving DecidableEq

/-- How registering the operation ends. The device may change before it. -/
inductive Registration (τ π : Type)
  | operationConflict
  | runtimeError
  | registered (meanwhile : List (DeviceManager.Action τ π)) (launch : Launch)

namespace MainWindow

def new (deviceManager : DeviceManager τ π) : MainWindow τ π where
  deviceManager := deviceManager
  closing := false
  updateToken := none
  lastUpdateKey := none
  pendingUpdateContext := none
  updateRetryKey := none
  updateAttempts := []
  timers := []
  workers := []
  busyCalls := []
  starts := []
  nextRef := 0

def setBusy (s : MainWindow τ π) (busy : Bool) : MainWindow τ π := { s with busyCalls := busy :: s.busyCalls }

def singleShot (s : MainWindow τ π) (callback : Callback π) : MainWindow τ π :=
  { s with timers := s.timers ++ [callback] }

def attempts (s : MainWindow τ π) (key : Key) : Nat := (s.updateAttempts.lookup key).getD 0

/-- Whether ACBridge still owns or is waiting for device maintenance. -/
def workflowPending (s : MainWindow τ π) : Bool :=
  s.updateToken.isSome || s.updateRetryKey.isSome || s.pendingUpdateContext.isSome

def releaseIfIdle (s : MainWindow τ π) : MainWindow τ π :=
  if s.closing || s.workflowPending then s else s.setBusy false

def queueRetry (s : MainWindow τ π) (context : DeviceContext π) : MainWindow τ π :=
  if s.closing ∨ s.updateRetryKey = some (keyOf context) then s
  else
    { s.setBusy true with updateRetryKey := some (keyOf context) }.singleShot (.retry context (keyOf context))

variable (u : UnicodeData) [DecidableEq τ] [DecidableEq π]

def isCurrent (s : MainWindow τ π) (context : DeviceContext π) : Bool :=
  s.deviceManager.isContextCurrent u context

def finished (s : MainWindow τ π) (token : OperationToken π) : MainWindow τ π :=
  if s.updateToken ≠ some token then s
  else
    let pendingContext := s.pendingUpdateContext
    let s := { s with updateToken := none, pendingUpdateContext := none }
    if s.closing then s
    else
      match pendingContext.filter (s.isCurrent u) with
      | some context => s.singleShot (.resume context)
      | none => if s.updateRetryKey.isSome then s else s.singleShot .release

/-- The token is kept and counted before its worker starts. -/
def keepToken (s : MainWindow τ π) (context : DeviceContext π) : MainWindow τ π :=
  { s with
    updateToken := some ⟨s.nextRef, context⟩
    lastUpdateKey := some (keyOf context)
    updateRetryKey := none
    updateAttempts := [(keyOf context, s.attempts (keyOf context) + 1)]
    nextRef := s.nextRef + 1 }

/-- The part of `schedule` from the registered token on. -/
def launch (s : MainWindow τ π) (context : DeviceContext π) (outcome : Launch) : Bool × MainWindow τ π :=
  let token : OperationToken π := ⟨s.nextRef, context⟩
  let s := s.keepToken context
  match outcome with
  | .started =>
    (true, { s with
      workers := token :: s.workers
      starts := ⟨keyOf context, s.isCurrent u context⟩ :: s.starts })
  | .refused => (false, { s with lastUpdateKey := none }.finished u token)
  | .runtimeError => (false, { s with updateToken := none, lastUpdateKey := none }.singleShot .release)

/-- There is no result when the device cannot change in the way that the registration says. -/
def schedule (s : MainWindow τ π) (context : DeviceContext π) (registration : Registration τ π) :
    Option (Bool × MainWindow τ π) :=
  if s.closing || !s.isCurrent u context then some (false, s)
  else
    match s.updateToken with
    | some token =>
      let s := s.setBusy true
      if keyOf token.deviceContext ≠ keyOf context then
        some (true, { s with pendingUpdateContext := some context })
      else some (true, s)
    | none =>
      if s.lastUpdateKey = some (keyOf context) then some (false, s)
      else
        let s := s.setBusy true
        match registration with
        | .operationConflict => some (true, s.queueRetry context)
        | .runtimeError => some (false, s.singleShot .release)
        | .registered meanwhile outcome =>
          match exec (DeviceManager.step u) s.deviceManager meanwhile with
          | none => none
          | some deviceManager =>
            let s := { s with deviceManager := deviceManager }
            if s.isCurrent u context = false then some (false, s.singleShot .release)
            else some (s.launch u context outcome)

def retry (s : MainWindow τ π) (context : DeviceContext π) (key : Key) (registration : Registration τ π) :
    Option (MainWindow τ π) :=
  if s.updateRetryKey ≠ some key then some s
  else
    let s := { s with updateRetryKey := none }
    if s.closing || !s.isCurrent u context then some (s.singleShot .release)
    else
      match s.schedule u context registration with
      | none => none
      | some (true, s) => some s
      | some (false, s) => some (s.singleShot .release)

def resume (s : MainWindow τ π) (context : DeviceContext π) (registration : Registration τ π) :
    Option (MainWindow τ π) :=
  (s.schedule u context registration).map Prod.snd

/-- `live` says that the token is registered and not cancelled. -/
def callbackIsCurrent (s : MainWindow τ π) (token : OperationToken π) (live : Bool) : Bool :=
  !s.closing && live && s.updateToken = some token && s.isCurrent u token.deviceContext

/-- What a result that asks for a retry and an error have in common. -/
def retryAttempt (s : MainWindow τ π) (context : DeviceContext π) : MainWindow τ π :=
  if s.attempts (keyOf context) < 3 then
    { s with lastUpdateKey := if s.lastUpdateKey = some (keyOf context) then none else s.lastUpdateKey }.queueRetry
      context
  else s

/-- `shouldRetry` is absent when the worker returned nothing. -/
def updateResult (s : MainWindow τ π) (token : OperationToken π) (live : Bool) (shouldRetry : Option Bool) :
    MainWindow τ π :=
  if s.callbackIsCurrent u token live && shouldRetry = some true then s.retryAttempt token.deviceContext else s

def updateError (s : MainWindow τ π) (token : OperationToken π) (live : Bool) : MainWindow τ π :=
  if s.callbackIsCurrent u token live then s.retryAttempt token.deviceContext else s

/-- `closeEvent` -/
def close (s : MainWindow τ π) : MainWindow τ π :=
  { s with closing := true, pendingUpdateContext := none, updateRetryKey := none, updateAttempts := [] }

def fire (s : MainWindow τ π) (callback : Callback π) (registration : Registration τ π) :
    Option (MainWindow τ π) :=
  match callback with
  | .retry context key => s.retry u context key registration
  | .resume context => s.resume u context registration
  | .release => some s.releaseIfIdle

inductive Event (τ π : Type)
  | device (action : DeviceManager.Action τ π)
  | refreshed (context : DeviceContext π) (registration : Registration τ π)
  | result (token : OperationToken π) (live : Bool) (shouldRetry : Option Bool)
  | error (token : OperationToken π) (live : Bool)
  | finished (token : OperationToken π)
  | timer (index : Nat) (registration : Registration τ π)
  | close

/-- One callback of the window. A worker reports until its end; the timers fire in any order. -/
def step (s : MainWindow τ π) : Event τ π → Option (MainWindow τ π)
  | .device action => (DeviceManager.step u s.deviceManager action).map (fun d => { s with deviceManager := d })
  | .refreshed context registration => (s.schedule u context registration).map Prod.snd
  | .result token live shouldRetry =>
    if token ∈ s.workers then some (s.updateResult u token live shouldRetry) else none
  | .error token live => if token ∈ s.workers then some (s.updateError u token live) else none
  | .finished token =>
    if token ∈ s.workers then
      some ({ s with workers := s.workers.erase token }.finished u token)
    else none
  | .timer index registration =>
    match s.timers[index]? with
    | none => none
    | some callback => { s with timers := s.timers.eraseIdx index }.fire u callback registration
  | .close => some s.close

/-- No live token, no waiting retry, no pending context and no queued callback. -/
def idle (s : MainWindow τ π) : Bool :=
  s.updateToken.isNone && s.updateRetryKey.isNone && s.pendingUpdateContext.isNone && s.timers.isEmpty

/-- Something is still to come that switches the barrier off, or that hands the task on. -/
def Owes (s : MainWindow τ π) : Prop :=
  s.updateToken ≠ none ∨ s.updateRetryKey ≠ none ∨ .release ∈ s.timers ∨ ∃ context, .resume context ∈ s.timers

/-- A resumed update still finds its device, or its end is not the last one to wait for. -/
def Resumes (s : MainWindow τ π) : Event τ π → Prop
  | .timer index _ =>
    match s.timers[index]? with
    | some (.resume context) =>
      s.isCurrent u context = true ∧ s.lastUpdateKey ≠ some (keyOf context) ∨
        (s.busyCalls.head? = some true → { s with timers := s.timers.eraseIdx index }.Owes)
    | _ => True
  | _ => True

end MainWindow

end OpenAdb.Acbridge.UpdateScheduler
