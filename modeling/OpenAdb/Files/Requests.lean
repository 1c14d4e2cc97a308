import Mathlib.Data.List.ReduceOption
import OpenAdb.Context.Device
import OpenAdb.Context.Operations
import OpenAdb.Lib.Handover

namespace OpenAdb.Files.Requests

open OpenAdb.Lib.PyText
open OpenAdb.Context.Device (DeviceContext DeviceManager adbMode ProfilePaths)
open OpenAdb.Context.Operations (OperationToken OperationRegistry)

variable {τ π : Type}

def recoveryMode : Text := "Recovery".toList

def defaultAndroidPath : Text := "/sdcard/".toList

def normalizeAndroidPath (u : UnicodeData) (path : Text) : Text :=
  let stripped := (strip u path).map (fun c => if c = '\\' then '/' else c)
  let parts := ((if stripped.isEmpty then defaultAndroidPath else stripped).splitOn '/').filter (· ≠ [])
  let normalized := '/' :: ['/'].intercalate parts
  if normalized = "/sdcard".toList ∨ normalized = "/storage/emulated/0".toList then normalized ++ ['/']
  else normalized

inductive Direction
  | push | pull
  deriving DecidableEq

inductive Transport
  | adb | p2p
  deriving DecidableEq

/-- The plan without the paths and options that only its worker reads. -/
structure TransferPlan (π : Type) where
  direction : Direction
  transport : Transport
  deviceContext : DeviceContext π
  supported : ¬(direction = .pull ∧ transport = .p2p)

def TransferPlan.isUpload (plan : TransferPlan π) : Bool := plan.direction = .push

def TransferPlan.isP2p (plan : TransferPlan π) : Bool := plan.transport = .p2p

inductive FileManagerAction
  | createFolder | delete | rename | properties | installApk
  deriving DecidableEq

structure AndroidActionRequest (π : Type) where
  action : FileManagerAction
  deviceContext : DeviceContext π

structure PendingTransferStart (π : Type) where
  id : Nat
  plan : TransferPlan π
  title : Text

structure PendingAndroidStart (π : Type) where
  id : Nat
  request : AndroidActionRequest π
  title : Text
  ownerKey : Text
  conflictGroup : Text

/-- What the user confirmed; `id` numbers the confirmations. -/
inductive Request (π : Type)
  | transfer (start : PendingTransferStart π)
  | android (start : PendingAndroidStart π)

namespace Request

def id : Request π → Nat
  | transfer start => start.id
  | android start => start.id

def deviceContext : Request π → DeviceContext π
  | transfer start => start.plan.deviceContext
  | android start => start.request.deviceContext

def isP2p : Request π → Bool
  | transfer start => start.plan.isP2p
  | android _ => false

def mutationGroup : Text := "file-manager.mutation".toList

/-- A transfer or a mutation, and not a request for properties. -/
def exclusive : Request π → Bool
  | transfer _ => true
  | android start => start.conflictGroup = mutationGroup

end Request

/-- A token with its `device_context`. -/
structure HeldToken (π : Type) where
  token : OperationToken
  deviceContext : DeviceContext π

structure Issued (π : Type) where
  request : Request π
  token : OperationToken

/-- The page with the manager and the registry that it shares with the rest of the program.
`confirmed`, `issued` and `handed` are the history: the requests, those that got a token, and
those whose worker was started. -/
structure FileManagerPage (τ π : Type) where
  deviceManager : DeviceManager τ π
  operations : OperationRegistry τ
  workersShuttingDown : Bool
  androidShellBackendAvailable : Bool
  pendingTransferStart : Option (PendingTransferStart π)
  pendingAndroidStart : Option (PendingAndroidStart π)
  transferRunning : Bool
  transferToken : Option (HeldToken π)
  rootCheckRunning : Bool
  rootCheckToken : Option (HeldToken π)
  androidLoading : Bool
  androidRefreshToken : Option (HeldToken π)
  androidListingRequest : Option (DeviceContext π)
  androidStorageLoading : Bool
  androidStorageToken : Option (HeldToken π)
  androidStorageRequest : Option (DeviceContext π)
  androidRefreshPending : Bool
  androidStorageRefreshPending : Bool
  androidRefreshDeferredUntilTransfer : Bool
  privilegeRefreshPending : Bool
  androidPath : Text
  androidViewPath : Text
  androidViewContext : Option (DeviceContext π)
  androidStorageContext : Option (DeviceContext π)
  confirmed : List (Request π)
  issued : List (Issued π)
  handed : List (Issued π)

namespace FileManagerPage

def init (u : UnicodeData) (supported : Bool) (serial kind : Text) (paths : ProfilePaths π)
    (androidPath : Text) : FileManagerPage τ π where
  deviceManager := .init u supported serial kind paths
  operations := .new
  workersShuttingDown := false
  androidShellBackendAvailable := true
  pendingTransferStart := none
  pendingAndroidStart := none
  transferRunning := false
  transferToken := none
  rootCheckRunning := false
  rootCheckToken := none
  androidLoading := false
  androidRefreshToken := none
  androidListingRequest := none
  androidStorageLoading := false
  androidStorageToken := none
  androidStorageRequest := none
  androidRefreshPending := false
  androidStorageRefreshPending := false
  androidRefreshDeferredUntilTransfer := false
  privilegeRefreshPending := false
  androidPath := androidPath
  androidViewPath := []
  androidViewContext := none
  androidStorageContext := none
  confirmed := []
  issued := []
  handed := []

variable [DecidableEq π]

-- `uuid` draws the id of the token that is registered when so many have been created.
variable (u : UnicodeData) (uuid : Nat → Text)

def isContextCurrent (s : FileManagerPage τ π) (context : DeviceContext π) : Bool :=
  s.deviceManager.isContextCurrent u context

def cancel (s : FileManagerPage τ π) (token : OperationToken) (reason : Text) : FileManagerPage τ π :=
  { s with operations := s.operations.cancel token reason }

def finish (s : FileManagerPage τ π) (token : OperationToken) : FileManagerPage τ π :=
  { s with operations := s.operations.finish token }

def setPrivilegeLease (s : FileManagerPage τ π) (token : OperationToken) (lease : Bool) :
    FileManagerPage τ π :=
  { s with operations := { s.operations with
      privilegeLease := Function.update s.operations.privilegeLease token.ref lease } }

def adbOrRecovery (mode : Text) : Bool := mode = adbMode || mode = recoveryMode

def requireContext (s : FileManagerPage τ π) : Option (DeviceContext π) :=
  match s.deviceManager.captureContext u with
  | .ok context => if adbOrRecovery context.mode then some context else none
  | .error _ => none

def deviceExclusive (serial : Text) : Text := "device-exclusive:".toList ++ serial

def acbridgeMaintenance (serial : Text) : Text := "acbridge-maintenance:".toList ++ serial

def registerArguments (ownerKey conflictGroup : Text) (cancelEvent : Option Nat) (exclusive : Bool)
    (context : DeviceContext π) : OperationRegistry.RegisterArguments where
  ownerKey := ownerKey
  generation := some context.generation
  conflictGroup := conflictGroup
  conflictGroups :=
    acbridgeMaintenance context.serial :: if exclusive then [deviceExclusive context.serial] else []
  cancelEvent := cancelEvent

/-- The checks that follow the registration. -/
def bindOperation (s : FileManagerPage τ π) (held : HeldToken π) :
    FileManagerPage τ π × Option (HeldToken π) :=
  if !s.isContextCurrent u held.deviceContext then
    ((s.cancel held.token "device context changed before the operation started".toList).finish held.token, none)
  else if held.deviceContext.serial.isEmpty then
    ((s.cancel held.token "could not bind ADB to the captured device".toList).finish held.token, none)
  else (s, some held)

/-- A conflict with a listing also starts the timer that repeats the refresh; its retry is one
of the refreshes that the environment may ask for. -/
def captureDeviceOperation (s : FileManagerPage τ π) (ownerKey conflictGroup : Text)
    (cancelEvent : Option Nat) (exclusive : Bool) (expectedContext : Option (DeviceContext π)) :
    FileManagerPage τ π × Option (HeldToken π) :=
  match expectedContext.or (s.requireContext u) with
  | none => (s, none)
  | some context =>
    if !adbOrRecovery context.mode then (s, none)
    else if !s.isContextCurrent u context then (s, none)
    else
      match s.operations.register u (registerArguments ownerKey conflictGroup cancelEvent exclusive context)
          (uuid s.operations.created.length) with
      | .error _ => (s, none)
      | .ok operations =>
        let token := s.operations.newToken u
          (registerArguments ownerKey conflictGroup cancelEvent exclusive context)
          (uuid s.operations.created.length)
        ({ s with operations := operations }.setPrivilegeLease token true).bindOperation u ⟨token, context⟩

/-- `start_worker`. -/
def startOperationWorker (s : FileManagerPage τ π) (token : OperationToken) :
    FileManagerPage τ π × Bool :=
  if s.workersShuttingDown then
    ((s.cancel token "worker owner is shutting down".toList).finish token, false)
  else (s, true)

def listingOwner : Text := "file-manager.listing".toList

def storageVolumesOwner : Text := "file-manager.storage-volumes".toList

def activePassiveListingTokens (s : FileManagerPage τ π) (context : DeviceContext π) :
    List OperationToken :=
  let active (held : HeldToken π) : Bool :=
    (held.token.ownerKey = listingOwner || held.token.ownerKey = storageVolumesOwner) &&
      held.deviceContext = context && s.operations.contains held.token
  ([s.androidRefreshToken, s.androidStorageToken].reduceOption.filter active).map (·.token)

def cancelEach (s : FileManagerPage τ π) (tokens : List OperationToken) (reason : Text) :
    FileManagerPage τ π :=
  tokens.foldl (fun s token => s.cancel token reason) s

def clearAndroidListing (s : FileManagerPage τ π) : FileManagerPage τ π :=
  { s with androidViewContext := none, androidViewPath := [] }

def clearWaitingTransferState (s : FileManagerPage τ π) : FileManagerPage τ π :=
  if s.transferToken.isNone then { s with transferRunning := false } else s

def cancelPendingTransferStart (s : FileManagerPage τ π) (privilegeOnly : Bool) : FileManagerPage τ π :=
  match s.pendingTransferStart with
  | none => s
  | some pending =>
    if privilegeOnly && pending.plan.isP2p then s
    else
      { s with
        pendingTransferStart := none
        androidRefreshDeferredUntilTransfer := false }.clearWaitingTransferState

def cancelPendingAndroidAction (s : FileManagerPage τ π) : FileManagerPage τ π :=
  { s with pendingAndroidStart := none }

def androidViewIsCurrent (s : FileManagerPage τ π) (context : DeviceContext π) : Bool :=
  s.isContextCurrent u context &&
    normalizeAndroidPath u s.androidViewPath = normalizeAndroidPath u s.androidPath

def clearStaleView (s : FileManagerPage τ π) : FileManagerPage τ π :=
  if s.androidViewContext.any (fun context => !s.androidViewIsCurrent u context) then s.clearAndroidListing
  else s

def clearStorage (s : FileManagerPage τ π) : FileManagerPage τ π := { s with androidStorageContext := none }

def clearStaleStorage (s : FileManagerPage τ π) : FileManagerPage τ π :=
  if s.androidStorageContext.any (fun context => !s.isContextCurrent u context) then s.clearStorage else s

def invalidatesRequests (s : FileManagerPage τ π) : Bool :=
  s.androidViewContext.any (fun context => !s.androidViewIsCurrent u context) ||
    [s.androidStorageContext, s.androidListingRequest, s.androidStorageRequest].reduceOption.any
      (fun context => !s.isContextCurrent u context)

def invalidateStaleDeviceView (s : FileManagerPage τ π) : FileManagerPage τ π :=
  let cleared := (s.clearStaleView u).clearStaleStorage u
  if s.invalidatesRequests u then (cleared.cancelPendingTransferStart false).cancelPendingAndroidAction
  else cleared

def clearOtherStorage (s : FileManagerPage τ π) (context : DeviceContext π) : FileManagerPage τ π :=
  if s.androidStorageContext.any (· ≠ context) then s.clearStorage else s

def holdStorage (s : FileManagerPage τ π) (held : HeldToken π) (request : DeviceContext π) :
    FileManagerPage τ π :=
  { s with
    androidStorageToken := some held
    androidStorageRequest := some request
    androidStorageLoading := true }

/-- A worker is refused only when the page shuts down, and then the registry has refused the
token (`Captured.accepted`). -/
def refreshAndroidStorageRoots (s : FileManagerPage τ π) : FileManagerPage τ π :=
  let s := s.invalidateStaleDeviceView u
  if !s.androidShellBackendAvailable then s.clearStorage
  else if s.transferRunning then { s with androidRefreshDeferredUntilTransfer := true }
  else if s.androidStorageLoading then { s with androidStorageRefreshPending := true }
  else if s.androidLoading then { s with androidStorageRefreshPending := true }
  else if !adbOrRecovery s.deviceManager.active.mode then s.clearStorage
  else
    match s.requireContext u with
    | none => s
    | some request =>
      match s.captureDeviceOperation u uuid storageVolumesOwner storageVolumesOwner none false request with
      | (s, none) => s
      | (s, some held) =>
        (((s.clearOtherStorage held.deviceContext).holdStorage held request).startOperationWorker held.token).1

def clearOtherView (s : FileManagerPage τ π) (context : DeviceContext π) : FileManagerPage τ π :=
  if s.androidViewContext ≠ some context ||
      normalizeAndroidPath u s.androidViewPath ≠ normalizeAndroidPath u s.androidPath then
    s.clearAndroidListing
  else s

def holdListing (s : FileManagerPage τ π) (held : HeldToken π) (request : DeviceContext π) :
    FileManagerPage τ π :=
  { s with
    androidRefreshToken := some held
    androidListingRequest := some request
    androidLoading := true }

def refreshAndroid (s : FileManagerPage τ π) : FileManagerPage τ π :=
  let s := s.invalidateStaleDeviceView u
  if !s.androidShellBackendAvailable then s.clearAndroidListing
  else if s.transferRunning then { s with androidRefreshDeferredUntilTransfer := true }
  else if s.androidLoading then { s with androidRefreshPending := true }
  else if s.androidStorageLoading then { s with androidRefreshPending := true }
  else if !adbOrRecovery s.deviceManager.active.mode then s.clearAndroidListing
  else
    match s.requireContext u with
    | none => s
    | some request =>
      match s.captureDeviceOperation u uuid listingOwner listingOwner none false request with
      | (s, none) => s
      | (s, some held) =>
        (((s.clearOtherView u held.deviceContext).holdListing held request).startOperationWorker held.token).1

def refreshAll (s : FileManagerPage τ π) : FileManagerPage τ π :=
  ((s.invalidateStaleDeviceView u).refreshAndroidStorageRoots u uuid).refreshAndroid u uuid

def fileManagerPrefix : Text := "file-manager.".toList

def maybeStartPrivilegeBackendRefresh (s : FileManagerPage τ π) : FileManagerPage τ π × Bool :=
  if !s.privilegeRefreshPending then (s, false)
  else if s.workersShuttingDown then ({ s with privilegeRefreshPending := false }, false)
  else
    let lease (token : OperationToken) : Bool := s.operations.privilegeLease token.ref
    let activePrivilegeActions := s.operations.tokens.any
      (fun token => lease token && fileManagerPrefix.isPrefixOf token.ownerKey)
    if activePrivilegeActions || s.androidLoading || s.androidStorageLoading || s.rootCheckRunning ||
        (s.transferRunning && s.transferToken.any (fun held => lease held.token)) then (s, false)
    else if !adbOrRecovery s.deviceManager.active.mode then (s, false)
    else ({ s with privilegeRefreshPending := false }.refreshAll u uuid, true)

def holds (slot : Option (HeldToken π)) (held : HeldToken π) : Bool :=
  slot.any (fun current => current.token = held.token)

def releaseTransfer (s : FileManagerPage τ π) : FileManagerPage τ π :=
  { s with
    androidRefreshDeferredUntilTransfer := false
    transferToken := none
    transferRunning := false }

def refreshDeferred (s : FileManagerPage τ π) (deferred : Bool) : FileManagerPage τ π :=
  if deferred then (s.refreshAndroidStorageRoots u uuid).refreshAndroid u uuid else s

/-- `refresh` says that the result left `refresh_android` to be called. -/
def transferWorkerFinished (s : FileManagerPage τ π) (held : HeldToken π) (refresh : Bool) :
    FileManagerPage τ π :=
  if holds s.transferToken held then
    let finished := (s.finish held.token).releaseTransfer.refreshDeferred u uuid
      s.androidRefreshDeferredUntilTransfer
    if !s.isContextCurrent u held.deviceContext then finished
    else
      let refreshed := if refresh then finished.refreshAndroid u uuid else finished
      (refreshed.maybeStartPrivilegeBackendRefresh u uuid).1
  else s.finish held.token

def holdTransfer (s : FileManagerPage τ π) (held : HeldToken π) : FileManagerPage τ π :=
  { s with
    pendingTransferStart := none
    transferToken := some held
    transferRunning := true }

def issue (s : FileManagerPage τ π) (issued : Issued π) : FileManagerPage τ π :=
  { s with issued := s.issued ++ [issued] }

def hand (s : FileManagerPage τ π) (issued : Issued π) : FileManagerPage τ π :=
  { s with handed := s.handed ++ [issued] }

/-- `privilege_lease = None`. -/
def withoutLease (s : FileManagerPage τ π) (token : OperationToken) (without : Bool) : FileManagerPage τ π :=
  if without then s.setPrivilegeLease token false else s

def startPreparedTransfer (s : FileManagerPage τ π) (pending : PendingTransferStart π) :
    FileManagerPage τ π × Bool :=
  let ownerKey :=
    if pending.plan.isUpload then "file-manager.push".toList else "file-manager.pull".toList
  match s.captureDeviceOperation u uuid ownerKey "file-manager.transfer".toList (some pending.id) true
      pending.plan.deviceContext with
  | (s, none) => (s, false)
  | (s, some held) =>
    match (((s.withoutLease held.token pending.plan.isP2p).holdTransfer held).issue
        ⟨.transfer pending, held.token⟩).startOperationWorker held.token with
    | (s, true) => (s.hand ⟨.transfer pending, held.token⟩, true)
    | (s, false) => (s.transferWorkerFinished u uuid held false, false)

def waitingReason (title : Text) : Text :=
  title ++ " is waiting for the passive Android folder refresh to stop.".toList

def deferTransfer (s : FileManagerPage τ π) (pending : PendingTransferStart π) : FileManagerPage τ π :=
  { s with
    pendingTransferStart := some pending
    androidRefreshPending := false
    androidStorageRefreshPending := false
    transferRunning := true }

def startOrDeferTransfer (s : FileManagerPage τ π) (pending : PendingTransferStart π) :
    FileManagerPage τ π :=
  let listingTokens := s.activePassiveListingTokens pending.plan.deviceContext
  if listingTokens.isEmpty then (s.startPreparedTransfer u uuid pending).1
  else if s.pendingTransferStart.isSome then s
  else (s.deferTransfer pending).cancelEach listingTokens (waitingReason pending.title)

def refreshAgain (s : FileManagerPage τ π) (storage : Bool) : FileManagerPage τ π :=
  { s with
    androidStorageRefreshPending := s.androidStorageRefreshPending || storage
    androidRefreshPending := true }

def takePendingTransfer (s : FileManagerPage τ π) : FileManagerPage τ π :=
  { s with pendingTransferStart := none }

def startPendingTransferIfReady (s : FileManagerPage τ π) : FileManagerPage τ π × Bool :=
  match s.pendingTransferStart with
  | none => (s, false)
  | some pending =>
    if s.workersShuttingDown then (s.cancelPendingTransferStart false, true)
    else if !(s.activePassiveListingTokens pending.plan.deviceContext).isEmpty then (s, false)
    else if !s.isContextCurrent u pending.plan.deviceContext then
      (s.takePendingTransfer.clearWaitingTransferState.refreshAgain true, false)
    else
      match s.takePendingTransfer.startPreparedTransfer u uuid pending with
      | (s, true) => (s, true)
      | (s, false) => (s.clearWaitingTransferState.refreshAgain false, false)

/-- The part of `_start_android` that waits for no listing. -/
def startAndroidNow (s : FileManagerPage τ π) (pending : PendingAndroidStart π) :
    FileManagerPage τ π × Bool :=
  if s.transferRunning then (s, false)
  else
    match s.captureDeviceOperation u uuid pending.ownerKey pending.conflictGroup none
        (pending.conflictGroup = Request.mutationGroup) pending.request.deviceContext with
    | (s, none) => (s, false)
    | (s, some held) =>
      match ((s.withoutLease held.token (pending.request.action = .installApk)).issue
          ⟨.android pending, held.token⟩).startOperationWorker held.token with
      | (s, true) => (s.hand ⟨.android pending, held.token⟩, true)
      | (s, false) => (s, false)

def deferAndroid (s : FileManagerPage τ π) (pending : PendingAndroidStart π) : FileManagerPage τ π :=
  { s with
    pendingAndroidStart := some pending
    androidRefreshPending := false
    androidStorageRefreshPending := false }

def deferAndroidStartUntilListingFinishes (s : FileManagerPage τ π) (pending : PendingAndroidStart π) :
    FileManagerPage τ π × Bool :=
  let listingTokens := s.activePassiveListingTokens pending.request.deviceContext
  if listingTokens.isEmpty then (s, false)
  else if s.pendingAndroidStart.isSome then (s, true)
  else ((s.deferAndroid pending).cancelEach listingTokens (waitingReason pending.title), true)

def startAndroid (s : FileManagerPage τ π) (pending : PendingAndroidStart π) : FileManagerPage τ π × Bool :=
  if s.transferRunning then (s, false)
  else if pending.conflictGroup = Request.mutationGroup then
    match s.deferAndroidStartUntilListingFinishes pending with
    | (s, true) => (s, true)
    | (s, false) => s.startAndroidNow u uuid pending
  else s.startAndroidNow u uuid pending

def forgetRefreshes (s : FileManagerPage τ π) : FileManagerPage τ π :=
  { s with
    androidRefreshPending := false
    androidStorageRefreshPending := false }

def startPendingAndroidActionIfReady (s : FileManagerPage τ π) : FileManagerPage τ π × Bool :=
  match s.pendingAndroidStart with
  | none => (s, false)
  | some pending =>
    if s.workersShuttingDown then (s.cancelPendingAndroidAction, true)
    else if !(s.activePassiveListingTokens pending.request.deviceContext).isEmpty then (s, false)
    else if !s.isContextCurrent u pending.request.deviceContext then
      (s.cancelPendingAndroidAction.refreshAgain true, false)
    else
      match s.cancelPendingAndroidAction.forgetRefreshes.startAndroidNow u uuid pending with
      | (s, true) => (s, true)
      | (s, false) => (s.refreshAgain false, false)

/-- What both finishing listings go on with. -/
def listingFinished (s : FileManagerPage τ π) : FileManagerPage τ π :=
  match s.startPendingTransferIfReady u uuid with
  | (s, true) => s
  | (s, false) =>
    match s.startPendingAndroidActionIfReady u uuid with
    | (s, true) => s
    | (s, false) =>
      match s.maybeStartPrivilegeBackendRefresh u uuid with
      | (s, true) => s
      | (s, false) =>
        if s.androidStorageRefreshPending then
          { s with androidStorageRefreshPending := false }.refreshAndroidStorageRoots u uuid
        else if s.androidRefreshPending then
          { s with androidRefreshPending := false }.refreshAndroid u uuid
        else s

def releaseStorage (s : FileManagerPage τ π) : FileManagerPage τ π :=
  { s with
    androidStorageToken := none
    androidStorageRequest := none
    androidStorageLoading := false }

def androidStorageRefreshFinished (s : FileManagerPage τ π) (held : HeldToken π) : FileManagerPage τ π :=
  if holds s.androidStorageToken held then (s.finish held.token).releaseStorage.listingFinished u uuid
  else s.finish held.token

def releaseListing (s : FileManagerPage τ π) : FileManagerPage τ π :=
  { s with
    androidRefreshToken := none
    androidListingRequest := none
    androidLoading := false }

def androidRefreshFinished (s : FileManagerPage τ π) (held : HeldToken π) : FileManagerPage τ π :=
  if holds s.androidRefreshToken held then (s.finish held.token).releaseListing.listingFinished u uuid
  else s.finish held.token

def androidFinished (s : FileManagerPage τ π) (held : HeldToken π) (refresh : Bool) :
    FileManagerPage τ π :=
  let finished := s.finish held.token
  let refreshed :=
    if refresh && !s.workersShuttingDown && s.isContextCurrent u held.deviceContext then
      finished.refreshAndroid u uuid
    else finished
  (refreshed.maybeStartPrivilegeBackendRefresh u uuid).1

def operationIsCurrent (s : FileManagerPage τ π) (held : HeldToken π) : Bool :=
  !s.workersShuttingDown && s.operations.contains held.token &&
    s.isContextCurrent u held.deviceContext && !s.operations.cancelled held.token

/-- A result that the listing controller accepts. -/
def androidItemsLoaded (s : FileManagerPage τ π) (held : HeldToken π) (path : Text) :
    FileManagerPage τ π :=
  if holds s.androidRefreshToken held && s.operationIsCurrent u held && path = s.androidPath then
    { s with androidViewContext := some held.deviceContext, androidViewPath := path }
  else s

def androidStorageRootsLoaded (s : FileManagerPage τ π) (held : HeldToken π) : FileManagerPage τ π :=
  if holds s.androidStorageToken held && s.operationIsCurrent u held then
    { s with androidStorageContext := some held.deviceContext }
  else s

def cancelHeld (s : FileManagerPage τ π) (slot : Option (HeldToken π)) (reason : Text) :
    FileManagerPage τ π :=
  match slot with
  | none => s
  | some held => s.cancel held.token reason

def folderChanged : Text := "Android folder changed before the previous listing completed.".toList

def leavePath (s : FileManagerPage τ π) : FileManagerPage τ π :=
  { (s.cancelHeld s.androidRefreshToken folderChanged).clearAndroidListing with
    androidRefreshPending := s.androidRefreshPending || s.androidRefreshToken.isSome }

/-- What `navigate_android` does first. -/
def leaveFor (s : FileManagerPage τ π) (path : Text) : FileManagerPage τ π :=
  if normalizeAndroidPath u path ≠ normalizeAndroidPath u s.androidPath then s.leavePath else s

def setPath (s : FileManagerPage τ π) (path : Text) : FileManagerPage τ π := { s with androidPath := path }

/-- `reloaded` is the path of the new profile when the old one can no longer be saved. -/
def navigateAndroid (s : FileManagerPage τ π) (path : Text) (reloaded : Option Text) :
    FileManagerPage τ π :=
  match reloaded with
  | some saved => (s.leaveFor u path).setPath saved
  | none => ((s.leaveFor u path).setPath (normalizeAndroidPath u path)).refreshAndroid u uuid

def holdRootCheck (s : FileManagerPage τ π) (held : HeldToken π) : FileManagerPage τ π :=
  { s with
    rootCheckToken := some held
    rootCheckRunning := true }

def checkRootAvailability (s : FileManagerPage τ π) : FileManagerPage τ π :=
  if s.rootCheckRunning then s
  else
    match s.captureDeviceOperation u uuid "file-manager.root-check".toList
        "file-manager.root-check".toList none false none with
    | (s, none) => s
    | (s, some held) => ((s.holdRootCheck held).startOperationWorker held.token).1

def releaseRootCheck (s : FileManagerPage τ π) : FileManagerPage τ π :=
  { s with
    rootCheckToken := none
    rootCheckRunning := false }

def rootCheckFinished (s : FileManagerPage τ π) (held : HeldToken π) : FileManagerPage τ π :=
  if holds s.rootCheckToken held then
    ((s.finish held.token).releaseRootCheck.maybeStartPrivilegeBackendRefresh u uuid).1
  else s.finish held.token

def leasedTokens (s : FileManagerPage τ π) : List OperationToken :=
  ([s.androidRefreshToken, s.androidStorageToken, s.rootCheckToken, s.transferToken].reduceOption.map
    (·.token)).filter (fun token => s.operations.privilegeLease token.ref)

def forgetListings (s : FileManagerPage τ π) : FileManagerPage τ π :=
  { s.forgetRefreshes with
    androidListingRequest := none
    androidStorageRequest := none }

def accessModeChanged : Text := "selected access mode changed".toList

def invalidatePrivilegeBackendView (s : FileManagerPage τ π) : FileManagerPage τ π :=
  let s := (s.cancelPendingTransferStart true).cancelPendingAndroidAction
  (s.cancelEach s.leasedTokens accessModeChanged).forgetListings.clearAndroidListing.clearStorage

def requestPrivilegeBackendRefresh (s : FileManagerPage τ π) : FileManagerPage τ π :=
  ({ s with privilegeRefreshPending := true }.maybeStartPrivilegeBackendRefresh u uuid).1

def cancelActiveTransfers (s : FileManagerPage τ π) : FileManagerPage τ π :=
  let s := s.cancelPendingAndroidAction.cancelPendingTransferStart false
  s.cancelHeld s.transferToken "Application shutdown requested.".toList

/-- What reaches the page, handler by handler: `startOrDeferTransfer` and `startAndroid` come with
a request that the user has just confirmed, the workers' results and ends at any later time. The
manager and the registry take the steps of all other threads. -/
inductive Event (τ π : Type)
  | startOrDeferTransfer (plan : TransferPlan π) (title : Text)
  | startAndroid (request : AndroidActionRequest π) (title ownerKey conflictGroup : Text)
  | refreshAndroidStorageRoots
  | refreshAndroid
  | refreshAll
  | navigateAndroid (path : Text) (reloaded : Option Text)
  | androidItemsLoaded (held : HeldToken π) (path : Text)
  | androidStorageRootsLoaded (held : HeldToken π)
  | androidRefreshFinished (held : HeldToken π)
  | androidStorageRefreshFinished (held : HeldToken π)
  | transferWorkerFinished (held : HeldToken π) (refresh : Bool)
  | androidFinished (held : HeldToken π) (refresh : Bool)
  | checkRootAvailability
  | rootCheckFinished (held : HeldToken π)
  | invalidateStaleDeviceView
  | invalidatePrivilegeBackendView
  | requestPrivilegeBackendRefresh
  | closeEvent (thread : τ)
  | cancelActiveTransfers
  | setShellBackendAvailable (available : Bool)
  | reloadFromSettings (path : Text)
  | device (a : DeviceManager.Action τ π)
  | registry (a : OperationRegistry.Action τ)

/-- A handler of a finished worker is called with a token that `register` has returned. -/
def ended (s : FileManagerPage τ π) (held : HeldToken π) (t : FileManagerPage τ π) :
    Option (FileManagerPage τ π) :=
  if held.token ∈ s.operations.created then some t else none

def confirm (s : FileManagerPage τ π) (request : Request π) : FileManagerPage τ π :=
  { s with confirmed := s.confirmed ++ [request] }

def step [DecidableEq τ] (s : FileManagerPage τ π) : Event τ π → Option (FileManagerPage τ π)
  | .startOrDeferTransfer plan title =>
    let pending : PendingTransferStart π := ⟨s.confirmed.length, plan, title⟩
    some ((s.confirm (.transfer pending)).startOrDeferTransfer u uuid pending)
  | .startAndroid request title ownerKey conflictGroup =>
    let pending : PendingAndroidStart π := ⟨s.confirmed.length, request, title, ownerKey, conflictGroup⟩
    some ((s.confirm (.android pending)).startAndroid u uuid pending).1
  | .refreshAndroidStorageRoots => some (s.refreshAndroidStorageRoots u uuid)
  | .refreshAndroid => some (s.refreshAndroid u uuid)
  | .refreshAll => some (s.refreshAll u uuid)
  | .navigateAndroid path reloaded => some (s.navigateAndroid u uuid path reloaded)
  | .androidItemsLoaded held path => some (s.androidItemsLoaded u held path)
  | .androidStorageRootsLoaded held => some (s.androidStorageRootsLoaded u held)
  | .androidRefreshFinished held => s.ended held (s.androidRefreshFinished u uuid held)
  | .androidStorageRefreshFinished held => s.ended held (s.androidStorageRefreshFinished u uuid held)
  | .transferWorkerFinished held refresh => s.ended held (s.transferWorkerFinished u uuid held refresh)
  | .androidFinished held refresh => s.ended held (s.androidFinished u uuid held refresh)
  | .checkRootAvailability => some (s.checkRootAvailability u uuid)
  | .rootCheckFinished held => s.ended held (s.rootCheckFinished u uuid held)
  | .invalidateStaleDeviceView => some (s.invalidateStaleDeviceView u)
  | .invalidatePrivilegeBackendView => some s.invalidatePrivilegeBackendView
  | .requestPrivilegeBackendRefresh => some (s.requestPrivilegeBackendRefresh u uuid)
  | .closeEvent thread =>
    (s.operations.step u (.shutdown thread "application shutdown".toList)).map
      (fun operations => { s with workersShuttingDown := true, operations := operations })
  | .cancelActiveTransfers => some s.cancelActiveTransfers
  | .setShellBackendAvailable available => some { s with androidShellBackendAvailable := available }
  | .reloadFromSettings path => some { s with androidPath := path }
  | .device a => (s.deviceManager.step u a).map (fun manager => { s with deviceManager := manager })
  | .registry a => (s.operations.step u a).map (fun operations => { s with operations := operations })

end FileManagerPage

end OpenAdb.Files.Requests
