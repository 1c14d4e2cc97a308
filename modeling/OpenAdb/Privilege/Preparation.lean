import OpenAdb.Commands.Results
import OpenAdb.Lib.EventLog
import OpenAdb.Lib.PyLines
import OpenAdb.Privilege.Manager

namespace OpenAdb.Privilege.Preparation

open OpenAdb.Lib.PyText OpenAdb.Lib.PyLines OpenAdb.Lib.Effects OpenAdb.Lib.EventLog
open OpenAdb.Commands.Results (CommandResult)
open OpenAdb.Context.Device (DeviceContext adbMode)
open OpenAdb.Privilege.Manager (ShizukuState Session PrivilegeStatus Raised standardWithUid fromRootCheck fromShizuku
  trustedState sessionUid verifiedUid recoveryMode)
open OpenAdb.Settings.Values (Backend)

variable {π α : Type}

/-- The character tables with `str.isdigit`. -/
structure Tables extends UnicodeData where
  digit : Char → Bool
  digit_zero : digit '0' = true
  decimal_zero : decimal '0' = some 0

section Uids

variable (u : Tables)

def isdigit (value : Text) : Bool := !value.isEmpty && value.all u.digit

/-- `int` of a text without a sign. Not every digit is a decimal one. -/
def intOf (value : Text) : Option Nat :=
  if isdecimal u.toUnicodeData value && value.length ≤ 4300 then some (intOfDigits u.toUnicodeData value) else none

def uidFromLines : List Text → Except Raised (Option Nat)
  | [] => .ok none
  | line :: lines =>
    let value := strip u.toUnicodeData line
    if isdigit u value then
      match intOf u value with
      | some uid => .ok (some uid)
      | none => .error .external
    else uidFromLines lines

def uidFromResult (result : CommandResult) : Except Raised (Option Nat) :=
  if result.success then uidFromLines u (splitlines result.stdout) else .ok none

def resultHasRootUid (result : CommandResult) : Bool :=
  result.success && (splitlines result.stdout).any (fun line => strip u.toUnicodeData line = ['0'])

/-- The user ids in the output of a probe that succeeded. -/
def reportedUids (result : CommandResult) : List Nat :=
  if result.success then (splitlines result.stdout).filterMap (fun line =>
    if isdigit u (strip u.toUnicodeData line) then intOf u (strip u.toUnicodeData line) else none)
  else []

end Uids

/-- Where the `run_shell` of a client sends a command: `run_shell` or `run_root_shell` of the bound client,
or the session. -/
inductive Route
  | runShell | runRootShell | session
  deriving DecidableEq

inductive RootExecutionStrategy
  | direct | su
  deriving DecidableEq

def RootExecutionStrategy.route : RootExecutionStrategy → Route
  | .direct => .runShell
  | .su => .runRootShell

/-- The bound client itself, or one that hands its shell commands on. -/
inductive Kind
  | bound
  | rootAware (strategy : RootExecutionStrategy)
  | shizukuAware (session : Session)

def Kind.route : Kind → Route
  | .bound => .runShell
  | .rootAware strategy => strategy.route
  | .shizukuAware _ => .session

/-- A client with the attributes that a preparation gives it. -/
structure Client where
  kind : Kind
  requestedPrivilegeBackend : Backend
  effectivePrivilegeBackend : Backend
  privilegeFallbackMessage : Text
  verifiedUid : Option Nat

/-- What a preparation asks and does, in its order. The checks have seen whatever other threads did. -/
inductive Event
  | captured (backend : Backend)
  | lease (holds : Bool)
  | current (holds : Bool)
  | cancelled (set : Bool)
  | bound (reply : Except Raised Unit)
  | shell (route : Route) (command : Text) (reply : Except Raised CommandResult)
  | cached (status : Option (PrivilegeStatus × Bool))
  | session (reply : Except Raised Session)
  | verified (status : PrivilegeStatus)
  | reset

abbrev Log := List Event

/-- What answers a preparation, as a function of the events before: the lease and the device, who cancels,
the adb client, the cached status, which is recent or not, and the bridge. -/
structure World where
  capture : Log → Backend
  leaseHolds : Log → Bool
  contextCurrent : Log → Bool
  operationCancelled : Log → Bool
  linkedCancelled : Log → Bool
  bind : Log → Except Raised Unit
  shell : Log → Route → Text → Except Raised CommandResult
  cachedStatus : Log → Option (PrivilegeStatus × Bool)
  prepareSession : Log → Except Raised Session

abbrev Procedure (α : Type) := Effect Raised Log α

section Steps

variable (w : World)

def examine (answer : Log → Bool) (event : Bool → Event) (e : Raised) : Procedure Unit := do
  let holds ← look answer event
  require (holds = true) e

def requireOperationLease : Procedure Unit := examine w.leaseHolds .lease .accessModeChanged

def requireContextCurrent : Procedure Unit := examine w.contextCurrent .current .staleDeviceContext

def raiseIfCancelled (isSet : Log → Bool) : Procedure Unit := examine (fun log => !isSet log) (fun b => .cancelled !b) .cancelled

/-- The checks after each answer of the device. -/
def stillPreparing : Procedure Unit := do
  raiseIfCancelled w.linkedCancelled
  requireContextCurrent w
  requireOperationLease w

def immutableBoundAdb : Procedure Unit := ask w.bind .bound

def runShell (route : Route) (command : Text) : Procedure CommandResult :=
  ask (fun log => w.shell log route command) (.shell route command)

/-- `id -u` -/
def idU : Text := "id -u".toList

def cacheIfCurrent (status : PrivilegeStatus) : Procedure Unit := update (fun log => .verified status :: log)

def resetIfLeaseCurrent : Procedure Unit := update (fun log => .reset :: log)

/-- An error resets the mode unless the preparation was cancelled. -/
def resetOnError (x : Procedure α) : Procedure α := catching x (fun e => do
  let set ← look w.linkedCancelled .cancelled
  if set then raise e
  else
    resetIfLeaseCurrent
    raise e)

end Steps

section Preparing

variable (u : Tables) (w : World) (context : DeviceContext π)

def markDirectBackend (backend : Backend) (uid : Option Nat) : Client :=
  ⟨.bound, backend, backend, [], uid⟩

def markDirectFallback (requested : Backend) (message : Text) (uid : Option Nat) : Client :=
  ⟨.bound, requested, .standard, strip u.toUnicodeData message, uid⟩

def prepareStandardAdb : Procedure Client := do
  let result ← runShell w .runShell idU
  let direct_uid ← lift (uidFromResult u result)
  raiseIfCancelled w.linkedCancelled
  requireOperationLease w
  let status := standardWithUid context direct_uid
  cacheIfCurrent status
  if status.available then pure (markDirectBackend .standard direct_uid) else raise .unavailable

def unavailableMode : Text :=
  "Root shell is unavailable while the device is in ".toList ++ context.mode ++
    " mode; this operation uses the captured direct ADB transport.".toList

def unavailableRoot : Text :=
  "Root access is unavailable for this device; this operation uses the captured standard ADB shell.".toList

/-- The user id of the direct shell and the strategy that was verified. -/
def probeRoot : Procedure (Option Nat × Option RootExecutionStrategy) := do
  let direct_result ← runShell w .runShell idU
  stillPreparing w
  let direct_uid ← lift (uidFromResult u direct_result)
  if resultHasRootUid u direct_result then pure (direct_uid, some .direct)
  else
    let su_result ← runShell w .runRootShell idU
    stillPreparing w
    pure (direct_uid, if resultHasRootUid u su_result then some .su else none)

/-- A client without root access is the bound one, if its shell is known. -/
def fallBack (direct_uid : Option Nat) : Procedure Client :=
  if (standardWithUid context direct_uid).available then
    pure (markDirectFallback u .root unavailableRoot direct_uid)
  else raise .unavailable

def rootAware (strategy : RootExecutionStrategy) : Client := ⟨.rootAware strategy, .root, .root, [], some 0⟩

def prepareRootAdb : Procedure Client :=
  if context.mode ≠ adbMode ∧ context.mode ≠ recoveryMode then do
    requireContextCurrent w
    pure (markDirectFallback u .root (unavailableMode context) none)
  else do
    let (direct_uid, strategy) ← resetOnError w (probeRoot u w)
    stillPreparing w
    cacheIfCurrent (fromRootCheck context strategy.isSome)
    requireContextCurrent w
    requireOperationLease w
    match strategy with
    | none => fallBack u context direct_uid
    | some strategy => do
      requireContextCurrent w
      pure (rootAware strategy)

def rejectSession : Procedure Client := do
  resetIfLeaseCurrent
  raise .unavailable

/-- The user id and the state of a recent status that a session may be made from. -/
def cachedIdentity : Option (PrivilegeStatus × Bool) → Option Nat × Option ShizukuState
  | some (cached, true) =>
    (if cached.backend = .shizuku ∧ cached.available ∧ verifiedUid cached.uid then cached.uid else none,
      trustedState cached)
  | _ => (none, none)

/-- `session_from_verified_state` or `prepare_session`. -/
def openSession (cached_uid : Option Nat) : Option ShizukuState → Procedure Session
  | some state => pure ⟨state, cached_uid⟩
  | none => ask w.prepareSession .session

def shizukuAware (session : Session) : Client := ⟨.shizukuAware session, .shizuku, .shizuku, [], sessionUid session⟩

def prepareShizukuAdb : Procedure Client :=
  if context.mode ≠ adbMode then do
    requireOperationLease w
    requireContextCurrent w
    raise .unavailable
  else do
    let cached ← look w.cachedStatus .cached
    let (cached_uid, cached_state) := cachedIdentity cached
    let session ← resetOnError w (openSession w cached_uid cached_state)
    stillPreparing w
    if session.state.state = .cancelled then raise .cancelled
    else if ¬(session.ready ∧ verifiedUid (sessionUid session)) then rejectSession
    else if cached_uid.isSome ∧ sessionUid session ≠ cached_uid then rejectSession
    else do
      raiseIfCancelled w.linkedCancelled
      requireContextCurrent w
      if cached_state.isSome then pure () else cacheIfCurrent (fromShizuku context session.state)
      requireContextCurrent w
      requireOperationLease w
      requireContextCurrent w
      pure (shizukuAware session)

def leaseOr : Option Backend → Procedure Backend
  | some backend => pure backend
  | none => look w.capture .captured

/-- `prepare_adb`; of the lease only the mode is told, its checks are answered. -/
def prepareAdb (lease : Option Backend) : Procedure Client := do
  let selected ← leaseOr w lease
  requireOperationLease w
  requireContextCurrent w
  raiseIfCancelled w.operationCancelled
  immutableBoundAdb w
  requireOperationLease w
  requireContextCurrent w
  match selected with
  | .standard => prepareStandardAdb u w context
  | .root => prepareRootAdb u w context
  | .shizuku => prepareShizukuAdb w context

end Preparing

section Uids

variable {u : Tables}

/-- The first parser reads the first number. -/
theorem uidFromLines_head {lines : List Text} {uid : Nat} (h : uidFromLines u lines = .ok (some uid)) :
    (lines.filterMap (fun line =>
      if isdigit u (strip u.toUnicodeData line) then intOf u (strip u.toUnicodeData line) else none)).head? =
      some uid := by
  induction lines with
  | nil => cases h
  | cons line lines ih =>
    rw [uidFromLines] at h
    by_cases hdigit : isdigit u (strip u.toUnicodeData line) = true
    · rw [if_pos hdigit] at h
      cases hint : intOf u (strip u.toUnicodeData line) with
      | none =>
        rw [hint] at h
        cases h
      | some n =>
        rw [hint] at h
        cases h
        rw [List.filterMap_cons_some]
        · rfl
        · rw [if_pos hdigit]
          exact hint
    · rw [if_neg hdigit] at h
      rw [List.filterMap_cons_none]
      · exact ih h
      · exact if_neg hdigit

theorem uidFromResult_head {result : CommandResult} {uid : Nat} (h : uidFromResult u result = .ok (some uid)) :
    (reportedUids u result).head? = some uid := by
  rw [uidFromResult] at h
  rw [reportedUids]
  by_cases hsuccess : result.success = true
  · rw [if_pos hsuccess] at h ⊢
    exact uidFromLines_head h
  · rw [if_neg hsuccess] at h
    cases h

/-- The second parser finds a zero on any line. -/
theorem zero_mem_reportedUids {result : CommandResult} (h : resultHasRootUid u result = true) :
    0 ∈ reportedUids u result := by
  rw [resultHasRootUid, Bool.and_eq_true] at h
  obtain ⟨line, hline, hzero⟩ := List.any_eq_true.mp h.2
  rw [reportedUids, if_pos h.1]
  refine List.mem_filterMap.mpr ⟨line, hline, ?_⟩
  rw [of_decide_eq_true hzero]
  have hdigit : isdigit u ['0'] = true := by
    rw [isdigit, List.all_cons, u.digit_zero]
    rfl
  have hdecimal : isdecimal u.toUnicodeData ['0'] = true := by
    rw [isdecimal, List.all_cons, u.decimal_zero]
    rfl
  have hvalue : intOfDigits u.toUnicodeData ['0'] = 0 := by
    rw [intOfDigits, List.foldl_cons, u.decimal_zero]
    rfl
  rw [if_pos hdigit, intOf, hdecimal, hvalue]
  rfl

/-- Both parsers read the same number off an output that has only one. -/
theorem parsers_agree {result : CommandResult} {uid n : Nat} (hone : reportedUids u result = [n])
    (hfirst : uidFromResult u result = .ok (some uid)) (hroot : resultHasRootUid u result = true) : uid = 0 := by
  have hhead := uidFromResult_head hfirst
  have hzero := zero_mem_reportedUids hroot
  rw [hone] at hhead hzero
  exact (Option.some_inj.mp hhead).symm.trans (List.mem_singleton.mp hzero).symm

theorem available_iff {context : DeviceContext π} {uid : Option Nat} :
    (standardWithUid context uid).available = true ↔ uid = some 2000 := by
  rw [PrivilegeStatus.available, decide_eq_true_eq]
  change (if uid = some 2000 then Manager.AccessState.ready else if uid.isSome then .blocked else .unavailable) = _ ↔ _
  by_cases huid : uid = some 2000
  · rw [if_pos huid]
    exact iff_of_true rfl huid
  · rw [if_neg huid]
    cases uid with
    | none => exact iff_of_false nofun huid
    | some uid => exact iff_of_false nofun huid

end Uids

/-- A probe through this route has returned such a result. -/
def Probed (route : Route) (R : CommandResult → Prop) (log : Log) : Prop :=
  ∃ result, .shell route idU (.ok result) ∈ log ∧ R result

/-- What a client that was returned tells about its shell is what was seen. -/
structure Granted (u : Tables) (context : DeviceContext π) (client : Client) (log : Log) : Prop where
  standard : client.requestedPrivilegeBackend = .standard →
    client.kind = .bound ∧ client.effectivePrivilegeBackend = .standard ∧ client.privilegeFallbackMessage = [] ∧
      client.verifiedUid = some 2000 ∧
      Probed client.kind.route (fun result => (reportedUids u result).head? = some 2000) log
  root : client.effectivePrivilegeBackend = .root →
    (∃ strategy, client.kind = .rootAware strategy) ∧ client.verifiedUid = some 0 ∧
      Probed client.kind.route (fun result => 0 ∈ reportedUids u result) log
  shizuku : client.effectivePrivilegeBackend = .shizuku →
    ∃ session, client.kind = .shizukuAware session ∧ session.ready = true ∧
      (client.verifiedUid = some 0 ∨ client.verifiedUid = some 2000) ∧
      session.state.uid = client.verifiedUid ∧ session.expectedUid = client.verifiedUid
  fallback : client.requestedPrivilegeBackend = .root → client.kind = .bound →
    client.effectivePrivilegeBackend = .standard ∧ client.privilegeFallbackMessage ≠ [] ∧
      (context.mode = adbMode ∨ context.mode = recoveryMode →
        Probed .runShell (fun result => (reportedUids u result).head? = some 2000) log)

/-- A request is answered for its own mode. -/
def Answers (u : Tables) (context : DeviceContext π) (selected : Backend) (client : Client) (log : Log) : Prop :=
  client.requestedPrivilegeBackend = selected ∧ Granted u context client log

section Runs

variable {u : Tables} {w : World} {context : DeviceContext π} {P : Log → Prop} {Q : α → Log → Prop}

/-- What stays true as the log grows. -/
def Persists (P : Log → Prop) : Prop := ∀ e log, P log → P (e :: log)

theorem Probed.persists (route : Route) (R : CommandResult → Prop) : Persists (Probed route R) := by
  intro e log h
  obtain ⟨result, hmem, hresult⟩ := h
  exact ⟨result, List.mem_cons_of_mem e hmem, hresult⟩

theorem Persists.and {P' : Log → Prop} (h : Persists P) (h' : Persists P') : Persists (fun log => P log ∧ P' log) :=
  fun e log hlog => ⟨h e log hlog.1, h' e log hlog.2⟩

theorem persists_fact (φ : Prop) : Persists (fun _ => φ) := fun _ _ => id

/-- A triple of which only the result matters. -/
abbrev Returns (P : Log → Prop) (x : Procedure α) (Q : α → Log → Prop) : Prop := Meets P x Q (fun _ _ => True)

theorem Returns.raise (e : Raised) : Returns P (raise e : Procedure α) Q := Meets.raise (fun _ _ => trivial)

theorem Returns.trivial {x : Procedure α} : Returns P x (fun _ _ => True) := by
  intro log _
  cases x log with
  | mk r t => cases r <;> exact True.intro

theorem examine_returns (hP : Persists P) (answer : Log → Bool) (event : Bool → Event) (e : Raised) :
    Returns P (examine answer event e) (fun _ => P) := by
  refine Meets.bind (Q := fun _ => P) (Meets.look (fun log h => hP _ log h)) fun holds => ?_
  exact Meets.require (fun _ _ => id) (fun _ _ _ => trivial)

theorem stillPreparing_returns (hP : Persists P) : Returns P (stillPreparing w) (fun _ => P) := by
  refine Meets.bind (examine_returns hP _ _ _) fun _ => ?_
  refine Meets.bind (examine_returns hP _ _ _) fun _ => ?_
  exact examine_returns hP _ _ _

theorem cacheIfCurrent_returns (hP : Persists P) (status : PrivilegeStatus) :
    Returns P (cacheIfCurrent status) (fun _ => P) :=
  Meets.update (fun log => hP _ log)

theorem runShell_returns (hP : Persists P) (route : Route) :
    Returns P (runShell w route idU) (fun result log => Probed route (fun r => r = result) log ∧ P log) := by
  refine Meets.ask (fun log result h _ => ?_) (fun _ _ _ _ => trivial)
  exact ⟨⟨result, List.mem_cons_self, rfl⟩, hP _ log h⟩

theorem resetOnError_returns {x : Procedure α} (hx : Returns P x Q) : Returns P (resetOnError w x) Q := by
  refine hx.catching fun e => ?_
  refine Meets.bind (Q := fun _ _ => True) (Meets.look (fun _ _ => trivial)) fun set => ?_
  refine Meets.ite (fun _ => Returns.raise e) fun _ => ?_
  exact Meets.bind (Q := fun _ _ => True) (Meets.update (fun _ _ => trivial)) fun _ => Returns.raise e

theorem Probed.mono {route : Route} {R R' : CommandResult → Prop} {log : Log} (h : Probed route R log)
    (hR : ∀ result, R result → R' result) : Probed route R' log := by
  obtain ⟨result, hmem, hresult⟩ := h
  exact ⟨result, hmem, hR result hresult⟩

/-- The number that the first parser has read off a probe of the bound client. -/
def Read (u : Tables) (uid : Option Nat) : Log → Prop := Probed .runShell (fun r => uidFromResult u r = .ok uid)

theorem Read.head {uid : Nat} {log : Log} (h : Read u (some uid) log) :
    Probed .runShell (fun result => (reportedUids u result).head? = some uid) log :=
  h.mono (fun _ => uidFromResult_head)

theorem prepareStandardAdb_returns :
    Returns (fun _ => True) (prepareStandardAdb u w context) (Answers u context .standard) := by
  refine Meets.bind (runShell_returns (persists_fact True) .runShell) fun result => ?_
  refine Meets.bind (Q := Read u) (Meets.lift (fun uid huid log h => ?_) (fun _ _ _ _ => trivial)) fun uid => ?_
  · exact h.1.mono (fun r hr => hr ▸ huid)
  have hread : Persists (Read u uid) := Probed.persists _ _
  refine Meets.bind (examine_returns hread _ _ _) fun _ => ?_
  refine Meets.bind (examine_returns hread _ _ _) fun _ => ?_
  refine Meets.bind (cacheIfCurrent_returns hread _) fun _ => ?_
  refine Meets.ite (fun havailable => Meets.pure fun log h => ?_) fun _ => Returns.raise _
  obtain rfl := available_iff.mp havailable
  exact ⟨rfl, fun _ => ⟨rfl, rfl, rfl, rfl, h.head⟩, nofun, nofun, nofun⟩

/-- The strategy that was verified, by its own route. -/
def Verified (u : Tables) (strategy : Option RootExecutionStrategy) (log : Log) : Prop :=
  ∀ s, strategy = some s → Probed s.route (fun r => resultHasRootUid u r = true) log

theorem Verified.persists (strategy : Option RootExecutionStrategy) : Persists (Verified u strategy) :=
  fun e log h s hs => Probed.persists _ _ e log (h s hs)

theorem probeRoot_returns :
    Returns (fun _ => True) (probeRoot u w) (fun r log => Read u r.1 log ∧ Verified u r.2 log) := by
  refine Meets.bind (runShell_returns (persists_fact True) .runShell) fun result => ?_
  have hprobed : Persists (Probed .runShell (fun r => r = result)) := Probed.persists _ _
  refine Meets.bind (stillPreparing_returns (hprobed.and (persists_fact True))) fun _ => ?_
  refine Meets.bind (Q := fun uid log => Read u uid log ∧ Probed .runShell (fun r => r = result) log)
    (Meets.lift (fun uid huid log h => ⟨h.1.mono (fun r hr => hr ▸ huid), h.1⟩) (fun _ _ _ _ => trivial)) fun uid => ?_
  refine Meets.ite (fun hroot => Meets.pure fun log h => ⟨h.1, fun s hs => ?_⟩) fun _ => ?_
  · cases hs
    exact h.2.mono (fun r hr => hr ▸ hroot)
  · have hread : Persists (Read u uid) := Probed.persists _ _
    refine Meets.bind (runShell_returns (hread.and hprobed) .runRootShell) fun su => ?_
    have hsu : Persists (Probed .runRootShell (fun r => r = su)) := Probed.persists _ _
    refine Meets.bind (stillPreparing_returns (hsu.and (hread.and hprobed))) fun _ => ?_
    refine Meets.pure fun log h => ⟨h.2.1, fun s hs => ?_⟩
    by_cases hroot : resultHasRootUid u su = true
    · rw [if_pos hroot] at hs
      cases hs
      exact h.1.mono (fun r hr => hr ▸ hroot)
    · rw [if_neg hroot] at hs
      cases hs

theorem fallback_ne_nil {message : Text} (hmem : 'o' ∈ message) : strip u.toUnicodeData message ≠ [] :=
  strip_ne_nil_of_mem hmem (u.isSpace_lower 'o' (by decide))

theorem fallBack_returns (uid : Option Nat) : Returns (Read u uid) (fallBack u context uid) (Answers u context .root) := by
  refine Meets.ite (fun havailable => Meets.pure fun log h => ?_) fun _ => Returns.raise _
  obtain rfl := available_iff.mp havailable
  exact ⟨rfl, nofun, nofun, nofun, fun _ _ => ⟨rfl, fallback_ne_nil (by decide), fun _ => h.head⟩⟩

theorem prepareRootAdb_returns :
    Returns (fun _ => True) (prepareRootAdb u w context) (Answers u context .root) := by
  refine Meets.ite (fun hmode => ?_) fun _ => ?_
  · refine Meets.bind (examine_returns (persists_fact True) _ _ _) fun _ => Meets.pure fun log _ => ?_
    refine ⟨rfl, nofun, nofun, nofun, fun _ _ => ⟨rfl, ?_, fun h => h.elim ?_ ?_⟩⟩
    · have hmem : 'o' ∈ unavailableMode context :=
        List.mem_append_left _ (List.mem_append_left _ (by decide))
      exact fallback_ne_nil hmem
    · exact fun hadb => absurd hadb hmode.1
    · exact fun hrecovery => absurd hrecovery hmode.2
  · refine Meets.bind (resetOnError_returns probeRoot_returns) fun r => ?_
    obtain ⟨uid, strategy⟩ := r
    have hread : Persists (Read u uid) := Probed.persists _ _
    have hboth : Persists (fun log => Read u uid log ∧ Verified u strategy log) :=
      hread.and (Verified.persists strategy)
    refine Meets.bind (stillPreparing_returns hboth) fun _ => ?_
    refine Meets.bind (cacheIfCurrent_returns hboth _) fun _ => ?_
    refine Meets.bind (examine_returns hboth _ _ _) fun _ => ?_
    refine Meets.bind (examine_returns hboth _ _ _) fun _ => ?_
    cases strategy with
    | none => exact (fallBack_returns uid).mono (fun _ h => h.1) (fun _ _ => id) (fun _ _ => id)
    | some strategy =>
      refine Meets.bind (examine_returns hboth _ _ _) fun _ => Meets.pure fun log h => ?_
      refine ⟨rfl, nofun, fun _ => ⟨⟨strategy, rfl⟩, rfl, ?_⟩, nofun, nofun⟩
      exact (h.2 strategy rfl).mono (fun _ => zero_mem_reportedUids)

/-- The user id of a session that is ready. -/
theorem sessionUid_ready {session : Session} (h : session.ready = true) :
    (sessionUid session = some 0 ∨ sessionUid session = some 2000) ∧ session.state.uid = sessionUid session ∧
      session.expectedUid = sessionUid session := by
  rw [Session.ready, Bool.and_eq_true, Bool.and_eq_true, decide_eq_true_eq] at h
  obtain ⟨⟨_, hverified⟩, hsame⟩ := h
  rw [sessionUid, if_pos hverified]
  exact ⟨of_decide_eq_true hverified, hsame, rfl⟩

theorem rejectSession_returns {Q : Client → Log → Prop} : Returns P rejectSession Q :=
  Meets.bind (Q := fun _ _ => True) (Meets.update (fun _ _ => trivial)) fun _ => Returns.raise _

theorem prepareShizukuAdb_returns :
    Returns (fun _ => True) (prepareShizukuAdb w context) (Answers u context .shizuku) := by
  have hanything : Persists (fun _ => True) := persists_fact True
  refine Meets.ite (fun _ => ?_) fun _ => ?_
  · refine Meets.bind (examine_returns hanything _ _ _) fun _ => ?_
    exact Meets.bind (examine_returns hanything _ _ _) fun _ => Returns.raise _
  · refine Meets.bind Returns.trivial fun cached => ?_
    refine Meets.bind (resetOnError_returns Returns.trivial) fun session => ?_
    refine Meets.bind (stillPreparing_returns hanything) fun _ => ?_
    refine Meets.ite (fun _ => Returns.raise _) fun _ => ?_
    by_cases hready : session.ready = true ∧ verifiedUid (sessionUid session) = true
    · rw [if_neg (not_not.mpr hready)]
      refine Meets.ite (fun _ => rejectSession_returns) fun _ => ?_
      have hgranted (log : Log) : Answers u context .shizuku (shizukuAware session) log := by
        obtain ⟨huid, hstate, hexpected⟩ := sessionUid_ready hready.1
        exact ⟨rfl, nofun, nofun, fun _ => ⟨session, rfl, hready.1, huid, hstate, hexpected⟩, nofun⟩
      have hend : Returns (fun _ => True) (do
          requireContextCurrent w
          requireOperationLease w
          requireContextCurrent w
          pure (shizukuAware session)) (Answers u context .shizuku) := by
        refine Meets.bind (examine_returns hanything _ _ _) fun _ => ?_
        refine Meets.bind (examine_returns hanything _ _ _) fun _ => ?_
        exact Meets.bind (examine_returns hanything _ _ _) fun _ => Meets.pure fun log _ => hgranted log
      refine Meets.bind (examine_returns hanything _ _ _) fun _ => ?_
      refine Meets.bind (examine_returns hanything _ _ _) fun _ => ?_
      refine Meets.ite (fun _ => ?_) fun _ => ?_
      · exact hend
      · exact Meets.bind Returns.trivial fun _ => hend
    · rw [if_pos hready]
      exact rejectSession_returns

theorem prepareAdb_returns (lease : Option Backend) : Returns (fun _ => True) (prepareAdb u w context lease)
    (fun client log => Granted u context client log ∧
      ∀ backend, lease = some backend → client.requestedPrivilegeBackend = backend) := by
  have hlease : Returns (fun _ => True) (leaseOr w lease)
      (fun selected _ => ∀ backend, lease = some backend → selected = backend) := by
    cases lease with
    | none => exact Meets.look (fun _ _ => nofun)
    | some backend => exact Meets.pure (fun _ _ _ h => Option.some_inj.mp h)
  refine Meets.bind hlease fun selected => ?_
  refine Meets.of_pre (φ := ∀ backend, lease = some backend → selected = backend) (fun _ => id) fun hselected => ?_
  refine Meets.bind Returns.trivial fun _ => ?_
  refine Meets.bind Returns.trivial fun _ => ?_
  refine Meets.bind Returns.trivial fun _ => ?_
  refine Meets.bind Returns.trivial fun _ => ?_
  refine Meets.bind Returns.trivial fun _ => ?_
  refine Meets.bind Returns.trivial fun _ => ?_
  have hanswers {x : Procedure Client} (hx : Returns (fun _ => True) x (Answers u context selected)) :
      Returns (fun _ => True) x (fun client log => Granted u context client log ∧
        ∀ backend, lease = some backend → client.requestedPrivilegeBackend = backend) :=
    hx.mono (fun _ => id) (fun _ _ h => ⟨h.2, fun backend hb => h.1.trans (hselected backend hb)⟩) (fun _ _ => id)
  cases selected with
  | standard => exact hanswers prepareStandardAdb_returns
  | root => exact hanswers prepareRootAdb_returns
  | shizuku => exact hanswers prepareShizukuAdb_returns

end Runs

/-- Whatever the device, the bridge and the other threads answer, a client that is returned has the identity that
it tells. -/
theorem prepared_identity (u : Tables) (w : World) (context : DeviceContext π) (lease : Option Backend)
    {client : Client} {log : Log} (hrun : prepareAdb u w context lease [] = (.ok client, log)) :
    Granted u context client log ∧ ∀ backend, lease = some backend → client.requestedPrivilegeBackend = backend := by
  have h : Outcome (fun client log => Granted u context client log ∧
      ∀ backend, lease = some backend → client.requestedPrivilegeBackend = backend) (fun _ _ => True)
      (prepareAdb u w context lease []) :=
    prepareAdb_returns lease [] trivial
  rw [hrun] at h
  exact h

theorem ascii_decimal_zero : UnicodeData.ascii.decimal '0' = some 0 := rfl

theorem isDigit_zero : Char.isDigit '0' = true := rfl

def asciiTables : Tables where
  toUnicodeData := UnicodeData.ascii
  digit := Char.isDigit
  digit_zero := isDigit_zero
  decimal_zero := ascii_decimal_zero

def printed (stdout : Text) : CommandResult := ⟨some 0, stdout, [], true, [], []⟩

/-- A device whose shell is not root and that has `su`. -/
def rooted : World where
  capture _ := .root
  leaseHolds _ := true
  contextCurrent _ := true
  operationCancelled _ := false
  linkedCancelled _ := false
  bind _ := .ok ()
  shell _ route _ := .ok (printed (if route = .runRootShell then ['0', '\n'] else ['2', '0', '0', '0', '\n']))
  cachedStatus _ := none
  prepareSession _ := .error .external

def phone : DeviceContext Unit := ⟨['A'], adbMode, ['1'], ['A'], ['p', 'h', 'o', 'n', 'e'], ⟨(), (), (), ()⟩, 1⟩

theorem rooted_granted : ∃ log, prepareAdb asciiTables rooted phone none [] = (.ok (rootAware .su), log) ∧
    Granted asciiTables phone (rootAware .su) log := by
  have hclient : (prepareAdb asciiTables rooted phone none []).1 = .ok (rootAware .su) := rfl
  have hrun : prepareAdb asciiTables rooted phone none [] =
      (.ok (rootAware .su), (prepareAdb asciiTables rooted phone none []).2) := Prod.ext hclient rfl
  exact ⟨_, hrun, (prepared_identity asciiTables rooted phone none hrun).1⟩

end OpenAdb.Privilege.Preparation
