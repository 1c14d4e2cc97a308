import Mathlib.Data.List.Infix
import Mathlib.Logic.Function.Basic
import Mathlib.Tactic.SplitIfs
import OpenAdb.Backup.Names
import OpenAdb.Lib.Runs

namespace OpenAdb.Context.Device

open OpenAdb.Lib.PyText OpenAdb.Lib.Runs
open OpenAdb.Backup.Names (safeFilename)

variable {τ π : Type}

def adbMode : Text := ['A', 'D', 'B']
def fastbootMode : Text := ['F', 'a', 's', 't', 'b', 'o', 'o', 't']
def noDevice : Text := ['N', 'o', ' ', 'd', 'e', 'v', 'i', 'c', 'e']
def noneState : Text := ['n', 'o', 'n', 'e']

structure DeviceInfo where
  serial : Text := []
  mode : Text := noDevice
  state : Text := noneState
  transportId : Text := []
  product : Text := []
  formFactor : Text := []
  deriving DecidableEq

structure ProfilePaths (π : Type) where
  profilePath : π
  backupsPath : π
  tempPath : π
  logsPath : π
  deriving DecidableEq

structure DeviceContext (π : Type) where
  serial : Text
  mode : Text
  transportId : Text
  profileKey : Text
  profileKind : Text
  paths : ProfilePaths π
  generation : Nat
  deriving DecidableEq

/-- Where a thread is in `refresh` or `choose`; `starting` is the generation that the refresh
read first. -/
inductive Call (π : Type)
  | idle
  | listing (starting : Nat)
  | selecting (starting : Nat) (all : List DeviceInfo)
  | capturing (starting : Nat) (selected : DeviceInfo)
  | detailing (starting : Nat) (selected : DeviceInfo) (context : DeviceContext π)
  | committing (starting : Nat) (device : DeviceInfo)
  | choosing (device : DeviceInfo)

/-- The manager with the serials of its clients and the two settings that it writes. -/
structure DeviceManager (τ π : Type) where
  active : DeviceInfo
  devices : List DeviceInfo
  generation : Nat
  profileTrackingSupported : Bool
  profileSerial : Text
  profileKind : Text
  profileKey : Text
  profilePaths : ProfilePaths π
  adbSerial : Text
  fastbootSerial : Text
  activeDeviceSerial : Text
  lastConnectedDeviceSerial : Text
  calls : τ → Call π

namespace DeviceManager

variable (u : UnicodeData)

def orElse (s default : Text) : Text := if s.isEmpty then default else s

def profileKindForDevice (device : DeviceInfo) : Text :=
  if ['t', 'v'] <:+: casefold u device.formFactor then ['T', 'V'] else ['P', 'h', 'o', 'n', 'e']

def keyOf (serial : Text) : Text := if serial.isEmpty then [] else safeFilename u serial

/-- `__init__` with a settings manager whose profile has this serial, kind and paths. -/
def init (supported : Bool) (serial kind : Text) (paths : ProfilePaths π) : DeviceManager τ π where
  active := {}
  devices := []
  generation := 0
  profileTrackingSupported := supported
  profileSerial := serial
  profileKind := kind
  profileKey := keyOf u serial
  profilePaths := paths
  adbSerial := []
  fastbootSerial := []
  activeDeviceSerial := []
  lastConnectedDeviceSerial := []
  calls _ := .idle

inductive DeviceContextUnavailable
  | noActiveDevice
  | profileNotReady
  deriving DecidableEq

def captureContext (s : DeviceManager τ π) : Except DeviceContextUnavailable (DeviceContext π) :=
  let device := s.active
  if device.serial.isEmpty then .error .noActiveDevice
  else if s.profileTrackingSupported && s.profileSerial ≠ device.serial then .error .profileNotReady
  else
    .ok
      { serial := device.serial
        mode := device.mode
        transportId := device.transportId
        profileKey := orElse s.profileKey (safeFilename u device.serial)
        profileKind := orElse s.profileKind (profileKindForDevice u device)
        paths := s.profilePaths
        generation := s.generation }

def isContextCurrent [DecidableEq π] (s : DeviceManager τ π) (context : DeviceContext π) : Bool :=
  if context.generation ≠ s.generation ∨ s.active.serial.isEmpty then false
  else
    context.serial = s.active.serial && context.mode = s.active.mode &&
      context.transportId = s.active.transportId &&
      context.profileKey = orElse s.profileKey (safeFilename u s.active.serial) &&
      context.profileKind = orElse s.profileKind (profileKindForDevice u s.active) &&
      context.paths = s.profilePaths

/-- The locked part; the paths are read before it. -/
def notifyProfileChanged [DecidableEq π] (s : DeviceManager τ π) (serial kind : Text)
    (paths : ProfilePaths π) : DeviceManager τ π :=
  let serial := strip u serial
  let key := keyOf u serial
  let changed : Bool :=
    serial ≠ s.profileSerial || kind ≠ s.profileKind || key ≠ s.profileKey || paths ≠ s.profilePaths
  { s with
    profileSerial := serial
    profileKind := kind
    profileKey := key
    profilePaths := paths
    generation := if changed then s.generation + 1 else s.generation }

def invalidateProfile (s : DeviceManager τ π) (paths : ProfilePaths π) : DeviceManager τ π :=
  { s with
    profileSerial := []
    profileKind := []
    profileKey := []
    profilePaths := paths
    generation := s.generation + 1 }

def deviceIdentity (device : DeviceInfo) : Text × Text × Text :=
  if device.serial.isEmpty then ([], device.mode, []) else (device.serial, device.mode, device.transportId)

def setActive (s : DeviceManager τ π) (device : DeviceInfo) (expectedGeneration : Option Nat) :
    DeviceManager τ π :=
  if expectedGeneration.any (fun g => s.generation ≠ g) then s
  else
    let changed := deviceIdentity s.active ≠ deviceIdentity device
    { s with
      active := device
      generation := if changed then s.generation + 1 else s.generation
      adbSerial := if device.mode ≠ fastbootMode then device.serial else []
      fastbootSerial := if device.mode = fastbootMode then device.serial else []
      lastConnectedDeviceSerial :=
        if device.serial.isEmpty then s.lastConnectedDeviceSerial else device.serial }

/-- `globalPaths` are the folders of the settings that belong to no profile. -/
def captureRefreshContext (s : DeviceManager τ π) (device : DeviceInfo) (starting : Nat)
    (globalPaths : ProfilePaths π) : Option (DeviceContext π) :=
  if s.generation ≠ starting then none
  else
    let matching := !s.profileTrackingSupported || s.profileSerial = device.serial
    some
      { serial := device.serial
        mode := device.mode
        transportId := device.transportId
        profileKey :=
          if matching then orElse s.profileKey (safeFilename u device.serial)
          else safeFilename u device.serial
        profileKind :=
          if matching then orElse s.profileKind (profileKindForDevice u device)
          else profileKindForDevice u device
        paths := if matching then s.profilePaths else globalPaths
        generation := starting }

/-- Fastboot is asked only when ADB lists nothing. -/
def allDevices (adbDevices fastbootDevices : List DeviceInfo) : List DeviceInfo :=
  if adbDevices.isEmpty then fastbootDevices else adbDevices

/-- The device that `refresh` takes from the list, or the placeholder that it shows. -/
def select (all : List DeviceInfo) (savedSerial : Text) : Except DeviceInfo DeviceInfo :=
  match all with
  | [] => .error { mode := noDevice, state := noneState }
  | first :: rest =>
    match (first :: rest).find? (fun device => device.serial = savedSerial) with
    | some device => .ok device
    | none =>
      if rest.isEmpty && savedSerial.isEmpty then .ok first
      else .error { mode := noDevice, state := "selection_required".toList }

inductive Action (τ π : Type)
  | refresh (thread : τ)
  | lists (thread : τ) (adbDevices fastbootDevices : List DeviceInfo)
  | selects (thread : τ)
  | captures (thread : τ) (globalPaths : ProfilePaths π)
  | details (thread : τ) (detailed : DeviceInfo)
  | commits (thread : τ)
  | choose (thread : τ) (serial : Text)
  | chooses (thread : τ)
  | notifyProfileChanged (serial kind : Text) (paths : ProfilePaths π)
  | invalidateProfile (paths : ProfilePaths π)
  | setActiveDeviceSerial (serial : Text)
  | setLastConnectedDeviceSerial (serial : Text)

def setCall [DecidableEq τ] (s : DeviceManager τ π) (thread : τ) (c : Call π) : DeviceManager τ π :=
  { s with calls := Function.update s.calls thread c }

/-- One locked section or one read outside the lock. `reconnect_offline` writes the setting
`active_device_serial` and calls `refresh`; so does `choose` when it does not find the serial. -/
def step [DecidableEq τ] [DecidableEq π] (s : DeviceManager τ π) :
    Action τ π → Option (DeviceManager τ π)
  | .refresh thread =>
    match s.calls thread with
    | .idle => some (s.setCall thread (.listing s.generation))
    | _ => none
  | .lists thread adbDevices fastbootDevices =>
    match s.calls thread with
    | .listing starting =>
      if s.generation ≠ starting then some (s.setCall thread .idle)
      else
        some { s.setCall thread (.selecting starting (allDevices adbDevices fastbootDevices)) with
          devices := allDevices adbDevices fastbootDevices }
    | _ => none
  | .selects thread =>
    match s.calls thread with
    | .selecting starting all =>
      match select all s.activeDeviceSerial with
      | .error placeholder => some (s.setCall thread (.committing starting placeholder))
      | .ok selected =>
        if selected.mode = adbMode then some (s.setCall thread (.capturing starting selected))
        else some (s.setCall thread (.committing starting selected))
    | _ => none
  | .captures thread globalPaths =>
    match s.calls thread with
    | .capturing starting selected =>
      match s.captureRefreshContext u selected starting globalPaths with
      | none => some (s.setCall thread .idle)
      | some context => some (s.setCall thread (.detailing starting selected context))
    | _ => none
  | .details thread detailed =>
    match s.calls thread with
    | .detailing starting selected _ =>
      some (s.setCall thread (.committing starting
        { detailed with transportId := selected.transportId, product := selected.product }))
    | _ => none
  | .commits thread =>
    match s.calls thread with
    | .committing starting device => some ((s.setActive device (some starting)).setCall thread .idle)
    | _ => none
  | .choose thread serial =>
    match s.calls thread with
    | .idle =>
      match s.devices.find? (fun device => device.serial = serial) with
      | some device => some { s.setCall thread (.choosing device) with activeDeviceSerial := serial }
      | none => some { s with activeDeviceSerial := serial }
    | _ => none
  | .chooses thread =>
    match s.calls thread with
    | .choosing device => some ((s.setActive device none).setCall thread .idle)
    | _ => none
  | .notifyProfileChanged serial kind paths => some (s.notifyProfileChanged u serial kind paths)
  | .invalidateProfile paths => some (s.invalidateProfile paths)
  | .setActiveDeviceSerial serial => some { s with activeDeviceSerial := serial }
  | .setLastConnectedDeviceSerial serial => some { s with lastConnectedDeviceSerial := serial }

/-- The identities that a context is bound to. -/
structure SameTarget (s t : DeviceManager τ π) : Prop where
  device : deviceIdentity t.active = deviceIdentity s.active
  profileSerial : t.profileSerial = s.profileSerial
  profileKind : t.profileKind = s.profileKind
  profileKey : t.profileKey = s.profileKey
  profilePaths : t.profilePaths = s.profilePaths

/-- The generation counts the changes of the target. -/
structure Counts (s t : DeviceManager τ π) : Prop where
  generation : s.generation ≤ t.generation
  target : t.generation = s.generation → SameTarget s t
  supported : t.profileTrackingSupported = s.profileTrackingSupported

variable {u : UnicodeData} {s t r : DeviceManager τ π}

theorem SameTarget.refl (s : DeviceManager τ π) : SameTarget s s := ⟨rfl, rfl, rfl, rfl, rfl⟩

theorem SameTarget.trans (h : SameTarget s t) (h' : SameTarget t r) : SameTarget s r :=
  ⟨h'.device.trans h.device, h'.profileSerial.trans h.profileSerial, h'.profileKind.trans h.profileKind,
    h'.profileKey.trans h.profileKey, h'.profilePaths.trans h.profilePaths⟩

theorem Counts.refl (s : DeviceManager τ π) : Counts s s := ⟨le_rfl, fun _ => .refl s, rfl⟩

theorem Counts.trans (h : Counts s t) (h' : Counts t r) : Counts s r where
  generation := h.generation.trans h'.generation
  target heq := by
    have hst : t.generation = s.generation :=
      Nat.le_antisymm (h'.generation.trans heq.le) h.generation
    exact (h.target hst).trans (h'.target (heq.trans hst.symm))
  supported := h'.supported.trans h.supported

theorem notifyProfileChanged_counts [DecidableEq π] (s : DeviceManager τ π) (serial kind : Text)
    (paths : ProfilePaths π) : Counts s (s.notifyProfileChanged u serial kind paths) := by
  rw [notifyProfileChanged]
  by_cases hchanged : (strip u serial ≠ s.profileSerial || kind ≠ s.profileKind ||
      keyOf u (strip u serial) ≠ s.profileKey || paths ≠ s.profilePaths) = true
  · have hgeneration : s.generation < s.generation + 1 := Nat.lt_succ_self _
    refine ⟨?_, fun heq => ?_, rfl⟩
    · dsimp only
      rw [if_pos hchanged]
      exact hgeneration.le
    · dsimp only at heq
      rw [if_pos hchanged] at heq
      exact absurd heq hgeneration.ne'
  · refine ⟨?_, fun _ => ?_, rfl⟩
    · dsimp only
      rw [if_neg hchanged]
    · simp only [Bool.or_eq_true, decide_eq_true_eq, not_or, not_not] at hchanged
      obtain ⟨⟨⟨hserial, hkind⟩, hkey⟩, hpaths⟩ := hchanged
      exact ⟨rfl, hserial, hkind, hkey, hpaths⟩

theorem invalidateProfile_counts (s : DeviceManager τ π) (paths : ProfilePaths π) :
    Counts s (s.invalidateProfile paths) :=
  ⟨Nat.le_succ _, fun heq => absurd heq (Nat.lt_succ_self s.generation).ne', rfl⟩

theorem setActive_counts (s : DeviceManager τ π) (device : DeviceInfo) (expected : Option Nat) :
    Counts s (s.setActive device expected) := by
  rw [setActive]
  by_cases hstale : expected.any (fun g => s.generation ≠ g) = true
  · rw [if_pos hstale]
    exact .refl s
  · rw [if_neg hstale]
    by_cases hchanged : deviceIdentity s.active ≠ deviceIdentity device
    · refine ⟨?_, fun heq => ?_, rfl⟩
      · dsimp only
        rw [if_pos hchanged]
        exact Nat.le_succ _
      · dsimp only at heq
        rw [if_pos hchanged] at heq
        exact absurd heq (Nat.lt_succ_self s.generation).ne'
    · refine ⟨?_, fun _ => ?_, rfl⟩
      · dsimp only
        rw [if_neg hchanged]
      · exact ⟨(not_not.mp hchanged).symm, rfl, rfl, rfl, rfl⟩

/-- A stale refresh finds another generation and commits nothing. -/
theorem setActive_stale {device : DeviceInfo} {starting : Nat} (h : s.generation ≠ starting) :
    s.setActive device (some starting) = s := by
  rw [setActive, if_pos]
  exact decide_eq_true h

theorem setCall_counts [DecidableEq τ] (h : Counts s t) (thread : τ) (c : Call π) :
    Counts s (t.setCall thread c) :=
  ⟨h.generation, fun heq => (h.target heq).trans ⟨rfl, rfl, rfl, rfl, rfl⟩, h.supported⟩

theorem step_counts [DecidableEq τ] [DecidableEq π] {a : Action τ π} (hstep : step u s a = some t) :
    Counts s t := by
  cases a with
  | refresh thread =>
    rw [step] at hstep
    split at hstep
    · cases hstep
      exact setCall_counts (.refl s) thread _
    · cases hstep
  | lists thread adbDevices fastbootDevices =>
    rw [step] at hstep
    split at hstep
    · split_ifs at hstep
      · cases hstep
        exact setCall_counts (.refl s) thread _
      · cases hstep
        exact ⟨le_rfl, fun _ => ⟨rfl, rfl, rfl, rfl, rfl⟩, rfl⟩
    · cases hstep
  | selects thread =>
    rw [step] at hstep
    split at hstep
    · split at hstep
      · cases hstep
        exact setCall_counts (.refl s) thread _
      · split_ifs at hstep
        · cases hstep
          exact setCall_counts (.refl s) thread _
        · cases hstep
          exact setCall_counts (.refl s) thread _
    · cases hstep
  | captures thread globalPaths =>
    rw [step] at hstep
    split at hstep
    · split at hstep
      · cases hstep
        exact setCall_counts (.refl s) thread _
      · cases hstep
        exact setCall_counts (.refl s) thread _
    · cases hstep
  | details thread detailed =>
    rw [step] at hstep
    split at hstep
    · cases hstep
      exact setCall_counts (.refl s) thread _
    · cases hstep
  | commits thread =>
    rw [step] at hstep
    split at hstep
    · cases hstep
      exact setCall_counts (setActive_counts s _ _) thread _
    · cases hstep
  | choose thread serial =>
    rw [step] at hstep
    split at hstep
    · split at hstep
      · cases hstep
        exact ⟨le_rfl, fun _ => ⟨rfl, rfl, rfl, rfl, rfl⟩, rfl⟩
      · cases hstep
        exact ⟨le_rfl, fun _ => ⟨rfl, rfl, rfl, rfl, rfl⟩, rfl⟩
    · cases hstep
  | chooses thread =>
    rw [step] at hstep
    split at hstep
    · cases hstep
      exact setCall_counts (setActive_counts s _ _) thread _
    · cases hstep
  | notifyProfileChanged serial kind paths =>
    cases hstep
    exact notifyProfileChanged_counts s serial kind paths
  | invalidateProfile paths =>
    cases hstep
    exact invalidateProfile_counts s paths
  | setActiveDeviceSerial serial =>
    cases hstep
    exact ⟨le_rfl, fun _ => ⟨rfl, rfl, rfl, rfl, rfl⟩, rfl⟩
  | setLastConnectedDeviceSerial serial =>
    cases hstep
    exact ⟨le_rfl, fun _ => ⟨rfl, rfl, rfl, rfl, rfl⟩, rfl⟩

theorem exec_counts [DecidableEq τ] [DecidableEq π] {as : List (Action τ π)}
    (h : exec (step u) s as = some t) : Counts s t :=
  exec_relation Counts Counts.refl (fun _ _ _ => Counts.trans) (fun _ _ _ => step_counts) h

/-- The target of `s` is the one that a context names. -/
structure Targets (u : UnicodeData) (context : DeviceContext π) (s : DeviceManager τ π) : Prop where
  serial : s.active.serial = context.serial
  mode : s.active.mode = context.mode
  transportId : s.active.transportId = context.transportId
  profileSerial : s.profileTrackingSupported = true → s.profileSerial = context.serial
  profileKey : orElse s.profileKey (safeFilename u s.active.serial) = context.profileKey
  paths : s.profilePaths = context.paths

theorem captureContext_targets {context : DeviceContext π} (h : s.captureContext u = .ok context) :
    Targets u context s ∧ s.active.serial ≠ [] ∧ context.generation = s.generation := by
  rw [captureContext] at h
  split_ifs at h with hempty hready
  cases h
  refine ⟨⟨rfl, rfl, rfl, fun hsupported => ?_, rfl, rfl⟩, fun hserial => ?_, rfl⟩
  · rw [hsupported, Bool.true_and, decide_eq_true_eq, not_not] at hready
    exact hready
  · exact hempty (List.isEmpty_iff.mpr hserial)

theorem deviceIdentity_eq {a b : DeviceInfo} (h : deviceIdentity b = deviceIdentity a) (ha : a.serial ≠ []) :
    b.serial = a.serial ∧ b.mode = a.mode ∧ b.transportId = a.transportId := by
  have hne : ¬a.serial.isEmpty = true := fun he => ha (List.isEmpty_iff.mp he)
  rw [deviceIdentity, deviceIdentity, if_neg hne] at h
  by_cases hb : b.serial.isEmpty = true
  · rw [if_pos hb] at h
    exact absurd (congrArg Prod.fst h).symm ha
  · rw [if_neg hb] at h
    exact ⟨congrArg Prod.fst h, congrArg (fun i => i.2.1) h, congrArg (fun i => i.2.2) h⟩

/-- What a context captured in `s` names is still the target while the generation is the same. -/
theorem Counts.targets {context : DeviceContext π} (h : Counts s t) (hcapture : s.captureContext u = .ok context)
    (hsame : t.generation = s.generation) : Targets u context t := by
  obtain ⟨htargets, hserial, -⟩ := captureContext_targets hcapture
  have htarget := h.target hsame
  obtain ⟨hs, hmode, htransport⟩ := deviceIdentity_eq htarget.device hserial
  refine ⟨hs.trans htargets.serial, hmode.trans htargets.mode, htransport.trans htargets.transportId,
    fun hsupported => ?_, ?_, htarget.profilePaths.trans htargets.paths⟩
  · exact htarget.profileSerial.trans (htargets.profileSerial (h.supported ▸ hsupported))
  · rw [htarget.profileKey, hs]
    exact htargets.profileKey

theorem generation_of_current [DecidableEq π] {context : DeviceContext π} (h : s.isContextCurrent u context = true) :
    context.generation = s.generation := by
  rw [isContextCurrent] at h
  split_ifs at h with hstale
  exact not_not.mp (not_or.mp hstale).1

/-- The manager between `s` and `t`: the generation only grows; a context captured in `s` that is
current in `t` has named the target throughout; a refresh that began at the generation of `s`
commits nothing once it has changed. -/
theorem context_current_throughout [DecidableEq τ] [DecidableEq π] (between after : List (Action τ π))
    {m : DeviceManager τ π} (hm : exec (step u) s between = some m) (ht : exec (step u) m after = some t) :
    s.generation ≤ m.generation ∧
      (∀ context, s.captureContext u = .ok context → t.isContextCurrent u context = true →
        Targets u context m) ∧
      ∀ thread device r, m.generation ≠ s.generation → t.calls thread = .committing s.generation device →
        step u t (.commits thread) = some r →
          r.active = t.active ∧ r.adbSerial = t.adbSerial ∧ r.fastbootSerial = t.fastbootSerial ∧
            r.lastConnectedDeviceSerial = t.lastConnectedDeviceSerial := by
  have hsm := exec_counts hm
  have hmt := exec_counts ht
  refine ⟨hsm.generation, fun context hcapture hcurrent => ?_, fun thread device r hchanged hcall hstep => ?_⟩
  · have hgeneration := (captureContext_targets hcapture).2.2
    have htg : s.generation = t.generation := hgeneration.symm.trans (generation_of_current hcurrent)
    exact hsm.targets hcapture (Nat.le_antisymm (hmt.generation.trans htg.ge) hsm.generation)
  · rw [step, hcall] at hstep
    cases hstep
    have hlater : t.generation ≠ s.generation := by
      have hle := hsm.generation
      have hle' := hmt.generation
      omega
    rw [setActive_stale hlater]
    exact ⟨rfl, rfl, rfl, rfl⟩

/-- A context stays current over a refresh that finds the same device. -/
theorem context_current_over_refresh :
    ∃ m : DeviceManager Nat Nat, Targets .ascii ⟨['s'], adbMode, ['1'], ['s'], ['T', 'V'], ⟨0, 1, 2, 3⟩, 1⟩ m :=
  let device : DeviceInfo := { serial := ['s'], mode := adbMode, transportId := ['1'] }
  let start : DeviceManager Nat Nat := init .ascii true ['s'] ['T', 'V'] ⟨0, 1, 2, 3⟩
  let refresh : List (Action Nat Nat) :=
    [.refresh 0, .lists 0 [device] [], .selects 0, .captures 0 ⟨0, 0, 0, 0⟩, .details 0 device, .commits 0]
  ⟨_, (context_current_throughout (u := .ascii) (s := start.setActive device none) refresh [] rfl rfl).2.1 _
    rfl (by decide +kernel)⟩

end DeviceManager

end OpenAdb.Context.Device
