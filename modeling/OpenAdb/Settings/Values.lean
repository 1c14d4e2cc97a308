import Mathlib.Logic.Function.Basic
import OpenAdb.Lib.PyText

namespace OpenAdb.Settings.Values

open OpenAdb.Lib.PyText

inductive FolderKey
  | backups | temp | logs
  deriving DecidableEq

/-- The settings that the profile logic reads, by name, and all others. -/
inductive Key
  | privilegeBackend | rootModeEnabled | pendingPrivilegeBackend
  | activeDeviceSerial | lastConnectedDeviceSerial | lastAppsDeviceSerial
  | deviceProfileName | deviceProfileKind
  | wirelessConnectionMode | wirelessAdbMode
  | folder (key : FolderKey)
  | other (name : Text)
  deriving DecidableEq

/-- A settings dictionary. -/
abbrev Data := Key → Option PyObject

deriving instance DecidableEq for PyObject

inductive Backend
  | standard | root | shizuku
  deriving DecidableEq

inductive Kind
  | phone | tv
  deriving DecidableEq

def Backend.text : Backend → Text
  | .standard => ['s', 't', 'a', 'n', 'd', 'a', 'r', 'd']
  | .root => ['r', 'o', 'o', 't']
  | .shizuku => ['s', 'h', 'i', 'z', 'u', 'k', 'u']

def pendingText : Option Backend → Text
  | none => []
  | some backend => backend.text

def Kind.text : Kind → Text
  | .phone => ['P', 'h', 'o', 'n', 'e']
  | .tv => ['T', 'V']

def modern : Text := ['m', 'o', 'd', 'e', 'r', 'n']

def legacy : Text := ['l', 'e', 'g', 'a', 'c', 'y']

/-- What the program takes from outside: the tables behind the text methods, the other entries of
`DEFAULT_SETTINGS` and the other names of `PROFILE_LOCAL_UI_KEYS`. -/
structure Tables where
  unicode : UnicodeData
  lower : Text → Text
  otherDefaults : Text → Option PyObject
  otherLocalUi : Text → Bool

variable (T : Tables)

def defaultSettings : Data
  | .privilegeBackend => some (.str Backend.standard.text)
  | .rootModeEnabled => some (.bool false)
  | .pendingPrivilegeBackend | .activeDeviceSerial | .lastConnectedDeviceSerial
  | .lastAppsDeviceSerial | .deviceProfileName => some (.str [])
  | .deviceProfileKind => some (.str Kind.phone.text)
  | .wirelessConnectionMode | .wirelessAdbMode => some (.str modern)
  | .folder _ => none
  | .other name => T.otherDefaults name

def set (d : Data) (key : Key) (value : PyObject) : Data := Function.update d key (some value)

/-- `merged = dict(DEFAULT_SETTINGS); merged.update(loaded)` -/
def merge (base values : Data) : Data := fun key => (values key).or (base key)

/-- `str(data.get(key, "") or "")` -/
def textOf (d : Data) (key : Key) : Text := ((d key).getD (.str [])).orEmptyText

/-- The alias tables of both normalisations. -/
def aliasOf (text : Text) : Option Backend :=
  if text ∈ [Backend.standard.text, ['a', 'd', 'b'], ['n', 'o', 'n', 'e'],
      ['d', 'i', 's', 'a', 'b', 'l', 'e', 'd']] then some .standard
  else if text ∈ [Backend.root.text, ['s', 'u']] then some .root
  else if text ∈ [Backend.shizuku.text, ['s', 'u', 'i']] then some .shizuku
  else none

/-- `_normalize_privilege_backend_value`: an unknown mode is Standard. -/
def normalizePrivilegeBackendValue (value : PyObject) : Backend :=
  let text := (value.orElse (.str Backend.standard.text)).text
  (aliasOf (casefold T.unicode (strip T.unicode text))).getD .standard

/-- `_normalize_pending_privilege_backend_value`: an unknown mode is no choice. -/
def normalizePendingPrivilegeBackendValue (value : Text) : Option Backend :=
  let raw := casefold T.unicode (strip T.unicode value)
  if raw.isEmpty then none else aliasOf raw

/-- `_normalize_privilege_settings`; only the global settings keep a pending choice. -/
def normalizePrivilegeSettings (isGlobal : Bool) (d : Data) : Data :=
  let backend := normalizePrivilegeBackendValue T ((d .privilegeBackend).getD (.str Backend.standard.text))
  let pending := if isGlobal then
    normalizePendingPrivilegeBackendValue T (strip T.unicode (textOf d .pendingPrivilegeBackend)) else none
  set (set (set d .pendingPrivilegeBackend (.str (pendingText pending))) .privilegeBackend
    (.str backend.text)) .rootModeEnabled (.bool (backend = .root))

def normalizeWirelessModeSettings (d : Data) : Data :=
  let configured := ((d .wirelessConnectionMode).getD (.str [])).orElse
    (((d .wirelessAdbMode).getD (.str [])).orElse (.str modern))
  let mode := T.lower (strip T.unicode configured.text)
  let normalized := if mode ∈ [legacy, ['t', 'c', 'p', 'i', 'p'], ['t', 'c', 'p', '/', 'i', 'p'],
    ['o', 'l', 'd'], ['i', 'p']] then legacy else modern
  set (set d .wirelessConnectionMode (.str normalized)) .wirelessAdbMode (.str normalized)

/-- What `load` makes of the loaded settings. -/
def adopt (isGlobal : Bool) (loaded : Data) : Data :=
  let merged := merge (defaultSettings T) loaded
  let completed := if (loaded .privilegeBackend).isNone then
    let root := ((loaded .rootModeEnabled).getD (.bool false)).truthy
    set merged .privilegeBackend (.str (if root then Backend.root.text else Backend.standard.text))
    else merged
  normalizePrivilegeSettings T isGlobal (normalizeWirelessModeSettings T completed)

def profileLocal : Key → Bool
  | .folder _ | .activeDeviceSerial | .lastAppsDeviceSerial | .lastConnectedDeviceSerial
  | .privilegeBackend | .rootModeEnabled => true
  | .other name => T.otherLocalUi name
  | _ => false

/-- The defaults with the previous settings except those local to a profile. -/
def inherited (previous : Data) : Data := fun key =>
  if profileLocal T key then defaultSettings T key else (previous key).or (defaultSettings T key)

def initialProfileData (previous : Data) (serial displayName : Text) (kind : Kind) : Data :=
  let data := set (set (set (inherited T previous) (.folder .backups) (.str [])) (.folder .temp) (.str []))
    (.folder .logs) (.str [])
  let data := set (set (set data .pendingPrivilegeBackend (.str [])) .activeDeviceSerial (.str serial))
    .lastConnectedDeviceSerial (.str serial)
  set (set (set data .lastAppsDeviceSerial (.str [])) .deviceProfileName (.str displayName))
    .deviceProfileKind (.str kind.text)

def hasInfix (part text : Text) : Bool := text.tails.any (fun tail => part.isPrefixOf tail)

def profileKindFromFormFactor (formFactor : Text) : Kind :=
  let text := T.lower (strip T.unicode formFactor)
  if hasInfix ['t', 'v'] text || hasInfix ['t', 'e', 'l', 'e', 'v', 'i', 's', 'i', 'o', 'n'] text then .tv
  else .phone

def normalizeProfileKind (profileKind : Text) : Kind :=
  if T.lower (strip T.unicode profileKind) ∈ [['t', 'v'], ['t', 'v', 's'],
      ['a', 'n', 'd', 'r', 'o', 'i', 'd', ' ', 't', 'v'],
      ['t', 'e', 'l', 'e', 'v', 'i', 's', 'i', 'o', 'n']] then .tv
  else .phone

/-- Without a form factor the kind of the device that was connected last. -/
def profileKindForDevice (d : Data) (serial formFactor : Text) : Kind :=
  if ¬(strip T.unicode formFactor).isEmpty then profileKindFromFormFactor T formFactor
  else if serial = textOf d .activeDeviceSerial || serial = textOf d .lastConnectedDeviceSerial then
    let kind := textOf d .deviceProfileKind
    normalizeProfileKind T (if kind.isEmpty then Kind.phone.text else kind)
  else .phone

def oppositeProfileKind : Kind → Kind
  | .tv => .phone
  | .phone => .tv

/-- The mode that a profile with these settings is used in. -/
def storedBackend (d : Data) : Backend :=
  match d .privilegeBackend with
  | some value => normalizePrivilegeBackendValue T value
  | none => if ((d .rootModeEnabled).getD (.bool false)).truthy then .root else .standard

@[simp] theorem set_self (d : Data) (key : Key) (value : PyObject) : set d key value key = some value :=
  Function.update_self ..

@[simp] theorem set_of_ne {key key' : Key} (hne : key' ≠ key) (d : Data) (value : PyObject) :
    set d key value key' = d key' := Function.update_of_ne hne ..

end OpenAdb.Settings.Values
