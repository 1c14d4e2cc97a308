import OpenAdb.Lib.PyText

namespace OpenAdb.P2p.Parallelism

open OpenAdb.Lib.PyText

def AUTO_PARALLELISM_MODE : Text := ['a', 'u', 't', 'o']
def MANUAL_PARALLELISM_MODE : Text := ['m', 'a', 'n', 'u', 'a', 'l']
def P2P_MAX_PARALLELISM : Nat := 8
def P2P_AUTO_MAX_PARALLELISM : Nat := min 4 P2P_MAX_PARALLELISM

def MIB : Nat := 1024 * 1024
def THREE_STREAM_MIN_FILES : Nat := 6
def THREE_STREAM_MIN_TOTAL : Nat := 32 * MIB
def THREE_STREAM_MIN_AVERAGE : Nat := 1 * MIB
def FOUR_STREAM_MIN_FILES : Nat := 24
def FOUR_STREAM_MIN_TOTAL : Nat := 256 * MIB
def FOUR_STREAM_MIN_AVERAGE : Nat := 4 * MIB

/-- A stream count that the manual mode admits. -/
abbrev StreamCount := { n : Nat // 1 ≤ n ∧ n ≤ P2P_MAX_PARALLELISM }

/-- The two shapes that the checks of the preference class let through. -/
inductive P2PParallelismPreference
  | auto
  | manual (manual_value : StreamCount)
  deriving DecidableEq

def P2PParallelismPreference.mode : P2PParallelismPreference → PyObject
  | .auto => .str AUTO_PARALLELISM_MODE
  | .manual _ => .str MANUAL_PARALLELISM_MODE

def P2PParallelismPreference.manualValue : P2PParallelismPreference → PyObject
  | .auto => .none
  | .manual v => .index v.1

def streamCount? (normalized : Int) : Option StreamCount :=
  if h : 1 ≤ normalized.toNat ∧ normalized.toNat ≤ P2P_MAX_PARALLELISM then
    some ⟨normalized.toNat, h⟩
  else none

def manualValue (u : UnicodeData) : PyObject → Option StreamCount
  | .index n => streamCount? n
  | .str s =>
    let digits := strip u s
    if isdecimal u digits then
      let digits := lstripChar '0' digits
      let digits := if digits.isEmpty then ['0'] else digits
      if digits.length > 1 then none else streamCount? (intOfDigits u digits)
    else none
  | .none | .bool _ | .other _ _ => none

def normalizeMode (u : UnicodeData) (mode : PyObject) : Text :=
  casefold u (strip u mode.orEmptyText)

/-- Without a manual value the mode itself may be a legacy stream count. -/
def normalizeP2pParallelismPreference (u : UnicodeData) (mode manual_value : PyObject) :
    P2PParallelismPreference :=
  let byMode : P2PParallelismPreference :=
    if normalizeMode u mode ∈
        [AUTO_PARALLELISM_MODE, "automatic".toList, "auto (recommended)".toList] then .auto
    else if normalizeMode u mode ∉ [MANUAL_PARALLELISM_MODE, "fixed".toList] then .auto
    else
      match manualValue u manual_value with
      | none => .auto
      | some v => .manual v
  match manual_value with
  | .none =>
    match manualValue u mode with
    | some v => .manual v
    | none => byMode
  | _ => byMode

def nonNegativeInteger (value : Int) : Option Nat :=
  if 0 ≤ value then some value.toNat else none

def autoStreams (files total largest : Nat) : Nat :=
  let average := total / files
  let selected :=
    if files ≥ FOUR_STREAM_MIN_FILES ∧ total ≥ FOUR_STREAM_MIN_TOTAL ∧
        average ≥ FOUR_STREAM_MIN_AVERAGE then P2P_AUTO_MAX_PARALLELISM
    else if files ≥ THREE_STREAM_MIN_FILES ∧ total ≥ THREE_STREAM_MIN_TOTAL ∧
        average ≥ THREE_STREAM_MIN_AVERAGE then min 3 P2P_AUTO_MAX_PARALLELISM
    else 2
  let selected := if largest * 4 ≥ total * 3 then min selected 2 else selected
  max 1 (min (min selected files) P2P_AUTO_MAX_PARALLELISM)

def chooseP2pParallelism (u : UnicodeData) (file_count total_bytes largest_file_bytes : Int)
    (mode manual_value : PyObject) : Nat :=
  match nonNegativeInteger file_count with
  | none => 1
  | some files =>
    if files ≤ 1 then 1
    else
      match normalizeP2pParallelismPreference u mode manual_value with
      | .manual v => min v.1 files
      | .auto =>
        match nonNegativeInteger total_bytes, nonNegativeInteger largest_file_bytes with
        | some total, some largest =>
          if total = 0 ∨ largest = 0 ∨ largest > total then 1
          else autoStreams files total largest
        | _, _ => 1

theorem lower_auto : Lower AUTO_PARALLELISM_MODE := by decide

theorem lower_manual : Lower MANUAL_PARALLELISM_MODE := by decide

theorem normalizeMode_lower (u : UnicodeData) {s : Text} (h : Lower s) :
    normalizeMode u (.str s) = s := by
  unfold normalizeMode PyObject.orEmptyText
  rw [strip_lower u h, casefold_lower u h]

theorem manualValue_lower (u : UnicodeData) {s : Text} (h : Lower s) :
    manualValue u (.str s) = none := by
  unfold manualValue
  simp only [strip_lower u h, isdecimal_lower u h]
  rfl

/-- The planner normalizes the preference of its caller a second time. -/
theorem normalize_preference (u : UnicodeData) (p : P2PParallelismPreference) :
    normalizeP2pParallelismPreference u p.mode p.manualValue = p := by
  cases p with
  | auto =>
    simp [normalizeP2pParallelismPreference, P2PParallelismPreference.mode,
      P2PParallelismPreference.manualValue, manualValue_lower u lower_auto,
      normalizeMode_lower u lower_auto]
  | manual v =>
    obtain ⟨n, hn⟩ := v
    simp only [normalizeP2pParallelismPreference, P2PParallelismPreference.mode,
      P2PParallelismPreference.manualValue, normalizeMode_lower u lower_manual]
    rw [if_neg (by decide), if_neg (by decide)]
    simp [manualValue, streamCount?, hn]

end OpenAdb.P2p.Parallelism
