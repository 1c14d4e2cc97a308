import OpenAdb.Acbridge.Device
import OpenAdb.Lib.PyLines

namespace OpenAdb.Acbridge.Probe

open OpenAdb.Lib.PyText OpenAdb.Lib.PyLines OpenAdb.Lib.Encoding OpenAdb.Lib.Effects OpenAdb.Lib.EventLog
open OpenAdb.Commands.Results (CommandResult contains)
open OpenAdb.Acbridge.Device

def package : Text := "io.github.communism420.openadb.acbridge".toList

def versionCode : Nat := 31011

def maxTrustedApkBytes : Nat := 64 * 1024 * 1024

def shellQuote (value : Text) : Text := '\'' :: replaceText ['\''] "'\\''".toList value ++ ['\'']

def shell (script : Text) : List Text := ["shell".toList, script]

def pmPath : List Text := shell ("pm path ".toList ++ shellQuote package)

def pmListPackages : List Text := shell ("pm list packages ".toList ++ shellQuote package)

def dumpsysPackage : List Text := shell ("dumpsys package ".toList ++ shellQuote package)

def formatNat (n : Nat) : Text := (Nat.repr n).toList

def packagePrefix : Text := "package:".toList

/-- `str.removeprefix`. -/
def removePrefix (start s : Text) : Text := if start.isPrefixOf s then s.drop start.length else s

/-- `package:(/[^\x00-\x1f]+)\Z`, its group. -/
def packagePath (line : Text) : Option Text :=
  if packagePrefix.isPrefixOf line then
    match line.drop packagePrefix.length with
    | '/' :: rest => if rest ≠ [] ∧ rest.all (fun c => 32 ≤ c.toNat) then some ('/' :: rest) else none
    | _ => none
  else none

def isNameStart (c : Char) : Bool := c.isAlpha || c = '_'

def isNameChar (c : Char) : Bool := c.isAlphanum || c = '_'

def isNamePart (part : Text) : Bool :=
  match part with
  | [] => false
  | c :: rest => isNameStart c && rest.all isNameChar

/-- `[A-Za-z_][A-Za-z0-9_]*(?:\.[A-Za-z_][A-Za-z0-9_]*)+\Z`. -/
def isPackageName (name : Text) : Bool :=
  let parts := name.splitOn '.'
  2 ≤ parts.length && parts.all isNamePart

variable (u : Tables) (w : World)

def blank (s : Text) : Bool := strip u.toUnicodeData s = []

/-- The group of `^\s*versionCode=(\d+)\b` in one line. -/
def versionText (line : Text) : Option Text :=
  let rest := line.dropWhile u.isSpace
  if "versionCode=".toList.isPrefixOf rest then
    let value := rest.drop "versionCode=".toList.length
    let digit := fun c => (u.decimal c).isSome
    let digits := value.takeWhile digit
    if digits = [] ∨ (value.dropWhile digit).head?.any u.word then none else some digits
  else none

/-- `int` of a text of digits. It raises for other digits than decimal ones, and for very long texts. -/
def intOfText (digits : Text) : Except Raised Nat :=
  if isdecimal u.toUnicodeData digits && digits.length ≤ 4300 then .ok (intOfDigits u.toUnicodeData digits)
  else .error .value

/-- The distinct version codes of a report. -/
def versionCodes (stdout : Text) : Except Raised (List Nat) := do
  let codes ← ((stdout.splitOn '\n').filterMap (versionText u)).mapM (intOfText u)
  pure codes.dedup

def commandFailureDetail (result : CommandResult) (fallback : Text) : Text :=
  let values := [result.stderr, result.stdout, result.status].map (strip u.toUnicodeData)
  (values.find? (· ≠ [])).getD fallback

def looksLikeTransientTransportFailure (result : CommandResult) : Bool :=
  let errorType := casefold u.toUnicodeData result.errorType
  let text := casefold u.toUnicodeData
    (['\n'].intercalate [result.status, result.stderr, result.stdout])
  let markers := ["closed", "connection reset", "device offline", "device unauthorized", "more than one device",
    "no devices/emulators", "protocol fault", "timeout", "timed out", "transport"].map String.toList
  markers.any (fun marker => contains marker errorType || contains marker text)

def looksLikeSignatureMismatch (text : Text) : Bool :=
  let lowered := u.lower text
  contains "update_incompatible".toList lowered || contains "signatures do not match".toList lowered ||
    contains "inconsistent certificates".toList lowered

inductive ProbeState
  | cancelled | notInstalled | queryFailed | installed
  deriving DecidableEq

structure VersionProbe where
  state : ProbeState
  versionCode : Option Nat := none
  message : Text := []

def probeCancelled (message : String) : VersionProbe := { state := .cancelled, message := message.toList }

def probeFailed (message : Text) : VersionProbe := { state := .queryFailed, message := message }

/-- The paths that the lines of `pm path` name. -/
def packagePaths (stdout : Text) : List Text := (splitlines stdout).filterMap packagePath

/-- Every line of `pm path` names a path, and nothing is on the error stream. -/
def cleanPath (result : CommandResult) : Bool :=
  blank u result.stderr && (splitlines result.stdout).all (fun line => (packagePath line).isSome)

/-- Every line of `pm list packages` names a package, and nothing is on the error stream. -/
def cleanList (result : CommandResult) : Bool :=
  blank u result.stderr && (splitlines result.stdout).all (fun line =>
    packagePrefix.isPrefixOf line && isPackageName (removePrefix packagePrefix line))

def listedPackages (stdout : Text) : List Text := (splitlines stdout).map (removePrefix packagePrefix)

def confirmPackageAbsence : Exchange VersionProbe := do
  let early ← check w
  if early = true then pure (probeCancelled "ACBridge package check was cancelled.")
  else do
    match ← watched w pmListPackages with
    | none => pure (probeCancelled "ACBridge package check was cancelled.")
    | some result =>
      if result.success = false then
        pure (probeFailed (commandFailureDetail u result "Android rejected the secondary package query.".toList))
      else if cleanList u result = false then
        pure (probeFailed ("Android returned an unexpected response to the secondary package query; " ++
          "OpenADB left the package untouched.").toList)
      else if package ∈ listedPackages result.stdout then
        pure (probeFailed ("Android lists ACBridge as installed but did not expose one readable " ++
          "package path; OpenADB left the package untouched.").toList)
      else pure { state := .notInstalled }

/-- The version of a package that has a path. -/
def readVersionCode : Exchange VersionProbe := do
  match ← watched w dumpsysPackage with
  | none => pure (probeCancelled "ACBridge version check was cancelled.")
  | some result =>
    if result.success = false then
      let detail := (([result.status, result.stderr, result.stdout].find? (· ≠ [])).getD
        "Android rejected the package version query.".toList)
      pure (probeFailed ("Unable to read the installed ACBridge version: ".toList ++ detail))
    else do
      match ← lift (versionCodes u result.stdout) with
      | [code] =>
        if code = 0 then
          pure (probeFailed ("Android reported an absent, invalid, or ambiguous ACBridge versionCode; " ++
            "OpenADB did not modify the package.").toList)
        else pure { state := .installed, versionCode := some code }
      | _ =>
        pure (probeFailed ("Android reported an absent, invalid, or ambiguous ACBridge versionCode; " ++
          "OpenADB did not modify the package.").toList)

def probeInstalledVersion : Exchange VersionProbe := do
  let early ← check w
  if early = true then pure (probeCancelled "ACBridge version check was cancelled.")
  else do
    match ← watched w pmPath with
    | none => pure (probeCancelled "ACBridge version check was cancelled.")
    | some path =>
      let detail := commandFailureDetail u path "Android did not return the ACBridge package path.".toList
      -- A failed `pm path` is ambiguous, and a path in its output contradicts it.
      if path.success = false then
        if packagePaths path.stdout ≠ [] then
          pure (probeFailed ("Android returned an ACBridge package path from a failed package " ++
            "query; OpenADB left the package untouched.").toList)
        else do
          let confirmation ← confirmPackageAbsence u w
          if confirmation.state = .cancelled ∨ confirmation.state = .notInstalled then pure confirmation
          else
            pure (probeFailed (strip u.toUnicodeData ("Unable to check the installed ACBridge package: ".toList ++
              detail ++ " Secondary package check: ".toList ++ confirmation.message)))
      else if cleanPath u path = false then
        pure (probeFailed ("Android returned an unexpected response to the ACBridge package-path " ++
          "query; OpenADB left the package untouched.").toList)
      else if packagePaths path.stdout = [] then pure { state := .notInstalled }
      else readVersionCode u w

/-- Later attempts wait for the package manager to publish an installation. -/
def probeAttempts : Nat → Exchange VersionProbe
  | 0 => probeInstalledVersion u w
  | attempts + 1 => do
    let probe ← probeInstalledVersion u w
    if probe.state ≠ .notInstalled ∧ probe.state ≠ .queryFailed then pure probe
    else do
      let steps ← read w.sleeps
      let cancelled ← pause w steps
      if cancelled = true then pure (probeCancelled "ACBridge verification was cancelled.")
      else probeAttempts attempts

def probeAfterUpdate : Exchange VersionProbe := probeAttempts u w 2

/-- The commands that only ask about the package. -/
def IsProbe (args : List Text) : Prop := args = pmPath ∨ args = pmListPackages ∨ args = dumpsysPackage

/-- The last answers prove that the package is not installed. -/
def Absent (log : Log) : Prop :=
  (∃ path, Ends [.adb ⟨pmPath, true⟩ (.ok path)] log ∧ path.success = true ∧ cleanPath u path = true ∧
    packagePaths path.stdout = []) ∨
  ∃ path list, Ends [.adb ⟨pmListPackages, true⟩ (.ok list), .adb ⟨pmPath, true⟩ (.ok path)] log ∧
    path.success = false ∧ packagePaths path.stdout = [] ∧
    list.success = true ∧ cleanList u list = true ∧ package ∉ listedPackages list.stdout

/-- The last answer gives one version code, and it is positive. -/
def Reported (code : Nat) (log : Log) : Prop :=
  ∃ result, Ends [.adb ⟨dumpsysPackage, true⟩ (.ok result)] log ∧ result.success = true ∧
    versionCodes u result.stdout = .ok [code] ∧ 0 < code

structure Probed (P : Log → Prop) (probe : VersionProbe) (log : Log) : Prop where
  keeps : P log
  absent : probe.state = .notInstalled → Absent u log
  installed : probe.state = .installed → ∃ code, probe.versionCode = some code ∧ Reported u code log

variable {u w} {P : Log → Prop}

theorem probed_cancelled {message : String} {log : Log} (h : P log) : Probed u P (probeCancelled message) log :=
  ⟨h, fun hs => (by cases hs), fun hs => (by cases hs)⟩

theorem probed_failed {message : Text} {log : Log} (h : P log) : Probed u P (probeFailed message) log :=
  ⟨h, fun hs => (by cases hs), fun hs => (by cases hs)⟩

theorem confirmPackageAbsence_meets (hP : Stable IsProbe P) {path : CommandResult} (hpath : path.success = false)
    (hnone : packagePaths path.stdout = []) :
    Meets (fun log => P log ∧ Ends [.adb ⟨pmPath, true⟩ (.ok path)] log) (confirmPackageAbsence u w)
      (Probed u P) (fun _ log => P log) := by
  refine Meets.bind (check_meets hP) fun early => Meets.ite (fun _ => Meets.pure fun log hlog =>
    probed_cancelled hlog.keeps) fun _ => ?_
  refine Meets.bind ((watched_meets hP (.inr (.inl rfl))).mono (fun log hlog => ⟨hlog.keeps, hlog.ends⟩)
    (fun _ _ h => h) (fun _ _ h => h)) fun answer => ?_
  cases answer with
  | none => exact Meets.pure fun log hlog => probed_cancelled hlog.keeps
  | some result =>
    refine Meets.ite (fun _ => Meets.pure fun log hlog => probed_failed hlog.keeps) fun hok => ?_
    refine Meets.ite (fun _ => Meets.pure fun log hlog => probed_failed hlog.keeps) fun hclean => ?_
    refine Meets.ite (fun _ => Meets.pure fun log hlog => probed_failed hlog.keeps) fun hlisted => ?_
    refine Meets.pure fun log hlog => ⟨hlog.keeps, fun _ => .inr ?_, fun hs => (by cases hs)⟩
    rw [Bool.not_eq_false] at hok hclean
    exact ⟨path, result, hlog.ends result rfl, hpath, hnone, hok, hclean, hlisted⟩

theorem readVersionCode_meets (hP : Stable IsProbe P) :
    Meets P (readVersionCode u w) (Probed u P) (fun _ log => P log) := by
  refine Meets.bind ((watched_meets hP (.inr (.inr rfl))).mono (fun log hlog => ⟨hlog, Ends.nil log⟩)
    (fun _ _ h => h) (fun _ _ h => h)) fun answer => ?_
  cases answer with
  | none => exact Meets.pure fun log hlog => probed_cancelled hlog.keeps
  | some result =>
    refine Meets.ite (fun _ => Meets.pure fun log hlog => probed_failed hlog.keeps) fun hok => ?_
    rw [Bool.not_eq_false] at hok
    refine Meets.bind (Q := fun codes log => versionCodes u result.stdout = .ok codes ∧
      Heard w P [] (fun r => .adb ⟨dumpsysPackage, true⟩ (.ok r)) (some result) log)
      (Meets.lift (fun codes hcodes log hlog => ⟨hcodes, hlog⟩) (fun _ _ log hlog => hlog.keeps)) fun codes => ?_
    refine Meets.of_fact fun hcodes => ?_
    match codes, hcodes with
    | [], _ => exact Meets.pure fun log hlog => probed_failed hlog.keeps
    | _ :: _ :: _, _ => exact Meets.pure fun log hlog => probed_failed hlog.keeps
    | [code], hcodes =>
      refine Meets.ite (fun _ => Meets.pure fun log hlog => probed_failed hlog.keeps) fun hzero => ?_
      refine Meets.pure fun log hlog => ⟨hlog.keeps, fun hs => (by cases hs), fun _ => ⟨code, rfl, ?_⟩⟩
      exact ⟨result, hlog.ends result rfl, hok, hcodes, Nat.pos_of_ne_zero hzero⟩

theorem probeInstalledVersion_meets (hP : Stable IsProbe P) :
    Meets P (probeInstalledVersion u w) (Probed u P) (fun _ log => P log) := by
  refine Meets.bind (check_keeps hP) fun early => Meets.ite (fun _ => Meets.pure fun log hlog =>
    probed_cancelled hlog.1) fun _ => ?_
  refine Meets.bind ((watched_meets hP (.inl rfl)).mono (fun log hlog => ⟨hlog.1, Ends.nil log⟩)
    (fun _ _ h => h) (fun _ _ h => h)) fun answer => ?_
  cases answer with
  | none => exact Meets.pure fun log hlog => probed_cancelled hlog.keeps
  | some path =>
    refine Meets.ite (fun hfail => ?_) fun hok => ?_
    · refine Meets.ite (fun _ => Meets.pure fun log hlog => probed_failed hlog.keeps) fun hnone => ?_
      rw [not_not] at hnone
      refine Meets.bind ((confirmPackageAbsence_meets hP hfail hnone).mono
        (fun log hlog => ⟨hlog.keeps, hlog.ends path rfl⟩) (fun _ _ h => h) (fun _ _ h => h)) fun confirmation => ?_
      exact Meets.ite (fun _ => Meets.pure fun log hlog => hlog) fun _ => Meets.pure fun log hlog =>
        probed_failed hlog.keeps
    · rw [Bool.not_eq_false] at hok
      refine Meets.ite (fun _ => Meets.pure fun log hlog => probed_failed hlog.keeps) fun hclean => ?_
      rw [Bool.not_eq_false] at hclean
      refine Meets.ite (fun hnone => Meets.pure fun log hlog => ?_) fun _ => ?_
      · exact ⟨hlog.keeps, fun _ => .inl ⟨path, hlog.ends path rfl, hok, hclean, hnone⟩, fun hs => (by cases hs)⟩
      · exact (readVersionCode_meets hP).mono (fun log hlog => hlog.keeps) (fun _ _ h => h) (fun _ _ h => h)

theorem probeAttempts_meets (hP : Stable IsProbe P) (attempts : Nat) :
    Meets P (probeAttempts u w attempts) (Probed u P) (fun _ log => P log) := by
  induction attempts with
  | zero => exact probeInstalledVersion_meets hP
  | succ attempts ih =>
    refine Meets.bind (probeInstalledVersion_meets hP) fun probe => Meets.ite (fun _ => Meets.pure fun log hlog =>
      hlog) fun _ => ?_
    refine Meets.bind (Q := fun _ => P) (Meets.read fun log hlog => hlog.keeps) fun steps => ?_
    refine Meets.bind (pause_keeps hP steps) fun cancelled => Meets.ite (fun _ => Meets.pure fun log hlog =>
      probed_cancelled hlog) fun _ => ih

theorem probeAfterUpdate_meets (hP : Stable IsProbe P) :
    Meets P (probeAfterUpdate u w) (Probed u P) (fun _ log => P log) :=
  probeAttempts_meets hP 2

end OpenAdb.Acbridge.Probe
