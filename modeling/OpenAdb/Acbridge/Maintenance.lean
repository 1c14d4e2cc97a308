import OpenAdb.Acbridge.Probe

namespace OpenAdb.Acbridge.Maintenance

open OpenAdb.Lib.PyText OpenAdb.Lib.PyLines OpenAdb.Lib.Encoding OpenAdb.Lib.Effects OpenAdb.Lib.EventLog
open OpenAdb.Commands.Results (CommandResult contains)
open OpenAdb.Acbridge.Device OpenAdb.Acbridge.Probe

variable (u : Tables) (sha256 : Bytes → Bytes) (w : World)

def statSize (path : Text) : List Text :=
  ["shell".toList, "stat".toList, "-c".toList, "%s".toList, path]

def execOutCat (path : Text) : List Text := ["exec-out".toList, "cat".toList, path]

def installArgs : List Text := ["install".toList, "-r".toList, w.apk]

def installWithPermissions : List Text := ["install".toList, "-r".toList, "-g".toList, w.apk]

/-- The paths of the lines that start with `package:` but for blanks. -/
def reportedPaths (stdout : Text) : List Text :=
  ((splitlines stdout).filter (fun line => packagePrefix.isPrefixOf (strip u.toUnicodeData line))).map
    (fun line => strip u.toUnicodeData (removePrefix packagePrefix line))

/-- The only path that is reported, if it is one of a `base.apk`. -/
def singleBase (stdout : Text) : Option Text :=
  match reportedPaths u stdout with
  | [path] => if (path.splitOn '/').getLast? = some "base.apk".toList then some path else none
  | _ => none

def isPathChar (c : Char) : Bool := c.isAlphanum || "._~+/=-".toList.contains c

/-- `/[A-Za-z0-9._~+/=-]+`, and no component is `..`. -/
def safePath (path : Text) : Bool :=
  match path with
  | '/' :: rest => rest ≠ [] && rest.all isPathChar && !(path.splitOn '/').contains ['.', '.']
  | _ => false

def orElse (values : List Text) (fallback : Text) : Text := (values.find? (· ≠ [])).getD fallback

/-- Read the whole base.apk and compare it with the bundled file. -/
def compareBytes (expectedSize : Nat) (basePath : Text) : Exchange (Bool × Text) := do
  match ← watchedBinary w (execOutCat basePath) with
  | none => pure (false, "ACBridge verification was cancelled.".toList)
  | some (result, installedBytes) =>
    if result.success = false ∨ installedBytes.length ≠ expectedSize then
      pure (false, "Unable to verify the installed ACBridge APK: ".toList ++
        orElse [result.status, result.stderr] "installed APK read failed".toList)
    else do
      let bundled ← apkBytes w
      if sha256 installedBytes ≠ sha256 bundled then
        pure (false, ("The installed ACBridge helper is not the exact helper bundled with this OpenADB build. " ++
          "Privileged access was blocked; uninstall ").toList ++ package ++ " manually, then try again.".toList)
      else pure (true, "The installed ACBridge helper matches the bundled APK.".toList)

def compareSize (expectedSize : Nat) (basePath : Text) : Exchange (Bool × Text) := do
  match ← watched w (statSize basePath) with
  | none => pure (false, "ACBridge verification was cancelled.".toList)
  | some size =>
    let remoteSizeText := strip u.toUnicodeData size.stdout
    if size.success = false ∨ ¬(remoteSizeText ≠ [] ∧ remoteSizeText.all u.isdigit = true) then
      pure (false, ("Android could not report the installed ACBridge APK size; " ++
        "privileged access was blocked.").toList)
    else do
      let remoteSize ← lift (intOfText u remoteSizeText)
      if remoteSize ≠ expectedSize then
        pure (false, "The installed ACBridge helper does not match this OpenADB build. Uninstall ".toList ++
          package ++ " manually, then try again.".toList)
      else compareBytes sha256 w expectedSize basePath

def verifyBundledApk : Exchange (Bool × Text) := do
  let early ← check w
  if early = true then pure (false, "ACBridge verification was cancelled.".toList)
  else do
    let found ← apkIsFile w
    if found = false then
      pure (false, "The bundled ACBridge APK was not found at ".toList ++ w.apk ++ ['.'])
    else do
      let expectedSize ← apkSize w
      if expectedSize = 0 ∨ maxTrustedApkBytes < expectedSize then
        pure (false, "The bundled ACBridge APK has an invalid size.".toList)
      else do
        match ← watched w pmPath with
        | none => pure (false, "ACBridge verification was cancelled.".toList)
        | some path =>
          if path.success = false then
            pure (false, "Unable to verify the installed ACBridge package: ".toList ++
              orElse [path.status, path.stderr] "package path query failed".toList)
          else
            match singleBase u path.stdout with
            | none =>
              pure (false, ("Unable to identify one monolithic installed ACBridge base.apk. " ++
                "Uninstall ").toList ++ package ++
                " manually, then let OpenADB install its bundled helper.".toList)
            | some basePath =>
              if safePath basePath = false then
                pure (false, ("Android returned an unsafe ACBridge package path; " ++
                  "privileged access was blocked.").toList)
              else compareSize u sha256 w expectedSize basePath

inductive UpdateState
  | cancelled | queryFailed | current | newer | installed | updated | installFailed | updateFailed
  | verificationFailed
  deriving DecidableEq

structure UpdateResult where
  state : UpdateState
  bundledVersionCode : Nat := versionCode
  installedVersionCode : Option Nat := none
  previousVersionCode : Option Nat := none
  message : Text := []
  transient : Bool := false

/-- The reading of the version that a finished installation must give, and the read of the helper. -/
def confirmInstallation (previous : Option Nat) : Exchange UpdateResult := do
  let probe ← probeAfterUpdate u w
  if probe.state = .cancelled then
    pure { state := .cancelled, previousVersionCode := previous, message := probe.message }
  else if probe.state ≠ .installed ∨ probe.versionCode ≠ some versionCode then
    let detail := match probe.versionCode with
      | none => orElse [probe.message]
          "Android did not report a readable ACBridge version after installation.".toList
      | some reported => "Android still reports ACBridge versionCode ".toList ++ formatNat reported ++
          "; expected ".toList ++ formatNat versionCode ++ ['.']
    let failure := if previous = none then .installFailed else .updateFailed
    pure
      { state := if probe.state = .queryFailed then .queryFailed else failure
        installedVersionCode := probe.versionCode
        previousVersionCode := previous
        message := detail }
  else do
    let verified ← verifyBundledApk u sha256 w
    let cancelled ← check w
    if cancelled = true then
      pure
        { state := .cancelled
          installedVersionCode := some versionCode
          previousVersionCode := previous
          message := "ACBridge verification was cancelled.".toList }
    else if verified.1 = false then
      pure
        { state := .verificationFailed
          installedVersionCode := some versionCode
          previousVersionCode := previous
          message := verified.2 }
    else
      pure
        { state := if previous = none then .installed else .updated
          installedVersionCode := some versionCode
          previousVersionCode := previous
          message := match previous with
            | none => "ACBridge was installed automatically (versionCode ".toList ++ formatNat versionCode ++ ").".toList
            | some code => "ACBridge was updated automatically from versionCode ".toList ++ formatNat code ++
                " to ".toList ++ formatNat versionCode ++ ['.'] }

/-- Install the helper where there is none, or over an older one. -/
def installBundled (previous : Option Nat) : Exchange UpdateResult := do
  let failure := if previous = none then .installFailed else .updateFailed
  let early ← check w
  if early = true then
    pure
      { state := .cancelled
        previousVersionCode := previous
        message := "ACBridge setup was cancelled before installation.".toList }
  else do
    let found ← apkIsFile w
    if found = false then
      pure
        { state := failure
          installedVersionCode := previous
          previousVersionCode := previous
          message := "The bundled ACBridge APK was not found at ".toList ++ w.apk ++ ['.'] }
    else do
      match ← watched w (if previous = none then installWithPermissions w else installArgs w) with
      | none =>
        pure
          { state := .cancelled
            previousVersionCode := previous
            message := "ACBridge setup was cancelled during installation.".toList }
      | some result =>
        if result.success = false then
          let rejected := if previous = none then "Android rejected the ACBridge installation."
            else "Android rejected the ACBridge update."
          let mismatch := if previous = none then "Android reports an ACBridge package with a different signature. " ++
              "OpenADB did not uninstall it or delete its data; remove it manually " ++
              "before installing the bundled helper."
            else "The installed ACBridge has a different signature. OpenADB did not " ++
              "uninstall it or delete its data; remove it manually before installing the bundled helper."
          pure
            { state := failure
              installedVersionCode := previous
              previousVersionCode := previous
              message :=
                if looksLikeSignatureMismatch u (['\n'].intercalate [result.stdout, result.stderr, result.status])
                then mismatch.toList else commandFailureDetail u result rejected.toList
              transient := looksLikeTransientTransportFailure u result }
        else confirmInstallation u sha256 w previous

/-- A helper of the bundled version is only verified. -/
def checkCurrent : Exchange UpdateResult := do
  let verified ← verifyBundledApk u sha256 w
  let cancelled ← check w
  if cancelled = true then
    pure
      { state := .cancelled
        installedVersionCode := some versionCode
        previousVersionCode := some versionCode
        message := "ACBridge verification was cancelled.".toList }
  else if verified.1 = false then
    pure
      { state := .verificationFailed
        installedVersionCode := some versionCode
        previousVersionCode := some versionCode
        message := verified.2 }
  else
    pure
      { state := .current
        installedVersionCode := some versionCode
        previousVersionCode := some versionCode
        message := "ACBridge versionCode ".toList ++ formatNat versionCode ++ " is current.".toList }

def updateIfOutdated : Exchange UpdateResult := do
  let acquired ← installationGuard w
  if acquired = false then
    pure
      { state := .cancelled
        message := "ACBridge setup was cancelled while another helper operation was running.".toList }
  else do
    let probe ← probeInstalledVersion u w
    if probe.state = .cancelled then pure { state := .cancelled, message := probe.message }
    else if probe.state = .notInstalled then installBundled u sha256 w none
    else
      match probe.versionCode with
      | none => pure { state := .queryFailed, message := probe.message }
      | some previous =>
        if probe.state ≠ .installed then pure { state := .queryFailed, message := probe.message }
        else if previous = versionCode then checkCurrent u sha256 w
        else if versionCode < previous then
          pure
            { state := .newer
              installedVersionCode := some previous
              previousVersionCode := some previous
              message := "ACBridge versionCode ".toList ++ formatNat previous ++
                " is newer than the bundled versionCode ".toList ++ formatNat versionCode ++
                "; OpenADB did not downgrade it.".toList }
        else installBundled u sha256 w (some previous)

/-- The commands that only read the package. -/
def IsVerification (args : List Text) : Prop :=
  args = pmPath ∨ (∃ path, args = statSize path) ∨ ∃ path, args = execOutCat path

/-- The last things done read the only reported base.apk, of the size of the bundled file, in full, and
found the bytes of the bundled file. -/
def Verified (log : Log) : Prop :=
  ∃ basePath path size read bytes,
    Ends [.bytes (.ok bytes), .binary ⟨execOutCat basePath, true⟩ (.ok (read, bytes)),
      .adb ⟨statSize basePath, true⟩ (.ok size), .adb ⟨pmPath, true⟩ (.ok path), .size (.ok bytes.length)] log ∧
    path.success = true ∧ singleBase u path.stdout = some basePath ∧
    size.success = true ∧ intOfText u (strip u.toUnicodeData size.stdout) = .ok bytes.length ∧ read.success = true

variable {u sha256 w} {P : Log → Prop}

/-- A refusal, or the helper was compared with the bundled file. -/
def Judged (u : Tables) (P : Log → Prop) (verdict : Bool × Text) (log : Log) : Prop :=
  P log ∧ (verdict.1 = true → Verified u log)

theorem judged_refused {message : Text} {log : Log} (h : P log) : Judged u P (false, message) log :=
  ⟨h, fun hs => (by cases hs)⟩

theorem compareBytes_meets (hP : Stable IsVerification P) (hsha : Function.Injective sha256) {n : Nat}
    {basePath : Text} {path size : CommandResult} (hpath : path.success = true)
    (hbase : singleBase u path.stdout = some basePath) (hsize : size.success = true)
    (hn : intOfText u (strip u.toUnicodeData size.stdout) = .ok n) :
    Meets (fun log => P log ∧ Ends [.adb ⟨statSize basePath, true⟩ (.ok size), .adb ⟨pmPath, true⟩ (.ok path),
      .size (.ok n)] log) (compareBytes sha256 w n basePath) (Judged u P) (fun _ log => P log) := by
  refine Meets.bind (watchedBinary_meets hP (.inr (.inr ⟨basePath, rfl⟩))) fun answer => ?_
  cases answer with
  | none => exact Meets.pure fun log hlog => judged_refused hlog.keeps
  | some answer =>
    obtain ⟨read, installed⟩ := answer
    refine Meets.ite (fun _ => Meets.pure fun log hlog => judged_refused hlog.keeps) fun hread => ?_
    rw [not_or, Bool.not_eq_false, not_not] at hread
    obtain ⟨hread, rfl⟩ := hread
    refine Meets.bind ((apkBytes_meets hP).mono (fun log hlog => ⟨hlog.keeps, hlog.ends (read, installed) rfl⟩)
      (fun _ _ h => h) (fun _ _ h => h)) fun bundled => ?_
    refine Meets.ite (fun _ => Meets.pure fun log hlog => judged_refused hlog.1) fun hsame => ?_
    rw [not_not] at hsame
    obtain rfl := hsha hsame
    exact Meets.pure fun log hlog => ⟨hlog.1, fun _ => ⟨basePath, path, size, read, installed, hlog.2, hpath, hbase,
      hsize, hn, hread⟩⟩

theorem compareSize_meets (hP : Stable IsVerification P) (hsha : Function.Injective sha256) {n : Nat}
    {basePath : Text} {path : CommandResult} (hpath : path.success = true)
    (hbase : singleBase u path.stdout = some basePath) :
    Meets (fun log => P log ∧ Ends [.adb ⟨pmPath, true⟩ (.ok path), .size (.ok n)] log)
      (compareSize u sha256 w n basePath) (Judged u P) (fun _ log => P log) := by
  refine Meets.bind (watched_meets hP (.inr (.inl ⟨basePath, rfl⟩))) fun answer => ?_
  cases answer with
  | none => exact Meets.pure fun log hlog => judged_refused hlog.keeps
  | some size =>
    refine Meets.ite (fun _ => Meets.pure fun log hlog => judged_refused hlog.keeps) fun hsize => ?_
    rw [not_or, Bool.not_eq_false] at hsize
    refine Meets.bind (Q := fun remote log => intOfText u (strip u.toUnicodeData size.stdout) = .ok remote ∧
      Heard w P [.adb ⟨pmPath, true⟩ (.ok path), .size (.ok n)] (fun r => .adb ⟨statSize basePath, true⟩ (.ok r))
        (some size) log)
      (Meets.lift (fun remote hremote log hlog => ⟨hremote, hlog⟩) (fun _ _ log hlog => hlog.keeps)) fun remote => ?_
    refine Meets.of_fact fun hremote => Meets.ite (fun _ => Meets.pure fun log hlog => judged_refused hlog.keeps)
      fun hsame => ?_
    rw [not_not] at hsame
    subst hsame
    exact (compareBytes_meets hP hsha hpath hbase hsize.1 hremote).mono
      (fun log hlog => ⟨hlog.keeps, hlog.ends size rfl⟩) (fun _ _ h => h) (fun _ _ h => h)

theorem verifyBundledApk_meets (hP : Stable IsVerification P) (hsha : Function.Injective sha256) :
    Meets P (verifyBundledApk u sha256 w) (Judged u P) (fun _ log => P log) := by
  refine Meets.bind (check_keeps hP) fun early => Meets.ite (fun _ => Meets.pure fun log hlog =>
    judged_refused hlog.1) fun _ => ?_
  refine Meets.bind ((apkIsFile_meets hP).mono (fun log hlog => ⟨hlog.1, Ends.nil log⟩) (fun _ _ h => h)
    (fun _ _ h => h)) fun found => Meets.ite (fun _ => Meets.pure fun log hlog => judged_refused hlog.1) fun _ => ?_
  refine Meets.bind (apkSize_meets hP) fun n => Meets.ite (fun _ => Meets.pure fun log hlog =>
    judged_refused hlog.1) fun _ => ?_
  refine Meets.bind (watched_meets hP (.inl rfl)) fun answer => ?_
  cases answer with
  | none => exact Meets.pure fun log hlog => judged_refused hlog.keeps
  | some path =>
    refine Meets.ite (fun _ => Meets.pure fun log hlog => judged_refused hlog.keeps) fun hpath => ?_
    rw [Bool.not_eq_false] at hpath
    cases hbase : singleBase u path.stdout with
    | none => exact Meets.pure fun log hlog => judged_refused hlog.keeps
    | some basePath =>
      refine Meets.ite (fun _ => Meets.pure fun log hlog => judged_refused hlog.keeps) fun _ => ?_
      exact (compareSize_meets hP hsha hpath hbase).mono (fun log hlog => ⟨hlog.keeps, hlog.ends path rfl⟩)
        (fun _ _ h => h) (fun _ _ h => h)

/-- The helper was verified, and the event was not set up to then. -/
def Confirmed (u : Tables) (w : World) (log : Log) : Prop :=
  ∃ past, log = .check false :: past ∧ w.isSet past = false ∧ Verified u past

theorem verify_then {β : Type} (hP : Stable IsVerification P) (hsha : Function.Injective sha256)
    {f : Bool × Text → Bool → Exchange β} {Q : β → Log → Prop} (hset : ∀ v, Meets P (f v true) Q (fun _ => P))
    (hrefused : ∀ message, Meets P (f (false, message) false) Q (fun _ => P))
    (htrue : ∀ message, Meets (fun log => P log ∧ Confirmed u w log) (f (true, message) false) Q (fun _ => P)) :
    Meets P (verifyBundledApk u sha256 w >>= fun v => check w >>= fun set => f v set) Q (fun _ => P) := by
  refine Meets.bind (verifyBundledApk_meets hP hsha) fun verdict => ?_
  refine Meets.bind (Q := fun set log => P log ∧ (set = false → verdict.1 = true → Confirmed u w log))
    (Meets.look fun log hlog => ⟨hP log _ (only_of_call rfl) hlog.1, fun hclear htrue => ?_⟩) fun set => ?_
  · exact ⟨log, by rw [hclear], hclear, hlog.2 htrue⟩
  · cases set with
    | true => exact (hset verdict).mono (fun log hlog => hlog.1) (fun _ _ h => h) (fun _ _ h => h)
    | false =>
      obtain ⟨success, message⟩ := verdict
      cases success with
      | false => exact (hrefused message).mono (fun log hlog => hlog.1) (fun _ _ h => h) (fun _ _ h => h)
      | true => exact (htrue message).mono (fun log hlog => ⟨hlog.1, hlog.2 rfl rfl⟩) (fun _ _ h => h) (fun _ _ h => h)

def isInstall (args : List Text) : Bool := args.head? = some "install".toList

/-- A script is one argument, or a few words. -/
def uninstalls (args : List Text) : Bool :=
  args.head? = some "uninstall".toList ||
    (args.head? = some "shell".toList && (args.tail.take 3).any (contains "uninstall".toList))

def installCount (log : Log) : Nat := log.countP (fun e => e.call?.any (fun call => isInstall call.args))

/-- The answers up to here allow an installation: there is no helper, or an older one. -/
def Allows (u : Tables) (log : Log) : Prop :=
  Absent u log ∨ ∃ code, Reported u code log ∧ code < versionCode

def IsMaintenance (w : World) (args : List Text) : Prop :=
  IsProbe args ∨ IsVerification args ∨ args = installWithPermissions w ∨ args = installArgs w

structure Careful (u : Tables) (w : World) (n : Nat) (log : Log) : Prop where
  commands : ∀ e ∈ log, e.Only (IsMaintenance w)
  count : installCount log ≤ n
  allowed : Each (fun past e => ∀ call, e.call? = some call → isInstall call.args = true → Allows u past) log

theorem isInstall_reading {args : List Text} (h : IsProbe args ∨ IsVerification args) : isInstall args = false := by
  obtain (rfl | rfl | rfl) | rfl | ⟨path, rfl⟩ | ⟨path, rfl⟩ := h
  all_goals rfl

theorem Careful.stable {n : Nat} : Stable (fun args => IsProbe args ∨ IsVerification args) (Careful u w n) := by
  intro log e he hlog
  have hnot : ∀ call, e.call? = some call → isInstall call.args = false := fun call hcall =>
    isInstall_reading (he call hcall)
  refine ⟨List.forall_mem_cons.mpr ⟨fun call hcall => ?_, hlog.commands⟩, ?_, fun call hcall hinstall => ?_, hlog.allowed⟩
  · exact (he call hcall).imp_right .inl
  · rw [installCount, List.countP_cons_of_neg]
    · exact hlog.count
    · rw [Option.any_eq_true]
      rintro ⟨call, hcall, hinstall⟩
      rw [hnot call hcall] at hinstall
      cases hinstall
  · rw [hnot call hcall] at hinstall
    cases hinstall

theorem Careful.install {log : Log} (h : Careful u w 0 log) (hallows : Allows u log) {e : Event} {args : List Text}
    (hargs : args = installWithPermissions w ∨ args = installArgs w) (he : e.call? = some ⟨args, true⟩) :
    Careful u w 1 (e :: log) := by
  refine ⟨List.forall_mem_cons.mpr ⟨fun call hcall => ?_, h.commands⟩, ?_, fun _ _ _ => hallows, h.allowed⟩
  · rw [he] at hcall
    rw [← Option.some.inj hcall]
    exact .inr (.inr hargs)
  · have hcount : installCount (e :: log) ≤ installCount log + 1 := by
      rw [installCount, installCount, List.countP_cons]
      split
      · exact le_refl _
      · exact Nat.le_succ _
    exact hcount.trans (Nat.succ_le_succ h.count)

theorem Allows.quiet {log : Log} {e : Event} (h : Allows u log) (he : e.deals = false) : Allows u (e :: log) := by
  obtain (⟨path, hends, hpath⟩ | ⟨path, list, hends, hpath⟩) | ⟨code, ⟨result, hends, hresult⟩, hcode⟩ := h
  · exact .inl (.inl ⟨path, hends.quiet he, hpath⟩)
  · exact .inl (.inr ⟨path, list, hends.quiet he, hpath⟩)
  · exact .inr ⟨code, ⟨result, hends.quiet he, hresult⟩, hcode⟩

/-- The states that report an intact helper of the bundled version. -/
def UpdateState.reports : UpdateState → Bool
  | .current | .installed | .updated => true
  | _ => false

def Settled (u : Tables) (w : World) (n : Nat) (result : UpdateResult) (log : Log) : Prop :=
  Careful u w n log ∧ (result.state.reports = true → Confirmed u w log)

theorem settled_of_not {n : Nat} {result : UpdateResult} {log : Log} (h : Careful u w n log)
    (hr : result.state.reports = false) : Settled u w n result log := by
  refine ⟨h, fun hreports => ?_⟩
  rw [hr] at hreports
  cases hreports

theorem Careful.mono {n m : Nat} {log : Log} (h : Careful u w n log) (hnm : n ≤ m) : Careful u w m log :=
  ⟨h.commands, h.count.trans hnm, h.allowed⟩

theorem Careful.quiet {n : Nat} {log : Log} (h : Careful u w n log) {e : Event} (he : e.call? = none) :
    Careful u w n (e :: log) :=
  Careful.stable log e (only_of_call he) h

theorem Careful.probes {n : Nat} : Stable IsProbe (Careful u w n) := Careful.stable.mono fun _ => .inl

theorem Careful.verifies {n : Nat} : Stable IsVerification (Careful u w n) := Careful.stable.mono fun _ => .inr

theorem confirmInstallation_meets (hsha : Function.Injective sha256) (previous : Option Nat) :
    Meets (Careful u w 1) (confirmInstallation u sha256 w previous) (Settled u w 1) (fun _ => Careful u w 1) := by
  refine Meets.bind (probeAfterUpdate_meets Careful.probes) fun probe => Meets.ite (fun _ => Meets.pure
    fun log hlog => settled_of_not hlog.keeps rfl) fun _ => ?_
  refine Meets.ite (fun _ => Meets.pure fun log hlog => settled_of_not hlog.keeps ?_) fun _ => ?_
  · by_cases hq : probe.state = .queryFailed
    · simp only [if_pos hq]
      rfl
    · cases previous with
      | none => simp only [if_neg hq, if_pos]; rfl
      | some code => simp only [if_neg hq, reduceCtorEq, if_false]; rfl
  · refine Meets.mono (P := Careful u w 1) ?_ (fun log hlog => hlog.keeps) (fun _ _ h => h) (fun _ _ h => h)
    exact verify_then Careful.verifies hsha (fun _ => Meets.pure fun _ hlog => settled_of_not hlog rfl)
      (fun _ => Meets.pure fun _ hlog => settled_of_not hlog rfl)
      (fun _ => Meets.pure fun _ hlog => ⟨hlog.1, fun _ => hlog.2⟩)

theorem installBundled_meets (hsha : Function.Injective sha256) (previous : Option Nat) :
    Meets (fun log => Careful u w 0 log ∧ Allows u log) (installBundled u sha256 w previous) (Settled u w 1)
      (fun _ => Careful u w 1) := by
  have hfailure : (if previous = none then UpdateState.installFailed else .updateFailed).reports = false := by
    cases previous <;> rfl
  refine Meets.bind (Q := fun _ log => Careful u w 0 log ∧ Allows u log)
    (Meets.look fun log hlog => ⟨hlog.1.quiet rfl, hlog.2.quiet rfl⟩) fun early => ?_
  refine Meets.ite (fun _ => Meets.pure fun log hlog => settled_of_not (hlog.1.mono (Nat.zero_le 1)) rfl) fun _ => ?_
  refine Meets.bind (Q := fun _ log => Careful u w 0 log ∧ Allows u log)
    (Meets.look fun log hlog => ⟨hlog.1.quiet rfl, hlog.2.quiet rfl⟩) fun found => ?_
  refine Meets.ite (fun _ => Meets.pure fun log hlog => settled_of_not (hlog.1.mono (Nat.zero_le 1)) hfailure) fun _ => ?_
  have hargs : (if previous = none then installWithPermissions w else installArgs w) = installWithPermissions w ∨
      (if previous = none then installWithPermissions w else installArgs w) = installArgs w := by
    cases previous with
    | none => exact .inl rfl
    | some code => exact .inr rfl
  refine Meets.bind (heeding_meets Careful.probes (start_keeps
    (fun log e hlog he => Careful.install hlog.1 hlog.2 hargs he) (fun _ => rfl) (fun _ => rfl))) fun answer => ?_
  cases answer with
  | none => exact Meets.pure fun log hlog => settled_of_not hlog.keeps rfl
  | some result =>
    refine Meets.ite (fun _ => Meets.pure fun log hlog => settled_of_not hlog.keeps hfailure) fun _ => ?_
    exact (confirmInstallation_meets hsha previous).mono (fun log hlog => hlog.keeps) (fun _ _ h => h)
      (fun _ _ h => h)

theorem checkCurrent_meets (hsha : Function.Injective sha256) :
    Meets (Careful u w 0) (checkCurrent u sha256 w) (Settled u w 0) (fun _ => Careful u w 0) :=
  verify_then Careful.verifies hsha (fun _ => Meets.pure fun _ hlog => settled_of_not hlog rfl)
    (fun _ => Meets.pure fun _ hlog => settled_of_not hlog rfl)
    (fun _ => Meets.pure fun _ hlog => ⟨hlog.1, fun _ => hlog.2⟩)

theorem updateIfOutdated_meets (hsha : Function.Injective sha256) :
    Meets (Careful u w 0) (updateIfOutdated u sha256 w) (Settled u w 1) (fun _ => Careful u w 1) := by
  have hend : ∀ {result : UpdateResult} {log : Log}, Careful u w 0 log → result.state.reports = false →
      Settled u w 1 result log := fun h hr => settled_of_not (h.mono (Nat.zero_le 1)) hr
  refine Meets.bind (installationGuard_keeps Careful.probes) fun acquired => Meets.ite (fun _ => Meets.pure
    fun log hlog => hend hlog rfl) fun _ => ?_
  refine Meets.bind ((probeInstalledVersion_meets Careful.probes).weaken (fun _ _ h => h.mono (Nat.zero_le 1)))
    fun probe => ?_
  refine Meets.ite (fun _ => Meets.pure fun log hlog => hend hlog.keeps rfl) fun _ => Meets.ite (fun habsent =>
    (installBundled_meets hsha none).mono (fun log hlog => ⟨hlog.keeps, .inl (hlog.absent habsent)⟩)
      (fun _ _ h => h) (fun _ _ h => h)) fun _ => ?_
  cases hcode : probe.versionCode with
  | none => exact Meets.pure fun log hlog => hend hlog.keeps rfl
  | some previous =>
    refine Meets.ite (fun _ => Meets.pure fun log hlog => hend hlog.keeps rfl) fun hstate => ?_
    rw [not_not] at hstate
    refine Meets.ite (fun _ => (checkCurrent_meets hsha).mono (fun log hlog => hlog.keeps)
      (fun _ _ h => ⟨h.1.mono (Nat.zero_le 1), h.2⟩) (fun _ _ h => h.mono (Nat.zero_le 1))) fun hcurrent => ?_
    refine Meets.ite (fun _ => Meets.pure fun log hlog => hend hlog.keeps rfl) fun hnewer => ?_
    refine (installBundled_meets hsha (some previous)).mono (fun log hlog => ⟨hlog.keeps, .inr ?_⟩)
      (fun _ _ h => h) (fun _ _ h => h)
    obtain ⟨code, hsome, hreported⟩ := hlog.installed hstate
    rw [hcode] at hsome
    obtain rfl := Option.some.inj hsome
    exact ⟨previous, hreported, by omega⟩

theorem uninstalls_maintenance {args : List Text} (h : IsMaintenance w args) : uninstalls args = false := by
  obtain (rfl | rfl | rfl) | (rfl | ⟨path, rfl⟩ | ⟨path, rfl⟩) | rfl | rfl := h
  · decide +kernel
  · decide +kernel
  · decide +kernel
  · decide +kernel
  · rfl
  · rfl
  · rfl
  · rfl

/-- One call of `update_if_outdated`: at most one installation, only where the answers right before it
allow one, no removal, and no report of an intact helper that was not read and compared. -/
theorem update_only_as_allowed (hsha : Function.Injective sha256) {outcome : Except Raised UpdateResult} {log : Log}
    (hrun : updateIfOutdated u sha256 w [] = (outcome, log)) :
    installCount log ≤ 1 ∧ (∀ e ∈ log, ∀ call, e.call? = some call → uninstalls call.args = false) ∧
      Each (fun past e => ∀ call, e.call? = some call → isInstall call.args = true → Allows u past) log ∧
      ∀ result, outcome = .ok result → result.state.reports = true → Confirmed u w log := by
  have hstart : Careful u w 0 [] := ⟨fun _ h => absurd h List.not_mem_nil, le_refl _, trivial⟩
  have hend : Careful u w 1 log ∧ ∀ result, outcome = .ok result → result.state.reports = true → Confirmed u w log := by
    have hmeets := updateIfOutdated_meets hsha [] hstart
    rw [hrun] at hmeets
    cases outcome with
    | ok result =>
      refine ⟨hmeets.1, fun result' hresult => ?_⟩
      rw [← Except.ok.inj hresult]
      exact hmeets.2
    | error e => exact ⟨hmeets, fun result hresult => by cases hresult⟩
  refine ⟨hend.1.count, fun e he call hcall => ?_, hend.1.allowed, hend.2⟩
  exact uninstalls_maintenance (hend.1.commands e he call hcall)

def success (stdout : String) : CommandResult where
  exitCode := some 0
  stdout := stdout.toList
  stderr := []
  success := true
  status := "Success".toList
  errorType := []

/-- A phone with an older helper that takes the update. -/
theorem isRequestId_zeros : isRequestId (List.replicate 32 '0') = true := by decide

def outdated : World where
  isSet _ := false
  sticky _ _ h := h
  adb log call :=
    if call.args = pmPath then .ok (success "package:/data/app/base.apk\n")
    else if call.args = dumpsysPackage then
      .ok (success (if installCount log = 0 then "  versionCode=31010 minSdk=24\n" else "  versionCode=31011 minSdk=24\n"))
    else if call.args = statSize "/data/app/base.apk".toList then .ok (success "3\n")
    else .ok (success "Success\n")
  binary _ _ := .ok (success "", [1, 2, 3])
  pathExists _ := true
  isFile _ := true
  size _ := .ok 3
  bytes _ := .ok [1, 2, 3]
  busy _ := 0
  sleeps _ := 0
  requestId _ := ⟨List.replicate 32 '0', isRequestId_zeros⟩
  apk := "ACBridge-3.1.0.apk".toList

theorem update_only_as_allowed_outdated : ∃ result log,
    updateIfOutdated Tables.ascii id outdated [] = (.ok result, log) ∧ result.state = .updated ∧
      installCount log = 1 ∧ Confirmed Tables.ascii outdated log := by
  have hstate : (updateIfOutdated Tables.ascii id outdated []).1.toOption.any (fun r => r.state = .updated) = true := by
    decide +kernel
  have hcount : installCount (updateIfOutdated Tables.ascii id outdated []).2 = 1 := by decide +kernel
  cases hrun : updateIfOutdated Tables.ascii id outdated [] with
  | mk outcome log =>
    rw [hrun] at hstate hcount
    cases outcome with
    | error e => cases hstate
    | ok result =>
      have hupdated : result.state = .updated := of_decide_eq_true hstate
      refine ⟨result, log, rfl, hupdated, hcount, ?_⟩
      exact (update_only_as_allowed Function.injective_id hrun).2.2.2 result rfl (by rw [hupdated]; rfl)

end OpenAdb.Acbridge.Maintenance
