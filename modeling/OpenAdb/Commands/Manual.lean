import Mathlib.Data.Bool.AllAny
import OpenAdb.Context.Device
import OpenAdb.Lib.OptionWords
import OpenAdb.Settings.Values

namespace OpenAdb.Commands.Manual

open OpenAdb.Lib.PyText OpenAdb.Lib.OptionWords
open OpenAdb.Context.Device (DeviceContext)
open OpenAdb.Settings.Values (Backend)

/-- The character tables, with `lower` and the rows of the two symbols of an option. -/
structure Tables extends UnicodeData where
  lower : Text → Text
  casefold_symbol : ∀ c : Char, c = '-' ∨ c = '=' → casefold c = [c]

def Tables.ascii : Tables where
  toUnicodeData := UnicodeData.ascii
  lower s := s.map Char.toLower
  casefold_symbol c h := by
    obtain rfl | rfl := h
    · rfl
    · rfl

/-- The fields of a `PrivilegeStatus` that the page reads. -/
structure Status where
  available : Bool
  root : Bool
  uid : Option Int
  state : Text
  message : Text

/-- What the page reads of the programs, the device and the access mode. -/
structure Page where
  commandRunning : Bool
  privilegeBusy : Bool
  hasAdb : Bool
  hasFastboot : Bool
  adbPath : Option Text
  fastbootPath : Option Text
  mode : Text
  backend : Backend
  status : Option Status

variable {π : Type} (u : Tables)

def isAdb (word : Text) : Bool := u.lower word = "adb".toList || u.lower word = "adb.exe".toList

def isFastboot (word : Text) : Bool := u.lower word = "fastboot".toList || u.lower word = "fastboot.exe".toList

def blockedFlags : List Text := ["-s", "-t", "-d", "-e", "-H", "-P", "-L", "-a"].map String.toList

def blockedLong : List Text := ["--serial", "--transport-id", "--one-device"].map String.toList

def operations : List Text :=
  ["--version", "-w", "boot", "bugreport", "connect", "devices", "disconnect",
    "emu", "erase", "exec-in", "exec-out", "features", "fetch", "flash", "flashing",
    "format", "forward", "get-state", "get-serialno", "get-devpath", "getvar", "help",
    "host-features", "install", "install-multiple", "install-multi-package", "jdwp",
    "keygen", "kill-server", "logcat", "mdns", "oem", "pair", "pull", "push", "reboot",
    "reboot-bootloader", "reconnect", "remount", "reverse", "root", "server-status",
    "shell", "sideload", "start-server", "sync", "tcpip", "track-devices", "uninstall",
    "unroot", "usb", "version", "wait-for-device"].map String.toList

def selectorMessage : Text :=
  ("Custom device/server selectors (-s, -t, -d, -e, -H, -P, -L, --serial, --transport-id, --one-device) " ++
    "are not allowed. Choose the target in OpenADB so the command remains bound to its device profile.").toList

def folded (word : Text) : Text := casefold u.toUnicodeData word

/-- The words at which the scan for selectors ends. -/
def endsScan (word : Text) : Bool :=
  operations.contains (folded u word) || "--set-active".toList.isPrefixOf (folded u word)

def blocks (word : Text) : Bool :=
  blockedFlags.contains word || blockedLong.contains (folded u word) ||
    blockedLong.any (fun option => (option ++ ['=']).isPrefixOf (folded u word))

/-- `_manual_selector_error`, on the words after the tool. -/
def manualSelectorError : List Text → Text
  | [] => []
  | option :: words =>
    if endsScan u option = true then []
    else if blocks u option = true then selectorMessage
    else manualSelectorError words

/-- `_first_operation`, on the words after the tool. -/
def firstOperation : List Text → Text
  | [] => []
  | [word] => if u.lower word = "--exit-on-write-error".toList then [] else u.lower word
  | word :: value :: words =>
    if u.lower word = "--exit-on-write-error".toList then firstOperation (value :: words)
    else if u.lower word = "-s".toList then firstOperation words
    else u.lower word

/-- `_manual_operation_index`, for the words from an index on. -/
def operationIndex : Nat → List Text → Option Nat
  | _, [] => none
  | index, [word] => if folded u word = "--exit-on-write-error".toList then none else some index
  | index, word :: value :: words =>
    if folded u word = "--exit-on-write-error".toList then operationIndex (index + 1) (value :: words)
    else if folded u word = "-s".toList then operationIndex (index + 2) words
    else some index

def manualOperationIndex (parts : List Text) : Option Nat := operationIndex u 1 parts.tail

def joinWords (words : List Text) : Text := [' '].intercalate words

/-- The words after `shell`, when that is the operation. -/
def shellWords (parts : List Text) : Option (List Text) :=
  match manualOperationIndex u parts with
  | none => none
  | some index =>
    if folded u (parts.getD index []) = "shell".toList then some (parts.drop (index + 1)) else none

def manualShellCommand (parts : List Text) : Text :=
  match shellWords u parts with
  | none => []
  | some words => strip u.toUnicodeData (joinWords words)

def adbGlobalOperations : List Text :=
  ["devices", "version", "start-server", "kill-server", "connect", "disconnect", "pair", "mdns"].map String.toList

def fastbootGlobalOperations : List Text := ["devices", "--version", "version"].map String.toList

def rootControlOperations : List Text :=
  ["root", "unroot", "remount", "disable-verity", "enable-verity"].map String.toList

def execOperations : List Text := ["exec-in", "exec-out"].map String.toList

def adbModes : List Text := ["ADB", "Recovery", "Sideload"].map String.toList

def shizukuUnavailableReason (status : Option Status) (requireRoot : Bool) : Text :=
  match status with
  | none => "Run Check Shizuku access for the active device first.".toList
  | some status =>
    if requireRoot = true ∧ status.available = true ∧ status.root = false then
      ("This command requires UID 0. ADB-started Shizuku provides Android shell " ++
        "access (UID 2000), not root.").toList
    else if status.state ∈ ["permission_required".toList, "permission_denied".toList] then
      "Grant OpenADB Bridge permission in Shizuku on the Android device.".toList
    else if status.state ∈ ["stopped".toList, "binder_dead".toList] then
      "Start Shizuku on the Android device, then check access again.".toList
    else if status.state = "not_installed".toList then
      "Install and start Shizuku on Android; OpenADB does not install it automatically.".toList
    else if status.message = [] then "Shizuku is unavailable for the active device.".toList
    else status.message

variable (page : Page)

/-- The checks for adb, after the scan for selectors: the reason against the command, if there is one. -/
def adbRefusal (parts : List Text) : Option Text :=
  let operation := firstOperation u parts.tail
  if page.hasAdb = false then some "ADB is unavailable. Select Platform Tools in Settings.".toList
  else if adbGlobalOperations.contains operation = false ∧ adbModes.contains page.mode = false then
    some ("Current device mode is ".toList ++ page.mode ++ "; an ADB device is required.".toList)
  else if operation = "shell".toList ∧ manualShellCommand u parts = [] then
    some "Enter a non-empty Android shell command.".toList
  else if page.backend = .shizuku ∧ execOperations.contains operation = true then
    some ("Shizuku cannot preserve adb exec-in/exec-out byte streaming. " ++
      "Use an adb shell command or select Standard/Root for this transport.").toList
  else if page.backend = .shizuku ∧ operation = "shell".toList ∧ page.status.any (·.available) = false then
    some (shizukuUnavailableReason page.status false)
  else if rootControlOperations.contains operation = true ∧ page.backend ≠ .root then
    some "Select global Root mode before running this root-control ADB operation.".toList
  else none

def fastbootRefusal (parts : List Text) : Option Text :=
  if page.hasFastboot = false then some "fastboot is unavailable. Select Platform Tools in Settings.".toList
  else if fastbootGlobalOperations.contains (firstOperation u parts.tail) = false ∧
      page.mode ≠ Context.Device.fastbootMode then
    some ("Current device mode is ".toList ++ page.mode ++ "; Fastboot is required.".toList)
  else none

def manualAvailability (parts : List Text) : Bool × Text :=
  if page.commandRunning = true then (false, "Another command is already running.".toList)
  else if page.privilegeBusy = true then
    (false, "The selected access mode is still being prepared for this device.".toList)
  else
    match parts with
    | [] => (false, "Command is empty.".toList)
    | tool :: words =>
      if isAdb u tool = false ∧ isFastboot u tool = false then
        (false, "Custom commands must begin with adb or fastboot.".toList)
      else if manualSelectorError u words ≠ [] then (false, manualSelectorError u words)
      else
        match (if isAdb u tool = true then adbRefusal u page parts else fastbootRefusal u page parts) with
        | some reason => (false, reason)
        | none => (true, "Ready to run.".toList)

def manualIsGlobal (parts : List Text) : Bool :=
  match parts with
  | [] => false
  | tool :: words =>
    if isAdb u tool = true then adbGlobalOperations.contains (firstOperation u words)
    else fastbootGlobalOperations.contains (firstOperation u words)

/-- The words of a command with the selector of the context, unless they contain `-s`. -/
def bindWords (path : Text) (words : List Text) (context : Option (DeviceContext π)) : List Text :=
  match context with
  | none => path :: words
  | some context =>
    if context.serial ≠ [] ∧ "-s".toList ∉ path :: words then path :: "-s".toList :: context.serial :: words
    else path :: words

/-- The configured path of the tool that a first word names. -/
def toolPath (tool : Text) : Option Text :=
  if isAdb u tool = true ∧ page.adbPath.isSome = true then page.adbPath
  else if isFastboot u tool = true then page.fastbootPath
  else none

def resolveManualCommand (parts : List Text) (context : Option (DeviceContext π)) : List Text :=
  match parts with
  | [] => []
  | tool :: words =>
    match toolPath u page tool with
    | none => parts
    | some path => bindWords path words context

/-! The option grammar of the tools: which words before the operation select a device or a server. -/

def valueSelectors : List Text := ["-s", "-t", "-H", "-P", "-L"].map String.toList

def flagSelectors : List Text := ["-d", "-e"].map String.toList

/-- A selector with its value in a word of its own or after `=`. -/
def isPlainSelector (word : Text) : Bool :=
  valueSelectors.contains word || flagSelectors.contains word || blockedLong.contains word ||
    blockedLong.any (fun option => (option ++ ['=']).isPrefixOf word)

/-- A short selector with its value in the same word. -/
def isAttachedSelector (word : Text) : Bool :=
  valueSelectors.any (fun option => option.isPrefixOf word && decide (option.length < word.length))

def isSelector (word : Text) : Bool := isPlainSelector word || isAttachedSelector word

def isOption (word : Text) : Bool := word.head? = some '-'

/-- The options before the operation; `takesValue` tells which options besides the selectors take the next word. -/
def leadingOptions (takesValue : Text → Bool) (words : List Text) : List (Nat × Text) :=
  optionsFrom isOption (fun word => valueSelectors.contains word || blockedLong.contains word || takesValue word) 0 words

/-- The command starts with the tool and the selector of the serial, and no other selector follows before
the operation. -/
def Bound (takesValue : Text → Bool) (path serial : Text) (command : List Text) : Prop :=
  ∃ words, command = path :: "-s".toList :: serial :: words ∧
    ∀ option ∈ leadingOptions takesValue words, isSelector option.2 = false

/-- No word is `-s`; of the options before the operation none has an attached selector, and none is a
selector after a word that ended the scan. -/
structure Clear (u : Tables) (takesValue : Text → Bool) (path : Text) (words : List Text) : Prop where
  unselected : "-s".toList ∉ path :: words
  unattached : ∀ option ∈ leadingOptions takesValue words, isAttachedSelector option.2 = false
  scanned : ∀ option ∈ leadingOptions takesValue words, words.findIdx (endsScan u) ≤ option.1 →
    isPlainSelector option.2 = false

variable {u page} {takesValue : Text → Bool}

theorem folded_append (s t : Text) : folded u (s ++ t) = folded u s ++ folded u t := List.flatMap_append

theorem folded_option {s : Text} (h : ∀ c ∈ s, lowerAscii c ∨ c = '-' ∨ c = '=') : folded u s = s := by
  rw [folded, casefold]
  induction s with
  | nil => rfl
  | cons c s ih =>
    obtain ⟨hc, hs⟩ := List.forall_mem_cons.mp h
    have hcase : u.casefold c = [c] := hc.elim (u.casefold_lower c) (u.casefold_symbol c)
    rw [List.flatMap_cons, hcase, ih hs, List.singleton_append]

theorem folded_long {option : Text} (h : option ∈ blockedLong) : folded u (option ++ ['=']) = option ++ ['='] ∧
    folded u option = option := by
  have hall : ∀ option ∈ blockedLong,
      (option ++ ['=']).all (fun c => decide (lowerAscii c ∨ c = '-' ∨ c = '=')) = true :=
    List.all_iff_forall_prop.mp (by decide)
  have hchars : ∀ option ∈ blockedLong, ∀ c ∈ option ++ ['='], lowerAscii c ∨ c = '-' ∨ c = '=' :=
    fun option hoption => List.all_iff_forall_prop.mp (hall option hoption)
  refine ⟨folded_option (hchars option h), folded_option fun c hc => hchars option h c ?_⟩
  exact List.mem_append_left _ hc

/-- The scan blocks every selector that is not attached. -/
theorem blocks_of_plain {word : Text} (h : isPlainSelector word = true) : blocks u word = true := by
  rw [isPlainSelector, Bool.or_eq_true, Bool.or_eq_true, Bool.or_eq_true] at h
  rw [blocks, Bool.or_eq_true, Bool.or_eq_true]
  obtain ((h | h) | h) | h := h
  · refine .inl (.inl ?_)
    have hsub : ∀ w ∈ valueSelectors, blockedFlags.contains w = true := List.all_iff_forall_prop.mp (by decide)
    exact hsub word (List.contains_iff_mem.mp h)
  · refine .inl (.inl ?_)
    have hsub : ∀ w ∈ flagSelectors, blockedFlags.contains w = true := List.all_iff_forall_prop.mp (by decide)
    exact hsub word (List.contains_iff_mem.mp h)
  · refine .inl (.inr ?_)
    rw [(folded_long (List.contains_iff_mem.mp h)).2]
    exact h
  · refine .inr ?_
    rw [List.any_eq_true] at h ⊢
    obtain ⟨option, hmem, hlead⟩ := h
    obtain ⟨rest, rfl⟩ := List.isPrefixOf_iff_prefix.mp hlead
    refine ⟨option, hmem, List.isPrefixOf_iff_prefix.mpr ⟨folded u rest, ?_⟩⟩
    rw [folded_append, (folded_long hmem).1]

theorem selectorMessage_ne_nil : selectorMessage ≠ [] := by decide +kernel

/-- What the scan has passed holds no word that it blocks. -/
theorem not_blocks_of_scanned {words : List Text} (h : manualSelectorError u words = []) {k : Nat} {word : Text}
    (hk : k < words.findIdx (endsScan u)) (hword : words[k]? = some word) : blocks u word = false := by
  induction words generalizing k with
  | nil => cases hword
  | cons first words ih =>
    rw [List.findIdx_cons] at hk
    rw [manualSelectorError] at h
    by_cases hends : endsScan u first = true
    · rw [hends, cond_true] at hk
      omega
    · rw [if_neg hends] at h
      rw [Bool.not_eq_true] at hends
      rw [hends, cond_false] at hk
      by_cases hblocks : blocks u first = true
      · rw [if_pos hblocks] at h
        exact absurd h selectorMessage_ne_nil
      · rw [if_neg hblocks] at h
        cases k with
        | zero =>
          obtain rfl := Option.some.inj hword
          exact (Bool.not_eq_true _).mp hblocks
        | succ k => exact ih h (by omega) hword

theorem scanned_of_available {parts : List Text} (h : (manualAvailability u page parts).1 = true) :
    ∃ tool words, parts = tool :: words ∧ manualSelectorError u words = [] := by
  unfold manualAvailability at h
  split_ifs at h
  match parts with
  | [] => cases h
  | tool :: words =>
    refine ⟨tool, words, rfl, ?_⟩
    by_contra herror
    dsimp only at h
    split_ifs at h

theorem not_head_selector {words : List Text} : manualSelectorError u ("-s".toList :: words) ≠ [] := by
  have hfold : folded u "-s".toList = "-s".toList := folded_option (List.all_iff_forall_prop.mp (by decide))
  have hends : endsScan u "-s".toList = false := by
    rw [endsScan, hfold]
    decide
  have hblocks : blocks u "-s".toList = true := blocks_of_plain (by decide)
  rw [manualSelectorError, hends, if_neg Bool.false_ne_true, if_pos hblocks]
  exact selectorMessage_ne_nil

theorem leadingOptions_blocks {words : List Text} (h : manualSelectorError u words = []) {place : Nat} {word : Text}
    (hoption : (place, word) ∈ leadingOptions takesValue words) (hplace : place < words.findIdx (endsScan u)) :
    isPlainSelector word = false := by
  obtain ⟨k, hk, hword⟩ := getElem?_of_mem hoption
  rw [hk, Nat.zero_add] at hplace
  have hblocks := not_blocks_of_scanned h hplace hword
  by_contra hplain
  rw [Bool.not_eq_false] at hplain
  rw [blocks_of_plain hplain] at hblocks
  cases hblocks

/-- An accepted command stays on the device it is bound to if and only if its words are clear. -/
theorem bound_iff_clear {parts : List Text} (havailable : (manualAvailability u page parts).1 = true)
    {context : DeviceContext π} (hserial : context.serial ≠ []) {path : Text}
    (htool : parts.head?.bind (toolPath u page) = some path) :
    Bound takesValue path context.serial (resolveManualCommand u page parts (some context)) ↔
      Clear u takesValue path parts.tail := by
  obtain ⟨tool, words, rfl, hscan⟩ := scanned_of_available havailable
  have hpath : toolPath u page tool = some path := htool
  rw [resolveManualCommand, hpath, List.tail_cons]
  dsimp only
  by_cases hs : "-s".toList ∈ path :: words
  · have hcommand : bindWords path words (some context) = path :: words := if_neg fun h => h.2 hs
    refine ⟨fun hbound => ?_, fun hclear => absurd hs hclear.unselected⟩
    obtain ⟨rest, hrest, -⟩ := hbound
    rw [hcommand] at hrest
    rw [(List.cons.inj hrest).2] at hscan
    exact absurd hscan not_head_selector
  · have hcommand : bindWords path words (some context) = path :: "-s".toList :: context.serial :: words :=
      if_pos ⟨hserial, hs⟩
    constructor
    · intro hbound
      obtain ⟨rest, hrest, hfree⟩ := hbound
      rw [hcommand] at hrest
      obtain rfl : words = rest := (List.cons.inj (List.cons.inj (List.cons.inj hrest).2).2).2
      have hparts : ∀ option ∈ leadingOptions takesValue words, isPlainSelector option.2 = false ∧
          isAttachedSelector option.2 = false := fun option hoption => by
        simpa [isSelector] using hfree option hoption
      exact ⟨hs, fun option hoption => (hparts option hoption).2, fun option hoption _ => (hparts option hoption).1⟩
    · intro hclear
      refine ⟨words, hcommand, fun option hoption => ?_⟩
      have hplain : isPlainSelector option.2 = false := by
        by_cases hplace : option.1 < words.findIdx (endsScan u)
        · exact leadingOptions_blocks hscan hoption hplace
        · exact hclear.scanned option hoption (Nat.le_of_not_lt hplace)
      rw [isSelector, hplain, hclear.unattached option hoption, Bool.or_false]

/-- A phone on adb, with the tools at the given paths and no access mode to prepare. -/
def Page.onAdb : Page where
  commandRunning := false
  privilegeBusy := false
  hasAdb := true
  hasFastboot := true
  adbPath := some "platform-tools/adb".toList
  fastbootPath := some "platform-tools/fastboot".toList
  mode := "ADB".toList
  backend := .standard
  status := none

def phone : DeviceContext Unit where
  serial := "device-1".toList
  mode := "ADB".toList
  transportId := []
  profileKey := []
  profileKind := []
  paths := ⟨(), (), (), ()⟩
  generation := 1

def typed (words : List String) : List Text := words.map String.toList

theorem bound_iff_clear_shell : Bound (fun _ => false) "platform-tools/adb".toList "device-1".toList
    (resolveManualCommand .ascii .onAdb (typed ["adb", "shell", "getprop"]) (some phone)) :=
  (bound_iff_clear (by decide) (by decide) rfl).mpr ⟨by decide, by decide, by decide⟩

/-- A `-s` among the arguments takes the selector away, and an attached one overrides it. -/
theorem not_bound : ((manualAvailability .ascii .onAdb (typed ["adb", "shell", "ls", "-s"])).1 = true ∧
      manualIsGlobal .ascii (typed ["adb", "shell", "ls", "-s"]) = false ∧
      ¬Bound (fun _ => false) "platform-tools/adb".toList "device-1".toList
        (resolveManualCommand .ascii .onAdb (typed ["adb", "shell", "ls", "-s"]) (some phone))) ∧
    (manualAvailability .ascii .onAdb (typed ["adb", "-sdevice-2", "shell", "id"])).1 = true ∧
      manualIsGlobal .ascii (typed ["adb", "-sdevice-2", "shell", "id"]) = false ∧
      ¬Bound (fun _ => false) "platform-tools/adb".toList "device-1".toList
        (resolveManualCommand .ascii .onAdb (typed ["adb", "-sdevice-2", "shell", "id"]) (some phone)) := by
  refine ⟨⟨by decide, by decide, ?_⟩, by decide, by decide, ?_⟩
  · rintro ⟨words, hwords, -⟩
    have hsecond : some "shell".toList = some "-s".toList := congrArg (fun command => command.tail.head?) hwords
    exact absurd hsecond (by decide)
  · rintro ⟨words, hwords, hfree⟩
    have hrest : typed ["-sdevice-2", "shell", "id"] = words := congrArg (List.drop 3) hwords
    rw [← hrest] at hfree
    exact absurd (hfree (0, "-sdevice-2".toList) (by decide)) (by decide)

end OpenAdb.Commands.Manual
