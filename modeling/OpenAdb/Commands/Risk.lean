import OpenAdb.Commands.Results
import OpenAdb.Lib.PackageName

namespace OpenAdb.Commands.Risk

open OpenAdb.Lib.PyText OpenAdb.Lib.PackageName
open OpenAdb.Commands.Results (contains)

/-- The characters at which `lower` forgets what came before. -/
def neutral (c : Char) : Prop := c = '/' ∨ c = '\\' ∨ c = '='

structure Tables extends VisibleTables where
  lower : Text → Text
  shlexSplit : Text → Option (List Text)
  isSpace_blank : isSpace ' ' = true
  lower_ascii : ∀ s : Text, (∀ c ∈ s, c.toNat < 128) → lower s = s.map Char.toLower
  lower_neutral : ∀ (a b : Text) (c : Char), neutral c → lower (a ++ c :: b) = lower a ++ c :: lower b

inductive Level
  | safe | changesDeviceState | mayEraseData | critical
  deriving DecidableEq

def Level.rank : Level → Nat
  | safe => 0
  | changesDeviceState => 1
  | mayEraseData => 2
  | critical => 3

structure RiskInfo where
  level : Level
  needsConfirmation : Bool
  description : Text
  typedConfirmation : Text
  deriving DecidableEq

inductive Command
  | text (text : Text)
  | arguments (arguments : List Text)

variable (t : Tables)

/-- `str.split` -/
def splitBlanks (s : Text) : List Text := (s.splitOnP t.isSpace).filter (· ≠ [])

def joinBlank (words : List Text) : Text := [' '].intercalate words

def stripQuotes (s : Text) : Text := rstripChar '"' (lstripChar '"' s)

def token (raw : Text) : Text := t.lower (stripQuotes (strip t.toUnicodeData raw))

def isBlank (raw : Text) : Bool := strip t.toUnicodeData raw = []

inductive Tool
  | adb | fastboot
  deriving DecidableEq

def Tool.word : Tool → Text
  | adb => "adb".toList
  | fastboot => "fastboot".toList

/-- The tool that a token names, by the last part of its path. -/
def toolOf (token : Text) : Option Tool :=
  let executable := (((replaceChar '\\' '/' token).splitOn '/').getLast?).getD []
  if executable = "adb".toList ∨ executable = "adb.exe".toList then some .adb
  else if executable = "fastboot".toList ∨ executable = "fastboot.exe".toList then some .fastboot
  else none

/-- The first token that names a tool, and the tokens behind it. -/
def findTool : List Text → Option (Tool × List Text)
  | [] => none
  | token :: tokens =>
    match toolOf token with
    | some tool => some (tool, tokens)
    | none => findTool tokens

def valueOptions : Tool → List Text
  | .adb => ["-s", "-t", "-h", "-p", "-l", "--one-device"].map String.toList
  | .fastboot => ["-s", "--slot", "--fs-options"].map String.toList

def flagOptions : Tool → List Text
  | .adb => ["-d", "-e", "-a", "--exit-on-write-error"].map String.toList
  | .fastboot =>
    ["-u", "--skip-secondary", "--skip-reboot", "--disable-verity", "--disable-verification", "--unbuffered",
      "--verbose"].map String.toList

def passes (tool : Tool) (token : Text) : Bool :=
  (flagOptions tool).contains token || "--slot=".toList.isPrefixOf token

/-- The tokens behind the global options. -/
def afterOptions (tool : Tool) : List Text → List Text
  | [] => []
  | [token] => if passes tool token = true then [] else [token]
  | token :: value :: tokens =>
    if (valueOptions tool).contains token = true then afterOptions tool tokens
    else if passes tool token = true then afterOptions tool (value :: tokens)
    else token :: value :: tokens

def rawTokens : Command → List Text
  | .text s => (t.shlexSplit s).getD (splitBlanks t s)
  | .arguments arguments => arguments

def tokens (raw : List Text) : List Text := (raw.filter (fun s => !isBlank t s)).map (token t)

def canonicalOf (tokens : List Text) : Text :=
  match findTool tokens with
  | none => joinBlank tokens
  | some (tool, rest) => joinBlank (tool.word :: afterOptions tool rest)

def canonicalCommandText (command : Command) : Text := canonicalOf (tokens t (rawTokens t command))

def critical (description : String) : RiskInfo := ⟨.critical, true, description.toList, "CONFIRM".toList⟩

def mayErase (description : String) : RiskInfo := ⟨.mayEraseData, true, description.toList, "ERASE".toList⟩

def changes (description : String) : RiskInfo := ⟨.changesDeviceState, true, description.toList, []⟩

/-- The words of a fastboot command that decide alone. -/
def fastbootRisk (words : List Text) : Option RiskInfo :=
  if words.head? ≠ some "fastboot".toList then none
  else if words.contains "unlock".toList = true then
    some (critical "Unlocking the bootloader commonly erases all user data.")
  else if words.contains "lock".toList = true ∧
      (words.contains "flashing".toList = true ∨ words.contains "oem".toList = true) then
    some (critical "Locking a modified bootloader can erase data or make the device unbootable.")
  else if words.contains "flash".toList = true then
    some (critical "Flashing the wrong image or partition can make the device unbootable.")
  else if words.contains "boot".toList = true then
    some (critical "Booting an untrusted or incompatible image can compromise or crash the device.")
  else if words.contains "erase".toList = true ∨ words.contains "format".toList = true ∨
      words.contains "-w".toList = true then
    some (mayErase "This fastboot operation permanently removes data.")
  else none

def criticalPatterns : List (String × RiskInfo) :=
  [("fastboot flashing unlock", critical "Unlocking the bootloader commonly erases all user data."),
    ("fastboot flashing lock",
      critical "Locking a modified bootloader can erase data or make the device unbootable."),
    ("fastboot oem unlock", critical "OEM unlock commonly erases all user data."),
    ("fastboot oem lock", critical "OEM lock can erase data or make a modified device unbootable."),
    ("fastboot flash", critical "Flashing the wrong image or partition can make the device unbootable."),
    ("fastboot boot", critical "Booting an untrusted or incompatible image can compromise or crash the device."),
    ("su -c", critical "This runs an arbitrary command with existing root privileges.")]

def erasePatterns : List (String × RiskInfo) :=
  [("fastboot erase", mayErase "Erasing a partition permanently removes its contents."),
    ("fastboot format", mayErase "Formatting a partition permanently removes its contents."),
    ("fastboot -w", mayErase "The fastboot wipe option permanently removes Android user data."),
    ("rm -rf /data", mayErase "Recursively deleting /data can permanently remove Android user data."),
    ("rm -rf /sdcard", mayErase "Recursively deleting shared storage permanently removes user files."),
    ("rm -rf /storage", mayErase "Recursively deleting shared storage permanently removes user files."),
    ("--wipe_data", mayErase "This command can permanently erase Android user data."),
    ("--wipe-data", mayErase "This command can permanently erase Android user data.")]

def stateChangePatterns : List (String × RiskInfo) :=
  [("adb reboot", changes "The device will stop its current session and reboot into another mode."),
    ("fastboot reboot", changes "The device will leave its current fastboot session and reboot."),
    ("adb sideload", changes "Sideloading streams an update package that can modify the Android system."),
    ("adb install", changes "Installing an APK changes applications on the active device."),
    ("adb uninstall", changes "Uninstalling an application can remove its data and functionality."),
    ("pm uninstall", changes "Removing an application can remove data and break Android functionality."),
    ("disable-user", changes "Disabling a system application can break Android functionality."),
    ("adb push", changes "Copying files changes storage on the active Android device."),
    (" shell reboot", changes "The device will stop its current session and reboot."),
    ("pm install", changes "Installing an application changes applications on the active device."),
    ("settings put", changes "Changing Android settings can affect system behaviour."),
    ("settings delete", changes "Deleting Android settings can affect system behaviour."),
    ("fastboot --set-active", changes "Changing the active boot slot changes the next boot configuration."),
    ("<custom command>", changes "A custom shell command can change device state or data.")]

/-- The patterns in the order in which they are looked for. -/
def patterns : List (String × RiskInfo) := criticalPatterns ++ (erasePatterns ++ stateChangePatterns)

def riskOfText (lowered : Text) : RiskInfo :=
  match fastbootRisk (splitBlanks t lowered) with
  | some risk => risk
  | none =>
    match patterns.find? (fun pattern => contains pattern.1.toList lowered) with
    | some pattern => pattern.2
    | none =>
      if strip t.toUnicodeData lowered = [] then ⟨.safe, false, "Command is empty.".toList, []⟩
      else ⟨.safe, false, [], []⟩

def analyzeCommandRisk (command : Command) : RiskInfo := riskOfText t (canonicalCommandText t command)

end OpenAdb.Commands.Risk
