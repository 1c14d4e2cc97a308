import Mathlib.Data.List.Perm.Basic
import OpenAdb.Apps.AppCache
import OpenAdb.Commands.Results
import OpenAdb.Files.Listing
import OpenAdb.Lib.PyWords

namespace OpenAdb.Apps.PackageList

open OpenAdb.Lib.PyText OpenAdb.Lib.PyLines OpenAdb.Lib.PyWords
open OpenAdb.Apps.AppCache (AppInfo)
open OpenAdb.Commands.Results (CommandResult)

/-- The character tables with `str.lower`. -/
structure Tables extends Files.Listing.Tables where
  lower : Text → Text

variable (u : Tables)

def packagePrefix : Text := "package:".toList

def versionPrefix : Text := "versionCode:".toList

def parsePackageLine (line : Text) : Option Text :=
  let line := strip u.toUnicodeData line
  if packagePrefix.isPrefixOf line = true then
    (words u.toUnicodeData (strip u.toUnicodeData (line.drop packagePrefix.length))).head?
  else none

def parsePackageList (stdout : Text) : List Text := (splitlines stdout).filterMap (parsePackageLine u)

structure Row where
  apkPath : Text
  packageName : Text
  versionCode : Text
  deriving DecidableEq

/-- What follows the first version marker among the later words of a line. -/
def versionOf (tokens : List Text) : Text :=
  match tokens.find? versionPrefix.isPrefixOf with
  | none => []
  | some token => strip u.toUnicodeData (token.drop versionPrefix.length)

/-- `rsplit` at the last equals sign, if there is one. -/
def splitLast (main : Text) : Option (Text × Text) :=
  if '=' ∈ main then some ((main.rdropWhile (· ≠ '=')).dropLast, main.rtakeWhile (· ≠ '=')) else none

def parsePathLine (line : Text) : Option Row :=
  let line := strip u.toUnicodeData line
  if packagePrefix.isPrefixOf line = true then
    let payload := line.drop packagePrefix.length
    let tokens := words u.toUnicodeData payload
    let main := tokens.headD payload
    match splitLast main with
    | some (apkPath, packageName) =>
      some ⟨strip u.toUnicodeData apkPath, strip u.toUnicodeData packageName, versionOf u tokens.tail⟩
    | none =>
      let packageName := strip u.toUnicodeData main
      if packageName = [] then none else some ⟨[], packageName, versionOf u tokens.tail⟩
  else none

def parsePackagePaths (stdout : Text) : List Row := (splitlines stdout).filterMap (parsePathLine u)

inductive Query
  | versions | paths | names | user | system | disabled
  deriving DecidableEq

def Query.command : Query → Text
  | .versions => "pm list packages -f --show-versioncode".toList
  | .paths => "pm list packages -f".toList
  | .names => "pm list packages".toList
  | .user => "pm list packages -3".toList
  | .system => "pm list packages -s".toList
  | .disabled => "pm list packages -d".toList

def orElse (x y : Text) : Text := if x ≠ [] then x else y

variable (shell : Text → CommandResult)

def stdout (query : Query) : Text := (shell query.command).stdout

/-- The rows of the first answer that has any, and the answer that is held for the last one with paths. -/
def packageRows : Except Text (List Row) :=
  let first := parsePackagePaths u (stdout shell .versions)
  if first ≠ [] then .ok first
  else
    let all := shell Query.paths.command
    let second := parsePackagePaths u all.stdout
    if second ≠ [] then .ok second
    else
      let fallback := shell Query.names.command
      let third := (parsePackageList u fallback.stdout).map (fun name => (⟨[], name, []⟩ : Row))
      if third = [] ∧ all.stdout = [] ∧ fallback.stdout = [] then
        .error (orElse (orElse (orElse (orElse fallback.stderr all.stderr) fallback.status) all.status)
          "Android returned an empty package list.".toList)
      else .ok third

def USER : Text := "user".toList

def SYSTEM : Text := "system".toList

def ENABLED : Text := "enabled".toList

def DISABLED : Text := "disabled".toList

def appType (userSet systemSet : List Text) (packageName : Text) : Text :=
  let shown := if packageName ∈ userSet then USER else SYSTEM
  if packageName ∈ systemSet then SYSTEM else shown

/-- The app of a row, unless it is left out. -/
def appOf (includeSystem : Bool) (userSet systemSet disabledSet : List Text) (row : Row) : Option AppInfo :=
  if row.packageName = [] then none
  else
    let appType := appType userSet systemSet row.packageName
    if includeSystem = false ∧ appType = SYSTEM then none
    else some { AppInfo.named row.packageName with
      appType := appType
      state := if row.packageName ∈ disabledSet then DISABLED else ENABLED
      versionCode := row.versionCode
      apkPaths := if row.apkPath ≠ [] then [row.apkPath] else [] }

def displayName (app : AppInfo) : Text := if app.appLabel ≠ [] then app.appLabel else app.packageName

/-- The order of `sort` by the lower-cased names. -/
def appOrder (a b : AppInfo) : Bool := !(decide (u.lower (displayName b) < u.lower (displayName a)))

/-- Without an event and without details. -/
def listPackages (includeSystem : Bool) : Except Text (List AppInfo) :=
  match packageRows u shell with
  | .error message => .error message
  | .ok rows =>
    let userSet := parsePackageList u (stdout shell .user)
    let systemSet := parsePackageList u (stdout shell .system)
    let disabledSet := parsePackageList u (stdout shell .disabled)
    .ok ((rows.filterMap (appOf includeSystem userSet systemSet disabledSet)).mergeSort (appOrder u))

end OpenAdb.Apps.PackageList
