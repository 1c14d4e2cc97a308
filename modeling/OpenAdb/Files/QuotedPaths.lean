import OpenAdb.Acbridge.Probe
import OpenAdb.Lib.ShellWords

namespace OpenAdb.Files.QuotedPaths

open OpenAdb.Lib.PyText OpenAdb.Lib.ShellWords OpenAdb.Acbridge.Probe

/-- `root_shell_script` -/
def rootShellScript (shellCommand : Text) : Text := "su -c ".toList ++ shellQuote shellCommand

/-- The script that `run_root_shell` or `run_shell` hands to the first shell. -/
def script (useRoot : Bool) (command : Text) : Text := if useRoot = true then rootShellScript command else command

def mkdir (androidPath : Text) (useRoot : Bool) : Text :=
  script useRoot ("mkdir -p ".toList ++ shellQuote androidPath)

def rename (oldPath newPath : Text) (useRoot : Bool) : Text :=
  script useRoot ("mv ".toList ++ shellQuote oldPath ++ ' ' :: shellQuote newPath)

def stat (androidPath : Text) (useRoot : Bool) : Text := script useRoot ("stat ".toList ++ shellQuote androidPath)

def readRemoteFile (source : Text) (useRoot : Bool) : Text := script useRoot ("cat ".toList ++ shellQuote source)

def removeCommand (androidPath : Text) (recursive : Bool) : Text :=
  "rm ".toList ++ (if recursive = true then "-rf ".toList else "-f ".toList) ++ shellQuote androidPath

variable (u : UnicodeData)

/-- `_is_public_removable_storage_path` -/
def isPublicRemovableStoragePath (path : Text) : Bool :=
  let text := strip u (replaceChar '\\' '/' path)
  "/storage/".toList.isPrefixOf text &&
    !("/storage/emulated/".toList.isPrefixOf text || "/storage/self/".toList.isPrefixOf text)

/-- What `_delete_public_storage_via_mediastore` gives to `p`, by which its script names the path. -/
def mediastorePath (androidPath : Text) : Text :=
  let path := rstripChar '/' (replaceChar '\\' '/' androidPath)
  shellQuote (if path = [] then ['/'] else path)

/-- A script for the first shell, or the one for the MediaStore with its path. -/
inductive DeleteScript
  | command (text : Text)
  | mediastore (path : Text)

/-- How the first command ends. -/
structure Outcome where
  success : Bool
  cancelled : Bool

/-- The scripts of `delete` that name the path. -/
def delete (androidPath : Text) (recursive useRoot : Bool) (outcome : Outcome) : List DeleteScript :=
  .command (script useRoot (removeCommand androidPath recursive)) ::
    if outcome.success = true then []
    else if outcome.cancelled = true then []
    else if useRoot = false ∧ isPublicRemovableStoragePath u androidPath = true then
      [.mediastore (mediastorePath androidPath)]
    else []

/-! What the shells make of a script. -/

/-- The command that is executed below some shells of `su -c`, each of which passes its one argument on. -/
def execute : Nat → Text → Option (List Text)
  | 0, text => words text
  | depth + 1, text =>
    match words text with
    | some [su, option, command] =>
      if su = "su".toList ∧ option = "-c".toList then execute depth command else none
    | _ => none

/-- The shells that a script passes before its command. -/
def depth (useRoot : Bool) : Nat := if useRoot = true then 1 else 0

/-- A script of a deletion removes the path, or is the one for the MediaStore with this path. -/
def Addresses (path : Text) (recursive useRoot : Bool) : DeleteScript → Prop
  | .command text =>
    execute (depth useRoot) text = some ["rm".toList, if recursive = true then "-rf".toList else "-f".toList, path]
  | .mediastore quoted => words quoted = some [path]

/-- A path reaches the device as it is: as one argument of any command with it, below any number of shells, and in
all that is run for it by the operations on files. -/
structure ReachesUnchanged (path : Text) (useRoot : Bool) : Prop where
  quoted : ∀ (command : List Word) (n : Nat),
    (⟨.quoted path, []⟩ : Word) ∈ command →
      execute n (rootShellScript^[n] (render command)) = some (command.map Word.meaning)
  mkdir : execute (depth useRoot) (mkdir path useRoot) = some ["mkdir".toList, "-p".toList, path]
  delete : ∀ recursive outcome, ∀ script ∈ delete u path recursive useRoot outcome,
    Addresses path recursive useRoot script
  renameFrom : ∀ other, execute (depth useRoot) (rename path other useRoot) = some ["mv".toList, path, other]
  renameTo : ∀ other, execute (depth useRoot) (rename other path useRoot) = some ["mv".toList, other, path]
  stat : execute (depth useRoot) (stat path useRoot) = some ["stat".toList, path]
  readRemoteFile : execute (depth useRoot) (readRemoteFile path useRoot) = some ["cat".toList, path]

variable {u} {path text : Text} {useRoot : Bool}

theorem words_rootShellScript (command : Text) :
    words (rootShellScript command) = some ["su".toList, "-c".toList, command] :=
  words_option "su".toList "-c".toList (fun _ => wordsFrom_space) (fun _ => wordsFrom_space) command

theorem execute_rootShellScript (n : Nat) : execute (n + 1) (rootShellScript text) = execute n text := by
  rw [execute, words_rootShellScript]
  rfl

/-- One more shell changes nothing. -/
theorem execute_wrapped (n : Nat) : execute n (rootShellScript^[n] text) = words text := by
  induction n with
  | zero => rfl
  | succ n ih => rw [Function.iterate_succ_apply', execute_rootShellScript, ih]

theorem execute_script : execute (depth useRoot) (script useRoot text) = words text := by
  cases useRoot with
  | false => rfl
  | true => exact execute_rootShellScript 0

/-- A fixed word before a quoted value. -/
theorem words_quoted (command : Text) (hcommand : ∀ s, words (command ++ ' ' :: s) = (words s).map (command :: ·))
    (value : Text) : words (command ++ ' ' :: quote value) = some [command, value] := by
  rw [hcommand, words, ← List.append_nil (quote value), wordsFrom_quote]
  rfl

theorem words_quote (value : Text) : words (quote value) = some [value] := by
  rw [words, ← List.append_nil (quote value), wordsFrom_quote]
  rfl

theorem words_removeCommand (path : Text) (recursive : Bool) : words (removeCommand path recursive) =
    some ["rm".toList, if recursive = true then "-rf".toList else "-f".toList, path] := by
  cases recursive with
  | false => exact words_option "rm".toList "-f".toList (fun _ => wordsFrom_space) (fun _ => wordsFrom_space) path
  | true => exact words_option "rm".toList "-rf".toList (fun _ => wordsFrom_space) (fun _ => wordsFrom_space) path

theorem length_of_public (hpublic : isPublicRemovableStoragePath u path = true) : 9 ≤ path.length := by
  rw [isPublicRemovableStoragePath, Bool.and_eq_true] at hpublic
  have hlead := (List.isPrefixOf_iff_prefix.mp hpublic.1).length_le
  have hstrip := (strip_sublist u (replaceChar '\\' '/' path)).length_le
  rw [replaceChar, List.length_map] at hstrip
  exact Nat.le_trans hlead hstrip

theorem not_mem_replaceChar : '\\' ∉ replaceChar '\\' '/' path := by
  intro hmem
  obtain ⟨c, -, hc⟩ := List.mem_map.mp hmem
  by_cases h : c = '\\'
  · rw [if_pos h] at hc
    cases hc
  · rw [if_neg h] at hc
    exact h hc

/-- What is normalised for the MediaStore is the path itself. -/
theorem mediastorePath_iff (hpublic : isPublicRemovableStoragePath u path = true) :
    words (mediastorePath path) = some [path] ↔ '\\' ∉ path ∧ path.getLast? ≠ some '/' := by
  have hlength := length_of_public hpublic
  have hquote : ∀ value, words (shellQuote value) = some [path] ↔ value = path := by
    intro value
    have hwords : words (shellQuote value) = some [value] := words_quote value
    rw [hwords, Option.some_inj, List.cons.injEq]
    exact and_iff_left rfl
  rw [mediastorePath, hquote]
  constructor
  · intro h
    by_cases hnil : rstripChar '/' (replaceChar '\\' '/' path) = []
    · rw [if_pos hnil] at h
      rw [← h] at hlength
      exact absurd hlength (by decide)
    · rw [if_neg hnil] at h
      constructor
      · rw [← h]
        exact fun hmem => not_mem_replaceChar ((List.rdropWhile_prefix _ _).subset hmem)
      · intro hlast
        rw [← h, List.getLast?_eq_some_getLast hnil, Option.some_inj] at hlast
        exact List.rdropWhile_last_not (· == '/') (replaceChar '\\' '/' path) hnil (beq_iff_eq.mpr hlast)
  · rintro ⟨hbackslash, hlast⟩
    have hsame : rstripChar '/' path = path := by
      rw [rstripChar, List.rdropWhile_eq_self_iff]
      intro hne heq
      refine hlast ?_
      rw [List.getLast?_eq_some_getLast hne, eq_of_beq heq]
    have hne : path ≠ [] := by
      rintro rfl
      exact absurd hlength (by decide)
    rw [replaceChar_eq_self hbackslash, hsame, if_neg hne]

theorem addresses_removeCommand (path : Text) (recursive : Bool) :
    Addresses path recursive useRoot (.command (script useRoot (removeCommand path recursive))) := by
  rw [Addresses, execute_script, words_removeCommand]

theorem delete_iff : (∀ recursive outcome, ∀ script ∈ delete u path recursive useRoot outcome,
    Addresses path recursive useRoot script) ↔
      useRoot = true ∨ isPublicRemovableStoragePath u path = false ∨ '\\' ∉ path ∧ path.getLast? ≠ some '/' := by
  constructor
  · intro h
    by_cases hroot : useRoot = true
    · exact .inl hroot
    by_cases hpublic : isPublicRemovableStoragePath u path = true
    · have hfallback := h false ⟨false, false⟩ (.mediastore (mediastorePath path)) (by
        rw [delete, if_neg (by decide), if_neg (by decide), if_pos ⟨Bool.eq_false_of_not_eq_true hroot, hpublic⟩]
        exact List.mem_cons_of_mem _ List.mem_cons_self)
      exact .inr (.inr ((mediastorePath_iff hpublic).mp hfallback))
    · exact .inr (.inl (Bool.eq_false_of_not_eq_true hpublic))
  · intro h recursive outcome script hscript
    obtain rfl | hscript := List.mem_cons.mp hscript
    · exact addresses_removeCommand path recursive
    · split at hscript
      · cases hscript
      · split at hscript
        · cases hscript
        · split at hscript
          · next hcase =>
            rw [List.mem_singleton] at hscript
            subst hscript
            obtain hroot | hnot | hexact := h
            · exact absurd (hcase.1.symm.trans hroot) (by decide)
            · exact absurd (hcase.2.symm.trans hnot) (by decide)
            · exact (mediastorePath_iff hcase.2).mpr hexact
          · cases hscript

/-- A path reaches the device as it is, but for a deletion through the MediaStore that normalises it. -/
theorem reachesUnchanged_iff (u : UnicodeData) (path : Text) (useRoot : Bool) : ReachesUnchanged u path useRoot ↔
    useRoot = true ∨ isPublicRemovableStoragePath u path = false ∨ '\\' ∉ path ∧ path.getLast? ≠ some '/' := by
  constructor
  · intro h
    exact delete_iff.mp h.delete
  · intro h
    refine ⟨?_, ?_, delete_iff.mpr h, ?_, ?_, ?_, ?_⟩
    · intro command n _
      rw [execute_wrapped, words_render]
    · rw [mkdir, execute_script]
      exact words_option "mkdir".toList "-p".toList (fun _ => wordsFrom_space) (fun _ => wordsFrom_space) path
    · intro other
      rw [rename, execute_script]
      exact words_two "mv".toList (fun _ => wordsFrom_space) path other
    · intro other
      rw [rename, execute_script]
      exact words_two "mv".toList (fun _ => wordsFrom_space) other path
    · rw [stat, execute_script]
      exact words_quoted "stat".toList (fun _ => wordsFrom_space) path
    · rw [readRemoteFile, execute_script]
      exact words_quoted "cat".toList (fun _ => wordsFrom_space) path

def backslashPath : Text := "/storage/1234-ABCD/a\\b".toList

/-- When its removal fails, the path of another file is removed. -/
theorem another_path_removed : ¬ReachesUnchanged .ascii backslashPath false := by
  intro h
  have hscript := h.delete true ⟨false, false⟩ (.mediastore (mediastorePath backslashPath)) (by
    have hpublic : isPublicRemovableStoragePath .ascii backslashPath = true := by decide +kernel
    rw [delete, if_neg (by decide), if_neg (by decide), if_pos ⟨rfl, hpublic⟩]
    exact List.mem_cons_of_mem _ List.mem_cons_self)
  exact absurd hscript (by
    rw [Addresses]
    decide +kernel)

end OpenAdb.Files.QuotedPaths
