import OpenAdb.Commands.Results
import OpenAdb.Lib.MarkedText
import OpenAdb.Lib.PyLines
import Mathlib.Data.Bool.AllAny
import Mathlib.Data.List.Sort

namespace OpenAdb.Commands.Scopes

open OpenAdb.Lib.PyText OpenAdb.Lib.Substring OpenAdb.Lib.MarkedText
open OpenAdb.Lib.PyLines (rstrip)
open OpenAdb.Commands.Results (contains formatInt classifyError)

structure Scope where
  displayCommand : List Text
  sensitiveValues : List Text

/-- The runner as the thread of one call sees it; `setOrder` is the order in
which a set of texts is iterated. -/
structure CommandRunner where
  unicode : UnicodeData
  lower : Text → Text
  redactSensitiveText : Text → Text
  setOrder : List Text → List Text
  mem_setOrder : ∀ values v, v ∈ setOrder values ↔ v ∈ values
  stack : List Scope
  logsFolder : Text

/-- The runner inside one more scope. -/
def scopedLogCommand (r : CommandRunner) (displayCommand sensitiveValues : List Text) :
    CommandRunner :=
  { r with stack := r.stack ++ [⟨displayCommand, sensitiveValues.filter (· ≠ [])⟩] }

def scopedSensitiveValues (r : CommandRunner) : List Text :=
  (r.setOrder (r.stack.flatMap Scope.sensitiveValues)).mergeSort (fun a b => b.length ≤ a.length)

def CommandRunner.runner (r : CommandRunner) : Results.Runner where
  unicode := r.unicode
  lower := r.lower
  redactSensitiveText := r.redactSensitiveText
  scope := if r.stack.isEmpty then none else some (scopedSensitiveValues r)

def redactRuntimeText (r : CommandRunner) (text : Text) : Text :=
  Results.redactRuntimeText r.runner text

def redacted : Text := "[REDACTED]".toList

def optionsWithValue : List Text :=
  ["-h", "-l", "-p", "-s", "-t", "--one-device", "--serial", "--transport-id"].map String.toList

def optionsWithoutValue : List Text := ["-a", "-d", "-e", "--exit-on-write-error"].map String.toList

def optionsWithEquals : List Text :=
  ["--one-device=", "--serial=", "--transport-id="].map String.toList

/-- `_adb_operation_index` from an index on; `skip` says that the value of an
option comes next. -/
def adbOperationIndex (u : UnicodeData) : Bool → Nat → List Text → Option Nat
  | _, _, [] => none
  | true, index, _ :: command => adbOperationIndex u false (index + 1) command
  | false, index, part :: command =>
    let option := casefold u part
    if option ∈ optionsWithValue then adbOperationIndex u true (index + 1) command
    else if option ∈ optionsWithoutValue ∨ optionsWithEquals.any (·.isPrefixOf option) then
      adbOperationIndex u false (index + 1) command
    else some index

/-- The last part of the path of an executable, without case. -/
def executable (u : UnicodeData) (part : Text) : Text :=
  let path := replaceChar '\\' '/' (rstripChar '"' (lstripChar '"' part))
  casefold u (((path.splitOn '/').getLast?).getD [])

def redactCommandArguments (r : CommandRunner) (command : List Text) : List Text :=
  let sanitized := command.map r.redactSensitiveText
  let name := (command.head?.map (executable r.unicode)).getD []
  if name = "adb".toList ∨ name = "adb.exe".toList then
    match adbOperationIndex r.unicode false 1 command.tail with
    | some index =>
      if casefold r.unicode (command.getD index []) = "pair".toList then
        sanitized.mapIdx (fun candidate part => if index + 2 ≤ candidate then redacted else part)
      else sanitized
    | none => sanitized
  else sanitized

/-- The texts of the times of a result. -/
structure Times where
  startedAt : Text
  finishedAt : Text
  duration : Text
  roundedDuration : Text
  deriving DecidableEq

structure CommandResult extends Results.CommandResult where
  command : List Text
  times : Times
  deviceSerial : Text
  deviceGeneration : Option Int
  logsFolder : Text
  logWarning : Text
  deriving DecidableEq

structure DeviceContext where
  serial : Text
  generation : Int
  logsPath : Text

def applyScopedLogCommand (r : CommandRunner) (result : CommandResult) : CommandResult :=
  match r.stack.getLast? with
  | none => result
  | some scope =>
    { result with
      toCommandResult := Results.applyScopedLogCommand r.runner result.toCommandResult
      command := (redactCommandArguments r scope.displayCommand).map (redactRuntimeText r) }

def sanitizedResultCopy (r : CommandRunner) (result : CommandResult) : CommandResult :=
  { result with
    command := redactCommandArguments r result.command
    stdout := r.redactSensitiveText result.stdout
    stderr := r.redactSensitiveText result.stderr
    status := r.redactSensitiveText result.status
    errorType := r.redactSensitiveText result.errorType
    logWarning := r.redactSensitiveText result.logWarning }

def formatPart (u : UnicodeData) (text : Text) : Marked :=
  if text = [] then own "\"\"".toList
  else if text.any u.isSpace || text.any ("\"&|<>^".toList.contains ·) then
    own "\"".toList ++
      ((carried text).flatMap (fun m => if m.char = '"' then own "\\\"".toList else [m]) ++
        own "\"".toList)
  else carried text

def joined (separator : Text) : List Marked → Marked
  | [] => []
  | [part] => part
  | part :: parts => part ++ (own separator ++ joined separator parts)

def formatCommand (u : UnicodeData) (command : List Text) : Marked :=
  joined " ".toList (command.map (formatPart u))

def formatExitCode : Option Int → Text
  | none => "None".toList
  | some code => formatInt code

def captured (u : UnicodeData) (label text : Text) : Marked :=
  if text = [] then [] else own label ++ (carried (rstrip u text) ++ own "\n".toList)

/-- What is appended to the text log. -/
def textEntry (u : UnicodeData) (result : CommandResult) : Marked :=
  own ("[".toList ++ result.times.startedAt ++ "] $ ".toList) ++
    (formatCommand u result.command ++
      (own "\n".toList ++
        (captured u [] result.stdout ++
          (captured u "[stderr]\n".toList result.stderr ++
            (own ("[exit=".toList ++ formatExitCode result.exitCode ++ " duration=".toList ++
                result.times.roundedDuration ++ "s status=".toList) ++
              (carried result.status ++ own "]\n\n".toList))))))

def hexDigit (n : Nat) : Char := "0123456789abcdef".toList.getD n '0'

/-- The escape of a character in a JSON text. -/
def jsonEscape (c : Char) : Option Text :=
  if c = '"' then some "\\\"".toList
  else if c = '\\' then some "\\\\".toList
  else if c = '\n' then some "\\n".toList
  else if c = '\r' then some "\\r".toList
  else if c = '\t' then some "\\t".toList
  else if c.toNat = 12 then some "\\f".toList
  else if c.toNat = 8 then some "\\b".toList
  else if c.toNat < 32 then
    some ("\\u00".toList ++ [hexDigit (c.toNat / 16), hexDigit (c.toNat % 16)])
  else none

def jsonString (s : Marked) : Marked :=
  own "\"".toList ++
    (s.flatMap (fun m => match jsonEscape m.char with
      | some escape => own escape
      | none => [m]) ++ own "\"".toList)

def jsonArray (items : List Marked) : Marked :=
  own "[".toList ++ (joined ", ".toList items ++ own "]".toList)

def jsonObject (members : List (Text × Marked)) : Marked :=
  own "\x7b".toList ++
    (joined ", ".toList
      (members.map (fun member => jsonString (own member.1) ++ (own ": ".toList ++ member.2))) ++
      own "\x7d".toList)

def jsonInt : Option Int → Marked
  | none => own "null".toList
  | some n => own (formatInt n)

/-- `to_dict`. -/
def toDict (u : UnicodeData) (result : CommandResult) : List (Text × Marked) :=
  [("command".toList, jsonArray (result.command.map (fun part => jsonString (carried part)))),
    ("command_text".toList, jsonString (formatCommand u result.command)),
    ("exit_code".toList, jsonInt result.exitCode),
    ("stdout".toList, jsonString (carried result.stdout)),
    ("stderr".toList, jsonString (carried result.stderr)),
    ("duration".toList, own result.times.duration),
    ("started_at".toList, jsonString (own result.times.startedAt)),
    ("finished_at".toList, jsonString (own result.times.finishedAt)),
    ("success".toList, own (if result.success then "true".toList else "false".toList)),
    ("status".toList, jsonString (carried result.status)),
    ("error_type".toList, jsonString (own result.errorType)),
    ("device_serial".toList, jsonString (own result.deviceSerial)),
    ("device_generation".toList, jsonInt result.deviceGeneration),
    ("logs_folder".toList, jsonString (own result.logsFolder)),
    ("log_warning".toList, jsonString (own result.logWarning))]

/-- What is appended to the JSONL log. -/
def jsonlEntry (u : UnicodeData) (result : CommandResult) : Marked :=
  jsonObject (toDict u result) ++ own "\n".toList

/-- An `OSError` of `_write_log`, after so many characters of each log. -/
structure LogFault where
  textWritten : Nat
  jsonlWritten : Nat
  error : Text

/-- All that leaves the runner on account of one call. -/
structure Report where
  callbacks : List Text
  result : CommandResult
  listeners : CommandResult
  textLog : Marked
  jsonlLog : Marked

/-- The device that a bound runner notes in its results. -/
def inContext (context : Option DeviceContext) (result : CommandResult) : CommandResult :=
  match context with
  | none => result
  | some c => { result with
      deviceSerial := c.serial, deviceGeneration := some c.generation, logsFolder := c.logsPath }

def finalizeResult (r : CommandRunner) (context : Option DeviceContext) (fault : Option LogFault)
    (callbacks : List Text) (raw : CommandResult) : Report :=
  let shown := applyScopedLogCommand r raw
  let result := inContext context
    { shown with command := redactCommandArguments r shown.command }
  let safe := sanitizedResultCopy r result
  let text := textEntry r.unicode safe
  let jsonl := jsonlEntry r.unicode safe
  match fault with
  | none => ⟨callbacks, result, safe, text, jsonl⟩
  | some f =>
    let warning := r.redactSensitiveText
      ("Command completed, but its log could not be written: ".toList ++ f.error)
    ⟨callbacks, { result with logWarning := warning }, { safe with logWarning := warning },
      text.take f.textWritten, jsonl.take f.jsonlWritten⟩

inductive Channel
  | stdout | stderr
  deriving DecidableEq

/-- How `run` ends. -/
inductive Ending
  | shuttingDown
  | exited (stdout stderr : Text) (exitCode : Int)
  | notFound (error : Text)
  | osError (error : Text)
  | timedOut (timeout stdout stderr : Text)

/-- Why a streaming call kills its process; `run_streaming` has no stream of its
own that could fail. -/
inductive Stop
  | cancelled
  | timedOut (timeout : Text)
  | streamFailed
  | streamUnfinished

inductive StreamEnding
  | shuttingDown
  | cancelledBeforeStart
  | exited (exitCode : Int) (writerError : Bool)
  | stopped (stop : Stop) (exitCode : Int)
  | stopTimedOut
  | notFound (error : Text)
  | osError (error : Text)

/-- The emissions in the order in which the reader threads make them, however
they cut and interleave the output, and the bytes that went to a file. -/
structure Streamed where
  emissions : List (Channel × Text)
  bytesWritten : Nat
  ending : StreamEnding

/-- What the streaming calls differ in. -/
structure StreamCall where
  streamName : Text
  streamError : Text
  classifiesStdout : Bool
  stdoutText : Text → Nat → Bool → Text

def runStreaming : StreamCall := ⟨[], [], true, fun emitted _ _ => emitted⟩

def runWithInputStream : StreamCall :=
  ⟨"Input stream".toList, "input_error".toList, true, fun emitted _ _ => emitted⟩

def runBinaryOutputToFile : StreamCall :=
  ⟨"Output stream".toList, "output_error".toList, false, fun _ written _ =>
    if written = 0 then []
    else "[binary stdout written: ".toList ++ (Nat.repr written).toList ++ " bytes]".toList⟩

def runBinaryOutputWithWriter : StreamCall :=
  ⟨"Output stream".toList, "output_error".toList, false, fun _ _ success =>
    if success then "[binary stdout streamed]".toList else []⟩

def stopTexts (call : StreamCall) : Stop → Text × Text
  | .cancelled => ("Cancelled by user".toList, "cancelled".toList)
  | .timedOut timeout =>
    ("Timed out after ".toList ++ timeout ++ " seconds".toList, "timeout".toList)
  | .streamFailed => (call.streamName ++ " failed".toList, call.streamError)
  | .streamUnfinished => (call.streamName ++ " did not finish".toList, call.streamError)

/-- The result before `_finalize_result` has touched it. -/
def rawResult (command : List Text) (times : Times) (exitCode : Option Int) (stdout stderr : Text)
    (success : Bool) (texts : Text × Text) : CommandResult where
  exitCode := exitCode
  stdout := stdout
  stderr := stderr
  success := success
  status := texts.1
  errorType := texts.2
  command := command
  times := times
  deviceSerial := []
  deviceGeneration := none
  logsFolder := []
  logWarning := []

def shutdownBeforeStart (command : List Text) (times : Times) : CommandResult :=
  rawResult command times none [] [] false
    ("Command runner is shutting down".toList, "shutdown".toList)

def cancelledBeforeStart (command : List Text) (times : Times) : CommandResult :=
  rawResult command times none [] [] false ("Cancelled before execution".toList, "cancelled".toList)

def notFoundTexts : Text × Text := ("Executable not found".toList, "not_found".toList)

def osErrorTexts : Text × Text := ("Operating system error".toList, "os_error".toList)

def runResult (r : CommandRunner) (command : List Text) (times : Times) : Ending → CommandResult
  | .shuttingDown => shutdownBeforeStart command times
  | .exited stdout stderr exitCode =>
    let texts := if exitCode = 0 then ("Success".toList, [])
      else classifyError r.lower (if stderr = [] then stdout else stderr) exitCode
    rawResult command times (some exitCode) stdout stderr (exitCode = 0 && texts.2 = []) texts
  | .notFound error => rawResult command times none [] error false notFoundTexts
  | .osError error => rawResult command times none [] error false osErrorTexts
  | .timedOut timeout stdout stderr =>
    rawResult command times none stdout stderr false
      ("Timed out after ".toList ++ timeout ++ " seconds".toList, "timeout".toList)

/-- The emissions of a call with those of its exception handlers. -/
def emissions (run : Streamed) : List (Channel × Text) :=
  match run.ending with
  | .shuttingDown | .cancelledBeforeStart => []
  | .notFound error | .osError error => run.emissions ++ [(.stderr, error ++ ['\n'])]
  | _ => run.emissions

/-- `emit`. -/
def emitted (r : CommandRunner) (run : Streamed) : List (Channel × Text) :=
  ((emissions run).filter (·.2 ≠ [])).map (fun e => (e.1, redactRuntimeText r e.2))

def parts (channel : Channel) (emitted : List (Channel × Text)) : Text :=
  (emitted.filter (·.1 = channel)).flatMap Prod.snd

def streamResult (r : CommandRunner) (call : StreamCall) (command : List Text) (times : Times)
    (run : Streamed) : CommandResult :=
  let stdout := parts .stdout (emitted r run)
  let stderr := parts .stderr (emitted r run)
  let finish := fun (exitCode : Option Int) (success : Bool) (texts : Text × Text) =>
    rawResult command times exitCode (call.stdoutText stdout run.bytesWritten success) stderr
      success texts
  match run.ending with
  | .shuttingDown => shutdownBeforeStart command times
  | .cancelledBeforeStart => cancelledBeforeStart command times
  | .exited exitCode writerError =>
    let texts := if exitCode = 0 && !writerError then ("Success".toList, [])
      else classifyError r.lower (if call.classifiesStdout && stderr = [] then stdout else stderr)
        exitCode
    finish (some exitCode) (exitCode = 0 && !writerError && texts.2 = []) texts
  | .stopped stop exitCode => finish (some exitCode) false (stopTexts call stop)
  | .stopTimedOut => finish none false ("Timed out while stopping process".toList, "timeout".toList)
  | .notFound _ => finish none false notFoundTexts
  | .osError _ => finish none false osErrorTexts

inductive Call
  | run (ending : Ending)
  | stream (call : StreamCall) (run : Streamed)

/-- The report of a call. -/
def Call.report (r : CommandRunner) (command : List Text) (context : Option DeviceContext)
    (times : Times) (fault : Option LogFault) : Call → Report
  | .run ending => finalizeResult r context fault [] (runResult r command times ending)
  | .stream call streamed =>
    finalizeResult r context fault ((emitted r streamed).map Prod.snd)
      (streamResult r call command times streamed)

/-- The character is no letter or digit and neither '-' nor '_', as far as ASCII goes. -/
def separator (c : Char) : Bool :=
  c.toNat < 128 && !c.isAlphanum && c != '-' && c != '_'

def redactionLabels : List Text :=
  ["[private]", "[REDACTED]", "[AUTHENTICATED URL REDACTED]", "[QR PAIRING PAYLOAD REDACTED]"].map
    String.toList

/-- A word that no redaction label holds. -/
structure Sensitive (value : Text) : Prop where
  nonempty : value ≠ []
  word : ∀ c ∈ value, separator c = false
  unlabelled : ∀ label ∈ redactionLabels, ¬ value <:+: label

/-- The texts of a result that are made of what the call was given or has read. -/
structure Free (value : Text) (result : CommandResult) : Prop where
  command : ∀ part ∈ result.command, ¬ value <:+: part
  stdout : ¬ value <:+: result.stdout
  stderr : ¬ value <:+: result.stderr
  status : ¬ value <:+: result.status

variable {r : CommandRunner} {value : Text}

/-- The patterns put the value nowhere where it is not. -/
def Harmless (r : CommandRunner) (value : Text) : Prop :=
  ∀ text, ¬ value <:+: text → ¬ value <:+: r.redactSensitiveText text

theorem Sensitive.label (h : Sensitive value) {label : Text} (hlabel : label ∈ redactionLabels) :
    Label value label := by
  refine ⟨?_, h.unlabelled label hlabel⟩
  have hopen : '[' ∉ value := fun hc => absurd (h.word _ hc) (by decide)
  have hclose : ']' ∉ value := fun hc => absurd (h.word _ hc) (by decide)
  refine ⟨'[', (label.drop 1).dropLast, ']', ?_, hopen, hclose⟩
  have hall : ∀ l ∈ redactionLabels, l = '[' :: (l.drop 1).dropLast ++ [']'] := by decide
  exact hall label hlabel

theorem mem_scopedSensitiveValues :
    value ∈ scopedSensitiveValues r ↔ ∃ scope ∈ r.stack, value ∈ scope.sensitiveValues := by
  rw [scopedSensitiveValues, List.mem_mergeSort, r.mem_setOrder, List.mem_flatMap]

/-- An inner scope adds its values to those of the scopes around it. -/
theorem mem_scopedLogCommand (displayCommand sensitiveValues : List Text) :
    value ∈ scopedSensitiveValues (scopedLogCommand r displayCommand sensitiveValues) ↔
      value ∈ scopedSensitiveValues r ∨ value ∈ sensitiveValues ∧ value ≠ [] := by
  simp only [mem_scopedSensitiveValues, scopedLogCommand, List.mem_append, List.mem_singleton,
    or_and_right, exists_or, exists_eq_left, List.mem_filter, decide_eq_true_eq]

theorem scope_runner : r.runner.scope.getD [] = scopedSensitiveValues r := by
  cases hstack : r.stack with
  | nil =>
    have hnone : ∀ v, v ∉ scopedSensitiveValues r := by
      intro v hv
      obtain ⟨scope, hscope, -⟩ := mem_scopedSensitiveValues.mp hv
      rw [hstack] at hscope
      cases hscope
    rw [List.eq_nil_iff_forall_not_mem.mpr hnone]
    simp [CommandRunner.runner, hstack]
  | cons scope stack => simp [CommandRunner.runner, hstack]

/-- A runtime text has lost every value, or never had it. -/
theorem not_infix_redactRuntimeText (hsensitive : Sensitive value) (hharmless : Harmless r value)
    (hvalue : value ∈ scopedSensitiveValues r) (text : Text) :
    ¬ value <:+: redactRuntimeText r text := by
  rw [redactRuntimeText, Results.redactRuntimeText, scope_runner]
  have hlabel : Label value "[private]".toList := hsensitive.label (by decide)
  exact hharmless _ (not_infix_foldl_replaceText hlabel hsensitive.nonempty text (.inl hvalue))

theorem not_infix_redactCommandArguments (hsensitive : Sensitive value)
    (hharmless : Harmless r value) {command : List Text}
    (h : ∀ part ∈ command, ¬ value <:+: part) :
    ∀ part ∈ redactCommandArguments r command, ¬ value <:+: part := by
  have hsanitized : ∀ part ∈ command.map r.redactSensitiveText, ¬ value <:+: part := by
    intro part hpart
    obtain ⟨original, horiginal, rfl⟩ := List.mem_map.mp hpart
    exact hharmless original (h original horiginal)
  intro part hpart
  simp only [redactCommandArguments] at hpart
  split at hpart
  · split at hpart
    · split at hpart
      · obtain ⟨candidate, hlt, rfl⟩ := List.mem_mapIdx.mp hpart
        split
        · exact hsensitive.unlabelled _ (by decide)
        · exact hsanitized _ (List.getElem_mem _)
      · exact hsanitized part hpart
    · exact hsanitized part hpart
  · exact hsanitized part hpart

/-- In an open scope a finished result is free of every value, whatever it was made of. -/
theorem free_applyScopedLogCommand (hsensitive : Sensitive value) (hharmless : Harmless r value)
    (hvalue : value ∈ scopedSensitiveValues r) (raw : CommandResult) :
    Free value (applyScopedLogCommand r raw) := by
  have hruntime := not_infix_redactRuntimeText hsensitive hharmless hvalue
  obtain ⟨scope, hscope, -⟩ := mem_scopedSensitiveValues.mp hvalue
  have hne : r.stack ≠ [] := List.ne_nil_of_mem hscope
  have hlast : r.stack.getLast? = some (r.stack.getLast hne) := List.getLast?_eq_some_getLast hne
  have hopen : r.runner.scope.isNone = false := by simp [CommandRunner.runner, hne]
  simp only [applyScopedLogCommand, hlast, Results.applyScopedLogCommand, hopen, Bool.false_eq_true,
    if_false]
  constructor
  · intro part hpart
    obtain ⟨display, -, rfl⟩ := List.mem_map.mp hpart
    exact hruntime display
  · exact hruntime raw.stdout
  · exact hruntime raw.stderr
  · exact hruntime raw.status

theorem free_sanitizedResultCopy (hsensitive : Sensitive value) (hharmless : Harmless r value)
    {result : CommandResult} (h : Free value result) : Free value (sanitizedResultCopy r result) :=
  ⟨not_infix_redactCommandArguments hsensitive hharmless h.command, hharmless _ h.stdout,
    hharmless _ h.stderr, hharmless _ h.status⟩

theorem clean_joined (separator : Text) (hne : separator ≠ []) (hword : value ≠ [])
    {items : List Marked} (h : ∀ item ∈ items, Clean value item) :
    Clean value (joined separator items) := by
  induction items with
  | nil => exact clean_nil hword
  | cons item items ih =>
    obtain ⟨hitem, hitems⟩ := List.forall_mem_cons.mp h
    cases items with
    | nil => exact hitem
    | cons next items => exact clean_append_own hitem (ih hitems) hword hne

theorem clean_formatPart {u : UnicodeData} (hword : value ≠ []) {part : Text}
    (h : ¬ value <:+: part) : Clean value (formatPart u part) := by
  rw [formatPart]
  split
  · exact clean_own hword _
  · split
    · refine clean_own_append hword _ ?_
      have hquoted := clean_flatMap hword (f := fun m =>
        if m.char = '"' then own "\\\"".toList else [m]) ?_ (clean_carried h)
      · exact clean_before_own hquoted hword _
      · intro m
        by_cases hm : m.char = '"'
        · exact .inr ⟨"\\\"".toList, by decide, if_pos hm⟩
        · exact .inl (if_neg hm)
    · exact clean_carried h

theorem clean_formatCommand {u : UnicodeData} (hword : value ≠ []) {command : List Text}
    (h : ∀ part ∈ command, ¬ value <:+: part) : Clean value (formatCommand u command) := by
  refine clean_joined _ (by decide) hword ?_
  intro item hitem
  obtain ⟨part, hpart, rfl⟩ := List.mem_map.mp hitem
  exact clean_formatPart hword (h part hpart)

theorem clean_captured {u : UnicodeData} (hword : value ≠ []) (label : Text) {text : Text}
    (h : ¬ value <:+: text) {rest : Marked} (hrest : Clean value rest) :
    Clean value (captured u label text ++ rest) := by
  rw [captured]
  split
  · exact hrest
  · have hstrip : ¬ value <:+: rstrip u text := fun hin =>
      h (hin.trans (List.rdropWhile_prefix _ text).isInfix)
    rw [List.append_assoc, List.append_assoc]
    exact clean_own_append hword _ (clean_append_own (clean_carried hstrip) hrest hword (by decide))

/-- The text log holds no value but with characters of its own. -/
theorem clean_textEntry {u : UnicodeData} (hword : value ≠ []) {result : CommandResult}
    (h : Free value result) : Clean value (textEntry u result) := by
  refine clean_own_append hword _ ?_
  refine clean_append_own (clean_formatCommand hword h.command) ?_ hword (by decide)
  refine clean_captured hword _ h.stdout ?_
  refine clean_captured hword _ h.stderr ?_
  exact clean_own_append hword _ (clean_before_own (clean_carried h.status) hword _)

theorem jsonEscape_ne_nil {c : Char} {escape : Text} (h : jsonEscape c = some escape) :
    escape ≠ [] := by
  unfold jsonEscape at h
  split_ifs at h <;> cases h <;> simp

theorem clean_jsonString (hword : value ≠ []) {s : Marked} (h : Clean value s) :
    Clean value (jsonString s) := by
  refine clean_own_append hword _ (clean_before_own (clean_flatMap hword ?_ h) hword _)
  intro m
  cases hescape : jsonEscape m.char with
  | some escape => exact .inr ⟨escape, jsonEscape_ne_nil hescape, rfl⟩
  | none => exact .inl rfl

theorem clean_jsonArray (hword : value ≠ []) {items : List Marked}
    (h : ∀ item ∈ items, Clean value item) : Clean value (jsonArray items) := by
  refine clean_own_append hword _ ?_
  exact clean_before_own (clean_joined ", ".toList (by decide) hword h) hword _

theorem clean_jsonObject (hword : value ≠ []) {members : List (Text × Marked)}
    (h : ∀ member ∈ members, Clean value member.2) : Clean value (jsonObject members) := by
  refine clean_own_append hword _ ?_
  refine clean_before_own (clean_joined ", ".toList (by decide) hword ?_) hword _
  intro item hitem
  obtain ⟨member, hmember, rfl⟩ := List.mem_map.mp hitem
  exact clean_append_own (clean_jsonString hword (clean_own hword _)) (h member hmember) hword
    (by decide)

theorem clean_toDict {u : UnicodeData} (hword : value ≠ []) {result : CommandResult}
    (h : Free value result) : ∀ member ∈ toDict u result, Clean value member.2 := by
  have hown : ∀ s : Text, Clean value (own s) := clean_own hword
  have hint : ∀ n, Clean value (jsonInt n) := by
    intro n
    cases n with
    | none => exact hown _
    | some n => exact hown _
  have htext : ∀ {s : Text}, ¬ value <:+: s → Clean value (jsonString (carried s)) :=
    fun hs => clean_jsonString hword (clean_carried hs)
  have hquoted : ∀ s : Text, Clean value (jsonString (own s)) :=
    fun s => clean_jsonString hword (hown s)
  have hcommand : Clean value (jsonArray (result.command.map (fun part => jsonString (carried part)))) := by
    refine clean_jsonArray hword ?_
    intro item hitem
    obtain ⟨part, hpart, rfl⟩ := List.mem_map.mp hitem
    exact htext (h.command part hpart)
  have hline := clean_jsonString hword (clean_formatCommand (u := u) hword h.command)
  simp only [toDict, List.forall_mem_cons, List.not_mem_nil, false_implies, implies_true, and_true]
  exact ⟨hcommand, hline, hint _, htext h.stdout, htext h.stderr, hown _, hquoted _, hquoted _,
    hown _, htext h.status, hquoted _, hquoted _, hint _, hquoted _, hquoted _⟩

/-- The JSONL log holds no value but with characters of its own. -/
theorem clean_jsonlEntry {u : UnicodeData} (hword : value ≠ []) {result : CommandResult}
    (h : Free value result) : Clean value (jsonlEntry u result) :=
  clean_before_own (clean_jsonObject hword (clean_toDict hword h)) hword _

/-- What the code promises about a value: no carried text holds it. -/
structure Scrubbed (value : Text) (report : Report) : Prop where
  callbacks : ∀ text ∈ report.callbacks, ¬ value <:+: text
  result : Free value report.result
  listeners : Free value report.listeners
  textLog : Clean value report.textLog
  jsonlLog : Clean value report.jsonlLog

theorem scrubbed_finalizeResult (hsensitive : Sensitive value) (hharmless : Harmless r value)
    (hvalue : value ∈ scopedSensitiveValues r) (context : Option DeviceContext)
    (fault : Option LogFault) {callbacks : List Text}
    (hcallbacks : ∀ text ∈ callbacks, ¬ value <:+: text) (raw : CommandResult) :
    Scrubbed value (finalizeResult r context fault callbacks raw) := by
  have hscoped := free_applyScopedLogCommand hsensitive hharmless hvalue raw
  have hcommand := not_infix_redactCommandArguments hsensitive hharmless hscoped.command
  have hresult : Free value (inContext context { applyScopedLogCommand r raw with
      command := redactCommandArguments r (applyScopedLogCommand r raw).command }) := by
    cases context with
    | none => exact ⟨hcommand, hscoped.stdout, hscoped.stderr, hscoped.status⟩
    | some c => exact ⟨hcommand, hscoped.stdout, hscoped.stderr, hscoped.status⟩
  have hsafe := free_sanitizedResultCopy hsensitive hharmless hresult
  have htext := clean_textEntry (u := r.unicode) hsensitive.nonempty hsafe
  have hjsonl := clean_jsonlEntry (u := r.unicode) hsensitive.nonempty hsafe
  cases fault with
  | none => exact ⟨hcallbacks, hresult, hsafe, htext, hjsonl⟩
  | some f =>
    refine ⟨hcallbacks, ⟨hresult.command, hresult.stdout, hresult.stderr, hresult.status⟩,
      ⟨hsafe.command, hsafe.stdout, hsafe.stderr, hsafe.status⟩, ?_, ?_⟩
    · exact clean_of_infix htext (List.take_prefix _ _).isInfix
    · exact clean_of_infix hjsonl (List.take_prefix _ _).isInfix

/-- No value of an open scope leaves the process in a text that the runner was
given or has read, however the call ends. -/
theorem report_scrubbed (r : CommandRunner)
    (hsensitive : ∀ v ∈ scopedSensitiveValues r, Sensitive v)
    (hharmless : ∀ v ∈ scopedSensitiveValues r, Harmless r v) (command : List Text)
    (context : Option DeviceContext) (times : Times) (fault : Option LogFault) (call : Call) :
    ∀ v ∈ scopedSensitiveValues r, Scrubbed v (call.report r command context times fault) := by
  intro v hv
  cases call with
  | run ending =>
    exact scrubbed_finalizeResult (hsensitive v hv) (hharmless v hv) hv context fault (by simp) _
  | stream call streamed =>
    refine scrubbed_finalizeResult (hsensitive v hv) (hharmless v hv) hv context fault ?_ _
    intro text htext
    obtain ⟨e, he, rfl⟩ := List.mem_map.mp htext
    obtain ⟨raw, -, rfl⟩ := List.mem_map.mp he
    exact not_infix_redactRuntimeText (hsensitive v hv) (hharmless v hv) hv raw.2

/-- A runner whose patterns find nothing, in one scope with one value. -/
def scopedRunner (value : Text) : CommandRunner where
  unicode := UnicodeData.ascii
  lower := id
  redactSensitiveText := id
  setOrder := id
  mem_setOrder := fun _ _ => Iff.rfl
  stack := [⟨["adb".toList, "pair".toList], [value]⟩]
  logsFolder := []

theorem eq_of_mem_scopedRunner {v : Text} (h : v ∈ scopedSensitiveValues (scopedRunner value)) :
    v = value := by
  obtain ⟨scope, hscope, hv⟩ := mem_scopedSensitiveValues.mp h
  rw [List.mem_singleton.mp hscope] at hv
  exact List.mem_singleton.mp hv

theorem mem_scopedRunner : value ∈ scopedSensitiveValues (scopedRunner value) :=
  mem_scopedSensitiveValues.mpr ⟨_, List.mem_singleton.mpr rfl, List.mem_singleton.mpr rfl⟩

def noon : Times := ⟨"12:00:00".toList, "12:00:01".toList, "1.0".toList, "1.00".toList⟩

/-- The child echoes the value twice in a line. -/
def echoed : Streamed :=
  ⟨[(.stdout, "k7-k7k7-k7\n".toList)], 0, .exited 0 false⟩

theorem report_scrubbed_echoed : Scrubbed "k7-k7".toList
    ((Call.stream runStreaming echoed).report (scopedRunner "k7-k7".toList) ["adb".toList] none noon
      none) := by
  refine report_scrubbed _ ?_ ?_ _ _ _ _ _ _ mem_scopedRunner
  · intro v hv
    rw [eq_of_mem_scopedRunner hv]
    exact ⟨by decide, List.all_iff_forall_prop.mp (by decide +kernel), by decide +kernel⟩
  · intro v _ text h
    exact h

/-- Every text of a result. -/
structure AllFree (value : Text) (result : CommandResult) : Prop extends Free value result where
  errorType : ¬ value <:+: result.errorType
  deviceSerial : ¬ value <:+: result.deviceSerial
  logsFolder : ¬ value <:+: result.logsFolder
  logWarning : ¬ value <:+: result.logWarning

/-- The value occurs in no text at all, not even in one of the runner's own. -/
structure Hidden (value : Text) (report : Report) : Prop where
  callbacks : ∀ text ∈ report.callbacks, ¬ value <:+: text
  result : AllFree value report.result
  listeners : AllFree value report.listeners
  textLog : ¬ value <:+: erase report.textLog
  jsonlLog : ¬ value <:+: erase report.jsonlLog

/-- The fixed words of the runner are not scrubbed. -/
theorem not_report_hidden :
    ¬ ∀ r : CommandRunner, (∀ v ∈ scopedSensitiveValues r, Sensitive v) →
      (∀ v ∈ scopedSensitiveValues r, Harmless r v) →
      ∀ command context times fault call, ∀ v ∈ scopedSensitiveValues r,
        Hidden v (Call.report r command context times fault call) := by
  intro h
  have htimeout := h (scopedRunner "timeout".toList) ?_ ?_ ["adb".toList] none noon none
    (.run (.timedOut "120".toList [] [])) "timeout".toList mem_scopedRunner
  · have htype : ((Call.run (.timedOut "120".toList [] [])).report (scopedRunner "timeout".toList)
        ["adb".toList] none noon none).result.errorType = "timeout".toList := rfl
    have hfree := htimeout.result.errorType
    rw [htype] at hfree
    exact hfree (List.infix_refl _)
  · intro v hv
    rw [eq_of_mem_scopedRunner hv]
    exact ⟨by decide, List.all_iff_forall_prop.mp (by decide +kernel), by decide +kernel⟩
  · intro v _ text h
    exact h

end OpenAdb.Commands.Scopes
