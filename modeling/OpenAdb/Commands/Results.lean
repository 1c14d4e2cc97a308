import OpenAdb.Lib.PyText
import Mathlib.Data.List.Infix

namespace OpenAdb.Commands.Results

open OpenAdb.Lib.PyText

structure CommandResult where
  exitCode : Option Int
  stdout : Text
  stderr : Text
  success : Bool
  status : Text
  errorType : Text
  deriving DecidableEq

/-- What a call finds in its runner: the patterns that redact a text, and the
sensitive values of the open scopes, if any scope is open. -/
structure Runner where
  unicode : UnicodeData
  lower : Text → Text
  redactSensitiveText : Text → Text
  scope : Option (List Text)

def redactRuntimeText (r : Runner) (text : Text) : Text :=
  r.redactSensitiveText
    ((r.scope.getD []).foldl (fun t value => replaceText value "[private]".toList t) text)

def applyScopedLogCommand (r : Runner) (result : CommandResult) : CommandResult :=
  if r.scope.isNone then result
  else { result with
    stdout := redactRuntimeText r result.stdout
    stderr := redactRuntimeText r result.stderr
    status := redactRuntimeText r result.status }

def contains (part text : Text) : Bool := decide (part <:+: text)

def formatInt (n : Int) : Text := n.repr.toList

/-- The status and the error type of a failed command. -/
def classifyError (lower : Text → Text) (text : Text) (exitCode : Int) : Text × Text :=
  let lowered := lower text
  if contains "no devices/emulators found".toList lowered ||
      contains "device not found".toList lowered then
    ("No Android device detected".toList, "no_device".toList)
  else if contains "unauthorized".toList lowered then
    ("ADB unauthorized. Confirm RSA fingerprint on your phone.".toList, "unauthorized".toList)
  else if contains "offline".toList lowered then
    ("Device is offline".toList, "offline".toList)
  else if contains "more than one device".toList lowered then
    ("Multiple devices detected. Choose an active device.".toList, "multiple_devices".toList)
  else if contains "permission denied".toList lowered then
    ("Permission denied by Android".toList, "permission_denied".toList)
  else if contains "not found".toList lowered &&
      (contains "adb".toList lowered || contains "fastboot".toList lowered) then
    ("Platform Tools executable not found".toList, "not_found".toList)
  else ("Command failed with exit code ".toList ++ formatInt exitCode, "command_failed".toList)

/-- A child that ends by itself: what it writes, decoded, and its exit code. -/
structure Child where
  stdout : Text
  stderr : Text
  exitCode : Int

def outcome (r : Runner) (stdout stderr : Text) (exitCode : Int) : CommandResult :=
  let classified := if exitCode = 0 then ("Success".toList, [])
    else classifyError r.lower (if stderr = [] then stdout else stderr) exitCode
  applyScopedLogCommand r
    { exitCode := some exitCode
      stdout := stdout
      stderr := stderr
      success := exitCode = 0 && classified.2 = []
      status := classified.1
      errorType := classified.2 }

def run (r : Runner) (child : Child) : CommandResult :=
  outcome r (translateNewlines child.stdout) (translateNewlines child.stderr) child.exitCode

/-- What one line of a stream adds to its parts. -/
def emitLine (r : Runner) (buffer : Text) : List Text :=
  let text := strip r.unicode buffer
  if text = [] then [] else [redactRuntimeText r (text ++ ['\n'])]

def reader (r : Runner) : Text → Text → List Text
  | buffer, [] => emitLine r buffer
  | buffer, ch :: stream =>
    if ch = '\r' ∨ ch = '\n' then emitLine r buffer ++ reader r [] stream
    else reader r (buffer ++ [ch]) stream

def runStreaming (r : Runner) (child : Child) : CommandResult :=
  outcome r (reader r [] (translateNewlines child.stdout)).flatten
    (reader r [] (translateNewlines child.stderr)).flatten child.exitCode

/-- Whole lines without blanks around them, none of which the redactor changes. -/
def Tidy (r : Runner) (text : Text) : Prop :=
  ∃ lines, text = unlines lines ∧
    ∀ line ∈ lines, line ≠ [] ∧ '\n' ∉ line ∧ strip r.unicode line = line ∧
      redactRuntimeText r (line ++ ['\n']) = line ++ ['\n']

/-- The redactor turns a trimmed line into a trimmed line. -/
def KeepsLines (r : Runner) : Prop :=
  ∀ line : Text, line ≠ [] → '\n' ∉ line → strip r.unicode line = line →
    ∃ redacted : Text, redacted ≠ [] ∧ '\n' ∉ redacted ∧ strip r.unicode redacted = redacted ∧
      r.redactSensitiveText (line ++ ['\n']) = redacted ++ ['\n']

theorem not_mem_translateNewlines (s : Text) : '\r' ∉ translateNewlines s := by
  induction s using translateNewlines.induct with
  | case1 => simp [translateNewlines]
  | case2 rest ih => simpa [translateNewlines] using ih
  | case3 rest hne ih => simpa [translateNewlines] using ih
  | case4 c rest hcrlf hcr ih =>
    have hc : '\r' ≠ c := fun h => hcr h.symm
    simpa [translateNewlines, hc] using ih

variable {r : Runner}

theorem reader_line {line : Text} (h : ∀ c ∈ line, c ≠ '\r' ∧ c ≠ '\n') (buffer stream : Text) :
    reader r buffer (line ++ stream) = reader r (buffer ++ line) stream := by
  induction line generalizing buffer with
  | nil => simp
  | cons c line ih =>
    have hc : ¬(c = '\r' ∨ c = '\n') := by
      have := h c List.mem_cons_self
      tauto
    rw [List.cons_append, reader, if_neg hc, ih (fun d hd => h d (List.mem_cons_of_mem c hd)),
      List.append_assoc, List.singleton_append]

theorem reader_unlines {lines : List Text} {rest : Text} (hr : '\r' ∉ unlines lines ++ rest)
    (hlines : ∀ line ∈ lines, '\n' ∉ line) (hrest : '\n' ∉ rest) :
    reader r [] (unlines lines ++ rest) = lines.flatMap (emitLine r) ++ emitLine r rest := by
  induction lines with
  | nil =>
    have hplain : ∀ c ∈ rest, c ≠ '\r' ∧ c ≠ '\n' := by
      intro c hc
      constructor
      · rintro rfl
        exact hr (by simp [hc])
      · rintro rfl
        exact hrest hc
    have hread := reader_line (r := r) hplain [] []
    rw [List.append_nil] at hread
    simp [unlines, hread, reader]
  | cons line lines ih =>
    have hcons : unlines (line :: lines) ++ rest = line ++ '\n' :: (unlines lines ++ rest) := by
      simp [unlines]
    rw [hcons] at hr ⊢
    have hplain : ∀ c ∈ line, c ≠ '\r' ∧ c ≠ '\n' := by
      intro c hc
      constructor
      · rintro rfl
        exact hr (List.mem_append_left _ hc)
      · rintro rfl
        exact hlines line List.mem_cons_self hc
    have hrest' : '\r' ∉ unlines lines ++ rest := fun h =>
      hr (List.mem_append_right _ (List.mem_cons_of_mem _ h))
    rw [reader_line hplain, reader, if_pos (.inr rfl), List.nil_append,
      ih hrest' (fun l hl => hlines l (List.mem_cons_of_mem line hl)), List.flatMap_cons,
      List.append_assoc]

theorem emitLine_tidy {line : Text} (hne : line ≠ []) (hstrip : strip r.unicode line = line)
    (hredact : redactRuntimeText r (line ++ ['\n']) = line ++ ['\n']) :
    emitLine r line = [line ++ ['\n']] := by
  simp [emitLine, hstrip, hne, hredact]

/-- A tidy text comes out of the reader as it is. -/
theorem reader_tidy {text : Text} (hr : '\r' ∉ text) (h : Tidy r text) :
    (reader r [] text).flatten = text := by
  obtain ⟨lines, rfl, hlines⟩ := h
  have hread : reader r [] (unlines lines ++ []) = lines.flatMap (emitLine r) ++ emitLine r [] :=
    reader_unlines (by simpa using hr) (fun line hline => (hlines line hline).2.1) (by simp)
  rw [List.append_nil] at hread
  have hempty : emitLine r [] = [] := by simp [emitLine, strip]
  rw [hread, hempty, List.append_nil]
  clear hread hr
  induction lines with
  | nil => rfl
  | cons line lines ih =>
    obtain ⟨⟨hne, -, hstrip, hredact⟩, hrest⟩ := List.forall_mem_cons.mp hlines
    rw [List.flatMap_cons, emitLine_tidy hne hstrip hredact, List.flatten_append, ih hrest]
    simp [unlines]

theorem redactRuntimeText_unscoped (hscope : r.scope = none) (text : Text) :
    redactRuntimeText r text = r.redactSensitiveText text := by
  rw [redactRuntimeText, hscope]
  rfl

/-- Without open scopes, only a tidy text comes out of the reader as it is. -/
theorem tidy_of_reader (hscope : r.scope = none) (hkeep : KeepsLines r) {text : Text}
    (hr : '\r' ∉ text) (h : (reader r [] text).flatten = text) : Tidy r text := by
  obtain ⟨lines, rest, rfl, hlines, hrest⟩ := exists_unlines text
  rw [reader_unlines hr hlines hrest] at h
  choose! f hne hplain htrim hredact using hkeep
  let emitted : Text → Option Text := fun line =>
    if strip r.unicode line = [] then none else some (f (strip r.unicode line))
  have htidy : ∀ line : Text, '\n' ∉ line → strip r.unicode line ≠ [] → f (strip r.unicode line) ≠ [] ∧
      '\n' ∉ f (strip r.unicode line) ∧
      strip r.unicode (f (strip r.unicode line)) = f (strip r.unicode line) ∧
      r.redactSensitiveText (strip r.unicode line ++ ['\n']) = f (strip r.unicode line) ++ ['\n'] := by
    intro line hline hblank
    have hsub : '\n' ∉ strip r.unicode line := fun hc => hline ((strip_sublist _ _).subset hc)
    have hstrip := strip_strip r.unicode line
    exact ⟨hne _ hblank hsub hstrip, hplain _ hblank hsub hstrip, htrim _ hblank hsub hstrip,
      hredact _ hblank hsub hstrip⟩
  have hall : ∀ line ∈ lines ++ [rest], '\n' ∉ line := by
    simpa [or_imp, forall_and] using ⟨hlines, hrest⟩
  have hemit : ∀ ls : List Text, (∀ line ∈ ls, '\n' ∉ line) →
      (ls.flatMap (emitLine r)).flatten = unlines (ls.filterMap emitted) := by
    intro ls hls
    induction ls with
    | nil => rfl
    | cons line ls ih =>
      obtain ⟨hline, hls⟩ := List.forall_mem_cons.mp hls
      rw [List.flatMap_cons, List.flatten_append, ih hls]
      by_cases hblank : strip r.unicode line = []
      · simp [emitLine, emitted, hblank]
      · have hsome := (htidy line hline hblank).2.2.2
        simp [emitLine, emitted, hblank, redactRuntimeText_unscoped hscope, hsome, unlines]
  have hmem : ∀ m ∈ (lines ++ [rest]).filterMap emitted,
      m ≠ [] ∧ '\n' ∉ m ∧ strip r.unicode m = m := by
    intro m hm
    obtain ⟨line, hline, hm⟩ := List.mem_filterMap.mp hm
    by_cases hblank : strip r.unicode line = []
    · simp [emitted, hblank] at hm
    · obtain rfl : f (strip r.unicode line) = m := by simpa [emitted, hblank] using hm
      have := htidy line (hall line hline) hblank
      exact ⟨this.1, this.2.1, this.2.2.1⟩
  have hunlines : unlines ((lines ++ [rest]).filterMap emitted) = unlines lines ++ rest := by
    rw [← hemit _ hall, ← h]
    simp
  obtain ⟨heq, rfl⟩ := unlines_inj (fun m hm => (hmem m hm).2.1) hlines hrest hunlines
  have hlast : emitted [] = none := by simp [emitted, strip]
  rw [List.filterMap_append, List.filterMap_cons_none hlast, List.filterMap_nil,
    List.append_nil] at heq
  have htrimmed : ∀ line ∈ lines, line ≠ [] ∧ '\n' ∉ line ∧ strip r.unicode line = line := by
    intro line hline
    rw [← heq] at hline
    exact hmem line (by
      rw [List.filterMap_append]
      exact List.mem_append_left _ hline)
  have hmap : lines.map f = lines.map id := by
    rw [List.map_id]
    conv_rhs => rw [← heq]
    rw [← List.filterMap_eq_map]
    apply List.filterMap_congr
    intro line hline
    obtain ⟨hne, -, hstrip⟩ := htrimmed line hline
    simp [emitted, hstrip, hne]
  refine ⟨lines, by simp, ?_⟩
  intro line hline
  obtain ⟨hne, hnl, hstrip⟩ := htrimmed line hline
  have hfixed : f line = line := List.map_inj_left.mp hmap line hline
  have hsame := (htidy line hnl (by rwa [hstrip])).2.2.2
  rw [hstrip, hfixed] at hsame
  exact ⟨hne, hnl, hstrip, by rw [redactRuntimeText_unscoped hscope, hsame]⟩

theorem outcome_unscoped (hscope : r.scope = none) {stdout stderr stdout' stderr' : Text}
    {exitCode : Int} (h : outcome r stdout stderr exitCode = outcome r stdout' stderr' exitCode) :
    stdout = stdout' ∧ stderr = stderr' := by
  simp only [outcome, applyScopedLogCommand, hscope, Option.isNone_none, if_true,
    CommandResult.mk.injEq] at h
  exact ⟨h.2.1, h.2.2.1⟩

/-- The line reader gives the result of the plain call for tidy output, and
outside of every scope for no other output. -/
theorem runStreaming_eq_run (r : Runner) (child : Child) :
    (Tidy r (translateNewlines child.stdout) ∧ Tidy r (translateNewlines child.stderr) →
      runStreaming r child = run r child) ∧
    (r.scope = none → KeepsLines r → runStreaming r child = run r child →
      Tidy r (translateNewlines child.stdout) ∧ Tidy r (translateNewlines child.stderr)) := by
  have hout := not_mem_translateNewlines child.stdout
  have herr := not_mem_translateNewlines child.stderr
  constructor
  · intro h
    rw [runStreaming, run, reader_tidy hout h.1, reader_tidy herr h.2]
  · intro hscope hkeep h
    obtain ⟨hstdout, hstderr⟩ := outcome_unscoped hscope h
    exact ⟨tidy_of_reader hscope hkeep hout hstdout, tidy_of_reader hscope hkeep herr hstderr⟩

/-- A runner whose patterns find nothing to redact. -/
def plainRunner : Runner := ⟨UnicodeData.ascii, id, id, none⟩

theorem runStreaming_eq_run_plain : runStreaming plainRunner ⟨['o', 'k', '\n'], [], 0⟩ =
    run plainRunner ⟨['o', 'k', '\n'], [], 0⟩ :=
  (runStreaming_eq_run plainRunner ⟨['o', 'k', '\n'], [], 0⟩).1
    ⟨⟨[['o', 'k']], rfl, by decide⟩, ⟨[], rfl, by decide⟩⟩

/-- Indentation and blank lines are lost, and the last line gets an end. -/
theorem runStreaming_reformats :
    (run plainRunner ⟨[' ', 'a', '\n', '\n', 'b'], [], 0⟩).stdout = [' ', 'a', '\n', '\n', 'b'] ∧
      (runStreaming plainRunner ⟨[' ', 'a', '\n', '\n', 'b'], [], 0⟩).stdout =
        ['a', '\n', 'b', '\n'] := by
  decide +kernel

end OpenAdb.Commands.Results
