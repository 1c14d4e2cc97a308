import Mathlib.Algebra.Order.BigOperators.Group.List
import OpenAdb.Lib.Effects
import OpenAdb.Transfer.Progress

namespace OpenAdb.Transfer.Controller

open OpenAdb.Lib.PyText OpenAdb.Lib.Effects OpenAdb.Transfer.Progress
open OpenAdb.Transfer.Progress.TransferProgressTracker (Update)

variable (p : Python)

def planType : Text := ['p', 'l', 'a', 'n']
def fileStartType : Text := ['f', 'i', 'l', 'e', '_', 's', 't', 'a', 'r', 't']
def progressType : Text := ['p', 'r', 'o', 'g', 'r', 'e', 's', 's']
def heartbeatType : Text := ['h', 'e', 'a', 'r', 't', 'b', 'e', 'a', 't']
def fileDoneType : Text := ['f', 'i', 'l', 'e', '_', 'd', 'o', 'n', 'e']

def terminalEventTypes : List Text :=
  TransferProgressTracker.cancelledTypes ++ TransferProgressTracker.completeTypes ++
    TransferProgressTracker.failureTypes

/-- The sink without its downstream, which only shows the updates. -/
structure NormalizedProgressSink where
  tracker : TransferProgressTracker
  strategyTerminalSeen : Bool

def strategyTerminal (update : Update) : Bool :=
  decide (update.eventType p ∈ terminalEventTypes) || (update.cancelled.getD (.bool false)).truthy

def accountingUpdate (update : Update) : Update :=
  if strategyTerminal p update then
    { update with type := some (.str progressType), cancelled := none, success := none }
  else update

def NormalizedProgressSink.emit (sink : NormalizedProgressSink) (update : Update) (now : ℚ) :
    Except ValueError Unit × NormalizedProgressSink :=
  if (sink.tracker.snapshot p now).isTerminal || sink.strategyTerminalSeen then (.ok (), sink)
  else
    match sink.tracker.ingest p (accountingUpdate p update) now with
    | (tracker, .error e) => (.error e, { sink with tracker })
    | (tracker, .ok _) => (.ok (), ⟨tracker, strategyTerminal p update⟩)

/-- A `threading.Event` that nobody clears, and the clock, read at successive ticks. -/
structure World where
  isSet : Nat → Bool
  staysSet : ∀ n, isSet n = true → isSet (n + 1) = true
  clock : Nat → ℚ

inductive Raised
  | valueError (e : ValueError)
  | command
  | staleDeviceContext
  | fileTransferExecutionError

/-- `observed` tells whether some read of the cancel event has returned true. -/
structure State where
  sink : NormalizedProgressSink
  tick : Nat
  observed : Bool

variable (w : World)

def cancelIsSet : Effect Raised State Bool := fun s =>
  (.ok (w.isSet s.tick), { s with tick := s.tick + 1, observed := s.observed || w.isSet s.tick })

/-- The event is handed to other code, which reads it so often. -/
def cancelReads : Nat → Effect Raised State Unit
  | 0 => pure ()
  | n + 1 => do
    let _ ← cancelIsSet w
    cancelReads n

def emitTransfer (update : Update) : Effect Raised State Unit := fun s =>
  match s.sink.emit p update (w.clock s.tick) with
  | (.ok (), sink) => (.ok (), { s with sink, tick := s.tick + 1 })
  | (.error e, sink) => (.error (.valueError e), { s with sink, tick := s.tick + 1 })

/-- What the command of an entry does before it ends. `progress` comes from `on_output`. -/
inductive CommandStep
  | cancelRead
  | progress (currentBytes currentFiles : Nat) (currentFile : Option Text) (output : Text)
  | heartbeat (currentBytes currentFiles : Nat) (currentFile activity : Text)

structure CommandResult where
  success : Bool
  status : Text

structure TransferState where
  result : Option CommandResult
  observedBytes : Nat
  observedFiles : Nat

/-- `state` is `none` when the command raises. -/
structure CommandRun where
  steps : List CommandStep
  state : Option TransferState

/-- A planned entry with what its command will do. A size or a count that is not an
integer is `none`. -/
structure Entry where
  source : Text
  destination : Text
  size : Option Int
  count : Option Int
  run : CommandRun

def Entry.entrySize (e : Entry) : Nat := (e.size.getD 0).toNat

def Entry.positiveCount (e : Entry) : Nat := (e.count.getD 0).toNat

def Entry.entryCount (e : Entry) : Nat := if 0 < e.positiveCount then e.positiveCount else 1

def plannedBytes (entries : List Entry) : Nat := (entries.map Entry.entrySize).sum

def plannedFiles (entries : List Entry) : Nat :=
  let n := (entries.map Entry.positiveCount).sum
  if n = 0 then entries.length else n

/-- The texts that the strategy formats. -/
structure Texts where
  plan : List Entry → Nat → Nat → Text
  start : Entry → Text
  summary : Bool → Nat → Nat → Nat → List Text → Text

variable (texts : Texts)

def number (n : Nat) : Option PyObject := some (.index n)

def planUpdate (entries : List Entry) : Update where
  type := some (.str planType)
  totalFiles := number (plannedFiles entries)
  totalBytes := number (plannedBytes entries)
  message := some (.str (texts.plan entries (plannedFiles entries) (plannedBytes entries)))

def fileStartUpdate (e : Entry) : Update where
  type := some (.str fileStartType)
  currentFile := some (.str e.source)
  message := some (.str (texts.start e))

def progressUpdate (totalBytes totalFiles currentBytes currentFiles : Nat) (currentFile : Option Text)
    (output : Text) : Update where
  type := some (.str progressType)
  doneBytes := number currentBytes
  totalBytes := number totalBytes
  doneFiles := number currentFiles
  totalFiles := number totalFiles
  currentFile := currentFile.map .str
  output := some (.str output)

def heartbeatUpdate (totalBytes totalFiles currentBytes currentFiles : Nat) (currentFile activity : Text) :
    Update where
  type := some (.str heartbeatType)
  doneBytes := number currentBytes
  totalBytes := number (max totalBytes currentBytes)
  doneFiles := number currentFiles
  totalFiles := number (max totalFiles currentFiles)
  currentFile := some (.str currentFile)
  activity := some (.str activity)

def fileDoneUpdate (totalBytes totalFiles doneBytes doneFiles : Nat) (message : Text) : Update where
  type := some (.str fileDoneType)
  doneBytes := number doneBytes
  totalBytes := number (max totalBytes doneBytes)
  doneFiles := number doneFiles
  totalFiles := number (max totalFiles doneFiles)
  message := some (.str message)

def CommandStep.perform (totalBytes totalFiles : Nat) : CommandStep → Effect Raised State Unit
  | .cancelRead => cancelReads w 1
  | .progress currentBytes currentFiles currentFile output =>
    emitTransfer p w (progressUpdate totalBytes totalFiles currentBytes currentFiles currentFile output)
  | .heartbeat currentBytes currentFiles currentFile activity =>
    emitTransfer p w (heartbeatUpdate totalBytes totalFiles currentBytes currentFiles currentFile activity)

def performAll (totalBytes totalFiles : Nat) : List CommandStep → Effect Raised State Unit
  | [] => pure ()
  | step :: steps => do
    step.perform p w totalBytes totalFiles
    performAll totalBytes totalFiles steps

def runEntryCommandWithProgress (totalBytes totalFiles : Nat) (run : CommandRun) :
    Effect Raised State TransferState := do
  performAll p w totalBytes totalFiles run.steps
  match run.state with
  | none => raise .command
  | some state => pure state

structure Accumulated where
  doneBytes : Nat
  doneFiles : Nat
  success : Bool
  messages : List Text

def Accumulated.add (acc : Accumulated) (bytes files : Nat) (success : Bool) (message : Text) :
    Accumulated :=
  ⟨acc.doneBytes + bytes, acc.doneFiles + files, acc.success && success, acc.messages ++ [message]⟩

def Entry.arrow (e : Entry) : Text := e.source ++ " -> ".toList ++ e.destination ++ ": ".toList

/-- What one entry adds to the totals of the loop. -/
def Accumulated.addEntry (acc : Accumulated) (e : Entry) (state : TransferState) : Accumulated :=
  match state.result with
  | none =>
    acc.add state.observedBytes state.observedFiles false
      (e.arrow ++ "transfer process did not return a result".toList)
  | some result =>
    if result.success then
      acc.add (max e.entrySize state.observedBytes) (max e.entryCount state.observedFiles) true
        (e.arrow ++ result.status)
    else acc.add state.observedBytes state.observedFiles false (e.arrow ++ result.status)

def runEntries (totalBytes totalFiles : Nat) : List Entry → Accumulated → Effect Raised State Accumulated
  | [], acc => pure acc
  | e :: entries, acc => do
    if ← cancelIsSet w then
      pure { acc with success := false, messages := acc.messages ++ ["Transfer cancelled by user.".toList] }
    else
      emitTransfer p w (fileStartUpdate texts e)
      let state ← runEntryCommandWithProgress p w totalBytes totalFiles e.run
      let next := acc.addEntry e state
      emitTransfer p w (fileDoneUpdate totalBytes totalFiles next.doneBytes next.doneFiles
        (next.messages.getLastD []))
      runEntries totalBytes totalFiles entries next

structure TransferResult where
  success : Bool
  cancelled : Bool
  summary : Text
  messages : List Text
  progress : Option TransferProgressSnapshot

def cancelledResult (message : Text) : TransferResult := ⟨false, true, message, [message], none⟩

/-- `tarReads` and `rootReads` count the reads of the cancel event by the two probes. -/
def runTransferEntries (tarReads rootReads : Nat) (entries : List Entry) :
    Effect Raised State TransferResult := do
  if ← cancelIsSet w then
    pure (cancelledResult "Transfer cancelled before it started.".toList)
  else
    cancelReads w tarReads
    if ← cancelIsSet w then
      pure (cancelledResult "Transfer cancelled while preparing transfer tools.".toList)
    else
      cancelReads w rootReads
      emitTransfer p w (planUpdate texts entries)
      let acc ← runEntries p w texts (plannedBytes entries) (plannedFiles entries) entries ⟨0, 0, true, []⟩
      pure
        { success := acc.success
          cancelled := false
          summary := texts.summary acc.success acc.doneFiles (max (plannedFiles entries) acc.doneFiles)
            acc.doneBytes acc.messages
          messages := acc.messages
          progress := none }

def normalizeResult (result : TransferResult) : Effect Raised State TransferResult := do
  let redacted := fun text => p.redactSensitiveText (.str text)
  let result := { result with
    summary := redacted result.summary, messages := result.messages.map (redacted ∘ redacted) }
  if ← cancelIsSet w then pure { result with success := false, cancelled := true }
  else pure result

/-- The call of the tracker and the snapshot that it returns. -/
def endTracker (cancelled : Bool) (result : TransferResult) : Effect Raised State TransferProgressSnapshot :=
  fun s =>
    let message := p.redactSensitiveText (.str result.summary)
    let now := w.clock s.tick
    let outcome :=
      if cancelled || result.cancelled then
        s.sink.tracker.cancel p ((PyObject.str message).orElse (.str "Transfer cancelled by user.".toList)) now
      else if result.success then s.sink.tracker.finish p (.str message) now
      else s.sink.tracker.fail p ((PyObject.str message).orElse (.str "Transfer failed.".toList)) now
    (outcome.2.mapError .valueError, { s with sink := { s.sink with tracker := outcome.1 } })

def finishTracker (result : TransferResult) : Effect Raised State TransferProgressSnapshot := do
  let cancelled ← cancelIsSet w
  endTracker p w cancelled result

/-- The client and the plan, as far as `_require_bound_context` compares them. -/
structure Binding (κ : Type) where
  boundContext : Option κ
  boundSerial : Text
  planContext : κ
  planSerial : Text

def requireBoundContext {κ : Type} [DecidableEq κ] (b : Binding κ) : Effect Raised State Unit :=
  require (b.boundContext = some b.planContext ∧ b.boundSerial = b.planSerial) .staleDeviceContext

/-- The update that `tracker.fail` makes before the error is raised again. -/
def failTracker (message : Text) : Effect Raised State Unit :=
  update (fun s => { s with
    sink := { s.sink with tracker := (s.sink.tracker.fail p (.str message) (w.clock s.tick)).1 } })

def asExecutionError {α : Type} (x : Effect Raised State α) : Effect Raised State α := fun s =>
  match x s with
  | (.ok a, t) => (.ok a, t)
  | (.error _, t) => (.error .fileTransferExecutionError, t)

/-- `execute` over `_run_transfer_entries`, where both directions of a transfer over ADB end. -/
def execute {κ : Type} [DecidableEq κ] (b : Binding κ) (mapped : Text) (tarReads rootReads : Nat)
    (entries : List Entry) : Effect Raised State TransferResult := do
  requireBoundContext b
  let result ← asExecutionError
    (onRaise (runTransferEntries p w texts tarReads rootReads entries) (failTracker p w mapped))
  let normalized ← normalizeResult p w result
  let terminal ← finishTracker p w normalized
  let summary :=
    if !normalized.summary.isEmpty then normalized.summary
    else if !terminal.message.isEmpty then terminal.message
    else "Transfer finished.".toList
  pure { normalized with
    success := terminal.isSuccess
    cancelled := terminal.status = .cancelled
    summary := p.redactSensitiveText (.str summary)
    progress := some terminal }

def Entry.succeeds (e : Entry) : Prop :=
  ∃ state, e.run.state = some state ∧ ∃ result, state.result = some result ∧ result.success = true

def reportsSuccess : Except Raised TransferResult → Bool
  | .ok result => result.success
  | .error _ => false

variable {p : Python} {w : World} {texts : Texts} {u : Update}

/-- No terminal type begins like the types that the strategy emits. -/
theorem eventType_open {a b : Char} {rest : Text} (ha : lowerAscii a) (hb : lowerAscii b)
    (htype : u.type = some (.str (a :: b :: rest))) (hcancelled : u.cancelled = none)
    (hstart : ∀ word ∈ terminalEventTypes, word.take 2 ≠ [a, b]) : strategyTerminal p u = false := by
  have hevent : u.eventType p = a :: b :: casefold p.unicode rest := by
    rw [Update.eventType, htype]
    change casefold p.unicode (a :: b :: rest) = _
    rw [casefold, List.flatMap_cons, List.flatMap_cons, p.unicode.casefold_lower a ha,
      p.unicode.casefold_lower b hb]
    rfl
  have hopen : u.eventType p ∉ terminalEventTypes := fun hmem => hstart _ hmem (by rw [hevent]; rfl)
  rw [strategyTerminal, hcancelled, decide_eq_false hopen]
  rfl

def numberOr : Option Nat → PyObject
  | none => .none
  | some n => .index n

/-- An update that ends nothing, with its four numbers. -/
structure Reports (p : Python) (u : Update) (doneBytes totalBytes doneFiles totalFiles : Option Nat) :
    Prop where
  ongoing : strategyTerminal p u = false
  doneBytes : u.doneBytes.getD .none = numberOr doneBytes
  totalBytes : u.totalBytes.getD .none = numberOr totalBytes
  doneFiles : u.doneFiles.getD .none = numberOr doneFiles
  totalFiles : u.totalFiles.getD .none = numberOr totalFiles

theorem optionalNonnegativeInt_numberOr (n : Option Nat) (name : Argument) :
    optionalNonnegativeInt p (numberOr n) name = .ok (numberOr n) := by
  cases n with
  | none => rfl
  | some n =>
    have hn : ¬(n : Int) < 0 := by omega
    simp [numberOr, optionalNonnegativeInt, nonnegativeInt, hn, Except.map]

theorem raised_numberOr (current : Nat) (n : Option Nat) (name : Argument) :
    TransferProgressTracker.raised p current (numberOr n) name = .ok (max current (n.getD 0)) := by
  cases n with
  | none => simp [numberOr, TransferProgressTracker.raised]
  | some n =>
    have hn : ¬(n : Int) < 0 := by omega
    simp [numberOr, TransferProgressTracker.raised, nonnegativeInt, hn, Except.map]

theorem advanced_numberOr (current : Nat) (n : Option Nat) (name deltaName : Argument) :
    TransferProgressTracker.advanced p current (numberOr n) .none name deltaName =
      .ok (max current (n.getD 0)) := by
  cases n with
  | none => simp [numberOr, TransferProgressTracker.advanced]
  | some n => exact raised_numberOr (p := p) current (some n) name

theorem arguments_of_reports {db tb df tf : Option Nat} (h : Reports p u db tb df tf) :
    ∃ a, u.arguments p = .ok a ∧ a.doneBytes = numberOr db ∧ a.totalBytes = numberOr tb ∧
      a.doneFiles = numberOr df ∧ a.totalFiles = numberOr tf ∧ a.byteDelta = .none ∧ a.fileDelta = .none := by
  unfold Update.arguments
  rw [h.doneBytes, h.totalBytes, h.doneFiles, h.totalFiles, optionalNonnegativeInt_numberOr,
    optionalNonnegativeInt_numberOr, optionalNonnegativeInt_numberOr, optionalNonnegativeInt_numberOr]
  exact ⟨_, rfl, rfl, rfl, rfl, rfl, rfl, rfl⟩

/-- The tracker after an update with these numbers. -/
structure Counted (t : TransferProgressTracker) (db tb df tf : Option Nat) (t' : TransferProgressTracker) :
    Prop where
  status : t'.status = t.status
  failures : t'.failures = t.failures
  doneBytes : t'.doneBytes = max t.doneBytes (db.getD 0)
  doneFiles : t'.doneFiles = max t.doneFiles (df.getD 0)
  totalBytes : t'.totalBytes = max (max t.totalBytes (tb.getD 0)) t'.doneBytes
  totalFiles : t'.totalFiles = max (max t.totalFiles (tf.getD 0)) t'.doneFiles

theorem ingest_reports {t : TransferProgressTracker} {db tb df tf : Option Nat}
    (hrunning : t.status = .running) (h : Reports p u db tb df tf) (now : ℚ) :
    ∃ t' snapshot, t.ingest p u now = (t', .ok snapshot) ∧ Counted t db tb df tf t' := by
  obtain ⟨a, ha, hdb, htb, hdf, htf, hbyteDelta, hfileDelta⟩ := arguments_of_reports h
  have hongoing := h.ongoing
  rw [strategyTerminal, Bool.or_eq_false_iff, decide_eq_false_iff_not, terminalEventTypes,
    List.mem_append, List.mem_append, not_or, not_or] at hongoing
  obtain ⟨⟨⟨hcancelled, hcomplete⟩, hfailure⟩, hflag⟩ := hongoing
  have hnot : u.isCancelled p = false := by
    rw [TransferProgressTracker.Update.isCancelled, hflag, decide_eq_false hcancelled]
    rfl
  rw [TransferProgressTracker.ingest, ha]
  simp only [TransferProgressTracker.update, hbyteDelta, hfileDelta, hdb, htb, hdf, htf, raised_numberOr,
    advanced_numberOr, TransferProgressTracker.given, Bool.and_false, Bool.false_eq_true, if_false,
    hrunning, ne_eq, not_true_eq_false, hnot, hfailure, hcomplete]
  exact ⟨_, _, rfl, hrunning.symm, rfl, rfl, rfl, rfl, rfl⟩

theorem emit_reports {sink : NormalizedProgressSink} {db tb df tf : Option Nat}
    (hrunning : sink.tracker.status = .running) (hseen : sink.strategyTerminalSeen = false)
    (h : Reports p u db tb df tf) (now : ℚ) :
    ∃ tracker, sink.emit p u now = (.ok (), ⟨tracker, false⟩) ∧ Counted sink.tracker db tb df tf tracker := by
  obtain ⟨tracker, snapshot, hingest, hcounted⟩ := ingest_reports hrunning h now
  have hterminal : (sink.tracker.snapshot p now).isTerminal = false := by
    change decide (sink.tracker.status ≠ .running) = false
    rw [hrunning]
    rfl
  refine ⟨tracker, ?_, hcounted⟩
  rw [NormalizedProgressSink.emit, hterminal, hseen, accountingUpdate, h.ongoing]
  simp only [Bool.or_self, Bool.false_eq_true, if_false, hingest]

/-- The accounting of a running strategy, where `doneBytes` and `doneFiles` are reported. -/
structure Ongoing (w : World) (totalBytes totalFiles doneBytes doneFiles : Nat) (s : State) : Prop where
  seen : s.sink.strategyTerminalSeen = false
  running : s.sink.tracker.status = .running
  failures : s.sink.tracker.failures = []
  doneBytes : doneBytes ≤ s.sink.tracker.doneBytes
  doneFiles : doneFiles ≤ s.sink.tracker.doneFiles
  totalBytes : s.sink.tracker.totalBytes ≤ max totalBytes s.sink.tracker.doneBytes
  totalFiles : s.sink.tracker.totalFiles ≤ max totalFiles s.sink.tracker.doneFiles
  observed : s.observed = true → w.isSet s.tick = true

variable {totalBytes totalFiles doneBytes doneFiles : Nat} {E : Raised → State → Prop}

theorem observed_next {observed : Bool} {tick : Nat} (h : observed = true → w.isSet tick = true)
    (hs : observed = true ∨ w.isSet tick = true) : w.isSet (tick + 1) = true :=
  w.staysSet tick (hs.elim h id)

theorem emit_meets {db tb df tf : Option Nat} (h : Reports p u db tb df tf)
    (htb : tb.getD 0 ≤ max totalBytes (db.getD 0)) (htf : tf.getD 0 ≤ max totalFiles (df.getD 0)) :
    Meets (Ongoing w totalBytes totalFiles doneBytes doneFiles) (emitTransfer p w u)
      (fun _ => Ongoing w totalBytes totalFiles (max doneBytes (db.getD 0)) (max doneFiles (df.getD 0)))
      E := by
  intro s hs
  obtain ⟨tracker, hemit, hc⟩ := emit_reports hs.running hs.seen h (w.clock s.tick)
  rw [emitTransfer, hemit]
  have hbytes := hs.totalBytes
  have hfiles := hs.totalFiles
  have hdb := hs.doneBytes
  have hdf := hs.doneFiles
  refine ⟨rfl, hc.status.trans hs.running, hc.failures.trans hs.failures, ?_, ?_, ?_, ?_, fun ho => ?_⟩
  · dsimp only
    rw [hc.doneBytes]
    exact max_le_max_right _ hdb
  · dsimp only
    rw [hc.doneFiles]
    exact max_le_max_right _ hdf
  · dsimp only
    rw [hc.totalBytes, hc.doneBytes]
    omega
  · dsimp only
    rw [hc.totalFiles, hc.doneFiles]
    omega
  · exact observed_next hs.observed (.inl ho)

theorem cancelIsSet_meets :
    Meets (Ongoing w totalBytes totalFiles doneBytes doneFiles) (cancelIsSet w)
      (fun b s => (b = true → s.observed = true) ∧ Ongoing w totalBytes totalFiles doneBytes doneFiles s)
      E := by
  intro s hs
  refine ⟨fun hb => ?_, hs.seen, hs.running, hs.failures, hs.doneBytes, hs.doneFiles, hs.totalBytes,
    hs.totalFiles, fun ho => ?_⟩
  · dsimp only
    rw [hb, Bool.or_true]
  · exact observed_next hs.observed ((Bool.or_eq_true ..).mp ho)

theorem cancelReads_meets (n : Nat) :
    Meets (Ongoing w totalBytes totalFiles doneBytes doneFiles) (cancelReads w n)
      (fun _ => Ongoing w totalBytes totalFiles doneBytes doneFiles) E := by
  induction n with
  | zero => exact Meets.pure (fun _ => id)
  | succ n ih => exact cancelIsSet_meets.bind (fun _ => ih.mono (fun _ h => h.2) (fun _ _ => id) (fun _ _ => id))

theorem plan_reports (entries : List Entry) :
    Reports p (planUpdate texts entries) none (some (plannedBytes entries)) none
      (some (plannedFiles entries)) :=
  ⟨eventType_open (by decide) (by decide) rfl rfl (by decide), rfl, rfl, rfl, rfl⟩

theorem fileStart_reports (e : Entry) : Reports p (fileStartUpdate texts e) none none none none :=
  ⟨eventType_open (by decide) (by decide) rfl rfl (by decide), rfl, rfl, rfl, rfl⟩

theorem progress_reports (currentBytes currentFiles : Nat) (currentFile : Option Text) (output : Text) :
    Reports p (progressUpdate totalBytes totalFiles currentBytes currentFiles currentFile output)
      (some currentBytes) (some totalBytes) (some currentFiles) (some totalFiles) :=
  ⟨eventType_open (by decide) (by decide) rfl rfl (by decide), rfl, rfl, rfl, rfl⟩

theorem heartbeat_reports (currentBytes currentFiles : Nat) (currentFile activity : Text) :
    Reports p (heartbeatUpdate totalBytes totalFiles currentBytes currentFiles currentFile activity)
      (some currentBytes) (some (max totalBytes currentBytes)) (some currentFiles)
      (some (max totalFiles currentFiles)) :=
  ⟨eventType_open (by decide) (by decide) rfl rfl (by decide), rfl, rfl, rfl, rfl⟩

theorem fileDone_reports (doneBytes doneFiles : Nat) (message : Text) :
    Reports p (fileDoneUpdate totalBytes totalFiles doneBytes doneFiles message)
      (some doneBytes) (some (max totalBytes doneBytes)) (some doneFiles)
      (some (max totalFiles doneFiles)) :=
  ⟨eventType_open (by decide) (by decide) rfl rfl (by decide), rfl, rfl, rfl, rfl⟩

theorem Ongoing.mono {doneBytes' doneFiles' : Nat} {s : State}
    (h : Ongoing w totalBytes totalFiles doneBytes doneFiles s) (hbytes : doneBytes' ≤ doneBytes)
    (hfiles : doneFiles' ≤ doneFiles) : Ongoing w totalBytes totalFiles doneBytes' doneFiles' s :=
  { h with doneBytes := hbytes.trans h.doneBytes, doneFiles := hfiles.trans h.doneFiles }

theorem perform_meets (step : CommandStep) :
    Meets (Ongoing w totalBytes totalFiles doneBytes doneFiles) (step.perform p w totalBytes totalFiles)
      (fun _ => Ongoing w totalBytes totalFiles doneBytes doneFiles) E := by
  cases step with
  | cancelRead => exact cancelReads_meets 1
  | progress currentBytes currentFiles currentFile output =>
    exact (emit_meets (progress_reports ..) (le_max_left ..) (le_max_left ..)).mono (fun _ => id)
      (fun _ _ h => h.mono (le_max_left ..) (le_max_left ..)) (fun _ _ => id)
  | heartbeat currentBytes currentFiles currentFile activity =>
    exact (emit_meets (heartbeat_reports ..) le_rfl le_rfl).mono (fun _ => id)
      (fun _ _ h => h.mono (le_max_left ..) (le_max_left ..)) (fun _ _ => id)

theorem performAll_meets (steps : List CommandStep) :
    Meets (Ongoing w totalBytes totalFiles doneBytes doneFiles) (performAll p w totalBytes totalFiles steps)
      (fun _ => Ongoing w totalBytes totalFiles doneBytes doneFiles) E := by
  induction steps with
  | nil => exact Meets.pure (fun _ => id)
  | cons step steps ih => exact (perform_meets step).bind (fun _ => ih)

theorem runEntryCommand_meets (run : CommandRun) :
    Meets (Ongoing w totalBytes totalFiles doneBytes doneFiles)
      (runEntryCommandWithProgress p w totalBytes totalFiles run)
      (fun state s => run.state = some state ∧ Ongoing w totalBytes totalFiles doneBytes doneFiles s)
      (fun _ _ => run.state = none) := by
  apply (performAll_meets run.steps).bind
  intro _
  cases hstate : run.state with
  | none => exact Meets.raise (fun _ _ => rfl)
  | some state => exact Meets.pure (fun _ hs => ⟨rfl, hs⟩)

theorem addEntry_success {acc : Accumulated} {e : Entry} {state : TransferState}
    (hstate : e.run.state = some state) :
    (acc.addEntry e state).success = true ↔ acc.success = true ∧ e.succeeds := by
  have hsucceeds : e.succeeds ↔ ∃ result, state.result = some result ∧ result.success = true := by
    constructor
    · intro ⟨state', hstate', h⟩
      rw [hstate] at hstate'
      cases hstate'
      exact h
    · exact fun h => ⟨state, hstate, h⟩
  rw [Accumulated.addEntry, hsucceeds]
  cases state.result with
  | none => simp [Accumulated.add]
  | some result => cases hresult : result.success <;> simp [Accumulated.add, hresult]

theorem addEntry_counts (acc : Accumulated) {e : Entry} {state : TransferState}
    (hstate : e.run.state = some state) (hsucceeds : e.succeeds) :
    acc.doneBytes + e.entrySize ≤ (acc.addEntry e state).doneBytes ∧
      acc.doneFiles + e.entryCount ≤ (acc.addEntry e state).doneFiles := by
  obtain ⟨state', hstate', result, hresult, hsuccess⟩ := hsucceeds
  rw [hstate] at hstate'
  cases hstate'
  rw [Accumulated.addEntry, hresult]
  simp only [hsuccess, if_true, Accumulated.add]
  omega

theorem Entry.succeeds.returns {e : Entry} (h : e.succeeds) : e.run.state ≠ none := by
  obtain ⟨state, hstate, _⟩ := h
  rw [hstate]
  exact Option.some_ne_none state

/-- The loop from `acc` to `acc'`. -/
structure Ran (w : World) (totalBytes totalFiles : Nat) (entries : List Entry) (acc acc' : Accumulated)
    (s : State) : Prop where
  ongoing : Ongoing w totalBytes totalFiles acc'.doneBytes acc'.doneFiles s
  sound : acc'.success = true → acc.success = true ∧ (∀ e ∈ entries, e.succeeds) ∧
    acc.doneBytes + (entries.map Entry.entrySize).sum ≤ acc'.doneBytes ∧
    acc.doneFiles + (entries.map Entry.entryCount).sum ≤ acc'.doneFiles
  complete : acc.success = true → (∀ e ∈ entries, e.succeeds) → acc'.success = true ∨ s.observed = true

theorem ran_cons {e : Entry} {entries : List Entry} {acc acc' : Accumulated} {state : TransferState}
    {s : State} (hstate : e.run.state = some state)
    (h : Ran w totalBytes totalFiles entries (acc.addEntry e state) acc' s) :
    Ran w totalBytes totalFiles (e :: entries) acc acc' s where
  ongoing := h.ongoing
  sound hsuccess := by
    obtain ⟨hnext, hrest, hbytes, hfiles⟩ := h.sound hsuccess
    obtain ⟨hacc, he⟩ := (addEntry_success hstate).mp hnext
    obtain ⟨hsize, hcount⟩ := addEntry_counts acc hstate he
    rw [List.map_cons, List.map_cons, List.sum_cons, List.sum_cons]
    exact ⟨hacc, List.forall_mem_cons.mpr ⟨he, hrest⟩, by omega, by omega⟩
  complete hacc hall := by
    obtain ⟨he, hrest⟩ := List.forall_mem_cons.mp hall
    exact h.complete ((addEntry_success hstate).mpr ⟨hacc, he⟩) hrest

theorem runEntries_meets (entries : List Entry) (acc : Accumulated) :
    Meets (Ongoing w totalBytes totalFiles acc.doneBytes acc.doneFiles)
      (runEntries p w texts totalBytes totalFiles entries acc) (Ran w totalBytes totalFiles entries acc)
      (fun _ _ => ¬∀ e ∈ entries, e.succeeds) := by
  induction entries generalizing acc with
  | nil =>
    exact Meets.pure (fun s hs => ⟨hs, fun hacc => ⟨hacc, nofun, le_rfl, le_rfl⟩, fun hacc _ => .inl hacc⟩)
  | cons e entries ih =>
    apply cancelIsSet_meets.bind
    intro b
    apply Meets.ite
    · exact fun hb => Meets.pure (fun s hs => ⟨hs.2, nofun, fun _ _ => .inr (hs.1 hb)⟩)
    · intro _
      apply ((emit_meets (fileStart_reports e) (Nat.zero_le _) (Nat.zero_le _)).mono (fun _ h => h.2)
        (fun _ _ h => h.mono (le_max_left ..) (le_max_left ..)) (fun _ _ => id)).bind
      intro _
      apply ((runEntryCommand_meets e.run).mono (fun _ => id) (fun _ _ => id)
        (fun _ _ hnone hall => (hall e List.mem_cons_self).returns hnone)).bind
      intro state
      apply Meets.of_fact
      intro hstate
      apply ((emit_meets (fileDone_reports ..) le_rfl le_rfl).mono (fun _ => id)
        (fun _ _ h => h.mono (le_max_right ..) (le_max_right ..)) (fun _ _ => id)).bind
      intro _
      exact (ih (acc.addEntry e state)).mono (fun _ => id) (fun _ _ => ran_cons hstate)
        (fun _ _ h hall => h (List.forall_mem_cons.mp hall).2)

theorem plannedFiles_le (entries : List Entry) :
    plannedFiles entries ≤ (entries.map Entry.entryCount).sum := by
  have hcount (e : Entry) : e.positiveCount ≤ e.entryCount ∧ 1 ≤ e.entryCount := by
    rw [Entry.entryCount]
    split_ifs <;> omega
  have hsum : (entries.map Entry.positiveCount).sum ≤ (entries.map Entry.entryCount).sum :=
    List.sum_le_sum (fun e _ => (hcount e).1)
  have hlength : entries.length ≤ (entries.map Entry.entryCount).sum := by
    induction entries with
    | nil => exact le_rfl
    | cons e entries ih =>
      have htail := ih (List.sum_le_sum (fun e _ => (hcount e).1))
      have he := (hcount e).2
      rw [List.length_cons, List.map_cons, List.sum_cons]
      omega
  rw [plannedFiles]
  by_cases h : (entries.map Entry.positiveCount).sum = 0
  · exact (if_pos h).trans_le hlength
  · exact (if_neg h).trans_le hsum

def Complete (t : TransferProgressTracker) : Prop := t.totalBytes ≤ t.doneBytes ∧ t.totalFiles ≤ t.doneFiles

/-- The strategy has returned `r`. -/
structure Returned (w : World) (entries : List Entry) (r : TransferResult) (s : State) : Prop where
  running : s.sink.tracker.status = .running
  failures : s.sink.tracker.failures = []
  observed : s.observed = true → w.isSet s.tick = true
  sound : r.success = true → (∀ e ∈ entries, e.succeeds) ∧ Complete s.sink.tracker
  complete : (∀ e ∈ entries, e.succeeds) → r.success = true ∧ r.cancelled = false ∨ s.observed = true

theorem returned_of_observed {entries : List Entry} {message : Text} {s : State}
    (hs : Ongoing w totalBytes totalFiles doneBytes doneFiles s) (hobserved : s.observed = true) :
    Returned w entries (cancelledResult message) s :=
  ⟨hs.running, hs.failures, hs.observed, nofun, fun _ => .inr hobserved⟩

theorem returned_of_ran {entries : List Entry} {acc : Accumulated} {r : TransferResult} {s : State}
    (hran : Ran w (plannedBytes entries) (plannedFiles entries) entries ⟨0, 0, true, []⟩ acc s)
    (hsuccess : r.success = acc.success) (hcancelled : r.cancelled = false) : Returned w entries r s where
  running := hran.ongoing.running
  failures := hran.ongoing.failures
  observed := hran.ongoing.observed
  sound h := by
    obtain ⟨_, hall, hbytes, hfiles⟩ := hran.sound (hsuccess ▸ h)
    have hplanned := plannedFiles_le entries
    obtain ⟨_, _, _, hdb, hdf, htb, htf, _⟩ := hran.ongoing
    rw [plannedBytes] at htb
    exact ⟨hall, by omega, by omega⟩
  complete hall := (hran.complete rfl hall).imp_left (fun h => ⟨hsuccess.trans h, hcancelled⟩)

theorem runTransferEntries_meets (texts : Texts) (tarReads rootReads : Nat) (entries : List Entry) :
    Meets (Ongoing w (plannedBytes entries) (plannedFiles entries) 0 0)
      (runTransferEntries p w texts tarReads rootReads entries) (Returned w entries)
      (fun _ _ => ¬∀ e ∈ entries, e.succeeds) := by
  apply cancelIsSet_meets.bind
  intro b
  apply Meets.ite
  · exact fun hb => Meets.pure (fun s hs => returned_of_observed hs.2 (hs.1 hb))
  · intro _
    apply ((cancelReads_meets tarReads).mono (fun _ h => h.2) (fun _ _ => id) (fun _ _ => id)).bind
    intro _
    apply cancelIsSet_meets.bind
    intro b
    apply Meets.ite
    · exact fun hb => Meets.pure (fun s hs => returned_of_observed hs.2 (hs.1 hb))
    · intro _
      apply ((cancelReads_meets rootReads).mono (fun _ h => h.2) (fun _ _ => id) (fun _ _ => id)).bind
      intro _
      apply (emit_meets (plan_reports entries) (le_max_left ..) (le_max_left ..)).bind
      intro _
      apply (runEntries_meets entries ⟨0, 0, true, []⟩).bind
      intro acc
      exact Meets.pure (fun s hs => returned_of_ran hs rfl rfl)

theorem cancel_status {t : TransferProgressTracker} (h : t.status = .running) (message : PyObject) (now : ℚ) :
    ∃ terminal, (t.cancel p message now).2 = .ok terminal ∧ terminal.status = .cancelled := by
  rw [TransferProgressTracker.cancel, if_neg (not_not.mpr h)]
  exact ⟨_, rfl, rfl⟩

theorem fail_status {t : TransferProgressTracker} (h : t.status = .running) (message : PyObject) (now : ℚ) :
    ∃ terminal, (t.fail p message now).2 = .ok terminal ∧ terminal.status ≠ .succeeded := by
  rw [TransferProgressTracker.fail, if_neg (not_not.mpr h)]
  exact ⟨_, rfl, TransferProgressTracker.unfinishedStatus_ne t⟩

theorem finish_status {t : TransferProgressTracker} (h : t.status = .running) (hfailures : t.failures = [])
    (hcomplete : Complete t) (message : PyObject) (now : ℚ) :
    ∃ terminal, (t.finish p message now).2 = .ok terminal ∧ terminal.status = .succeeded := by
  have hincomplete (message : Text) : ({ t with message } : TransferProgressTracker).incomplete = false := by
    simp [TransferProgressTracker.incomplete, hcomplete.1, hcomplete.2, hfailures]
  rw [TransferProgressTracker.finish, if_neg (not_not.mpr h)]
  simp only [hincomplete, Bool.false_eq_true, if_false]
  exact ⟨_, rfl, rfl⟩

theorem endTracker_run (cancelled : Bool) {r : TransferResult} {s : State}
    (hrunning : s.sink.tracker.status = .running) (hfailures : s.sink.tracker.failures = [])
    (hcomplete : r.success = true → Complete s.sink.tracker) :
    ∃ terminal sink, endTracker p w cancelled r s = (.ok terminal, { s with sink }) ∧
      (terminal.isSuccess = true ↔ cancelled = false ∧ r.cancelled = false ∧ r.success = true) := by
  rw [endTracker]
  by_cases hcancel : (cancelled || r.cancelled) = true
  · obtain ⟨terminal, hterminal, hstatus⟩ := cancel_status (p := p) hrunning
      ((PyObject.str (p.redactSensitiveText (.str r.summary))).orElse
        (.str "Transfer cancelled by user.".toList)) (w.clock s.tick)
    refine ⟨terminal, _, Prod.ext ?_ rfl, ?_⟩
    · dsimp only
      rw [if_pos hcancel, hterminal]
      rfl
    · rw [TransferProgressSnapshot.isSuccess, hstatus]
      apply iff_of_false
      · decide
      · intro ⟨hc, hr, _⟩
        rw [hc, hr] at hcancel
        cases hcancel
  · by_cases hsuccess : r.success = true
    · obtain ⟨terminal, hterminal, hstatus⟩ := finish_status (p := p) hrunning hfailures
        (hcomplete hsuccess) (.str (p.redactSensitiveText (.str r.summary))) (w.clock s.tick)
      refine ⟨terminal, _, Prod.ext ?_ rfl, ?_⟩
      · dsimp only
        rw [if_neg hcancel, if_pos hsuccess, hterminal]
        rfl
      · rw [TransferProgressSnapshot.isSuccess, hstatus]
        rw [Bool.not_eq_true, Bool.or_eq_false_iff] at hcancel
        exact iff_of_true rfl ⟨hcancel.1, hcancel.2, hsuccess⟩
    · obtain ⟨terminal, hterminal, hstatus⟩ := fail_status (p := p) hrunning
        ((PyObject.str (p.redactSensitiveText (.str r.summary))).orElse
          (.str "Transfer failed.".toList)) (w.clock s.tick)
      refine ⟨terminal, _, Prod.ext ?_ rfl, ?_⟩
      · dsimp only
        rw [if_neg hcancel, if_neg hsuccess, hterminal]
        rfl
      · exact iff_of_false (fun h => hstatus (of_decide_eq_true h)) (fun h => hsuccess h.2.2)

theorem finishTracker_run {r : TransferResult} {s : State} (hrunning : s.sink.tracker.status = .running)
    (hfailures : s.sink.tracker.failures = []) (hcomplete : r.success = true → Complete s.sink.tracker) :
    ∃ terminal t, finishTracker p w r s = (.ok terminal, t) ∧
      t.observed = (s.observed || w.isSet s.tick) ∧
      (terminal.isSuccess = true ↔ w.isSet s.tick = false ∧ r.cancelled = false ∧ r.success = true) := by
  have hread : cancelIsSet w s = (.ok (w.isSet s.tick),
      { s with tick := s.tick + 1, observed := s.observed || w.isSet s.tick }) := rfl
  obtain ⟨terminal, sink, hrun, hsuccess⟩ := endTracker_run (p := p) (w := w) (w.isSet s.tick)
    (r := r) (s := { s with tick := s.tick + 1, observed := s.observed || w.isSet s.tick }) hrunning
    hfailures hcomplete
  refine ⟨terminal, ⟨sink, s.tick + 1, s.observed || w.isSet s.tick⟩, ?_, rfl, hsuccess⟩
  rw [finishTracker, bind_ok hread]
  exact hrun

theorem normalizeResult_run (r : TransferResult) (s : State) :
    ∃ r', normalizeResult p w r s = (.ok r',
        { s with tick := s.tick + 1, observed := s.observed || w.isSet s.tick }) ∧
      r'.success = (!w.isSet s.tick && r.success) ∧ r'.cancelled = (w.isSet s.tick || r.cancelled) := by
  have hread : cancelIsSet w s = (.ok (w.isSet s.tick),
      { s with tick := s.tick + 1, observed := s.observed || w.isSet s.tick }) := rfl
  rw [normalizeResult]
  dsimp only
  rw [bind_ok hread]
  cases w.isSet s.tick with
  | true => exact ⟨_, rfl, rfl, rfl⟩
  | false => exact ⟨_, rfl, rfl, rfl⟩

/-- What `execute` starts with. -/
def State.new (now : ℚ) (tick : Nat) : State :=
  ⟨⟨⟨now, none, .running, 0, 0, 0, 0, [], [], [], []⟩, false⟩, tick, false⟩

theorem new_ongoing (now : ℚ) (tick : Nat) :
    Ongoing w totalBytes totalFiles 0 0 (State.new now tick) :=
  ⟨rfl, rfl, rfl, le_rfl, le_rfl, Nat.zero_le _, Nat.zero_le _, nofun⟩

/-- `execute` reports success exactly when every command has succeeded and no read of the cancel
event has returned true. -/
theorem execute_success_iff {κ : Type} [DecidableEq κ] {b : Binding κ}
    (hbound : b.boundContext = some b.planContext ∧ b.boundSerial = b.planSerial) (mapped : Text)
    (tarReads rootReads : Nat) (entries : List Entry) (now : ℚ) (tick : Nat) :
    reportsSuccess (execute p w texts b mapped tarReads rootReads entries (State.new now tick)).1 = true ↔
      (∀ e ∈ entries, e.succeeds) ∧
        (execute p w texts b mapped tarReads rootReads entries (State.new now tick)).2.observed = false := by
  have hbind : requireBoundContext b (State.new now tick) = (.ok (), State.new now tick) :=
    require_pos hbound
  have hstrategy := runTransferEntries_meets (p := p) (w := w) texts tarReads rootReads entries _
    (new_ongoing now tick)
  rw [execute, bind_ok hbind]
  cases hrun : runTransferEntries p w texts tarReads rootReads entries (State.new now tick) with
  | mk outcome s =>
    rw [hrun] at hstrategy
    cases outcome with
    | error e =>
      have hraised : asExecutionError (onRaise (runTransferEntries p w texts tarReads rootReads entries)
          (failTracker p w mapped)) (State.new now tick) =
          (.error .fileTransferExecutionError, (failTracker p w mapped s).2) := by
        rw [asExecutionError, onRaise, hrun]
      rw [bind_error hraised]
      exact iff_of_false Bool.false_ne_true (fun h => hstrategy h.1)
    | ok r =>
      have hreturned : asExecutionError (onRaise (runTransferEntries p w texts tarReads rootReads entries)
          (failTracker p w mapped)) (State.new now tick) = (.ok r, s) := by
        rw [asExecutionError, onRaise_ok hrun]
      obtain ⟨hrunning, hfailures, hobserved, hsound, hcomplete⟩ := hstrategy
      obtain ⟨r', hnormalized, hsuccess', hcancelled'⟩ := normalizeResult_run (p := p) (w := w) r s
      obtain ⟨terminal, t, hfinished, ht, hterminal⟩ := finishTracker_run (p := p) (w := w) (r := r')
        (s := { s with tick := s.tick + 1, observed := s.observed || w.isSet s.tick }) hrunning hfailures
        (fun h => (hsound (by rw [hsuccess', Bool.and_eq_true] at h; exact h.2)).2)
      rw [bind_ok hreturned, bind_ok hnormalized, bind_ok hfinished]
      change terminal.isSuccess = true ↔ _ ∧ t.observed = false
      rw [hterminal, ht, hsuccess', hcancelled']
      constructor
      · intro h
        obtain ⟨hlast, hcancelled, hsuccess⟩ := h
        rw [Bool.and_eq_true] at hsuccess
        refine ⟨(hsound hsuccess.2).1, ?_⟩
        have hfirst : w.isSet s.tick = false := by simpa using hsuccess.1
        have hearlier : s.observed = false := by
          cases hs : s.observed with
          | false => rfl
          | true => exact absurd (hobserved hs) (by rw [hfirst]; decide)
        rw [hlast, hfirst, hearlier]
        rfl
      · intro h
        obtain ⟨hall, hnone⟩ := h
        rw [Bool.or_eq_false_iff, Bool.or_eq_false_iff] at hnone
        obtain ⟨⟨hearlier, hfirst⟩, hlast⟩ := hnone
        obtain ⟨hsuccess, hcancelled⟩ := (hcomplete hall).resolve_right (by rw [hearlier]; decide)
        rw [hfirst, hcancelled, hsuccess]
        exact ⟨hlast, rfl, rfl⟩

/-- A folder of unknown size whose heartbeat passes every estimate. -/
theorem execute_success_over_estimate : ∃ (w : World) (entries : List Entry) (b : Binding Nat) (texts : Texts),
    entries.length = 1 ∧ reportsSuccess
      (execute TransferProgressTracker.plain w texts b [] 1 1 entries (State.new 0 0)).1 = true :=
  let w : World := ⟨fun _ => false, nofun, fun _ => 0⟩
  let texts : Texts := ⟨fun _ _ _ => [], fun _ => [], fun _ _ _ _ _ => []⟩
  let entry : Entry := ⟨['a'], ['b'], none, some 0,
    ⟨[.heartbeat 7 3 [] [], .cancelRead], some ⟨some ⟨true, []⟩, 2, 0⟩⟩⟩
  ⟨w, [entry], ⟨some 1, [], 1, []⟩, texts, rfl,
    (execute_success_iff ⟨rfl, rfl⟩ [] 1 1 [entry] 0 0).mpr
      ⟨List.forall_mem_singleton.mpr ⟨_, rfl, _, rfl, rfl⟩, by decide +kernel⟩⟩

end OpenAdb.Transfer.Controller
