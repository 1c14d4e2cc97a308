import OpenAdb.Commands.Results
import OpenAdb.Lib.Encoding
import OpenAdb.Lib.Runs
import Mathlib.Logic.Function.Basic

namespace OpenAdb.Commands.Completeness

open OpenAdb.Lib.PyText OpenAdb.Lib.Encoding OpenAdb.Lib.Runs OpenAdb.Commands.Results

variable {ι σ : Type}

/-- How a reader thread turns what it reads into the pieces that it emits. -/
structure Reading (ι σ : Type) where
  start : σ
  absorb : σ → ι → σ × List Text
  flush : σ → List Text

def Reading.pieces (p : Reading ι σ) : σ → List ι → List Text
  | buffer, [] => p.flush buffer
  | buffer, item :: rest => (p.absorb buffer item).2 ++ p.pieces (p.absorb buffer item).1 rest

/-- Characters of a text stream, gathered into lines. -/
def lineReading (r : Runner) : Reading Char Text where
  start := []
  absorb buffer ch :=
    if ch = '\r' ∨ ch = '\n' then ([], emitLine r buffer) else (buffer ++ [ch], [])
  flush := emitLine r

/-- Lines of a binary stream, each emitted as it is. -/
def chunkReading (r : Runner) (decoder : Utf8Decoder) : Reading Bytes Unit where
  start := ()
  absorb _ chunk := ((), [redactRuntimeText r (decoder.decode chunk)])
  flush _ := []

inductive Channel
  | stdout | stderr
  deriving DecidableEq

inductive WorkerKind
  | input | file | output
  deriving DecidableEq

/-- What tells the streaming calls apart: whether stdout is text, and what their worker does. -/
structure Variant where
  textual : Bool
  worker : Option WorkerKind

def runStreaming : Variant := ⟨true, none⟩

def runWithInputStream : Variant := ⟨true, some .input⟩

def runBinaryOutputToFile : Variant := ⟨false, some .file⟩

def runBinaryOutputWithWriter : Variant := ⟨false, some .output⟩

inductive Thread
  | worker
  | reader (ch : Channel)
  deriving DecidableEq

/-- The threads in the order of their joins. -/
def Variant.joins (v : Variant) : List Thread :=
  (if v.worker.isSome then [.worker] else []) ++
    (if v.textual then [.reader .stdout] else []) ++ [.reader .stderr]

/-- A reader breaks when its read fails or its callback raises. -/
inductive Progress
  | running | ended | broken
  deriving DecidableEq

structure Reader (ι σ : Type) where
  rest : List ι
  buffer : σ
  parts : List Text
  progress : Progress

/-- A worker fails with an exception that its handler stores as `writer_error`;
it dies of any other one. -/
inductive WorkerProgress
  | running | completed | failed | died
  deriving DecidableEq

structure Worker where
  rest : Bytes
  stored : Bytes
  returned : Bool
  progress : WorkerProgress

inductive Point
  | polling
  | waiting
  | joining (threads : List Thread)
  | closing
  | returned
  deriving DecidableEq

structure Outcome where
  success : Bool
  stdout : Text
  stderr : Text

structure State (ι σ : Type) where
  point : Point
  exitCode : Option Int
  failed : Bool
  readers : Channel → Reader ι σ
  worker : Worker
  closed : Bool
  result : Option Outcome

/-- `raises` is what the output callback does with the piece that it gets. -/
inductive Action
  | exited
  | interrupted
  | waited (exitCode : Option Int)
  | raised
  | join (timedOut : Bool)
  | judge
  | close
  | read (ch : Channel) (raises : Bool)
  | readEnd (ch : Channel) (raises : Bool)
  | readFails (ch : Channel)
  | workerTakes (n : Nat)
  | workerReturns
  | workerCompletes
  | workerRaises (base : Bool)

def emit (closed : Bool) (parts pieces : List Text) : List Text :=
  if closed then parts else parts ++ pieces

def Reader.read (p : Reading ι σ) (closed raises : Bool) (reader : Reader ι σ) :
    Option (Reader ι σ) :=
  match reader.progress, reader.rest with
  | .running, item :: rest =>
    let next := p.absorb reader.buffer item
    some ⟨rest, next.1, emit closed reader.parts next.2,
      if raises && !closed && !next.2.isEmpty then .broken else .running⟩
  | _, _ => none

def Reader.readEnd (p : Reading ι σ) (closed raises : Bool) (reader : Reader ι σ) :
    Option (Reader ι σ) :=
  match reader.progress, reader.rest with
  | .running, [] =>
    let last := p.flush reader.buffer
    some ⟨[], reader.buffer, emit closed reader.parts last,
      if raises && !closed && !last.isEmpty then .broken else .ended⟩
  | _, _ => none

def Reader.readFails (reader : Reader ι σ) : Option (Reader ι σ) :=
  if reader.progress = .running then some { reader with progress := .broken } else none

def Worker.takes (kind : WorkerKind) (n : Nat) (worker : Worker) : Option Worker :=
  if worker.progress = .running ∧ 0 < n ∧ n ≤ worker.rest.length then
    match kind with
    | .input => none
    | .file => some { worker with
        stored := worker.stored ++ worker.rest.take n
        rest := worker.rest.drop n }
    | .output => some { worker with rest := worker.rest.drop n }
  else none

def Worker.returns (kind : WorkerKind) (worker : Worker) : Option Worker :=
  if worker.progress = .running ∧ kind = .output then some { worker with returned := true } else none

def Worker.completes (kind : WorkerKind) (worker : Worker) : Option Worker :=
  if worker.progress = .running then
    match kind with
    | .input => some { worker with returned := true, progress := .completed }
    | .file => if worker.rest = [] then some { worker with progress := .completed } else none
    | .output => if worker.returned ∧ worker.rest = [] then
        some { worker with progress := .completed }
      else none
  else none

def Worker.raises (base : Bool) (worker : Worker) : Option Worker :=
  if worker.progress = .running then
    some { worker with progress := if base then .died else .failed }
  else none

def State.setReader (s : State ι σ) (ch : Channel) (reader : Reader ι σ) : State ι σ :=
  { s with readers := Function.update s.readers ch reader }

def State.alive (s : State ι σ) : Thread → Bool
  | .worker => s.worker.progress = .running
  | .reader ch => (s.readers ch).progress = .running

def State.success (s : State ι σ) : Bool :=
  s.exitCode = some 0 && !s.failed && s.worker.progress ≠ .failed

def State.stdoutText (v : Variant) (s : State ι σ) : Text :=
  match v.worker with
  | some .file => if s.worker.stored = [] then [] else
      "[binary stdout written: ".toList ++ Nat.toDigits 10 s.worker.stored.length ++
        " bytes]".toList
  | some .output => if s.success then "[binary stdout streamed]".toList else []
  | _ => (s.readers .stdout).parts.flatten

def State.outcome (v : Variant) (s : State ι σ) : Outcome where
  success := s.success
  stdout := s.stdoutText v
  stderr := (s.readers .stderr).parts.flatten

def step (p : Reading ι σ) (v : Variant) (s : State ι σ) : Action → Option (State ι σ)
  | .exited => if s.point = .polling then some { s with point := .waiting } else none
  | .interrupted =>
    if s.point = .polling then some { s with failed := true, point := .waiting } else none
  | .waited exitCode =>
    if s.point = .waiting then
      match exitCode with
      | some code => some { s with exitCode := some code, point := .joining v.joins }
      | none => some { s with exitCode := none, failed := true, point := .closing }
    else none
  | .raised => match s.point with
    | .polling | .waiting | .joining _ =>
      some { s with exitCode := none, failed := true, point := .closing }
    | _ => none
  | .join timedOut => match s.point with
    | .joining (thread :: threads) =>
      if timedOut || !s.alive thread then some { s with point := .joining threads } else none
    | _ => none
  | .judge =>
    if s.point = .joining [] then
      some { s with failed := s.failed || s.alive .worker, point := .closing }
    else none
  | .close =>
    if s.point = .closing then
      some { s with closed := true, result := some (s.outcome v), point := .returned }
    else none
  | .read ch raises => ((s.readers ch).read p s.closed raises).map (s.setReader ch)
  | .readEnd ch raises => ((s.readers ch).readEnd p s.closed raises).map (s.setReader ch)
  | .readFails ch => (s.readers ch).readFails.map (s.setReader ch)
  | .workerTakes n => v.worker.bind fun kind =>
    (s.worker.takes kind n).map fun worker => { s with worker := worker }
  | .workerReturns => v.worker.bind fun kind =>
    (s.worker.returns kind).map fun worker => { s with worker := worker }
  | .workerCompletes => v.worker.bind fun kind =>
    (s.worker.completes kind).map fun worker => { s with worker := worker }
  | .workerRaises base => v.worker.bind fun _ =>
    (s.worker.raises base).map fun worker => { s with worker := worker }

/-- The threads are started; `out` and `err` are all that the readers can ever
read, `bytes` all that the worker can. -/
def begin (p : Reading ι σ) (v : Variant) (out err : List ι) (bytes : Bytes) : State ι σ where
  point := .polling
  exitCode := none
  failed := false
  readers ch := match ch with
    | .stdout => ⟨out, p.start, [], if v.textual then .running else .ended⟩
    | .stderr => ⟨err, p.start, [], .running⟩
  worker := ⟨bytes, [], false, if v.worker.isSome then .running else .completed⟩
  closed := false
  result := none

/-- No read fails, no output callback raises, every joined reader has ended, and
no exception outside of `Exception` leaves a worker. -/
def Sound (v : Variant) (s : State ι σ) : Action → Prop
  | .read _ raises | .readEnd _ raises => v.textual = true → raises = false
  | .readFails _ => v.textual = false
  | .join _ => v.textual = true → ∀ ch threads, s.point = .joining (.reader ch :: threads) →
      (s.readers ch).progress ≠ .running
  | .workerRaises base => base = false
  | _ => True

/-- What a reader has emitted and still can emit is all that it can read. -/
def Reader.Faithful (p : Reading ι σ) (closed : Bool) (pieces : List Text) (r : Reader ι σ) : Prop :=
  r.progress ≠ .broken ∧
    (closed = false → r.progress = .running → r.parts ++ p.pieces r.buffer r.rest = pieces) ∧
    (r.progress = .ended → closed = false → r.parts = pieces)

theorem Reader.read_faithful {p : Reading ι σ} {closed : Bool} {pieces : List Text}
    {r next : Reader ι σ} (h : r.read p closed false = some next) (hr : r.Faithful p closed pieces) :
    next.Faithful p closed pieces ∧ next.progress = .running := by
  cases hprogress : r.progress with
  | running =>
    cases hrest : r.rest with
    | nil => simp [Reader.read, hprogress, hrest] at h
    | cons item rest =>
      simp only [Reader.read, hprogress, hrest, Bool.false_and, Bool.false_eq_true, if_false,
        Option.some.injEq] at h
      subst h
      refine ⟨⟨by simp, ?_, by simp⟩, rfl⟩
      intro hopen _
      have hparts := hr.2.1 hopen hprogress
      rw [hrest, Reading.pieces] at hparts
      simpa [emit, hopen] using hparts
  | _ => simp [Reader.read, hprogress] at h

theorem Reader.readEnd_faithful {p : Reading ι σ} {closed : Bool} {pieces : List Text}
    {r next : Reader ι σ} (h : r.readEnd p closed false = some next)
    (hr : r.Faithful p closed pieces) : next.Faithful p closed pieces := by
  cases hprogress : r.progress with
  | running =>
    cases hrest : r.rest with
    | nil =>
      simp only [Reader.readEnd, hprogress, hrest, Bool.false_and, Bool.false_eq_true, if_false,
        Option.some.injEq] at h
      subst h
      refine ⟨by simp, by simp, ?_⟩
      intro _ hopen
      have hparts := hr.2.1 hopen hprogress
      rw [hrest, Reading.pieces] at hparts
      simpa [emit, hopen] using hparts
    | cons item rest => simp [Reader.readEnd, hprogress, hrest] at h
  | _ => simp [Reader.readEnd, hprogress] at h

theorem Reader.read_running {p : Reading ι σ} {closed raises : Bool} {r next : Reader ι σ}
    (h : r.read p closed raises = some next) : r.progress = .running := by
  cases hprogress : r.progress with
  | running => rfl
  | _ => simp [Reader.read, hprogress] at h

theorem Reader.readEnd_running {p : Reading ι σ} {closed raises : Bool} {r next : Reader ι σ}
    (h : r.readEnd p closed raises = some next) : r.progress = .running := by
  cases hprogress : r.progress with
  | running => rfl
  | _ => simp [Reader.readEnd, hprogress] at h

def Outcome.text (o : Outcome) : Channel → Text
  | .stdout => o.stdout
  | .stderr => o.stderr

/-- Both streams of a text call are emitted in full where the call succeeds. -/
structure TextInv (p : Reading ι σ) (pieces : Channel → List Text) (s : State ι σ) : Prop where
  faithful : ∀ ch, (s.readers ch).Faithful p s.closed (pieces ch)
  joined : ∀ threads, s.point = .joining threads → ∀ ch, .reader ch ∉ threads →
    (s.readers ch).progress = .ended
  closing : s.point = .closing → s.failed = true ∨ ∀ ch, (s.readers ch).progress = .ended
  opened : s.point ≠ .returned → s.closed = false
  result : ∀ o, s.result = some o → o.success = true → ∀ ch, o.text ch = (pieces ch).flatten

variable {p : Reading ι σ} {v : Variant} {pieces : Channel → List Text} {s t : State ι σ} {ch : Channel}

theorem TextInv.setReader {next : Reader ι σ} (hinv : TextInv p pieces s)
    (hrunning : (s.readers ch).progress = .running) (hnext : next.Faithful p s.closed (pieces ch)) :
    TextInv p pieces (s.setReader ch next) := by
  have hended : ∀ ch', (s.readers ch').progress = .ended →
      ((s.setReader ch next).readers ch').progress = .ended := by
    intro ch' hend
    have hne : ch' ≠ ch := by
      rintro rfl
      rw [hrunning] at hend
      cases hend
    simpa [State.setReader, hne] using hend
  constructor
  · intro ch'
    by_cases hc : ch' = ch
    · subst hc
      simpa [State.setReader] using hnext
    · simpa [State.setReader, hc] using hinv.faithful ch'
  · exact fun threads hpoint ch' hch' => hended ch' (hinv.joined threads hpoint ch' hch')
  · intro hpoint
    obtain hfailed | hall := hinv.closing hpoint
    · exact .inl hfailed
    · exact .inr (fun ch' => hended ch' (hall ch'))
  · exact hinv.opened
  · exact hinv.result

theorem TextInv.fail (hinv : TextInv p pieces s) (exitCode : Option Int) (h : s.point ≠ .returned) :
    TextInv p pieces { s with exitCode := exitCode, failed := true, point := .closing } :=
  ⟨hinv.faithful, by simp, fun _ => .inl rfl, fun _ => hinv.opened h, hinv.result⟩

theorem TextInv.setWorker (hinv : TextInv p pieces s) (worker : Worker) :
    TextInv p pieces { s with worker := worker } :=
  ⟨hinv.faithful, hinv.joined, hinv.closing, hinv.opened, hinv.result⟩

/-- One step that is sound keeps the invariant of the streams. -/
theorem TextInv.next {a : Action} (htextual : v.textual = true) (hfile : v.worker ≠ some .file)
    (houtput : v.worker ≠ some .output) (hinv : TextInv p pieces s) (hsound : Sound v s a)
    (h : step p v s a = some t) : TextInv p pieces t := by
  cases a with
  | exited =>
    simp only [step] at h
    split_ifs at h with hpoint
    cases h
    exact ⟨hinv.faithful, by simp, by simp, fun _ => hinv.opened (by simp [hpoint]), hinv.result⟩
  | interrupted =>
    simp only [step] at h
    split_ifs at h with hpoint
    cases h
    exact ⟨hinv.faithful, by simp, by simp, fun _ => hinv.opened (by simp [hpoint]), hinv.result⟩
  | waited exitCode =>
    simp only [step] at h
    split_ifs at h with hpoint
    have hopened := hinv.opened (by simp [hpoint])
    cases exitCode with
    | none =>
      cases h
      exact hinv.fail none (by simp [hpoint])
    | some code =>
      cases h
      refine ⟨hinv.faithful, ?_, by simp, fun _ => hopened, hinv.result⟩
      intro threads hthreads ch hch
      obtain rfl : v.joins = threads := by simpa using hthreads
      cases ch <;> simp [Variant.joins, htextual] at hch
  | raised =>
    cases hpoint : s.point with
    | polling | waiting | joining threads =>
      simp only [step, hpoint, Option.some.injEq] at h
      subst h
      exact hinv.fail none (by simp [hpoint])
    | _ => simp [step, hpoint] at h
  | join timedOut =>
    cases hpoint : s.point with
    | joining threads =>
      cases threads with
      | nil => simp [step, hpoint] at h
      | cons thread threads =>
        simp only [step, hpoint] at h
        split_ifs at h
        cases h
        refine ⟨hinv.faithful, ?_, by simp, fun _ => hinv.opened (by simp [hpoint]), hinv.result⟩
        intro threads' hthreads ch hch
        obtain rfl : threads = threads' := by simpa using hthreads
        by_cases hthread : thread = .reader ch
        · subst hthread
          have hnot := hsound htextual ch threads hpoint
          cases hprogress : (s.readers ch).progress with
          | running => exact absurd hprogress hnot
          | ended => rfl
          | broken => exact absurd hprogress (hinv.faithful ch).1
        · exact hinv.joined _ hpoint ch (by simp [hch, Ne.symm hthread])
    | _ => simp [step, hpoint] at h
  | judge =>
    simp only [step] at h
    split_ifs at h with hpoint
    cases h
    refine ⟨hinv.faithful, by simp, ?_, fun _ => hinv.opened (by simp [hpoint]), hinv.result⟩
    exact fun _ => .inr (fun ch => hinv.joined [] hpoint ch (by simp))
  | close =>
    simp only [step] at h
    split_ifs at h with hpoint
    cases h
    have hopened := hinv.opened (by simp [hpoint])
    refine ⟨?_, by simp, by simp, by simp, ?_⟩
    · exact fun ch => ⟨(hinv.faithful ch).1, by simp, by simp⟩
    · intro o ho hsuccess ch
      obtain rfl : s.outcome v = o := by simpa using ho
      obtain hfailed | hended := hinv.closing hpoint
      · simp [State.outcome, State.success, hfailed] at hsuccess
      · have hparts := (hinv.faithful ch).2.2 (hended ch) hopened
        rw [← hparts]
        cases ch with
        | stdout =>
          obtain hworker | ⟨kind, hworker⟩ := Option.eq_none_or_eq_some v.worker
          · simp [Outcome.text, State.outcome, State.stdoutText, hworker]
          · cases kind with
            | input => simp [Outcome.text, State.outcome, State.stdoutText, hworker]
            | file => exact absurd hworker hfile
            | output => exact absurd hworker houtput
        | stderr => rfl
  | read ch raises =>
    obtain ⟨next, hnext, rfl⟩ := Option.map_eq_some_iff.mp h
    have hquiet := hsound htextual
    subst hquiet
    exact hinv.setReader (Reader.read_running hnext) (Reader.read_faithful hnext (hinv.faithful ch)).1
  | readEnd ch raises =>
    obtain ⟨next, hnext, rfl⟩ := Option.map_eq_some_iff.mp h
    have hquiet := hsound htextual
    subst hquiet
    exact hinv.setReader (Reader.readEnd_running hnext)
      (Reader.readEnd_faithful hnext (hinv.faithful ch))
  | readFails ch =>
    have hbinary : v.textual = false := hsound
    rw [htextual] at hbinary
    cases hbinary
  | workerTakes n | workerReturns | workerCompletes | workerRaises base =>
    obtain ⟨kind, -, h⟩ := Option.bind_eq_some_iff.mp h
    obtain ⟨worker, -, rfl⟩ := Option.map_eq_some_iff.mp h
    exact hinv.setWorker worker

/-- The input writer returned; the file holds all bytes; the output writer
returned and the stream is drained. -/
def Worker.Complete (kind : WorkerKind) (bytes : Bytes) (worker : Worker) : Prop :=
  match kind with
  | .input => worker.returned = true
  | .file => worker.stored = bytes
  | .output => worker.returned = true ∧ worker.rest = []

/-- Where the worker stands with respect to all that it can read. -/
structure WorkerInv (kind : WorkerKind) (bytes : Bytes) (s : State ι σ) : Prop where
  survives : s.worker.progress ≠ .died
  stored : kind = .file → s.worker.stored ++ s.worker.rest = bytes
  complete : s.worker.progress = .completed → s.worker.Complete kind bytes
  closing : s.point = .closing → s.failed = true ∨ s.worker.progress ≠ .running
  result : ∀ o, s.result = some o → o.success = true → s.worker.progress = .completed

variable {kind : WorkerKind} {bytes : Bytes}

theorem WorkerInv.setWorker {worker : Worker} (hinv : WorkerInv kind bytes s)
    (hrunning : s.worker.progress = .running) (hsurvives : worker.progress ≠ .died)
    (hstored : kind = .file → worker.stored ++ worker.rest = bytes)
    (hcomplete : worker.progress = .completed → worker.Complete kind bytes) :
    WorkerInv kind bytes { s with worker := worker } := by
  refine ⟨hsurvives, hstored, hcomplete, ?_, ?_⟩
  · intro hpoint
    obtain hfailed | hstopped := hinv.closing hpoint
    · exact .inl hfailed
    · exact absurd hrunning hstopped
  · intro o ho hsuccess
    have hdone := hinv.result o ho hsuccess
    rw [hrunning] at hdone
    cases hdone

theorem Worker.takes_stored {n : Nat} {worker next : Worker} (h : worker.takes kind n = some next) :
    worker.progress = .running ∧ next.progress = .running ∧
      (kind = .file → next.stored ++ next.rest = worker.stored ++ worker.rest) := by
  simp only [Worker.takes] at h
  split_ifs at h with hn
  cases kind with
  | input => cases h
  | file =>
    cases h
    exact ⟨hn.1, hn.1, fun _ => by rw [List.append_assoc, List.take_append_drop]⟩
  | output =>
    cases h
    exact ⟨hn.1, hn.1, by simp⟩

theorem Worker.completes_complete (bytes : Bytes) {worker next : Worker} (h : worker.completes kind = some next) :
    worker.progress = .running ∧ next.progress = .completed ∧ next.stored = worker.stored ∧
      next.rest = worker.rest ∧ (worker.stored ++ worker.rest = bytes ∨ kind ≠ .file →
        next.Complete kind bytes) := by
  cases kind with
  | input =>
    simp only [Worker.completes] at h
    split_ifs at h with hrunning
    cases h
    exact ⟨hrunning, rfl, rfl, rfl, fun _ => rfl⟩
  | file =>
    simp only [Worker.completes] at h
    split_ifs at h with hrunning hrest
    cases h
    refine ⟨hrunning, rfl, rfl, rfl, ?_⟩
    intro hstored
    have hall := hstored.resolve_right (by simp)
    rwa [hrest, List.append_nil] at hall
  | output =>
    simp only [Worker.completes] at h
    split_ifs at h with hrunning hdone
    cases h
    exact ⟨hrunning, rfl, rfl, rfl, fun _ => hdone⟩

/-- One step that is sound keeps the invariant of the worker. -/
theorem WorkerInv.next {a : Action} (hv : v.worker = some kind) (hinv : WorkerInv kind bytes s)
    (hsound : Sound v s a) (h : step p v s a = some t) : WorkerInv kind bytes t := by
  cases a with
  | exited | interrupted =>
    simp only [step] at h
    split_ifs at h
    cases h
    exact ⟨hinv.survives, hinv.stored, hinv.complete, by simp, hinv.result⟩
  | waited exitCode =>
    simp only [step] at h
    split_ifs at h
    cases exitCode with
    | none =>
      cases h
      exact ⟨hinv.survives, hinv.stored, hinv.complete, fun _ => .inl rfl, hinv.result⟩
    | some code =>
      cases h
      exact ⟨hinv.survives, hinv.stored, hinv.complete, by simp, hinv.result⟩
  | raised =>
    cases hpoint : s.point with
    | polling | waiting | joining threads =>
      simp only [step, hpoint, Option.some.injEq] at h
      subst h
      exact ⟨hinv.survives, hinv.stored, hinv.complete, fun _ => .inl rfl, hinv.result⟩
    | _ => simp [step, hpoint] at h
  | join timedOut =>
    cases hpoint : s.point with
    | joining threads =>
      cases threads with
      | nil => simp [step, hpoint] at h
      | cons thread threads =>
        simp only [step, hpoint] at h
        split_ifs at h
        cases h
        exact ⟨hinv.survives, hinv.stored, hinv.complete, by simp, hinv.result⟩
    | _ => simp [step, hpoint] at h
  | judge =>
    simp only [step] at h
    split_ifs at h with hpoint
    cases h
    refine ⟨hinv.survives, hinv.stored, hinv.complete, ?_, hinv.result⟩
    intro _
    cases hrunning : decide (s.worker.progress = .running) with
    | true => exact .inl (by simp [State.alive, hrunning])
    | false => exact .inr (of_decide_eq_false hrunning)
  | close =>
    simp only [step] at h
    split_ifs at h with hpoint
    cases h
    refine ⟨hinv.survives, hinv.stored, hinv.complete, by simp, ?_⟩
    intro o ho hsuccess
    obtain rfl : s.outcome v = o := by simpa using ho
    simp only [State.outcome, State.success, Bool.and_eq_true, decide_eq_true_eq,
      Bool.not_eq_true'] at hsuccess
    obtain ⟨⟨-, hfine⟩, hnot⟩ := hsuccess
    have hstopped := (hinv.closing hpoint).resolve_left (by simp [hfine])
    cases hprogress : s.worker.progress with
    | completed => rfl
    | running => exact absurd hprogress hstopped
    | failed => exact absurd hprogress hnot
    | died => exact absurd hprogress hinv.survives
  | read ch raises | readEnd ch raises | readFails ch =>
    obtain ⟨next, -, rfl⟩ := Option.map_eq_some_iff.mp h
    exact ⟨hinv.survives, hinv.stored, hinv.complete, hinv.closing, hinv.result⟩
  | workerTakes n =>
    obtain ⟨kind', hkind, h⟩ := Option.bind_eq_some_iff.mp h
    obtain rfl : kind = kind' := Option.some.inj (hv.symm.trans hkind)
    obtain ⟨worker, hworker, rfl⟩ := Option.map_eq_some_iff.mp h
    obtain ⟨hrunning, hnext, hstored⟩ := Worker.takes_stored hworker
    exact hinv.setWorker hrunning (by simp [hnext]) (fun hf => (hstored hf).trans (hinv.stored hf))
      (by simp [hnext])
  | workerReturns =>
    obtain ⟨kind', hkind, h⟩ := Option.bind_eq_some_iff.mp h
    obtain rfl : kind = kind' := Option.some.inj (hv.symm.trans hkind)
    obtain ⟨worker, hworker, rfl⟩ := Option.map_eq_some_iff.mp h
    simp only [Worker.returns] at hworker
    split_ifs at hworker with hrunning
    cases hworker
    exact hinv.setWorker hrunning.1 hinv.survives hinv.stored (by simp [hrunning.1])
  | workerCompletes =>
    obtain ⟨kind', hkind, h⟩ := Option.bind_eq_some_iff.mp h
    obtain rfl : kind = kind' := Option.some.inj (hv.symm.trans hkind)
    obtain ⟨worker, hworker, rfl⟩ := Option.map_eq_some_iff.mp h
    obtain ⟨hrunning, hnext, hstored, hrest, hcomplete⟩ :=
      Worker.completes_complete bytes hworker
    refine hinv.setWorker hrunning (by simp [hnext]) ?_ ?_
    · intro hf
      rw [hstored, hrest]
      exact hinv.stored hf
    · intro _
      apply hcomplete
      by_cases hf : kind = .file
      · exact .inl (hinv.stored hf)
      · exact .inr hf
  | workerRaises base =>
    obtain ⟨kind', -, h⟩ := Option.bind_eq_some_iff.mp h
    obtain ⟨worker, hworker, rfl⟩ := Option.map_eq_some_iff.mp h
    have hbase : base = false := hsound
    subst hbase
    simp only [Worker.raises, Bool.false_eq_true, if_false] at hworker
    split_ifs at hworker with hrunning
    cases hworker
    exact hinv.setWorker hrunning (by simp) hinv.stored (by simp)

theorem textInv_begin (p : Reading ι σ) (htextual : v.textual = true) (out err : List ι)
    (bytes : Bytes) : TextInv p (fun ch => match ch with
      | .stdout => p.pieces p.start out
      | .stderr => p.pieces p.start err) (begin p v out err bytes) := by
  refine ⟨?_, by simp [begin], by simp [begin], fun _ => rfl, by simp [begin]⟩
  intro ch
  cases ch <;> simp [begin, Reader.Faithful, htextual]

theorem workerInv_begin (p : Reading ι σ) (hv : v.worker = some kind) (out err : List ι)
    (bytes : Bytes) : WorkerInv kind bytes (begin p v out err bytes) := by
  refine ⟨?_, ?_, ?_, by simp [begin], by simp [begin]⟩ <;> simp [begin, hv]

/-- A text call that succeeds returns all text of both streams. -/
theorem text_complete {out err : List ι} {acts : List Action} {o : Outcome}
    (htextual : v.textual = true) (hfile : v.worker ≠ some .file) (houtput : v.worker ≠ some .output)
    (hsound : Along (step p v) (Sound v) (begin p v out err bytes) acts)
    (h : exec (step p v) (begin p v out err bytes) acts = some t) (ho : t.result = some o)
    (hsuccess : o.success = true) : o.stdout = (p.pieces p.start out).flatten ∧
      o.stderr = (p.pieces p.start err).flatten := by
  have hinv := exec_along _ (fun _ _ _ hinv hs hstep =>
    TextInv.next htextual hfile houtput hinv hs hstep)
    (textInv_begin p htextual out err bytes) hsound h
  exact ⟨hinv.result o ho hsuccess .stdout, hinv.result o ho hsuccess .stderr⟩

/-- A call that succeeds leaves its worker complete. -/
theorem worker_complete {out err : List ι} {acts : List Action} {o : Outcome}
    (hv : v.worker = some kind)
    (hsound : Along (step p v) (Sound v) (begin p v out err bytes) acts)
    (h : exec (step p v) (begin p v out err bytes) acts = some t) (ho : t.result = some o)
    (hsuccess : o.success = true) : t.worker.Complete kind bytes := by
  have hinv := exec_along _ (fun _ _ _ hinv hs hstep => WorkerInv.next hv hinv hs hstep)
    (workerInv_begin p hv out err bytes) hsound h
  exact hinv.complete (hinv.result o ho hsuccess)

theorem pieces_lineReading (r : Runner) (buffer stream : Text) :
    (lineReading r).pieces buffer stream = reader r buffer stream := by
  induction stream generalizing buffer with
  | nil => rfl
  | cons ch stream ih =>
    rw [Reading.pieces, ih, reader]
    by_cases hch : ch = '\r' ∨ ch = '\n' <;> simp [lineReading, hch]

theorem pieces_chunkReading (r : Runner) (decoder : Utf8Decoder) (chunks : List Bytes) :
    (chunkReading r decoder).pieces () chunks =
      chunks.map (fun chunk => redactRuntimeText r (decoder.decode chunk)) := by
  induction chunks with
  | nil => rfl
  | cons chunk chunks ih => exact congrArg _ ih

/-- No subprocess call whose steps are sound succeeds with data missing. -/
theorem success_is_complete (r : Runner) (decoder : Utf8Decoder) :
    (∀ (out err : Text) acts t o,
      Along (step (lineReading r) runStreaming) (Sound runStreaming)
        (begin (lineReading r) runStreaming out err []) acts →
      exec (step (lineReading r) runStreaming) (begin (lineReading r) runStreaming out err []) acts =
        some t → t.result = some o → o.success = true →
      o.stdout = (reader r [] out).flatten ∧ o.stderr = (reader r [] err).flatten) ∧
    (∀ (out err : List Bytes) acts t o,
      Along (step (chunkReading r decoder) runWithInputStream) (Sound runWithInputStream)
        (begin (chunkReading r decoder) runWithInputStream out err []) acts →
      exec (step (chunkReading r decoder) runWithInputStream)
        (begin (chunkReading r decoder) runWithInputStream out err []) acts = some t →
      t.result = some o → o.success = true →
      o.stdout = out.flatMap (fun chunk => redactRuntimeText r (decoder.decode chunk)) ∧
        o.stderr = err.flatMap (fun chunk => redactRuntimeText r (decoder.decode chunk)) ∧
        t.worker.returned = true) ∧
    (∀ {ι σ : Type} (p : Reading ι σ) (err : List ι) bytes acts t o,
      Along (step p runBinaryOutputToFile) (Sound runBinaryOutputToFile)
        (begin p runBinaryOutputToFile [] err bytes) acts →
      exec (step p runBinaryOutputToFile) (begin p runBinaryOutputToFile [] err bytes) acts = some t →
      t.result = some o → o.success = true → t.worker.stored = bytes) ∧
    (∀ {ι σ : Type} (p : Reading ι σ) (err : List ι) bytes acts t o,
      Along (step p runBinaryOutputWithWriter) (Sound runBinaryOutputWithWriter)
        (begin p runBinaryOutputWithWriter [] err bytes) acts →
      exec (step p runBinaryOutputWithWriter) (begin p runBinaryOutputWithWriter [] err bytes) acts =
        some t → t.result = some o → o.success = true →
      t.worker.returned = true ∧ t.worker.rest = []) := by
  refine ⟨?_, ?_, ?_, ?_⟩
  · intro out err acts t o hsound h ho hsuccess
    rw [← pieces_lineReading, ← pieces_lineReading]
    exact text_complete rfl (by simp [runStreaming]) (by simp [runStreaming]) hsound h ho hsuccess
  · intro out err acts t o hsound h ho hsuccess
    obtain ⟨hout, herr⟩ := text_complete rfl (by simp [runWithInputStream])
      (by simp [runWithInputStream]) hsound h ho hsuccess
    have hstart : (chunkReading r decoder).start = () := rfl
    rw [hstart, pieces_chunkReading] at hout herr
    have hwriter : t.worker.Complete .input [] := worker_complete rfl hsound h ho hsuccess
    exact ⟨hout, herr, hwriter⟩
  · intro ι σ p err bytes acts t o hsound h ho hsuccess
    have hfile : t.worker.Complete .file bytes := worker_complete rfl hsound h ho hsuccess
    exact hfile
  · intro ι σ p err bytes acts t o hsound h ho hsuccess
    have hdrained : t.worker.Complete .output bytes := worker_complete rfl hsound h ho hsuccess
    exact hdrained

def Action.prompt : Action → Bool
  | .read _ raises | .readEnd _ raises => !raises
  | .readFails _ => false
  | .join timedOut => !timedOut
  | .workerRaises base => !base
  | _ => true

/-- A join that does not time out finds its thread ended. -/
theorem sound_of_prompt {a : Action} (ha : a.prompt = true) (h : step p v s a = some t) :
    Sound v s a := by
  cases a with
  | read ch raises | readEnd ch raises => exact fun _ => by simpa [Action.prompt] using ha
  | readFails ch => cases ha
  | join timedOut =>
    intro _ ch threads hpoint
    obtain rfl : timedOut = false := by simpa [Action.prompt] using ha
    simp only [step, hpoint, Bool.false_or] at h
    split_ifs at h with halive
    simpa [State.alive] using halive
  | workerRaises base => simpa [Sound, Action.prompt] using ha
  | _ => trivial

theorem along_prompt {acts : List Action} (h : ∀ a ∈ acts, a.prompt = true) (s : State ι σ) :
    Along (step p v) (Sound v) s acts := by
  induction acts generalizing s with
  | nil => trivial
  | cons a acts ih =>
    unfold Along
    cases ht : step p v s a with
    | none => trivial
    | some t =>
      exact ⟨sound_of_prompt (h a List.mem_cons_self) ht,
        ih (fun b hb => h b (List.mem_cons_of_mem a hb)) t⟩

/-- A call whose readers end before they are joined. -/
def promptRun : List Action :=
  [.read .stdout false, .read .stdout false, .readEnd .stdout false, .readEnd .stderr false, .exited,
    .waited (some 0), .join false, .join false, .judge, .close]

theorem success_is_complete_prompt :
    ∃ t o, exec (step (lineReading plainRunner) runStreaming)
        (begin (lineReading plainRunner) runStreaming ['a', '\n'] [] []) promptRun = some t ∧
      t.result = some o ∧ o.success = true ∧ o.stdout = (reader plainRunner [] ['a', '\n']).flatten := by
  have hrun : (exec (step (lineReading plainRunner) runStreaming)
      (begin (lineReading plainRunner) runStreaming ['a', '\n'] [] []) promptRun).any
        (fun t => t.result.any (fun o => o.success)) = true := by
    decide +kernel
  have hsound : Along (step (lineReading plainRunner) runStreaming) (Sound runStreaming)
      (begin (lineReading plainRunner) runStreaming ['a', '\n'] [] []) promptRun :=
    along_prompt (by decide) _
  obtain ⟨t, ht, hresult⟩ := (Option.any_eq_true _ _).mp hrun
  obtain ⟨o, ho, hsuccess⟩ := (Option.any_eq_true _ _).mp hresult
  exact ⟨t, o, ht, ho, hsuccess,
    ((success_is_complete plainRunner Utf8Decoder.replacing).1 _ _ _ t o hsound ht ho hsuccess).1⟩

/-- The readers are late for their joins; the call succeeds without the line. -/
theorem late_reader_loses_output :
    (exec (step (lineReading plainRunner) runStreaming)
      (begin (lineReading plainRunner) runStreaming ['a', '\n'] [] [])
      [.exited, .waited (some 0), .join true, .join true, .judge, .close]).any
        (fun t => t.result.any (fun o => o.success && o.stdout.isEmpty)) = true := by
  decide +kernel

end OpenAdb.Commands.Completeness
