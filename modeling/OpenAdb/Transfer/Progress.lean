import Mathlib.Algebra.Order.Round
import Mathlib.Data.Rat.Floor
import OpenAdb.Lib.PyText
import OpenAdb.Lib.Runs

namespace OpenAdb.Transfer.Progress

open OpenAdb.Lib.PyText OpenAdb.Lib.Runs

/-- What the accounting calls: the character tables, `redact_sensitive_text` on an
arbitrary object, and the rounding of a double. -/
structure Python where
  unicode : UnicodeData
  redactSensitiveText : PyObject → Text
  double : ℚ → ℚ

inductive TransferProgressStatus
  | running | succeeded | partiallyDone | failed | cancelled
  deriving DecidableEq

inductive Argument
  | doneBytes | totalBytes | doneFiles | totalFiles | byteDelta | fileDelta
  deriving DecidableEq

inductive ValueError
  | notBoth (absolute delta : Argument)
  | mustBeNonnegativeInteger (name : Argument)
  deriving DecidableEq

variable (p : Python)

structure TransferItemFailure where
  item : Text
  message : Text
  deriving DecidableEq

def TransferItemFailure.new (item message : Text) : TransferItemFailure :=
  ⟨p.redactSensitiveText (.str item), p.redactSensitiveText (.str message)⟩

/-- `int` refuses more than 4300 digits. -/
def nonnegativeInt (value : PyObject) (name : Argument) : Except ValueError Nat :=
  match value with
  | .index n => if n < 0 then .error (.mustBeNonnegativeInteger name) else .ok n.toNat
  | .str s =>
    if isdecimal p.unicode (strip p.unicode s) && (strip p.unicode s).length ≤ 4300 then
      .ok (intOfDigits p.unicode (strip p.unicode s))
    else .error (.mustBeNonnegativeInteger name)
  | _ => .error (.mustBeNonnegativeInteger name)

def optionalNonnegativeInt (value : PyObject) (name : Argument) : Except ValueError PyObject :=
  match value with
  | .none | .str [] => .ok .none
  | value => (nonnegativeInt p value name).map (fun n : Nat => .index n)

structure TransferProgressSnapshot where
  status : TransferProgressStatus
  doneBytes : Nat
  totalBytes : Nat
  doneFiles : Nat
  totalFiles : Nat
  currentFile : Text
  activity : Text
  message : Text
  elapsedSeconds : ℚ
  bytesPerSecond : ℚ
  failures : List TransferItemFailure

def TransferProgressSnapshot.isTerminal (s : TransferProgressSnapshot) : Bool := s.status ≠ .running

def TransferProgressSnapshot.isSuccess (s : TransferProgressSnapshot) : Bool := s.status = .succeeded

/-- `round` of the language: a half goes to the even neighbour. -/
def roundHalfEven (q : ℚ) : ℤ :=
  if q - ⌊q⌋ = 1 / 2 then (if ⌊q⌋ % 2 = 0 then ⌊q⌋ else ⌊q⌋ + 1) else round q

def TransferProgressSnapshot.calculated (s : TransferProgressSnapshot) : ℤ :=
  if 0 < s.totalBytes then roundHalfEven (p.double (min 1 (p.double (s.doneBytes / s.totalBytes)) * 100))
  else if 0 < s.totalFiles then
    roundHalfEven (p.double (min 1 (p.double (s.doneFiles / s.totalFiles)) * 100))
  else 0

def TransferProgressSnapshot.percent (s : TransferProgressSnapshot) : ℤ :=
  if s.isSuccess then 100 else min 99 (s.calculated p)

structure TransferProgressTracker where
  startedAt : ℚ
  finishedAt : Option ℚ
  status : TransferProgressStatus
  doneBytes : Nat
  totalBytes : Nat
  doneFiles : Nat
  totalFiles : Nat
  currentFile : Text
  activity : Text
  message : Text
  failures : List TransferItemFailure
  deriving DecidableEq

def TransferProgressTracker.new (totalBytes totalFiles : PyObject) (now : ℚ) :
    Except ValueError TransferProgressTracker := do
  let totalBytes ← nonnegativeInt p totalBytes .totalBytes
  let totalFiles ← nonnegativeInt p totalFiles .totalFiles
  return ⟨now, none, .running, 0, totalBytes, 0, totalFiles, [], [], [], []⟩

namespace TransferProgressTracker

/-- `now` is what the clock returns if it is read. -/
def snapshot (t : TransferProgressTracker) (now : ℚ) : TransferProgressSnapshot :=
  let observedAt := t.finishedAt.getD now
  let elapsed := max 0 (p.double (observedAt - t.startedAt))
  { status := t.status
    doneBytes := t.doneBytes
    totalBytes := t.totalBytes
    doneFiles := t.doneFiles
    totalFiles := t.totalFiles
    currentFile := p.redactSensitiveText (.str t.currentFile)
    activity := p.redactSensitiveText (.str t.activity)
    message := p.redactSensitiveText (.str t.message)
    elapsedSeconds := elapsed
    bytesPerSecond := max 0 (if 0 < elapsed then p.double (t.doneBytes / elapsed) else 0)
    failures := t.failures }

/-- A call leaves a state also when it raises. -/
abbrev Outcome := TransferProgressTracker × Except ValueError TransferProgressSnapshot

structure UpdateArguments where
  doneBytes : PyObject := .none
  totalBytes : PyObject := .none
  doneFiles : PyObject := .none
  totalFiles : PyObject := .none
  byteDelta : PyObject := .none
  fileDelta : PyObject := .none
  currentFile : PyObject := .none
  activity : PyObject := .none
  message : PyObject := .none

/-- `max` with a value, if one is given. -/
def raised (current : Nat) (value : PyObject) (name : Argument) : Except ValueError Nat :=
  match value with
  | .none => .ok current
  | value => (nonnegativeInt p value name).map (max current)

def advanced (current : Nat) (absolute delta : PyObject) (name deltaName : Argument) :
    Except ValueError Nat :=
  match absolute, delta with
  | .none, .none => .ok current
  | .none, delta => (nonnegativeInt p delta deltaName).map (current + ·)
  | absolute, _ => raised p current absolute name

def redactedOr (current : Text) : PyObject → Text
  | .none => current
  | value => p.redactSensitiveText value

def given : PyObject → Bool
  | .none => false
  | _ => true

def update (t : TransferProgressTracker) (a : UpdateArguments) (now : ℚ) : Outcome :=
  if given a.doneBytes && given a.byteDelta then (t, .error (.notBoth .doneBytes .byteDelta))
  else if given a.doneFiles && given a.fileDelta then (t, .error (.notBoth .doneFiles .fileDelta))
  else if t.status ≠ .running then (t, .ok (t.snapshot p now))
  else
    match raised p t.totalBytes a.totalBytes .totalBytes with
    | .error e => (t, .error e)
    | .ok totalBytes =>
    let t := { t with totalBytes }
    match raised p t.totalFiles a.totalFiles .totalFiles with
    | .error e => (t, .error e)
    | .ok totalFiles =>
    let t := { t with totalFiles }
    match advanced p t.doneBytes a.doneBytes a.byteDelta .doneBytes .byteDelta with
    | .error e => (t, .error e)
    | .ok doneBytes =>
    let t := { t with doneBytes }
    match advanced p t.doneFiles a.doneFiles a.fileDelta .doneFiles .fileDelta with
    | .error e => (t, .error e)
    | .ok doneFiles =>
    let t := { t with
      doneFiles
      totalBytes := max t.totalBytes t.doneBytes
      totalFiles := max t.totalFiles doneFiles
      currentFile := redactedOr p t.currentFile a.currentFile
      activity := redactedOr p t.activity a.activity
      message := redactedOr p t.message a.message }
    (t, .ok (t.snapshot p now))

def recordFailure (t : TransferProgressTracker) (item error : PyObject) (now : ℚ) : Outcome :=
  if t.status ≠ .running then (t, .ok (t.snapshot p now))
  else
    let failure := TransferItemFailure.new p (p.redactSensitiveText item) (p.redactSensitiveText error)
    let t := { t with failures := t.failures ++ [failure] }
    (t, .ok (t.snapshot p now))

def hasProgress (t : TransferProgressTracker) : Bool := 0 < t.doneBytes || 0 < t.doneFiles

def incomplete (t : TransferProgressTracker) : Bool :=
  t.doneBytes < t.totalBytes || t.doneFiles < t.totalFiles || !t.failures.isEmpty

def unfinishedStatus (t : TransferProgressTracker) : TransferProgressStatus :=
  if t.hasProgress then .partiallyDone else .failed

def finish (t : TransferProgressTracker) (message : PyObject) (now : ℚ) : Outcome :=
  if t.status ≠ .running then (t, .ok (t.snapshot p now))
  else
    let t := { t with message := redactedOr p t.message message }
    let t :=
      if t.incomplete then
        { t with
          status := t.unfinishedStatus
          message := if t.message.isEmpty then "The transfer did not complete every planned item.".toList
            else t.message }
      else { t with status := .succeeded }
    let t := { t with finishedAt := some now }
    (t, .ok (t.snapshot p now))

def fail (t : TransferProgressTracker) (error : PyObject) (now : ℚ) : Outcome :=
  if t.status ≠ .running then (t, .ok (t.snapshot p now))
  else
    let t := { t with
      message := p.redactSensitiveText error, status := t.unfinishedStatus, finishedAt := some now }
    (t, .ok (t.snapshot p now))

def cancel (t : TransferProgressTracker) (message : PyObject) (now : ℚ) : Outcome :=
  if t.status ≠ .running then (t, .ok (t.snapshot p now))
  else
    let t := { t with
      message := p.redactSensitiveText message, status := .cancelled, finishedAt := some now }
    (t, .ok (t.snapshot p now))

/-- The entries of an update dictionary that the accounting looks up. -/
structure Update where
  type : Option PyObject := none
  message : Option PyObject := none
  output : Option PyObject := none
  doneBytes : Option PyObject := none
  totalBytes : Option PyObject := none
  doneFiles : Option PyObject := none
  totalFiles : Option PyObject := none
  currentFile : Option PyObject := none
  activity : Option PyObject := none
  cancelled : Option PyObject := none
  success : Option PyObject := none

def Update.eventType (update : Update) : Text :=
  casefold p.unicode
    ((update.type.getD .none).orElse (.str ['p', 'r', 'o', 'g', 'r', 'e', 's', 's'])).text

def cancelledTypes : List Text :=
  [['c', 'a', 'n', 'c', 'e', 'l', 'l', 'e', 'd'], ['c', 'a', 'n', 'c', 'e', 'l', 'e', 'd']]

def failureTypes : List Text :=
  [['f', 'a', 'i', 'l', 'e', 'd'], ['f', 'a', 'i', 'l', 'u', 'r', 'e'], ['e', 'r', 'r', 'o', 'r']]

def completeTypes : List Text :=
  [['c', 'o', 'm', 'p', 'l', 'e', 't', 'e'], ['c', 'o', 'm', 'p', 'l', 'e', 't', 'e', 'd'],
    ['s', 'u', 'c', 'c', 'e', 's', 's'], ['d', 'o', 'n', 'e']]

def Update.isCancelled (update : Update) : Bool :=
  decide (update.eventType p ∈ cancelledTypes) || (update.cancelled.getD (.bool false)).truthy

def isFalse : PyObject → Bool
  | .bool false => true
  | _ => false

/-- The keyword arguments of the call of `update` in `ingest`. -/
def Update.arguments (update : Update) : Except ValueError UpdateArguments := do
  let doneBytes ← optionalNonnegativeInt p (update.doneBytes.getD .none) .doneBytes
  let totalBytes ← optionalNonnegativeInt p (update.totalBytes.getD .none) .totalBytes
  let doneFiles ← optionalNonnegativeInt p (update.doneFiles.getD .none) .doneFiles
  let totalFiles ← optionalNonnegativeInt p (update.totalFiles.getD .none) .totalFiles
  return {
    doneBytes, totalBytes, doneFiles, totalFiles
    currentFile := update.currentFile.getD .none
    activity := update.activity.getD .none
    message := update.message.getD (update.output.getD .none) }

def ingest (t : TransferProgressTracker) (update : Update) (now : ℚ) : Outcome :=
  let message := update.message.getD (update.output.getD .none)
  match update.arguments p with
  | .error e => (t, .error e)
  | .ok a =>
    match t.update p a now with
    | (t, .error e) => (t, .error e)
    | (t, .ok snapshot) =>
      if update.isCancelled p then
        t.cancel p (message.orElse (.str "Transfer cancelled by user".toList)) now
      else if update.eventType p ∈ failureTypes then
        t.fail p (message.orElse (.str "Transfer failed".toList)) now
      else if update.eventType p ∈ completeTypes then
        if isFalse (update.success.getD .none) then
          t.fail p (message.orElse (.str "Transfer failed".toList)) now
        else t.finish p message now
      else (t, .ok snapshot)

inductive Call
  | update (a : UpdateArguments) (now : ℚ)
  | ingest (update : Update) (now : ℚ)
  | recordFailure (item error : PyObject) (now : ℚ)
  | finish (message : PyObject) (now : ℚ)
  | fail (error : PyObject) (now : ℚ)
  | cancel (message : PyObject) (now : ℚ)
  | snapshot (now : ℚ)

def call (t : TransferProgressTracker) : Call → Outcome
  | .update a now => t.update p a now
  | .ingest update now => t.ingest p update now
  | .recordFailure item error now => t.recordFailure p item error now
  | .finish message now => t.finish p message now
  | .fail error now => t.fail p error now
  | .cancel message now => t.cancel p message now
  | .snapshot now => (t, .ok (t.snapshot p now))

/-- The caller may go on after a call that raised. -/
def step (t : TransferProgressTracker) (c : Call) : Option TransferProgressTracker := some (t.call p c).1

/-- The number that an argument stands for; `None` adds nothing. -/
def count (value : PyObject) : Option Nat :=
  match value with
  | .none => some 0
  | value => (nonnegativeInt p value .doneBytes).toOption

/-- The byte counter is set beyond the total, then the file counter is refused. -/
def Overruns (t : TransferProgressTracker) (a : UpdateArguments) : Prop :=
  t.status = .running ∧ (given a.doneBytes && given a.byteDelta) = false ∧
    (given a.doneFiles && given a.fileDelta) = false ∧
    (count p a.doneFiles = none ∨ count p a.fileDelta = none) ∧
    ∃ totalBytes totalFiles doneBytes byteDelta,
      count p a.totalBytes = some totalBytes ∧ count p a.totalFiles = some totalFiles ∧
      count p a.doneBytes = some doneBytes ∧ count p a.byteDelta = some byteDelta ∧
      max t.totalBytes totalBytes < max t.doneBytes doneBytes + byteDelta

def Careful (t : TransferProgressTracker) : Call → Prop
  | .update a _ => ¬Overruns p t a
  | _ => True

/-- What holds of a state and of every later one. -/
structure Accounted (s t : TransferProgressTracker) : Prop where
  doneBytes : s.doneBytes ≤ t.doneBytes
  totalBytes : s.totalBytes ≤ t.totalBytes
  doneFiles : s.doneFiles ≤ t.doneFiles
  totalFiles : s.totalFiles ≤ t.totalFiles
  frozen : s.status ≠ .running → ∀ now later, t.snapshot p later = s.snapshot p now
  percent : ∀ now, (t.snapshot p now).percent p = 100 ↔ t.status = .succeeded
  succeeded : t.status = .succeeded →
    t.failures = [] ∧ t.doneBytes = t.totalBytes ∧ t.doneFiles = t.totalFiles

structure Advances (s t : TransferProgressTracker) : Prop where
  doneBytes : s.doneBytes ≤ t.doneBytes
  totalBytes : s.totalBytes ≤ t.totalBytes
  doneFiles : s.doneFiles ≤ t.doneFiles
  totalFiles : s.totalFiles ≤ t.totalFiles
  final : s.status ≠ .running → t = s

/-- The verdict part of a reachable state. -/
structure Settled (t : TransferProgressTracker) : Prop where
  finishedAt : t.status ≠ .running → t.finishedAt.isSome = true
  files : t.doneFiles ≤ t.totalFiles
  failures : t.status = .succeeded → t.failures = []
  succeeded : t.status = .succeeded → t.totalBytes ≤ t.doneBytes ∧ t.totalFiles ≤ t.doneFiles

variable {p : Python} {s t u : TransferProgressTracker}

theorem Advances.refl (t : TransferProgressTracker) : Advances t t :=
  ⟨le_rfl, le_rfl, le_rfl, le_rfl, fun _ => rfl⟩

theorem Advances.trans (h : Advances s t) (h' : Advances t u) : Advances s u where
  doneBytes := h.doneBytes.trans h'.doneBytes
  totalBytes := h.totalBytes.trans h'.totalBytes
  doneFiles := h.doneFiles.trans h'.doneFiles
  totalFiles := h.totalFiles.trans h'.totalFiles
  final hs := by
    have ht := h.final hs
    rw [h'.final (ht ▸ hs), ht]

theorem nonnegativeInt_toOption (value : PyObject) (name other : Argument) :
    (nonnegativeInt p value name).toOption = (nonnegativeInt p value other).toOption := by
  cases value with
  | index n =>
    rw [nonnegativeInt, nonnegativeInt]
    split_ifs <;> rfl
  | str s =>
    rw [nonnegativeInt, nonnegativeInt]
    split_ifs <;> rfl
  | _ => rfl

theorem raised_toOption (current : Nat) (value : PyObject) (name : Argument) :
    (raised p current value name).toOption = (count p value).map (max current) := by
  have hmap (r : Except ValueError Nat) :
      (r.map (max current)).toOption = r.toOption.map (max current) := by
    cases r <;> rfl
  cases value with
  | none => simp [raised, count, Except.toOption]
  | _ =>
    rw [raised, count, hmap, nonnegativeInt_toOption]
    · simp
    · simp

theorem raised_ok {current n : Nat} {value : PyObject} {name : Argument}
    (h : raised p current value name = .ok n) : ∃ m, count p value = some m ∧ n = max current m := by
  have hraised := raised_toOption (p := p) current value name
  rw [h] at hraised
  obtain ⟨m, hm, rfl⟩ := Option.map_eq_some_iff.mp hraised.symm
  exact ⟨m, hm, rfl⟩

theorem raised_error {current : Nat} {value : PyObject} {name : Argument} {e : ValueError}
    (h : raised p current value name = .error e) : count p value = none := by
  have hraised := raised_toOption (p := p) current value name
  rw [h] at hraised
  exact Option.map_eq_none_iff.mp hraised.symm

theorem advanced_toOption (current : Nat) (absolute delta : PyObject) (name deltaName : Argument)
    (hboth : (given absolute && given delta) = false) :
    (advanced p current absolute delta name deltaName).toOption =
      (count p absolute).bind (fun n => (count p delta).map (fun d => max current n + d)) := by
  by_cases habsolute : absolute = .none
  · subst habsolute
    have hmap (r : Except ValueError Nat) :
        (r.map (current + ·)).toOption = r.toOption.map (current + ·) := by
      cases r <;> rfl
    cases delta with
    | none => simp [advanced, count, Except.toOption]
    | _ =>
      rw [advanced, hmap, nonnegativeInt_toOption _ _ .doneBytes]
      · simp [count]
      · simp
  · have hgiven : given absolute = true := by
      cases absolute with
      | none => exact absurd rfl habsolute
      | _ => rfl
    rw [hgiven, Bool.true_and] at hboth
    have hdelta : delta = .none := by
      cases delta with
      | none => rfl
      | _ => cases hboth
    subst hdelta
    have hraised : advanced p current absolute .none name deltaName = raised p current absolute name := by
      cases absolute with
      | none => exact absurd rfl habsolute
      | _ => rfl
    rw [hraised, raised_toOption]
    cases count p absolute <;> rfl

theorem advanced_ok {current n : Nat} {absolute delta : PyObject} {name deltaName : Argument}
    (hboth : (given absolute && given delta) = false)
    (h : advanced p current absolute delta name deltaName = .ok n) :
    ∃ m d, count p absolute = some m ∧ count p delta = some d ∧ n = max current m + d := by
  have hadvanced := advanced_toOption (p := p) current absolute delta name deltaName hboth
  rw [h] at hadvanced
  obtain ⟨m, hm, hrest⟩ := Option.bind_eq_some_iff.mp hadvanced.symm
  obtain ⟨d, hd, rfl⟩ := Option.map_eq_some_iff.mp hrest
  exact ⟨m, d, hm, hd, rfl⟩

theorem advanced_error {current : Nat} {absolute delta : PyObject} {name deltaName : Argument}
    {e : ValueError} (hboth : (given absolute && given delta) = false)
    (h : advanced p current absolute delta name deltaName = .error e) :
    count p absolute = none ∨ count p delta = none := by
  have hadvanced := advanced_toOption (p := p) current absolute delta name deltaName hboth
  rw [h] at hadvanced
  cases hm : count p absolute with
  | none => exact .inl rfl
  | some m =>
    rw [hm] at hadvanced
    exact .inr (Option.map_eq_none_iff.mp hadvanced.symm)

/-- The six counters and texts that `update` may change; the byte counter passes its
total exactly when the arguments overrun. -/
structure Updated (p : Python) (t : TransferProgressTracker) (a : UpdateArguments)
    (u : TransferProgressTracker) : Prop where
  others : u = { t with
    doneBytes := u.doneBytes, totalBytes := u.totalBytes, doneFiles := u.doneFiles
    totalFiles := u.totalFiles, currentFile := u.currentFile, activity := u.activity
    message := u.message }
  doneBytes : t.doneBytes ≤ u.doneBytes
  totalBytes : t.totalBytes ≤ u.totalBytes
  doneFiles : t.doneFiles ≤ u.doneFiles
  totalFiles : t.totalFiles ≤ u.totalFiles
  files : t.doneFiles ≤ t.totalFiles → u.doneFiles ≤ u.totalFiles
  bytes : t.doneBytes ≤ t.totalBytes → (u.totalBytes < u.doneBytes ↔ Overruns p t a)

theorem updated_of_not_overruns {a : UpdateArguments} (h : ¬Overruns p t a)
    (totalBytes totalFiles : Nat) (hbytes : t.totalBytes ≤ totalBytes) (hfiles : t.totalFiles ≤ totalFiles) :
    Updated p t a { t with totalBytes, totalFiles } where
  others := rfl
  doneBytes := le_rfl
  totalBytes := hbytes
  doneFiles := le_rfl
  totalFiles := hfiles
  files hle := hle.trans hfiles
  bytes hle := iff_of_false (not_lt_of_ge (hle.trans hbytes)) h

theorem update_updated (t : TransferProgressTracker) (a : UpdateArguments) (now : ℚ) :
    Updated p t a (t.update p a now).1 := by
  unfold update
  split_ifs with hbytes hfiles hrunning
  · exact updated_of_not_overruns (fun h => by simp [h.2.1] at hbytes) _ _ le_rfl le_rfl
  · exact updated_of_not_overruns (fun h => by simp [h.2.2.1] at hfiles) _ _ le_rfl le_rfl
  · exact updated_of_not_overruns (fun h => hrunning h.1) _ _ le_rfl le_rfl
  · rw [Bool.not_eq_true] at hbytes hfiles
    cases htb : raised p t.totalBytes a.totalBytes .totalBytes with
    | error e =>
      have hcount := raised_error htb
      exact updated_of_not_overruns
        (fun ⟨_, _, _, _, _, _, _, _, h, _⟩ => nomatch hcount.symm.trans h) _ _ le_rfl le_rfl
    | ok totalBytes =>
      obtain ⟨tb, htb', rfl⟩ := raised_ok htb
      dsimp only
      cases htf : raised p t.totalFiles a.totalFiles .totalFiles with
      | error e =>
        have hcount := raised_error htf
        exact updated_of_not_overruns
          (fun ⟨_, _, _, _, _, _, _, _, _, h, _⟩ => nomatch hcount.symm.trans h) _ _
          (le_max_left ..) le_rfl
      | ok totalFiles =>
        obtain ⟨tf, htf', rfl⟩ := raised_ok htf
        dsimp only
        cases hdb : advanced p t.doneBytes a.doneBytes a.byteDelta .doneBytes .byteDelta with
        | error e =>
          have hcount := advanced_error hbytes hdb
          refine updated_of_not_overruns
            (fun ⟨_, _, _, _, _, _, _, _, _, _, hd, hb, _⟩ => ?_) _ _ (le_max_left ..) (le_max_left ..)
          rw [hd, hb] at hcount
          simp at hcount
        | ok doneBytes =>
          obtain ⟨db, d, hdb', hd, rfl⟩ := advanced_ok hbytes hdb
          dsimp only
          cases hdf : advanced p t.doneFiles a.doneFiles a.fileDelta .doneFiles .fileDelta with
          | error e =>
            have hcount := advanced_error hfiles hdf
            refine ⟨rfl, ?_, le_max_left .., le_rfl, le_max_left .., fun hle => hle.trans (le_max_left ..),
              fun _ => ⟨fun hlt => ?_, fun h => ?_⟩⟩
            · exact (le_max_left ..).trans (Nat.le_add_right ..)
            · exact ⟨not_not.mp hrunning, hbytes, hfiles, hcount, tb, tf, db, d, htb', htf', hdb', hd, hlt⟩
            · obtain ⟨_, _, _, _, tb', tf', db', d', h1, _, h3, h4, hlt⟩ := h
              rw [htb'] at h1
              rw [hdb'] at h3
              rw [hd] at h4
              cases h1
              cases h3
              cases h4
              exact hlt
          | ok doneFiles =>
            obtain ⟨df, d', hdf', hd', rfl⟩ := advanced_ok hfiles hdf
            refine ⟨rfl, ?_, ?_, ?_, ?_, fun _ => le_max_right .., fun _ => ?_⟩
            · exact (le_max_left ..).trans (Nat.le_add_right ..)
            · exact (le_max_left ..).trans (le_max_left ..)
            · exact (le_max_left ..).trans (Nat.le_add_right ..)
            · exact (le_max_left ..).trans (le_max_left ..)
            · refine iff_of_false (not_lt_of_ge (le_max_right ..)) (fun h => ?_)
              obtain ⟨_, _, _, hcount, _⟩ := h
              rw [hdf', hd'] at hcount
              simp at hcount

theorem update_final (t : TransferProgressTracker) (a : UpdateArguments) (now : ℚ)
    (h : t.status ≠ .running) : (t.update p a now).1 = t := by
  rw [update]
  split_ifs <;> rfl

/-- The calls that move no counter. -/
structure Counted (s t : TransferProgressTracker) : Prop where
  doneBytes : t.doneBytes = s.doneBytes
  totalBytes : t.totalBytes = s.totalBytes
  doneFiles : t.doneFiles = s.doneFiles
  totalFiles : t.totalFiles = s.totalFiles
  final : s.status ≠ .running → t = s

theorem Counted.advances (h : Counted s t) : Advances s t :=
  ⟨h.doneBytes.ge, h.totalBytes.ge, h.doneFiles.ge, h.totalFiles.ge, h.final⟩

theorem recordFailure_counted (t : TransferProgressTracker) (item error : PyObject) (now : ℚ) :
    Counted t (t.recordFailure p item error now).1 := by
  rw [recordFailure]
  split_ifs with h
  · exact ⟨rfl, rfl, rfl, rfl, fun _ => rfl⟩
  · exact ⟨rfl, rfl, rfl, rfl, fun hs => absurd hs h⟩

theorem finish_counted (t : TransferProgressTracker) (message : PyObject) (now : ℚ) :
    Counted t (t.finish p message now).1 := by
  rw [finish]
  split_ifs with h
  · exact ⟨rfl, rfl, rfl, rfl, fun _ => rfl⟩
  · dsimp only
    split_ifs <;> exact ⟨rfl, rfl, rfl, rfl, fun hs => absurd hs h⟩

theorem fail_counted (t : TransferProgressTracker) (error : PyObject) (now : ℚ) :
    Counted t (t.fail p error now).1 := by
  rw [fail]
  split_ifs with h
  · exact ⟨rfl, rfl, rfl, rfl, fun _ => rfl⟩
  · exact ⟨rfl, rfl, rfl, rfl, fun hs => absurd hs h⟩

theorem cancel_counted (t : TransferProgressTracker) (message : PyObject) (now : ℚ) :
    Counted t (t.cancel p message now).1 := by
  rw [cancel]
  split_ifs with h
  · exact ⟨rfl, rfl, rfl, rfl, fun _ => rfl⟩
  · exact ⟨rfl, rfl, rfl, rfl, fun hs => absurd hs h⟩

theorem update_advances (t : TransferProgressTracker) (a : UpdateArguments) (now : ℚ) :
    Advances t (t.update p a now).1 :=
  have h := update_updated t a now
  ⟨h.doneBytes, h.totalBytes, h.doneFiles, h.totalFiles, update_final t a now⟩

theorem update_settled (h : Settled t) (a : UpdateArguments) (now : ℚ) :
    Settled (t.update p a now).1 := by
  by_cases hrunning : t.status = .running
  · obtain ⟨hothers, _, _, _, _, hfiles, _⟩ := update_updated (p := p) t a now
    have hstatus : (t.update p a now).1.status = .running := by rw [hothers]; exact hrunning
    have hopen : (t.update p a now).1.status ≠ .succeeded := by rw [hstatus]; decide
    exact ⟨fun hs => absurd hstatus hs, hfiles h.files, fun hs => absurd hs hopen,
      fun hs => absurd hs hopen⟩
  · rwa [update_final t a now hrunning]

theorem recordFailure_settled (h : Settled t) (item error : PyObject) (now : ℚ) :
    Settled (t.recordFailure p item error now).1 := by
  rw [recordFailure]
  split_ifs with hrunning
  · exact h
  · exact ⟨fun hs => absurd hs hrunning, h.files, fun hs => absurd (by rw [hs]; decide) hrunning,
      fun hs => absurd (by rw [hs]; decide) hrunning⟩

theorem unfinishedStatus_ne (t : TransferProgressTracker) : t.unfinishedStatus ≠ .succeeded := by
  rw [unfinishedStatus]
  split_ifs <;> decide

theorem of_not_incomplete (h : ¬t.incomplete = true) :
    t.totalBytes ≤ t.doneBytes ∧ t.totalFiles ≤ t.doneFiles ∧ t.failures = [] := by
  rw [incomplete, Bool.or_eq_true, Bool.or_eq_true, not_or, not_or, decide_eq_true_eq,
    decide_eq_true_eq, not_lt, not_lt, Bool.not_eq_true, Bool.not_eq_false', List.isEmpty_iff] at h
  exact ⟨h.1.1, h.1.2, h.2⟩

theorem finish_settled (h : Settled t) (message : PyObject) (now : ℚ) :
    Settled (t.finish p message now).1 := by
  rw [finish]
  split_ifs with hrunning
  · exact h
  · dsimp only
    split_ifs with hincomplete
    · exact ⟨fun _ => rfl, h.files, fun hs => absurd hs (unfinishedStatus_ne _),
        fun hs => absurd hs (unfinishedStatus_ne _)⟩
    · exact ⟨fun _ => rfl, h.files, fun hs => absurd hs (unfinishedStatus_ne _),
        fun hs => absurd hs (unfinishedStatus_ne _)⟩
    · obtain ⟨hbytes, hfiles, hfailures⟩ := of_not_incomplete hincomplete
      exact ⟨fun _ => rfl, h.files, fun _ => hfailures, fun _ => ⟨hbytes, hfiles⟩⟩

theorem fail_settled (h : Settled t) (error : PyObject) (now : ℚ) : Settled (t.fail p error now).1 := by
  rw [fail]
  split_ifs with hrunning
  · exact h
  · exact ⟨fun _ => rfl, h.files, fun hs => absurd hs (unfinishedStatus_ne t),
      fun hs => absurd hs (unfinishedStatus_ne t)⟩

theorem cancel_settled (h : Settled t) (message : PyObject) (now : ℚ) :
    Settled (t.cancel p message now).1 := by
  rw [cancel]
  split_ifs with hrunning
  · exact h
  · exact ⟨fun _ => rfl, h.files, nofun, nofun⟩

/-- What a call leaves: it advances the state, and with no overrun it keeps the byte counter
within its total. -/
structure Called (s t : TransferProgressTracker) : Prop where
  advances : Advances s t
  settled : Settled s → Settled t
  bytes : s.doneBytes ≤ s.totalBytes → t.doneBytes ≤ t.totalBytes

theorem Called.trans (h : Called s t) (h' : Called t u) : Called s u :=
  ⟨h.advances.trans h'.advances, h'.settled ∘ h.settled, h'.bytes ∘ h.bytes⟩

theorem Counted.called (h : Counted s t) (hsettled : Settled s → Settled t) : Called s t :=
  ⟨h.advances, hsettled, fun hs => by rwa [h.doneBytes, h.totalBytes]⟩

theorem finish_called (t : TransferProgressTracker) (message : PyObject) (now : ℚ) :
    Called t (t.finish p message now).1 :=
  (finish_counted t message now).called (fun h => finish_settled h message now)

theorem fail_called (t : TransferProgressTracker) (error : PyObject) (now : ℚ) :
    Called t (t.fail p error now).1 :=
  (fail_counted t error now).called (fun h => fail_settled h error now)

theorem cancel_called (t : TransferProgressTracker) (message : PyObject) (now : ℚ) :
    Called t (t.cancel p message now).1 :=
  (cancel_counted t message now).called (fun h => cancel_settled h message now)

theorem update_called (t : TransferProgressTracker) {a : UpdateArguments} (now : ℚ)
    (h : ¬Overruns p t a) : Called t (t.update p a now).1 :=
  ⟨update_advances t a now, fun hs => update_settled hs a now,
    fun hs => not_lt.mp (fun hlt => h (((update_updated t a now).bytes hs).mp hlt))⟩

theorem count_optional {value v : PyObject} {name : Argument}
    (h : optionalNonnegativeInt p value name = .ok v) : count p v ≠ none := by
  have hindex (r : Except ValueError Nat) (hr : r.map (fun n : Nat => PyObject.index n) = .ok v) :
      count p v ≠ none := by
    cases r with
    | error e => cases hr
    | ok n =>
      cases hr
      have hn : ¬(n : Int) < 0 := by omega
      rw [count, nonnegativeInt, if_neg hn]
      · exact Option.some_ne_none _
      · simp
  unfold optionalNonnegativeInt at h
  split at h
  · cases h
    exact Option.some_ne_none 0
  · cases h
    exact Option.some_ne_none 0
  · exact hindex _ h

/-- The arguments of an `ingest` are checked before `update` is entered, and are no deltas. -/
theorem arguments_counted {update : Update} {a : UpdateArguments} (h : update.arguments p = .ok a) :
    count p a.doneBytes ≠ none ∧ count p a.totalBytes ≠ none ∧ count p a.doneFiles ≠ none ∧
      count p a.totalFiles ≠ none ∧ a.byteDelta = .none ∧ a.fileDelta = .none := by
  unfold Update.arguments at h
  cases h1 : optionalNonnegativeInt p (update.doneBytes.getD .none) .doneBytes with
  | error e => rw [h1] at h; cases h
  | ok doneBytes =>
    cases h2 : optionalNonnegativeInt p (update.totalBytes.getD .none) .totalBytes with
    | error e => rw [h1, h2] at h; cases h
    | ok totalBytes =>
      cases h3 : optionalNonnegativeInt p (update.doneFiles.getD .none) .doneFiles with
      | error e => rw [h1, h2, h3] at h; cases h
      | ok doneFiles =>
        cases h4 : optionalNonnegativeInt p (update.totalFiles.getD .none) .totalFiles with
        | error e => rw [h1, h2, h3, h4] at h; cases h
        | ok totalFiles =>
          rw [h1, h2, h3, h4] at h
          cases h
          exact ⟨count_optional h1, count_optional h2, count_optional h3, count_optional h4, rfl, rfl⟩

theorem arguments_not_overruns {update : Update} {a : UpdateArguments}
    (h : update.arguments p = .ok a) (t : TransferProgressTracker) : ¬Overruns p t a := by
  obtain ⟨_, _, hfiles, _, _, hdelta⟩ := arguments_counted h
  intro hoverruns
  obtain ⟨_, _, _, hnone | hnone, _⟩ := hoverruns
  · exact hfiles hnone
  · rw [hdelta] at hnone
    cases hnone

theorem ingest_called (t : TransferProgressTracker) (update : Update) (now : ℚ) :
    Called t (t.ingest p update now).1 := by
  rw [ingest]
  cases ha : update.arguments p with
  | error e => exact ⟨.refl t, id, id⟩
  | ok a =>
    have hupdate := update_called t now (arguments_not_overruns ha t)
    dsimp only
    generalize t.update p a now = r at hupdate
    obtain ⟨u, e | snapshot⟩ := r
    · exact hupdate
    · dsimp only
      split_ifs
      · exact hupdate.trans (cancel_called u _ now)
      · exact hupdate.trans (fail_called u _ now)
      · exact hupdate.trans (fail_called u _ now)
      · exact hupdate.trans (finish_called u _ now)
      · exact hupdate

theorem call_advances (t : TransferProgressTracker) (c : Call) : Advances t (t.call p c).1 := by
  cases c with
  | update a now => exact update_advances t a now
  | ingest update now => exact (ingest_called t update now).advances
  | recordFailure item error now => exact (recordFailure_counted t item error now).advances
  | finish message now => exact (finish_called t message now).advances
  | fail error now => exact (fail_called t error now).advances
  | cancel message now => exact (cancel_called t message now).advances
  | snapshot now => exact .refl t

theorem call_settled (c : Call) (h : Settled t) : Settled (t.call p c).1 := by
  cases c with
  | update a now => exact update_settled h a now
  | ingest update now => exact (ingest_called t update now).settled h
  | recordFailure item error now => exact recordFailure_settled h item error now
  | finish message now => exact finish_settled h message now
  | fail error now => exact fail_settled h error now
  | cancel message now => exact cancel_settled h message now
  | snapshot now => exact h

theorem call_bytes {c : Call} (hcareful : Careful p t c) (h : t.doneBytes ≤ t.totalBytes) :
    (t.call p c).1.doneBytes ≤ (t.call p c).1.totalBytes := by
  cases c with
  | update a now => exact (update_called t now hcareful).bytes h
  | ingest update now => exact (ingest_called t update now).bytes h
  | recordFailure item error now =>
    have hcounted := recordFailure_counted (p := p) t item error now
    exact hcounted.doneBytes.trans_le (h.trans hcounted.totalBytes.ge)
  | finish message now => exact (finish_called t message now).bytes h
  | fail error now => exact (fail_called t error now).bytes h
  | cancel message now => exact (cancel_called t message now).bytes h
  | snapshot now => exact h

theorem new_settled {totalBytes totalFiles : PyObject} {now : ℚ}
    (h : TransferProgressTracker.new p totalBytes totalFiles now = .ok t) :
    Settled t ∧ t.doneBytes ≤ t.totalBytes := by
  unfold TransferProgressTracker.new at h
  cases htb : nonnegativeInt p totalBytes .totalBytes with
  | error e => rw [htb] at h; cases h
  | ok n =>
    cases htf : nonnegativeInt p totalFiles .totalFiles with
    | error e => rw [htb, htf] at h; cases h
    | ok m =>
      rw [htb, htf] at h
      cases h
      exact ⟨⟨fun hs => absurd rfl hs, Nat.zero_le _, nofun, nofun⟩, Nat.zero_le _⟩

theorem percent_eq_hundred (s : TransferProgressSnapshot) : s.percent p = 100 ↔ s.status = .succeeded := by
  rw [TransferProgressSnapshot.percent]
  split_ifs with h
  · exact iff_of_true rfl (of_decide_eq_true h)
  · apply iff_of_false
    · have hle := min_le_left 99 (s.calculated p)
      omega
    · exact fun hs => h (decide_eq_true hs)

theorem snapshot_final (hsettled : Settled s) (hadvances : Advances s t) (hs : s.status ≠ .running)
    (now later : ℚ) : t.snapshot p later = s.snapshot p now := by
  rw [hadvances.final hs]
  obtain ⟨finished, hfinished⟩ := Option.isSome_iff_exists.mp (hsettled.finishedAt hs)
  rw [snapshot, snapshot, hfinished]
  rfl

theorem advances_of_exec {calls : List Call} (h : exec (step p) s calls = some t) : Advances s t :=
  exec_relation Advances Advances.refl (fun _ _ _ h h' => h.trans h')
    (fun s c u hstep => by cases hstep; exact call_advances s c) h

theorem settled_of_exec {calls : List Call} (h : exec (step p) s calls = some t) (hs : Settled s) :
    Settled t :=
  exec_relation (fun s t => Settled s → Settled t) (fun _ => id) (fun _ _ _ h h' => h' ∘ h)
    (fun s c u hstep => by cases hstep; exact call_settled c) h hs

theorem bytes_of_exec {calls : List Call} (h : exec (step p) s calls = some t)
    (hcareful : Along (step p) (Careful p) s calls) (hs : s.doneBytes ≤ s.totalBytes) :
    t.doneBytes ≤ t.totalBytes := by
  induction calls generalizing s with
  | nil =>
    cases h
    exact hs
  | cons c calls ih =>
    obtain ⟨u, hu, hrest⟩ := exec_cons h
    cases hu
    exact ih hrest hcareful.2 (call_bytes hcareful.1 hs)

/-- The accounting is right in every state of a run with no overrun. -/
theorem accounted (totalBytes totalFiles : PyObject) (now : ℚ) {start : TransferProgressTracker}
    (before after : List Call)
    (hnew : TransferProgressTracker.new p totalBytes totalFiles now = .ok start)
    (hs : exec (step p) start before = some s) (ht : exec (step p) s after = some t)
    (hcareful : Along (step p) (Careful p) start (before ++ after)) : Accounted p s t := by
  obtain ⟨hstart, hbytes⟩ := new_settled hnew
  have hrun : exec (step p) start (before ++ after) = some t := by rw [exec_append, hs]; exact ht
  have hsettled := settled_of_exec hrun hstart
  have hadvances := advances_of_exec ht
  refine ⟨hadvances.doneBytes, hadvances.totalBytes, hadvances.doneFiles, hadvances.totalFiles,
    fun hfinal now later => snapshot_final (settled_of_exec hs hstart) hadvances hfinal now later,
    fun now => percent_eq_hundred _, fun hsucceeded => ?_⟩
  obtain ⟨htotalBytes, htotalFiles⟩ := hsettled.succeeded hsucceeded
  exact ⟨hsettled.failures hsucceeded, (bytes_of_exec hrun hcareful hbytes).antisymm htotalBytes,
    hsettled.files.antisymm htotalFiles⟩

def plain : Python := ⟨.ascii, PyObject.orEmptyText, id⟩

theorem accounted_after_ingest : ∃ s t : TransferProgressTracker, Accounted plain s t :=
  ⟨_, _, accounted (p := plain) (.index 0) (.index 0) 0
    [.ingest { doneBytes := some (.index 4), doneFiles := some (.index 1) } 1] [.finish .none 2] rfl rfl rfl
      ⟨trivial, trivial, trivial⟩⟩

/-- A byte count is stored, then the file count `-1` is refused, and `finish` succeeds. -/
theorem not_accounted_after_refused_update :
    ¬∀ (p : Python) (start s t : TransferProgressTracker) (before after : List Call),
      TransferProgressTracker.new p (.index 0) (.index 0) 0 = .ok start →
      exec (step p) start before = some s → exec (step p) s after = some t → Accounted p s t := by
  intro h
  have hsucceeded := (h plain _ _ _ [.update { doneBytes := .index 5, doneFiles := .index (-1) } 1]
    [.finish .none 2] rfl rfl rfl).succeeded rfl
  exact absurd hsucceeded.2.1 (by decide)

end TransferProgressTracker

end OpenAdb.Transfer.Progress
