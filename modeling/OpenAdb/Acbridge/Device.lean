import OpenAdb.Commands.Results
import OpenAdb.Lib.Encoding
import OpenAdb.Lib.EventLog

namespace OpenAdb.Acbridge.Device

open OpenAdb.Lib.PyText OpenAdb.Lib.Encoding OpenAdb.Lib.Effects OpenAdb.Lib.EventLog
open OpenAdb.Commands.Results (CommandResult)

/-- `OSError` and `RuntimeError` are caught in places, `ValueError` is not. -/
inductive Raised
  | operating (text : Text)
  | value
  deriving DecidableEq

/-- An adb command, and whether the caller's cancellation event goes with it. -/
structure Call where
  args : List Text
  watched : Bool
  deriving DecidableEq

/-- What one call does, in its order. A wait lets time pass. -/
inductive Event
  | check (set : Bool)
  | wait
  | adb (call : Call) (reply : Except Raised CommandResult)
  | binary (call : Call) (reply : Except Raised (CommandResult × Bytes))
  | unstarted (call : Call)
  | found (present : Bool)
  | size (reply : Except Raised Nat)
  | bytes (reply : Except Raised Bytes)

abbrev Log := List Event

abbrev Exchange (α : Type) := Effect Raised Log α

def isHex (c : Char) : Bool := c.isDigit || (97 ≤ c.toNat && c.toNat ≤ 102)

/-- `[0-9a-f]{32}`. -/
def isRequestId (s : Text) : Bool := s.length = 32 && s.all isHex

/-- The hexadecimal digits of a fresh UUID. -/
structure RequestId where
  text : Text
  valid : isRequestId text = true

/-- What answers the program, as a function of the events before: the phone and the adb server, the
file of the bundled helper, the installation lock, the clock, and whoever sets the event. -/
structure World extends Flag Event where
  adb : Log → Call → Except Raised CommandResult
  binary : Log → Call → Except Raised (CommandResult × Bytes)
  pathExists : Log → Bool
  isFile : Log → Bool
  size : Log → Except Raised Nat
  bytes : Log → Except Raised Bytes
  busy : Log → Nat
  sleeps : Log → Nat
  requestId : Log → RequestId
  apk : Text

/-- The character tables, with `isdigit` and the word characters of `\b`. -/
structure Tables extends UnicodeData where
  casefold_digit : ∀ c : Char, c.isDigit = true → casefold c = [c]
  lower : Text → Text
  isdigit : Char → Bool
  word : Char → Bool

def Tables.ascii : Tables where
  toUnicodeData := UnicodeData.ascii
  casefold_digit c h := by
    have hc : c.toNat ≤ 57 := by
      rw [Char.isDigit, Bool.and_eq_true, decide_eq_true_eq, decide_eq_true_eq] at h
      exact h.2
    exact if_neg fun hupper => by omega
  lower s := s.map Char.toLower
  isdigit := Char.isDigit
  word c := c.isAlphanum || c = '_'

def cancelledBeforeStart : CommandResult where
  exitCode := none
  stdout := []
  stderr := []
  success := false
  status := "Cancelled before execution".toList
  errorType := "cancelled".toList

section
variable (w : World)

/-- `cancel_event.is_set()`. A call without an event is one whose event nobody sets. -/
def check : Exchange Bool := look w.isSet .check

def wait : Exchange Unit := look (fun _ => ()) (fun _ => .wait)

/-- The runner starts nothing for an event that is set. -/
def start {α : Type} (call : Call) (unstarted : α) (answer : Log → Except Raised α)
    (event : Except Raised α → Event) : Exchange α := fun log =>
  if (call.watched && w.isSet log) = true then (.ok unstarted, .unstarted call :: log)
  else ask answer event log

def command (call : Call) : Exchange CommandResult := start w call cancelledBeforeStart (w.adb · call) (.adb call)

def binaryCommand (call : Call) : Exchange (CommandResult × Bytes) :=
  start w call (cancelledBeforeStart, []) (w.binary · call) (.binary call)

/-- Look at the event afterwards: no result when it is set. -/
def heeding {α : Type} (task : Exchange α) : Exchange (Option α) := do
  let result ← task
  let cancelled ← check w
  pure (if cancelled then none else some result)

def watched (args : List Text) : Exchange (Option CommandResult) := heeding w (command w ⟨args, true⟩)

def watchedBinary (args : List Text) : Exchange (Option (CommandResult × Bytes)) :=
  heeding w (binaryCommand w ⟨args, true⟩)

def apkExists : Exchange Bool := look w.pathExists .found

def apkIsFile : Exchange Bool := look w.isFile .found

def apkSize : Exchange Nat := ask w.size .size

def apkBytes : Exchange Bytes := ask w.bytes .bytes

/-- Wait for the installation lock, unless the event is set first. -/
def acquire : Nat → Exchange Bool
  | 0 => do
    let cancelled ← check w
    pure !cancelled
  | tries + 1 => do
    let cancelled ← check w
    if cancelled = true then pure false
    else do
      wait
      acquire tries

def installationGuard : Exchange Bool := do
  let tries ← read w.busy
  acquire w tries

/-- Sleep in short steps until a deadline, or until the event is set. -/
def pause : Nat → Exchange Bool
  | 0 => pure false
  | steps + 1 => do
    let cancelled ← check w
    if cancelled = true then pure true
    else do
      wait
      pause steps

end

/-- What is more than a look or a wait. -/
def Event.deals : Event → Bool
  | .check _ | .wait | .found _ => false
  | _ => true

/-- The last things the log tells of, the latest first, but for looks and waits. -/
def Ends (events : List Event) (log : Log) : Prop := events <+: log.filter Event.deals

/-- The command that an event tells of. -/
def Event.call? : Event → Option Call
  | .adb call _ | .binary call _ | .unstarted call => some call
  | _ => none

/-- Its command, if it has one, is of a kind. -/
def Event.Only (K : List Text → Prop) (e : Event) : Prop := ∀ call, e.call? = some call → K call.args

/-- The predicate holds on while the commands are of a kind. -/
def Stable (K : List Text → Prop) (P : Log → Prop) : Prop := ∀ log e, e.Only K → P log → P (e :: log)

variable {w : World} {K K' : List Text → Prop} {P : Log → Prop} {events : List Event} {log : Log} {e : Event}

theorem Stable.mono (h : Stable K P) (hK : ∀ args, K' args → K args) : Stable K' P :=
  fun log e he => h log e (fun call hcall => hK call.args (he call hcall))

theorem only_of_call (he : e.call? = none) : e.Only K := by
  intro call hcall
  rw [he] at hcall
  cases hcall

theorem Ends.quiet (h : Ends events log) (he : e.deals = false) : Ends events (e :: log) := by
  rw [Ends, List.filter_cons_of_neg (by simp [he])]
  exact h

theorem Ends.deal (h : Ends events log) (he : e.deals = true) : Ends (e :: events) (e :: log) := by
  rw [Ends, List.filter_cons_of_pos he, List.cons_prefix_cons]
  exact ⟨rfl, h⟩

theorem Ends.nil (log : Log) : Ends [] log := List.nil_prefix

theorem Ends.mem (h : Ends events log) (he : e ∈ events) : e ∈ log := List.mem_of_mem_filter (h.subset he)

/-- What a look at the event tells: it is set, or it was not set up to then. -/
structure Saw (w : World) (P : Log → Prop) (events : List Event) (set : Bool) (log : Log) : Prop where
  keeps : P log
  ends : Ends events log
  isSet : set = true → w.isSet log = true
  notSet : set = false → ∃ past, log = .check false :: past ∧ w.isSet past = false

theorem check_meets (hP : Stable K P) {E : Raised → Log → Prop} :
    Meets (fun log => P log ∧ Ends events log) (check w) (Saw w P events) E := by
  refine Meets.look fun log hlog => ⟨hP log _ (only_of_call rfl) hlog.1, hlog.2.quiet rfl, ?_, ?_⟩
  · exact w.sticky log _
  · intro hset
    exact ⟨log, by rw [hset], hset⟩

/-- No answer: the event is set. An answer: the command ran, and nothing since. -/
structure Heard {α : Type} (w : World) (P : Log → Prop) (events : List Event) (event : α → Event)
    (answer : Option α) (log : Log) : Prop where
  keeps : P log
  isSet : answer = none → w.isSet log = true
  ends : ∀ a, answer = some a → Ends (event a :: events) log

theorem start_meets {α : Type} {Q : Log → Prop} {call : Call}
    (hcall : ∀ log e, Q log → e.call? = some call → P (e :: log)) {unstarted : α}
    {answer : Log → Except Raised α} {event : Except Raised α → Event} (hevent : ∀ r, (event r).call? = some call)
    (hdeals : ∀ r, (event r).deals = true) :
    Meets (fun log => Q log ∧ Ends events log) (start w call unstarted answer event)
      (fun a log => P log ∧ (w.isSet log = true ∨ Ends (event (.ok a) :: events) log)) (fun _ log => P log) := by
  intro log hlog
  by_cases hset : (call.watched && w.isSet log) = true
  · rw [start, if_pos hset]
    refine ⟨hcall log _ hlog.1 rfl, .inl (w.sticky log _ ?_)⟩
    rw [Bool.and_eq_true] at hset
    exact hset.2
  · rw [start, if_neg hset]
    have hask : Meets (fun log => Q log ∧ Ends events log) (ask answer event)
        (fun a log => P log ∧ Ends (event (.ok a) :: events) log) (fun _ log => P log) :=
      Meets.ask (fun log a hlog _ => ⟨hcall log _ hlog.1 (hevent _), hlog.2.deal (hdeals _)⟩)
        (fun log _ hlog _ => hcall log _ hlog.1 (hevent _))
    exact (hask log hlog).mono (fun a t h => ⟨h.1, .inr h.2⟩) (fun _ _ h => h)

theorem start_keeps {α : Type} {Q : Log → Prop} {call : Call}
    (hcall : ∀ log e, Q log → e.call? = some call → P (e :: log)) {unstarted : α}
    {answer : Log → Except Raised α} {event : Except Raised α → Event} (hevent : ∀ r, (event r).call? = some call)
    (hdeals : ∀ r, (event r).deals = true) :
    Meets Q (start w call unstarted answer event)
      (fun a log => P log ∧ (w.isSet log = true ∨ Ends [event (.ok a)] log)) (fun _ log => P log) :=
  (start_meets hcall hevent hdeals).mono (fun log hlog => ⟨hlog, Ends.nil log⟩) (fun _ _ h => h) (fun _ _ h => h)

theorem heeding_meets {α : Type} (hP : Stable K P) {task : Exchange α} {event : α → Event} {Q : Log → Prop}
    (htask : Meets Q task (fun a log => P log ∧ (w.isSet log = true ∨ Ends (event a :: events) log))
      (fun _ log => P log)) :
    Meets Q (heeding w task) (Heard w P events event) (fun _ log => P log) := by
  refine Meets.bind htask fun a => Meets.bind (Q := fun set log => P log ∧
    (set = true → w.isSet log = true) ∧ (set = false → Ends (event a :: events) log)) ?_ ?_
  · refine Meets.look fun log hlog => ⟨hP log _ (only_of_call rfl) hlog.1, w.sticky log _, fun hset => ?_⟩
    have hends := hlog.2.resolve_left (by simp [hset])
    exact hends.quiet rfl
  · intro set
    refine Meets.pure fun log hlog => ⟨hlog.1, fun hnone => hlog.2.1 ?_, fun b hb => ?_⟩
    · by_contra hset
      rw [if_neg hset] at hnone
      cases hnone
    · cases set with
      | true => cases hb
      | false =>
        rw [← Option.some.inj hb]
        exact hlog.2.2 rfl

theorem Stable.call (hP : Stable K P) {call : Call} (hcall : K call.args) :
    ∀ log e, P log → e.call? = some call → P (e :: log) := by
  intro log e hlog he
  refine hP log e (fun call' hcall' => ?_) hlog
  rw [he] at hcall'
  rw [← Option.some.inj hcall']
  exact hcall

theorem watched_meets (hP : Stable K P) {args : List Text} (hargs : K args) :
    Meets (fun log => P log ∧ Ends events log) (watched w args)
      (Heard w P events (fun r => .adb ⟨args, true⟩ (.ok r))) (fun _ log => P log) :=
  heeding_meets hP (start_meets (hP.call hargs) (fun _ => rfl) (fun _ => rfl))

theorem watchedBinary_meets (hP : Stable K P) {args : List Text} (hargs : K args) :
    Meets (fun log => P log ∧ Ends events log) (watchedBinary w args)
      (Heard w P events (fun r => .binary ⟨args, true⟩ (.ok r))) (fun _ log => P log) :=
  heeding_meets hP (start_meets (hP.call hargs) (fun _ => rfl) (fun _ => rfl))

theorem apkIsFile_meets (hP : Stable K P) {E : Raised → Log → Prop} :
    Meets (fun log => P log ∧ Ends events log) (apkIsFile w)
      (fun _ log => P log ∧ Ends events log) E :=
  Meets.look fun log hlog => ⟨hP log _ (only_of_call rfl) hlog.1, hlog.2.quiet rfl⟩

theorem apkSize_meets (hP : Stable K P) :
    Meets (fun log => P log ∧ Ends events log) (apkSize w)
      (fun n log => P log ∧ Ends (.size (.ok n) :: events) log) (fun _ log => P log) :=
  Meets.ask (fun log _ hlog _ => ⟨hP log _ (only_of_call rfl) hlog.1, hlog.2.deal rfl⟩)
    (fun log _ hlog _ => hP log _ (only_of_call rfl) hlog.1)

theorem apkBytes_meets (hP : Stable K P) :
    Meets (fun log => P log ∧ Ends events log) (apkBytes w)
      (fun bytes log => P log ∧ Ends (.bytes (.ok bytes) :: events) log) (fun _ log => P log) :=
  Meets.ask (fun log _ hlog _ => ⟨hP log _ (only_of_call rfl) hlog.1, hlog.2.deal rfl⟩)
    (fun log _ hlog _ => hP log _ (only_of_call rfl) hlog.1)

theorem check_keeps (hP : Stable K P) {E : Raised → Log → Prop} :
    Meets P (check w) (fun set log => P log ∧ (set = true → w.isSet log = true)) E :=
  Meets.look fun log hlog => ⟨hP log _ (only_of_call rfl) hlog, w.sticky log _⟩

theorem wait_keeps (hP : Stable K P) {E : Raised → Log → Prop} : Meets P wait (fun _ => P) E :=
  Meets.look fun log hlog => hP log _ (only_of_call rfl) hlog

theorem acquire_keeps (hP : Stable K P) {E : Raised → Log → Prop} (tries : Nat) :
    Meets P (acquire w tries) (fun _ => P) E := by
  induction tries with
  | zero => exact Meets.bind (check_keeps hP) fun set => Meets.pure fun log hlog => hlog.1
  | succ tries ih =>
    refine Meets.bind (check_keeps hP) fun set => Meets.ite (fun _ => Meets.pure fun log hlog => hlog.1) fun _ => ?_
    exact (Meets.bind (wait_keeps hP) fun _ => ih).mono (fun log hlog => hlog.1) (fun _ _ h => h) (fun _ _ h => h)

theorem installationGuard_keeps (hP : Stable K P) {E : Raised → Log → Prop} :
    Meets P (installationGuard w) (fun _ => P) E :=
  Meets.bind (Q := fun _ => P) (Meets.read fun _ hlog => hlog) fun tries => acquire_keeps hP tries

theorem pause_keeps (hP : Stable K P) {E : Raised → Log → Prop} (steps : Nat) :
    Meets P (pause w steps) (fun _ => P) E := by
  induction steps with
  | zero => exact Meets.pure fun _ hlog => hlog
  | succ steps ih =>
    refine Meets.bind (check_keeps hP) fun set => Meets.ite (fun _ => Meets.pure fun log hlog => hlog.1) fun _ => ?_
    exact (Meets.bind (wait_keeps hP) fun _ => ih).mono (fun log hlog => hlog.1) (fun _ _ h => h) (fun _ _ h => h)

end OpenAdb.Acbridge.Device
