import OpenAdb.P2p.Session

namespace OpenAdb.P2p.Forwards

open OpenAdb.Lib.PyText OpenAdb.Lib.PyLines
open OpenAdb.Acbridge.Device (RequestId)
open OpenAdb.Commands.Results (CommandResult)
open OpenAdb.Commands.Scopes
  (Sensitive scopedSensitiveValues mem_scopedLogCommand not_infix_redactRuntimeText separator redactionLabels)
open OpenAdb.P2p.Session

/-- The forward commands, each with the request id of its remote spec; the latest comes first. -/
def created (log : Log) : List (Text × Reply) := log.filterMap fun
  | .adb (.createForward request_id) reply => some (request_id, reply)
  | _ => none

def ports (log : Log) : List Nat := log.filterMap fun
  | .recorded port => some port
  | _ => none

def listings (log : Log) : List Reply := log.filterMap fun
  | .adb .listForwards reply => some reply
  | _ => none

def removals (log : Log) : List (Text × Reply) := log.filterMap fun
  | .adb (.removeForward local_spec) reply => some (local_spec, reply)
  | _ => none

def closed (log : Log) : List Nat := log.filterMap fun
  | .closed channel => some channel
  | _ => none

section Claim

variable (w : World)

/-- What the runner hands on of the output of the forward command. -/
def forwardOutput (request_id : Text) (result : CommandResult) : Text :=
  (scrubbed w "create control forward" request_id result).stdout

/-- The port in the reply of the forward command, if it has succeeded and has one. -/
def tunnelPort (request_id : Text) : Reply → Option Nat
  | .ok result =>
    if result.success then (parseForwardPort w.runner.unicode (forwardOutput w request_id result)).toOption
    else none
  | .error _ => none

/-- Every listed spec was asked to be removed, in order, until a request raised. -/
def RemovedAll (local_specs : List Text) (removed : List (Text × Reply)) : Prop :=
  removed.map Prod.fst = local_specs ∨
    removed.map Prod.fst <+: local_specs ∧ ∃ last ∈ removed.getLast?, ∃ e, last.2 = .error e

/-- The forwards were listed, and those that adb showed for the remote spec were asked to be removed. -/
def RemovedBySpec (request_id : Text) (log : Log) : Prop :=
  ∃ listed, listings log = [listed] ∧ ∀ result, listed = .ok result → result.success = true →
    RemovedAll (localSpecs w.runner.unicode (remoteSpec request_id) result.stdout) (removals log).reverse

/-- One removal for a port, the removal by remote spec without one, none where no forward was created. -/
def ForwardReleased (log : Log) : Prop :=
  match created log with
  | [] => ports log = [] ∧ removals log = [] ∧ listings log = []
  | [(request_id, reply)] =>
    match tunnelPort w request_id reply with
    | some port => ports log = [port] ∧ (removals log).map Prod.fst = [tcpSpec port] ∧ listings log = []
    | none => ports log = [] ∧ RemovedBySpec w request_id log
  | _ => False

/-- The request id is not in the table, which is as it was before the call, and the channels and the
forward are released. -/
structure Released (handles : Text → Option Handle) (p : Process) : Prop where
  handles : p.handles = handles
  absent : ∀ request_id reply, (request_id, reply) ∈ created p.log → p.handles request_id = none
  channels : ∀ channel ∈ opened p.log, channel ∈ closed p.log
  forward : ForwardReleased w p.log

def IsPort (u : UnicodeData) (value : Text) : Prop :=
  isdecimal u value = true ∧ value.length ≤ 4300 ∧ 1 ≤ intOfDigits u value ∧ intOfDigits u value ≤ 65535

/-- From the last line on, a number of more than 4300 digits comes before any port. -/
def Overlong (u : UnicodeData) (output : Text) : Prop :=
  ∃ before value after, (splitlines output).reverse.map (strip u) = before ++ value :: after ∧
    isdecimal u value = true ∧ 4300 < value.length ∧ ∀ v ∈ before, ¬IsPort u v

def Unreadable (request_id : Text) (reply : Reply) : Prop :=
  ∃ result, reply = .ok result ∧ result.success = true ∧
    Overlong w.runner.unicode (forwardOutput w request_id result)

/-- Where the forward command gives no port, its output can be read to the end, and adb lists no
forward of the remote spec. -/
def NothingToRemove (log : Log) : Prop :=
  ∀ request_id reply, (request_id, reply) ∈ created log → tunnelPort w request_id reply = none →
    ¬Unreadable w request_id reply ∧ ∀ result, .ok result ∈ listings log → result.success = true →
      localSpecs w.runner.unicode (remoteSpec request_id) result.stdout = []

end Claim

section Parsing

variable {u : UnicodeData}

theorem forwardPortFrom_overlong_iff (lines : List Text) :
    forwardPortFrom u lines = .error tooManyDigits ↔
      ∃ before value after, lines.map (strip u) = before ++ value :: after ∧
        isdecimal u value = true ∧ 4300 < value.length ∧ ∀ v ∈ before, ¬IsPort u v := by
  induction lines with
  | nil =>
    refine iff_of_false (fun h => ?_) ?_
    · cases h
    · intro h
      obtain ⟨before, value, after, h, -⟩ := h
      exact List.cons_ne_nil _ _ (List.append_eq_nil_iff.mp h.symm).2
  | cons line lines ih =>
    have hlater (hport : ¬IsPort u (strip u line)) (hshort : ¬4300 < (strip u line).length ∨
        isdecimal u (strip u line) = false) :
        (∃ before value after, lines.map (strip u) = before ++ value :: after ∧
          isdecimal u value = true ∧ 4300 < value.length ∧ ∀ v ∈ before, ¬IsPort u v) ↔
        ∃ before value after, (line :: lines).map (strip u) = before ++ value :: after ∧
          isdecimal u value = true ∧ 4300 < value.length ∧ ∀ v ∈ before, ¬IsPort u v := by
      constructor
      · intro h
        obtain ⟨before, value, after, hlines, hdecimal, hlong, hbefore⟩ := h
        refine ⟨strip u line :: before, value, after, ?_, hdecimal, hlong, ?_⟩
        · rw [List.map_cons, hlines, List.cons_append]
        · intro v hv
          obtain rfl | hv := List.mem_cons.mp hv
          · exact hport
          · exact hbefore v hv
      · intro h
        obtain ⟨before, value, after, hlines, hdecimal, hlong, hbefore⟩ := h
        cases before with
        | nil =>
          have hhead : strip u line = value := (List.cons.inj hlines).1
          rw [hhead] at hshort
          obtain hshort | hshort := hshort
          · exact absurd hlong hshort
          · rw [hdecimal] at hshort
            cases hshort
        | cons first before =>
          exact ⟨before, value, after, (List.cons.inj hlines).2, hdecimal, hlong,
            fun v hv => hbefore v (List.mem_cons_of_mem first hv)⟩
    rw [forwardPortFrom]
    split_ifs with hdecimal hlong hport
    · exact iff_of_true rfl ⟨[], strip u line, lines.map (strip u), rfl, hdecimal, hlong, fun _ h => by cases h⟩
    · refine iff_of_false (fun h => by cases h) ?_
      intro h
      obtain ⟨before, value, after, hlines, -, hvalue, hbefore⟩ := h
      cases before with
      | nil => exact hlong ((List.cons.inj hlines).1 ▸ hvalue)
      | cons first before =>
        refine hbefore first List.mem_cons_self ?_
        rw [← (List.cons.inj hlines).1]
        exact ⟨hdecimal, Nat.le_of_not_lt hlong, hport⟩
    · exact ih.trans (hlater (fun h => hport h.2.2) (.inl hlong))
    · exact ih.trans (hlater (fun h => hdecimal h.1) (.inr (Bool.eq_false_iff.mpr hdecimal)))

theorem parseForwardPort_overlong_iff {output : Text} :
    parseForwardPort u output = .error tooManyDigits ↔ Overlong u output :=
  forwardPortFrom_overlong_iff _

theorem forwardPortFrom_error {lines : List Text} {e : Fault} (h : forwardPortFrom u lines = .error e) :
    e = noForwardPort ∨ e = tooManyDigits := by
  induction lines with
  | nil =>
    cases h
    exact .inl rfl
  | cons line lines ih =>
    rw [forwardPortFrom] at h
    split_ifs at h
    · cases h
      exact .inr rfl
    · exact ih h
    · exact ih h

/-- A text without the request id lists no forward of its remote spec. -/
theorem localSpecs_eq_nil {request_id stdout : Text} (h : ¬request_id <:+: stdout) :
    localSpecs u (remoteSpec request_id) stdout = [] := by
  have hnone : ∀ line ∈ splitlines stdout, localSpec u (remoteSpec request_id) line = none := by
    intro line hline
    rw [localSpec, if_neg]
    intro hfields
    have hspec : remoteSpec request_id <:+: line :=
      infix_of_mem_splitWords (List.mem_of_getLast? hfields.2)
    have hstdout : line <:+: stdout := infix_of_mem_splitlinesFrom hline
    exact h (((List.suffix_append _ request_id).isInfix.trans hspec).trans hstdout)
  rw [localSpecs, List.filterMap_eq_nil_iff.mpr hnone]
  rfl

end Parsing

section Scrubbing

theorem sensitive_requestId (request_id : RequestId) : Sensitive request_id.text := by
  have hvalid := request_id.valid
  rw [OpenAdb.Acbridge.Device.isRequestId, Bool.and_eq_true, decide_eq_true_eq, List.all_eq_true] at hvalid
  obtain ⟨hlength, hhex⟩ := hvalid
  refine ⟨?_, ?_, ?_⟩
  · intro h
    rw [h] at hlength
    cases hlength
  · intro c hc
    have hword : c.isAlphanum = true := by
      have h := hhex c hc
      rw [OpenAdb.Acbridge.Device.isHex, Bool.or_eq_true, Bool.and_eq_true, decide_eq_true_eq,
        decide_eq_true_eq] at h
      change ((c.isUpper || c.isLower) || c.isDigit) = true
      rw [Bool.or_eq_true, Bool.or_eq_true]
      obtain h | h := h
      · exact .inr h
      · refine .inl (.inr ?_)
        change (decide (97 ≤ c.val) && decide (c.val ≤ 122)) = true
        rw [Bool.and_eq_true, decide_eq_true_eq, decide_eq_true_eq]
        exact ⟨h.1, h.2.trans (by decide)⟩
    rw [separator, hword]
    simp
  · intro label hlabel hinfix
    have hshort : ∀ label ∈ redactionLabels, label.length < 32 := by decide
    have hle := hinfix.length_le
    have hlt := hshort label hlabel
    omega

variable (w : World)

/-- The runner leaves no trace of the request id in what it hands on. -/
theorem not_infix_scrubbed (operation : String) (request_id : RequestId) (result : CommandResult) :
    ¬request_id.text <:+: (scrubbed w operation request_id.text result).stdout := by
  have hmem : request_id.text ∈ scopedSensitiveValues (privateAdbLog w operation request_id.text) :=
    (mem_scopedLogCommand _ _).mpr
      (.inr ⟨List.mem_singleton_self _, (sensitive_requestId request_id).nonempty⟩)
  have hopen : (privateAdbLog w operation request_id.text).runner.scope.isNone = false := by
    simp [privateAdbLog, OpenAdb.Commands.Scopes.scopedLogCommand,
      OpenAdb.Commands.Scopes.CommandRunner.runner]
  rw [scrubbed, OpenAdb.Commands.Results.applyScopedLogCommand, hopen]
  exact not_infix_redactRuntimeText (r := privateAdbLog w operation request_id.text)
    (sensitive_requestId request_id) (w.harmless request_id) hmem result.stdout

/-- So the listing never shows the forward that it is searched for. -/
theorem localSpecs_scrubbed (operation : String) (request_id : RequestId) (result : CommandResult) :
    localSpecs w.runner.unicode (remoteSpec request_id.text)
      (scrubbed w operation request_id.text result).stdout = [] :=
  localSpecs_eq_nil (not_infix_scrubbed w operation request_id result)

theorem success_scrubbed (operation : String) (session_id : Text) (result : CommandResult) :
    (scrubbed w operation session_id result).success = result.success := by
  rw [scrubbed, OpenAdb.Commands.Results.applyScopedLogCommand]
  split_ifs
  · rfl
  · rfl

end Scrubbing

end OpenAdb.P2p.Forwards
