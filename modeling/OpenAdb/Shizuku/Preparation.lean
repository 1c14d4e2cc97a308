import OpenAdb.Shizuku.StoredRequest

namespace OpenAdb.Shizuku.Preparation

open OpenAdb.Lib OpenAdb.Lib.PyText OpenAdb.Lib.Encoding OpenAdb.Lib.JavaText
open OpenAdb.Shizuku.Request OpenAdb.Shizuku.Request.Service OpenAdb.Shizuku.StoredRequest

structure CommandResult where
  exitCode : Option Int
  stdout : Text
  stderr : Text
  success : Bool
  status : Text
  errorType : Text
  deriving DecidableEq

def rejected (status stderr errorType : Text) : CommandResult :=
  ⟨none, [], stderr, false, status, errorType⟩

def cancelledResult : CommandResult :=
  rejected "Shizuku command cancelled.".toList [] "cancelled".toList

structure ShizukuState where
  state : Text
  running : Bool
  permission : Text
  uid : Option Int
  message : Text

def ShizukuState.ready (s : ShizukuState) : Bool :=
  s.state = "ready".toList && s.running && s.permission = "granted".toList &&
    (s.uid = some 0 || s.uid = some 2000)

/-- The exit statuses of the commands that store a request, and whether the
transport carried the payload and the status. -/
structure RequestScript where
  umask : Nat
  rm : Nat
  cat : Nat
  chmod : Nat
  delivered : Bool
  stderr : Text
  status : Text

/-- A list joined by semicolons ends with the status of its last command. -/
def RequestScript.exitStatus (script : RequestScript) : Nat := script.chmod

def writeRequest (script : RequestScript) : CommandResult :=
  { exitCode := some script.exitStatus
    stdout := []
    stderr := script.stderr
    success := script.delivered && script.exitStatus = 0
    status := script.status
    errorType := [] }

/-- What a call meets before it starts the activity: its cancel event where it
is read, the state of the service and the results of its commands. -/
structure Findings where
  cancelledAtEntry : Bool
  currentState : ShizukuState
  cancelledAfterState : Bool
  request : RequestScript
  cancelledAfterRequest : Bool
  statusPrepare : CommandResult
  cancelledAfterStatus : Bool

structure Prepared where
  payload : Bytes
  statusPrepareWarning : Text

def orElse (first second : Text) : Text := if first = [] then second else first

def verifiedUid (expectedUid : Option Int) : Option Nat :=
  if expectedUid = some 0 then some 0 else if expectedUid = some 2000 then some 2000 else none

def unavailable (state : ShizukuState) : CommandResult :=
  let detail := orElse state.message "Shizuku is unavailable.".toList
  rejected detail detail
    (if state.state = "permission_required".toList ∨ state.state = "permission_denied".toList then
      "shizuku_permission_required".toList
    else "shizuku_unavailable".toList)

def identityChanged : Text :=
  ("Shizuku identity changed after access was checked. Review the new " ++
    "UID and confirm the command again.").toList

def statusPrepareWarning (statusPrepare : CommandResult) : Text :=
  if statusPrepare.success then []
  else orElse statusPrepare.stderr (orElse statusPrepare.status
    "Unable to clear the legacy Shizuku status channel.".toList)

def prepareExecution (arguments : List Text) (expectedUid : Option Int) (found : Findings) :
    Except CommandResult Prepared :=
  if found.cancelledAtEntry then .error cancelledResult
  else match verifiedUid expectedUid with
  | none => .error (rejected "Check Shizuku access before running a command.".toList
      "A verified Shizuku UID is required before command execution.".toList
      "shizuku_identity_unverified".toList)
  | some uid =>
    let validationError := validateArguments arguments uid
    if validationError ≠ [] then
      .error (rejected validationError validationError "invalid_command".toList)
    else if found.cancelledAfterState then .error cancelledResult
    else if !found.currentState.ready then .error (unavailable found.currentState)
    else if found.currentState.uid ≠ expectedUid then
      .error (rejected identityChanged identityChanged "shizuku_identity_changed".toList)
    else
      let payload := requestPayload arguments uid
      let prepare := writeRequest found.request
      if Request.maxRequestBytes < payload.length then
        .error (rejected "Shizuku request exceeds the 128 KiB encoded safety limit.".toList
          "Shizuku request exceeds the 128 KiB encoded safety limit.".toList
          "invalid_command".toList)
      else if found.cancelledAfterRequest then .error cancelledResult
      else if !prepare.success then
        let detail := orElse prepare.stderr
          (orElse prepare.status "Unable to prepare the Shizuku request.".toList)
        .error (rejected detail detail "shizuku_request_failed".toList)
      else if found.cancelledAfterStatus then .error cancelledResult
      else .ok ⟨payload, statusPrepareWarning found.statusPrepare⟩

/-- No check before the start of the activity stops the call. -/
structure Proceeds (uid : Nat) (found : Findings) : Prop where
  atEntry : found.cancelledAtEntry = false
  afterState : found.cancelledAfterState = false
  ready : found.currentState.ready = true
  uid : found.currentState.uid = some (uid : Int)
  afterRequest : found.cancelledAfterRequest = false
  delivered : found.request.delivered = true
  chmod : found.request.chmod = 0
  afterStatus : found.cancelledAfterStatus = false

variable {arguments : List Text} {uid : Nat} {found : Findings}

theorem verifiedUid_of_accepted (h : uid = 0 ∨ uid = 2000) :
    verifiedUid (some (uid : Int)) = some uid := by
  obtain rfl | rfl := h <;> rfl

theorem prepareExecution_ok (hvalid : validateArguments arguments uid = []) :
    (∃ prepared, prepareExecution arguments (some (uid : Int)) found = .ok prepared) ↔
      Proceeds uid found := by
  have haccepted := accepted_of_valid hvalid
  have hsize : ¬Request.maxRequestBytes < (requestPayload arguments uid).length := by
    have := haccepted.bytes
    omega
  constructor
  · intro h
    obtain ⟨prepared, h⟩ := h
    simp only [prepareExecution, verifiedUid_of_accepted haccepted.uid, hvalid, ne_eq,
      not_true_eq_false, if_false, hsize] at h
    split_ifs at h with hentry hstate hready huid hrequest hprepare hstatus
    have hsuccess : (writeRequest found.request).success = true := by simpa using hprepare
    have hwritten := Bool.and_eq_true_iff.mp hsuccess
    exact ⟨Bool.eq_false_iff.mpr hentry, Bool.eq_false_iff.mpr hstate, by simpa using hready,
      huid, Bool.eq_false_iff.mpr hrequest, hwritten.1, of_decide_eq_true hwritten.2, Bool.eq_false_iff.mpr hstatus⟩
  · intro h
    have hprepare : (writeRequest found.request).success = true := by
      simp [writeRequest, RequestScript.exitStatus, h.delivered, h.chmod]
    refine ⟨⟨requestPayload arguments uid, statusPrepareWarning found.statusPrepare⟩, ?_⟩
    simp only [prepareExecution, verifiedUid_of_accepted haccepted.uid, hvalid, ne_eq,
      not_true_eq_false, if_false, hsize, h.atEntry, h.afterState, h.ready, h.uid, h.afterRequest,
      hprepare, h.afterStatus, Bool.not_true, Bool.false_eq_true]

theorem take_requestPayload (arguments : List Text) (uid n : Nat) :
    (requestPayload arguments uid).take n = utf8 ((requestText arguments uid).take n) := by
  have hascii := requestText_ascii arguments uid
  rw [requestPayload, utf8_ascii hascii, utf8_ascii (fun c hc => hascii c (List.mem_of_mem_take hc)),
    List.map_take]

theorem readRequest_cut (decoder : Utf8Decoder) {owner n : Nat} {chunks : List Bytes}
    (haccepted : Accepted arguments uid) (howner : owner = 0 ∨ owner = 2000)
    (hchunks : chunks.flatten = (requestPayload arguments uid).take n) :
    readRequest decoder ⟨some ⟨true, owner, true⟩, ((requestPayload arguments uid).take n).length,
      chunks.map some⟩ = parseRequest ((requestText arguments uid).take n) := by
  have hbytes := haccepted.bytes
  rw [take_requestPayload] at hchunks ⊢
  by_cases hempty : (requestText arguments uid).take n = []
  · simp [hempty, readRequest, utf8, parseRequest, readLine]
  · refine readRequest_stored decoder howner hempty ?_ hchunks
    rw [← take_requestPayload, List.length_take]
    exact (Nat.min_le_right _ _).trans hbytes

/-- A request stored in part is stopped, rejected or read as it was exactly when
the call does not go on after a damaging cut. -/
theorem partial_request_harmless (decoder : Utf8Decoder) (arguments : List Text)
    (uid owner n : Nat) (chunks : List Bytes) (found : Findings)
    (hvalid : validateArguments arguments uid = []) (howner : owner = 0 ∨ owner = 2000)
    (hproper : n < (requestPayload arguments uid).length)
    (hchunks : chunks.flatten = (requestPayload arguments uid).take n) :
    let stored : RequestFile := ⟨some ⟨true, owner, true⟩, n, chunks.map some⟩
    ((∃ result, prepareExecution arguments (some (uid : Int)) found = .error result) ∨
        readRequest decoder stored = none ∨ readRequest decoder stored = some ⟨uid, arguments⟩) ↔
      ¬(Proceeds uid found ∧ DamagingCut arguments uid n) := by
  intro stored
  have haccepted := accepted_of_valid hvalid
  have hread := readRequest_cut decoder haccepted howner hchunks
  rw [List.length_take, Nat.min_eq_left (Nat.le_of_lt hproper)] at hread
  rw [length_requestPayload] at hproper
  rw [hread, parseRequest_cut haccepted hproper, ← prepareExecution_ok hvalid]
  cases prepareExecution arguments (some (uid : Int)) found with
  | error result => simp
  | ok prepared => simp

/-- A call on a ready service whose request was cut while it was stored. -/
def cutWhileStored : Findings where
  cancelledAtEntry := false
  currentState := ⟨"ready".toList, true, "granted".toList, some 2000, []⟩
  cancelledAfterState := false
  request := ⟨0, 0, 1, 0, true, [], []⟩
  cancelledAfterRequest := false
  statusPrepare := ⟨some 0, [], [], true, [], []⟩
  cancelledAfterStatus := false

def script : Text := ['r', 'm', ' ', '-', 'r', ' ', '/', 'a', '/', 'b']

def removal : List Text := [['s', 'h'], ['-', 'c']] ++ [script]

theorem partial_request_harmless_id :
    ((∃ result, prepareExecution [['i', 'd']] (some 2000) cutWhileStored = .error result) ∨
        readRequest Utf8Decoder.replacing ⟨some ⟨true, 2000, true⟩, 30,
          [(requestPayload [['i', 'd']] 2000).take 30].map some⟩ = none ∨
        readRequest Utf8Decoder.replacing ⟨some ⟨true, 2000, true⟩, 30,
          [(requestPayload [['i', 'd']] 2000).take 30].map some⟩ = some ⟨2000, [['i', 'd']]⟩) ↔
      ¬(Proceeds 2000 cutWhileStored ∧ DamagingCut [['i', 'd']] 2000 30) :=
  partial_request_harmless Utf8Decoder.replacing [['i', 'd']] 2000 2000 30
    [(requestPayload [['i', 'd']] 2000).take 30] cutWhileStored (by decide +kernel) (.inr rfl)
    (by decide +kernel) (by simp)

/-- `cat` fails in the middle of `rm -r /a/b`, and the service runs `rm -r /a`. -/
theorem partial_request_runs :
    validateArguments removal 2000 = [] ∧
      (∃ prepared, prepareExecution removal (some 2000) cutWhileStored = .ok prepared) ∧
      102 < (requestPayload removal 2000).length ∧
      readRequest Utf8Decoder.replacing ⟨some ⟨true, 2000, true⟩, 102,
        [(requestPayload removal 2000).take 102].map some⟩ =
        some ⟨2000, [['s', 'h'], ['-', 'c'], ['r', 'm', ' ', '-', 'r', ' ', '/', 'a']]⟩ := by
  have hvalid : validateArguments removal 2000 = [] := by decide +kernel
  have hlength : 102 < (requestPayload removal 2000).length := by decide +kernel
  have hproceeds : Proceeds 2000 cutWhileStored := ⟨rfl, rfl, by decide, rfl, rfl, rfl, rfl, rfl⟩
  have hcut : (requestText removal 2000).take 102 =
      unlines (requestLines removal 2000).dropLast ++ (argumentLine script).take (8 + 11) := by
    decide +kernel
  have hstrict : strictUtf8 ((utf8 script).take 8) =
      some ['r', 'm', ' ', '-', 'r', ' ', '/', 'a'] :=
    strictUtf8_utf8 ['r', 'm', ' ', '-', 'r', ' ', '/', 'a']
  have haccepted : Accepted removal 2000 := accepted_of_valid hvalid
  have hlast := parseRequest_last (show Accepted ([['s', 'h'], ['-', 'c']] ++ [script]) 2000 from
    haccepted) (8 + 11)
  have hchunks : [(requestPayload removal 2000).take 102].flatten =
      (requestPayload removal 2000).take 102 := by simp
  have hread := readRequest_cut Utf8Decoder.replacing haccepted (.inr rfl) hchunks
  have hsize : ((requestPayload removal 2000).take 102).length = 102 := by
    rw [List.length_take, Nat.min_eq_left (Nat.le_of_lt hlength)]
  refine ⟨hvalid, (prepareExecution_ok hvalid).mpr hproceeds, hlength, ?_⟩
  rw [hsize] at hread
  rw [hread, hcut]
  refine hlast.trans ?_
  rw [decodeArgument_cut (by decide) (by decide +kernel) (by decide +kernel)]
  exact congrArg (Option.map _) hstrict

end OpenAdb.Shizuku.Preparation
