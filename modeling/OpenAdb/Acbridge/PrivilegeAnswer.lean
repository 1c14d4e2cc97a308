import OpenAdb.Acbridge.Trust
import OpenAdb.Files.Listing
import OpenAdb.Lib.Base64
import OpenAdb.Lib.Decimals
import OpenAdb.Lib.JavaText
import OpenAdb.Shizuku.Cancellation

namespace OpenAdb.Acbridge.PrivilegeAnswer

open OpenAdb.Lib.PyText OpenAdb.Lib.PyLines OpenAdb.Lib.Encoding OpenAdb.Lib.Base64 OpenAdb.Lib.Decimals
open OpenAdb.Lib.JavaText (trim)
open OpenAdb.Commands.Results (formatInt)
open OpenAdb.Files.Listing (parseInt)
open OpenAdb.Acbridge.Trust (partition statusFields rstripReturn)
open OpenAdb.Shizuku.Cancellation (isValidRequestId)

/-- The character tables with the values of the digits. -/
structure Tables extends Files.Listing.Tables where
  decimal_value : ∀ c : Char, c.isDigit = true → decimal c = some (c.toNat - 48)

def statusHeader : Text := "OPENADB_BRIDGE_PRIVILEGE_STATUS 1".toList

/-- What `complete` is called with. -/
structure Status where
  state : Text
  permission : Text
  uid : Int
  message : Text

/-- How the fixed `su` command went. -/
inductive RootRun
  | failed
  | finished (exitCode : Int) (output : Text) (truncated : Bool)

def rootGranted : Status := ⟨"ready".toList, "granted".toList, 0, "Root permission is ready for OpenADB Bridge.".toList⟩

def rootDenied : Status := ⟨"denied".toList, "denied".toList, -1,
  "Root permission was denied or did not provide UID 0 to OpenADB Bridge.".toList⟩

def rootUnavailable : Status := ⟨"unavailable".toList, "unavailable".toList, -1,
  "OpenADB Bridge could not start a Root permission request.".toList⟩

def requestRootAccess : RootRun → Status
  | .finished exitCode output truncated =>
    if exitCode = 0 ∧ truncated = false ∧ trim output = ['0'] then rootGranted else rootDenied
  | .failed => rootUnavailable

def standardText : Text := "Standard ACBridge access does not require Root or Shizuku permission.".toList

def standardAccess (myUid : Nat) : Status := ⟨"ready".toList, "not_required".toList, myUid, standardText⟩

def rootTimeout : Status := ⟨"timed_out".toList, "unknown".toList, -1,
  "OpenADB Bridge timed out while waiting for its Root permission.".toList⟩

def onDestroy : Status := ⟨"activity_destroyed".toList, "unknown".toList, -1,
  "Android closed the OpenADB Bridge access activity before completion.".toList⟩

def signalActiveRequest : Status := ⟨"cancelled".toList, "unknown".toList, -1,
  "The OpenADB Bridge access request was cancelled.".toList⟩

def unknownBackend : Status := ⟨"invalid_request".toList, "unknown".toList, -1,
  "OpenADB Bridge rejected an unknown access backend.".toList⟩

inductive Backend
  | standard | root
  deriving DecidableEq

def Backend.text : Backend → Text
  | .standard => "standard".toList
  | .root => "root".toList

/-- How a request for this backend can end; `none` is a backend of another name. -/
inductive Completed : Option Backend → Status → Prop
  | invalid : Completed none unknownBackend
  | standard (myUid : Nat) : myUid < 2 ^ 31 → Completed (some .standard) (standardAccess myUid)
  | root (run : RootRun) : Completed (some .root) (requestRootAccess run)
  | timedOut : Completed (some .root) rootTimeout
  | destroyed (backend : Backend) : Completed (some backend) onDestroy
  | cancelled (backend : Backend) : Completed (some backend) signalActiveRequest

def base64Message (message : Text) : Text := encode (utf8 message)

def requestIdLine (id : Text) : Text := "request_id=".toList ++ id

def backendLine (backend : Text) : Text := "backend=".toList ++ backend

def stateLine (state : Text) : Text := "state=".toList ++ state

def permissionLine (permission : Text) : Text := "permission=".toList ++ permission

def uidLine (uid : Text) : Text := "uid=".toList ++ uid

def messageLine (message : Text) : Text := "message_b64=".toList ++ message

/-- The published text; for an invalid identifier nothing is published. -/
def writeStatus (id backend : Text) (status : Status) : Option Text :=
  if isValidRequestId id = false then none
  else some (unlines [statusHeader, requestIdLine id,
    backendLine (if backend = [] then "unknown".toList else backend), stateLine status.state,
    permissionLine status.permission, uidLine (formatInt status.uid),
    messageLine (base64Message status.message)])

structure PrivilegeResult where
  backend : Text
  state : Text
  permission : Text
  uid : Option Int
  message : Text
  requestId : Text
  deriving DecidableEq

def PrivilegeResult.ready (result : PrivilegeResult) : Bool :=
  if result.backend = "root".toList then
    result.state = "ready".toList && result.permission = "granted".toList && result.uid = some 0
  else result.state = "ready".toList && result.permission = "not_required".toList

def privilegeProtocolError (backend requestId message : Text) : PrivilegeResult :=
  ⟨backend, "protocol_error".toList, "unknown".toList, none, message, requestId⟩

def required : List Text := ["request_id".toList, "backend".toList, "state".toList, "permission".toList,
  "uid".toList, "message_b64".toList]

def allowedStates : List Text := ["ready".toList, "denied".toList, "unavailable".toList, "timed_out".toList,
  "error".toList, "activity_destroyed".toList, "cancelled".toList, "invalid_request".toList]

def allowedPermissions : List Text := ["granted".toList, "not_required".toList, "denied".toList,
  "unavailable".toList, "unknown".toList]

/-- The value of a key that is there. -/
def value (fields : List (Text × Text)) (key : Text) : Text :=
  ((fields.find? (fun field => field.1 = key)).map Prod.snd).getD []

def finishedText : Text := "ACBridge privilege request finished.".toList

/-- The message as it is shown. -/
def received (u : Tables) (message : Text) : Text :=
  let stripped := strip u.toUnicodeData message
  if stripped = [] then finishedText else stripped

/-- A UID below zero stands for none. -/
def shownUid (raw : Int) : Option Int := if 0 ≤ raw then some raw else none

def validReady (result : PrivilegeResult) : Bool :=
  result.ready && ((result.backend = "root".toList && result.uid = some 0) ||
    (result.backend = "standard".toList && result.uid.isSome))

def intOf (u : Tables) (s : Text) : Option Int := parseInt u.toUnicodeData (strip u.toUnicodeData s)

/-- What is made of the six fields. -/
def parseFields (u : Tables) (fields : List (Text × Text)) (backend id : Text) : PrivilegeResult :=
  let refused := privilegeProtocolError backend id
  if value fields "request_id".toList ≠ id ∨ value fields "backend".toList ≠ backend then
    refused "ACBridge privilege response did not match the current request.".toList
  else
    let state := value fields "state".toList
    let permission := value fields "permission".toList
    if state ∉ allowedStates ∨ permission ∉ allowedPermissions then
      refused "ACBridge returned an invalid privilege state.".toList
    else match intOf u (value fields "uid".toList) with
      | none => refused "ACBridge returned an invalid Android UID.".toList
      | some raw => match (decodeStrict (value fields "message_b64".toList)).bind strictUtf8 with
        | none => refused "ACBridge returned an invalid privilege message.".toList
        | some message =>
          let result : PrivilegeResult := ⟨backend, state, permission, shownUid raw, received u message, id⟩
          if state = "ready".toList ∧ validReady result = false then
            refused "ACBridge claimed access without the required verified identity.".toList
          else result

def parsePrivilegeResult (u : Tables) (payload backend id : Text) : PrivilegeResult :=
  match (splitlines payload).map rstripReturn with
  | [] => privilegeProtocolError backend id "ACBridge returned an unrecognized privilege protocol header.".toList
  | header :: lines =>
    if header ≠ statusHeader then
      privilegeProtocolError backend id "ACBridge returned an unrecognized privilege protocol header.".toList
    else match statusFields [] lines with
      | none => privilegeProtocolError backend id
          "ACBridge returned malformed or duplicate privilege fields.".toList
      | some fields =>
        if required.all (· ∈ fields.map Prod.fst) = true ∧ (fields.map Prod.fst).all (· ∈ required) = true then
          parseFields u fields backend id
        else privilegeProtocolError backend id
          "ACBridge privilege response fields were incomplete or unexpected.".toList

def fieldLine (field : Text × Text) : Text := field.1 ++ '=' :: field.2

section
variable {key text : Text} {fields added : List (Text × Text)} {lines : List Text}

theorem partition_eq_some {line : Text} (h : partition '=' line = some (key, text)) :
    line = fieldLine (key, text) := by
  rw [partition] at h
  by_cases hin : '=' ∈ line
  · rw [if_pos hin, Option.some.injEq, Prod.mk.injEq] at h
    obtain ⟨hkey, htext⟩ := h
    have hrest : line.dropWhile (· ≠ '=') ≠ [] := by
      rw [ne_eq, List.dropWhile_eq_nil_iff]
      intro hall
      exact absurd (hall '=' hin) (by decide)
    have hhead := List.head_dropWhile_not (· ≠ '=') hrest
    have hcons := List.cons_head_tail hrest
    have hsplit := List.takeWhile_append_dropWhile (p := (· ≠ '=')) (l := line)
    rw [fieldLine, ← hkey, ← htext, ← hsplit]
    have hequals : (line.dropWhile (· ≠ '=')).head hrest = '=' := by simpa using hhead
    rw [hequals] at hcons
    rw [hsplit, hcons, hsplit]
  · rw [if_neg hin] at h
    cases h

theorem partition_fieldLine (hkey : '=' ∉ key) : partition '=' (fieldLine (key, text)) = some (key, text) := by
  have hpos : ∀ c ∈ key, (decide (c ≠ '=')) = true := by
    intro c hc
    rw [decide_eq_true_iff]
    intro heq
    rw [heq] at hc
    exact hkey hc
  rw [partition, fieldLine, if_pos (by simp), List.takeWhile_append_of_pos hpos, List.dropWhile_append_of_pos hpos]
  simp

/-- The lines that are taken are those of the fields, and no key comes twice. -/
theorem statusFields_eq_some (hkeys : (fields.map Prod.fst).Nodup) (h : statusFields fields lines = some added) :
    ∃ new, added = fields ++ new ∧ lines = new.map fieldLine ∧ (added.map Prod.fst).Nodup := by
  induction lines generalizing fields with
  | nil =>
    rw [statusFields, Option.some.injEq] at h
    exact ⟨[], by rw [List.append_nil, h], rfl, h ▸ hkeys⟩
  | cons line lines ih =>
    rw [statusFields] at h
    split at h
    · cases h
    · case _ key text hline =>
      by_cases htwice : fields.any (fun field => field.1 = key) = true
      · rw [if_pos htwice] at h
        cases h
      · rw [if_neg htwice] at h
        have hnew : key ∉ fields.map Prod.fst := by simpa using htwice
        have hnodup : ((fields ++ [(key, text)]).map Prod.fst).Nodup := by
          rw [List.map_append, List.nodup_append]
          refine ⟨hkeys, by simp, ?_⟩
          intro a ha b hb heq
          rw [List.map_singleton, List.mem_singleton] at hb
          rw [heq, hb] at ha
          exact hnew ha
        obtain ⟨new, hadded, hlines, hall⟩ := ih hnodup h
        refine ⟨(key, text) :: new, by rw [hadded, List.append_assoc, List.singleton_append], ?_, hall⟩
        rw [List.map_cons, ← hlines, ← partition_eq_some hline]

theorem statusFields_map {new : List (Text × Text)} (hequals : ∀ field ∈ new, '=' ∉ field.1)
    (hkeys : ((fields ++ new).map Prod.fst).Nodup) :
    statusFields fields (new.map fieldLine) = some (fields ++ new) := by
  induction new generalizing fields with
  | nil => rw [List.map_nil, statusFields, List.append_nil]
  | cons field new ih =>
    obtain ⟨hfield, hnew⟩ := List.forall_mem_cons.mp hequals
    obtain ⟨key, text⟩ := field
    have hfresh : ¬ fields.any (fun other => other.1 = key) = true := by
      intro hany
      obtain ⟨other, hother, heq⟩ := List.any_eq_true.mp hany
      rw [List.map_append, List.nodup_append] at hkeys
      exact hkeys.2.2 _ (List.mem_map_of_mem hother) key (by simp) (by simpa using heq)
    rw [List.append_cons] at hkeys ⊢
    rw [List.map_cons, statusFields, partition_fieldLine hfield]
    simp only
    rw [if_neg hfresh]
    exact ih hnew hkeys

theorem value_of_mem (hkeys : (fields.map Prod.fst).Nodup) (h : (key, text) ∈ fields) :
    value fields key = text := by
  induction fields with
  | nil => cases h
  | cons field fields ih =>
    rw [List.map_cons, List.nodup_cons] at hkeys
    rw [value, List.find?_cons]
    obtain heq | hin := List.mem_cons.mp h
    · rw [← heq]
      simp
    · have hne : field.1 ≠ key := by
        intro heq
        rw [heq] at hkeys
        exact hkeys.1 (List.mem_map_of_mem (f := Prod.fst) hin)
      simp only [hne, decide_false]
      exact ih hkeys.2 hin

theorem fields_eq_map (hkeys : (fields.map Prod.fst).Nodup) :
    fields = (fields.map Prod.fst).map (fun key => (key, value fields key)) := by
  rw [List.map_map]
  have hsame : ∀ field ∈ fields, id field = ((fun key => (key, value fields key)) ∘ Prod.fst) field :=
    fun field hfield => Prod.ext rfl (value_of_mem hkeys hfield).symm
  rw [← List.map_congr_left hsame, List.map_id]

/-- Six distinct keys that are the required ones are these in some order. -/
theorem fields_perm (hkeys : (fields.map Prod.fst).Nodup) (hall : required.all (· ∈ fields.map Prod.fst) = true)
    (honly : (fields.map Prod.fst).all (· ∈ required) = true) :
    fields.Perm (required.map (fun key => (key, value fields key))) := by
  have hperm : (fields.map Prod.fst).Perm required := by
    rw [List.perm_ext_iff_of_nodup hkeys (by decide)]
    intro key
    rw [List.all_eq_true] at hall honly
    exact ⟨fun h => by simpa using honly key h, fun h => by simpa using hall key h⟩
  have hmap := hperm.map (fun key => (key, value fields key))
  rwa [← fields_eq_map hkeys] at hmap

end

section
variable {u : Tables} {backend : Backend} {id : Text}

theorem refused_not_ready (backend id message : Text) : (privilegeProtocolError backend id message).ready = false := by
  simp [PrivilegeResult.ready, privilegeProtocolError]

theorem shownUid_zero {n : Int} (h : shownUid n = some 0) : n = 0 := by
  rw [shownUid] at h
  by_cases hn : 0 ≤ n
  · rw [if_pos hn] at h
    exact Option.some.inj h
  · rw [if_neg hn] at h
    cases h

theorem shownUid_isSome {n : Int} (h : (shownUid n).isSome = true) : 0 ≤ n := by
  rw [shownUid] at h
  by_contra hn
  rw [if_neg hn] at h
  cases h

/-- The identity that a ready answer must show. -/
def Verified (permission : Text) (uid : Int) : Backend → Prop
  | .root => permission = "granted".toList ∧ uid = 0
  | .standard => permission = "not_required".toList ∧ 0 ≤ uid

theorem ready_root {result : PrivilegeResult} (h : result.backend = Backend.root.text) :
    result.ready = true ↔
      result.state = "ready".toList ∧ result.permission = "granted".toList ∧ result.uid = some 0 := by
  have hroot : result.backend = "root".toList := h
  rw [PrivilegeResult.ready, if_pos hroot]
  simp only [Bool.and_eq_true, decide_eq_true_eq, and_assoc]

theorem ready_standard {result : PrivilegeResult} (h : result.backend = Backend.standard.text) :
    result.ready = true ↔ result.state = "ready".toList ∧ result.permission = "not_required".toList := by
  have hroot : result.backend ≠ "root".toList := by
    rw [h]
    decide
  rw [PrivilegeResult.ready, if_neg hroot]
  simp only [Bool.and_eq_true, decide_eq_true_eq]

theorem state_of_ready {result : PrivilegeResult} (h : result.ready = true) : result.state = "ready".toList := by
  rw [PrivilegeResult.ready] at h
  by_cases hroot : result.backend = "root".toList
  · rw [if_pos hroot, Bool.and_eq_true, Bool.and_eq_true, decide_eq_true_eq] at h
    exact h.1.1
  · rw [if_neg hroot, Bool.and_eq_true, decide_eq_true_eq] at h
    exact h.1

theorem validReady_eq_true {result : PrivilegeResult} : validReady result = true ↔ result.ready = true ∧
    (result.backend = Backend.root.text ∧ result.uid = some 0 ∨
      result.backend = Backend.standard.text ∧ result.uid.isSome = true) := by
  simp only [validReady, Bool.and_eq_true, Bool.or_eq_true, decide_eq_true_eq]
  exact Iff.rfl

theorem validReady_root {result : PrivilegeResult} (h : result.backend = Backend.root.text) :
    validReady result = true ↔ result.ready = true := by
  rw [validReady_eq_true]
  exact ⟨And.left, fun hready => ⟨hready, .inl ⟨h, ((ready_root h).mp hready).2.2⟩⟩⟩

theorem validReady_standard {result : PrivilegeResult} (h : result.backend = Backend.standard.text) :
    validReady result = true ↔ result.ready = true ∧ result.uid.isSome = true := by
  have hother : result.backend ≠ Backend.root.text := by
    rw [h]
    decide
  rw [validReady_eq_true]
  constructor
  · rintro ⟨hready, ⟨hroot, _⟩ | ⟨_, huid⟩⟩
    · exact absurd hroot hother
    · exact ⟨hready, huid⟩
  · rintro ⟨hready, huid⟩
    exact ⟨hready, .inr ⟨h, huid⟩⟩

theorem validReady_iff {permission message : Text} {n : Int} :
    validReady ⟨backend.text, "ready".toList, permission, shownUid n, message, id⟩ = true ↔
      Verified permission n backend := by
  cases backend with
  | standard =>
    rw [validReady_standard rfl, ready_standard rfl]
    constructor
    · intro h
      exact ⟨h.1.2, shownUid_isSome h.2⟩
    · intro h
      rw [shownUid, if_pos h.2]
      exact ⟨⟨rfl, h.1⟩, rfl⟩
  | root =>
    rw [validReady_root rfl, ready_root rfl]
    constructor
    · intro h
      exact ⟨h.2.1, shownUid_zero h.2.2⟩
    · intro h
      refine ⟨rfl, h.1, ?_⟩
      rw [h.2]
      rfl

theorem parseFields_ready {fields : List (Text × Text)} (h : (parseFields u fields backend.text id).ready = true) :
    value fields "request_id".toList = id ∧ value fields "backend".toList = backend.text ∧
      value fields "state".toList = "ready".toList ∧ ∃ n, intOf u (value fields "uid".toList) = some n ∧
        Verified (value fields "permission".toList) n backend := by
  rw [parseFields] at h
  simp only at h
  split at h
  · rw [refused_not_ready] at h
    cases h
  · case isFalse hsame =>
    split at h
    · rw [refused_not_ready] at h
      cases h
    · split at h
      · rw [refused_not_ready] at h
        cases h
      · case _ n hn =>
        split at h
        · rw [refused_not_ready] at h
          cases h
        · split at h
          · rw [refused_not_ready] at h
            cases h
          · case isFalse hvalid =>
            have hstate : value fields "state".toList = "ready".toList := state_of_ready h
            rw [hstate] at hvalid
            rw [not_and, Bool.not_eq_false] at hvalid
            have hverified := validReady_iff.mp (hvalid rfl)
            rw [not_or, not_not, not_not] at hsame
            exact ⟨hsame.1, hsame.2, hstate, n, hn, hverified⟩

/-- What a ready answer stands on. -/
def Genuine (u : Tables) (backend : Backend) (id payload : Text) : Prop :=
  statusHeader <+: payload ∧ ∃ lines permission uid message n,
    splitlines payload = statusHeader :: lines ∧
    lines.Perm [requestIdLine id, backendLine backend.text, stateLine "ready".toList, permissionLine permission,
      uidLine uid, messageLine message] ∧
    intOf u uid = some n ∧ Verified permission n backend

theorem splitlines_rstripReturn (payload : Text) : (splitlines payload).map rstripReturn = splitlines payload := by
  have hsame : ∀ line ∈ splitlines payload, rstripReturn line = id line := by
    intro line hline
    refine rstripChar_of_not_mem fun hc => ?_
    have hbreak := not_lineBreak_of_mem_splitlines hline _ hc
    exact absurd hbreak (by decide)
  rw [List.map_congr_left hsame, List.map_id]

theorem ready_genuine {payload : Text} (h : (parsePrivilegeResult u payload backend.text id).ready = true) :
    Genuine u backend id payload := by
  rw [parsePrivilegeResult, splitlines_rstripReturn] at h
  cases hlines : splitlines payload with
  | nil =>
    rw [hlines, refused_not_ready] at h
    cases h
  | cons header lines =>
    rw [hlines] at h
    simp only at h
    split at h
    · rw [refused_not_ready] at h
      cases h
    · case isFalse hheader =>
      rw [ne_eq, not_not] at hheader
      split at h
      · rw [refused_not_ready] at h
        cases h
      · case _ fields hfields =>
        split at h
        · case isTrue hkeys =>
          obtain ⟨new, hnew, hwritten, hnodup⟩ := @statusFields_eq_some [] _ _ List.nodup_nil hfields
          rw [List.nil_append] at hnew
          have hperm := (fields_perm hnodup hkeys.1 hkeys.2).map fieldLine
          rw [hnew, ← hwritten] at hperm
          obtain ⟨hid, hbackend, hstate, n, hn, hverified⟩ := parseFields_ready h
          rw [hnew] at hid hbackend hstate hn hverified
          refine ⟨?_, lines, _, _, value new "message_b64".toList, n, hheader ▸ hlines, ?_, hn, hverified⟩
          · exact hheader ▸ prefix_of_splitlines hlines
          · rw [← hid, ← hbackend, ← hstate]
            exact hperm
        · rw [refused_not_ready] at h
          cases h

/-- Visible ASCII and the blank. -/
def Printable (text : Text) : Prop := ∀ c ∈ text, 32 ≤ c.toNat ∧ c.toNat < 128

instance (text : Text) : Decidable (Printable text) :=
  List.decidableBAll (fun c : Char => 32 ≤ c.toNat ∧ c.toNat < 128) text

theorem Printable.append {a b : Text} (ha : Printable a) (hb : Printable b) : Printable (a ++ b) := by
  intro c hc
  obtain hc | hc := List.mem_append.mp hc
  · exact ha c hc
  · exact hb c hc

theorem Printable.unbroken {text : Text} (h : Printable text) : ∀ c ∈ text, isLineBreak c = false := by
  intro c hc
  obtain ⟨hlow, hhigh⟩ := h c hc
  simp [isLineBreak]
  omega

theorem printable_digits (n : Nat) : Printable (Nat.repr n).toList := by
  intro c hc
  obtain ⟨hlow, hhigh⟩ := Char.isDigit_iff_toNat.mp (isDigit_of_mem_repr hc)
  simp at hlow hhigh
  omega

theorem formatInt_natCast (n : Nat) : formatInt n = (Nat.repr n).toList := rfl

theorem formatInt_neg (n : Nat) : formatInt (-(n + 1 : Nat)) = '-' :: (Nat.repr (n + 1)).toList := by
  change ("-" ++ Nat.repr (n + 1)).toList = _
  rw [String.toList_append]
  rfl

theorem printable_formatInt (n : Int) : Printable (formatInt n) := by
  obtain m | m := n
  · exact printable_digits m
  · rw [Int.negSucc_eq, ← Int.natCast_succ, formatInt_neg]
    exact List.forall_mem_cons.mpr ⟨by decide, printable_digits _⟩

theorem printable_id (h : isValidRequestId id = true) : Printable id := by
  rw [isValidRequestId, Bool.and_eq_true, List.all_eq_true] at h
  intro c hc
  have hhex := h.2 c hc
  rw [Bool.or_eq_true, Char.isDigit_iff_toNat, Bool.and_eq_true, decide_eq_true_eq, decide_eq_true_eq] at hhex
  obtain ⟨hlow, hhigh⟩ | ⟨hlow, hhigh⟩ := hhex
  · simp at hlow hhigh
    omega
  · have hlow : 'a'.toNat ≤ c.toNat := hlow
    have hhigh : c.toNat ≤ 'f'.toNat := hhigh
    simp at hlow hhigh
    omega

theorem printable_base64Message (message : Text) : Printable (base64Message message) := by
  intro c hc
  have hascii := encode_ascii (utf8 message) c hc
  omega

theorem decode_base64Message (message : Text) :
    (decodeStrict (base64Message message)).bind strictUtf8 = some message := by
  rw [base64Message, decodeStrict_encode, Option.bind_some, strictUtf8_utf8]

theorem digits_visible (n : Nat) : ∀ c ∈ (Nat.repr n).toList, u.isSpace c = false := by
  intro c hc
  obtain ⟨hlow, hhigh⟩ := Char.isDigit_iff_toNat.mp (isDigit_of_mem_repr hc)
  simp at hlow hhigh
  exact u.isSpace_visible c (by omega) (by omega)

theorem strip_visible {text : Text} (h : ∀ c ∈ text, u.isSpace c = false) : strip u.toUnicodeData text = text :=
  Files.Listing.strip_visible (u := u.toTables) (fun c hc => h c (List.mem_of_mem_head? hc))
    (fun c hc => h c (List.mem_of_mem_getLast? hc))

theorem parseInt_digits {n : Nat} (h : n < 2 ^ 63) :
    parseInt u.toUnicodeData (Nat.repr n).toList = some (n : Int) ∧
      parseInt u.toUnicodeData ('-' :: (Nat.repr n).toList) = some (-n : Int) := by
  have hgroups : (Nat.repr n).toList.splitOn '_' = [(Nat.repr n).toList] :=
    List.splitOn_eq_singleton (not_mem_repr (by decide))
  have hlength : (Nat.repr n).toList.length ≤ 4300 :=
    ((length_repr_le (k := 19) (by decide)).mpr (Nat.lt_of_lt_of_le h (by decide))).trans (by decide)
  have hdecimal := isdecimal_repr u.decimal_value n
  have hnumber := intOfDigits_repr u.decimal_value n
  have hsign : ∀ c ∈ (Nat.repr n).toList.head?, c ≠ '-' ∧ c ≠ '+' := by
    intro c hc
    have hdigit := isDigit_of_mem_repr (List.mem_of_mem_head? hc)
    exact ⟨fun h => absurd (h ▸ hdigit) (by decide), fun h => absurd (h ▸ hdigit) (by decide)⟩
  constructor
  · cases hs : (Nat.repr n).toList with
    | nil => exact absurd hs (repr_ne_nil n)
    | cons c rest =>
      rw [hs] at hgroups hlength hsign hdecimal hnumber
      obtain ⟨hminus, hplus⟩ := hsign c rfl
      rw [List.length_cons] at hlength
      simp [parseInt, hminus, hplus, hgroups, hdecimal, hnumber]
      omega
  · generalize (Nat.repr n).toList = digits at hgroups hlength hdecimal hnumber
    simp [parseInt, hgroups, hdecimal, hnumber, hlength]

/-- The UID is read as it was written. -/
theorem intOf_formatInt {n : Int} (hlow : -2 ^ 31 ≤ n) (hhigh : n < 2 ^ 31) : intOf u (formatInt n) = some n := by
  obtain m | m := n
  · have hm : m < 2 ^ 63 := by
      simp at hhigh
      omega
    rw [intOf, Int.ofNat_eq_natCast, formatInt_natCast, strip_visible (digits_visible m), (parseInt_digits hm).1]
  · have hm : m + 1 < 2 ^ 63 := by
      rw [Int.negSucc_eq] at hlow
      omega
    have hvisible : ∀ c ∈ '-' :: (Nat.repr (m + 1)).toList, u.isSpace c = false :=
      List.forall_mem_cons.mpr ⟨u.isSpace_visible '-' (by decide) (by decide), digits_visible _⟩
    rw [Int.negSucc_eq, ← Int.natCast_succ, intOf, formatInt_neg, strip_visible hvisible, (parseInt_digits hm).2]

def statusPairs (id backend : Text) (status : Status) : List (Text × Text) :=
  [("request_id".toList, id), ("backend".toList, backend), ("state".toList, status.state),
    ("permission".toList, status.permission), ("uid".toList, formatInt status.uid),
    ("message_b64".toList, base64Message status.message)]

theorem required_nodup : required.Nodup := by decide

theorem required_equals : ∀ key ∈ required, '=' ∉ key := by decide

theorem keys_required (id backend : Text) (status : Status) :
    required.all (· ∈ (statusPairs id backend status).map Prod.fst) = true ∧
      ((statusPairs id backend status).map Prod.fst).all (· ∈ required) = true := by
  have hself : required.all (· ∈ required) = true := by decide
  exact ⟨hself, hself⟩

/-- A state, a permission and a UID that the parser has to take. -/
structure Acceptable (backend : Backend) (state permission : Text) (uid : Int) : Prop where
  state_mem : state ∈ allowedStates
  permission_mem : permission ∈ allowedPermissions
  uid_low : -2 ^ 31 ≤ uid
  uid_high : uid < 2 ^ 31
  verified : state = "ready".toList → Verified permission uid backend

theorem printable_state : ∀ state ∈ allowedStates, Printable state := by decide

theorem printable_permission : ∀ permission ∈ allowedPermissions, Printable permission := by decide

theorem parseFields_statusPairs {status : Status} (h : Acceptable backend status.state status.permission status.uid) :
    parseFields u (statusPairs id backend.text status) backend.text id =
      ⟨backend.text, status.state, status.permission, shownUid status.uid, received u status.message, id⟩ := by
  have hkeys : ((statusPairs id backend.text status).map Prod.fst).Nodup := required_nodup
  have hid : value (statusPairs id backend.text status) "request_id".toList = id :=
    value_of_mem hkeys (by simp [statusPairs])
  have hbackend : value (statusPairs id backend.text status) "backend".toList = backend.text :=
    value_of_mem hkeys (by simp [statusPairs])
  have hstate : value (statusPairs id backend.text status) "state".toList = status.state :=
    value_of_mem hkeys (by simp [statusPairs])
  have hpermission : value (statusPairs id backend.text status) "permission".toList = status.permission :=
    value_of_mem hkeys (by simp [statusPairs])
  have huid : value (statusPairs id backend.text status) "uid".toList = formatInt status.uid :=
    value_of_mem hkeys (by simp [statusPairs])
  have hmessage : value (statusPairs id backend.text status) "message_b64".toList = base64Message status.message :=
    value_of_mem hkeys (by simp [statusPairs])
  have hvalid : ¬ (status.state = "ready".toList ∧ validReady ⟨backend.text, status.state, status.permission,
      shownUid status.uid, received u status.message, id⟩ = false) := by
    rintro ⟨hready, hinvalid⟩
    rw [hready, validReady_iff.mpr (h.verified hready)] at hinvalid
    cases hinvalid
  rw [parseFields, hid, hbackend, hstate, hpermission, huid, hmessage, intOf_formatInt h.uid_low h.uid_high,
    decode_base64Message]
  simp only
  rw [if_neg (by simp), if_neg (not_or.mpr ⟨not_not.mpr h.state_mem, not_not.mpr h.permission_mem⟩), if_neg hvalid]

theorem backend_named (backend : Backend) : backend.text ≠ [] := by cases backend <;> decide

theorem printable_backend (backend : Backend) : Printable backend.text := by cases backend <;> decide

/-- What the activity publishes is read as it was meant, the message without the blanks around it. -/
theorem parse_writeStatus {status : Status} {payload : Text}
    (hpayload : writeStatus id backend.text status = some payload)
    (h : Acceptable backend status.state status.permission status.uid) :
    parsePrivilegeResult u payload backend.text id =
      ⟨backend.text, status.state, status.permission, shownUid status.uid, received u status.message, id⟩ := by
  rw [writeStatus] at hpayload
  split at hpayload
  · cases hpayload
  · case isFalse hvalid =>
    rw [Bool.not_eq_false] at hvalid
    rw [if_neg (backend_named backend), Option.some.injEq] at hpayload
    have hlines : ∀ line ∈ statusHeader :: (statusPairs id backend.text status).map fieldLine, Printable line := by
      have hkey : ∀ key ∈ required, Printable (key ++ ['=']) := by decide
      have hfield : ∀ {key text : Text}, key ∈ required → Printable text → Printable (fieldLine (key, text)) := by
        intro key text hmem htext
        have happend := (hkey key hmem).append htext
        rwa [List.append_assoc, List.singleton_append] at happend
      refine List.forall_mem_cons.mpr ⟨by decide, ?_⟩
      simp only [statusPairs, List.map_cons, List.map_nil, List.forall_mem_cons]
      refine ⟨hfield (by decide) (printable_id hvalid), hfield (by decide) (printable_backend backend),
        hfield (by decide) (printable_state _ h.state_mem),
        hfield (by decide) (printable_permission _ h.permission_mem),
        hfield (by decide) (printable_formatInt _), hfield (by decide) (printable_base64Message _), ?_⟩
      exact fun _ hnone => absurd hnone List.not_mem_nil
    have hsplit : splitlines payload = statusHeader :: (statusPairs id backend.text status).map fieldLine := by
      rw [← hpayload]
      exact splitlines_unlines fun line hline => (hlines line hline).unbroken
    have hfields := @statusFields_map [] (statusPairs id backend.text status)
      (fun field hfield => required_equals _ (List.mem_map_of_mem (f := Prod.fst) hfield)) required_nodup
    rw [parsePrivilegeResult, splitlines_rstripReturn, hsplit]
    simp only
    rw [if_neg (by simp), hfields]
    simp only [List.nil_append]
    rw [if_pos (keys_required id backend.text status)]
    exact parseFields_statusPairs h

theorem requestRootAccess_cases (run : RootRun) : requestRootAccess run = rootGranted ∨
    requestRootAccess run = rootDenied ∨ requestRootAccess run = rootUnavailable := by
  cases run with
  | failed => exact .inr (.inr rfl)
  | finished exitCode output truncated =>
    rw [requestRootAccess]
    split
    · exact .inl rfl
    · exact .inr (.inl rfl)

theorem acceptable_failure {state permission : Text} (hstate : state ∈ allowedStates.tail)
    (hpermission : permission ∈ allowedPermissions) : Acceptable backend state permission (-1) := by
  have hready : "ready".toList ∉ allowedStates.tail := by decide
  refine ⟨List.mem_of_mem_tail hstate, hpermission, by decide, by decide, fun heq => ?_⟩
  exact absurd (heq ▸ hstate) hready

theorem Completed.acceptable {status : Status} (h : Completed (some backend) status) :
    Acceptable backend status.state status.permission status.uid := by
  cases h with
  | standard myUid hlow =>
    have hnonneg : (0 : Int) ≤ myUid := Int.natCast_nonneg myUid
    have hstate : (standardAccess myUid).state ∈ allowedStates := List.mem_cons_self
    have hpermission : (standardAccess myUid).permission ∈ allowedPermissions :=
      List.mem_cons_of_mem _ List.mem_cons_self
    refine ⟨hstate, hpermission, ?_, Int.ofNat_lt.mpr hlow, fun _ => ⟨rfl, hnonneg⟩⟩
    exact (show (-2 ^ 31 : Int) ≤ 0 by decide).trans hnonneg
  | root run =>
    obtain hrun | hrun | hrun := requestRootAccess_cases run <;> rw [hrun]
    · exact ⟨by decide, by decide, by decide, by decide, fun _ => ⟨rfl, rfl⟩⟩
    · exact acceptable_failure (by decide) (by decide)
    · exact acceptable_failure (by decide) (by decide)
  | timedOut => exact acceptable_failure (by decide) (by decide)
  | destroyed => exact acceptable_failure (by decide) (by decide)
  | cancelled => exact acceptable_failure (by decide) (by decide)

def visible (c : Char) : Bool := 33 ≤ c.toNat && c.toNat ≤ 126

theorem received_self {message : Text} (hne : message ≠ []) (hhead : message.head?.all visible = true)
    (hlast : message.getLast?.all visible = true) : received u message = message := by
  have hvisible : ∀ {c : Char} {o : Option Char}, o.all visible = true → c ∈ o → u.isSpace c = false := by
    intro c o hall hc
    rw [Option.mem_def.mp hc, Option.all_some, visible, Bool.and_eq_true, decide_eq_true_eq, decide_eq_true_eq] at hall
    exact u.isSpace_visible c hall.1 hall.2
  have hstrip : strip u.toUnicodeData message = message :=
    Files.Listing.strip_visible (u := u.toTables) (fun c hc => hvisible hhead hc) (fun c hc => hvisible hlast hc)
  rw [received, hstrip]
  exact if_neg hne

/-- The activity's own messages come back unchanged. -/
theorem Completed.received {status : Status} (h : Completed (some backend) status) :
    received u status.message = status.message := by
  cases h with
  | standard myUid =>
    change PrivilegeAnswer.received u standardText = standardText
    exact received_self (by decide) (by decide) (by decide)
  | root run =>
    obtain hrun | hrun | hrun := requestRootAccess_cases run <;> rw [hrun]
    all_goals exact received_self (by decide) (by decide) (by decide)
  | timedOut => exact received_self (by decide) (by decide) (by decide)
  | destroyed => exact received_self (by decide) (by decide) (by decide)
  | cancelled => exact received_self (by decide) (by decide) (by decide)

end

/-- An answer of the activity is read with its state, its permission and its UID, and with its message up to the
blanks around it; a ready answer is one that states the identity. -/
theorem privilegeAnswer_read (u : Tables) (backend : Backend) (id : Text) :
    (∀ status, Completed (some backend) status → ∀ message payload,
      writeStatus id backend.text { status with message := message } = some payload →
        parsePrivilegeResult u payload backend.text id =
          ⟨backend.text, status.state, status.permission, shownUid status.uid, received u message, id⟩) ∧
    (∀ status, Completed (some backend) status → received u status.message = status.message) ∧
    (isValidRequestId id = true → ∀ status, (writeStatus id backend.text status).isSome = true) ∧
    ∀ payload, (parsePrivilegeResult u payload backend.text id).ready = true → Genuine u backend id payload := by
  refine ⟨?_, fun status h => h.received, ?_, fun payload h => ready_genuine h⟩
  · intro status hcompleted message payload hpayload
    exact parse_writeStatus hpayload hcompleted.acceptable
  · intro hid status
    rw [writeStatus, if_neg (by simp [hid])]
    rfl

theorem asciiDecimal_value (c : Char) (h : c.isDigit = true) :
    Files.Listing.asciiTables.decimal c = some (c.toNat - 48) := by
  obtain ⟨hlow, hhigh⟩ := Char.isDigit_iff_toNat.mp h
  exact if_pos ⟨by simpa using hlow, by simpa using hhigh⟩

def asciiTables : Tables where
  toTables := Files.Listing.asciiTables
  decimal_value := asciiDecimal_value

/-- An empty message is read as another one. -/
theorem empty_message_replaced :
    ¬ ∀ (u : Tables) (backend : Backend) (id : Text) (status : Status), Completed (some backend) status →
      ∀ message payload, writeStatus id backend.text { status with message := message } = some payload →
        parsePrivilegeResult u payload backend.text id =
          ⟨backend.text, status.state, status.permission, shownUid status.uid, message, id⟩ := by
  intro h
  have hcompleted : Completed (some .standard) (standardAccess 10123) := .standard 10123 (by decide)
  have hpayload : writeStatus (List.replicate 32 '0') Backend.standard.text
      { standardAccess 10123 with message := [] } = some _ := if_neg (by decide)
  have hexact := h asciiTables .standard (List.replicate 32 '0') _ hcompleted [] _ hpayload
  rw [parse_writeStatus hpayload hcompleted.acceptable, PrivilegeResult.mk.injEq] at hexact
  exact absurd hexact.2.2.2.2.1 (by decide)

end OpenAdb.Acbridge.PrivilegeAnswer
