import OpenAdb.Lib.ByteStream
import OpenAdb.P2p.Entry
import OpenAdb.P2p.Wire

namespace OpenAdb.P2p.Sender

open OpenAdb.Lib.PyText OpenAdb.Lib.Encoding OpenAdb.Lib.Effects OpenAdb.Lib.ByteStream
open OpenAdb.P2p.Entry OpenAdb.P2p.Wire

def P2P_MAGIC : Bytes := [0x4f, 0x41, 0x44, 0x42, 0x50, 0x32, 0x50, 0x32]
def P2P_REQUEST_TRANSCRIPT_CONTEXT : Bytes := utf8 "OpenADB-P2P-request-v2\x00".toList
def P2P_ENTRY_CONTROL_CONTEXT : Bytes := utf8 "OpenADB-P2P-entry-v2\x00".toList
def P2P_RESPONSE_CONTEXT : Bytes := utf8 "OpenADB-P2P-response-v2\x00".toList
def P2P_AUTH_TAG_SIZE : Nat := 32
def P2P_BUFFER_SIZE : Nat := 1024 * 1024

inductive SendError
  | transfer (message : Text)
  | os
  | eof
  | assertion
  | struct
  deriving DecidableEq

structure Stream where
  written : Bytes
  transcript : Bytes

variable (c : Crypto) (localFiles : Text → Option Bytes) (session_key : Bytes)

def write (data : Bytes) : Effect SendError Stream Unit :=
  update (fun s => { s with written := s.written ++ data })

def writeAuthenticated (data : Bytes) : Effect SendError Stream Unit :=
  update (fun s => { written := s.written ++ data, transcript := s.transcript ++ data })

/-- `struct.pack` for an unsigned big-endian number of `width` bytes. -/
def pack (width n : Nat) : Except SendError Bytes :=
  if n < 256 ^ width then .ok (bigEndian width n) else .error .struct

def textFrame (value : Text) : Except SendError Bytes := do
  let data := utf8 value
  if data.length > MAX_TEXT_BYTES then .error (.transfer "P2P protocol text is too long.".toList)
  else return (← pack 4 data.length) ++ data

/-- The loop over the chunks of a file. It returns what it sent and what is left to read. -/
def writePayload (source : Text) (remaining : Nat) (content : Bytes) :
    Effect SendError Stream (Bytes × Bytes) :=
  if _h0 : remaining = 0 then pure ([], content)
  else
    let chunk := content.take (min P2P_BUFFER_SIZE remaining)
    if _h : chunk = [] then
      raise (.transfer
        ("Local file changed or became unreadable during transfer: ".toList ++ source))
    else do
      write chunk
      let (sent, rest) ← writePayload source (remaining - chunk.length) (content.drop chunk.length)
      pure (chunk ++ sent, rest)
termination_by remaining
decreasing_by exact Nat.sub_lt (Nat.pos_of_ne_zero _h0) (List.length_pos_iff.mpr _h)

def sendFile (entry : P2PEntry) (size_frame : Bytes) : Effect SendError Stream Unit := do
  let source ← lift (match entry.source with
    | none => .error .assertion
    | some source => .ok source)
  let content ← lift (match localFiles source with
    | none => .error .os
    | some content => .ok content)
  let (sent, rest) ← writePayload source entry.size content
  require (rest = [] ∧ content.length = entry.size)
    (.transfer ("Local file grew or changed size during transfer: ".toList ++ source))
  writeAuthenticated (c.sha256 sent)
  writeAuthenticated
    (c.hmac session_key (utf8 entry.relative_path ++ [0] ++ size_frame ++ sent))

def sendEntry (entry_index : Nat) (entry : P2PEntry) : Effect SendError Stream Unit := do
  let kind_frame : Bytes := if entry.is_directory then [0] else [1]
  let path_frame ← lift (textFrame entry.relative_path)
  let size_frame ← lift (if entry.is_directory then .ok [] else pack 8 entry.size)
  let control_frame := kind_frame ++ path_frame ++ size_frame
  let index_frame ← lift (pack 4 entry_index)
  let control_tag := c.hmac session_key (P2P_ENTRY_CONTROL_CONTEXT ++ index_frame ++ control_frame)
  writeAuthenticated control_frame
  writeAuthenticated control_tag
  if entry.is_directory then pure () else sendFile c localFiles session_key entry size_frame

def sendEntries : Nat → List P2PEntry → Effect SendError Stream Unit
  | _, [] => pure ()
  | entry_index, entry :: entries => do
    sendEntry c localFiles session_key entry_index entry
    sendEntries (entry_index + 1) entries

/-- The request side of one session; the result is the tag of the request. -/
def uploadEntryBatch (entries : List P2PEntry) : Effect SendError Stream Bytes := do
  write P2P_MAGIC
  write (c.hmac session_key P2P_MAGIC)
  let count_frame ← lift (pack 4 entries.length)
  writeAuthenticated count_frame
  sendEntries c localFiles session_key 0 entries
  let request_tag ← read (fun s => c.hmac session_key (P2P_REQUEST_TRANSCRIPT_CONTEXT ++ s.transcript))
  write request_tag
  pure request_tag

def readExact (size : Nat) : Effect SendError Bytes Bytes := readExactly .eof size

def readAuthenticatedResponse (d : Utf8Decoder) (request_tag : Bytes)
    (expected_entries expected_files expected_bytes : Nat) :
    Effect SendError Bytes (Bool × Text) := do
  let response_magic ← readExact P2P_MAGIC.length
  let status_frame ← readExact 1
  let counts_frame ← readExact 16
  let message_size_frame ← readExact 4
  let message_size := ofBigEndian message_size_frame
  require (message_size ≤ MAX_TEXT_BYTES)
    (.transfer "ACBridge returned oversized protocol text.".toList)
  let message_data ← readExact message_size
  let response_tag ← readExact P2P_AUTH_TAG_SIZE
  let response_payload :=
    response_magic ++ status_frame ++ counts_frame ++ message_size_frame ++ message_data
  let expected_tag := c.hmac session_key (P2P_RESPONSE_CONTEXT ++ request_tag ++ response_payload)
  require (expected_tag = response_tag)
    (.transfer "ACBridge returned a P2P response that failed authentication.".toList)
  require (response_magic = P2P_MAGIC)
    (.transfer "ACBridge returned an unsupported P2P response.".toList)
  let status := ofBigEndian status_frame
  require (status = 0 ∨ status = 1)
    (.transfer "ACBridge returned an invalid P2P response status.".toList)
  let received_entries := ofBigEndian (counts_frame.take 4)
  let received_files := ofBigEndian ((counts_frame.drop 4).take 4)
  let received_bytes := ofBigEndian (counts_frame.drop 8)
  require (¬ (status = 1 ∧ (received_entries ≠ expected_entries ∨
      received_files ≠ expected_files ∨ received_bytes ≠ expected_bytes)))
    (.transfer "ACBridge returned inconsistent authenticated transfer counts.".toList)
  pure (decide (status = 1), d.decode message_data)

theorem pack_ok {width n : Nat} (h : n < 256 ^ width) : pack width n = .ok (bigEndian width n) :=
  if_pos h

theorem textFrame_ok {value : Text} (h : (utf8 value).length ≤ MAX_TEXT_BYTES) :
    textFrame value = .ok (bigEndian 4 (utf8 value).length ++ utf8 value) := by
  have hlt : (utf8 value).length < 256 ^ 4 := by
    simp only [MAX_TEXT_BYTES] at h
    omega
  rw [textFrame, if_neg (by omega), pack_ok hlt]
  rfl

theorem writePayload_run (source : Text) (content : Bytes) (s : Stream) :
    writePayload source content.length content s =
      (.ok (content, []), { s with written := s.written ++ content }) := by
  induction hn : content.length using Nat.strong_induction_on generalizing content s with
  | _ n ih =>
    rw [writePayload]
    by_cases h0 : n = 0
    · have hnil : content = [] := List.eq_nil_of_length_eq_zero (hn.trans h0)
      rw [dif_pos h0, hnil, List.append_nil]
      rfl
    · have hlen : (content.take (min P2P_BUFFER_SIZE n)).length = min P2P_BUFFER_SIZE n := by
        rw [List.length_take, hn]
        omega
      have hpos : 0 < min P2P_BUFFER_SIZE n := by
        simp only [P2P_BUFFER_SIZE]
        omega
      have hne : content.take (min P2P_BUFFER_SIZE n) ≠ [] := by
        rw [← List.length_pos_iff, hlen]
        exact hpos
      have hdrop : (content.drop (min P2P_BUFFER_SIZE n)).length = n - min P2P_BUFFER_SIZE n := by
        rw [List.length_drop, hn]
      rw [dif_neg h0, dif_neg hne, hlen]
      have hrest := ih (n - min P2P_BUFFER_SIZE n) (by omega)
        (content.drop (min P2P_BUFFER_SIZE n))
        { s with written := s.written ++ content.take (min P2P_BUFFER_SIZE n) } hdrop
      refine (bind_ok rfl).trans ((bind_ok hrest).trans ?_)
      simp only [pure_run, List.append_assoc, List.take_append_drop]


/-- What the sender requires of an entry that it can send. -/
structure Sendable (e : P2PEntry) : Prop where
  accepted : ∃ value, safeRelativeName value = .ok e.relative_path
  size_lt : e.is_directory = false → e.size < 2 ^ 63
  readable : e.is_directory = false → ∃ source content, e.source = some source ∧
    localFiles source = some content ∧ content.length = e.size

/-- The content that an entry is read as. -/
def contentOf (e : P2PEntry) : Bytes := ((e.source.bind localFiles).getD [])

/-- The entry as it stands on the connection. -/
def recordOf (index : Nat) (e : P2PEntry) : Record :=
  let path := utf8 e.relative_path
  if e.is_directory then
    { pathBytes := path
      controlTag := c.hmac session_key (controlText index 0 e.relative_path [])
      payload := none }
  else
    let content := contentOf localFiles e
    { pathBytes := path
      controlTag := c.hmac session_key
        (controlText index 1 e.relative_path (bigEndian 8 content.length))
      payload := some
        { content := content
          digest := c.sha256 content
          authenticator := c.hmac session_key
            (path ++ [0] ++ bigEndian 8 content.length ++ content) } }

def recordsOf : Nat → List P2PEntry → List Record
  | _, [] => []
  | index, e :: entries => recordOf c localFiles session_key index e :: recordsOf (index + 1) entries

theorem recordOf_verified (index : Nat) (e : P2PEntry) :
    (recordOf c localFiles session_key index e).Verified c session_key index e.relative_path := by
  unfold recordOf
  dsimp only
  by_cases hd : e.is_directory
  · rw [if_pos hd]
    exact ⟨rfl, fun _ h => (nomatch h), fun _ h => (nomatch h)⟩
  · rw [if_neg hd]
    refine ⟨rfl, fun p hp => ?_, fun p hp => ?_⟩
    · cases hp
      rfl
    · cases hp
      rfl

theorem contentOf_length {e : P2PEntry} (h : Sendable localFiles e)
    (hd : e.is_directory = false) : (contentOf localFiles e).length = e.size := by
  obtain ⟨source, content, hs, hc, hlen⟩ := h.readable hd
  simpa [contentOf, hs, hc] using hlen

theorem safeRelativeName_length {value clean : Text} (h : safeRelativeName value = .ok clean) :
    (utf8 clean).length ≤ MAX_TEXT_BYTES := by
  unfold safeRelativeName at h
  dsimp only at h
  split_ifs at h with h1 h2 h3 <;> cases h
  all_goals omega

theorem sendFile_run {e : P2PEntry} (h : Sendable localFiles e) (hd : e.is_directory = false)
    (s : Stream) :
    sendFile c localFiles session_key e (bigEndian 8 e.size) s =
      (.ok (), {
        written := s.written ++ contentOf localFiles e ++ c.sha256 (contentOf localFiles e) ++
          c.hmac session_key (utf8 e.relative_path ++ [0] ++ bigEndian 8 e.size ++
            contentOf localFiles e)
        transcript := s.transcript ++ c.sha256 (contentOf localFiles e) ++
          c.hmac session_key (utf8 e.relative_path ++ [0] ++ bigEndian 8 e.size ++
            contentOf localFiles e) }) := by
  obtain ⟨source, content, hs, hc, hlen⟩ := h.readable hd
  have hcontent : contentOf localFiles e = content := by simp [contentOf, hs, hc]
  have hpayload := writePayload_run source content s
  rw [hlen] at hpayload
  rw [sendFile, hs, hcontent]
  refine (bind_ok rfl).trans ?_
  rw [hc]
  refine (bind_ok rfl).trans ((bind_ok hpayload).trans ?_)
  exact (bind_ok (require_pos ⟨rfl, hlen⟩)).trans rfl

theorem sendEntry_run {e : P2PEntry} (h : Sendable localFiles e) (index : Nat)
    (hi : index < 256 ^ 4) (s : Stream) :
    sendEntry c localFiles session_key index e s =
      (.ok (), {
        written := s.written ++ (recordOf c localFiles session_key index e).wire
        transcript := s.transcript ++
          (recordOf c localFiles session_key index e).authenticated }) := by
  obtain ⟨value, hvalue⟩ := h.accepted
  have hpath := textFrame_ok (safeRelativeName_length hvalue)
  have hcontext : P2P_ENTRY_CONTROL_CONTEXT = entryContext := rfl
  rw [sendEntry, hpath, pack_ok hi]
  refine (bind_ok rfl).trans ?_
  cases hd : e.is_directory with
  | true =>
    refine (bind_ok rfl).trans ((bind_ok rfl).trans ((bind_ok rfl).trans ((bind_ok rfl).trans ?_)))
    simp only [pure_run, recordOf, hd, if_true, Record.wire, Record.authenticated,
      Record.controlFrame, Record.kind, Record.sizeFrame, controlText, hcontext, Option.isSome_none,
      Bool.false_eq_true, if_false, List.append_assoc, List.append_nil, bigEndian]
    rfl
  | false =>
    have hsize : pack 8 e.size = .ok (bigEndian 8 e.size) := pack_ok (by
      have := h.size_lt hd
      omega)
    have hlen := contentOf_length localFiles h hd
    simp only [Bool.false_eq_true, if_false, hsize]
    refine (bind_ok rfl).trans ((bind_ok rfl).trans ((bind_ok rfl).trans ((bind_ok rfl).trans ?_)))
    rw [sendFile_run c localFiles session_key h hd]
    simp only [recordOf, hd, Bool.false_eq_true, if_false, Record.wire, Record.authenticated,
      Record.controlFrame, Record.kind, Record.sizeFrame, controlText, hcontext, hlen,
      Option.isSome_some, if_true, List.append_assoc]
    rfl

theorem sendEntries_run {entries : List P2PEntry} (h : ∀ e ∈ entries, Sendable localFiles e)
    (index : Nat) (hi : index + entries.length ≤ 256 ^ 4) (s : Stream) :
    sendEntries c localFiles session_key index entries s =
      (.ok (), {
        written := s.written ++
          ((recordsOf c localFiles session_key index entries).map Record.wire).flatten
        transcript := s.transcript ++
          ((recordsOf c localFiles session_key index entries).map Record.authenticated).flatten }) := by
  induction entries generalizing index s with
  | nil =>
    rw [sendEntries, recordsOf, List.map_nil, List.map_nil, List.flatten_nil, List.append_nil,
      List.append_nil]
    rfl
  | cons e entries ih =>
    rw [List.length_cons] at hi
    have hentry := sendEntry_run c localFiles session_key (h e List.mem_cons_self)
      index (by omega) s
    rw [sendEntries, bind_ok hentry,
      ih (fun x hx => h x (List.mem_cons_of_mem e hx)) (index + 1) (by omega)]
    simp only [recordsOf, List.map_cons, List.flatten_cons, List.append_assoc]

/-- The transcript and the whole stream of a request for the given records. -/
def transcriptOf (records : List Record) : Bytes :=
  bigEndian 4 records.length ++ (records.map Record.authenticated).flatten

def requestOf (records : List Record) : Bytes :=
  magic ++ c.hmac session_key magic ++ bigEndian 4 records.length ++
    (records.map Record.wire).flatten ++ requestTag c session_key (transcriptOf records)

theorem length_recordsOf (index : Nat) (entries : List P2PEntry) :
    (recordsOf c localFiles session_key index entries).length = entries.length := by
  induction entries generalizing index with
  | nil => rfl
  | cons e entries ih => rw [recordsOf, List.length_cons, List.length_cons, ih]

/-- The sender writes the records of its entries in the format of the wire. -/
theorem uploadEntryBatch_run {entries : List P2PEntry} (h : ∀ e ∈ entries, Sendable localFiles e)
    (hlen : entries.length ≤ P2P_MAX_ENTRIES) :
    uploadEntryBatch c localFiles session_key entries ⟨[], []⟩ =
      (.ok (requestTag c session_key
          (transcriptOf (recordsOf c localFiles session_key 0 entries))),
        ⟨requestOf c session_key (recordsOf c localFiles session_key 0 entries),
          transcriptOf (recordsOf c localFiles session_key 0 entries)⟩) := by
  have hmax : entries.length < 256 ^ 4 := by
    simp only [P2P_MAX_ENTRIES] at hlen
    omega
  have hcontext : P2P_REQUEST_TRANSCRIPT_CONTEXT = requestContext := rfl
  have hmagic : P2P_MAGIC = magic := rfl
  have hrun := sendEntries_run c localFiles session_key h 0 (by omega)
    ⟨P2P_MAGIC ++ c.hmac session_key P2P_MAGIC ++ bigEndian 4 entries.length,
      bigEndian 4 entries.length⟩
  rw [uploadEntryBatch, pack_ok hmax]
  refine (bind_ok rfl).trans ?_
  refine (bind_ok rfl).trans ?_
  refine (bind_ok rfl).trans ?_
  refine (bind_ok rfl).trans ?_
  refine (bind_ok hrun).trans ?_
  refine (bind_ok rfl).trans ?_
  refine (bind_ok rfl).trans ?_
  rw [pure_run]
  simp only [requestTag, transcriptOf, requestOf, hcontext, hmagic, length_recordsOf,
    List.append_assoc]

end OpenAdb.P2p.Sender
