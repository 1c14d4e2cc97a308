import OpenAdb.Lib.ByteStream
import OpenAdb.P2p.Bootstrap
import OpenAdb.P2p.Wire

namespace OpenAdb.P2p.Receiver

open OpenAdb.Lib.PyText OpenAdb.Lib.Encoding OpenAdb.Lib.JavaText OpenAdb.Lib.Effects
open OpenAdb.Lib.ByteStream OpenAdb.P2p.Bootstrap OpenAdb.P2p.Wire

def MAGIC : Bytes := [0x4f, 0x41, 0x44, 0x42, 0x50, 0x32, 0x50, 0x32]
def REQUEST_TRANSCRIPT_CONTEXT : Bytes := utf8 "OpenADB-P2P-request-v2\x00".toList
def ENTRY_CONTROL_CONTEXT : Bytes := utf8 "OpenADB-P2P-entry-v2\x00".toList
def RESPONSE_CONTEXT : Bytes := utf8 "OpenADB-P2P-response-v2\x00".toList
def MAX_ENTRIES : Nat := 100000
def COPY_BUFFER_SIZE : Nat := 1024 * 1024
def LONG_MAX_VALUE : Int := 2 ^ 63 - 1

/-- Where a session writes: the operations of one kind of destination access.
A handle stands for the temporary document of one file. -/
structure Storage (σ H : Type) where
  directAccess : Bool
  ensureDirectory : Text → Effect JavaException σ Unit
  createTemp : Text → Effect JavaException σ H
  write : H → Bytes → Effect JavaException σ Unit
  publish : H → Effect JavaException σ Unit
  discard : H → Effect JavaException σ Unit

/-- How many bytes one `read` returns of those that have arrived. -/
structure ReadSizes where
  size : Bytes → Nat → Nat
  pos : ∀ input wanted, 0 < wanted → 0 < size input wanted

structure Session (σ : Type) where
  input : Bytes
  transcript : Bytes
  storage : σ

structure Counts where
  receivedEntries : Nat
  receivedFiles : Nat
  receivedBytes : Int

variable {σ H : Type} (c : Crypto) (d : Utf8Decoder) (reads : ReadSizes) (st : Storage σ H)

def onStorage {α : Type} : Effect JavaException σ α → Effect JavaException (Session σ) α :=
  within Session.storage (fun storage s => { s with storage := storage })

def readFully (n : Nat) : Effect JavaException (Session σ) Bytes :=
  within Session.input (fun input s => { s with input := input }) (readExactly ⟨.eof, []⟩ n)

def updateTranscript (data : Bytes) : Effect JavaException (Session σ) Unit :=
  update (fun s => { s with transcript := s.transcript ++ data })

/-- `read` into a buffer; no bytes mean that the connection has ended. -/
def readSome (wanted : Nat) : Effect JavaException (Session σ) Bytes := fun s =>
  let n := min wanted (reads.size s.input wanted)
  (.ok (s.input.take n), { s with input := s.input.drop n })

def readUnsignedByte : Effect JavaException (Session σ) Nat := do
  return ofBigEndian (← readFully 1)

def readInt : Effect JavaException (Session σ) Int := do
  return toSigned 32 (ofBigEndian (← readFully 4))

def readLong : Effect JavaException (Session σ) Int := do
  return toSigned 64 (ofBigEndian (← readFully 8))

def intBytes (value : Int) : Bytes := bigEndian 4 (value % 2 ^ 32).toNat

def longBytes (value : Int) : Bytes := bigEndian 8 (value % 2 ^ 64).toNat

def writeText (value : Text) : Bytes := intBytes (utf8 value).length ++ utf8 value

def entryControlFrame (index : Nat) (kind : Nat) (relativePath : Text) (size : Int) : Bytes :=
  ENTRY_CONTROL_CONTEXT ++ intBytes index ++ bigEndian 1 kind ++ writeText relativePath ++
    (if kind = 1 then longBytes size else [])

def illegal (message : Text) : JavaException := ⟨.illegalArgument, message⟩

def insecure (message : Text) : JavaException := ⟨.security, message⟩

def validateRelativePath (path : Text) : Except JavaException Text :=
  if path = [] ∨ MAX_TEXT_BYTES < utf16Length path then
    .error (illegal "Invalid empty or oversized relative path".toList)
  else
    let clean := replaceChar '\\' '/' path
    if clean.head? = some '/' ∨ clean.getLast? = some '/' ∨ '\x00' ∈ clean then
      .error (illegal ("Invalid relative path: ".toList ++ path))
    else if (split '/' clean).any (fun part => part ∈ [[], ['.'], ['.', '.']]) then
      .error (illegal ("Unsafe relative path: ".toList ++ path))
    else .ok clean

def readAuthenticatedText : Effect JavaException (Session σ) Text := do
  let length ← readInt
  updateTranscript (intBytes length)
  require (0 ≤ length ∧ length ≤ MAX_TEXT_BYTES)
    (illegal ("Invalid protocol text length: ".toList ++ (toString length).toList))
  let bytes ← readFully length.toNat
  updateTranscript bytes
  return d.decode bytes

/-- The loop over the chunks that arrive; the result is all that was written. -/
def receiveChunks (relativePath : Text) (write : Bytes → Effect JavaException σ Unit)
    (remaining : Nat) : Effect JavaException (Session σ) Bytes :=
  if _h0 : remaining = 0 then pure []
  else do
    let chunk ← readSome reads (min COPY_BUFFER_SIZE remaining)
    if _h : chunk = [] then
      raise ⟨.io, "Connection ended before ".toList ++ relativePath ++ " was complete".toList⟩
    else do
      onStorage (write chunk)
      let rest ← receiveChunks relativePath write (remaining - chunk.length)
      return chunk ++ rest
termination_by remaining
decreasing_by exact Nat.sub_lt (Nat.pos_of_ne_zero _h0) (List.length_pos_iff.mpr _h)

def receiveVerifiedPayload (relativePath : Text) (size : Int) (sessionKey : Bytes)
    (write : Bytes → Effect JavaException σ Unit) : Effect JavaException (Session σ) Unit := do
  let content ← receiveChunks reads relativePath write size.toNat
  let expectedDigest ← readFully 32
  updateTranscript expectedDigest
  require (expectedDigest = c.sha256 content)
    ⟨.io, "SHA-256 verification failed for ".toList ++ relativePath⟩
  let expectedAuthenticator ← readFully 32
  updateTranscript expectedAuthenticator
  require (expectedAuthenticator =
      c.hmac sessionKey (utf8 relativePath ++ [0] ++ longBytes size ++ content))
    (insecure ("P2P integrity verification failed for ".toList ++ relativePath))

/-- Both ways of receiving a file: the payload goes to a temporary document,
which replaces the target after the checks and is removed when they fail. -/
def receiveInto (relativePath : Text) (size : Int) (sessionKey : Bytes) :
    Effect JavaException (Session σ) Unit := do
  let temp ← onStorage (st.createTemp relativePath)
  onRaise
    (do
      receiveVerifiedPayload c reads relativePath size sessionKey (st.write temp)
      onStorage (st.publish temp))
    (onStorage (st.discard temp))

def readSize (kind : Nat) (relativePath : Text) : Effect JavaException (Session σ) Int :=
  if kind = 1 then do
    let size ← readLong
    updateTranscript (longBytes size)
    require (0 ≤ size) (illegal ("Negative file size for ".toList ++ relativePath))
    return size
  else do
    require (kind = 0) (illegal ("Unsupported transfer entry type: ".toList ++ formatNat kind))
    return -1

/-- The control frame of an entry and its tag. -/
def readEntryFrame (sessionKey : Bytes) (index : Nat) :
    Effect JavaException (Session σ) (Nat × Text × Int) := do
  let kind ← readUnsignedByte
  updateTranscript (bigEndian 1 kind)
  let text ← readAuthenticatedText d
  let relativePath ← lift (validateRelativePath text)
  let size ← readSize kind relativePath
  let controlTag ← readFully 32
  updateTranscript controlTag
  require (c.hmac sessionKey (entryControlFrame index kind relativePath size) = controlTag)
    (insecure "P2P entry metadata authentication failed".toList)
  return (kind, relativePath, size)

/-- One entry up to the point where it is stored; the result is the size of a file. -/
def receiveEntry (sessionKey : Bytes) (index : Nat) :
    Effect JavaException (Session σ) (Option Int) := do
  let (kind, relativePath, size) ← readEntryFrame c d sessionKey index
  if kind = 0 then do
    onStorage (st.ensureDirectory relativePath)
    return none
  else do
    receiveInto c reads st relativePath size sessionKey
    return some size

def countEntry (counts : Counts) : Option Int → Except JavaException Counts
  | none => .ok { counts with receivedEntries := counts.receivedEntries + 1 }
  | some size =>
    if LONG_MAX_VALUE - counts.receivedBytes < size then
      .error (illegal "Transfer byte count overflow".toList)
    else .ok ⟨counts.receivedEntries + 1, counts.receivedFiles + 1, counts.receivedBytes + size⟩

/-- The loop over the entries, with the number of those still to come. -/
def receiveEntries (sessionKey : Bytes) :
    Nat → Nat → Counts → Effect JavaException (Session σ) Counts
  | 0, _, counts => pure counts
  | n + 1, index, counts => do
    let size ← receiveEntry c d reads st sessionKey index
    let counts ← lift (countEntry counts size)
    receiveEntries sessionKey n (index + 1) counts

def writeAuthenticatedResponse (sessionKey requestTag : Bytes) (success : Bool) (entryCount : Nat)
    (fileCount : Nat) (byteCount : Int) (message : Text) : Bytes :=
  let payload := MAGIC ++ bigEndian 1 (if success then 1 else 0) ++ intBytes entryCount ++
    intBytes fileCount ++ longBytes byteCount ++ writeText message
  payload ++ c.hmac sessionKey (RESPONSE_CONTEXT ++ requestTag ++ payload)

/-- `Stored ` -/
def storedHead : Text := ['S', 't', 'o', 'r', 'e', 'd', ' ']
/-- ` item(s) through ACBridge ` -/
def storedThrough : Text :=
  [' ', 'i', 't', 'e', 'm', '(', 's', ')', ' ', 't', 'h', 'r', 'o', 'u', 'g', 'h', ' ', 'A', 'C',
    'B', 'r', 'i', 'd', 'g', 'e', ' ']
/-- `All files access` -/
def allFilesAccess : Text :=
  ['A', 'l', 'l', ' ', 'f', 'i', 'l', 'e', 's', ' ', 'a', 'c', 'c', 'e', 's', 's']
/-- `SAF access` -/
def safAccess : Text := ['S', 'A', 'F', ' ', 'a', 'c', 'c', 'e', 's', 's']

def storedMessage (entryCount : Nat) : Text :=
  storedHead ++ formatNat entryCount ++ storedThrough ++
    (if st.directAccess then allFilesAccess else safAccess)

/-- The tag of the request is checked after its entries. -/
def finishUpload (sessionKey : Bytes) (entryCount : Nat) (counts : Counts) :
    Effect JavaException (Session σ) Bytes := do
  let suppliedRequestTag ← readFully 32
  let verifiedRequestTag ← read (fun s => c.hmac sessionKey s.transcript)
  require (verifiedRequestTag = suppliedRequestTag)
    (insecure "P2P request transcript authentication failed".toList)
  return writeAuthenticatedResponse c sessionKey verifiedRequestTag true counts.receivedEntries
    counts.receivedFiles counts.receivedBytes (storedMessage st entryCount)

/-- A whole session; the result is what is written back. -/
def handleUpload (token : Text) : Effect JavaException (Session σ) Bytes := do
  let magic ← readFully MAGIC.length
  require (MAGIC = magic) (insecure "Unsupported P2P protocol".toList)
  let sessionKey ← lift (hexBytes token)
  let receivedProof ← readFully 32
  require (c.hmac sessionKey MAGIC = receivedProof) (insecure "P2P authentication failed".toList)
  updateTranscript REQUEST_TRANSCRIPT_CONTEXT
  let entryCount ← readInt
  updateTranscript (intBytes entryCount)
  require (1 ≤ entryCount ∧ entryCount ≤ MAX_ENTRIES)
    (illegal ("Invalid transfer entry count: ".toList ++ (toString entryCount).toList))
  let counts ← receiveEntries c d reads st sessionKey entryCount.toNat 0 ⟨0, 0, 0⟩
  finishUpload c st sessionKey entryCount.toNat counts

inductive Stored
  | directory (path : Text)
  | file (path : Text) (content : Bytes)
  deriving DecidableEq

def storedOf (r : Record) (path : Text) : Stored :=
  match r.payload with
  | none => .directory path
  | some p => .file path p.content

/-- What a storage owes a session: between entries it is `idle` with all that was
stored so far, and a temporary document is `writing` until it is published or
discarded. A storage that `refuses` may decline a directory or a new document;
then it is left as it was. -/
structure Stores (st : Storage σ H) (refuses : Prop) (idle : List Stored → σ → Prop)
    (writing : List Stored → H → Text → Bytes → σ → Prop) : Prop where
  ensureDirectory : ∀ log path, Meets (idle log) (st.ensureDirectory path)
    (fun _ => idle (log ++ [.directory path])) (fun _ s => refuses ∧ idle log s)
  createTemp : ∀ log path, Meets (idle log) (st.createTemp path)
    (fun temp => writing log temp path []) (fun _ s => refuses ∧ idle log s)
  write : ∀ log temp path content chunk, Meets (writing log temp path content)
    (st.write temp chunk) (fun _ => writing log temp path (content ++ chunk)) (fun _ _ => False)
  publish : ∀ log temp path content, Meets (writing log temp path content) (st.publish temp)
    (fun _ => idle (log ++ [.file path content])) (fun _ _ => False)
  discard : ∀ log temp path content, Meets (writing log temp path content) (st.discard temp)
    (fun _ => idle log) (fun _ _ => False)

theorem intBytes_nat {n : Nat} (h : n < 2 ^ 32) : intBytes n = bigEndian 4 n := by
  rw [intBytes]
  congr 1
  omega

theorem longBytes_nat {n : Nat} (h : n < 2 ^ 64) : longBytes n = bigEndian 8 n := by
  rw [longBytes]
  congr 1
  omega

variable {storage : σ} {transcript rest : Bytes}

theorem readFully_run {data : Bytes} {n : Nat} (h : data.length = n) :
    readFully n ⟨data ++ rest, transcript, storage⟩ = (.ok data, ⟨rest, transcript, storage⟩) :=
  within_ok (readExactly_append h rest)

theorem readUnsignedByte_run {n : Nat} (h : n < 256) :
    readUnsignedByte ⟨bigEndian 1 n ++ rest, transcript, storage⟩ =
      (.ok n, ⟨rest, transcript, storage⟩) := by
  refine (bind_ok (readFully_run (length_bigEndian 1 n))).trans ?_
  rw [pure_run, ofBigEndian_bigEndian (by omega)]

theorem readInt_run {n : Nat} (h : n < 2 ^ 31) :
    readInt ⟨bigEndian 4 n ++ rest, transcript, storage⟩ =
      (.ok (n : Int), ⟨rest, transcript, storage⟩) := by
  refine (bind_ok (readFully_run (length_bigEndian 4 n))).trans ?_
  rw [pure_run, ofBigEndian_bigEndian (by omega), toSigned_of_lt (by omega)]

theorem readLong_run {n : Nat} (h : n < 2 ^ 63) :
    readLong ⟨bigEndian 8 n ++ rest, transcript, storage⟩ =
      (.ok (n : Int), ⟨rest, transcript, storage⟩) := by
  refine (bind_ok (readFully_run (length_bigEndian 8 n))).trans ?_
  rw [pure_run, ofBigEndian_bigEndian (by omega), toSigned_of_lt (by omega)]

theorem readAuthenticatedText_run {bytes : Bytes} (h : bytes.length ≤ MAX_TEXT_BYTES) :
    readAuthenticatedText d ⟨bigEndian 4 bytes.length ++ (bytes ++ rest), transcript, storage⟩ =
      (.ok (d.decode bytes),
        ⟨rest, transcript ++ bigEndian 4 bytes.length ++ bytes, storage⟩) := by
  have hlt : bytes.length < 2 ^ 31 := by
    simp only [MAX_TEXT_BYTES] at h
    omega
  refine (bind_ok (readInt_run hlt)).trans ?_
  refine (bind_ok rfl).trans ?_
  refine (bind_ok (require_pos (by omega))).trans ?_
  refine (bind_ok (readFully_run (by rw [Int.toNat_natCast]))).trans ?_
  refine (bind_ok rfl).trans ?_
  rw [pure_run, intBytes_nat (by omega)]

theorem entryControlFrame_eq {index kind : Nat} (hi : index < 2 ^ 32) {path : Text}
    (hp : (utf8 path).length < 2 ^ 32) (size : Int) :
    entryControlFrame index kind path size =
      controlText index kind path (if kind = 1 then longBytes size else []) := by
  have hcontext : ENTRY_CONTROL_CONTEXT = entryContext := rfl
  simp only [entryControlFrame, controlText, writeText, hcontext, intBytes_nat hi,
    intBytes_nat hp, List.append_assoc]

end OpenAdb.P2p.Receiver
