import OpenAdb.Lib.Base64
import OpenAdb.Lib.JavaText
import Mathlib.Data.Bool.AllAny

namespace OpenAdb.Shizuku.Request

open OpenAdb.Lib OpenAdb.Lib.PyText OpenAdb.Lib.Encoding OpenAdb.Lib.JavaText

def maxRequestBytes : Nat := 128 * 1024

def maxArguments : Nat := 32

def maxArgumentBytes : Nat := 64 * 1024

def requestPrefix : Text := "OPENADB_SHIZUKU_REQUEST".toList

def protocolVersion : Nat := 1

def argumentLine (argument : Text) : Text :=
  "arg_b64=".toList ++ Base64.encode (utf8 argument)

def requestLines (arguments : List Text) (expectedUid : Nat) : List Text :=
  (requestPrefix ++ ' ' :: formatNat protocolVersion) ::
    ("expected_uid=".toList ++ formatNat expectedUid) ::
    ("argv_count=".toList ++ formatNat arguments.length) :: arguments.map argumentLine

def requestText (arguments : List Text) (expectedUid : Nat) : Text :=
  ['\n'].intercalate (requestLines arguments expectedUid) ++ ['\n']

/-- The text is ASCII, whose ASCII encoding is its UTF-8 encoding. -/
def requestPayload (arguments : List Text) (expectedUid : Nat) : Bytes :=
  utf8 (requestText arguments expectedUid)

def argumentError (argument : Text) : Option Text :=
  if '\x00' ∈ argument then
    some "Shizuku command arguments cannot contain NUL bytes.".toList
  else if maxArgumentBytes < (utf8 argument).length then
    some "A Shizuku command argument exceeds the 64 KiB safety limit.".toList
  else none

/-- The empty text accepts the arguments. -/
def validateArguments (arguments : List Text) (expectedUid : Nat) : Text :=
  if arguments = [] then "Shizuku command has no executable.".toList
  else if maxArguments < arguments.length then
    "Shizuku command has too many arguments (maximum ".toList ++ formatNat maxArguments ++
      ").".toList
  else match arguments.findSome? argumentError with
    | some error => error
    | none =>
      if expectedUid ≠ 0 ∧ expectedUid ≠ 2000 then
        "Shizuku expected UID must be 0 or 2000.".toList
      else if maxRequestBytes < (requestPayload arguments expectedUid).length then
        "Shizuku request exceeds the 128 KiB encoded safety limit.".toList
      else []

structure Accepted (arguments : List Text) (expectedUid : Nat) : Prop where
  nonempty : arguments ≠ []
  count : arguments.length ≤ maxArguments
  noNul : ∀ a ∈ arguments, '\x00' ∉ a
  argumentBytes : ∀ a ∈ arguments, (utf8 a).length ≤ maxArgumentBytes
  uid : expectedUid = 0 ∨ expectedUid = 2000
  bytes : (requestPayload arguments expectedUid).length ≤ maxRequestBytes

theorem accepted_of_valid {arguments : List Text} {expectedUid : Nat}
    (h : validateArguments arguments expectedUid = []) : Accepted arguments expectedUid := by
  unfold validateArguments at h
  split at h
  · simp at h
  next hne =>
  split at h
  · simp at h
  next hcount =>
  split at h
  next error herror =>
    obtain ⟨a, -, ha⟩ := List.exists_of_findSome?_eq_some herror
    unfold argumentError at ha
    split at ha
    · simp [← Option.some.inj ha] at h
    · split at ha
      · simp [← Option.some.inj ha] at h
      · cases ha
  next hnone =>
  split at h
  · simp at h
  next huid =>
  split at h
  · simp at h
  next hbytes =>
  have hargument : ∀ a ∈ arguments, '\x00' ∉ a ∧ (utf8 a).length ≤ maxArgumentBytes := by
    intro a ha
    have hnone := List.findSome?_eq_none_iff.mp hnone a ha
    unfold argumentError at hnone
    split at hnone
    · cases hnone
    · split at hnone
      · cases hnone
      · exact ⟨by assumption, by omega⟩
  exact ⟨hne, by omega, fun a ha => (hargument a ha).1, fun a ha => (hargument a ha).2,
    by omega, by omega⟩

namespace Service

def maxRequestBytes : Nat := 128 * 1024

def maxArgumentCount : Nat := 32

def maxArgumentBytes : Nat := 64 * 1024

def requestHeader : Text := "OPENADB_SHIZUKU_REQUEST 1".toList

structure Stat where
  regular : Bool
  uid : Nat
  canonical : Bool

/-- A file as `readRequest` meets it: `stat` is missing when `lstat` fails, and
a read that is missing throws. -/
structure RequestFile where
  stat : Option Stat
  length : Nat
  reads : List (Option Bytes)

def isExactRegularFile (file : RequestFile) : Bool :=
  match file.stat with
  | none => false
  | some stat => stat.regular && (stat.uid = 0 || stat.uid = 2000) && stat.canonical

def collect : Bytes → List (Option Bytes) → Option Bytes
  | bytes, [] => some bytes
  | _, none :: _ => none
  | bytes, some [] :: rest => collect bytes rest
  | bytes, some (b :: chunk) :: rest =>
    if maxRequestBytes < bytes.length + (b :: chunk).length then none
    else collect (bytes ++ b :: chunk) rest

def readBoundedRequest (file : RequestFile) : Option Bytes :=
  (collect [] file.reads).filter (fun bytes => bytes ≠ [])

structure CommandRequest where
  expectedUid : Int
  argv : List Text
  deriving DecidableEq

def parseField (start line : Text) : Option Int := do
  let digits ← afterPrefix start line
  (parseInt 10 digits).toOption

def decodeArgument (argumentLine : Text) : Option Text := do
  let encoded ← afterPrefix "arg_b64=".toList argumentLine
  let decoded ← Base64.decode encoded
  guard (decoded.length ≤ maxArgumentBytes)
  let argument ← strictUtf8 decoded
  guard ('\x00' ∉ argument)
  return argument

def readArguments : Nat → Text → Option (List Text × Text)
  | 0, reader => some ([], reader)
  | n + 1, reader => do
    let (line, reader) ← readLine reader
    let argument ← decodeArgument line
    let (argv, reader) ← readArguments n reader
    return (argument :: argv, reader)

def parseRequest (reader : Text) : Option CommandRequest := do
  let (header, reader) ← readLine reader
  guard (header = requestHeader)
  let (expectedUidLine, reader) ← readLine reader
  let expectedUid ← parseField "expected_uid=".toList expectedUidLine
  guard (expectedUid = 0 ∨ expectedUid = 2000)
  let (countLine, reader) ← readLine reader
  let count ← parseField "argv_count=".toList countLine
  guard (1 ≤ count ∧ count ≤ maxArgumentCount)
  let (argv, reader) ← readArguments count.toNat reader
  guard (readLine reader = none)
  return ⟨expectedUid, argv⟩

/-- `none` is the `RequestFormatException` that every failure becomes. -/
def readRequest (decoder : Utf8Decoder) (file : RequestFile) : Option CommandRequest := do
  guard (isExactRegularFile file ∧ 0 < file.length ∧ file.length ≤ maxRequestBytes)
  let requestBytes ← readBoundedRequest file
  parseRequest (decoder.decode requestBytes)

end Service

/-- A character of the request text other than the line ends. -/
def plain (c : Char) : Prop := 14 ≤ c.toNat ∧ c.toNat < 128

theorem inLine_of_plain {c : Char} (h : plain c) : inLine c = true := by
  have hn : ∀ d : Char, d.toNat < 14 → c ≠ d := by
    rintro d hd rfl
    exact absurd h.1 (by omega)
  simp [inLine, hn '\n' (by decide), hn '\r' (by decide)]

theorem plain_formatNat (n : Nat) : ∀ c ∈ formatNat n, plain c := by
  intro c hc
  have hdigit : c.isDigit = true := Nat.isDigit_of_mem_toDigits (by decide) (by decide) hc
  simp only [Char.isDigit, Bool.and_eq_true, decide_eq_true_eq] at hdigit
  have hrange : 48 ≤ c.toNat ∧ c.toNat ≤ 57 := hdigit
  exact ⟨by omega, by omega⟩

theorem plain_argumentLine (argument : Text) : ∀ c ∈ argumentLine argument, plain c := by
  intro c hc
  obtain hc | hc := List.mem_append.mp hc
  · have hall : ∀ d ∈ "arg_b64=".toList, 14 ≤ d.toNat ∧ d.toNat < 128 :=
      List.all_iff_forall_prop.mp (by decide)
    exact hall c hc
  · have := Base64.encode_ascii _ c hc
    exact ⟨by omega, this.2⟩

variable (arguments : List Text) (expectedUid : Nat)

theorem plain_requestLines : ∀ line ∈ requestLines arguments expectedUid, ∀ c ∈ line, plain c := by
  have hname : ∀ name : Text, name.all (fun d => 14 ≤ d.toNat ∧ d.toNat < 128) = true → ∀ n,
      ∀ c ∈ name ++ formatNat n, plain c := by
    intro name hall n c hc
    obtain hc | hc := List.mem_append.mp hc
    · exact List.all_iff_forall_prop.mp hall c hc
    · exact plain_formatNat n c hc
  have hheader : requestPrefix ++ ' ' :: formatNat protocolVersion =
      (requestPrefix ++ [' ']) ++ formatNat protocolVersion := by simp
  simp only [requestLines, List.forall_mem_cons, List.forall_mem_map]
  refine ⟨?_, hname _ (by decide) _, hname _ (by decide) _, fun a _ => plain_argumentLine a⟩
  rw [hheader]
  exact hname _ (by decide) _

theorem requestText_eq : requestText arguments expectedUid =
    unlines (requestLines arguments expectedUid) :=
  intercalate_newline (by simp [requestLines])

theorem requestText_ascii : ∀ c ∈ requestText arguments expectedUid, c.toNat < 128 := by
  intro c hc
  rw [requestText_eq] at hc
  obtain ⟨line, hline, hc⟩ := List.mem_flatMap.mp hc
  obtain hc | hc := List.mem_append.mp hc
  · exact (plain_requestLines arguments expectedUid line hline c hc).2
  · rw [List.mem_singleton.mp hc]
    decide

namespace Service

theorem decodeArgument_argumentLine {argument : Text} (hnul : '\x00' ∉ argument)
    (hbytes : (utf8 argument).length ≤ maxArgumentBytes) :
    decodeArgument (argumentLine argument) = some argument := by
  unfold decodeArgument argumentLine
  simp only [afterPrefix_append, Option.bind_eq_bind, Option.bind_some, Base64.decode_encode,
    strictUtf8_utf8, guard, if_pos hbytes, if_pos hnul]
  rfl

theorem readArguments_unlines {arguments : List Text}
    (h : ∀ a ∈ arguments, '\x00' ∉ a ∧ (utf8 a).length ≤ maxArgumentBytes) (n : Nat) (rest : Text) :
    readArguments (arguments.length + n) (unlines (arguments.map argumentLine) ++ rest) =
      (readArguments n rest).map (fun r => (arguments ++ r.1, r.2)) := by
  induction arguments with
  | nil => simp [unlines]
  | cons a arguments ih =>
    have ha := h a List.mem_cons_self
    have hline : ∀ c ∈ argumentLine a, inLine c = true :=
      fun c hc => inLine_of_plain (plain_argumentLine a c hc)
    have hn : (a :: arguments).length + n = (arguments.length + n) + 1 := by
      rw [List.length_cons]
      omega
    rw [hn, List.map_cons, readArguments, readLine_unlines _ _ hline]
    simp only [Option.bind_eq_bind, Option.bind_some, decodeArgument_argumentLine ha.1 ha.2,
      ih (fun b hb => h b (List.mem_cons_of_mem a hb))]
    cases readArguments n rest <;> rfl

theorem parseField_formatNat (start : Text) {n : Nat} (h : n < 2 ^ 31) :
    parseField start (start ++ formatNat n) = some (n : Int) := by
  simp [parseField, afterPrefix_append, parseInt_formatNat h, Except.toOption]

/-- What follows the three lines that open a request. -/
theorem parseRequest_opening {expectedUid : Nat} {arguments : List Text}
    (huid : expectedUid = 0 ∨ expectedUid = 2000) (hne : arguments ≠ [])
    (hcount : arguments.length ≤ maxArgumentCount) (tail : Text) :
    parseRequest (unlines ((requestLines arguments expectedUid).take 3) ++ tail) = do
      let (argv, reader) ← readArguments arguments.length tail
      guard (readLine reader = none)
      return ⟨expectedUid, argv⟩ := by
  have hheader : requestPrefix ++ ' ' :: formatNat protocolVersion = requestHeader := by decide
  have hlines := plain_requestLines arguments expectedUid
  simp only [requestLines, hheader, List.forall_mem_cons] at hlines
  have hpos := List.length_pos_iff.mpr hne
  have hrange : (1 : Int) ≤ arguments.length ∧ (arguments.length : Int) ≤ maxArgumentCount := by
    omega
  have huid' : (expectedUid : Int) = 0 ∨ (expectedUid : Int) = 2000 := by omega
  have hbound : arguments.length < 2 ^ 31 := by
    have : maxArgumentCount = 32 := rfl
    omega
  have hline : ∀ {line : Text}, (∀ c ∈ line, plain c) → ∀ c ∈ line, inLine c = true :=
    fun h c hc => inLine_of_plain (h c hc)
  simp only [parseRequest, requestLines, hheader, List.take_succ_cons, List.take_zero,
    readLine_unlines _ _ (hline hlines.1), readLine_unlines _ _ (hline hlines.2.1),
    readLine_unlines _ _ (hline hlines.2.2.1), Option.bind_eq_bind, Option.bind_some,
    parseField_formatNat _ hbound, parseField_formatNat (n := expectedUid) _ (by omega),
    guard, if_true, if_pos huid', if_pos hrange, Int.toNat_natCast]
  rfl

theorem collect_chunks {bytes : Bytes} {chunks : List Bytes}
    (h : (bytes ++ chunks.flatten).length ≤ maxRequestBytes) :
    collect bytes (chunks.map some) = some (bytes ++ chunks.flatten) := by
  induction chunks generalizing bytes with
  | nil => simp [collect]
  | cons chunk chunks ih =>
    rw [List.flatten_cons, ← List.append_assoc] at h ⊢
    rw [← ih h]
    cases chunk with
    | nil => rw [List.map_cons, collect, List.append_nil]
    | cons b chunk =>
      have hsize : ¬maxRequestBytes < bytes.length + (b :: chunk).length := by
        simp only [List.length_append] at h ⊢
        omega
      rw [List.map_cons, collect, if_neg hsize]

theorem readRequest_stored (decoder : Utf8Decoder) {owner : Nat} (howner : owner = 0 ∨ owner = 2000)
    {text : Text} {chunks : List Bytes} (hne : text ≠ [])
    (hbytes : (utf8 text).length ≤ maxRequestBytes) (hchunks : chunks.flatten = utf8 text) :
    readRequest decoder ⟨some ⟨true, owner, true⟩, (utf8 text).length, chunks.map some⟩ =
      parseRequest text := by
  have hpos := utf8_length_pos hne
  have hread : collect [] (chunks.map some) = some ([] ++ chunks.flatten) :=
    collect_chunks (by rwa [List.nil_append, hchunks])
  rw [List.nil_append, hchunks] at hread
  have hnonempty : utf8 text ≠ [] := List.length_pos_iff.mp hpos
  have hexact : (decide (owner = 0) || decide (owner = 2000)) = true := by simpa using howner
  have hbounded : readBoundedRequest
      ⟨some ⟨true, owner, true⟩, (utf8 text).length, chunks.map some⟩ = some (utf8 text) := by
    rw [readBoundedRequest, hread, Option.filter_some, if_pos (by simpa using hnonempty)]
  simp [readRequest, isExactRegularFile, hexact, hpos, hbytes, hbounded, decoder.decode_utf8]

theorem parseRequest_requestText {arguments : List Text} {expectedUid : Nat}
    (h : Accepted arguments expectedUid) :
    parseRequest (requestText arguments expectedUid) = some ⟨expectedUid, arguments⟩ := by
  have hsplit : requestText arguments expectedUid =
      unlines ((requestLines arguments expectedUid).take 3) ++
        (unlines (arguments.map argumentLine) ++ []) := by
    rw [requestText_eq]
    simp [requestLines, unlines]
  have hread := readArguments_unlines (fun a ha => ⟨h.noNul a ha, h.argumentBytes a ha⟩) 0 []
  rw [hsplit, parseRequest_opening h.uid h.nonempty h.count, ← Nat.add_zero arguments.length, hread]
  simp [readArguments, readLine]

/-- The service reads from the stored payload what the client put into it. -/
theorem readRequest_requestPayload (decoder : Utf8Decoder) (arguments : List Text)
    (expectedUid owner : Nat) (chunks : List Bytes)
    (hvalid : validateArguments arguments expectedUid = []) (howner : owner = 0 ∨ owner = 2000)
    (hchunks : chunks.flatten = requestPayload arguments expectedUid) :
    readRequest decoder ⟨some ⟨true, owner, true⟩, (requestPayload arguments expectedUid).length,
      chunks.map some⟩ = some ⟨expectedUid, arguments⟩ := by
  have haccepted := accepted_of_valid hvalid
  have hne : requestText arguments expectedUid ≠ [] := by simp [requestText]
  rw [← parseRequest_requestText haccepted]
  exact readRequest_stored decoder howner hne haccepted.bytes hchunks

theorem readRequest_id : readRequest Utf8Decoder.replacing
    ⟨some ⟨true, 2000, true⟩, (requestPayload [['i', 'd'], []] 2000).length,
      [requestPayload [['i', 'd'], []] 2000].map some⟩ = some ⟨2000, [['i', 'd'], []]⟩ :=
  readRequest_requestPayload Utf8Decoder.replacing [['i', 'd'], []] 2000 2000
    [requestPayload [['i', 'd'], []] 2000] (by decide +kernel) (.inr rfl) (by simp)

end Service

end OpenAdb.Shizuku.Request
