import OpenAdb.Lib.ChunkedStream
import OpenAdb.P2p.Sender

namespace OpenAdb.P2p.Response

open OpenAdb.Lib.PyText OpenAdb.Lib.Encoding OpenAdb.Lib.Effects OpenAdb.Lib.ByteStream
open OpenAdb.Lib.ChunkedStream OpenAdb.P2p.Entry OpenAdb.P2p.Wire OpenAdb.P2p.Sender

variable (c : Crypto) (session_key : Bytes) (d : Utf8Decoder) (request_tag : Bytes)
  (expected_entries expected_files expected_bytes : Nat)

/-- `_read_authenticated_response`, from the way in which it reads an exact number of bytes. -/
def readResponse {σ : Type} (readExact : Nat → Effect SendError σ Bytes) : Effect SendError σ (Bool × Text) := do
  let response_magic ← readExact P2P_MAGIC.length
  let status_frame ← readExact 1
  let counts_frame ← readExact 16
  let message_size_frame ← readExact 4
  let message_size := ofBigEndian message_size_frame
  require (message_size ≤ MAX_TEXT_BYTES)
    (.transfer "ACBridge returned oversized protocol text.".toList)
  let message_data ← readExact message_size
  let response_tag ← readExact P2P_AUTH_TAG_SIZE
  let response_payload :=
    response_magic ++ status_frame ++ counts_frame ++ message_size_frame ++ message_data
  let expected_tag := c.hmac session_key (P2P_RESPONSE_CONTEXT ++ request_tag ++ response_payload)
  require (expected_tag = response_tag)
    (.transfer "ACBridge returned a P2P response that failed authentication.".toList)
  require (response_magic = P2P_MAGIC)
    (.transfer "ACBridge returned an unsupported P2P response.".toList)
  let status := ofBigEndian status_frame
  require (status = 0 ∨ status = 1)
    (.transfer "ACBridge returned an invalid P2P response status.".toList)
  let received_entries := ofBigEndian (counts_frame.take 4)
  let received_files := ofBigEndian ((counts_frame.drop 4).take 4)
  let received_bytes := ofBigEndian (counts_frame.drop 8)
  require (¬ (status = 1 ∧ (received_entries ≠ expected_entries ∨
      received_files ≠ expected_files ∨ received_bytes ≠ expected_bytes)))
    (.transfer "ACBridge returned inconsistent authenticated transfer counts.".toList)
  pure (decide (status = 1), d.decode message_data)

/-- The response as it is read from the chunks of a connection. -/
def readAuthenticatedChunks : Effect SendError (List Bytes) (Bool × Text) :=
  readResponse c session_key d request_tag expected_entries expected_files expected_bytes (receiveExactly .eof)

theorem readResponse_simulates {σ τ : Type} {R : σ → τ → Prop} {readA : Nat → Effect SendError σ Bytes}
    {readB : Nat → Effect SendError τ Bytes} (h : ∀ n, Simulates R (readA n) (readB n)) :
    Simulates R
      (readResponse c session_key d request_tag expected_entries expected_files expected_bytes readA)
      (readResponse c session_key d request_tag expected_entries expected_files expected_bytes readB) := by
  unfold readResponse
  refine (h _).bind fun _ => (h _).bind fun _ => (h _).bind fun _ => (h _).bind fun _ => ?_
  refine (Simulates.require _ _).bind fun _ => (h _).bind fun _ => (h _).bind fun _ => ?_
  refine (Simulates.require _ _).bind fun _ => (Simulates.require _ _).bind fun _ => ?_
  exact (Simulates.require _ _).bind fun _ => (Simulates.require _ _).bind fun _ => .pure _

/-- The chunks make no difference. -/
theorem readAuthenticatedChunks_simulates :
    Simulates Carries
      (readAuthenticatedChunks c session_key d request_tag expected_entries expected_files expected_bytes)
      (readAuthenticatedResponse c session_key d request_tag expected_entries expected_files expected_bytes) :=
  readResponse_simulates c session_key d request_tag expected_entries expected_files expected_bytes
    (receiveExactly_simulates SendError.eof)

/-- The bytes of a successful response before its tag. -/
def successPayload (message : Bytes) : Bytes :=
  magic ++ bigEndian 1 1 ++
    (bigEndian 4 expected_entries ++ bigEndian 4 expected_files ++ bigEndian 8 expected_bytes) ++
    bigEndian 4 message.length ++ message

/-- A response to the request that reports success with the expected counts. -/
def success (message : Bytes) : Bytes :=
  successPayload expected_entries expected_files expected_bytes message ++
    responseTag c session_key request_tag (successPayload expected_entries expected_files expected_bytes message)

/-- A message that fits a response, and counts that fit their fields. -/
structure Fits (message : Bytes) : Prop where
  entries : expected_entries < 2 ^ 32
  files : expected_files < 2 ^ 32
  bytes : expected_bytes < 2 ^ 64
  message : message.length ≤ MAX_TEXT_BYTES

/-- Where the tag ends in a stream: after the header, the message of the given length and the tag itself. -/
def tagEnd (stream : Bytes) : Nat := 29 + ofBigEndian ((stream.drop 25).take 4) + 32

variable {c} {session_key} {d} {request_tag} {expected_entries} {expected_files} {expected_bytes}

theorem readExact_meets {P : Bytes → Prop} {Q : Bytes → Bytes → Prop} {E : SendError → Bytes → Prop} {n : Nat}
    (hok : ∀ data rest, P (data ++ rest) → data.length = n → Q data rest)
    (herr : ∀ s, P s → s.length < n → E .eof []) : Meets P (readExact n) Q E := by
  intro s hs
  obtain ⟨data, rest, rfl, hlen, hrun⟩ | hrun := readExactly_outcome (e := SendError.eof) n s
  · rw [readExact, hrun]
    exact hok data rest hs hlen
  · rw [readExact, hrun]
    refine herr s hs (Nat.lt_of_not_le fun hle => ?_)
    rw [readExactly, if_pos hle] at hrun
    cases congrArg Prod.fst hrun

/-- Big-endian counts in a frame of sixteen bytes. -/
theorem counts_frame_eq {frame : Bytes} (hlen : frame.length = 16)
    (he : ofBigEndian (frame.take 4) = expected_entries)
    (hf : ofBigEndian ((frame.drop 4).take 4) = expected_files)
    (hb : ofBigEndian (frame.drop 8) = expected_bytes) :
    frame = bigEndian 4 expected_entries ++ bigEndian 4 expected_files ++ bigEndian 8 expected_bytes ∧
      expected_entries < 2 ^ 32 ∧ expected_files < 2 ^ 32 ∧ expected_bytes < 2 ^ 64 := by
  have hlen1 : (frame.take 4).length = 4 := by
    rw [List.length_take]
    omega
  have hlen2 : ((frame.drop 4).take 4).length = 4 := by
    rw [List.length_take, List.length_drop]
    omega
  have hlen3 : (frame.drop 8).length = 8 := by
    rw [List.length_drop]
    omega
  obtain ⟨h1, hlt1⟩ := bigEndian_ofBigEndian hlen1
  obtain ⟨h2, hlt2⟩ := bigEndian_ofBigEndian hlen2
  obtain ⟨h3, hlt3⟩ := bigEndian_ofBigEndian hlen3
  rw [he] at h1 hlt1
  rw [hf] at h2 hlt2
  rw [hb] at h3 hlt3
  refine ⟨?_, hlt1, hlt2, hlt3⟩
  have hjoin : (frame.drop 4).take 4 ++ frame.drop 8 = frame.drop 4 := by
    have hdrop : frame.drop 8 = (frame.drop 4).drop 4 := by rw [List.drop_drop]
    rw [hdrop, List.take_append_drop]
  rw [h1, h2, h3, List.append_assoc, hjoin, List.take_append_drop]

theorem tagEnd_of {m status counts size rest stream : Bytes} (hm : m.length = 8) (hstatus : status.length = 1)
    (hcounts : counts.length = 16) (hsize : size.length = 4)
    (h : stream = [] ++ m ++ status ++ counts ++ size ++ rest) :
    tagEnd stream = 29 + ofBigEndian size + 32 := by
  have hheader : ([] ++ m ++ status ++ counts).length = 25 := by
    simp only [List.length_append, List.length_nil]
    omega
  rw [h, tagEnd, List.append_assoc, List.drop_left' hheader, List.take_left' hsize]

theorem tagEnd_pos (stream : Bytes) : 61 ≤ tagEnd stream := by
  unfold tagEnd
  omega

/-- A result comes with what was read for it, and a failure leaves what follows the tag. -/
def Read (stream : Bytes) (rest : Bytes) : Prop :=
  ∃ consumed, stream = consumed ++ rest ∧ consumed.length ≤ tagEnd stream

theorem Read.all {stream : Bytes} (h : stream.length ≤ tagEnd stream) : Read stream [] :=
  ⟨stream, (List.append_nil _).symm, h⟩

/-- What a response with the result `r` is, and what follows it. -/
def Delivered (c : Crypto) (session_key : Bytes) (d : Utf8Decoder) (request_tag : Bytes)
    (expected_entries expected_files expected_bytes : Nat) (stream : Bytes) (r : Bool × Text)
    (rest : Bytes) : Prop :=
  Read stream rest ∧
    (r.1 = true → ∃ message, stream =
        success c session_key request_tag expected_entries expected_files expected_bytes message ++ rest ∧
      Fits expected_entries expected_files expected_bytes message ∧ r.2 = d.decode message)

/-- A read extends what is known of the stream. -/
theorem readExact_extends {stream known : Bytes} {n : Nat}
    (hshort : stream.length < known.length + n → stream.length ≤ tagEnd stream) :
    Meets (fun rest => stream = known ++ rest) (readExact n)
      (fun data rest => data.length = n ∧ stream = known ++ data ++ rest) (fun _ rest => Read stream rest) := by
  refine readExact_meets (fun data rest h hlen => ⟨hlen, ?_⟩) fun s h hlen => .all (hshort ?_)
  · rw [h, List.append_assoc]
  · rw [h, List.length_append]
    omega

theorem readAuthenticatedResponse_meets (stream : Bytes) :
    Meets (fun s => stream = [] ++ s)
      (readAuthenticatedResponse c session_key d request_tag expected_entries expected_files expected_bytes)
      (Delivered c session_key d request_tag expected_entries expected_files expected_bytes stream)
      (fun _ rest => Read stream rest) := by
  have hpos := tagEnd_pos stream
  have hmagic : P2P_MAGIC.length = 8 := rfl
  refine Meets.bind (readExact_extends fun h => ?_) fun m => Meets.of_fact fun hm => ?_
  · simp only [List.length_nil] at h
    omega
  refine Meets.bind (readExact_extends fun h => ?_) fun status => Meets.of_fact fun hstatus => ?_
  · simp only [List.length_append, List.length_nil] at h
    omega
  refine Meets.bind (readExact_extends fun h => ?_) fun counts => Meets.of_fact fun hcounts => ?_
  · simp only [List.length_append, List.length_nil] at h
    omega
  refine Meets.bind (readExact_extends fun h => ?_) fun size => Meets.of_fact fun hsize => ?_
  · simp only [List.length_append, List.length_nil] at h
    omega
  refine Meets.of_pre (fun rest h => tagEnd_of hm hstatus hcounts hsize h) fun hend => ?_
  refine Meets.require_bind (fun hfits => ?_) fun _ rest h => ⟨_, h, ?_⟩
  swap
  · simp only [List.length_append, List.length_nil]
    omega
  refine Meets.bind (readExact_extends fun h => ?_) fun message => Meets.of_fact fun hmessage => ?_
  · simp only [List.length_append, List.length_nil] at h
    omega
  refine Meets.bind (readExact_extends fun h => ?_) fun tag => Meets.of_fact fun htag => ?_
  · simp only [List.length_append, List.length_nil, P2P_AUTH_TAG_SIZE] at h
    omega
  have hread (rest : Bytes) (h : stream = [] ++ m ++ status ++ counts ++ size ++ message ++ tag ++ rest) :
      Read stream rest := by
    refine ⟨_, h, ?_⟩
    simp only [List.length_append, List.length_nil]
    rw [P2P_AUTH_TAG_SIZE] at htag
    omega
  refine Meets.require_bind (fun hauthentic => ?_) fun _ => hread
  refine Meets.require_bind (fun hmagic => ?_) fun _ => hread
  refine Meets.require_bind (fun _ => ?_) fun _ => hread
  refine Meets.require_bind (fun hexpected => ?_) fun _ => hread
  refine Meets.pure fun rest h => ⟨hread rest h, fun hone => ?_⟩
  rw [decide_eq_true_eq] at hone
  obtain ⟨he, hf, hb⟩ : ofBigEndian (counts.take 4) = expected_entries ∧
      ofBigEndian ((counts.drop 4).take 4) = expected_files ∧ ofBigEndian (counts.drop 8) = expected_bytes := by
    by_contra hne
    refine hexpected ⟨hone, ?_⟩
    by_contra hall
    push Not at hall
    exact hne hall
  obtain ⟨hframe, he, hf, hb⟩ := counts_frame_eq hcounts he hf hb
  have hpayload : m ++ status ++ counts ++ size ++ message =
      successPayload expected_entries expected_files expected_bytes message := by
    have hstatus := (bigEndian_ofBigEndian hstatus).1
    have hsize := (bigEndian_ofBigEndian hsize).1
    rw [hone] at hstatus
    rw [← hmessage] at hsize
    rw [successPayload, hmagic, hframe, hstatus, hsize]
    rfl
  rw [hpayload] at hauthentic
  refine ⟨message, ?_, ⟨he, hf, hb, hmessage ▸ hfits⟩, rfl⟩
  rw [h, List.nil_append, hpayload, ← hauthentic]
  rfl

theorem readExact_run {n : Nat} {data : Bytes} (h : data.length = n) (rest : Bytes) :
    readExact n (data ++ rest) = (.ok data, rest) :=
  readExactly_append h rest

/-- The counts are read back from their frame. -/
theorem counts_of_frame {message : Bytes} (h : Fits expected_entries expected_files expected_bytes message) :
    ofBigEndian ((bigEndian 4 expected_entries ++ bigEndian 4 expected_files ++ bigEndian 8 expected_bytes).take 4) =
        expected_entries ∧
      ofBigEndian (((bigEndian 4 expected_entries ++ bigEndian 4 expected_files ++
        bigEndian 8 expected_bytes).drop 4).take 4) = expected_files ∧
      ofBigEndian ((bigEndian 4 expected_entries ++ bigEndian 4 expected_files ++ bigEndian 8 expected_bytes).drop 8) =
        expected_bytes := by
  have hentries := h.entries
  have hfiles := h.files
  have hbytes := h.bytes
  rw [List.append_assoc, List.take_left' (length_bigEndian 4 _), List.drop_left' (length_bigEndian 4 _),
    List.take_left' (length_bigEndian 4 _), ← List.append_assoc,
    List.drop_left' (by simp only [List.length_append, length_bigEndian])]
  exact ⟨ofBigEndian_bigEndian (by omega), ofBigEndian_bigEndian (by omega), ofBigEndian_bigEndian (by omega)⟩

/-- A success with the expected counts is accepted, and what follows its tag is left. -/
theorem readAuthenticatedResponse_success {message : Bytes}
    (h : Fits expected_entries expected_files expected_bytes message) (rest : Bytes) :
    readAuthenticatedResponse c session_key d request_tag expected_entries expected_files expected_bytes
        (success c session_key request_tag expected_entries expected_files expected_bytes message ++ rest) =
      (.ok (true, d.decode message), rest) := by
  have hsize : ofBigEndian (bigEndian 4 message.length) = message.length := by
    have hmessage := h.message
    rw [MAX_TEXT_BYTES] at hmessage
    exact ofBigEndian_bigEndian (by omega)
  obtain ⟨hentries, hfiles, hbytes⟩ := counts_of_frame h
  have htag : (responseTag c session_key request_tag
      (successPayload expected_entries expected_files expected_bytes message)).length = P2P_AUTH_TAG_SIZE :=
    c.hmac_length _ _
  have hsplit : success c session_key request_tag expected_entries expected_files expected_bytes message ++ rest =
      magic ++ (bigEndian 1 1 ++
        ((bigEndian 4 expected_entries ++ bigEndian 4 expected_files ++ bigEndian 8 expected_bytes) ++
          (bigEndian 4 message.length ++ (message ++ (responseTag c session_key request_tag
            (successPayload expected_entries expected_files expected_bytes message) ++ rest))))) := by
    simp only [success, successPayload, List.append_assoc]
  have hone : ofBigEndian (bigEndian 1 1) = 1 := ofBigEndian_bigEndian (by decide)
  rw [hsplit, readAuthenticatedResponse]
  refine (bind_ok (readExact_run rfl _)).trans ?_
  refine (bind_ok (readExact_run (length_bigEndian 1 1) _)).trans ?_
  refine (bind_ok (readExact_run (by simp only [List.length_append, length_bigEndian]) _)).trans ?_
  refine (bind_ok (readExact_run (length_bigEndian 4 _) _)).trans ?_
  rw [hsize]
  refine (bind_ok (require_pos h.message)).trans ?_
  refine (bind_ok (readExact_run rfl _)).trans ?_
  refine (bind_ok (readExact_run htag _)).trans ?_
  rw [hone, hentries, hfiles, hbytes]
  refine (bind_ok (require_pos rfl)).trans ?_
  refine (bind_ok (require_pos rfl)).trans ?_
  refine (bind_ok (require_pos (.inr rfl))).trans ?_
  refine (bind_ok (require_pos (by simp))).trans ?_
  rw [pure_run, decide_eq_true rfl]

theorem readAuthenticatedResponse_outcome (stream : Bytes) :
    Outcome (Delivered c session_key d request_tag expected_entries expected_files expected_bytes stream)
      (fun _ rest => Read stream rest)
      (readAuthenticatedResponse c session_key d request_tag expected_entries expected_files expected_bytes
        stream) :=
  readAuthenticatedResponse_meets stream stream rfl

theorem readAuthenticatedResponse_read (stream : Bytes) :
    Read stream (readAuthenticatedResponse c session_key d request_tag expected_entries expected_files
      expected_bytes stream).2 := by
  have h : Outcome (Delivered c session_key d request_tag expected_entries expected_files expected_bytes stream) _ _ :=
    readAuthenticatedResponse_outcome stream
  cases hrun : readAuthenticatedResponse c session_key d request_tag expected_entries expected_files
      expected_bytes stream with
  | mk r rest =>
    rw [hrun] at h
    cases r with
    | ok r => exact h.1
    | error e => exact h

theorem success_of_accepted {stream rest : Bytes} {m : Text}
    (h : readAuthenticatedResponse c session_key d request_tag expected_entries expected_files expected_bytes
      stream = (.ok (true, m), rest)) :
    ∃ message, stream =
        success c session_key request_tag expected_entries expected_files expected_bytes message ++ rest ∧
      Fits expected_entries expected_files expected_bytes message ∧ m = d.decode message := by
  have houtcome : Outcome (Delivered c session_key d request_tag expected_entries expected_files expected_bytes stream)
      _ _ := readAuthenticatedResponse_outcome stream
  rw [h] at houtcome
  exact houtcome.2 rfl

/-- The success that the desktop accepts is that of its grammar, up to the tag and however it arrives. -/
theorem readAuthenticatedChunks_accepts {chunks chunks' : List Bytes} (hchunks : [] ∉ chunks)
    (hchunks' : [] ∉ chunks') (hsame : chunks.flatten = chunks'.flatten) :
    (∀ m, (readAuthenticatedChunks c session_key d request_tag expected_entries expected_files expected_bytes
        chunks).1 = .ok (true, m) ↔
      ∃ message rest, chunks.flatten =
          success c session_key request_tag expected_entries expected_files expected_bytes message ++ rest ∧
        Fits expected_entries expected_files expected_bytes message ∧ d.decode message = m) ∧
    (∀ m, (readAuthenticatedChunks c session_key d request_tag expected_entries expected_files expected_bytes
        chunks).1 = .ok (true, m) → ∃ message, chunks.flatten =
          success c session_key request_tag expected_entries expected_files expected_bytes message ++
            (readAuthenticatedChunks c session_key d request_tag expected_entries expected_files expected_bytes
              chunks).2.flatten) ∧
    Read chunks.flatten (readAuthenticatedChunks c session_key d request_tag expected_entries expected_files
      expected_bytes chunks).2.flatten ∧
    (readAuthenticatedChunks c session_key d request_tag expected_entries expected_files expected_bytes
        chunks).1 =
      (readAuthenticatedChunks c session_key d request_tag expected_entries expected_files expected_bytes
        chunks').1 ∧
    (readAuthenticatedChunks c session_key d request_tag expected_entries expected_files expected_bytes
        chunks).2.flatten =
      (readAuthenticatedChunks c session_key d request_tag expected_entries expected_files expected_bytes
        chunks').2.flatten := by
  obtain ⟨hresult, hrest, _⟩ := readAuthenticatedChunks_simulates c session_key d request_tag expected_entries
    expected_files expected_bytes chunks chunks.flatten ⟨rfl, hchunks⟩
  obtain ⟨hresult', hrest', _⟩ := readAuthenticatedChunks_simulates c session_key d request_tag expected_entries
    expected_files expected_bytes chunks' chunks.flatten ⟨hsame.symm, hchunks'⟩
  rw [hresult, hresult', hrest, hrest']
  refine ⟨fun m => ⟨fun h => ?_, fun h => ?_⟩, fun m h => ?_, readAuthenticatedResponse_read _, rfl, rfl⟩
  · obtain ⟨message, hstream, hfits, hm⟩ := success_of_accepted (Prod.ext h rfl)
    exact ⟨message, _, hstream, hfits, hm.symm⟩
  · obtain ⟨message, rest, hstream, hfits, rfl⟩ := h
    rw [hstream, readAuthenticatedResponse_success hfits]
  · obtain ⟨message, hstream, _⟩ := success_of_accepted (Prod.ext h rfl)
    exact ⟨message, hstream⟩

/-- Every tag is 32 times the same byte. -/
def Crypto.constant : Crypto where
  hmac _ _ := List.replicate 32 7
  sha256 _ := List.replicate 32 7
  hmac_length _ _ := List.length_replicate
  sha256_length _ := List.length_replicate

/-- A success with an empty message and one more byte, at once or byte by byte. -/
def sampleStream : Bytes := success Crypto.constant [1] [2] 1 1 5 [] ++ [9]

theorem readAuthenticatedChunks_accepts_sample :
    (∀ m, (readAuthenticatedChunks Crypto.constant [1] .replacing [2] 1 1 5 [sampleStream]).1 = .ok (true, m) ↔
      ∃ message rest, [sampleStream].flatten = success Crypto.constant [1] [2] 1 1 5 message ++ rest ∧
        Fits 1 1 5 message ∧ Utf8Decoder.replacing.decode message = m) ∧
    (∀ m, (readAuthenticatedChunks Crypto.constant [1] .replacing [2] 1 1 5 [sampleStream]).1 = .ok (true, m) →
      ∃ message, [sampleStream].flatten = success Crypto.constant [1] [2] 1 1 5 message ++
        (readAuthenticatedChunks Crypto.constant [1] .replacing [2] 1 1 5 [sampleStream]).2.flatten) ∧
    Read [sampleStream].flatten
      (readAuthenticatedChunks Crypto.constant [1] .replacing [2] 1 1 5 [sampleStream]).2.flatten ∧
    (readAuthenticatedChunks Crypto.constant [1] .replacing [2] 1 1 5 [sampleStream]).1 =
      (readAuthenticatedChunks Crypto.constant [1] .replacing [2] 1 1 5 (sampleStream.map ([·]))).1 ∧
    (readAuthenticatedChunks Crypto.constant [1] .replacing [2] 1 1 5 [sampleStream]).2.flatten =
      (readAuthenticatedChunks Crypto.constant [1] .replacing [2] 1 1 5 (sampleStream.map ([·]))).2.flatten :=
  readAuthenticatedChunks_accepts (by decide) (by simp) (by decide)

end OpenAdb.P2p.Response
