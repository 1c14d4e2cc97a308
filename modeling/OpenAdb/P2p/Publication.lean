import OpenAdb.P2p.Storage

namespace OpenAdb.P2p.Publication

open OpenAdb.Lib.PyText OpenAdb.Lib.Encoding OpenAdb.Lib.JavaText OpenAdb.Lib.Effects
open OpenAdb.Lib.ByteStream OpenAdb.Lib.FileTree
open OpenAdb.P2p.Wire OpenAdb.P2p.Receiver OpenAdb.P2p.Storage

/-- The path that a record names, as the receiver understands it. -/
def receivedPath (d : Utf8Decoder) (r : Record) : Text :=
  replaceChar '\\' '/' (d.decode r.pathBytes)

variable {σ H α : Type} {c : Crypto} {d : Utf8Decoder} {reads : ReadSizes} {st : Storage σ H}
  {idle : List Stored → σ → Prop} {writing : List Stored → H → Text → Bytes → σ → Prop}
  {log : List Stored} {input consumed : Bytes} {S : σ → Prop}

/-- So much of the input is consumed, and the storage is in a known condition. -/
def At (input consumed : Bytes) (S : σ → Prop) (s : Session σ) : Prop :=
  input = consumed ++ s.input ∧ S s.storage

def Kept (S : σ → Prop) (_ : JavaException) (s : Session σ) : Prop := S s.storage

theorem readFully_meets (n : Nat) :
    Meets (At input consumed S) (readFully n)
      (fun data s => data.length = n ∧ At input (consumed ++ data) S s) (Kept S) := by
  rintro ⟨rest, transcript, storage⟩ ⟨hin, hs⟩
  obtain ⟨data, left, hrest, hlen, hrun⟩ | hrun :=
    readExactly_outcome (e := (⟨.eof, []⟩ : JavaException)) n rest
  · rw [readFully, within, hrun]
    refine ⟨hlen, ?_, hs⟩
    rw [hin, List.append_assoc]
    exact congrArg (consumed ++ ·) hrest
  · rw [readFully, within, hrun]
    exact hs

theorem updateTranscript_meets (data : Bytes) :
    Meets (At input consumed S) (updateTranscript data) (fun _ => At input consumed S) (Kept S) :=
  Meets.update (fun _ h => h)

theorem require_meets {p : Prop} [Decidable p] (e : JavaException) :
    Meets (At input consumed S) (require p e) (fun _ s => p ∧ At input consumed S s) (Kept S) :=
  Meets.require (fun hp _ h => ⟨hp, h⟩) (fun _ _ h => h.2)

theorem readUnsignedByte_meets :
    Meets (At input consumed S) readUnsignedByte
      (fun n s => n < 256 ∧ At input (consumed ++ bigEndian 1 n) S s) (Kept S) := by
  refine (readFully_meets 1).bind (fun data => Meets.of_fact fun hlen => Meets.pure fun s hs => ?_)
  obtain ⟨hdata, hlt⟩ := bigEndian_ofBigEndian hlen
  exact ⟨by omega, by rwa [hdata]⟩

/-- A non-negative number was sent in its own encoding. -/
theorem readInt_meets :
    Meets (At input consumed S) readInt
      (fun n s => ∃ data, (0 ≤ n → data = bigEndian 4 n.toNat ∧ n.toNat < 2 ^ 31) ∧
        At input (consumed ++ data) S s) (Kept S) := by
  refine (readFully_meets 4).bind (fun data => Meets.of_fact fun hlen => Meets.pure fun s hs => ?_)
  obtain ⟨hdata, hlt⟩ := bigEndian_ofBigEndian hlen
  refine ⟨data, fun h0 => ?_, hs⟩
  have hsmall := toSigned_nonneg 32 (by omega) h0
  rw [toSigned_of_lt hsmall, Int.toNat_natCast]
  exact ⟨hdata.symm, hsmall⟩

theorem readLong_meets :
    Meets (At input consumed S) readLong
      (fun n s => ∃ data, (0 ≤ n → data = bigEndian 8 n.toNat ∧ n.toNat < 2 ^ 63) ∧
        At input (consumed ++ data) S s) (Kept S) := by
  refine (readFully_meets 8).bind (fun data => Meets.of_fact fun hlen => Meets.pure fun s hs => ?_)
  obtain ⟨hdata, hlt⟩ := bigEndian_ofBigEndian hlen
  refine ⟨data, fun h0 => ?_, hs⟩
  have hsmall := toSigned_nonneg 64 (by omega) h0
  rw [toSigned_of_lt hsmall, Int.toNat_natCast]
  exact ⟨hdata.symm, hsmall⟩

theorem readAuthenticatedText_meets :
    Meets (At input consumed S) (readAuthenticatedText d)
      (fun text s => ∃ bytes, text = d.decode bytes ∧
        At input (consumed ++ (bigEndian 4 bytes.length ++ bytes)) S s) (Kept S) := by
  refine readInt_meets.bind (fun length => Meets.of_exists fun data => Meets.of_fact fun hdata => ?_)
  refine (updateTranscript_meets _).bind (fun _ => (require_meets _).bind (fun _ => ?_))
  refine Meets.of_fact fun hlength => ?_
  obtain ⟨rfl, -⟩ := hdata hlength.1
  refine (readFully_meets length.toNat).bind (fun bytes => Meets.of_fact fun hbytes => ?_)
  refine (updateTranscript_meets bytes).bind (fun _ => Meets.pure fun s hs => ⟨bytes, rfl, ?_⟩)
  rwa [hbytes, ← List.append_assoc]

def sizeBytes (kind : Nat) (size : Int) : Bytes := if kind = 1 then longBytes size else []

/-- A directory carries no size, a file a size that fits a signed long. -/
def KindSize (kind : Nat) (size : Int) : Prop :=
  kind = 0 ∨ kind = 1 ∧ ∃ n : Nat, n < 2 ^ 63 ∧ size = n

theorem readSize_meets (kind : Nat) (path : Text) :
    Meets (At input consumed S) (readSize kind path)
      (fun size s => KindSize kind size ∧ At input (consumed ++ sizeBytes kind size) S s)
      (Kept S) := by
  refine Meets.ite (fun hkind => ?_) (fun hkind => ?_)
  · refine readLong_meets.bind
      (fun size => Meets.of_exists fun data => Meets.of_fact fun hdata => ?_)
    refine (updateTranscript_meets _).bind (fun _ => (require_meets _).bind (fun _ => ?_))
    refine Meets.of_fact fun hsize => Meets.pure fun s hs => ?_
    obtain ⟨hbytes, hlt⟩ := hdata hsize
    have hnat : size = (size.toNat : Int) := (Int.toNat_of_nonneg hsize).symm
    refine ⟨.inr ⟨hkind, size.toNat, hlt, hnat⟩, ?_⟩
    rw [sizeBytes, if_pos hkind, hnat, longBytes_nat (by omega), ← hbytes]
    exact hs
  · refine (require_meets _).bind (fun _ => Meets.of_fact fun h0 => Meets.pure fun s hs => ?_)
    refine ⟨.inl h0, ?_⟩
    rw [sizeBytes, if_neg hkind, List.append_nil]
    exact hs

theorem validateRelativePath_ok {path clean : Text} (h : validateRelativePath path = .ok clean) :
    clean = replaceChar '\\' '/' path ∧ (utf8 clean).length < 2 ^ 32 := by
  rw [validateRelativePath] at h
  dsimp only at h
  split_ifs at h with h1 h2 h3
  cases h
  refine ⟨rfl, ?_⟩
  have hle := utf8_length_le path
  rw [not_or, Bootstrap.MAX_TEXT_BYTES] at h1
  rw [Bootstrap.utf8_length_replace]
  omega

/-- A frame that is accepted is the frame that its tag authenticates. -/
theorem readEntryFrame_meets {key : Bytes} {index : Nat} (hi : index < 2 ^ 32) :
    Meets (At input consumed S) (readEntryFrame c d key index)
      (fun frame s => ∃ pathBytes tag,
        (frame.2.1 = replaceChar '\\' '/' (d.decode pathBytes) ∧ KindSize frame.1 frame.2.2 ∧
          c.hmac key (controlText index frame.1 frame.2.1 (sizeBytes frame.1 frame.2.2)) = tag) ∧
        At input (consumed ++ (bigEndian 1 frame.1 ++ (bigEndian 4 pathBytes.length ++ pathBytes) ++
          sizeBytes frame.1 frame.2.2 ++ tag)) S s)
      (Kept S) := by
  refine readUnsignedByte_meets.bind (fun kind => Meets.of_fact fun _ => ?_)
  refine (updateTranscript_meets _).bind (fun _ => ?_)
  refine readAuthenticatedText_meets.bind
    (fun text => Meets.of_exists fun pathBytes => Meets.of_fact fun htext => ?_)
  refine Meets.bind (Q := fun path s => validateRelativePath text = .ok path ∧ At input _ S s)
    (Meets.lift (fun path h s hs => ⟨h, hs⟩) (fun _ _ s hs => hs.2)) (fun path => ?_)
  refine Meets.of_fact fun hvalid => ?_
  obtain ⟨hpath, hlen⟩ := validateRelativePath_ok hvalid
  refine (readSize_meets kind path).bind (fun size => Meets.of_fact fun hsize => ?_)
  refine (readFully_meets 32).bind (fun tag => Meets.of_fact fun _ => ?_)
  refine (updateTranscript_meets tag).bind (fun _ => (require_meets _).bind (fun _ => ?_))
  refine Meets.of_fact fun htag => Meets.pure fun s hs => ⟨pathBytes, tag, ⟨?_, hsize, ?_⟩, ?_⟩
  · rw [hpath, htext]
  · rw [← htag, entryControlFrame_eq hi hlen]
    rfl
  · simpa only [List.append_assoc] using hs

theorem onStorage_meets (input consumed : Bytes) {x : Effect JavaException σ α} {Q : α → σ → Prop}
    {E : σ → Prop} (h : Meets S x Q (fun _ => E)) :
    Meets (At input consumed S) (onStorage x) (fun a => At input consumed (Q a)) (Kept E) := by
  rintro s ⟨hin, hs⟩
  have ho := h s.storage hs
  rw [onStorage, within]
  cases hrun : x s.storage with
  | mk r t =>
    rw [hrun] at ho
    cases r with
    | ok a => exact ⟨hin, ho⟩
    | error e => exact ho

theorem readSome_meets (wanted : Nat) :
    Meets (At input consumed S) (readSome reads wanted)
      (fun chunk s => chunk.length ≤ wanted ∧ At input (consumed ++ chunk) S s) (Kept S) := by
  rintro ⟨rest, transcript, storage⟩ ⟨hin, hs⟩
  refine ⟨?_, ?_, hs⟩
  · rw [List.length_take]
    omega
  · rw [List.append_assoc, List.take_append_drop]
    exact hin

/-- The storage holds a temporary document with the bytes received so far. -/
def Open (writing : List Stored → H → Text → Bytes → σ → Prop) (log : List Stored) (temp : H)
    (path : Text) (storage : σ) : Prop := ∃ content, writing log temp path content storage

theorem receiveChunks_meets (hst : Stores st True idle writing) (temp : H) (path : Text)
    (remaining : Nat) (written : Bytes) :
    Meets (At input consumed (writing log temp path written))
      (receiveChunks reads path (st.write temp) remaining)
      (fun content s => content.length = remaining ∧
        At input (consumed ++ content) (writing log temp path (written ++ content)) s)
      (Kept (Open writing log temp path)) := by
  induction remaining using Nat.strong_induction_on generalizing consumed written with
  | _ remaining ih =>
    rw [receiveChunks]
    by_cases h0 : remaining = 0
    · rw [dif_pos h0]
      refine Meets.pure fun s hs => ⟨h0.symm, ?_⟩
      rw [List.append_nil, List.append_nil]
      exact hs
    rw [dif_neg h0]
    refine ((readSome_meets _).weaken (fun _ s hs => ⟨written, hs⟩)).bind (fun chunk => Meets.of_fact fun hle => ?_)
    by_cases hnil : chunk = []
    · rw [dif_pos hnil]
      exact Meets.raise fun s hs => ⟨written, hs.2⟩
    rw [dif_neg hnil]
    have hpos := List.length_pos_iff.mpr hnil
    have hwrite := onStorage_meets input (consumed ++ chunk)
      ((hst.write log temp path written chunk).weaken (fun _ _ h => h.elim) :
        Meets _ _ _ (fun _ => Open writing log temp path))
    refine hwrite.bind (fun _ => ?_)
    refine (ih (remaining - chunk.length) (by omega) (written ++ chunk)).bind (fun rest => ?_)
    refine Meets.of_fact fun hrest => Meets.pure fun s hs => ⟨?_, ?_⟩
    · rw [List.length_append]
      omega
    · simpa only [List.append_assoc] using hs

/-- A payload that is accepted has the size, the digest and the authenticator. -/
theorem receiveVerifiedPayload_meets (hst : Stores st True idle writing) {key : Bytes} (temp : H)
    (path : Text) {n : Nat} (hn : n < 2 ^ 63) :
    Meets (At input consumed (writing log temp path []))
      (receiveVerifiedPayload c reads path n key (st.write temp))
      (fun _ s => ∃ p : Payload, (p.content.length = n ∧ c.sha256 p.content = p.digest ∧
          c.hmac key (utf8 path ++ [0] ++ bigEndian 8 n ++ p.content) = p.authenticator) ∧
        At input (consumed ++ (p.content ++ p.digest ++ p.authenticator))
          (writing log temp path p.content) s)
      (Kept (Open writing log temp path)) := by
  have hkept : ∀ (content : Bytes) (e : JavaException) (s : Session σ),
      Kept (writing log temp path content) e s → Kept (Open writing log temp path) e s :=
    fun content _ _ hs => ⟨content, hs⟩
  rw [receiveVerifiedPayload, Int.toNat_natCast]
  refine (receiveChunks_meets hst temp path n []).bind
    (fun content => Meets.of_fact fun hlen => ?_)
  rw [List.nil_append]
  refine Meets.mono (Q := fun _ s => ∃ p : Payload, (p.content.length = n ∧
      c.sha256 p.content = p.digest ∧
      c.hmac key (utf8 path ++ [0] ++ bigEndian 8 n ++ p.content) = p.authenticator) ∧
      At input (consumed ++ (p.content ++ p.digest ++ p.authenticator))
        (writing log temp path p.content) s) ?_ (fun _ h => h) (fun _ _ h => h) (hkept content)
  refine (readFully_meets 32).bind (fun digest => Meets.of_fact fun _ => ?_)
  refine (updateTranscript_meets digest).bind (fun _ => (require_meets _).bind (fun _ => ?_))
  refine Meets.of_fact fun hdigest => ?_
  refine (readFully_meets 32).bind (fun authenticator => Meets.of_fact fun _ => ?_)
  refine (updateTranscript_meets authenticator).bind (fun _ => ?_)
  refine (require_meets _).mono (fun _ h => h) (fun _ s hs => ?_) (fun _ _ h => h)
  obtain ⟨hauth, hs⟩ := hs
  refine ⟨⟨content, digest, authenticator⟩, ⟨hlen, hdigest.symm, ?_⟩, ?_⟩
  · rw [hauth, longBytes_nat (by omega)]
  · simpa only [List.append_assoc] using hs

/-- A file is stored with a verified payload, or the storage is as before. -/
theorem receiveInto_meets (hst : Stores st True idle writing) {key : Bytes} (path : Text) {n : Nat}
    (hn : n < 2 ^ 63) :
    Meets (At input consumed (idle log)) (receiveInto c reads st path n key)
      (fun _ s => ∃ p : Payload, (p.content.length = n ∧ c.sha256 p.content = p.digest ∧
          c.hmac key (utf8 path ++ [0] ++ bigEndian 8 n ++ p.content) = p.authenticator) ∧
        At input (consumed ++ (p.content ++ p.digest ++ p.authenticator))
          (idle (log ++ [.file path p.content])) s)
      (Kept (idle log)) := by
  have hcreate := onStorage_meets input consumed
    ((hst.createTemp log path).weaken (fun _ _ h => h.2))
  refine hcreate.bind (fun temp => Meets.onRaise (E := Kept (Open writing log temp path)) ?_ ?_)
  · refine (receiveVerifiedPayload_meets hst temp path hn).bind
      (fun _ => Meets.of_exists fun p => Meets.of_fact fun hp => ?_)
    have hpublish := onStorage_meets input
      (consumed ++ (p.content ++ p.digest ++ p.authenticator))
      ((hst.publish log temp path p.content).weaken (fun _ _ h => h.elim) :
        Meets _ _ _ (fun _ => Open writing log temp path))
    exact hpublish.mono (fun _ h => h) (fun _ _ h => ⟨p, hp, h⟩) (fun _ _ h => h)
  · rintro e s ⟨content, hs⟩
    obtain ⟨_, storage, hrun, hidle⟩ := (hst.discard log temp path content).runs hs
    rw [onStorage, within, hrun]
    exact hidle

/-- Entry `index` was verified: its record passed the three checks. -/
structure Received (c : Crypto) (d : Utf8Decoder) (key : Bytes) (index : Nat) (r : Record) : Prop where
  verified : r.Verified c key index (receivedPath d r)
  size_lt : ∀ p, r.payload = some p → p.content.length < 2 ^ 63

/-- One entry is stored as a verified record, or the storage is as before. -/
theorem receiveEntry_meets (hst : Stores st True idle writing) {key : Bytes} {index : Nat}
    (hi : index < 2 ^ 32) :
    Meets (At input consumed (idle log)) (receiveEntry c d reads st key index)
      (fun size s => ∃ r : Record, (Received c d key index r ∧
          size = r.payload.map (fun p => (p.content.length : Int))) ∧
        At input (consumed ++ r.wire) (idle (log ++ [storedOf r (receivedPath d r)])) s)
      (Kept (idle log)) := by
  refine (readEntryFrame_meets hi).bind (fun frame => ?_)
  obtain ⟨kind, path, size⟩ := frame
  refine Meets.of_exists fun pathBytes => Meets.of_exists fun tag => Meets.of_fact ?_
  rintro ⟨rfl, hsize, htag⟩
  obtain rfl | ⟨rfl, n, hn, rfl⟩ := hsize
  · refine Meets.bind (onStorage_meets input _ ((hst.ensureDirectory log _).weaken (fun _ _ h => h.2)))
      (fun _ => Meets.pure fun s hs => ?_)
    refine ⟨⟨pathBytes, tag, none⟩, ⟨⟨⟨htag, ?_, ?_⟩, ?_⟩, rfl⟩, ?_⟩
    · exact fun p hp => nomatch hp
    · exact fun p hp => nomatch hp
    · exact fun p hp => nomatch hp
    · simpa only [Record.wire, Record.controlFrame, Record.kind, Record.sizeFrame, sizeBytes,
        Option.isSome_none, Bool.false_eq_true, if_false, zero_ne_one, List.append_nil,
        List.append_assoc, storedOf, receivedPath] using hs
  · have hlong : longBytes n = bigEndian 8 n := longBytes_nat (by omega)
    rw [sizeBytes, if_pos rfl, hlong] at htag
    refine (receiveInto_meets hst _ hn).bind (fun _ => Meets.of_exists fun p =>
      Meets.of_fact ?_)
    rintro ⟨rfl, hdigest, hauth⟩
    refine Meets.pure fun s hs => ?_
    refine ⟨⟨pathBytes, tag, some p⟩, ⟨⟨⟨htag, ?_, ?_⟩, ?_⟩, rfl⟩, ?_⟩
    · rintro q ⟨⟩
      exact hdigest
    · rintro q ⟨⟩
      exact hauth
    · rintro q ⟨⟩
      exact hn
    · simpa only [Record.wire, Record.controlFrame, Record.kind, Record.sizeFrame, sizeBytes,
        Option.isSome_some, if_true, hlong, List.append_assoc, storedOf, receivedPath] using hs

def AllReceived (c : Crypto) (d : Utf8Decoder) (key : Bytes) (index : Nat)
    (records : List Record) : Prop :=
  ∀ i r, records[i]? = some r → Received c d key (index + i) r

def storedRecords (d : Utf8Decoder) (records : List Record) : List Stored :=
  records.map (fun r => storedOf r (receivedPath d r))

theorem AllReceived.nil {key : Bytes} {index : Nat} : AllReceived c d key index [] :=
  fun _ _ h => nomatch h

theorem AllReceived.cons {key : Bytes} {index : Nat} {r : Record} {records : List Record}
    (hr : Received c d key index r) (h : AllReceived c d key (index + 1) records) :
    AllReceived c d key index (r :: records) := by
  intro i r' hi
  cases i with
  | zero =>
    cases hi
    exact hr
  | succ i =>
    have := h i r' hi
    rwa [Nat.add_right_comm, Nat.add_assoc] at this

/-- The loop stores one verified record after the other, whether or not it ends. -/
theorem receiveEntries_meets (hst : Stores st True idle writing) {key : Bytes} (n index : Nat)
    (hi : index + n ≤ 2 ^ 32) (counts : Counts) :
    Meets (At input consumed (idle log)) (receiveEntries c d reads st key n index counts)
      (fun _ s => ∃ records, (records.length = n ∧ AllReceived c d key index records) ∧
        At input (consumed ++ (records.map Record.wire).flatten)
          (idle (log ++ storedRecords d records)) s)
      (fun _ s => ∃ records rest, records.length ≤ n ∧ AllReceived c d key index records ∧
        input = consumed ++ (records.map Record.wire).flatten ++ rest ∧
        idle (log ++ storedRecords d records) s.storage) := by
  induction n generalizing index counts consumed log with
  | zero =>
    refine Meets.pure fun s hs => ⟨[], ⟨rfl, AllReceived.nil⟩, ?_⟩
    simpa [storedRecords] using hs
  | succ n ih =>
    refine Meets.of_pre (φ := ∃ rest, input = consumed ++ rest) (fun s hs => ⟨s.input, hs.1⟩) ?_
    rintro ⟨rest, hrest⟩
    refine ((receiveEntry_meets hst (by omega)).weaken ?_).bind
      (fun size => Meets.of_exists fun r => Meets.of_fact ?_)
    · intro e s hs
      refine ⟨[], rest, Nat.zero_le _, AllReceived.nil, ?_, ?_⟩
      · simpa using hrest
      · rw [storedRecords, List.map_nil, List.append_nil]
        exact hs
    rintro ⟨hr, -⟩
    refine Meets.of_pre (φ := ∃ rest, input = consumed ++ r.wire ++ rest)
      (fun s hs => ⟨s.input, hs.1⟩) ?_
    rintro ⟨rest, hrest⟩
    refine Meets.bind (Q := fun _ => At input (consumed ++ r.wire)
      (idle (log ++ [storedOf r (receivedPath d r)]))) (Meets.lift (fun _ _ s hs => hs) ?_) ?_
    · intro e _ s hs
      refine ⟨[r], rest, Nat.succ_le_succ (Nat.zero_le _), ?_, ?_, hs.2⟩
      · exact AllReceived.nil.cons hr
      · simpa using hrest
    intro counts
    refine (ih (index + 1) (by omega) counts).mono (fun _ h => h) ?_ ?_
    · rintro counts s ⟨records, ⟨hlen, hall⟩, hs⟩
      refine ⟨r :: records, ⟨by rw [List.length_cons, hlen], hall.cons hr⟩, ?_⟩
      simpa [storedRecords] using hs
    · rintro e s ⟨records, rest, hlen, hall, hin, hs⟩
      refine ⟨r :: records, rest, by rw [List.length_cons]; omega, hall.cons hr, ?_, ?_⟩
      · simpa using hin
      · simpa [storedRecords] using hs

/-- The input starts with an authentic head that announces `n` entries, and with
the records of the entries that were received. -/
def VerifiedRun (c : Crypto) (d : Utf8Decoder) (token : Text) (input : Bytes) (n : Nat)
    (records : List Record) : Prop :=
  ∃ key rest, Bootstrap.hexBytes token = .ok key ∧ records.length ≤ n ∧
    AllReceived c d key 0 records ∧
    input = magic ++ c.hmac key magic ++ bigEndian 4 n ++ (records.map Record.wire).flatten ++ rest

theorem finishUpload_meets {key : Bytes} (n : Nat) (counts : Counts) :
    Meets (At input consumed S) (finishUpload c st key n counts) (fun _ s => S s.storage)
      (Kept S) := by
  refine (readFully_meets 32).bind (fun tag => Meets.of_fact fun _ => ?_)
  refine Meets.bind (Q := fun _ => At input (consumed ++ tag) S) (Meets.read (fun _ h => h))
    (fun verified => ?_)
  refine (require_meets _).bind (fun _ => Meets.pure fun s hs => hs.2.2)

/-- Over any run the storage holds the verified records, each at its place. -/
theorem handleUpload_meets (reads : ReadSizes) (hst : Stores st True idle writing) (token : Text)
    (input : Bytes) :
    Meets (At input [] (idle [])) (handleUpload c d reads st token)
      (fun _ s => ∃ n records, records.length = n ∧ VerifiedRun c d token input n records ∧
        idle (storedRecords d records) s.storage)
      (fun _ s => ∃ n records, (records = [] ∨ VerifiedRun c d token input n records) ∧
        idle (storedRecords d records) s.storage) := by
  have hnone : ∀ (e : JavaException) (s : Session σ), Kept (idle []) e s →
      ∃ n records, (records = [] ∨ VerifiedRun c d token input n records) ∧
        idle (storedRecords d records) s.storage :=
    fun _ _ hs => ⟨0, [], .inl rfl, hs⟩
  have hmagic : MAGIC = magic := rfl
  rw [handleUpload, hmagic]
  refine ((readFully_meets _).mono (fun _ h => h) (fun _ _ h => h) hnone).bind
    (fun magic' => Meets.of_fact fun _ => ?_)
  refine ((require_meets _).mono (fun _ h => h) (fun _ _ h => h) hnone).bind
    (fun _ => Meets.of_fact ?_)
  rintro rfl
  refine Meets.bind (Q := fun key s => Bootstrap.hexBytes token = .ok key ∧
    At input ([] ++ magic) (idle []) s) (Meets.lift (fun key h s hs => ⟨h, hs⟩)
      (fun e _ s hs => hnone e s hs.2)) (fun key => Meets.of_fact fun hkey => ?_)
  refine ((readFully_meets _).mono (fun _ h => h) (fun _ _ h => h) hnone).bind
    (fun proof => Meets.of_fact fun _ => ?_)
  refine ((require_meets _).mono (fun _ h => h) (fun _ _ h => h) hnone).bind
    (fun _ => Meets.of_fact ?_)
  rintro rfl
  refine ((updateTranscript_meets _).mono (fun _ h => h) (fun _ _ h => h) hnone).bind (fun _ => ?_)
  refine (readInt_meets.mono (fun _ h => h) (fun _ _ h => h) hnone).bind
    (fun count => Meets.of_exists fun data => Meets.of_fact fun hdata => ?_)
  refine ((updateTranscript_meets _).mono (fun _ h => h) (fun _ _ h => h) hnone).bind (fun _ => ?_)
  refine ((require_meets _).mono (fun _ h => h) (fun _ _ h => h) hnone).bind
    (fun _ => Meets.of_fact fun hcount => ?_)
  obtain ⟨rfl, hlt⟩ := hdata (by omega)
  refine ((receiveEntries_meets hst count.toNat 0 (by omega) ⟨0, 0, 0⟩).weaken ?_).bind
    (fun counts => Meets.of_exists fun records => Meets.of_fact ?_)
  · rintro e s ⟨records, rest, hlen, hall, hin, hs⟩
    exact ⟨count.toNat, records, .inr ⟨key, rest, hkey, hlen, hall, hin⟩, hs⟩
  rintro ⟨hlen, hall⟩
  refine Meets.of_pre (φ := ∃ rest, input = magic ++ c.hmac key magic ++
    bigEndian 4 count.toNat ++ (records.map Record.wire).flatten ++ rest)
    (fun s hs => ⟨s.input, hs.1⟩) ?_
  rintro ⟨rest, hin⟩
  have hrun : VerifiedRun c d token input count.toNat records :=
    ⟨key, rest, hkey, hlen.le, hall, hin⟩
  exact (finishUpload_meets count.toNat counts).mono (fun _ h => h)
    (fun _ s hs => ⟨_, records, hlen, hrun, hs⟩) (fun _ s hs => ⟨_, records, .inr hrun, hs⟩)

theorem published_eq_of_untouched (initial : List Text → Option Bytes) (records : List Record)
    (p : List Text) (h : ∀ r ∈ records, r.payload ≠ none → pathComponents (receivedPath d r) ≠ p) :
    published initial (storedRecords d records) p = initial p := by
  induction records using List.reverseRecOn with
  | nil => rfl
  | append_singleton records r ih =>
    have hlast := h r (by simp)
    have ih := ih (fun x hx => h x (List.mem_append_left _ hx))
    rw [storedRecords, List.map_append, List.map_singleton, ← storedRecords]
    cases hp : r.payload with
    | none => rw [storedOf, hp, published_directory, ih]
    | some payload =>
      rw [storedOf, hp, published_file, Function.update_of_ne, ih]
      exact (hlast (by rw [hp]; simp)).symm

/-- A document that is there at the end was there before or came with a record. -/
theorem published_source (initial : List Text → Option Bytes) {records : List Record}
    {p : List Text} {content : Bytes}
    (h : published initial (storedRecords d records) p = some content) :
    initial p = some content ∨ ∃ r ∈ records, ∃ payload, r.payload = some payload ∧
      payload.content = content ∧ pathComponents (receivedPath d r) = p := by
  induction records using List.reverseRecOn with
  | nil => exact .inl h
  | append_singleton records r ih =>
    have hrest : published initial (storedRecords d records) p = some content →
        initial p = some content ∨ ∃ r' ∈ records ++ [r], ∃ payload, r'.payload = some payload ∧
          payload.content = content ∧ pathComponents (receivedPath d r') = p := by
      intro hprev
      obtain hinit | ⟨r', hr', hsource⟩ := ih hprev
      · exact .inl hinit
      · exact .inr ⟨r', List.mem_append_left _ hr', hsource⟩
    rw [storedRecords, List.map_append, List.map_singleton, ← storedRecords] at h
    cases hp : r.payload with
    | none =>
      rw [storedOf, hp, published_directory] at h
      exact hrest h
    | some payload =>
      rw [storedOf, hp, published_file] at h
      by_cases hpath : p = pathComponents (receivedPath d r)
      · rw [hpath, Function.update_self] at h
        exact .inr ⟨r, by simp, payload, hp, Option.some.inj h, hpath.symm⟩
      · rw [Function.update_of_ne hpath] at h
        exact hrest h

end OpenAdb.P2p.Publication
