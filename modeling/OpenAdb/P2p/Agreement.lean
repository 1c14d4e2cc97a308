import OpenAdb.P2p.Receiver
import OpenAdb.P2p.Response

namespace OpenAdb.P2p.Agreement

open OpenAdb.Lib.PyText OpenAdb.Lib.Encoding OpenAdb.Lib.JavaText OpenAdb.Lib.Effects
open OpenAdb.P2p.Entry OpenAdb.P2p.Wire OpenAdb.P2p.Receiver OpenAdb.P2p.Sender

/-- The receiver accepts every name that the sender accepts, as it stands. -/
theorem validateRelativePath_accepted {value clean : Text}
    (h : safeRelativeName value = .ok clean) : validateRelativePath clean = .ok clean := by
  obtain ⟨hne, hback, hparts⟩ := safeRelativeName_parts h
  have hlen := safeRelativeName_length h
  have hempty : [] ∉ clean.splitOn '/' := fun hm => absurd (hparts _ hm) (by decide)
  have h16 : ¬ (clean = [] ∨ Bootstrap.MAX_TEXT_BYTES < utf16Length clean) := by
    have := utf16Length_le_utf8 clean
    simp only [hne, false_or]
    simp only [Entry.MAX_TEXT_BYTES, Bootstrap.MAX_TEXT_BYTES] at hlen ⊢
    omega
  have hhead : clean.head? ≠ some '/' := by
    intro hh
    obtain ⟨rest, rfl⟩ := List.head?_eq_some_iff.mp hh
    apply hempty
    rw [List.splitOn_cons_eq_if_modifyHead]
    simp
  have hlast : clean.getLast? ≠ some '/' := by
    intro hl
    obtain ⟨init, rfl⟩ := List.getLast?_eq_some_iff.mp hl
    apply hempty
    rw [List.splitOn_append_cons_self, List.splitOn_nil]
    simp
  have hnul : '\x00' ∉ clean := by
    intro hm
    obtain ⟨part, hp, hc⟩ := mem_splitOn_of_mem hm (show '\x00' ≠ '/' by decide)
    have := hparts part hp
    simp [unsafePart, hc] at this
  have hsplit : (split '/' clean).any (fun part => part ∈ [[], ['.'], ['.', '.']]) = false := by
    rw [List.any_eq_false]
    intro part hp
    have hmem : part ∈ clean.splitOn '/' := by
      rw [split] at hp
      split_ifs at hp with hsep
      · exact (List.rdropWhile_prefix _ _).subset hp
      · rw [List.splitOn_eq_singleton hsep]
        exact hp
    have := hparts part hmem
    simp only [unsafePart, Bool.or_eq_false_iff] at this
    simpa using this.1
  rw [validateRelativePath, if_neg h16]
  simp only [replaceChar_eq_self hback, hhead, hlast, hnul, or_self, if_false, hsplit,
    Bool.false_eq_true]

variable {σ H : Type} {c : Crypto} {d : Utf8Decoder} {st : Storage σ H}
  {idle : List Stored → σ → Prop} {writing : List Stored → H → Text → Bytes → σ → Prop}
  {storage : σ} {log : List Stored} (reads : ReadSizes) (rest transcript : Bytes)

theorem readSome_run (content : Bytes) (storage : σ) {wanted : Nat} (hpos : 0 < wanted)
    (hle : wanted ≤ content.length) :
    ∃ chunk left, content = chunk ++ left ∧ chunk ≠ [] ∧
      readSome reads wanted ⟨content ++ rest, transcript, storage⟩ =
        (.ok chunk, ⟨left ++ rest, transcript, storage⟩) := by
  have hn := reads.pos (content ++ rest) wanted hpos
  generalize hk : min wanted (reads.size (content ++ rest) wanted) = k
  have hkc : k ≤ content.length := by omega
  refine ⟨content.take k, content.drop k, (List.take_append_drop k content).symm, ?_, ?_⟩
  · rw [← List.length_pos_iff, List.length_take]
    omega
  · simp only [readSome, hk, List.take_append_of_le_length hkc, List.drop_append_of_le_length hkc]

section Payload

variable {write : Bytes → Effect JavaException σ Unit} {Written : Bytes → σ → Prop}

theorem receiveChunks_run
    (hwrites : ∀ written chunk, Meets (Written written) (write chunk) (fun _ => Written (written ++ chunk))
      (fun _ _ => False))
    (relativePath : Text) (content written : Bytes) (hw : Written written storage) :
    ∃ storage', receiveChunks reads relativePath write content.length
        ⟨content ++ rest, transcript, storage⟩ = (.ok content, ⟨rest, transcript, storage'⟩) ∧
      Written (written ++ content) storage' := by
  induction hn : content.length using Nat.strong_induction_on
    generalizing content written storage with
  | _ n ih =>
    rw [receiveChunks]
    by_cases h0 : n = 0
    · have hnil : content = [] := List.eq_nil_of_length_eq_zero (hn.trans h0)
      subst hnil
      rw [dif_pos h0, List.append_nil]
      exact ⟨storage, rfl, hw⟩
    · rw [dif_neg h0]
      have hpos : 0 < min COPY_BUFFER_SIZE n := by
        simp only [COPY_BUFFER_SIZE]
        omega
      obtain ⟨chunk, left, rfl, hne, hread⟩ := readSome_run reads rest transcript content storage hpos
        (by omega)
      have hchunk := List.length_pos_iff.mpr hne
      rw [List.length_append] at hn
      obtain ⟨_, storage₁, hwrite, hw₁⟩ := (hwrites written chunk).runs hw
      obtain ⟨storage₂, hrest, hw₂⟩ := ih left.length (by omega) left (written ++ chunk) hw₁ rfl
      refine ⟨storage₂, ?_, by rwa [List.append_assoc] at hw₂⟩
      refine (bind_ok hread).trans ?_
      rw [dif_neg hne]
      refine (bind_ok (within_ok hwrite)).trans ?_
      rw [show n - chunk.length = left.length by omega]
      exact (bind_ok hrest).trans rfl

/-- A payload with matching digest and authenticator is received as it was sent. -/
theorem receiveVerifiedPayload_run
    (hwrites : ∀ written chunk, Meets (Written written) (write chunk) (fun _ => Written (written ++ chunk))
      (fun _ _ => False))
    {sessionKey : Bytes} {relativePath : Text} {p : Payload} (hsize : p.content.length < 2 ^ 63)
    (hdigest : c.sha256 p.content = p.digest)
    (hauth : c.hmac sessionKey (utf8 relativePath ++ [0] ++ bigEndian 8 p.content.length ++
      p.content) = p.authenticator)
    (hw : Written [] storage) :
    ∃ storage', receiveVerifiedPayload c reads relativePath p.content.length sessionKey write
        ⟨p.content ++ (p.digest ++ (p.authenticator ++ rest)), transcript, storage⟩ =
          (.ok (), ⟨rest, transcript ++ p.digest ++ p.authenticator, storage'⟩) ∧
      Written p.content storage' := by
  obtain ⟨storage', hchunks, hw'⟩ := receiveChunks_run reads
    (p.digest ++ (p.authenticator ++ rest)) transcript hwrites relativePath p.content [] hw
  have hdlen : p.digest.length = 32 := hdigest ▸ c.sha256_length _
  have halen : p.authenticator.length = 32 := hauth ▸ c.hmac_length _ _
  refine ⟨storage', ?_, hw'⟩
  rw [receiveVerifiedPayload, Int.toNat_natCast]
  refine (bind_ok hchunks).trans ?_
  refine (bind_ok (readFully_run hdlen)).trans ?_
  refine (bind_ok rfl).trans ?_
  refine (bind_ok (require_pos hdigest.symm)).trans ?_
  refine (bind_ok (readFully_run halen)).trans ?_
  refine (bind_ok rfl).trans ?_
  rw [require_pos (by rw [longBytes_nat (by omega), hauth])]

end Payload

theorem receiveInto_run (hst : Stores st False idle writing) {sessionKey : Bytes}
    {relativePath : Text} {p : Payload} (hsize : p.content.length < 2 ^ 63)
    (hdigest : c.sha256 p.content = p.digest)
    (hauth : c.hmac sessionKey (utf8 relativePath ++ [0] ++ bigEndian 8 p.content.length ++
      p.content) = p.authenticator)
    (hidle : idle log storage) :
    ∃ storage', receiveInto c reads st relativePath p.content.length sessionKey
        ⟨p.content ++ (p.digest ++ (p.authenticator ++ rest)), transcript, storage⟩ =
          (.ok (), ⟨rest, transcript ++ p.digest ++ p.authenticator, storage'⟩) ∧
      idle (log ++ [.file relativePath p.content]) storage' := by
  have hcreate : Meets (idle log) (st.createTemp relativePath)
      (fun temp => writing log temp relativePath []) (fun _ _ => False) :=
    (hst.createTemp log relativePath).weaken (fun _ _ h => h.1)
  obtain ⟨temp, storage₁, htemp, hw₁⟩ := hcreate.runs hidle
  obtain ⟨storage₂, hpayload, hw₂⟩ := receiveVerifiedPayload_run reads rest transcript
    (hst.write log temp relativePath) hsize hdigest hauth hw₁
  obtain ⟨_, storage₃, hpublish, hidle₃⟩ := (hst.publish log temp relativePath p.content).runs hw₂
  refine ⟨storage₃, ?_, hidle₃⟩
  rw [receiveInto]
  refine (bind_ok (within_ok htemp)).trans (onRaise_ok ?_)
  exact (bind_ok hpayload).trans (within_ok hpublish)

/-- The control frame of a verified record is accepted. -/
theorem readEntryFrame_run (storage : σ) {sessionKey : Bytes} {index : Nat} {r : Record}
    {path : Text} (hpath : r.pathBytes = utf8 path) (hvalid : validateRelativePath path = .ok path)
    (hlen : (utf8 path).length ≤ Bootstrap.MAX_TEXT_BYTES)
    (hver : r.Verified c sessionKey index path) (hi : index < 2 ^ 32)
    (hsize : ∀ p, r.payload = some p → p.content.length < 2 ^ 63) :
    readEntryFrame c d sessionKey index
        ⟨r.controlFrame ++ (r.controlTag ++ rest), transcript, storage⟩ =
      (.ok (r.kind, path, (r.payload.map (fun p => (p.content.length : Int))).getD (-1)),
        ⟨rest, transcript ++ r.controlFrame ++ r.controlTag, storage⟩) := by
  have hcontrol := hver.control
  have htag : r.controlTag.length = 32 := by
    rw [← hcontrol]
    exact c.hmac_length _ _
  have hlen32 : (utf8 path).length < 2 ^ 32 := by
    simp only [Bootstrap.MAX_TEXT_BYTES] at hlen
    omega
  have hread : ∀ (rest transcript : Bytes),
      readSize r.kind path ⟨r.sizeFrame ++ rest, transcript, storage⟩ =
        (.ok ((r.payload.map (fun p => (p.content.length : Int))).getD (-1)),
          ⟨rest, transcript ++ r.sizeFrame, storage⟩) := by
    intro rest transcript
    unfold Record.kind Record.sizeFrame readSize
    cases hp : r.payload with
    | none =>
      rw [List.append_nil]
      rfl
    | some p =>
      refine (bind_ok (readLong_run (hsize p hp))).trans ?_
      refine (bind_ok rfl).trans ?_
      refine (bind_ok (require_pos (by omega))).trans ?_
      rw [pure_run, longBytes_nat (by have := hsize p hp; omega)]
      rfl
  have hkind : r.kind < 256 := by
    unfold Record.kind
    split_ifs <;> omega
  have hframe : (if r.kind = 1 then
      longBytes ((r.payload.map (fun p => (p.content.length : Int))).getD (-1)) else []) =
        r.sizeFrame := by
    unfold Record.kind Record.sizeFrame
    cases hp : r.payload with
    | none => rfl
    | some p => exact longBytes_nat (by have := hsize p hp; omega)
  simp only [Record.controlFrame, hpath, List.append_assoc]
  rw [readEntryFrame]
  refine (bind_ok (readUnsignedByte_run hkind)).trans ?_
  refine (bind_ok rfl).trans ?_
  refine (bind_ok (readAuthenticatedText_run d hlen)).trans ?_
  rw [d.decode_utf8, hvalid]
  refine (bind_ok rfl).trans ?_
  refine (bind_ok (hread _ _)).trans ?_
  refine (bind_ok (readFully_run htag)).trans ?_
  refine (bind_ok rfl).trans ?_
  rw [entryControlFrame_eq hi hlen32, hframe]
  refine (bind_ok (require_pos hcontrol)).trans ?_
  simp only [pure_run, List.append_assoc]

/-- A verified record is stored, and leaves the stream and the transcript after it. -/
theorem receiveEntry_run (hst : Stores st False idle writing) {sessionKey : Bytes} {index : Nat}
    {r : Record} {path : Text} (hpath : r.pathBytes = utf8 path)
    (hvalid : validateRelativePath path = .ok path)
    (hlen : (utf8 path).length ≤ Bootstrap.MAX_TEXT_BYTES)
    (hver : r.Verified c sessionKey index path) (hi : index < 2 ^ 32)
    (hsize : ∀ p, r.payload = some p → p.content.length < 2 ^ 63) (hidle : idle log storage) :
    ∃ storage', receiveEntry c d reads st sessionKey index ⟨r.wire ++ rest, transcript, storage⟩ =
        (.ok (r.payload.map (fun p => (p.content.length : Int))),
          ⟨rest, transcript ++ r.authenticated, storage'⟩) ∧
      idle (log ++ [storedOf r path]) storage' := by
  have hframe := fun rest => readEntryFrame_run (d := d) rest transcript storage hpath hvalid
    hlen hver hi hsize
  unfold Record.wire Record.authenticated storedOf
  rw [receiveEntry]
  cases hp : r.payload with
  | none =>
    have hkind : r.kind = 0 := by
      unfold Record.kind
      rw [hp]
      rfl
    have hensure : Meets (idle log) (st.ensureDirectory path)
        (fun _ => idle (log ++ [.directory path])) (fun _ _ => False) :=
      (hst.ensureDirectory log path).weaken (fun _ _ h => h.1)
    obtain ⟨_, storage', hrun, hidle'⟩ := hensure.runs hidle
    refine ⟨storage', ?_, hidle'⟩
    simp only [List.append_nil, List.append_assoc] at hframe ⊢
    refine (bind_ok (hframe rest)).trans ?_
    rw [hkind, hp]
    exact (bind_ok (within_ok hrun)).trans rfl
  | some p =>
    have hkind : r.kind = 1 := by
      unfold Record.kind
      rw [hp]
      rfl
    obtain ⟨storage', hrun, hidle'⟩ := receiveInto_run reads rest
      (transcript ++ r.controlFrame ++ r.controlTag) hst (hsize p hp) (hver.digest p hp)
      (hver.authenticator p hp) hidle
    refine ⟨storage', ?_, hidle'⟩
    simp only [List.append_assoc] at hframe hrun ⊢
    refine (bind_ok (hframe _)).trans ?_
    rw [hkind, hp]
    exact (bind_ok hrun).trans rfl

def storedEntry (localFiles : Text → Option Bytes) (e : P2PEntry) : Stored :=
  if e.is_directory then .directory e.relative_path
  else .file e.relative_path (contentOf localFiles e)

variable (localFiles : Text → Option Bytes) (sessionKey : Bytes)

theorem receiveEntry_sent (hst : Stores st False idle writing) {e : P2PEntry}
    (h : Sendable localFiles e) (index : Nat) (hi : index < 2 ^ 32) (hidle : idle log storage) :
    ∃ storage', receiveEntry c d reads st sessionKey index
        ⟨(recordOf c localFiles sessionKey index e).wire ++ rest, transcript, storage⟩ =
          (.ok (if e.is_directory then none else some (e.size : Int)),
            ⟨rest, transcript ++ (recordOf c localFiles sessionKey index e).authenticated,
              storage'⟩) ∧
      idle (log ++ [storedEntry localFiles e]) storage' := by
  obtain ⟨value, hvalue⟩ := h.accepted
  have hver := recordOf_verified c localFiles sessionKey index e
  have hcontent := contentOf_length localFiles h
  cases hd : e.is_directory with
  | true =>
    obtain ⟨storage', hrun, hidle'⟩ := receiveEntry_run (d := d) reads rest transcript hst
      (by simp only [recordOf, hd, if_true]) (validateRelativePath_accepted hvalue)
      (safeRelativeName_length hvalue) hver hi (by simp [recordOf, hd]) hidle
    refine ⟨storage', hrun.trans ?_, ?_⟩
    · simp only [recordOf, hd, if_true, Option.map_none]
    · simpa only [storedOf, storedEntry, recordOf, hd, if_true] using hidle'
  | false =>
    have hsize := h.size_lt hd
    obtain ⟨storage', hrun, hidle'⟩ := receiveEntry_run (d := d) reads rest transcript hst
      (by simp only [recordOf, hd, Bool.false_eq_true, if_false])
      (validateRelativePath_accepted hvalue) (safeRelativeName_length hvalue) hver hi
      (by
        intro p hp
        simp only [recordOf, hd, Bool.false_eq_true, if_false, Option.some.injEq] at hp
        rw [← hp, hcontent hd]
        exact hsize) hidle
    refine ⟨storage', hrun.trans ?_, ?_⟩
    · simp only [recordOf, hd, Bool.false_eq_true, if_false, Option.map_some, hcontent hd]
    · simpa only [storedOf, storedEntry, recordOf, hd, Bool.false_eq_true, if_false] using hidle'

theorem totals_cons (e : P2PEntry) (entries : List P2PEntry) :
    totalFiles (e :: entries) = (if e.is_directory then 0 else 1) + totalFiles entries ∧
      totalBytes (e :: entries) = (if e.is_directory then 0 else e.size) + totalBytes entries := by
  unfold totalFiles totalBytes regularFiles
  cases hd : e.is_directory <;> simp [hd, Nat.add_comm]

theorem countEntry_run (e : P2PEntry) (n files bytes : Nat)
    (htotal : bytes + (if e.is_directory then 0 else e.size) < 2 ^ 63) :
    countEntry ⟨n, files, bytes⟩ (if e.is_directory then none else some (e.size : Int)) =
      .ok ⟨n + 1, files + (if e.is_directory then 0 else 1),
        (bytes + (if e.is_directory then 0 else e.size) : Nat)⟩ := by
  cases hd : e.is_directory with
  | true => rfl
  | false =>
    simp only [hd, Bool.false_eq_true, if_false] at htotal ⊢
    have hfits : ¬ LONG_MAX_VALUE - (bytes : Int) < (e.size : Int) := by
      simp only [LONG_MAX_VALUE]
      omega
    rw [countEntry, if_neg hfits, Int.natCast_add]

/-- The entries of a request are stored in their order, as long as the total fits. -/
theorem receiveEntries_run (hst : Stores st False idle writing) {entries : List P2PEntry}
    (h : ∀ e ∈ entries, Sendable localFiles e) (index : Nat)
    (hi : index + entries.length < 2 ^ 32) (n files bytes : Nat)
    (htotal : bytes + totalBytes entries < 2 ^ 63) (hidle : idle log storage) :
    ∃ storage', receiveEntries c d reads st sessionKey entries.length index ⟨n, files, bytes⟩
        ⟨((recordsOf c localFiles sessionKey index entries).map Record.wire).flatten ++ rest,
          transcript, storage⟩ =
        (.ok ⟨n + entries.length, files + totalFiles entries, (bytes + totalBytes entries : Nat)⟩,
          ⟨rest, transcript ++
            ((recordsOf c localFiles sessionKey index entries).map Record.authenticated).flatten,
            storage'⟩) ∧
      idle (log ++ entries.map (storedEntry localFiles)) storage' := by
  induction entries generalizing index n files bytes transcript storage log with
  | nil =>
    refine ⟨storage, ?_, by simpa using hidle⟩
    simp only [recordsOf, List.map_nil, List.flatten_nil, List.append_nil, List.nil_append]
    rfl
  | cons e entries ih =>
    rw [List.length_cons] at hi
    obtain ⟨hfiles, hbytes⟩ := totals_cons e entries
    rw [hbytes] at htotal
    obtain ⟨storage₁, hentry, hidle₁⟩ := receiveEntry_sent (c := c) (d := d) reads
      (((recordsOf c localFiles sessionKey (index + 1) entries).map Record.wire).flatten ++ rest)
      transcript localFiles sessionKey hst (h e List.mem_cons_self) index (by omega) hidle
    have hcount := countEntry_run e n files bytes (by omega)
    obtain ⟨storage₂, hrest, hidle₂⟩ := ih
      (transcript ++ (recordOf c localFiles sessionKey index e).authenticated)
      (fun x hx => h x (List.mem_cons_of_mem e hx)) (index + 1) (by omega) (n + 1)
      (files + (if e.is_directory then 0 else 1))
      (bytes + (if e.is_directory then 0 else e.size)) (by omega) hidle₁
    refine ⟨storage₂, ?_, ?_⟩
    · simp only [recordsOf, List.map_cons, List.flatten_cons, List.append_assoc, List.length_cons]
      rw [receiveEntries]
      refine (bind_ok hentry).trans ?_
      rw [hcount]
      refine (bind_ok rfl).trans (hrest.trans ?_)
      rw [hfiles, hbytes]
      simp only [List.append_assoc, Nat.add_assoc, Nat.add_comm 1]
    · rw [List.append_assoc] at hidle₂
      exact hidle₂

theorem storedMessage_length (st : Storage σ H) {n : Nat} (h : n ≤ MAX_ENTRIES) :
    (utf8 (storedMessage st n)).length ≤ Entry.MAX_TEXT_BYTES := by
  have hn : (utf8 (formatNat n)).length ≤ 6 := by
    rw [Bootstrap.utf8_formatNat_length]
    exact length_formatNat_le (by decide) (by simp only [MAX_ENTRIES] at h; omega)
  have hhead : (utf8 storedHead).length = 7 := by decide
  have hthrough : (utf8 storedThrough).length = 26 := by decide
  have haccess : (utf8 (if st.directAccess then allFilesAccess else safAccess)).length ≤ 16 := by
    split_ifs <;> decide
  simp only [storedMessage, Bootstrap.utf8_append, List.length_append, Entry.MAX_TEXT_BYTES]
  omega

/-- The response of the receiver, in the format of the wire. -/
theorem writeAuthenticatedResponse_eq {tag : Bytes} {entries files bytes : Nat} {message : Text}
    (hentries : entries < 2 ^ 32) (hfiles : files < 2 ^ 32) (hbytes : bytes < 2 ^ 64)
    (hmessage : (utf8 message).length < 2 ^ 32) :
    writeAuthenticatedResponse c sessionKey tag true entries files bytes message =
      responsePayload 1 entries files bytes message ++
        responseTag c sessionKey tag (responsePayload 1 entries files bytes message) := by
  have hmagic : MAGIC = magic := rfl
  have hcontext : RESPONSE_CONTEXT = responseContext := rfl
  simp only [writeAuthenticatedResponse, responsePayload, responseTag, writeText, hmagic, hcontext,
    intBytes_nat hentries, intBytes_nat hfiles, longBytes_nat hbytes, intBytes_nat hmessage,
    if_true, List.append_assoc]

/-- The sender accepts a response that carries its own counts. -/
theorem readAuthenticatedResponse_run (tag : Bytes) {entries files bytes : Nat} {message : Text}
    (hentries : entries < 2 ^ 32) (hfiles : files < 2 ^ 32) (hbytes : bytes < 2 ^ 64)
    (hmessage : (utf8 message).length ≤ Entry.MAX_TEXT_BYTES) :
    readAuthenticatedResponse c sessionKey d tag entries files bytes
        (responsePayload 1 entries files bytes message ++
          responseTag c sessionKey tag (responsePayload 1 entries files bytes message)) =
      (.ok (true, message), []) := by
  have hfits : Response.Fits entries files bytes (utf8 message) := ⟨hentries, hfiles, hbytes, hmessage⟩
  have hrun : readAuthenticatedResponse c sessionKey d tag entries files bytes
      (Response.success c sessionKey tag entries files bytes (utf8 message) ++ []) = _ :=
    Response.readAuthenticatedResponse_success hfits []
  rw [List.append_nil, d.decode_utf8] at hrun
  exact hrun

theorem countEntry_overflow (e : P2PEntry) {n files bytes : Nat} (hbytes : bytes < 2 ^ 63)
    (htotal : 2 ^ 63 ≤ bytes + (if e.is_directory then 0 else e.size)) :
    countEntry ⟨n, files, bytes⟩ (if e.is_directory then none else some (e.size : Int)) =
      .error (illegal "Transfer byte count overflow".toList) := by
  cases hd : e.is_directory with
  | true =>
    simp only [hd, if_true] at htotal
    omega
  | false =>
    simp only [hd, Bool.false_eq_true, if_false] at htotal ⊢
    have hover : LONG_MAX_VALUE - (bytes : Int) < (e.size : Int) := by
      simp only [LONG_MAX_VALUE]
      omega
    rw [countEntry, if_pos hover]

/-- Past the limit of a signed 64-bit count the session is refused. -/
theorem receiveEntries_overflow (hst : Stores st False idle writing) {entries : List P2PEntry}
    (h : ∀ e ∈ entries, Sendable localFiles e) (index : Nat)
    (hi : index + entries.length < 2 ^ 32) (n files bytes : Nat) (hbytes : bytes < 2 ^ 63)
    (htotal : 2 ^ 63 ≤ bytes + totalBytes entries) (hidle : idle log storage) :
    ∃ final, receiveEntries c d reads st sessionKey entries.length index ⟨n, files, bytes⟩
        ⟨((recordsOf c localFiles sessionKey index entries).map Record.wire).flatten ++ rest,
          transcript, storage⟩ =
        (.error (illegal "Transfer byte count overflow".toList), final) := by
  induction entries generalizing index n files bytes transcript storage log with
  | nil =>
    have hzero : totalBytes [] = 0 := rfl
    omega
  | cons e entries ih =>
    rw [List.length_cons] at hi
    obtain ⟨-, hsum⟩ := totals_cons e entries
    rw [hsum] at htotal
    obtain ⟨storage₁, hentry, hidle₁⟩ := receiveEntry_sent (c := c) (d := d) reads
      (((recordsOf c localFiles sessionKey (index + 1) entries).map Record.wire).flatten ++ rest)
      transcript localFiles sessionKey hst (h e List.mem_cons_self) index (by omega) hidle
    simp only [recordsOf, List.map_cons, List.flatten_cons, List.append_assoc, List.length_cons]
    rw [receiveEntries]
    by_cases hfits : bytes + (if e.is_directory then 0 else e.size) < 2 ^ 63
    · obtain ⟨final, hrest⟩ := ih
        (transcript ++ (recordOf c localFiles sessionKey index e).authenticated)
        (fun x hx => h x (List.mem_cons_of_mem e hx)) (index + 1) (by omega) (n + 1)
        (files + (if e.is_directory then 0 else 1))
        (bytes + (if e.is_directory then 0 else e.size)) hfits (by omega) hidle₁
      refine ⟨final, (bind_ok hentry).trans ?_⟩
      rw [countEntry_run e n files bytes hfits]
      exact (bind_ok rfl).trans hrest
    · refine ⟨⟨((recordsOf c localFiles sessionKey (index + 1) entries).map Record.wire).flatten ++
          rest, transcript ++ (recordOf c localFiles sessionKey index e).authenticated, storage₁⟩, ?_⟩
      refine (bind_ok hentry).trans ?_
      rw [countEntry_overflow e hbytes (by omega)]
      exact bind_error rfl

/-- The head of a request leads to the loop over its entries. -/
theorem handleUpload_head (st : Storage σ H) {records : List Record} (hpos : records ≠ [])
    (hmax : records.length ≤ MAX_ENTRIES) (storage : σ) :
    handleUpload c d reads st (Bootstrap.hexString sessionKey)
        ⟨requestOf c sessionKey records, [], storage⟩ =
      (receiveEntries c d reads st sessionKey records.length 0 ⟨0, 0, 0⟩ >>=
          finishUpload c st sessionKey records.length)
        ⟨(records.map Record.wire).flatten ++ requestTag c sessionKey (transcriptOf records),
          requestContext ++ bigEndian 4 records.length, storage⟩ := by
  have hmagic : MAGIC = magic := rfl
  have hcontext : REQUEST_TRANSCRIPT_CONTEXT = requestContext := rfl
  have hlen := List.length_pos_iff.mpr hpos
  simp only [MAX_ENTRIES] at hmax
  rw [handleUpload, hmagic, hcontext, Bootstrap.hexBytes_hexString]
  simp only [requestOf, List.append_assoc]
  refine (bind_ok (readFully_run rfl)).trans ?_
  refine (bind_ok (require_pos rfl)).trans ?_
  refine (bind_ok rfl).trans ?_
  refine (bind_ok (readFully_run (c.hmac_length _ _))).trans ?_
  refine (bind_ok (require_pos rfl)).trans ?_
  refine (bind_ok rfl).trans ?_
  refine (bind_ok (readInt_run (by omega))).trans ?_
  refine (bind_ok rfl).trans ?_
  refine (bind_ok (require_pos (by simp only [MAX_ENTRIES]; omega))).trans ?_
  rw [intBytes_nat (by omega)]
  rfl

theorem finishUpload_run (st : Storage σ H) (records : List Record) {n files bytes : Nat}
    {storage : σ} :
    finishUpload c st sessionKey n ⟨n, files, bytes⟩
        ⟨requestTag c sessionKey (transcriptOf records),
          requestContext ++ transcriptOf records, storage⟩ =
      (.ok (writeAuthenticatedResponse c sessionKey (requestTag c sessionKey (transcriptOf records))
          true n files bytes (storedMessage st n)),
        ⟨[], requestContext ++ transcriptOf records, storage⟩) := by
  have hread : readFully 32 ⟨requestTag c sessionKey (transcriptOf records) ++ [],
      requestContext ++ transcriptOf records, storage⟩ =
        (.ok (requestTag c sessionKey (transcriptOf records)),
          ⟨[], requestContext ++ transcriptOf records, storage⟩) :=
    readFully_run (c.hmac_length _ _)
  rw [List.append_nil] at hread
  rw [finishUpload]
  refine (bind_ok hread).trans ?_
  refine (bind_ok rfl).trans ?_
  refine (bind_ok (require_pos rfl)).trans ?_
  rfl

/-- The two ends agree on a list of entries: what the sender writes is accepted to
the end, the same entries are stored in the same order, and the sender accepts
the response. -/
def Agrees (c : Crypto) (d d' : Utf8Decoder) (reads : ReadSizes) (st : Storage σ H)
    (idle : List Stored → σ → Prop) (localFiles : Text → Option Bytes) (sessionKey : Bytes)
    (entries : List P2PEntry) (storage : σ) : Prop :=
  ∃ tag request transcript response final,
    uploadEntryBatch c localFiles sessionKey entries ⟨[], []⟩ = (.ok tag, ⟨request, transcript⟩) ∧
    handleUpload c d reads st (Bootstrap.hexString sessionKey) ⟨request, [], storage⟩ =
      (.ok response, final) ∧
    final.input = [] ∧
    idle (entries.map (storedEntry localFiles)) final.storage ∧
    readAuthenticatedResponse c sessionKey d' tag entries.length (totalFiles entries)
      (totalBytes entries) response = (.ok (true, storedMessage st entries.length), [])

theorem totalFiles_le (entries : List P2PEntry) : totalFiles entries ≤ entries.length :=
  List.length_filter_le _ _

/-- Sender and receiver agree on every request whose file sizes add up to less
than `2 ^ 63`. -/
theorem upload_agrees (c : Crypto) (d d' : Utf8Decoder) (reads : ReadSizes) (st : Storage σ H)
    (idle : List Stored → σ → Prop) (writing : List Stored → H → Text → Bytes → σ → Prop)
    (hst : Stores st False idle writing) (localFiles : Text → Option Bytes) (sessionKey : Bytes)
    (entries : List P2PEntry) (hpos : entries ≠ []) (hmax : entries.length ≤ P2P_MAX_ENTRIES)
    (hsend : ∀ e ∈ entries, Sendable localFiles e) (htotal : totalBytes entries < 2 ^ 63)
    (storage : σ) (hidle : idle [] storage) :
    Agrees c d d' reads st idle localFiles sessionKey entries storage := by
  generalize hrecords : recordsOf c localFiles sessionKey 0 entries = records
  have hlen : records.length = entries.length := hrecords ▸ length_recordsOf _ _ _ _ _
  have hne : records ≠ [] := by
    rw [← List.length_pos_iff, hlen]
    exact List.length_pos_iff.mpr hpos
  have hsent := uploadEntryBatch_run c localFiles sessionKey hsend hmax
  have hmax' : entries.length ≤ MAX_ENTRIES := hmax
  have hhead := handleUpload_head (c := c) (d := d) reads sessionKey st hne
    (by rw [hlen]; exact hmax') storage
  obtain ⟨storage', hentries, hidle'⟩ := receiveEntries_run (c := c) (d := d) reads
    (requestTag c sessionKey (transcriptOf records)) (requestContext ++ bigEndian 4 records.length)
    localFiles sessionKey hst hsend 0 (by simp only [MAX_ENTRIES] at hmax'; omega) 0 0 0
    (by omega) hidle
  rw [hrecords] at hsent hentries
  have htranscript : requestContext ++ bigEndian 4 records.length ++
      (records.map Record.authenticated).flatten = requestContext ++ transcriptOf records := by
    rw [transcriptOf, List.append_assoc]
  have hfiles := totalFiles_le entries
  have hmessage := storedMessage_length st hmax'
  simp only [MAX_ENTRIES] at hmax'
  simp only [Nat.zero_add, htranscript] at hentries
  rw [hlen] at hhead hentries
  have hrun := hhead.trans ((bind_ok hentries).trans
    (finishUpload_run (c := c) sessionKey st records))
  refine ⟨_, _, _, _, _, hsent, hrun, rfl, by simpa using hidle', ?_⟩
  rw [writeAuthenticatedResponse_eq sessionKey (by omega) (by omega) (by omega)
    (by simp only [Entry.MAX_TEXT_BYTES] at hmessage; omega)]
  exact readAuthenticatedResponse_run sessionKey _ (by omega) (by omega) (by omega) hmessage

/-- A storage that keeps everything it is given, beside the open document. -/
def recorder : Storage (List Stored × Bytes) Text where
  directAccess := true
  ensureDirectory path := update (fun s => (s.1 ++ [.directory path], s.2))
  createTemp path := fun s => (.ok path, (s.1, []))
  write _ chunk := update (fun s => (s.1, s.2 ++ chunk))
  publish path := update (fun s => (s.1 ++ [.file path s.2], []))
  discard _ := update (fun s => (s.1, []))

theorem recorder_stores : Stores recorder False (fun log s => s.1 = log)
    (fun log temp path content s => s.1 = log ∧ temp = path ∧ s.2 = content) where
  ensureDirectory log path := Meets.update (fun s hs => congrArg (· ++ [.directory path]) hs)
  createTemp log path := fun s hs => ⟨hs, rfl, rfl⟩
  write log temp path content chunk :=
    Meets.update (fun s hs => ⟨hs.1, hs.2.1, congrArg (· ++ chunk) hs.2.2⟩)
  publish log temp path content := by
    apply Meets.update
    rintro ⟨stored, open_⟩ ⟨rfl, rfl, rfl⟩
    rfl
  discard log temp path content := Meets.update (fun s hs => hs.1)

/-- The first bytes of what is to be hashed, filled up to the width of a tag. -/
def sampleCrypto : Crypto where
  hmac key data := (key ++ data ++ List.replicate 32 0).take 32
  sha256 data := (data ++ List.replicate 32 0).take 32
  hmac_length key data := by
    rw [List.length_take, List.length_append, List.length_replicate]
    omega
  sha256_length data := by
    rw [List.length_take, List.length_append, List.length_replicate]
    omega

def fullReads : ReadSizes where
  size _ wanted := wanted
  pos _ _ h := h

theorem sendable_file (name : Char) (hname : safeRelativeName [name] = .ok [name])
    (content : Bytes) (h : content.length < 2 ^ 63) :
    Sendable (fun _ => some content) ⟨some [name], [name], content.length, false⟩ :=
  ⟨⟨[name], hname⟩, fun _ => h, fun _ => ⟨[name], content, rfl, rfl, rfl⟩⟩

/-- A file and a directory. -/
theorem upload_agrees_sample :
    Agrees sampleCrypto .replacing .replacing fullReads recorder (fun log s => s.1 = log)
      (fun _ => some [1, 2]) (List.replicate 32 7)
      [⟨some ['a'], ['a'], 2, false⟩, ⟨none, ['d'], 0, true⟩] ([], []) :=
  upload_agrees sampleCrypto .replacing .replacing fullReads recorder _ _ recorder_stores
    (fun _ => some [1, 2]) (List.replicate 32 7)
    [⟨some ['a'], ['a'], 2, false⟩, ⟨none, ['d'], 0, true⟩] (by simp) (by decide)
    (by
      intro e he
      simp only [List.mem_cons, List.not_mem_nil, or_false] at he
      obtain rfl | rfl := he
      · exact sendable_file 'a' (by decide) [1, 2] (by decide)
      · exact ⟨⟨['d'], by decide⟩, fun h => (nomatch h), fun h => (nomatch h)⟩)
    (by decide) ([], []) rfl

/-- Two files of `2 ^ 62` bytes each. -/
theorem total_size_refused :
    ¬ ∀ (c : Crypto) (d d' : Utf8Decoder) (reads : ReadSizes)
      (localFiles : Text → Option Bytes) (sessionKey : Bytes) (entries : List P2PEntry),
      sessionKey.length = 32 → entries ≠ [] → entries.length ≤ P2P_MAX_ENTRIES →
      (∀ e ∈ entries, Sendable localFiles e) →
      Agrees c d d' reads recorder (fun log s => s.1 = log) localFiles sessionKey entries
        ([], []) := by
  intro h
  obtain ⟨content, hcontent⟩ : ∃ content : Bytes, content.length = 2 ^ 62 :=
    ⟨List.replicate (2 ^ 62) 0, List.length_replicate⟩
  generalize hentries : ([⟨some ['a'], ['a'], content.length, false⟩,
    ⟨some ['b'], ['b'], content.length, false⟩] : List P2PEntry) = entries
  have hlen : entries.length = 2 := hentries ▸ rfl
  have hmax : entries.length ≤ P2P_MAX_ENTRIES := by
    rw [hlen]
    decide
  have hne : entries ≠ [] := hentries ▸ List.cons_ne_nil _ _
  have hsend : ∀ e ∈ entries, Sendable (fun _ => some content) e := by
    intro e he
    rw [← hentries] at he
    simp only [List.mem_cons, List.not_mem_nil, or_false] at he
    obtain rfl | rfl := he
    · exact sendable_file 'a' (by decide) content (by omega)
    · exact sendable_file 'b' (by decide) content (by omega)
  obtain ⟨tag, request, transcript, response, final, hsent, hrun, -⟩ :=
    h sampleCrypto .replacing .replacing fullReads _ (List.replicate 32 7) entries
      List.length_replicate hne hmax hsend
  rw [uploadEntryBatch_run sampleCrypto _ _ hsend hmax] at hsent
  cases hsent
  have htotal : 2 ^ 63 ≤ 0 + totalBytes entries := by
    rw [← hentries]
    simp only [totalBytes, regularFiles, List.filter_cons, Bool.not_false, if_true, List.filter_nil,
      List.map_cons, List.map_nil, List.sum_cons, List.sum_nil]
    omega
  have hrecords := length_recordsOf sampleCrypto (fun _ => some content) (List.replicate 32 7) 0
    entries
  rw [handleUpload_head fullReads (List.replicate 32 7) recorder
    (by rw [← List.length_pos_iff, hrecords]; omega) (by rw [hrecords]; exact hmax)] at hrun
  obtain ⟨final', hover⟩ := receiveEntries_overflow (c := sampleCrypto) (d := .replacing)
    fullReads
    (requestTag sampleCrypto (List.replicate 32 7) (transcriptOf
      (recordsOf sampleCrypto (fun _ => some content) (List.replicate 32 7) 0 entries)))
    (requestContext ++ bigEndian 4 entries.length) (fun _ => some content) (List.replicate 32 7)
    recorder_stores hsend 0 (by omega) 0 0 0 (by decide) htotal
    (show (([], []) : List Stored × Bytes).1 = [] from rfl)
  rw [hrecords] at hrun
  have hraise := (bind_error hover).symm.trans hrun
  cases hraise

end OpenAdb.P2p.Agreement
