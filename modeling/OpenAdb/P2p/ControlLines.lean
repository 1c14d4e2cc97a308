import OpenAdb.P2p.ControlChannel

namespace OpenAdb.P2p.ControlLines

open OpenAdb.Lib.PyText OpenAdb.Lib.Encoding OpenAdb.Lib.JavaText OpenAdb.Lib.LineFrames
open OpenAdb.P2p.Destination OpenAdb.P2p.Bootstrap OpenAdb.P2p.ControlChannel

/-- The text with its line ends replaced; no text is the empty one. -/
def safeText (text : Option Text) : Text :=
  match text with
  | none => []
  | some text => replaceChar '\r' ' ' (replaceChar '\n' ' ' text)

def writeRawControlLine (text : Option Text) : Except JavaException Bytes :=
  let payload := utf8 (safeText text ++ ['\n'])
  if payload.length > MAX_TEXT_BYTES + 256 then .error ⟨.io, "oversized P2P control response".toList⟩
  else .ok payload

/-- The output is missing until the control socket is attached. -/
def writeControlLine (attached : Bool) (text : Text) : Except JavaException Bytes :=
  if !attached then .error ⟨.io, "P2P control channel is unavailable".toList⟩
  else writeRawControlLine (some text)

def controlOperationFailed : Text := "P2P control operation failed".toList

def cleanMessageText (message : Option Text) : Text :=
  match message with
  | none => controlOperationFailed
  | some message =>
    if trim message = [] then controlOperationFailed
    else trim (replaceChar '\r' ' ' (replaceChar '\n' ' ' (replaceChar '\t' ' ' message)))

def permissionRequired (destination : Text) : Text := "PERMISSION_REQUIRED\t".toList ++ destination

def errorLine (message : Option Text) : Text := "ERROR\t".toList ++ cleanMessageText message

theorem utf8_length_append (s t : Text) : (utf8 (s ++ t)).length = (utf8 s).length + (utf8 t).length := by
  rw [utf8_append, List.length_append]

theorem safeText_no_lf (text : Option Text) : '\n' ∉ safeText text := by
  cases text with
  | none => exact List.not_mem_nil
  | some text =>
    intro h
    obtain ⟨c, hc, heq⟩ := List.mem_map.mp h
    split_ifs at heq with hcr
    · cases heq
    · exact not_mem_replaceChar_self (by decide) text (heq ▸ hc)

theorem safeText_no_cr (text : Option Text) : '\r' ∉ safeText text := by
  cases text with
  | none => exact List.not_mem_nil
  | some text => exact not_mem_replaceChar_self (by decide) _

theorem mem_of_mem_trim {c : Char} {s : Text} (h : c ∈ trim s) : c ∈ s :=
  (List.dropWhile_suffix blank).subset ((List.rdropWhile_prefix blank _).subset h)

theorem cleanMessageText_clean (message : Option Text) {c : Char} (hc : c = '\n' ∨ c = '\r') :
    c ∉ cleanMessageText message := by
  have hdefault : c ∉ controlOperationFailed := by
    obtain rfl | rfl := hc <;> decide
  cases message with
  | none => exact hdefault
  | some message =>
    rw [cleanMessageText]
    split_ifs
    · exact hdefault
    · intro h
      have hmem := mem_of_mem_trim h
      obtain rfl | rfl := hc
      · exact safeText_no_lf (some (replaceChar '\t' ' ' message)) hmem
      · exact safeText_no_cr (some (replaceChar '\t' ' ' message)) hmem

/-- An error line is written as it is. -/
theorem safeText_errorLine (message : Option Text) : safeText (some (errorLine message)) = errorLine message := by
  have hclean {c : Char} (hc : c = '\n' ∨ c = '\r') : c ∉ errorLine message := by
    intro h
    obtain h | h := List.mem_append.mp h
    · obtain rfl | rfl := hc <;> exact absurd h (by decide)
    · exact cleanMessageText_clean message hc h
  rw [safeText, replaceChar_eq_self (hclean (.inl rfl)), replaceChar_eq_self (hclean (.inr rfl))]

/-- A line that reaches the desktop is read back or refused by its length. -/
theorem readLine_payload {d : Utf8Decoder} {allow_timeout : Bool} {text : Text} {polls : List Poll} {later : Bytes}
    (hlf : '\n' ∉ text) (hcr : '\r' ∉ text) (hquiet : ∀ poll ∈ polls, poll.Quiet)
    (hdelivered : receivedBytes polls = utf8 (text ++ ['\n']) ++ later) :
    (readLine d allow_timeout ⟨[], polls⟩).1 =
      if P2P_CONTROL_MAX_LINE_BYTES < (utf8 text).length then .error oversized else .ok text := by
  have hline : 10 ∉ utf8 text := fun h => hlf (ascii_mem_utf8 (b := 10) (by decide) h)
  have hdrop : dropCarriageReturn (utf8 text) = utf8 text :=
    if_neg (fun h => hcr (ascii_mem_utf8 (b := 13) (by decide) (List.mem_of_getLast? h)))
  have hstream : utf8 (text ++ ['\n']) ++ later = utf8 text ++ 10 :: later := by
    rw [utf8_append, List.append_assoc]
    rfl
  rw [hstream] at hdelivered
  have hdelivers : Delivers ⟨[], polls⟩ (utf8 text ++ 10 :: later) := ⟨hdelivered, hquiet⟩
  rw [(readLine_agrees hdelivers).1, firstFrame, next_line hline]
  split_ifs with hlong
  · rfl
  · rw [lineResult, hdrop, d.decode_utf8]

theorem writeRawControlLine_payload {text : Option Text} {payload : Bytes}
    (h : writeRawControlLine text = .ok payload) : payload = utf8 (safeText text ++ ['\n']) := by
  unfold writeRawControlLine at h
  dsimp only at h
  split_ifs at h
  exact (Except.ok.inj h).symm

theorem writeRawControlLine_fits {text : Option Text}
    (h : (utf8 (safeText text ++ ['\n'])).length ≤ MAX_TEXT_BYTES + 256) :
    writeRawControlLine text = .ok (utf8 (safeText text ++ ['\n'])) :=
  if_neg (Nat.not_lt.mpr h)

/-- The slack that the writer allows is not allowed by the reader. -/
theorem readLine_emitted_iff {d : Utf8Decoder} {allow_timeout : Bool} {text : Option Text} {payload later : Bytes}
    {polls : List Poll} (hwrite : writeRawControlLine text = .ok payload) (hquiet : ∀ poll ∈ polls, poll.Quiet)
    (hdelivered : receivedBytes polls = payload ++ later) :
    (readLine d allow_timeout ⟨[], polls⟩).1 = .ok (safeText text) ↔
      (utf8 (safeText text)).length ≤ P2P_CONTROL_MAX_LINE_BYTES := by
  rw [writeRawControlLine_payload hwrite] at hdelivered
  rw [readLine_payload (safeText_no_lf text) (safeText_no_cr text) hquiet hdelivered]
  split_ifs with hlong
  · exact iff_of_false nofun (Nat.not_le.mpr hlong)
  · exact iff_of_true rfl (Nat.le_of_not_lt hlong)

theorem readLine_emitted_accepted :
    (readLine .replacing false ⟨[], [arrived (utf8 "ACCEP".toList), arrived (utf8 "TED\n".toList)]⟩).1 =
        .ok (safeText (some "ACCEPTED".toList)) ↔
      (utf8 (safeText (some "ACCEPTED".toList))).length ≤ P2P_CONTROL_MAX_LINE_BYTES :=
  have hwrite : writeRawControlLine (some "ACCEPTED".toList) = .ok (utf8 "ACCEPTED\n".toList) := by decide
  have hdelivered : receivedBytes [arrived (utf8 "ACCEP".toList), arrived (utf8 "TED\n".toList)] =
      utf8 "ACCEPTED\n".toList ++ [] := by decide
  readLine_emitted_iff hwrite (List.forall_iff_forall_mem.mp (by decide)) hdelivered

section LongDestination

variable (n : Nat)

/-- A folder on a removable volume with a long name. -/
def longDestination : Text := storagePrefix ++ List.replicate (n + 1) 'x'

theorem mem_longDestination {c : Char} (h : c ∈ longDestination n) : c ∈ storagePrefix ++ ['x'] := by
  obtain h | h := List.mem_append.mp h
  · exact List.mem_append_left ['x'] h
  · rw [List.eq_of_mem_replicate h]
    decide

theorem getLast_longDestination : (longDestination n).getLast? = some 'x' := by
  rw [longDestination, List.replicate_succ', ← List.append_assoc, List.getLast?_concat]

theorem normalized_longDestination : Normalized (longDestination n) where
  storage := List.prefix_append _ _
  no_nul h := absurd (mem_longDestination n h) (by decide)
  no_cr h := absurd (mem_longDestination n h) (by decide)
  no_lf h := absurd (mem_longDestination n h) (by decide)
  no_backslash h := absurd (mem_longDestination n h) (by decide)
  last_ne_slash := by
    rw [getLast_longDestination]
    decide
  not_selfPrimary := by
    rw [Bool.eq_false_iff]
    intro h
    have hp : 'p' ∈ longDestination n := (prefix_of_isUnder h).subset (by decide)
    exact absurd (mem_longDestination n hp) (by decide)

theorem utf8_longDestination : (utf8 (longDestination n)).length = n + 10 := by
  rw [utf8_ascii, List.length_map, longDestination, List.length_append, List.length_replicate]
  · have hstorage : storagePrefix.length = 9 := rfl
    omega
  · intro c hc
    have hall : ∀ c ∈ storagePrefix ++ ['x'], c.toNat < 128 := List.forall_iff_forall_mem.mp (by decide)
    exact hall c (mem_longDestination n hc)

theorem utf8_permissionRequired : (utf8 (permissionRequired (longDestination n))).length = n + 30 := by
  have hlead : (utf8 "PERMISSION_REQUIRED\t".toList).length = 20 := by
    have hchars : "PERMISSION_REQUIRED\t".toList = ['P', 'E', 'R', 'M', 'I', 'S', 'S', 'I', 'O', 'N', '_',
      'R', 'E', 'Q', 'U', 'I', 'R', 'E', 'D', '\t'] := rfl
    rw [hchars]
    decide
  have hsum : (utf8 (permissionRequired (longDestination n))).length =
      (utf8 "PERMISSION_REQUIRED\t".toList).length + (utf8 (longDestination n)).length :=
    utf8_length_append _ _
  have hdestination := utf8_longDestination n
  omega

theorem safeText_permissionRequired :
    safeText (some (permissionRequired (longDestination n))) = permissionRequired (longDestination n) := by
  have hmem (c : Char) (h : c ∈ permissionRequired (longDestination n)) :
      c ∈ "PERMISSION_REQUIRED\t".toList ++ (storagePrefix ++ ['x']) := by
    obtain h | h := List.mem_append.mp h
    · exact List.mem_append_left _ h
    · exact List.mem_append_right _ (mem_longDestination n h)
  rw [safeText, replaceChar_eq_self (a := '\n') fun h => absurd (hmem _ h) (by decide +kernel),
    replaceChar_eq_self fun h => absurd (hmem _ h) (by decide +kernel)]

theorem readControlRequest_longDestination (hfits : n + 10 ≤ MAX_TEXT_BYTES) :
    readControlRequest .replacing (utf8 (requestText 0 (clampTimeout 60) (longDestination n) sampleSecret.1)) =
      .ok ⟨0, clampTimeout 60, longDestination n, sampleSecret.1⟩ := by
  rw [readControlRequest_eq_iff .replacing (normalized_longDestination n),
    normalizeStoragePath_eq_iff (normalized_longDestination n), utf8_longDestination, getLast_longDestination]
  refine ⟨hfits, fun c hc => ?_⟩
  cases hc
  decide

theorem writeControlLine_longDestination (hfits : n + 31 ≤ MAX_TEXT_BYTES + 256) :
    writeControlLine true (permissionRequired (longDestination n)) =
      .ok (utf8 (permissionRequired (longDestination n) ++ ['\n'])) := by
  have hlength : (utf8 (permissionRequired (longDestination n) ++ ['\n'])).length = n + 31 := by
    have hsum := utf8_length_append (permissionRequired (longDestination n)) ['\n']
    have hend : (utf8 ['\n']).length = 1 := rfl
    have hline := utf8_permissionRequired n
    omega
  have hwrite (hsafe : (utf8 (safeText (some (permissionRequired (longDestination n))) ++ ['\n'])).length ≤
      MAX_TEXT_BYTES + 256) := writeRawControlLine_fits hsafe
  rw [safeText_permissionRequired] at hwrite
  exact hwrite (hlength ▸ hfits)

theorem readLine_longDestination {polls : List Poll} (hlong : P2P_CONTROL_MAX_LINE_BYTES < n + 30)
    (hquiet : ∀ poll ∈ polls, poll.Quiet)
    (hdelivered : receivedBytes polls = utf8 (permissionRequired (longDestination n) ++ ['\n'])) :
    (readLine .replacing false ⟨[], polls⟩).1 = .error oversized := by
  have hlf := safeText_no_lf (some (permissionRequired (longDestination n)))
  have hcr := safeText_no_cr (some (permissionRequired (longDestination n)))
  rw [safeText_permissionRequired] at hlf hcr
  have hpayload : receivedBytes polls = utf8 (permissionRequired (longDestination n) ++ ['\n']) ++ [] := by
    rw [hdelivered, List.append_nil]
  rw [readLine_payload hlf hcr hquiet hpayload, utf8_permissionRequired, if_pos hlong]

end LongDestination

/-- The request is accepted and its permission line is written, but no way to deliver it is read. -/
theorem permissionRequired_oversized :
    ∃ n payload, readControlRequest .replacing
        (utf8 (requestText 0 (clampTimeout 60) (longDestination n) sampleSecret.1)) =
          .ok ⟨0, clampTimeout 60, longDestination n, sampleSecret.1⟩ ∧
      writeControlLine true (permissionRequired (longDestination n)) = .ok payload ∧
      ∀ polls : List Poll, (∀ poll ∈ polls, poll.Quiet) → receivedBytes polls = payload →
        (readLine .replacing false ⟨[], polls⟩).1 = .error oversized :=
  ⟨65507, _, readControlRequest_longDestination _ (by rw [MAX_TEXT_BYTES]; omega),
    writeControlLine_longDestination _ (by rw [MAX_TEXT_BYTES]; omega),
    fun _ hquiet => readLine_longDestination _ (by rw [P2P_CONTROL_MAX_LINE_BYTES]; omega) hquiet⟩

end OpenAdb.P2p.ControlLines
