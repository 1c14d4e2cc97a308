import OpenAdb.P2p.Destination

namespace OpenAdb.P2p.Bootstrap

open OpenAdb.Lib.PyText OpenAdb.Lib.Encoding OpenAdb.Lib.JavaText OpenAdb.P2p.Destination

/-- `OPENADB_P2P_2` -/
def P2P_CONTROL_MAGIC : Text :=
  ['O', 'P', 'E', 'N', 'A', 'D', 'B', '_', 'P', '2', 'P', '_', '2']

def MAX_TEXT_BYTES : Nat := 65536

def isHexDigit (c : Char) : Bool := (digit 16 c).isSome

/-- What `secrets.token_hex(32)` may return. -/
def HexSecret := {s : Text // s.length = 64 ∧ s.all isHexDigit = true}

def clampTimeout (timeout_seconds : Int) : Int := max 30 (min 600 timeout_seconds)

def requestText (port : Nat) (timeout_seconds : Int) (destination bootstrap_secret : Text) : Text :=
  P2P_CONTROL_MAGIC ++ '\n' :: formatNat port ++ '\n' :: formatNat timeout_seconds.toNat ++
    '\n' :: destination ++ '\n' :: bootstrap_secret ++ ['\n']

/-- The request of the desktop, which is written as UTF-8. -/
def prepareSession (destination : Text) (timeout_seconds : Int) (bootstrap_secret : Text) :
    Except DestinationError Text := do
  let destination ← normalizeDestination destination
  return requestText 0 (clampTimeout timeout_seconds) destination bootstrap_secret

/-- The bytes of one line, without its end, and the bytes after it. -/
def readLineBytes (maxBytes : Nat) (buffer : Bytes) :
    Bytes → Except JavaException (Option Bytes × Bytes)
  | [] => .ok (if buffer = [] then none else some buffer, [])
  | value :: input =>
    if value = 10 then .ok (some buffer, input)
    else if maxBytes ≤ buffer.length then .error ⟨.io, "oversized P2P control line".toList⟩
    else readLineBytes maxBytes (buffer ++ [value]) input

def dropCarriageReturn (bytes : Bytes) : Bytes :=
  if bytes.getLast? = some 13 then bytes.dropLast else bytes

def readControlLine (d : Utf8Decoder) (maxBytes : Nat) (input : Bytes) :
    Except JavaException (Option Text × Bytes) := do
  let (line, input) ← readLineBytes maxBytes [] input
  return (line.map (fun bytes => d.decode (dropCarriageReturn bytes)), input)

def hexBytes (value : Text) : Except JavaException Bytes :=
  if utf16Length value % 2 ≠ 0 then .error ⟨.illegalArgument, "invalid session key".toList⟩
  else pairs value
where
  /-- A character of two UTF-16 units fails in any pair. -/
  pairs : Text → Except JavaException Bytes
    | [] => .ok []
    | [c] => .error (forInputString [c])
    | a :: b :: rest => do
      let n ← parseInt 16 [a, b]
      let result ← pairs rest
      return UInt8.ofNat (n % 256).toNat :: result

structure SessionRequest where
  port : Int
  timeoutSeconds : Int
  destination : Text
  bootstrapSecret : Text
  deriving DecidableEq

/-- The checks of `readControlRequest` after its five lines were read. -/
def checkControlRequest (version portText timeoutText destination bootstrapSecret : Option Text) :
    Except JavaException SessionRequest :=
  match portText, timeoutText, destination, bootstrapSecret with
  | some portText, some timeoutText, some destination, some bootstrapSecret =>
    if version ≠ some P2P_CONTROL_MAGIC ∨ utf16Length bootstrapSecret ≠ 64 then
      .error ⟨.io, "invalid control request format".toList⟩
    else do
      let _ ← hexBytes bootstrapSecret
      let port ← parseInt 10 portText
      let timeout ← parseInt 10 timeoutText
      if port ≠ 0 ∧ (port < 1024 ∨ port > 65535) then
        throw ⟨.illegalArgument, "invalid TCP port".toList⟩
      let timeout := max 30 (min 600 timeout)
      let destination := normalizeStoragePath destination
      if !storagePrefix.isPrefixOf destination ∨ '\x00' ∈ destination then
        throw ⟨.illegalArgument, "destination is not an Android shared storage path".toList⟩
      return ⟨port, timeout, destination, bootstrapSecret⟩
  | _, _, _, _ => .error ⟨.io, "invalid control request format".toList⟩

def readControlRequest (d : Utf8Decoder) (input : Bytes) : Except JavaException SessionRequest := do
  let (version, input) ← readControlLine d 64 input
  let (portText, input) ← readControlLine d 16 input
  let (timeoutText, input) ← readControlLine d 16 input
  let (destination, input) ← readControlLine d MAX_TEXT_BYTES input
  let (bootstrapSecret, _) ← readControlLine d 128 input
  checkControlRequest version portText timeoutText destination bootstrapSecret

/-- The receiver trims a blank end, and the rewritten root may not fit its line. -/
def Agreed (destination : Text) : Prop :=
  (∀ c, (strippedDestination destination).getLast? = some c → blank c = false) ∧
    (isUnder sdcard (strippedDestination destination) = true →
      (utf8 (strippedDestination destination)).length + 12 ≤ MAX_TEXT_BYTES)

theorem utf8_append (s t : Text) : utf8 (s ++ t) = utf8 s ++ utf8 t := List.flatMap_append

theorem utf8_newline (s : Text) : utf8 ('\n' :: s) = 10 :: utf8 s := rfl

theorem readLineBytes_line {maxBytes : Nat} {line : Bytes} (hlf : 10 ∉ line) (buffer rest : Bytes) :
    readLineBytes maxBytes buffer (line ++ 10 :: rest) =
      if buffer.length + line.length ≤ max maxBytes buffer.length then
        .ok (some (buffer ++ line), rest)
      else .error ⟨.io, "oversized P2P control line".toList⟩ := by
  induction line generalizing buffer with
  | nil => simp [readLineBytes]
  | cons b line ih =>
    have hb : b ≠ 10 := fun he => hlf (he ▸ List.mem_cons_self)
    rw [List.cons_append, readLineBytes, if_neg hb,
      ih (fun hm => hlf (List.mem_cons_of_mem b hm))]
    simp only [List.length_append, List.length_cons, List.length_nil, List.append_assoc,
      List.cons_append, List.nil_append]
    split_ifs <;> first | rfl | (exfalso; omega)

/-- A line without line ends is read back when it fits. -/
theorem readControlLine_line (d : Utf8Decoder) {s : Text} (hlf : '\n' ∉ s) (hcr : '\r' ∉ s)
    (maxBytes : Nat) (rest : Bytes) :
    readControlLine d maxBytes (utf8 s ++ 10 :: rest) =
      if (utf8 s).length ≤ maxBytes then .ok (some s, rest)
      else .error ⟨.io, "oversized P2P control line".toList⟩ := by
  have hlf' : 10 ∉ utf8 s := fun h => hlf (ascii_mem_utf8 (b := 10) (by decide) h)
  have hdrop : dropCarriageReturn (utf8 s) = utf8 s :=
    if_neg (fun h => hcr (ascii_mem_utf8 (b := 13) (by decide) (List.mem_of_getLast? h)))
  rw [readControlLine, readLineBytes_line hlf']
  simp only [List.length_nil, Nat.zero_add, Nat.max_zero, List.nil_append]
  by_cases hlen : (utf8 s).length ≤ maxBytes
  · rw [if_pos hlen, if_pos hlen]
    simp only [bind, Except.bind, Option.map_some, hdrop, d.decode_utf8]
    rfl
  · rw [if_neg hlen, if_neg hlen]
    rfl

theorem isHexDigit_bounds {c : Char} (h : isHexDigit c = true) :
    (48 ≤ c.toNat ∧ c.toNat ≤ 57) ∨ (97 ≤ c.toNat ∧ c.toNat ≤ 102) ∨
      (65 ≤ c.toNat ∧ c.toNat ≤ 70) := by
  obtain ⟨v, hv⟩ := Option.isSome_iff_exists.mp h
  obtain ⟨hval, hlt⟩ := Option.filter_eq_some_iff.mp hv
  simp only [digitValue, Char.reduceToNat] at hval
  simp only [decide_eq_true_eq] at hlt
  split_ifs at hval with h1 h2 h3 <;> cases hval <;> omega

theorem ne_of_isHexDigit {c x : Char} (h : isHexDigit c = true) (hx : isHexDigit x = false) :
    c ≠ x := by
  rintro rfl
  rw [h] at hx
  cases hx

theorem utf8_length_hex {s : Text} (h : s.all isHexDigit = true) : (utf8 s).length = s.length := by
  induction s with
  | nil => rfl
  | cons c s ih =>
    rw [List.all_cons, Bool.and_eq_true] at h
    have hb := isHexDigit_bounds h.1
    have hc : (String.utf8EncodeChar c).length = 1 := by
      rw [String.length_utf8EncodeChar, Char.utf8Size]
      have hle : c.val ≤ 127 := UInt32.le_iff_toNat_le.mpr (by
        have hval : c.val.toNat = c.toNat := rfl
        simp only [UInt32.reduceToNat]
        omega)
      simp [hle]
    rw [utf8, List.flatMap_cons, List.length_append, hc, ← utf8, ih h.2, List.length_cons,
      Nat.add_comm]

theorem utf16Length_hex {s : Text} (h : s.all isHexDigit = true) : utf16Length s = s.length := by
  induction s with
  | nil => rfl
  | cons c s ih =>
    rw [List.all_cons, Bool.and_eq_true] at h
    have hb := isHexDigit_bounds h.1
    have hc : c.toNat < 65536 := by omega
    have ih := ih h.2
    simp only [utf16Length, List.map_cons, List.sum_cons, if_pos hc, List.length_cons] at ih ⊢
    omega

theorem parseInt_hexPair {a b : Char} {x y : Nat} (hx : digit 16 a = some x)
    (hy : digit 16 b = some y) : parseInt 16 [a, b] = .ok ((16 * x + y : Nat) : Int) := by
  have ha : isHexDigit a = true := by rw [isHexDigit, hx, Option.isSome_some]
  have hx16 : x < 16 := by simpa using (Option.filter_eq_some_iff.mp hx).2
  have hy16 : y < 16 := by simpa using (Option.filter_eq_some_iff.mp hy).2
  have hsign : ∀ c, isHexDigit c = false → ¬ [a, b].head? = some c := by
    intro c hc h
    exact ne_of_isHexDigit ha hc (Option.some.inj h)
  have hmag : magnitude 16 [a, b] = some (16 * x + y) := by
    simp [magnitude, hx, hy]
  have hrange : inIntRange ((16 * x + y : Nat) : Int) = true := by
    simp only [inIntRange, decide_eq_true_eq]
    omega
  simp only [parseInt, hsign '-' (by decide), hsign '+' (by decide), or_self, if_false, hmag,
    List.cons_ne_nil, hrange, if_true]

theorem hexBytes_pairs (k : Nat) {s : Text} (hlen : s.length = 2 * k)
    (h : s.all isHexDigit = true) : ∃ bytes, hexBytes.pairs s = .ok bytes := by
  induction k generalizing s with
  | zero =>
    rw [List.eq_nil_of_length_eq_zero hlen]
    exact ⟨[], rfl⟩
  | succ k ih =>
    obtain _ | ⟨a, _ | ⟨b, s⟩⟩ := s
    · cases hlen
    · simp only [List.length_cons, List.length_nil] at hlen
      omega
    · simp only [List.all_cons, Bool.and_eq_true, List.length_cons] at h hlen
      obtain ⟨x, hx⟩ := Option.isSome_iff_exists.mp h.1
      obtain ⟨y, hy⟩ := Option.isSome_iff_exists.mp h.2.1
      obtain ⟨bytes, hbytes⟩ := ih (by omega) h.2.2
      refine ⟨UInt8.ofNat (((16 * x + y : Nat) : Int) % 256).toNat :: bytes, ?_⟩
      rw [hexBytes.pairs, parseInt_hexPair hx hy, hbytes]
      rfl

theorem hexBytes_secret (secret : HexSecret) : ∃ bytes, hexBytes secret.1 = .ok bytes := by
  obtain ⟨s, hlen, hs⟩ := secret
  have heven : ¬ utf16Length s % 2 ≠ 0 := by
    rw [utf16Length_hex hs, hlen]
    decide
  obtain ⟨bytes, hbytes⟩ := hexBytes_pairs 32 hlen hs
  exact ⟨bytes, (if_neg heven).trans hbytes⟩

/-- The two lower-case digits of every byte. -/
def hexString (bytes : Bytes) : Text :=
  bytes.flatMap (fun b => [Nat.digitChar (b.toNat / 16), Nat.digitChar (b.toNat % 16)])

theorem digit_digitChar {n : Nat} (h : n < 16) : digit 16 (Nat.digitChar n) = some n := by
  have hall : ∀ i : Fin 16, digit 16 (Nat.digitChar i.val) = some i.val := by decide
  exact hall ⟨n, h⟩

theorem hexBytes_pairs_hexString (bytes : Bytes) :
    hexBytes.pairs (hexString bytes) = .ok bytes := by
  induction bytes with
  | nil => rfl
  | cons b bytes ih =>
    have hb := b.toNat_lt
    have hpair := parseInt_hexPair (digit_digitChar (n := b.toNat / 16) (by omega))
      (digit_digitChar (n := b.toNat % 16) (by omega))
    have hvalue : 16 * (b.toNat / 16) + b.toNat % 16 = b.toNat := Nat.div_add_mod b.toNat 16
    have hbyte : UInt8.ofNat (((b.toNat : Nat) : Int) % 256).toNat = b := by
      rw [show (((b.toNat : Nat) : Int) % 256).toNat = b.toNat by omega, UInt8.ofNat_toNat]
    rw [hexString, List.flatMap_cons, List.cons_append, List.cons_append, List.nil_append,
      hexBytes.pairs, hpair, hvalue, ← hexString, ih]
    simp only [bind, Except.bind, pure, Except.pure, hbyte]

theorem hexBytes_hexString (bytes : Bytes) : hexBytes (hexString bytes) = .ok bytes := by
  have hall : (hexString bytes).all isHexDigit = true := by
    rw [List.all_eq_true]
    intro c hc
    obtain ⟨b, -, hc⟩ := List.mem_flatMap.mp hc
    have hb := b.toNat_lt
    simp only [List.mem_cons, List.not_mem_nil, or_false] at hc
    obtain rfl | rfl := hc
    · rw [isHexDigit, digit_digitChar (by omega), Option.isSome_some]
    · rw [isHexDigit, digit_digitChar (by omega), Option.isSome_some]
  have hlen : (hexString bytes).length = 2 * bytes.length := by
    simp [hexString, List.length_flatMap, Nat.mul_comm]
  have heven : ¬ utf16Length (hexString bytes) % 2 ≠ 0 := by
    rw [utf16Length_hex hall, hlen]
    omega
  exact (if_neg heven).trans (hexBytes_pairs_hexString bytes)

theorem utf8_formatNat_length (n : Nat) : (utf8 (formatNat n)).length = (formatNat n).length := by
  apply utf8_length_hex
  rw [List.all_eq_true]
  intro c hc
  rw [isHexDigit, digit, Option.isSome_filter]
  have hd := digit_of_isDigit (Nat.isDigit_of_mem_toDigits (by decide) (by decide) hc)
  obtain ⟨hval, hlt⟩ := Option.filter_eq_some_iff.mp hd
  rw [hval]
  simp only [decide_eq_true_eq, Option.any_some] at hlt ⊢
  omega

theorem clampTimeout_bounds (timeout_seconds : Int) :
    30 ≤ clampTimeout timeout_seconds ∧ clampTimeout timeout_seconds ≤ 600 := by
  unfold clampTimeout
  omega

theorem utf8_requestText (port : Nat) (timeout : Int) (destination secret : Text) :
    utf8 (requestText port timeout destination secret) =
      utf8 P2P_CONTROL_MAGIC ++ 10 :: (utf8 (formatNat port) ++
        10 :: (utf8 (formatNat timeout.toNat) ++
          10 :: (utf8 destination ++ 10 :: (utf8 secret ++ 10 :: [])))) := by
  have hend : utf8 ['\n'] = [10] := rfl
  simp only [requestText, utf8_append, utf8_newline, hend, List.append_assoc, List.cons_append]

/-- The five lines of a request arrive unless the destination is too long. -/
theorem readControlRequest_lines (d : Utf8Decoder) {n : Text} (h : Normalized n)
    (timeout_seconds : Int) (secret : HexSecret) :
    readControlRequest d (utf8 (requestText 0 (clampTimeout timeout_seconds) n secret.1)) =
      if (utf8 n).length ≤ MAX_TEXT_BYTES then
        checkControlRequest (some P2P_CONTROL_MAGIC) (some (formatNat 0))
          (some (formatNat (clampTimeout timeout_seconds).toNat)) (some n) (some secret.1)
      else .error ⟨.io, "oversized P2P control line".toList⟩ := by
  have hhex : ∀ c, isHexDigit c = false → c ∉ secret.1 := fun c hc hm =>
    ne_of_isHexDigit (List.all_eq_true.mp secret.2.2 c hm) hc rfl
  have hzero : (utf8 (formatNat 0)).length ≤ 16 := by
    rw [utf8_formatNat_length]
    exact (length_formatNat_le (k := 1) (by decide) (by decide)).trans (by decide)
  have htime : (utf8 (formatNat (clampTimeout timeout_seconds).toNat)).length ≤ 16 := by
    have hb := clampTimeout_bounds timeout_seconds
    rw [utf8_formatNat_length]
    exact (length_formatNat_le (k := 3) (by decide) (by omega)).trans (by decide)
  have hsecret : (utf8 secret.1).length ≤ 128 := by
    rw [utf8_length_hex secret.2.2, secret.2.1]
    decide
  have hdigit : ∀ k, '\n' ∉ formatNat k ∧ '\r' ∉ formatNat k :=
    fun k => ⟨not_mem_formatNat (by decide), not_mem_formatNat (by decide)⟩
  rw [utf8_requestText, readControlRequest,
    readControlLine_line d (by decide) (by decide), if_pos (by decide)]
  simp only [bind, Except.bind]
  rw [readControlLine_line d (hdigit 0).1 (hdigit 0).2, if_pos hzero]
  simp only []
  rw [readControlLine_line d (hdigit _).1 (hdigit _).2, if_pos htime]
  simp only []
  rw [readControlLine_line d h.no_lf h.no_cr]
  by_cases hlen : (utf8 n).length ≤ MAX_TEXT_BYTES
  · rw [if_pos hlen, if_pos hlen]
    simp only []
    rw [readControlLine_line d (hhex _ (by decide)) (hhex _ (by decide)), if_pos hsecret]
  · rw [if_neg hlen, if_neg hlen]

theorem checkControlRequest_lines {n : Text} (timeout_seconds : Int) (secret : HexSecret) :
    checkControlRequest (some P2P_CONTROL_MAGIC) (some (formatNat 0))
        (some (formatNat (clampTimeout timeout_seconds).toNat)) (some n) (some secret.1) =
      if !storagePrefix.isPrefixOf (normalizeStoragePath n) ∨ '\x00' ∈ normalizeStoragePath n then
        .error ⟨.illegalArgument, "destination is not an Android shared storage path".toList⟩
      else .ok ⟨0, clampTimeout timeout_seconds, normalizeStoragePath n, secret.1⟩ := by
  have hb := clampTimeout_bounds timeout_seconds
  obtain ⟨bytes, hbytes⟩ := hexBytes_secret secret
  have hlen : utf16Length secret.1 = 64 := (utf16Length_hex secret.2.2).trans secret.2.1
  have hport : parseInt 10 (formatNat 0) = .ok 0 := parseInt_formatNat (by decide)
  have htime : parseInt 10 (formatNat (clampTimeout timeout_seconds).toNat) =
      .ok (clampTimeout timeout_seconds) := by
    rw [parseInt_formatNat (by omega), Int.toNat_of_nonneg (by omega)]
  have hclamp : max 30 (min 600 (clampTimeout timeout_seconds)) = clampTimeout timeout_seconds := by
    omega
  simp only [checkControlRequest, hlen, ne_eq, not_true_eq_false, or_self, if_false, bind,
    Except.bind, hbytes, hport, htime, false_and, hclamp, pure, Except.pure, throw,
    throwThe, MonadExceptOf.throw]

theorem utf8_length_prefix {s t : Text} (h : s <+: t) : (utf8 s).length ≤ (utf8 t).length := by
  obtain ⟨r, rfl⟩ := h
  rw [utf8_append, List.length_append]
  omega

theorem utf8_length_replace (s : Text) :
    (utf8 (replaceChar '\\' '/' s)).length = (utf8 s).length := by
  induction s with
  | nil => rfl
  | cons c s ih =>
    have hc : (String.utf8EncodeChar (if c = '\\' then '/' else c)).length =
        (String.utf8EncodeChar c).length := by
      split_ifs with h
      · rw [h]
        decide
      · rfl
    simp only [utf8, replaceChar, List.map_cons, List.flatMap_cons, List.length_append] at ih ⊢
    omega

theorem utf8_length_drop {root s : Text} (h : root <+: s) :
    (utf8 (emulatedRoot ++ s.drop root.length)).length + (utf8 root).length =
      19 + (utf8 s).length := by
  obtain ⟨r, rfl⟩ := h
  have hroot : (utf8 emulatedRoot).length = 19 := by decide
  rw [List.drop_left, utf8_append, utf8_append, List.length_append, List.length_append, hroot]
  omega

theorem destination_fits_iff {destination : Text}
    (hlen : (utf8 destination).length ≤ MAX_TEXT_BYTES) :
    (utf8 (rewriteDestination destination)).length ≤ MAX_TEXT_BYTES ↔
      (isUnder sdcard (strippedDestination destination) = true →
        (utf8 (strippedDestination destination)).length + 12 ≤ MAX_TEXT_BYTES) := by
  have hstripped : (utf8 (strippedDestination destination)).length ≤ MAX_TEXT_BYTES := by
    have hpre := utf8_length_prefix (List.rdropWhile_prefix (· == '/')
      (replaceChar '\\' '/' destination))
    rw [utf8_length_replace] at hpre
    exact hpre.trans hlen
  have hsd : (utf8 sdcard).length = 7 := by decide
  have hsp : (utf8 selfPrimary).length = 21 := by decide
  obtain ⟨root, hroot, hunder, heq⟩ | ⟨hnot, -, heq⟩ := rewriteDestination_cases destination
  · have hlength := utf8_length_drop (prefix_of_isUnder hunder)
    rw [← heq] at hlength
    simp only [List.mem_cons, List.not_mem_nil, or_false] at hroot
    obtain rfl | rfl := hroot
    · constructor
      · intro h _
        omega
      · intro h
        have := h hunder
        omega
    · have hstorage : storagePrefix <+: selfPrimary := by decide
      have hnot := under_self_not_sdcard (hstorage.trans (prefix_of_isUnder hunder))
      refine iff_of_true (by omega) ?_
      intro h
      rw [hnot] at h
      cases h
  · rw [heq]
    refine iff_of_true hstripped ?_
    intro h
    rw [hnot] at h
    cases h

theorem readControlRequest_eq_iff (d : Utf8Decoder) {n : Text} (h : Normalized n)
    (timeout_seconds : Int) (secret : HexSecret) :
    readControlRequest d (utf8 (requestText 0 (clampTimeout timeout_seconds) n secret.1)) =
        .ok ⟨0, clampTimeout timeout_seconds, n, secret.1⟩ ↔
      (utf8 n).length ≤ MAX_TEXT_BYTES ∧ normalizeStoragePath n = n := by
  rw [readControlRequest_lines d h, checkControlRequest_lines]
  constructor
  · intro hok
    split_ifs at hok with hfit hbad
    simp only [Except.ok.injEq, SessionRequest.mk.injEq, true_and, and_true] at hok
    exact ⟨hfit, hok⟩
  · rintro ⟨hfit, hself⟩
    have hgood : ¬ ((!storagePrefix.isPrefixOf n) = true ∨ '\x00' ∈ n) := by
      simp [h.storage, h.no_nul]
    rw [if_pos hfit, hself, if_neg hgood]

theorem normalizeStoragePath_eq_iff {n : Text} (h : Normalized n) :
    normalizeStoragePath n = n ↔ ∀ c, n.getLast? = some c → blank c = false := by
  constructor
  · intro hself c hc
    by_contra hblank
    exact normalizeStoragePath_ne h hc (by simpa using hblank) hself
  · exact normalizeStoragePath_eq_self h

/-- Both ends agree on a destination exactly when its last character survives
the trimming of the receiver and the rewritten path fits the line. -/
theorem readControlRequest_agrees_iff (d : Utf8Decoder) (destination n : Text)
    (timeout_seconds : Int) (secret : HexSecret) (h : normalizeDestination destination = .ok n)
    (hlen : (utf8 destination).length ≤ MAX_TEXT_BYTES) :
    (∃ request, prepareSession destination timeout_seconds secret.1 = .ok request ∧
      readControlRequest d (utf8 request) =
        .ok ⟨0, clampTimeout timeout_seconds, n, secret.1⟩) ↔ Agreed destination := by
  obtain ⟨heq, hnorm⟩ := normalizeDestination_ok h
  have hprep : prepareSession destination timeout_seconds secret.1 =
      .ok (requestText 0 (clampTimeout timeout_seconds) n secret.1) := by
    rw [prepareSession, h]
    rfl
  have hlast := rewriteDestination_last destination (P := fun c => blank c = true) (by decide)
    (by decide) (by decide)
  rw [hprep]
  simp only [Except.ok.injEq, exists_eq_left', readControlRequest_eq_iff d hnorm,
    normalizeStoragePath_eq_iff hnorm]
  rw [Agreed, ← destination_fits_iff hlen, ← heq, and_comm]
  refine and_congr_left' ?_
  rw [← heq] at hlast
  have hnot := not_congr hlast
  simpa only [not_exists, not_and, Bool.not_eq_true] using hnot

/-- `0123456789abcdef`, four times -/
def sampleSecret : HexSecret :=
  ⟨(List.replicate 4
    ['0', '1', '2', '3', '4', '5', '6', '7', '8', '9', 'a', 'b', 'c', 'd', 'e', 'f']).flatten,
    by decide⟩

theorem agreed_sdcard_sample : Agreed (sdcard ++ ['/', 'M', 'y']) := by
  have hlast : (strippedDestination (sdcard ++ ['/', 'M', 'y'])).getLast? = some 'y' := by decide
  refine ⟨fun c hc => ?_, by decide⟩
  rw [hlast] at hc
  cases hc
  decide

/-- The destination `/sdcard/My` -/
theorem readControlRequest_agrees_sdcard :
    (∃ request, prepareSession (sdcard ++ ['/', 'M', 'y']) 1000 sampleSecret.1 = .ok request ∧
      readControlRequest Utf8Decoder.replacing (utf8 request) =
        .ok ⟨0, 600, emulatedRoot ++ ['/', 'M', 'y'], sampleSecret.1⟩) :=
  (readControlRequest_agrees_iff Utf8Decoder.replacing (sdcard ++ ['/', 'M', 'y'])
    (emulatedRoot ++ ['/', 'M', 'y']) 1000 sampleSecret (by decide) (by decide)).mpr
    agreed_sdcard_sample

/-- A folder whose name ends in a space. -/
theorem trailing_space_lost :
    ¬ ∀ (d : Utf8Decoder) (destination n : Text) (timeout_seconds : Int) (secret : HexSecret),
      normalizeDestination destination = .ok n →
      (utf8 destination).length ≤ MAX_TEXT_BYTES →
      ∃ request, prepareSession destination timeout_seconds secret.1 = .ok request ∧
        readControlRequest d (utf8 request) =
          .ok ⟨0, clampTimeout timeout_seconds, n, secret.1⟩ := by
  intro h
  have hok : normalizeDestination (emulatedRoot ++ ['/', 'M', 'y', ' ']) =
      .ok (emulatedRoot ++ ['/', 'M', 'y', ' ']) := by decide
  obtain ⟨request, hprep, hread⟩ := h Utf8Decoder.replacing _ _ 600 sampleSecret hok (by decide)
  rw [prepareSession, hok] at hprep
  cases hprep
  have hself := ((readControlRequest_eq_iff _ (normalizeDestination_ok hok).2 600 _).mp hread).2
  exact absurd hself (by decide)

end OpenAdb.P2p.Bootstrap
