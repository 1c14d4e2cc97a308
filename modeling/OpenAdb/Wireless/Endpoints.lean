import Mathlib.Data.List.Infix
import OpenAdb.Files.Listing
import OpenAdb.Lib.Decimals

namespace OpenAdb.Wireless.Endpoints

open OpenAdb.Lib.PyText OpenAdb.Lib.PyLines OpenAdb.Lib.Decimals
open OpenAdb.Files.Listing (parseInt)

/-- The character tables with some rows of the digits, the brackets and `lower`. -/
structure Tables extends UnicodeData where
  lower : Text → Text
  isSpace_symbol : ∀ c : Char, c = '.' ∨ c = '[' ∨ c = ']' → isSpace c = false
  isSpace_decimal : ∀ c, (decimal c).isSome = true → isSpace c = false
  decimal_digit : ∀ c : Char, c.isDigit = true → decimal c = some (c.toNat - 48)
  decimal_symbol : ∀ c : Char, c = ':' ∨ c = ']' ∨ c = '\\' → decimal c = none
  lower_digit : ∀ s (c : Char), c.isDigit = true → (lower (s ++ [c])).getLast? = some c

/-- A port as the callers give it. -/
inductive Port
  | number (n : Int)
  | text (s : Text)

variable (u : Tables)

def Port.parsed : Port → Option Int
  | .number n => some n
  | .text s => parseInt u.toUnicodeData (strip u.toUnicodeData s)

def normalizeTcpPort (port : Port) : Except Text Nat :=
  match port.parsed u with
  | none => .error "Port must be a number from 1 to 65535.".toList
  | some parsed =>
    if parsed < 1 ∨ 65535 < parsed then .error "Port must be from 1 to 65535.".toList
    else .ok parsed.toNat

def decimals (s : Text) : Bool := isdecimal u.toUnicodeData s

/-- `\]:\d+$`, for a text that does not end with a newline. -/
def endsWithBracketedPort (s : Text) : Bool :=
  let digit := fun c => (u.decimal c).isSome
  !(s.rtakeWhile digit).isEmpty && "]:".toList.isSuffixOf (s.rdropWhile digit)

/-- `^[^:]+:\d+$`. -/
def isHostAndPort (s : Text) : Bool :=
  match s.splitOn ':' with
  | [host, port] => host ≠ [] && decimals u port
  | _ => false

def formatPort (port : Nat) : Text := (Nat.repr port).toList

def wirelessTarget (host : Text) (port : Option Port) : Except Text Text :=
  let host := strip u.toUnicodeData host
  if host = [] then .error "Device IP address or hostname is empty.".toList
  else match port with
  | none => .ok host
  | some port =>
    match normalizeTcpPort u port with
    | .error message => .error message
    | .ok parsedPort =>
      if host.head? = some '[' ∧ ']' ∈ host then
        if endsWithBracketedPort u host then .ok host
        else .ok (host ++ ':' :: formatPort parsedPort)
      else if isHostAndPort u host then .ok host
      else if ':' ∈ host then .ok ('[' :: host ++ "]:".toList ++ formatPort parsedPort)
      else .ok (host ++ ':' :: formatPort parsedPort)

def mdnsSuffix : Text := "_adb-tls-connect._tcp".toList

def isMdnsWirelessSerial (serial : Text) : Bool :=
  mdnsSuffix.isSuffixOf (rstripChar '.' (u.lower (strip u.toUnicodeData serial)))

/-- `^[^:\s]+:\d{1,5}$`. -/
def isEndpoint (s : Text) : Bool :=
  match s.splitOn ':' with
  | [host, port] => host ≠ [] && host.all (fun c => !u.isSpace c) && decimals u port && port.length ≤ 5
  | _ => false

def bracketed (s : Text) : Bool := s.head? = some '[' && decide ("]:".toList <:+: s)

def looksLikeWirelessSerial (serial : Text) : Bool :=
  let text := strip u.toUnicodeData serial
  if text = [] then false
  else if isMdnsWirelessSerial u text then true
  else if bracketed text then true
  else isEndpoint u text

/-- `^[^:\\s]+:\\d{2,5}$`, where the doubled backslashes stand for themselves. -/
def isBackslashPort (s : Text) : Bool :=
  match s.splitOn ':' with
  | [host, '\\' :: port] =>
    host ≠ [] && host.all (fun c => c ≠ '\\' && c ≠ 's') && port.all (· = 'd') &&
      2 ≤ port.length && port.length ≤ 5
  | _ => false

def isOctet (s : Text) : Bool := decimals u s && s.length ≤ 3

def isDottedQuad (s : Text) : Bool :=
  match s.splitOn '.' with
  | [a, b, c, d] => isOctet u a && isOctet u b && isOctet u c && isOctet u d
  | _ => false

/-- `^(?:\d{1,3}\.){3}\d{1,3}:\d{2,5}$`. -/
def isQuadAndPort (s : Text) : Bool :=
  match s.splitOn ':' with
  | [host, port] => isDottedQuad u host && decimals u port && 2 ≤ port.length && port.length ≤ 5
  | _ => false

def isWirelessAdbTransport (serial : Text) : Bool :=
  let serial := strip u.toUnicodeData serial
  if serial = [] then false
  else if isMdnsWirelessSerial u serial then true
  else if bracketed serial then true
  else if isBackslashPort serial then true
  else isQuadAndPort u serial

def beforeLastColon (s : Text) : Text := (s.rdropWhile (· ≠ ':')).dropLast

def afterLastColon (s : Text) : Text := s.rtakeWhile (· ≠ ':')

def mdnsTargetHost (target : Text) : Text :=
  let target := strip u.toUnicodeData target
  if target.head? = some '[' ∧ ']' ∈ target then target.tail.takeWhile (· ≠ ']')
  else if ':' ∈ target then beforeLastColon target
  else target

/-- `int` of a port; what is no number has no port. -/
def intOfPort (s : Text) : Option Int := parseInt u.toUnicodeData (strip u.toUnicodeData s)

def wirelessEndpointParts (target : Text) : Text × Option Int :=
  let text := strip u.toUnicodeData target
  if text = [] then ([], none)
  else if bracketed text then
    let host := textBefore "]:".toList text.tail
    (host, intOfPort u (text.tail.drop (host.length + 2)))
  else if isEndpoint u text then (beforeLastColon text, intOfPort u (afterLastColon text))
  else (text, none)

/-- A host name or an IPv4 address. -/
structure HostName where
  text : Text
  nonempty : text ≠ []
  unspaced : ∀ c ∈ text, u.isSpace c = false
  colon : ':' ∉ text
  bracket : '[' ∉ text

/-- The text of an IPv6 address, with or without a zone. -/
structure IPv6 where
  text : Text
  unspaced : ∀ c ∈ text, u.isSpace c = false
  colons : 2 ≤ text.count ':'
  opening : '[' ∉ text
  closing : ']' ∉ text

inductive Host
  | name (h : HostName u)
  | ipv6 (a : IPv6 u) (brackets : Bool)

variable {u}

def Host.bare : Host u → Text
  | .name h => h.text
  | .ipv6 a _ => a.text

/-- The host as it is typed. -/
def Host.written : Host u → Text
  | .name h => h.text
  | .ipv6 a true => '[' :: a.text ++ [']']
  | .ipv6 a false => a.text

/-- An IPv4 address needs a port of two digits, and an IPv6 address none. -/
def Host.classified (port : Nat) : Host u → Prop
  | .name h => isDottedQuad u h.text = true ∧ 10 ≤ port
  | .ipv6 _ _ => True

theorem isDigit_of_mem_formatPort {p : Nat} {c : Char} (h : c ∈ formatPort p) : c.isDigit = true :=
  isDigit_of_mem_repr h

theorem formatPort_ne_nil (port : Nat) : formatPort port ≠ [] := repr_ne_nil port

theorem not_mem_formatPort {p : Nat} {c : Char} (h : c.isDigit = false) : c ∉ formatPort p := not_mem_repr h

theorem length_formatPort_le {p k : Nat} (hk : 0 < k) : (formatPort p).length ≤ k ↔ p < 10 ^ k := length_repr_le hk

theorem isSpace_digit {c : Char} (h : c.isDigit = true) : u.isSpace c = false := by
  refine u.isSpace_decimal c ?_
  rw [u.decimal_digit c h]
  rfl

theorem decimals_formatPort (port : Nat) : decimals u (formatPort port) = true := isdecimal_repr u.decimal_digit port

theorem strip_self {s : Text} (hhead : ∀ c ∈ s.head?, u.isSpace c = false)
    (hlast : ∀ c ∈ s.getLast?, u.isSpace c = false) : strip u.toUnicodeData s = s := by
  have hdrop : s.dropWhile u.isSpace = s := by
    cases s with
    | nil => rfl
    | cons c s => rw [List.dropWhile_cons_of_neg (by simp [hhead c rfl])]
  rw [strip, hdrop]
  exact rstrip_of_getLast hlast

theorem strip_unspaced {s : Text} (h : ∀ c ∈ s, u.isSpace c = false) : strip u.toUnicodeData s = s :=
  strip_self (fun c hc => h c (List.mem_of_mem_head? hc)) (fun c hc => h c (List.mem_of_mem_getLast? hc))

/-- A text that ends with a port is not stripped at its end. -/
theorem strip_port {s : Text} {port : Nat} (hhead : ∀ c ∈ (s ++ formatPort port).head?, u.isSpace c = false) :
    strip u.toUnicodeData (s ++ formatPort port) = s ++ formatPort port := by
  refine strip_self hhead fun c hc => isSpace_digit (isDigit_of_mem_formatPort (p := port) ?_)
  rw [List.getLast?_append_of_ne_nil _ (formatPort_ne_nil port)] at hc
  exact List.mem_of_mem_getLast? hc

theorem intOfDigits_formatPort (port : Nat) : intOfDigits u.toUnicodeData (formatPort port) = port :=
  intOfDigits_repr u.decimal_digit port

theorem intOfPort_formatPort {port : Nat} (h : port ≤ 65535) :
    intOfPort u (formatPort port) = some (port : Int) := by
  have hstrip : strip u.toUnicodeData (formatPort port) = formatPort port :=
    strip_unspaced (fun c hc => isSpace_digit (isDigit_of_mem_formatPort hc))
  have hgroups : (formatPort port).splitOn '_' = [formatPort port] :=
    List.splitOn_eq_singleton (not_mem_formatPort (by decide))
  have hlength : (formatPort port).length ≤ 4300 :=
    ((length_formatPort_le (k := 5) (by decide)).mpr (by omega)).trans (by decide)
  have hsign : ∀ c ∈ (formatPort port).head?, c ≠ '-' ∧ c ≠ '+' := by
    intro c hc
    have hdigit := isDigit_of_mem_formatPort (List.mem_of_mem_head? hc)
    exact ⟨fun h => absurd (h ▸ hdigit) (by decide), fun h => absurd (h ▸ hdigit) (by decide)⟩
  have hdecimal := decimals_formatPort (u := u) port
  have hvalue := intOfDigits_formatPort (u := u) port
  rw [intOfPort, hstrip]
  cases hs : formatPort port with
  | nil => exact absurd hs (formatPort_ne_nil port)
  | cons c rest =>
    rw [hs] at hgroups hlength hsign hdecimal hvalue
    obtain ⟨hminus, hplus⟩ := hsign c rfl
    rw [decimals] at hdecimal
    rw [List.length_cons] at hlength
    simp [parseInt, hminus, hplus, hgroups, hdecimal, hvalue]
    omega

theorem splitOn_colon {host port : Text} (hhost : ':' ∉ host) (hport : ':' ∉ port) :
    (host ++ ':' :: port).splitOn ':' = [host, port] := by
  rw [List.splitOn_append_cons_self_of_not_mem hhost, List.splitOn_eq_singleton hport]

theorem isEndpoint_of_splitOn {s host port : Text} (hsplit : s.splitOn ':' = [host, port]) (hne : host ≠ [])
    (hspace : ∀ c ∈ host, u.isSpace c = false) (hport : decimals u port = true) (hlength : port.length ≤ 5) :
    isEndpoint u s = true := by
  simp only [isEndpoint, hsplit, Bool.and_eq_true, decide_eq_true_eq, List.all_eq_true, Bool.not_eq_true']
  exact ⟨⟨⟨hne, hspace⟩, hport⟩, hlength⟩

theorem unspaced_of_decimals {s : Text} (h : decimals u s = true) : ∀ c ∈ s, u.isSpace c = false := by
  rw [decimals, isdecimal, Bool.and_eq_true, List.all_eq_true] at h
  exact fun c hc => u.isSpace_decimal c (h.2 c hc)

theorem unspaced_of_isDottedQuad {s : Text} (h : isDottedQuad u s = true) :
    s ≠ [] ∧ ∀ c ∈ s, u.isSpace c = false := by
  unfold isDottedQuad at h
  split at h
  case h_1 a b c d hsplit =>
    simp only [isOctet, Bool.and_eq_true] at h
    obtain ⟨⟨⟨⟨ha, -⟩, hb, -⟩, hc, -⟩, hd, -⟩ := h
    have hs : ['.'].intercalate [a, b, c, d] = s := hsplit ▸ @List.intercalate_splitOn _ s _ _ '.'
    refine ⟨?_, fun x hx => ?_⟩
    · intro hnil
      rw [hnil] at hsplit
      cases hsplit
    · rw [← hs] at hx
      obtain hdot | ⟨part, hpart, hx⟩ := mem_part_of_mem_intercalate hx
      · exact u.isSpace_symbol x (.inl hdot)
      · simp only [List.mem_cons, List.not_mem_nil, or_false] at hpart
        obtain hp | hp | hp | hp := hpart
        · exact unspaced_of_decimals ha x (hp ▸ hx)
        · exact unspaced_of_decimals hb x (hp ▸ hx)
        · exact unspaced_of_decimals hc x (hp ▸ hx)
        · exact unspaced_of_decimals hd x (hp ▸ hx)
  case h_2 => cases h

theorem isEndpoint_of_isQuadAndPort {s : Text} (h : isQuadAndPort u s = true) : isEndpoint u s = true := by
  unfold isQuadAndPort at h
  split at h
  case h_1 host port hsplit =>
    simp only [Bool.and_eq_true, decide_eq_true_eq] at h
    obtain ⟨⟨⟨hquad, hport⟩, -⟩, hlength⟩ := h
    obtain ⟨hne, hspace⟩ := unspaced_of_isDottedQuad hquad
    exact isEndpoint_of_splitOn hsplit hne hspace hport hlength
  case h_2 => cases h

theorem not_isEndpoint_of_isBackslashPort {s : Text} (h : isBackslashPort s = true) :
    isEndpoint u s = false := by
  unfold isBackslashPort at h
  split at h
  case h_1 host port hsplit =>
    have hdecimal : decimals u ('\\' :: port) = false := by
      rw [decimals, isdecimal, List.all_cons, u.decimal_symbol '\\' (by simp)]
      simp
    simp only [isEndpoint, hsplit, hdecimal, Bool.and_false, Bool.false_and]
  case h_2 => cases h

/-- The serials that both predicates judge alike. -/
def Agreed (u : Tables) (s : Text) : Prop :=
  isMdnsWirelessSerial u s = true ∨ bracketed s = true ∨
    (isEndpoint u s = true → isQuadAndPort u s = true) ∧ isBackslashPort s = false

theorem looks_iff_transport (serial : Text) :
    looksLikeWirelessSerial u serial = isWirelessAdbTransport u serial ↔
      Agreed u (strip u.toUnicodeData serial) := by
  rw [looksLikeWirelessSerial, isWirelessAdbTransport, Agreed]
  by_cases hempty : strip u.toUnicodeData serial = []
  · rw [if_pos hempty, if_pos hempty, hempty]
    have hnone : isEndpoint u [] = false := by simp [isEndpoint]
    simp [hnone, isBackslashPort]
  · rw [if_neg hempty, if_neg hempty]
    generalize strip u.toUnicodeData serial = s
    cases hmdns : isMdnsWirelessSerial u s with
    | true => simp
    | false =>
      cases hbracket : bracketed s with
      | true => simp
      | false =>
        simp only [Bool.false_eq_true, if_false, false_or]
        cases hbackslash : isBackslashPort s with
        | true => simp [not_isEndpoint_of_isBackslashPort hbackslash]
        | false =>
          cases hquad : isQuadAndPort u s with
          | true => simp [isEndpoint_of_isQuadAndPort hquad]
          | false => simp

section Targets

theorem HostName.not_mem_symbol (h : HostName u) : h.text.head? ≠ some '[' :=
  fun hhead => h.bracket (List.mem_of_mem_head? hhead)

theorem IPv6.ne_nil (a : IPv6 u) : a.text ≠ [] := by
  intro hnil
  have hcount := a.colons
  rw [hnil] at hcount
  exact absurd hcount (by decide)

theorem IPv6.mem_colon (a : IPv6 u) : ':' ∈ a.text :=
  List.count_pos_iff.mp (Nat.lt_of_lt_of_le Nat.zero_lt_two a.colons)

theorem IPv6.not_isHostAndPort (a : IPv6 u) : isHostAndPort u a.text = false := by
  unfold isHostAndPort
  split
  case h_1 host port hsplit =>
    have hcount := a.colons
    have hlength := length_splitOn ':' a.text
    rw [hsplit] at hlength
    have htwo : a.text.count ':' + 1 = 2 := hlength.symm
    omega
  case h_2 => rfl

theorem normalizeTcpPort_number {port : Nat} (h : 1 ≤ port ∧ port ≤ 65535) :
    normalizeTcpPort u (.number port) = .ok port := by
  have hrange : ¬((port : Int) < 1 ∨ (65535 : Int) < port) := by omega
  simp only [normalizeTcpPort, Port.parsed, if_neg hrange, Int.toNat_natCast]

/-- The target that is built for a host and a port. -/
def Host.target (host : Host u) (port : Nat) : Text :=
  match host with
  | .name h => h.text ++ ':' :: formatPort port
  | .ipv6 a _ => '[' :: (a.text ++ ("]:".toList ++ formatPort port))

theorem wirelessTarget_host (host : Host u) {port : Nat} (h : 1 ≤ port ∧ port ≤ 65535) :
    wirelessTarget u host.written (some (.number port)) = .ok (host.target port) := by
  cases host with
  | name n =>
    have hstrip := strip_unspaced n.unspaced
    have hport : isHostAndPort u n.text = false := by
      simp [isHostAndPort, List.splitOn_eq_singleton n.colon]
    simp only [wirelessTarget, Host.written, hstrip, if_neg n.nonempty, normalizeTcpPort_number h,
      n.not_mem_symbol, hport, n.colon, false_and, if_false, Bool.false_eq_true]
    rfl
  | ipv6 a brackets =>
    cases brackets with
    | false =>
      have hstrip := strip_unspaced a.unspaced
      have hhead : a.text.head? ≠ some '[' := fun hhead => a.opening (List.mem_of_mem_head? hhead)
      simp only [wirelessTarget, Host.written, hstrip, if_neg a.ne_nil, normalizeTcpPort_number h, hhead,
        a.not_isHostAndPort, a.mem_colon, false_and, if_false, if_true, Bool.false_eq_true]
      simp [Host.target]
    | true =>
      have hstrip : strip u.toUnicodeData ('[' :: a.text ++ [']']) = '[' :: a.text ++ [']'] := by
        refine strip_self ?_ ?_
        · intro c hc
          cases hc
          exact u.isSpace_symbol _ (by simp)
        · intro c hc
          rw [List.getLast?_concat] at hc
          cases hc
          exact u.isSpace_symbol _ (by simp)
      have hnone : ((u.decimal ']').isSome) = false := by
        rw [u.decimal_symbol ']' (by simp)]
        rfl
      have hport : endsWithBracketedPort u ('[' :: a.text ++ [']']) = false := by
        have hnothing := @List.rtakeWhile_concat_neg _ (fun c => (u.decimal c).isSome) ('[' :: a.text) ']'
          (by simp [hnone])
        rw [endsWithBracketedPort, hnothing]
        rfl
      have hmem : ('[' :: a.text ++ [']']).head? = some '[' ∧ ']' ∈ '[' :: a.text ++ [']'] := by simp
      simp only [wirelessTarget, Host.written, hstrip, normalizeTcpPort_number h, hmem, hport, and_self, if_true]
      simp [Host.target]

theorem strip_target (host : Host u) (port : Nat) :
    strip u.toUnicodeData (host.target port) = host.target port := by
  cases host with
  | name n =>
    have hform : (Host.name n).target port = (n.text ++ [':']) ++ formatPort port := by simp [Host.target]
    rw [hform]
    refine strip_port fun c hc => n.unspaced c ?_
    rw [List.append_assoc, List.head?_append_of_ne_nil _ n.nonempty] at hc
    exact List.mem_of_mem_head? hc
  | ipv6 a brackets =>
    have hform : (Host.ipv6 a brackets).target port = ('[' :: (a.text ++ "]:".toList)) ++ formatPort port := by
      simp [Host.target]
    rw [hform]
    refine strip_port fun c hc => ?_
    cases hc
    exact u.isSpace_symbol _ (by simp)

theorem afterLastColon_append (host : Text) {port : Text} (h : ':' ∉ port) :
    beforeLastColon (host ++ ':' :: port) = host ∧ afterLastColon (host ++ ':' :: port) = port := by
  have hne : ∀ c ∈ port.reverse, (c ≠ ':' : Bool) = true := by
    intro c hc
    have hcolon : c ≠ ':' := fun heq => h (heq ▸ List.mem_reverse.mp hc)
    simpa using hcolon
  have hform : (host ++ ':' :: port).reverse = port.reverse ++ ':' :: host.reverse := by simp
  constructor
  · rw [beforeLastColon, List.rdropWhile, hform, List.dropWhile_append_of_pos hne,
      List.dropWhile_cons_of_neg (by simp)]
    simp
  · rw [afterLastColon, List.rtakeWhile, hform, List.takeWhile_append_of_pos hne,
      List.takeWhile_cons_of_neg (by simp)]
    simp

theorem not_infix_closing {s : Text} (h : ']' ∉ s) : ¬ "]:".toList <:+: s ++ [']'] := by
  induction s with
  | nil =>
    intro hin
    exact absurd hin.length_le (by decide)
  | cons c s ih =>
    intro hin
    obtain hpre | hin := List.infix_cons_iff.mp hin
    · obtain ⟨hc, -⟩ := List.cons_prefix_cons.mp hpre
      exact h (hc ▸ List.mem_cons_self)
    · exact ih (fun hs => h (List.mem_cons_of_mem c hs)) hin

theorem textBefore_target (a : IPv6 u) (port : Text) :
    textBefore "]:".toList (a.text ++ ("]:".toList ++ port)) = a.text :=
  textBefore_append (not_infix_closing a.closing) (by simp)

variable {port : Nat}

theorem target_ne_nil (host : Host u) : host.target port ≠ [] := by
  cases host <;> simp [Host.target]

theorem bracketed_name (n : HostName u) : bracketed ((Host.name n).target port) = false := by
  have hhead : ((Host.name n).target port).head? ≠ some '[' := by
    rw [Host.target, List.head?_append_of_ne_nil _ n.nonempty]
    exact n.not_mem_symbol
  simp [bracketed, hhead]

theorem bracketed_ipv6 (a : IPv6 u) (brackets : Bool) :
    bracketed ((Host.ipv6 a brackets).target port) = true := by
  have hin : "]:".toList <:+: '[' :: (a.text ++ ("]:".toList ++ formatPort port)) :=
    ⟨'[' :: a.text, formatPort port, by simp⟩
  rw [bracketed, Host.target, decide_eq_true hin]
  rfl

theorem splitOn_name (n : HostName u) :
    ((Host.name n).target port).splitOn ':' = [n.text, formatPort port] :=
  splitOn_colon n.colon (not_mem_formatPort (by decide))

theorem isEndpoint_name (n : HostName u) (h : port ≤ 65535) :
    isEndpoint u ((Host.name n).target port) = true :=
  isEndpoint_of_splitOn (splitOn_name n) n.nonempty n.unspaced (decimals_formatPort port)
    ((length_formatPort_le (by decide)).mpr (by omega))

theorem wirelessEndpointParts_target (host : Host u) (h : port ≤ 65535) :
    wirelessEndpointParts u (host.target port) = (host.bare, some (port : Int)) := by
  rw [wirelessEndpointParts, strip_target, if_neg (target_ne_nil host)]
  cases host with
  | name n =>
    obtain ⟨hbefore, hafter⟩ := afterLastColon_append n.text (not_mem_formatPort (p := port) (by decide))
    rw [bracketed_name, if_neg Bool.false_ne_true, isEndpoint_name n h, if_pos rfl, Host.target, hbefore, hafter,
      intOfPort_formatPort h]
    rfl
  | ipv6 a brackets =>
    have hrest : (a.text ++ ("]:".toList ++ formatPort port)).drop (a.text.length + 2) = formatPort port := by
      rw [← List.append_assoc]
      exact List.drop_left' (by simp)
    rw [bracketed_ipv6, if_pos rfl, Host.target, List.tail_cons, textBefore_target]
    change (a.text, intOfPort u ((a.text ++ ("]:".toList ++ formatPort port)).drop (a.text.length + 2))) = _
    rw [hrest, intOfPort_formatPort h]
    rfl

theorem mdnsTargetHost_target (host : Host u) : mdnsTargetHost u (host.target port) = host.bare := by
  rw [mdnsTargetHost, strip_target]
  cases host with
  | name n =>
    have hhead : ((Host.name n).target port).head? ≠ some '[' := by
      rw [Host.target, List.head?_append_of_ne_nil _ n.nonempty]
      exact n.not_mem_symbol
    have hmem : ':' ∈ (Host.name n).target port := by simp [Host.target]
    rw [if_neg (fun hand => hhead hand.1), if_pos hmem]
    exact (afterLastColon_append n.text (not_mem_formatPort (by decide))).1
  | ipv6 a brackets =>
    have hmem : ((Host.ipv6 a brackets).target port).head? = some '[' ∧
        ']' ∈ (Host.ipv6 a brackets).target port := by simp [Host.target]
    have hne : ∀ c ∈ a.text, (c ≠ ']' : Bool) = true := by
      intro c hc
      have hclosing : c ≠ ']' := fun heq => a.closing (heq ▸ hc)
      simpa using hclosing
    have hform : "]:".toList ++ formatPort port = ']' :: ':' :: formatPort port := rfl
    rw [if_pos hmem, Host.target, List.tail_cons, hform, List.takeWhile_append_of_pos hne,
      List.takeWhile_cons_of_neg (by simp), List.append_nil]
    rfl

theorem looksLikeWirelessSerial_target (host : Host u) (h : port ≤ 65535) :
    looksLikeWirelessSerial u (host.target port) = true := by
  rw [looksLikeWirelessSerial, strip_target, if_neg (target_ne_nil host)]
  cases host with
  | name n => simp [isEndpoint_name n h]
  | ipv6 a brackets => simp [bracketed_ipv6]

/-- The name of a service does not end with a port. -/
theorem not_mdns_target (n : HostName u) : isMdnsWirelessSerial u ((Host.name n).target port) = false := by
  rw [isMdnsWirelessSerial, strip_target, Bool.eq_false_iff]
  intro hmdns
  obtain ⟨init, d, hport⟩ : ∃ init d, formatPort port = init ++ [d] :=
    ⟨_, _, (List.dropLast_concat_getLast (formatPort_ne_nil port)).symm⟩
  have hd : d.isDigit = true := isDigit_of_mem_formatPort (p := port) (by rw [hport]; simp)
  have hform : (Host.name n).target port = (n.text ++ ':' :: init) ++ [d] := by simp [Host.target, hport]
  have hlast := u.lower_digit (n.text ++ ':' :: init) d hd
  rw [← hform] at hlast
  obtain ⟨front, hfront⟩ := List.getLast?_eq_some_iff.mp hlast
  have hdot : (d == '.') = false := by
    cases hdot : d == '.' with
    | false => rfl
    | true =>
      rw [eq_of_beq hdot] at hd
      exact absurd hd (by decide)
  have hsame : rstripChar '.' (u.lower ((Host.name n).target port)) = front ++ [d] := by
    rw [hfront]
    exact List.rdropWhile_concat_neg _ _ _ (by simp [hdot])
  rw [hsame, List.isSuffixOf_iff_suffix] at hmdns
  obtain ⟨before, heq⟩ := hmdns
  have hend := congrArg List.getLast? heq
  rw [List.getLast?_append_of_ne_nil _ (show mdnsSuffix ≠ [] by decide), List.getLast?_concat] at hend
  have hsuffix : mdnsSuffix.getLast? = some 'p' := by decide
  rw [hsuffix] at hend
  rw [← Option.some.inj hend] at hd
  exact absurd hd (by decide)

theorem not_isBackslashPort_target (n : HostName u) : isBackslashPort ((Host.name n).target port) = false := by
  unfold isBackslashPort
  split
  case h_1 host rest hsplit =>
    rw [splitOn_name] at hsplit
    have hmem : '\\' ∈ formatPort port := by
      rw [(List.cons.inj (List.cons.inj hsplit).2).1]
      exact List.mem_cons_self
    exact absurd hmem (not_mem_formatPort (by decide))
  case h_2 => rfl

theorem isWirelessAdbTransport_target (host : Host u) (h : port ≤ 65535) :
    isWirelessAdbTransport u (host.target port) = true ↔ host.classified port := by
  rw [isWirelessAdbTransport, strip_target, if_neg (target_ne_nil host)]
  cases host with
  | name n =>
    have hlong : 2 ≤ (formatPort port).length ↔ 10 ≤ port := by
      have hone := length_formatPort_le (p := port) Nat.one_pos
      omega
    have hshort : (formatPort port).length ≤ 5 := (length_formatPort_le (by decide)).mpr (by omega)
    simp only [not_mdns_target, bracketed_name, not_isBackslashPort_target, Bool.false_eq_true, if_false,
      isQuadAndPort, splitOn_name, decimals_formatPort, Bool.and_eq_true, decide_eq_true_eq, hshort, and_true,
      hlong, Host.classified]
  | ipv6 a brackets => simp [bracketed_ipv6, Host.classified]

end Targets

/-- The parts agree on every endpoint that is classified and on every agreed serial,
and on no other. -/
theorem endpoints_agree (u : Tables) :
    (∀ (host : Host u) (port : Nat), 1 ≤ port ∧ port ≤ 65535 →
      ∃ target, wirelessTarget u host.written (some (.number port)) = .ok target ∧
        wirelessEndpointParts u target = (host.bare, some (port : Int)) ∧
        mdnsTargetHost u target = host.bare ∧ looksLikeWirelessSerial u target = true ∧
        (isWirelessAdbTransport u target = true ↔ host.classified port)) ∧
    ∀ serial, looksLikeWirelessSerial u serial = isWirelessAdbTransport u serial ↔
      Agreed u (strip u.toUnicodeData serial) := by
  refine ⟨fun host port hport => ?_, looks_iff_transport⟩
  exact ⟨host.target port, wirelessTarget_host host hport, wirelessEndpointParts_target host hport.2,
    mdnsTargetHost_target host, looksLikeWirelessSerial_target host hport.2,
    isWirelessAdbTransport_target host hport.2⟩

/-- The tables of ASCII. -/
def asciiTables : Tables where
  toUnicodeData := UnicodeData.ascii
  lower s := s.map Char.toLower
  isSpace_symbol c h := by
    obtain rfl | rfl | rfl := h <;> decide
  isSpace_decimal c h := by
    have hrange : 48 ≤ c.toNat ∧ c.toNat ≤ 57 := by
      by_contra hout
      simp [UnicodeData.ascii, hout] at h
    simp [UnicodeData.ascii]
    omega
  decimal_digit c h := by
    obtain ⟨hlow, hhigh⟩ := Char.isDigit_iff_toNat.mp h
    exact if_pos ⟨by simpa using hlow, by simpa using hhigh⟩
  decimal_symbol c h := by
    obtain rfl | rfl | rfl := h <;> decide
  lower_digit s c h := by
    have hc : c.toLower = c := by
      obtain ⟨-, hhigh⟩ := Char.isDigit_iff_toNat.mp h
      have hrange : ¬(c.val ≥ 65 ∧ c.val ≤ 90) := by
        intro hupper
        have hlow : 65 ≤ c.toNat := hupper.1
        have hdigit : c.toNat ≤ 57 := by simpa using hhigh
        omega
      exact dif_neg hrange
    rw [List.map_append, List.map_singleton, hc, List.getLast?_concat]

/-- A television that is reached by its name. -/
def tvName : HostName asciiTables where
  text := ['t', 'v']
  nonempty := by simp
  unspaced := List.all_iff_forall_prop.mp (by decide)
  colon := by simp
  bracket := by simp

theorem endpoints_agree_tv : ∃ target,
    wirelessTarget asciiTables ['t', 'v'] (some (.number 5555)) = .ok target ∧
      (isWirelessAdbTransport asciiTables target = true ↔ (Host.name tvName).classified 5555) := by
  obtain ⟨target, htarget, -, -, -, htransport⟩ :=
    (endpoints_agree asciiTables).1 (.name tvName) 5555 ⟨by decide, by decide⟩
  exact ⟨target, htarget, htransport⟩

theorem not_endpoints_agree :
    ¬ ∀ (u : Tables) (host : Host u) (port : Nat) (target : Text), 1 ≤ port ∧ port ≤ 65535 →
      wirelessTarget u host.written (some (.number port)) = .ok target →
        isWirelessAdbTransport u target = true := by
  intro h
  have htarget : wirelessTarget asciiTables (Host.name tvName).written (some (.number 5555)) =
      .ok ['t', 'v', ':', '5', '5', '5', '5'] := by decide +kernel
  have htransport := h asciiTables (.name tvName) 5555 _ ⟨by decide, by decide⟩ htarget
  exact absurd htransport (by decide +kernel)

end OpenAdb.Wireless.Endpoints
