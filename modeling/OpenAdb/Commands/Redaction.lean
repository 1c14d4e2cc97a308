import OpenAdb.Commands.Scopes
import OpenAdb.Lib.Regex

namespace OpenAdb.Commands.Redaction

open OpenAdb.Lib.PyText OpenAdb.Lib.Regex OpenAdb.Lib.Regex.Pattern
open OpenAdb.Commands.Scopes (redacted CommandRunner)

/-- The parts of an address that are looked at. -/
structure Url where
  netloc : Text
  path : Text
  query : Text
  fragment : Text

/-- The character tables and the parsers of addresses. `sameLetter` compares a character of an expression, the
first argument, without case. -/
structure Tables extends UnicodeData where
  isWord : Char → Bool
  sameLetter : Char → Char → Bool
  urlsplit : Text → Option Url
  parseQsl : Text → List (Text × Text)
  casefold_ne : ∀ c, casefold c ≠ []
  casefold_upper : ∀ c : Char, 65 ≤ c.toNat → c.toNat ≤ 90 → casefold c = [Char.ofNat (c.toNat + 32)]
  casefold_symbol : ∀ c : Char, c = '-' ∨ c = '=' ∨ c = '.' → casefold c = [c]

theorem ascii_casefold_ne (c : Char) : UnicodeData.ascii.casefold c ≠ [] := by
  change (if 65 ≤ c.toNat ∧ c.toNat ≤ 90 then [Char.ofNat (c.toNat + 32)] else [c]) ≠ []
  split
  · exact List.cons_ne_nil _ _
  · exact List.cons_ne_nil _ _

theorem ascii_casefold_upper (c : Char) (hlow : 65 ≤ c.toNat) (hhigh : c.toNat ≤ 90) :
    UnicodeData.ascii.casefold c = [Char.ofNat (c.toNat + 32)] := if_pos ⟨hlow, hhigh⟩

theorem ascii_casefold_symbol (c : Char) (h : c = '-' ∨ c = '=' ∨ c = '.') : UnicodeData.ascii.casefold c = [c] := by
  obtain rfl | rfl | rfl := h
  · rfl
  · rfl
  · rfl

/-- The tables restricted to ASCII, with a parser that takes no address. -/
def Tables.ascii : Tables where
  toUnicodeData := UnicodeData.ascii
  isWord c := c.isAlphanum || c = '_'
  sameLetter c d := c.toLower = d.toLower
  urlsplit _ := none
  parseQsl _ := []
  casefold_ne := ascii_casefold_ne
  casefold_upper := ascii_casefold_upper
  casefold_symbol := ascii_casefold_symbol

def authenticatedUrlRedacted : Text := "[AUTHENTICATED URL REDACTED]".toList

def qrPayloadRedacted : Text := "[QR PAIRING PAYLOAD REDACTED]".toList

/-- The groups whose text is used. -/
inductive Group
  | kept | quote
  deriving DecidableEq

variable (t : Tables)

/-- A text without case. -/
def text (s : String) : Pattern Group := sequence (s.toList.map (fun c => letter (t.sameLetter c)))

def texts (s : String) (rest : List String) : Pattern Group := oneOf (text t s) (rest.map (text t))

def charIn (chars : Text) : Pattern Group := letter (fun c => chars.any (fun d => t.sameLetter d c))

def charNotIn (chars : Text) : Pattern Group := letter (fun c => !chars.any (fun d => t.sameLetter d c))

def space : Pattern Group := letter t.isSpace

def visible : Pattern Group := letter (fun c => !t.isSpace c)

def boundary : Pattern Group := wordBoundary t.isWord

def notRedacted : Pattern Group := notAhead (text t "[REDACTED]")

def letters : Text := "abcdefghijklmnopqrstuvwxyz0123456789".toList

/-- Separators between the words of a label, if any. -/
def gap : Pattern Group := many (charIn t " _-".toList)

def labelWords : Pattern Group :=
  oneOf (sequence [text t "session", gap t, texts t "token" ["secret", "key"]])
    [texts t "token" ["secret"],
      sequence [text t "auth", optional (text t "entication"),
        optional (sequence [gap t, texts t "token" ["key"]])],
      sequence [text t "hmac", gap t, texts t "token" ["secret", "key"]],
      sequence [text t "pair", optional (text t "ing"), gap t, texts t "code" ["pin", "password", "secret"]],
      sequence [text t "qr", gap t, texts t "password" ["secret", "payload"]],
      sequence [text t "one", gap t, text t "shot", optional (sequence [gap t, text t "request"]), gap t,
        texts t "token" ["secret", "key", "password"]],
      sequence [text t "request", gap t, texts t "token" ["secret", "key", "password"]],
      sequence [text t "session", gap t, text t "id"],
      text t "password"]

def quoteMark : Pattern Group := optional (charIn t "\"'".toList)

def labelledSecretPattern : Pattern Group :=
  sequence
    [group .kept (sequence
      [quoteMark t, optional (sequence [text t "p2p", gap t]), labelWords t, quoteMark t, many (space t),
        charIn t ":=".toList, many (space t)]),
      group .quote (quoteMark t),
      sequence [notRedacted t,
        plus (letter (fun c => !t.isSpace c && !"\"',;&\x7d]".toList.any (fun d => t.sameLetter d c)))],
      backref t.sameLetter .quote]

def secretArgumentPattern : Pattern Group :=
  sequence
    [group .kept (sequence
      [text t "-", optional (text t "-"), optional (text t "p2p-"),
        texts t "token" ["secret", "auth-token", "pairing-code", "pairing-password", "qr-password", "hmac-key",
          "request-secret", "session-id"],
        alt (plus (space t)) (text t "=")]),
      plus (visible t)]

def secretQueryPattern : Pattern Group :=
  sequence
    [group .kept (sequence
      [charIn t "?&".toList,
        texts t "token" ["access_token", "secret", "auth", "auth_token", "authorization", "api_key", "apikey",
          "credential", "credentials", "jwt", "oauth_token", "password", "passwd", "pwd", "private_key",
          "pairing_code", "qr_password", "session_id", "session_key", "signature", "sig", "code"],
        text t "="]),
      plus (letter (fun c => !t.isSpace c && !"&#".toList.any (fun d => t.sameLetter d c)))]

def bearerPattern : Pattern Group :=
  sequence
    [group .kept (sequence [boundary t, text t "bearer", plus (space t)]),
      plus (charIn t (letters ++ "._~+/=-".toList))]

def basicAuthPattern : Pattern Group :=
  sequence
    [group .kept (sequence
      [boundary t, optional (text t "proxy-"), text t "authorization", many (space t), text t ":",
        many (space t), text t "basic", plus (space t)]),
      plus (charIn t (letters ++ "+/=_-".toList))]

def tab : Pattern Group := letter (· == '\t')

def readyTokenPattern : Pattern Group :=
  sequence
    [group .kept (sequence
      [lineStart, optional (text t "SESSION_"), text t "READY", tab, plus (letter (fun c => (t.decimal c).isSome)), tab]),
      plus (charNotIn t "\t\r\n".toList)]

def qrAdbPayloadPattern : Pattern Group :=
  sequence
    [boundary t, text t "WIFI:T:ADB;",
      alt (sequence [star false (charNotIn t "\r\n".toList), text t ";;"]) (many (charNotIn t "\r\n".toList))]

def urlPattern : Pattern Group :=
  sequence
    [boundary t,
      oneOf (sequence [text t "http", optional (text t "s")])
        [sequence [text t "ws", optional (text t "s")], text t "ftp", text t "sftp", text t "ssh"],
      text t "://", plus (letter (fun c => !t.isSpace c && !"<>\"'".toList.any (fun d => t.sameLetter d c)))]

def executableName : Pattern Group := sequence [text t "adb", optional (text t ".exe")]

def folders (name : Pattern Group) : Pattern Group :=
  optional (sequence [many name, charIn t "\\/".toList])

def adbPairCommandPattern : Pattern Group :=
  sequence
    [group .kept (sequence
      [alt lineStart (space t),
        alt (sequence [text t "\"", folders t (charNotIn t "\"\r\n".toList), executableName t, text t "\""])
          (sequence
            [folders t (letter (fun c => !t.isSpace c && !"\"'".toList.any (fun d => t.sameLetter d c))),
              executableName t]),
        plus (space t),
        many (sequence
          [oneOf (sequence
              [texts t "-s" ["-t", "-H", "-P", "-L", "--one-device", "--serial", "--transport-id"],
                plus (space t), plus (visible t)])
            [sequence [text t "--", texts t "one-device" ["serial", "transport-id"], text t "=", plus (visible t)],
              text t "-a", text t "-d", text t "-e", text t "--exit-on-write-error"],
            plus (space t)]),
        text t "pair", plus (space t), plus (visible t), plus (space t)]),
      sequence [notRedacted t, plus (visible t)]]

def authenticatedUrlKeys : List Text :=
  ["access_token", "api_key", "apikey", "auth", "auth_token", "authorization", "code", "credential",
    "credentials", "jwt", "key", "oauth_token", "pairing_code", "password", "passwd", "private_key",
    "qr_password", "pwd", "secret", "session_id", "session_key", "sig", "signature", "token"].map String.toList

def secretEndings : List Text :=
  ["_credential", "_key", "_secret", "_signature", "_token"].map String.toList

def componentPattern : Pattern Group :=
  sequence
    [alt textStart (charIn t "&;".toList),
      texts t "token" ["access_token", "secret", "auth", "auth_token", "authorization", "api_key", "apikey",
        "credential", "credentials", "jwt", "oauth_token", "password", "passwd", "pwd", "private_key",
        "pairing_code", "qr_password", "session_id", "session_key", "signature", "sig", "code"],
      text t "="]

def pathKeyPattern : Pattern Group :=
  sequence
    [alt textStart (charIn t "/;".toList),
      texts t "token" ["secret", "password", "auth_token", "credential", "private_key", "session_key",
        "signature", "sig"],
      charIn t "=:/".toList]

def urlComponentContainsSecret (component : Text) : Bool :=
  !component.isEmpty &&
    ((t.parseQsl component).any (fun pair =>
        let normalized := replaceChar ' ' '_' (replaceChar '-' '_' (casefold t.toUnicodeData pair.1))
        authenticatedUrlKeys.contains normalized || secretEndings.any (·.isSuffixOf normalized)) ||
      search (componentPattern t) component)

def replaceAuthenticatedUrl (value : Text) : Text :=
  let candidate := value.rdropWhile (".,)]\x7d".toList.contains ·)
  let trailing := value.drop candidate.length
  match t.urlsplit candidate with
  | none => if candidate.contains '@' then authenticatedUrlRedacted ++ trailing else value
  | some parsed =>
    if parsed.netloc.contains '@' || urlComponentContainsSecret t parsed.query ||
        urlComponentContainsSecret t parsed.fragment || search (pathKeyPattern t) parsed.path then
      authenticatedUrlRedacted ++ trailing
    else value

/-- What stands for a match of which the first group is kept. -/
def hideAfter (_ matched : Place Group) : Text := matched.group .kept ++ redacted

def replaceLabelledSecret (_ matched : Place Group) : Text :=
  matched.group .kept ++ (matched.group .quote ++ (redacted ++ matched.group .quote))

def redactSensitiveText (value : Text) : Text :=
  let value := sub (qrAdbPayloadPattern t) (fun _ _ => qrPayloadRedacted) value
  let value := sub (urlPattern t) (fun s matched => replaceAuthenticatedUrl t (taken s matched)) value
  let value := sub (adbPairCommandPattern t) hideAfter value
  let value := sub (labelledSecretPattern t) replaceLabelledSecret value
  let value := sub (secretArgumentPattern t) hideAfter value
  let value := sub (secretQueryPattern t) hideAfter value
  let value := sub (bearerPattern t) hideAfter value
  let value := sub (basicAuthPattern t) hideAfter value
  sub (readyTokenPattern t) hideAfter value

variable {t}

theorem hideAfter_ne_nil (s matched : Place Group) (_ : matched.after.length < s.after.length) :
    hideAfter s matched ≠ [] := by
  rw [hideAfter]
  exact List.append_ne_nil_of_right_ne_nil _ (by decide)

theorem replaceLabelledSecret_ne_nil (s matched : Place Group) (_ : matched.after.length < s.after.length) :
    replaceLabelledSecret s matched ≠ [] := by
  have hredacted : redacted ≠ [] := by decide
  rw [replaceLabelledSecret]
  exact List.append_ne_nil_of_right_ne_nil _
    (List.append_ne_nil_of_right_ne_nil _ (List.append_ne_nil_of_left_ne_nil hredacted _))

theorem replaceAuthenticatedUrl_ne_nil {value : Text} (h : value ≠ []) : replaceAuthenticatedUrl t value ≠ [] := by
  have hhidden (trailing : Text) : authenticatedUrlRedacted ++ trailing ≠ [] :=
    List.append_ne_nil_of_left_ne_nil (by decide) trailing
  rw [replaceAuthenticatedUrl]
  split
  · split
    · exact hhidden _
    · exact h
  · split
    · exact hhidden _
    · exact h

theorem redactSensitiveText_ne_nil {value : Text} (h : value ≠ []) : redactSensitiveText t value ≠ [] := by
  have hqr (s matched : Place Group) (_ : matched.after.length < s.after.length) : qrPayloadRedacted ≠ [] := by
    decide
  have hurl (s matched : Place Group) (hless : matched.after.length < s.after.length) :
      replaceAuthenticatedUrl t (taken s matched) ≠ [] :=
    replaceAuthenticatedUrl_ne_nil (taken_ne_nil hless)
  rw [redactSensitiveText]
  apply sub_ne_nil hideAfter_ne_nil
  apply sub_ne_nil hideAfter_ne_nil
  apply sub_ne_nil hideAfter_ne_nil
  apply sub_ne_nil hideAfter_ne_nil
  apply sub_ne_nil hideAfter_ne_nil
  apply sub_ne_nil replaceLabelledSecret_ne_nil
  apply sub_ne_nil hideAfter_ne_nil
  exact sub_ne_nil hurl (sub_ne_nil hqr h)

variable (t)

/-- A runner whose texts are redacted so. -/
def redacting (r : CommandRunner) : CommandRunner :=
  { r with unicode := t.toUnicodeData, redactSensitiveText := redactSensitiveText t }

end OpenAdb.Commands.Redaction
