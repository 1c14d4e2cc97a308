import OpenAdb.Lib.Encoding

namespace OpenAdb.Lib.JavaText

open OpenAdb.Lib.PyText OpenAdb.Lib.Encoding

inductive ExceptionKind
  | io | eof | illegalArgument | numberFormat | security | indexOutOfBounds
  deriving DecidableEq

structure JavaException where
  kind : ExceptionKind
  message : Text
  deriving DecidableEq

def blank (c : Char) : Bool := c.toNat ≤ 32

/-- `trim` drops every character up to the space from both ends. -/
def trim (s : Text) : Text := (s.dropWhile blank).rdropWhile blank

def digitValue (c : Char) : Option Nat :=
  if '0'.toNat ≤ c.toNat ∧ c.toNat ≤ '9'.toNat then some (c.toNat - '0'.toNat)
  else if 'a'.toNat ≤ c.toNat ∧ c.toNat ≤ 'z'.toNat then some (c.toNat - 'a'.toNat + 10)
  else if 'A'.toNat ≤ c.toNat ∧ c.toNat ≤ 'Z'.toNat then some (c.toNat - 'A'.toNat + 10)
  else none

def digit (radix : Nat) (c : Char) : Option Nat := (digitValue c).filter (· < radix)

def magnitude (radix : Nat) (s : Text) : Option Nat :=
  if s.all (fun c => (digit radix c).isSome) then
    some (s.foldl (fun n c => radix * n + (digit radix c).getD 0) 0)
  else none

def inIntRange (n : Int) : Bool := -2 ^ 31 ≤ n ∧ n < 2 ^ 31

def forInputString (s : Text) : JavaException :=
  ⟨.numberFormat, "For input string: \"".toList ++ s ++ "\"".toList⟩

/-- `Integer.parseInt`, for the digits that `Character.digit` knows in ASCII. -/
def parseInt (radix : Nat) (s : Text) : Except JavaException Int :=
  let body := if s.head? = some '-' ∨ s.head? = some '+' then s.tail else s
  match if body = [] then none else magnitude radix body with
  | none => .error (forInputString s)
  | some n =>
    let value : Int := if s.head? = some '-' then -n else n
    if inIntRange value then .ok value else .error (forInputString s)

def formatNat (n : Nat) : Text := Nat.toDigits 10 n

/-- `split` by one character drops the empty parts at the end. -/
def split (sep : Char) (s : Text) : List Text :=
  if sep ∈ s then (s.splitOn sep).rdropWhile (fun part => part = []) else [s]

def inLine (c : Char) : Bool := c ≠ '\n' && c ≠ '\r'

/-- `BufferedReader.readLine`: the line and what is left to read. -/
def readLine : Text → Option (Text × Text)
  | [] => none
  | s =>
    let line := s.takeWhile inLine
    let rest := match s.dropWhile inLine with
      | '\r' :: '\n' :: rest => rest
      | _ :: rest => rest
      | [] => []
    some (line, rest)

/-- The text after a prefix, when it starts with it. -/
def afterPrefix (start s : Text) : Option Text :=
  if start.isPrefixOf s then some (s.drop start.length) else none

theorem readLine_line {line rest : Text} (h : ∀ c ∈ line, inLine c = true) :
    readLine (line ++ '\n' :: rest) = some (line, rest) := by
  have hne : line ++ '\n' :: rest ≠ [] := by simp
  have hbreak : ¬inLine '\n' = true := by decide
  simp [readLine, List.takeWhile_append_of_pos h, List.dropWhile_append_of_pos h, hbreak]

theorem readLine_unlines {line : Text} (lines : List Text) (rest : Text)
    (h : ∀ c ∈ line, inLine c = true) :
    readLine (unlines (line :: lines) ++ rest) = some (line, unlines lines ++ rest) := by
  have heq : unlines (line :: lines) ++ rest = line ++ '\n' :: (unlines lines ++ rest) := by
    simp [unlines]
  rw [heq, readLine_line h]

theorem intercalate_newline {lines : List Text} (h : lines ≠ []) :
    ['\n'].intercalate lines ++ ['\n'] = unlines lines := by
  induction lines with
  | nil => exact absurd rfl h
  | cons line lines ih =>
    cases lines with
    | nil => simp [unlines, List.intercalate]
    | cons next lines =>
      have hrest := ih (by simp)
      simp only [unlines, List.intercalate, List.intersperse, List.flatten_cons,
        List.flatMap_cons, List.append_assoc] at hrest ⊢
      rw [hrest]

theorem readLine_last {line : Text} (hne : line ≠ []) (h : ∀ c ∈ line, inLine c = true) :
    readLine line = some (line, []) := by
  rw [readLine, List.takeWhile_eq_self_iff.mpr h, List.dropWhile_eq_nil_iff.mpr h]
  exact hne

theorem afterPrefix_append (start s : Text) : afterPrefix start (start ++ s) = some s := by
  rw [afterPrefix, if_pos (by simp), List.drop_left]

theorem afterPrefix_short {start s : Text} (h : s.length < start.length) :
    afterPrefix start s = none := by
  rw [afterPrefix, if_neg]
  intro hp
  have := (List.isPrefixOf_iff_prefix.mp hp).length_le
  omega

theorem digit_of_isDigit {c : Char} (h : c.isDigit = true) :
    digit 10 c = some (c.toNat - '0'.toNat) := by
  have hc : 48 ≤ c.toNat ∧ c.toNat ≤ 57 := by
    simp only [Char.isDigit, Bool.and_eq_true, decide_eq_true_eq] at h
    exact h
  have hd : digitValue c = some (c.toNat - '0'.toNat) := if_pos hc
  rw [digit, hd, Option.filter_some, if_pos]
  simpa using (by omega : c.toNat - 48 < 10)

theorem magnitude_formatNat (n : Nat) : magnitude 10 (formatNat n) = some n := by
  have hdigit : ∀ c ∈ formatNat n, digit 10 c = some (c.toNat - '0'.toNat) :=
    fun c hc => digit_of_isDigit (Nat.isDigit_of_mem_toDigits (by decide) (by decide) hc)
  have hall : (formatNat n).all (fun c => (digit 10 c).isSome) = true := by
    rw [List.all_eq_true]
    intro c hc
    rw [hdigit c hc]
    rfl
  have hfold : ∀ (l : List Char) (a : Nat), (∀ c ∈ l, digit 10 c = some (c.toNat - '0'.toNat)) →
      l.foldl (fun n c => 10 * n + (digit 10 c).getD 0) a = Nat.ofDigitChars 10 l a := by
    intro l
    induction l with
    | nil => exact fun a _ => rfl
    | cons c l ih =>
      intro a h
      rw [List.foldl_cons, Nat.ofDigitChars_cons, h c List.mem_cons_self]
      exact ih _ (fun d hd => h d (List.mem_cons_of_mem c hd))
  rw [magnitude, if_pos hall, hfold _ _ hdigit, formatNat,
    Nat.ofDigitChars_toDigits (by decide) (by decide)]

theorem head_formatNat (n : Nat) :
    (formatNat n).head? ≠ some '-' ∧ (formatNat n).head? ≠ some '+' := by
  have hdigit : ∀ c, (formatNat n).head? = some c → c.isDigit = true := fun c hc =>
    Nat.isDigit_of_mem_toDigits (by decide) (by decide) (List.mem_of_mem_head? hc)
  exact ⟨fun h => absurd (hdigit _ h) (by decide), fun h => absurd (hdigit _ h) (by decide)⟩

theorem parseInt_formatNat {n : Nat} (h : n < 2 ^ 31) : parseInt 10 (formatNat n) = .ok n := by
  obtain ⟨hm, hp⟩ := head_formatNat n
  have hne : formatNat n ≠ [] := Nat.toDigits_ne_nil
  have hrange : inIntRange (n : Int) = true := by
    simp only [inIntRange, decide_eq_true_eq]
    omega
  simp only [parseInt, hm, hp, or_self, if_false, hne, magnitude_formatNat, hrange, if_true]

theorem not_mem_formatNat {n : Nat} {c : Char} (h : c.isDigit = false) : c ∉ formatNat n := by
  intro hc
  rw [Nat.isDigit_of_mem_toDigits (by decide) (by decide) hc] at h
  cases h

theorem length_formatNat_le {n k : Nat} (hk : 0 < k) (h : n < 10 ^ k) :
    (formatNat n).length ≤ k := (Nat.length_toDigits_le_iff (by decide) hk).mpr h

theorem trim_eq_self {s : Text} (hhead : ∀ c, s.head? = some c → blank c = false)
    (hlast : ∀ c, s.getLast? = some c → blank c = false) : trim s = s := by
  have hd : s.dropWhile blank = s := by
    cases s with
    | nil => rfl
    | cons c s => rw [List.dropWhile_cons_of_neg (by simp [hhead c rfl])]
  rw [trim, hd, List.rdropWhile_eq_self_iff]
  intro hne
  simp [hlast _ (List.getLast?_eq_some_getLast hne)]

end OpenAdb.Lib.JavaText
