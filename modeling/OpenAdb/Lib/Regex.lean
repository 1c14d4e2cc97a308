import Mathlib.Data.List.TakeDrop
import OpenAdb.Lib.PyText

namespace OpenAdb.Lib.Regex

open OpenAdb.Lib.PyText

/-- The expressions of a backtracking matcher. A letter is what one character has to satisfy, so that an
expression knows nothing of cases and of character tables. -/
inductive Pattern (γ : Type)
  | empty
  | letter (p : Char → Bool)
  | seq (a b : Pattern γ)
  | alt (a b : Pattern γ)
  | star (greedy : Bool) (a : Pattern γ)
  | group (name : γ) (a : Pattern γ)
  | backref (same : Char → Char → Bool) (name : γ)
  | textStart
  | lineStart
  | wordBoundary (isWord : Char → Bool)
  | notAhead (a : Pattern γ)

variable {γ : Type}

namespace Pattern

def sequence : List (Pattern γ) → Pattern γ
  | [] => empty
  | [a] => a
  | a :: rest => seq a (sequence rest)

/-- The alternatives in the order in which they are tried; there is always a first one. -/
def oneOf (a : Pattern γ) : List (Pattern γ) → Pattern γ
  | [] => a
  | b :: rest => alt a (oneOf b rest)

def optional (a : Pattern γ) : Pattern γ := alt a empty

def many (a : Pattern γ) : Pattern γ := star true a

def plus (a : Pattern γ) : Pattern γ := seq a (many a)

end Pattern

/-- A place in a text, with what the groups have taken, the newest first. What lies before the place is held
in reverse. -/
structure Place (γ : Type) where
  before : Text
  after : Text
  groups : List (γ × Text)

/-- What was taken on the way to a later place of the same text. -/
def taken (s t : Place γ) : Text := s.after.take (s.after.length - t.after.length)

theorem taken_ne_nil {s t : Place γ} (h : t.after.length < s.after.length) : taken s t ≠ [] := by
  intro hnil
  have hlength := congrArg List.length hnil
  rw [taken, List.length_take, List.length_nil] at hlength
  omega

def Place.group [DecidableEq γ] (s : Place γ) (name : γ) : Text := (s.groups.lookup name).getD []

/-- Passes over a text that the rest has to begin with. -/
def passOver (same : Char → Char → Bool) : Text → Place γ → List (Place γ)
  | [], s => [s]
  | c :: text, s =>
    match s.after with
    | [] => []
    | d :: rest => if same c d = true then passOver same text ⟨d :: s.before, rest, s.groups⟩ else []

/-- Repeats a step as long as it takes something, so many times at most. -/
def repeated (step : Place γ → List (Place γ)) (greedy : Bool) : Nat → Place γ → List (Place γ)
  | 0, s => [s]
  | n + 1, s =>
    let further := ((step s).filter (fun t => t.after.length < s.after.length)).flatMap (repeated step greedy n)
    if greedy = true then further ++ [s] else s :: further

def atLineStart (s : Place γ) : Bool :=
  match s.before with
  | [] => true
  | c :: _ => c = '\n'

/-- Just one of the two characters next to the place is one of a word. -/
def atBoundary (isWord : Char → Bool) (s : Place γ) : Bool := s.before.head?.any isWord != s.after.head?.any isWord

/-- The ends of the ways to match from a place on, in the order in which they are found. -/
def ends [DecidableEq γ] : Pattern γ → Place γ → List (Place γ)
  | .empty, s => [s]
  | .letter p, s =>
    match s.after with
    | [] => []
    | c :: rest => if p c = true then [⟨c :: s.before, rest, s.groups⟩] else []
  | .seq a b, s => (ends a s).flatMap (ends b)
  | .alt a b, s => ends a s ++ ends b s
  | .star greedy a, s => repeated (ends a) greedy s.after.length s
  | .group name a, s => (ends a s).map (fun t => { t with groups := (name, taken s t) :: t.groups })
  | .backref same name, s => passOver same (s.group name) s
  | .textStart, s => if s.before = [] then [s] else []
  | .lineStart, s => if atLineStart s = true then [s] else []
  | .wordBoundary isWord, s => if atBoundary isWord s = true then [s] else []
  | .notAhead a, s => if ends a s = [] then [s] else []

variable [DecidableEq γ]

/-- `re.search` -/
def found (re : Pattern γ) : Text → Text → Bool
  | before, [] => (ends re ⟨before, [], []⟩).isEmpty = false
  | before, c :: rest => (ends re ⟨before, c :: rest, []⟩).isEmpty = false || found re (c :: before) rest

def search (re : Pattern γ) (text : Text) : Bool := found re [] text

/-- The first match from a place on that takes something. -/
def matchAt (re : Pattern γ) (s : Place γ) : Option (Place γ) :=
  (ends re s).find? (fun t => t.after.length < s.after.length)

/-- `re.sub`, for an expression that matches no empty text. The characters of a match are passed over. -/
def subFrom (re : Pattern γ) (replacement : Place γ → Place γ → Text) : Nat → Text → Text → Text
  | _, _, [] => []
  | skip + 1, before, c :: rest => subFrom re replacement skip (c :: before) rest
  | 0, before, c :: rest =>
    match matchAt re ⟨before, c :: rest, []⟩ with
    | none => c :: subFrom re replacement 0 (c :: before) rest
    | some t =>
      replacement ⟨before, c :: rest, []⟩ t ++
        subFrom re replacement (rest.length - t.after.length) (c :: before) rest

def sub (re : Pattern γ) (replacement : Place γ → Place γ → Text) (text : Text) : Text :=
  subFrom re replacement 0 [] text

/-- `re.findall`, for an expression that matches no empty text: the places at the ends of the matches. -/
def findallFrom (re : Pattern γ) : Nat → Text → Text → List (Place γ)
  | _, _, [] => []
  | skip + 1, before, c :: rest => findallFrom re skip (c :: before) rest
  | 0, before, c :: rest =>
    match matchAt re ⟨before, c :: rest, []⟩ with
    | none => findallFrom re 0 (c :: before) rest
    | some t => t :: findallFrom re (rest.length - t.after.length) (c :: before) rest

def findall (re : Pattern γ) (text : Text) : List (Place γ) := findallFrom re 0 [] text

variable {re : Pattern γ} {replacement : Place γ → Place γ → Text}

/-- A text does not vanish where no match is replaced by nothing. -/
theorem sub_ne_nil (h : ∀ s t : Place γ, t.after.length < s.after.length → replacement s t ≠ []) {text : Text}
    (htext : text ≠ []) : sub re replacement text ≠ [] := by
  cases text with
  | nil => exact absurd rfl htext
  | cons c rest =>
    rw [sub, subFrom]
    cases hmatch : matchAt re ⟨[], c :: rest, []⟩ with
    | none => exact List.cons_ne_nil _ _
    | some t =>
      have htaken := List.find?_some hmatch
      exact List.append_ne_nil_of_left_ne_nil (h _ t (of_decide_eq_true htaken)) _

end OpenAdb.Lib.Regex
