import OpenAdb.Lib.Encoding

namespace OpenAdb.P2p.Entry

open OpenAdb.Lib.PyText OpenAdb.Lib.Encoding

def P2P_MAX_ENTRIES : Nat := 100000
def MAX_TEXT_BYTES : Nat := 65536

structure P2PEntry where
  source : Option Text
  relative_path : Text
  size : Nat
  is_directory : Bool
  deriving DecidableEq

def regularFiles (entries : List P2PEntry) : List P2PEntry := entries.filter (fun e => !e.is_directory)

def totalFiles (entries : List P2PEntry) : Nat := (regularFiles entries).length

def totalBytes (entries : List P2PEntry) : Nat := ((regularFiles entries).map (·.size)).sum

def largestFileBytes (entries : List P2PEntry) : Nat :=
  ((regularFiles entries).map (·.size)).foldr max 0

inductive NameError
  | unsafePath (value : Text)
  | tooLong
  deriving DecidableEq

def unsafePart (part : Text) : Bool := part ∈ [[], ['.'], ['.', '.']] || '\x00' ∈ part

def safeRelativeName (value : Text) : Except NameError Text :=
  let clean := rstripChar '/' (lstripChar '/' (replaceChar '\\' '/' value))
  let parts := if clean = [] then [] else clean.splitOn '/'
  if parts = [] ∨ parts.any unsafePart then .error (.unsafePath value)
  else if (utf8 clean).length > MAX_TEXT_BYTES then .error .tooLong
  else .ok clean

theorem safeRelativeName_parts {value clean : Text} (h : safeRelativeName value = .ok clean) :
    clean ≠ [] ∧ '\\' ∉ clean ∧ ∀ part ∈ clean.splitOn '/', unsafePart part = false := by
  unfold safeRelativeName at h
  dsimp only at h
  by_cases hnil : rstripChar '/' (lstripChar '/' (replaceChar '\\' '/' value)) = []
  · rw [if_pos hnil, if_pos (.inl rfl)] at h
    cases h
  rw [if_neg hnil] at h
  split_ifs at h with hbad hlong
  cases h
  refine ⟨hnil, fun hm => ?_, fun part hp => ?_⟩
  · have hl := (List.rdropWhile_prefix _ _).subset hm
    exact not_mem_replaceChar_self (by decide) value ((List.dropWhile_suffix _).subset hl)
  · rw [not_or, Bool.not_eq_true, List.any_eq_false] at hbad
    simpa using hbad.2 part hp

end OpenAdb.P2p.Entry
