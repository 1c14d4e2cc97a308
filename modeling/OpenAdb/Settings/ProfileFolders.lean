import Mathlib.Data.List.Forall2
import OpenAdb.Settings.Profile

namespace OpenAdb.Settings.Profile

open OpenAdb.Lib.PyText OpenAdb.Settings.Values
open OpenAdb.Backup.Names (safeFilename isUnsafe isDots Trimmed)

/-- How the system takes the name of an entry: the letters that it does not tell apart and the
characters that it drops at the end. -/
structure Platform where
  fold : Char → Char
  drops : Char → Bool
  fold_underscore : ∀ c, fold c = '_' ↔ c = '_'
  drops_plain : ∀ c, drops c = true → ¬ isUnsafe c ∧ c ≠ '_'

namespace Platform

theorem posix_drops (c : Char) : (false : Bool) = true → ¬ isUnsafe c ∧ c ≠ '_' := by
  intro h
  cases h

def posix : Platform where
  fold c := c
  drops _ := false
  fold_underscore _ := Iff.rfl
  drops_plain := posix_drops

def lowerLetter (c : Char) : Char := if 65 ≤ c.toNat ∧ c.toNat ≤ 90 then Char.ofNat (c.toNat + 32) else c

def blankOrDot (c : Char) : Bool := c = ' ' || c = '.'

theorem lowerLetter_underscore (c : Char) : lowerLetter c = '_' ↔ c = '_' := by
  rw [lowerLetter]
  by_cases h : 65 ≤ c.toNat ∧ c.toNat ≤ 90
  · rw [if_pos h]
    have hletters : ∀ n < 91, 65 ≤ n → Char.ofNat (n + 32) ≠ '_' := by decide
    constructor
    · intro heq
      exact absurd heq (hletters c.toNat (by omega) h.1)
    · rintro rfl
      exact absurd h (by decide)
  · rw [if_neg h]

theorem blankOrDot_plain (c : Char) (h : blankOrDot c = true) : ¬ isUnsafe c ∧ c ≠ '_' := by
  rw [blankOrDot, Bool.or_eq_true, decide_eq_true_eq, decide_eq_true_eq] at h
  obtain rfl | rfl := h
  · decide
  · decide

/-- The ASCII letters of a system that keeps no case and ends no name with a blank or a dot. -/
def windows : Platform where
  fold := lowerLetter
  drops := blankOrDot
  fold_underscore := lowerLetter_underscore
  drops_plain := blankOrDot_plain

variable (P : Platform)

/-- The folder that a name leads to from a folder. -/
def enter (folder : List Text) (name : Text) : List Text :=
  if name = ['.'] then folder
  else if name = ['.', '.'] then folder.dropLast
  else if name.rdropWhile P.drops = [] then folder
  else folder ++ [(name.rdropWhile P.drops).map P.fold]

example : windows.enter [['t', 'v', 's']] ['.', '.', '.'] = [['t', 'v', 's']] := by decide

/-- The folder of a path below the base folder. -/
def folder (base : List Text) (dir : Dir) : List Text := dir.foldl P.enter base

def IsChild (parent folder : List Text) : Prop := ∃ name, folder = parent ++ [name]

def Replaced (c : Char) : Prop := isUnsafe c ∨ c = '_'

def SameLetter (c d : Char) : Prop :=
  Replaced c ∧ Replaced d ∨ ¬ Replaced c ∧ ¬ Replaced d ∧ P.fold c = P.fold d

/-- The names differ at most in letters that are not told apart and in replaced characters. -/
def Alike (s t : Text) : Prop := List.Forall₂ P.SameLetter (s.rdropWhile P.drops) (t.rdropWhile P.drops)

/-- The name of an entry of a folder. -/
def Named (s : Text) : Prop := ¬ isDots s ∧ s.rdropWhile P.drops ≠ []

end Platform

/-- A serial as `activate_device_profile` passes it on. -/
structure Serial (u : UnicodeData) where
  text : Text
  trimmed : Trimmed u text

def cleanChar (c : Char) : Char := if isUnsafe c then '_' else c

section Names

variable {u : UnicodeData} {P : Platform}

theorem safeFilename_serial (s : Serial u) : safeFilename u s.text = s.text.map cleanChar := by
  rw [safeFilename, s.trimmed.strip_eq, if_neg s.trimmed.1]
  rfl

theorem cleanChar_eq_underscore (c : Char) : cleanChar c = '_' ↔ Platform.Replaced c := by
  rw [cleanChar, Platform.Replaced]
  by_cases h : isUnsafe c
  · simp [h]
  · simp [h]

theorem cleanChar_plain {c : Char} (h : ¬ Platform.Replaced c) : cleanChar c = c :=
  if_neg (fun hu => h (.inl hu))

theorem fold_cleanChar (c d : Char) : P.fold (cleanChar c) = P.fold (cleanChar d) ↔ P.SameLetter c d := by
  have hfold : P.fold '_' = '_' := (P.fold_underscore '_').mpr rfl
  rw [Platform.SameLetter]
  by_cases hc : Platform.Replaced c <;> by_cases hd : Platform.Replaced d
  · simp [hc, hd, (cleanChar_eq_underscore c).mpr hc, (cleanChar_eq_underscore d).mpr hd]
  · rw [(cleanChar_eq_underscore c).mpr hc, hfold, eq_comm, P.fold_underscore, cleanChar_eq_underscore]
    simp [hc, hd]
  · rw [(cleanChar_eq_underscore d).mpr hd, hfold, P.fold_underscore, cleanChar_eq_underscore]
    simp [hc, hd]
  · simp [hc, hd, cleanChar_plain]

theorem drops_cleanChar (c : Char) : P.drops (cleanChar c) = P.drops c := by
  by_cases hc : Platform.Replaced c
  · have hplain : ∀ d, Platform.Replaced d → P.drops d = false := by
      intro d hd
      rw [Bool.eq_false_iff]
      intro hdrops
      exact hd.elim (P.drops_plain d hdrops).1 (P.drops_plain d hdrops).2
    rw [(cleanChar_eq_underscore c).mpr hc, hplain c hc, hplain '_' (.inr rfl)]
  · rw [cleanChar_plain hc]

theorem rdropWhile_map_cleanChar (s : Text) :
    (s.map cleanChar).rdropWhile P.drops = (s.rdropWhile P.drops).map cleanChar := by
  have hdrops : P.drops ∘ cleanChar = P.drops := funext drops_cleanChar
  rw [List.rdropWhile, ← List.map_reverse, List.dropWhile_map, hdrops, ← List.map_reverse, List.rdropWhile]

theorem cleanChar_eq_dot (c : Char) : cleanChar c = '.' ↔ c = '.' := by
  rw [cleanChar]
  by_cases h : isUnsafe c
  · rw [if_pos h]
    constructor
    · intro heq
      exact absurd heq (by decide)
    · rintro rfl
      exact absurd h (by decide)
  · rw [if_neg h]

theorem isDots_map_cleanChar (s : Text) : isDots (s.map cleanChar) ↔ isDots s := by
  have hmap : ∀ dots : Text, (∀ c ∈ dots, c = '.') → ∀ s : Text, s.map cleanChar = dots ↔ s = dots := by
    intro dots
    induction dots with
    | nil => simp
    | cons d dots ih =>
      intro hdots s
      obtain ⟨hdot, hrest⟩ := List.forall_mem_cons.mp hdots
      subst hdot
      cases s with
      | nil => simp
      | cons c s => rw [List.map_cons, List.cons.injEq, List.cons.injEq, cleanChar_eq_dot, ih hrest]
  rw [isDots, isDots, hmap ['.'] (by simp), hmap ['.', '.'] (by simp)]

theorem enter_safeFilename {folder : List Text} (s : Serial u) (h : P.Named s.text) :
    P.enter folder (safeFilename u s.text) =
      folder ++ [(s.text.rdropWhile P.drops).map (fun c => P.fold (cleanChar c))] := by
  have hdots : ¬ isDots (s.text.map cleanChar) := fun hd => h.1 ((isDots_map_cleanChar s.text).mp hd)
  rw [isDots, not_or] at hdots
  rw [safeFilename_serial, Platform.enter, if_neg hdots.1, if_neg hdots.2, rdropWhile_map_cleanChar,
    if_neg (mt List.map_eq_nil_iff.mp h.2), List.map_map]
  rfl

theorem not_isChild_enter {folder : List Text} (s : Serial u) (h : ¬ P.Named s.text) :
    ¬ Platform.IsChild folder (P.enter folder (safeFilename u s.text)) := by
  have hshort : (P.enter folder (safeFilename u s.text)).length ≤ folder.length := by
    rw [safeFilename_serial, Platform.enter]
    split_ifs with h1 h2 h3
    · exact le_rfl
    · rw [List.length_dropLast]
      exact Nat.sub_le _ _
    · exact le_rfl
    · refine absurd ⟨?_, ?_⟩ h
      · rw [← isDots_map_cleanChar]
        exact not_or.mpr ⟨h1, h2⟩
      · rw [rdropWhile_map_cleanChar] at h3
        exact mt List.map_eq_nil_iff.mpr h3
  rintro ⟨name, heq⟩
  rw [heq, List.length_append, List.length_singleton] at hshort
  omega

theorem map_fold_eq_iff (a b : Text) :
    a.map (fun c => P.fold (cleanChar c)) = b.map (fun c => P.fold (cleanChar c)) ↔ List.Forall₂ P.SameLetter a b := by
  rw [← List.forall₂_eq_eq_eq, List.forall₂_map_left_iff, List.forall₂_map_right_iff]
  simp only [fold_cleanChar]

end Names

variable {F β ρ : Type}

/-- The folders of two devices are apart, and each is right below the folder of the kind, if and
only if the serials can be told apart as names of entries. -/
theorem device_folders_apart_iff (h : Host F β ρ) (P : Platform) (base : List Text) (kind : Kind)
    (s t : Serial h.unicode) :
    P.folder base (deviceProfileDir h s.text kind) ≠ P.folder base (deviceProfileDir h t.text kind) ∧
        Platform.IsChild (P.folder base [rootName kind]) (P.folder base (deviceProfileDir h s.text kind)) ∧
        Platform.IsChild (P.folder base [rootName kind]) (P.folder base (deviceProfileDir h t.text kind)) ↔
      ¬ P.Alike s.text t.text ∧ P.Named s.text ∧ P.Named t.text := by
  have hfolder : ∀ x : Serial h.unicode, P.folder base (deviceProfileDir h x.text kind) =
      P.enter (P.folder base [rootName kind]) (safeFilename h.unicode x.text) := fun _ => rfl
  rw [hfolder s, hfolder t]
  by_cases hs : P.Named s.text
  · by_cases ht : P.Named t.text
    · have happart : ∀ a b folder : List Text, folder ++ a ≠ folder ++ b ↔ a ≠ b := by
        simp
      rw [enter_safeFilename s hs, enter_safeFilename t ht, happart, Ne, List.singleton_inj, map_fold_eq_iff]
      simp only [hs, ht, and_true, Platform.Alike]
      exact and_iff_left ⟨⟨_, rfl⟩, ⟨_, rfl⟩⟩
    · simp only [ht, not_isChild_enter t ht, and_false]
  · simp only [hs, not_isChild_enter s hs, and_false, false_and]

def networkSerial : Text := "192.168.1.5:5555".toList

def usbSerial : Text := "192.168.1.5_5555".toList

theorem trimmed_of_ends {serial : Text} (hhead : serial.head? = some '1') (hlast : serial.getLast? = some '5') :
    Trimmed .ascii serial := by
  refine ⟨?_, ?_, ?_⟩
  · rintro rfl
    cases hhead
  · rw [hhead]
    rintro c ⟨⟩
    rfl
  · rw [hlast]
    rintro c ⟨⟩
    rfl

theorem trimmed_networkSerial : Trimmed .ascii networkSerial := trimmed_of_ends (by decide) (by decide)

theorem trimmed_usbSerial : Trimmed .ascii usbSerial := trimmed_of_ends (by decide) (by decide)

def bareHost : Host Unit Data Unit where
  unicode := .ascii
  lower := id
  otherDefaults _ := none
  otherLocalUi _ := false
  encode := id
  decode := some
  decode_encode _ := rfl
  blank _ := none
  nt := false
  empty := ()
  resolve _ := ()
  leftover := some
  pathText _ := []
  isLegacyFolder _ := false
  relocate _ _ text := some text

/-- A device connected over the network and one whose serial has an underscore for the colon. -/
theorem colon_serial_shares_folder :
    ¬ ∀ (h : Host Unit Data Unit) (P : Platform) (base : List Text) (kind : Kind) (s t : Serial h.unicode),
      s.text ≠ t.text →
        P.folder base (deviceProfileDir h s.text kind) ≠ P.folder base (deviceProfileDir h t.text kind) := by
  intro hapart
  have hne := hapart bareHost .posix [] .phone ⟨networkSerial, trimmed_networkSerial⟩ ⟨usbSerial, trimmed_usbSerial⟩
    (by decide)
  exact hne (by decide)

end OpenAdb.Settings.Profile
