import OpenAdb.Lib.JavaText

namespace OpenAdb.P2p.Destination

open OpenAdb.Lib.PyText OpenAdb.Lib.Encoding OpenAdb.Lib.JavaText

/-- `/sdcard` -/
def sdcard : Text := ['/', 's', 'd', 'c', 'a', 'r', 'd']
/-- `/storage/self/primary` -/
def selfPrimary : Text :=
  ['/', 's', 't', 'o', 'r', 'a', 'g', 'e', '/', 's', 'e', 'l', 'f', '/', 'p', 'r', 'i', 'm', 'a',
    'r', 'y']
/-- `/storage/emulated/0` -/
def emulatedRoot : Text :=
  ['/', 's', 't', 'o', 'r', 'a', 'g', 'e', '/', 'e', 'm', 'u', 'l', 'a', 't', 'e', 'd', '/', '0']
/-- `/storage/` -/
def storagePrefix : Text := ['/', 's', 't', 'o', 'r', 'a', 'g', 'e', '/']

def isUnder (root s : Text) : Bool := s = root || (root ++ ['/']).isPrefixOf s

inductive DestinationError
  | notStoragePath
  deriving DecidableEq

/-- The destination of the desktop, before the checks. -/
def rewriteDestination (destination : Text) : Text :=
  let clean := rstripChar '/' (replaceChar '\\' '/' destination)
  if isUnder sdcard clean then emulatedRoot ++ clean.drop sdcard.length
  else if isUnder selfPrimary clean then emulatedRoot ++ clean.drop selfPrimary.length
  else clean

def normalizeDestination (destination : Text) : Except DestinationError Text :=
  let clean := rewriteDestination destination
  let parts := (clean.splitOn '/').filter (fun part => part ≠ [])
  if !storagePrefix.isPrefixOf clean
      || clean.any (fun c => c ∈ ['\x00', '\r', '\n'])
      || parts.any (fun part => part ∈ [['.'], ['.', '.']]) then .error .notStoragePath
  else .ok clean

/-- The loop of `trimTrailingSlash`, on the reversed path. -/
def dropSlashes : Text → Text
  | '/' :: c :: rest => dropSlashes (c :: rest)
  | s => s

def trimTrailingSlash (path : Text) : Text :=
  (dropSlashes (trim (replaceChar '\\' '/' path)).reverse).reverse

/-- The destination of the receiver. -/
def normalizeStoragePath (path : Text) : Text :=
  let clean := trimTrailingSlash path
  if isUnder sdcard clean then emulatedRoot ++ clean.drop sdcard.length
  else if isUnder selfPrimary clean then emulatedRoot ++ clean.drop selfPrimary.length
  else clean

theorem dropSlashes_eq_self {s : Text} (h : s.head? ≠ some '/') : dropSlashes s = s := by
  rw [dropSlashes]
  rintro c rest rfl
  exact h rfl

theorem dropSlashes_suffix (s : Text) : dropSlashes s <:+ s := by
  induction s using dropSlashes.induct with
  | case1 c rest ih => exact (by simpa only [dropSlashes] using ih.trans (List.suffix_cons _ _))
  | case2 s h =>
    have heq : dropSlashes s = s := by
      rw [dropSlashes]
      exact h
    exact (congrArg (· <:+ s) heq).mpr List.suffix_rfl

theorem isUnder_iff {root s : Text} : isUnder root s = true ↔ s = root ∨ root ++ ['/'] <+: s := by
  simp [isUnder]

theorem prefix_of_isUnder {root s : Text} (h : isUnder root s = true) : root <+: s := by
  obtain rfl | h := isUnder_iff.mp h
  · exact List.prefix_rfl
  · exact (List.prefix_append _ _).trans h

theorem getLast?_append_drop (root s : Text) (k : Nat) :
    (root ++ s.drop k).getLast? = if s.length ≤ k then root.getLast? else s.getLast? := by
  split_ifs with h
  · rw [List.drop_eq_nil_of_le h, List.append_nil]
  · have hne : s.drop k ≠ [] := by simpa using h
    rw [List.getLast?_append_of_ne_nil _ hne, List.getLast?_drop, if_neg h]

/-- What both sides can rely on in a destination that the desktop accepted. -/
structure Normalized (n : Text) : Prop where
  storage : storagePrefix <+: n
  no_nul : '\x00' ∉ n
  no_cr : '\r' ∉ n
  no_lf : '\n' ∉ n
  no_backslash : '\\' ∉ n
  last_ne_slash : n.getLast? ≠ some '/'
  not_selfPrimary : isUnder selfPrimary n = false

def strippedDestination (destination : Text) : Text :=
  rstripChar '/' (replaceChar '\\' '/' destination)

/-- Either a prefix was replaced by the emulated root, or nothing was. -/
theorem rewriteDestination_cases (destination : Text) :
    (∃ root ∈ [sdcard, selfPrimary], isUnder root (strippedDestination destination) = true ∧
        rewriteDestination destination =
          emulatedRoot ++ (strippedDestination destination).drop root.length) ∨
      (isUnder sdcard (strippedDestination destination) = false ∧
        isUnder selfPrimary (strippedDestination destination) = false ∧
        rewriteDestination destination = strippedDestination destination) := by
  by_cases hs : isUnder sdcard (strippedDestination destination) = true
  · exact .inl ⟨sdcard, by simp, hs, if_pos hs⟩
  by_cases hp : isUnder selfPrimary (strippedDestination destination) = true
  · exact .inl ⟨selfPrimary, by simp, hp, (if_neg hs).trans (if_pos hp)⟩
  · exact .inr ⟨by simpa using hs, by simpa using hp, (if_neg hs).trans (if_neg hp)⟩

theorem stripped_no_backslash (destination : Text) : '\\' ∉ strippedDestination destination :=
  fun h => not_mem_replaceChar_self (by decide) destination
    ((List.rdropWhile_prefix _ _).subset h)

theorem stripped_last (destination : Text) : (strippedDestination destination).getLast? ≠ some '/' := by
  intro h
  have hne : strippedDestination destination ≠ [] := by
    intro h0
    simp [h0] at h
  have hlast := List.rdropWhile_last_not (· == '/') (replaceChar '\\' '/' destination) hne
  rw [List.getLast?_eq_some_getLast hne, Option.some.injEq] at h
  exact hlast (by simpa [strippedDestination, rstripChar] using h)

/-- Rewriting the root does not change whether the last character is blank. -/
theorem rewriteDestination_last (destination : Text) {P : Char → Prop} (hP : ¬ P '0')
    (hsd : ¬ P 'd') (hpy : ¬ P 'y') :
    (∃ c, (rewriteDestination destination).getLast? = some c ∧ P c) ↔
      ∃ c, (strippedDestination destination).getLast? = some c ∧ P c := by
  obtain ⟨root, hroot, hunder, heq⟩ | ⟨-, -, heq⟩ := rewriteDestination_cases destination
  · rw [heq, getLast?_append_drop]
    split_ifs with hlen
    · have hall : strippedDestination destination = root :=
        ((prefix_of_isUnder hunder).eq_of_length_le hlen).symm
      rw [hall]
      refine iff_of_false ?_ ?_
      · rintro ⟨c, hc, hpc⟩
        cases hc
        exact hP hpc
      · rintro ⟨c, hc, hpc⟩
        simp only [List.mem_cons, List.not_mem_nil, or_false] at hroot
        obtain rfl | rfl := hroot
        · cases hc
          exact hsd hpc
        · cases hc
          exact hpy hpc
    · rfl
  · rw [heq]

theorem normalizeDestination_ok {destination n : Text} (h : normalizeDestination destination = .ok n) :
    n = rewriteDestination destination ∧ Normalized n := by
  unfold normalizeDestination at h
  dsimp only at h
  split_ifs at h with hbad
  cases h
  simp only [Bool.or_eq_true, not_or, Bool.not_eq_true', Bool.not_eq_false, List.any_eq_true,
    not_exists, not_and, decide_eq_true_eq] at hbad
  obtain ⟨⟨hstorage, hchars⟩, -⟩ := hbad
  refine ⟨rfl, ?_⟩
  have hemul : emulatedRoot.getLast? ≠ some '/' := by decide
  have hno : ∀ c ∈ ['\x00', '\r', '\n'], c ∉ rewriteDestination destination :=
    fun c hc hm => hchars c hm hc
  constructor
  · exact List.isPrefixOf_iff_prefix.mp hstorage
  · exact hno _ (by simp)
  · exact hno _ (by simp)
  · exact hno _ (by simp)
  · intro hm
    obtain ⟨root, -, -, heq⟩ | ⟨-, -, heq⟩ := rewriteDestination_cases destination
    · rw [heq, List.mem_append] at hm
      obtain hm | hm := hm
      · exact absurd hm (by decide)
      · exact stripped_no_backslash destination (List.mem_of_mem_drop hm)
    · exact stripped_no_backslash destination (heq ▸ hm)
  · intro hlast
    have h := (rewriteDestination_last destination (P := (· = '/')) (by decide) (by decide)
      (by decide)).mp ⟨'/', hlast, rfl⟩
    obtain ⟨c, hc, rfl⟩ := h
    exact stripped_last destination hc
  · obtain ⟨root, -, -, heq⟩ | ⟨-, hp, heq⟩ := rewriteDestination_cases destination
    · rw [Bool.eq_false_iff]
      intro hu
      rw [heq] at hu
      obtain ⟨t, ht⟩ := prefix_of_isUnder hu
      have h9 := congrArg (·[9]?) ht
      simp [selfPrimary, emulatedRoot] at h9
    · exact heq ▸ hp

theorem under_self_not_sdcard {s : Text} (h : storagePrefix <+: s) : isUnder sdcard s = false := by
  rw [Bool.eq_false_iff]
  intro hu
  obtain ⟨t, rfl⟩ := h
  obtain ⟨r, hr⟩ := prefix_of_isUnder hu
  have h2 := congrArg (·[2]?) hr
  simp [sdcard, storagePrefix] at h2

theorem Normalized.ne_nil {n : Text} (h : Normalized n) : n ≠ [] := by
  rintro rfl
  have := h.storage.length_le
  simp [storagePrefix] at this

/-- The receiver keeps a destination whose last character survives `trim`. -/
theorem normalizeStoragePath_eq_self {n : Text} (h : Normalized n)
    (hlast : ∀ c, n.getLast? = some c → blank c = false) : normalizeStoragePath n = n := by
  have hhead : ∀ c, n.head? = some c → blank c = false := by
    intro c hc
    obtain ⟨t, rfl⟩ := h.storage
    cases hc
    decide
  have htrim : trimTrailingSlash n = n := by
    rw [trimTrailingSlash, replaceChar_eq_self h.no_backslash, trim_eq_self hhead hlast,
      dropSlashes_eq_self (by rw [List.head?_reverse]; exact h.last_ne_slash), List.reverse_reverse]
  simp only [normalizeStoragePath, htrim, under_self_not_sdcard h.storage, h.not_selfPrimary,
    Bool.false_eq_true, if_false]

theorem trim_isPrefix {n : Text} (hhead : ∀ c, n.head? = some c → blank c = false) :
    trim n <+: n := by
  have hd : n.dropWhile blank = n := by
    cases n with
    | nil => rfl
    | cons c s => rw [List.dropWhile_cons_of_neg (by simp [hhead c rfl])]
  rw [trim, hd]
  exact List.rdropWhile_prefix _ _

/-- A destination with a blank end comes out shorter than it went in. -/
theorem normalizeStoragePath_ne {n c} (h : Normalized n) (hlast : n.getLast? = some c)
    (hc : blank c = true) : normalizeStoragePath n ≠ n := by
  have hhead : ∀ c, n.head? = some c → blank c = false := by
    intro c hc
    obtain ⟨t, rfl⟩ := h.storage
    cases hc
    decide
  have hpre : trimTrailingSlash n <+: n := by
    have hsuf := dropSlashes_suffix (trim n).reverse
    rw [trimTrailingSlash, replaceChar_eq_self h.no_backslash]
    rw [← List.reverse_prefix, List.reverse_reverse] at hsuf
    exact hsuf.trans (trim_isPrefix hhead)
  have hlt : (trimTrailingSlash n).length < n.length := by
    refine lt_of_le_of_ne hpre.length_le (fun he => ?_)
    have heq := hpre.eq_of_length he
    have hle : (trimTrailingSlash n).length ≤ (trim n).length := by
      rw [trimTrailingSlash, replaceChar_eq_self h.no_backslash, List.length_reverse]
      simpa using (dropSlashes_suffix (trim n).reverse).length_le
    have htrim : trim n = n := (trim_isPrefix hhead).eq_of_length_le (by omega)
    have hne : trim n ≠ [] := by rw [htrim]; exact h.ne_nil
    have hnot := List.rdropWhile_last_not blank (n.dropWhile blank) hne
    rw [List.getLast?_eq_some_getLast h.ne_nil, Option.some.injEq] at hlast
    apply hnot
    have : (trim n).getLast hne = n.getLast h.ne_nil := by simp only [htrim]
    exact (congrArg (blank · = true) (this.trans hlast)).mpr hc
  intro heq
  unfold normalizeStoragePath at heq
  dsimp only at heq
  split_ifs at heq with hsd hsp
  · have hsp := (prefix_of_isUnder hsd).trans hpre
    obtain ⟨t, rfl⟩ := h.storage
    obtain ⟨r, hr⟩ := hsp
    have h2 := congrArg (·[2]?) hr
    simp [sdcard, storagePrefix] at h2
  · have hlen := congrArg List.length heq
    have hk := (prefix_of_isUnder hsp).length_le
    simp only [List.length_append, List.length_drop] at hlen
    have h19 : emulatedRoot.length = 19 := rfl
    have h21 : selfPrimary.length = 21 := rfl
    omega
  · rw [heq] at hlt
    omega

end OpenAdb.P2p.Destination
