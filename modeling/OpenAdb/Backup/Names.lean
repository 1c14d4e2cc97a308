import OpenAdb.Lib.PyText

namespace OpenAdb.Backup.Names

open OpenAdb.Lib.PyText

/-- `PurePosixPath(path).name` -/
def pathName (path : Text) : Text :=
  ((path.splitOn '/').filter (fun part => part ≠ [] ∧ part ≠ ['.'])).getLast?.getD []

/-- `PurePosixPath(name).suffix` of a path with this last part. -/
def suffix (name : Text) : Text :=
  let extension := name.rtakeWhile (· ≠ '.')
  let stem := name.take (name.length - extension.length - 1)
  if '.' ∈ name ∧ stem ≠ [] ∧ extension ≠ [] then '.' :: extension else []

def isUnsafe (c : Char) : Prop :=
  c ∈ ['<', '>', ':', '"', '/', '\\', '|', '?', '*'] ∨ c.toNat < 32

instance (c : Char) : Decidable (isUnsafe c) :=
  inferInstanceAs (Decidable (c ∈ ['<', '>', ':', '"', '/', '\\', '|', '?', '*'] ∨ c.toNat < 32))

def safeFilename (u : UnicodeData) (value : Text) : Text :=
  (if strip u value = [] then ['u', 'n', 'k', 'n', 'o', 'w', 'n'] else strip u value).map
    (fun c => if isUnsafe c then '_' else c)

/-- `f"{index}_{name}"` -/
def indexed (index : Nat) (name : Text) : Text := Nat.toDigits 10 index ++ '_' :: name

/-- `Path(apk_path).name or f"part_{index}.apk"` -/
def apkName (index : Nat) (apk_path : Text) : Text :=
  if pathName apk_path = [] then
    ['p', 'a', 'r', 't', '_'] ++ Nat.toDigits 10 index ++ ['.', 'a', 'p', 'k']
  else pathName apk_path

/-- The name that each path asks for. The code counts the paths from 1. -/
def names (u : UnicodeData) (apk_paths : List Text) (i : Nat) : Text :=
  safeFilename u (apkName (i + 1) (apk_paths.getD i []))

def isDots (name : Text) : Prop := name = ['.'] ∨ name = ['.', '.']

instance (name : Text) : Decidable (isDots name) :=
  inferInstanceAs (Decidable (name = ['.'] ∨ name = ['.', '.']))

variable {s : Nat → Text} {u : UnicodeData}

/-- A name is used when one of the first paths asks for it, or when it is what
an earlier path gets in place of a used name. -/
def Used (s : Nat → Text) : Nat → Text → Prop
  | 0, x => isDots x
  | m + 1, x => Used s m x ∨ x = s m ∨ Used s m (s m) ∧ x = indexed (m + 1) (s m)

instance Used.decidable (s : Nat → Text) : ∀ m x, Decidable (Used s m x)
  | 0, x => inferInstanceAs (Decidable (isDots x))
  | m + 1, x => by
    have := Used.decidable s m x
    have := Used.decidable s m (s m)
    exact inferInstanceAs
      (Decidable (Used s m x ∨ x = s m ∨ Used s m (s m) ∧ x = indexed (m + 1) (s m)))

def target (s : Nat → Text) (i : Nat) : Text := if Used s i (s i) then indexed (i + 1) (s i) else s i

/-- The name is used, and so is the one that replaces it. -/
def Clash (s : Nat → Text) (i : Nat) : Prop := Used s i (s i) ∧ Used s i (indexed (i + 1) (s i))

instance (s : Nat → Text) (i : Nat) : Decidable (Clash s i) :=
  inferInstanceAs (Decidable (Used s i (s i) ∧ Used s i (indexed (i + 1) (s i))))

theorem indexed_head (index : Nat) (name : Text) :
    ∃ c rest, indexed index name = c :: rest ∧ 48 ≤ c.toNat ∧ c.toNat ≤ 57 := by
  cases hd : Nat.toDigits 10 index with
  | nil => exact absurd hd (Nat.toDigits_ne_nil)
  | cons c rest =>
    refine ⟨c, rest ++ '_' :: name, by rw [indexed, hd]; rfl, ?_⟩
    have hc : c.isDigit = true :=
      Nat.isDigit_of_mem_toDigits (by decide) (by decide) (hd ▸ List.mem_cons_self)
    simpa [Char.isDigit, UInt32.le_iff_toNat_le] using hc

/-- A text that does not begin with a digit is no replacement. -/
theorem indexed_ne {index : Nat} {name : Text} {c : Char} {rest : Text} (h : c.toNat < 48 ∨ 57 < c.toNat) :
    indexed index name ≠ c :: rest := by
  obtain ⟨d, tail, hd, hlow, hhigh⟩ := indexed_head index name
  rw [hd]
  intro he
  injection he with hdc
  subst hdc
  omega

theorem not_isDots_indexed (index : Nat) (name : Text) : ¬ isDots (indexed index name) := by
  intro h
  obtain h | h := h
  · exact indexed_ne (by decide) h
  · exact indexed_ne (by decide) h

theorem used_iff (m : Nat) (x : Text) :
    Used s m x ↔ isDots x ∨ ∃ j < m, target s j = x := by
  induction m generalizing x with
  | zero => simp [Used]
  | succ m ih =>
    have hstep : Used s (m + 1) x ↔ Used s m x ∨ target s m = x := by
      rw [Used, target]
      by_cases h : Used s m (s m)
      · rw [if_pos h]
        constructor
        · rintro (hx | rfl | ⟨-, rfl⟩)
          · exact .inl hx
          · exact .inl h
          · exact .inr rfl
        · rintro (hx | rfl)
          · exact .inl hx
          · exact .inr (.inr ⟨h, rfl⟩)
      · rw [if_neg h, eq_comm (a := x)]
        simp only [h, false_and, or_false]
    rw [hstep, ih, or_assoc, Nat.exists_lt_succ_right]

/-- The file of an earlier path is hit exactly when the names clash. -/
theorem clash_iff (i : Nat) : Clash s i ↔ ∃ j < i, target s j = target s i := by
  have hdots := not_isDots_indexed (i + 1) (s i)
  rw [Clash]
  by_cases h : Used s i (s i)
  · have ht : target s i = indexed (i + 1) (s i) := if_pos h
    rw [ht, used_iff i (indexed (i + 1) (s i))]
    simp only [h, hdots, true_and, false_or]
  · have ht : target s i = s i := if_neg h
    rw [used_iff, not_or] at h
    rw [ht]
    exact ⟨fun hc => absurd ((used_iff i (s i)).mp hc.1) (not_or.mpr h), fun hc => absurd hc h.2⟩

theorem target_injOn {n : Nat} (h : ∀ i < n, ¬ Clash s i) {i j : Nat} (hi : i < n) (hj : j < n)
    (he : target s i = target s j) : i = j := by
  obtain hlt | heq | hlt := Nat.lt_trichotomy i j
  · exact absurd ((clash_iff j).mpr ⟨i, hlt, he⟩) (h j hj)
  · exact heq
  · exact absurd ((clash_iff i).mpr ⟨j, hlt, he.symm⟩) (h i hi)

/-- Only a path that asks for a name without a number can get it. -/
theorem exists_target_iff {x : Text} (hx : ¬ isDots x) (hplain : ∀ i name, indexed i name ≠ x)
    (n : Nat) : (∃ j < n, target s j = x) ↔ ∃ j < n, s j = x := by
  have hused : ∀ m, Used s m x ↔ ∃ j < m, s j = x := by
    intro m
    induction m with
    | zero => simp [Used, hx]
    | succ m ih =>
      rw [Used, ih, Nat.exists_lt_succ_right]
      constructor
      · rintro (h | rfl | ⟨-, rfl⟩)
        · exact .inl h
        · exact .inr rfl
        · exact absurd rfl (hplain _ _)
      · rintro (h | rfl)
        · exact .inl h
        · exact .inr (.inl rfl)
  rw [← hused, used_iff]
  simp only [hx, false_or]

/-- Nothing to strip at either end. -/
def Trimmed (u : UnicodeData) (x : Text) : Prop :=
  x ≠ [] ∧ (∀ c ∈ x.head?, u.isSpace c = false) ∧ ∀ c ∈ x.getLast?, u.isSpace c = false

theorem Trimmed.strip_eq {x : Text} (h : Trimmed u x) : strip u x = x := by
  obtain ⟨hne, hhead, hlast⟩ := h
  have hd : x.dropWhile u.isSpace = x := by
    cases x with
    | nil => rfl
    | cons c x => rw [List.dropWhile_cons_of_neg (by simp [hhead c rfl])]
  rw [strip, hd, List.rdropWhile_eq_self_iff]
  intro hx
  rw [hlast _ (List.getLast?_eq_some_getLast hx)]
  decide

theorem trimmed_strip {x : Text} (h : strip u x ≠ []) : Trimmed u (strip u x) := by
  refine ⟨h, fun c hc => ?_, fun c hc => ?_⟩
  · obtain ⟨rest, hrest⟩ := List.rdropWhile_prefix u.isSpace (l := x.dropWhile u.isSpace)
    have hd : (x.dropWhile u.isSpace).head? = some c := by
      rw [← hrest, List.head?_append]
      exact (congrArg (Option.or · rest.head?) hc).trans rfl
    have hnot := List.head?_dropWhile_not u.isSpace x
    rw [hd] at hnot
    exact hnot
  · have hnot := List.rdropWhile_last_not u.isSpace (x.dropWhile u.isSpace) h
    rw [← Option.some_inj.mp ((List.getLast?_eq_some_getLast h).symm.trans hc)]
    exact Bool.eq_false_iff.mpr hnot

theorem Trimmed.map {x : Text} (h : Trimmed u x) {f : Char → Char}
    (hf : ∀ c, u.isSpace c = false → u.isSpace (f c) = false) : Trimmed u (x.map f) := by
  obtain ⟨hne, hhead, hlast⟩ := h
  refine ⟨fun he => hne (List.map_eq_nil_iff.mp he), fun c hc => ?_, fun c hc => ?_⟩
  · rw [List.head?_map, Option.mem_def, Option.map_eq_some_iff] at hc
    obtain ⟨d, hd, rfl⟩ := hc
    exact hf d (hhead d hd)
  · rw [List.getLast?_map, Option.mem_def, Option.map_eq_some_iff] at hc
    obtain ⟨d, hd, rfl⟩ := hc
    exact hf d (hlast d hd)

theorem trimmed_safeFilename (value : Text) : Trimmed u (safeFilename u value) := by
  refine Trimmed.map ?_ (fun c hc => ?_)
  · by_cases h : strip u value = []
    · rw [if_pos h]
      refine ⟨by simp, fun c hc => ?_, fun c hc => ?_⟩
      · cases hc
        exact u.isSpace_lower _ (by decide)
      · cases hc
        exact u.isSpace_lower _ (by decide)
    · rw [if_neg h]
      exact trimmed_strip h
  · by_cases hu : isUnsafe c
    · rw [if_pos hu]
      exact u.isSpace_digit _ (.inl rfl)
    · rwa [if_neg hu]

theorem trimmed_indexed (index : Nat) {name : Text} (h : Trimmed u name) :
    Trimmed u (indexed index name) := by
  obtain ⟨c, rest, hc, hdigit⟩ := indexed_head index name
  refine ⟨by simp [hc], fun d hd => ?_, fun d hd => ?_⟩
  · rw [hc] at hd
    cases hd
    exact u.isSpace_digit _ (.inr hdigit)
  · rw [indexed, List.getLast?_append_of_ne_nil _ (by simp), List.getLast?_cons] at hd
    cases hl : name.getLast? with
    | none => exact absurd (List.getLast?_eq_none_iff.mp hl) h.1
    | some e =>
      rw [hl] at hd
      cases hd
      exact h.2.2 _ hl

theorem slash_not_mem_safeFilename (value : Text) : '/' ∉ safeFilename u value := by
  rw [safeFilename, List.mem_map]
  rintro ⟨c, -, hc⟩
  by_cases hu : isUnsafe c
  · rw [if_pos hu] at hc
    exact absurd hc (by decide)
  · rw [if_neg hu] at hc
    subst hc
    exact hu (by decide)

theorem slash_not_mem_indexed (index : Nat) {name : Text} (h : '/' ∉ name) :
    '/' ∉ indexed index name := by
  rw [indexed, List.mem_append, List.mem_cons]
  rintro (hd | hd | hd)
  · exact absurd (Nat.isDigit_of_mem_toDigits (by decide) (by decide) hd) (by decide)
  · exact absurd hd (by decide)
  · exact h hd

/-- What the loop uses as a file name is one path component, and stripping does not change it. -/
structure PlainName (u : UnicodeData) (x : Text) : Prop where
  trimmed : Trimmed u x
  no_slash : '/' ∉ x
  no_dots : ¬ isDots x

theorem plain_target (apk_paths : List Text) (i : Nat) :
    PlainName u (target (names u apk_paths) i) := by
  rw [target]
  by_cases h : Used (names u apk_paths) i (names u apk_paths i)
  · rw [if_pos h]
    exact ⟨trimmed_indexed _ (trimmed_safeFilename _),
      slash_not_mem_indexed _ (slash_not_mem_safeFilename _), not_isDots_indexed _ _⟩
  · rw [if_neg h]
    rw [used_iff, not_or] at h
    exact ⟨trimmed_safeFilename _, slash_not_mem_safeFilename _, h.1⟩

end OpenAdb.Backup.Names
