import Mathlib.Data.List.DropRight

namespace OpenAdb.Lib.PyText

abbrev Text := List Char

instance lawfulBEqText : LawfulBEq (List Char) := inferInstance

def lowerAscii (c : Char) : Prop := 97 ≤ c.toNat ∧ c.toNat ≤ 122

instance (c : Char) : Decidable (lowerAscii c) :=
  inferInstanceAs (Decidable (97 ≤ c.toNat ∧ c.toNat ≤ 122))

def digitOrUnderscore (c : Char) : Prop := c = '_' ∨ 48 ≤ c.toNat ∧ c.toNat ≤ 57

/-- The character tables behind the text methods. Of the tables only some rows
of the lower-case ASCII letters, the digits and the underscore are fixed. -/
structure UnicodeData where
  isSpace : Char → Bool
  decimal : Char → Option Nat
  casefold : Char → List Char
  isSpace_lower : ∀ c, lowerAscii c → isSpace c = false
  isSpace_digit : ∀ c, digitOrUnderscore c → isSpace c = false
  decimal_lower : ∀ c, lowerAscii c → decimal c = none
  casefold_lower : ∀ c, lowerAscii c → casefold c = [c]

/-- The tables restricted to ASCII. -/
def UnicodeData.ascii : UnicodeData where
  isSpace c := c.toNat = 32 ∨ (9 ≤ c.toNat ∧ c.toNat ≤ 13) ∨ (28 ≤ c.toNat ∧ c.toNat ≤ 31)
  decimal c := if 48 ≤ c.toNat ∧ c.toNat ≤ 57 then some (c.toNat - 48) else none
  casefold c := if 65 ≤ c.toNat ∧ c.toNat ≤ 90 then [Char.ofNat (c.toNat + 32)] else [c]
  isSpace_lower c h := by
    have h1 := h.1
    simp
    omega
  isSpace_digit c h := by
    have h1 : 48 ≤ c.toNat := h.elim (fun hc => hc ▸ by decide) And.left
    simp
    omega
  decimal_lower c h := if_neg (fun hc => by have := h.1; omega)
  casefold_lower c h := if_neg (fun hc => by have := h.1; omega)

def strip (u : UnicodeData) (s : Text) : Text := (s.dropWhile u.isSpace).rdropWhile u.isSpace

def casefold (u : UnicodeData) (s : Text) : Text := s.flatMap u.casefold

def isdecimal (u : UnicodeData) (s : Text) : Bool := !s.isEmpty && s.all (fun c => (u.decimal c).isSome)

/-- The number that a text of decimal digits denotes. -/
def intOfDigits (u : UnicodeData) (s : Text) : Nat :=
  s.foldl (fun n c => 10 * n + (u.decimal c).getD 0) 0

def rstripChar (c : Char) (s : Text) : Text := s.rdropWhile (· == c)

def lstripChar (c : Char) (s : Text) : Text := s.dropWhile (· == c)

def unlines (lines : List Text) : Text := lines.flatMap (· ++ ['\n'])

/-- `replace` skips the characters of an occurrence that it has replaced. -/
def replaceFrom (old new : Text) : Nat → Text → Text
  | _, [] => []
  | skip + 1, _ :: rest => replaceFrom old new skip rest
  | 0, c :: rest =>
    if old.isPrefixOf (c :: rest) then new ++ replaceFrom old new (old.length - 1) rest
    else c :: replaceFrom old new 0 rest

/-- `str.replace`, for an old text that is not empty. -/
def replaceText (old new s : Text) : Text := replaceFrom old new 0 s

/-- The universal newlines of a text stream. -/
def translateNewlines : Text → Text
  | [] => []
  | '\r' :: '\n' :: rest => '\n' :: translateNewlines rest
  | '\r' :: rest => '\n' :: translateNewlines rest
  | c :: rest => c :: translateNewlines rest

def replaceChar (a b : Char) (s : Text) : Text := s.map (fun c => if c = a then b else c)

/-- A dynamically typed argument: `index` is what `operator.index` accepts, and
any other object has only its truth value and its text. -/
inductive PyObject
  | none
  | bool (b : Bool)
  | index (n : Int)
  | str (s : Text)
  | other (truthy : Bool) (text : Text)

def PyObject.orEmptyText : PyObject → Text
  | .none | .bool false | .index 0 => []
  | .bool true => "True".toList
  | .index n => (toString n).toList
  | .str s => s
  | .other truthy text => if truthy then text else []

def PyObject.truthy : PyObject → Bool
  | .none | .bool false | .index 0 | .str [] => false
  | .other truthy _ => truthy
  | _ => true

/-- `str` of an object. -/
def PyObject.text : PyObject → Text
  | .none => "None".toList
  | .bool true => "True".toList
  | .bool false => "False".toList
  | .index n => (toString n).toList
  | .str s => s
  | .other _ text => text

def PyObject.orElse (v default : PyObject) : PyObject := if v.truthy then v else default

def Lower (s : Text) : Prop := ∀ c ∈ s, lowerAscii c

instance (s : Text) : Decidable (Lower s) := List.decidableBAll lowerAscii s

theorem mem_part_of_mem_intercalate {sep c : Char} {parts : List Text}
    (h : c ∈ [sep].intercalate parts) : c = sep ∨ ∃ part ∈ parts, c ∈ part := by
  induction parts with
  | nil => cases h
  | cons part parts ih =>
    cases parts with
    | nil => exact .inr ⟨part, List.mem_cons_self, by simpa using h⟩
    | cons part' parts =>
      rw [List.intercalate_cons_cons, List.append_assoc, List.mem_append, List.mem_append] at h
      obtain h | h | h := h
      · exact .inr ⟨part, List.mem_cons_self, h⟩
      · exact .inl (List.mem_singleton.mp h)
      · obtain h | ⟨p, hp, hc⟩ := ih h
        · exact .inl h
        · exact .inr ⟨p, List.mem_cons_of_mem part hp, hc⟩

theorem mem_splitOn_of_mem {sep c : Char} {s : Text} (h : c ∈ s) (hne : c ≠ sep) :
    ∃ part ∈ s.splitOn sep, c ∈ part := by
  rw [← @List.intercalate_splitOn _ s _ _ sep] at h
  exact (mem_part_of_mem_intercalate h).resolve_left hne

theorem not_mem_of_mem_splitOn {sep : Char} {s part : Text} (h : part ∈ s.splitOn sep) : sep ∉ part := by
  induction s generalizing part with
  | nil =>
    rw [List.splitOn_nil, List.mem_singleton] at h
    rw [h]
    exact List.not_mem_nil
  | cons c s ih =>
    rw [List.splitOn_cons_eq_if_modifyHead] at h
    by_cases hc : (c == sep) = true
    · rw [if_pos hc, List.mem_cons] at h
      obtain rfl | h := h
      · exact List.not_mem_nil
      · exact ih h
    · rw [if_neg hc] at h
      obtain ⟨first, parts, hsplit⟩ := List.exists_cons_of_ne_nil (List.splitOn_ne_nil sep s)
      rw [hsplit] at h ih
      rw [List.modifyHead_cons, List.mem_cons] at h
      obtain rfl | h := h
      · rw [List.mem_cons, not_or]
        exact ⟨fun heq => hc (beq_iff_eq.mpr heq.symm), ih List.mem_cons_self⟩
      · exact ih (List.mem_cons_of_mem first h)

/-- The last part of a path is the name behind the folders. -/
theorem getLast?_splitOn_slash {folder name : Text} (hfolder : ∀ c ∈ folder.getLast?, c = '/') (hname : '/' ∉ name) :
    ((folder ++ name).splitOn '/').getLast? = some name := by
  have hplain : name.splitOn '/' = [name] := by
    rw [List.splitOn_eq_splitOnP]
    apply List.splitOnP_eq_singleton
    intro c hc
    exact beq_eq_false_iff_ne.mpr (ne_of_mem_of_not_mem hc hname)
  rcases List.eq_nil_or_concat folder with rfl | ⟨init, c, rfl⟩
  · rw [List.nil_append, hplain]
    rfl
  · rw [List.concat_eq_append] at hfolder ⊢
    have hc : c = '/' := hfolder c List.getLast?_concat
    have hsplit : List.splitOnP (· == '/') (init ++ '/' :: name) =
        List.splitOnP (· == '/') init ++ List.splitOnP (· == '/') name :=
      List.splitOnP_append_cons init name rfl
    rw [hc, List.append_assoc, List.singleton_append, List.splitOn_eq_splitOnP, hsplit,
      ← @List.splitOn_eq_splitOnP _ _ _ name, hplain, List.getLast?_concat]

theorem unlines_cons (line : Text) (lines : List Text) : unlines (line :: lines) = line ++ '\n' :: unlines lines := by
  simp [unlines]

theorem unlines_append (a b : List Text) : unlines (a ++ b) = unlines a ++ unlines b := List.flatMap_append

theorem length_splitOn (x : Char) (s : Text) : (s.splitOn x).length = s.count x + 1 := by
  induction s with
  | nil => rfl
  | cons c s ih =>
    rw [List.splitOn_cons_eq_if_modifyHead, List.count_cons]
    split
    case isTrue h => rw [List.length_cons, ih]
    case isFalse h => rw [List.length_modifyHead, ih, Nat.add_zero]

theorem rdropWhile_append_of_all {p : Char → Bool} (a : Text) {b : Text} (h : ∀ c ∈ b, p c = true) :
    (a ++ b).rdropWhile p = a.rdropWhile p := by
  have hreverse : ∀ c ∈ b.reverse, p c = true := fun c hc => h c (List.mem_reverse.mp hc)
  rw [List.rdropWhile, List.reverse_append, List.dropWhile_append_of_pos hreverse, List.rdropWhile]

theorem rdropWhile_append_cons (f : Char → Bool) {c : Char} (hc : f c = false) (a b : Text) :
    (a ++ c :: b).rdropWhile f = a ++ c :: b.rdropWhile f := by
  induction b using List.reverseRecOn with
  | nil => rw [List.rdropWhile_concat_neg f a c (by simp [hc]), List.rdropWhile_nil]
  | append_singleton b x ih =>
    rw [← List.cons_append, ← List.append_assoc]
    by_cases hx : f x = true
    · rw [List.rdropWhile_concat_pos f _ x hx, List.rdropWhile_concat_pos f _ x hx, ih]
    · rw [List.rdropWhile_concat_neg f _ x hx, List.rdropWhile_concat_neg f _ x hx]
      simp

theorem rstripChar_of_not_mem {c : Char} {s : Text} (h : c ∉ s) : rstripChar c s = s := by
  rw [rstripChar, List.rdropWhile_eq_self_iff]
  intro hne
  exact fun heq => h (eq_of_beq heq ▸ List.getLast_mem hne)

theorem lstripChar_of_not_mem {c : Char} {s : Text} (h : c ∉ s) : lstripChar c s = s := by
  cases s with
  | nil => rfl
  | cons d s =>
    rw [lstripChar, List.dropWhile_cons_of_neg]
    exact fun heq => h (eq_of_beq heq ▸ List.mem_cons_self)

theorem strip_rdropWhile (u : UnicodeData) (s : Text) : strip u (s.rdropWhile u.isSpace) = strip u s := by
  have hsplit : s.rdropWhile u.isSpace ++ s.rtakeWhile u.isSpace = s := List.rdropWhile_append_rtakeWhile
  have htail : ∀ c ∈ s.rtakeWhile u.isSpace, u.isSpace c = true := fun _ hc => List.mem_rtakeWhile_imp hc
  conv_rhs => rw [← hsplit]
  rw [strip, strip, List.dropWhile_append]
  by_cases h : ((s.rdropWhile u.isSpace).dropWhile u.isSpace).isEmpty
  · have hnil : (s.rtakeWhile u.isSpace).dropWhile u.isSpace = [] := List.dropWhile_eq_nil_iff.mpr htail
    rw [if_pos h, hnil, List.isEmpty_iff.mp h]
  · rw [if_neg h, rdropWhile_append_of_all _ htail]

theorem strip_lower (u : UnicodeData) {s : Text} (h : Lower s) : strip u s = s := by
  have hf : ∀ c ∈ s, u.isSpace c = false := fun c hc => u.isSpace_lower c (h c hc)
  unfold strip
  have hd : s.dropWhile u.isSpace = s := by
    cases s with
    | nil => rfl
    | cons c s => rw [List.dropWhile_cons_of_neg (by simp [hf c List.mem_cons_self])]
  rw [hd, List.rdropWhile_eq_self_iff]
  intro hne
  rw [hf _ (List.getLast_mem hne)]
  simp

theorem strip_ne_nil {u : UnicodeData} {c : Char} {rest : Text} (hc : u.isSpace c = false) :
    strip u (c :: rest) ≠ [] := by
  rw [strip, List.dropWhile_cons_of_neg (by rw [hc]; exact Bool.false_ne_true)]
  intro hnil
  have hall := List.rdropWhile_eq_nil_iff.mp hnil c List.mem_cons_self
  rw [hc] at hall
  cases hall

theorem strip_ne_nil_of_mem {u : UnicodeData} {c : Char} {s : Text} (hmem : c ∈ s) (hc : u.isSpace c = false) :
    strip u s ≠ [] := by
  intro hnil
  rw [← List.takeWhile_append_dropWhile (p := u.isSpace) (l := s)] at hmem
  have hspace : u.isSpace c = true := by
    obtain htake | hdrop := List.mem_append.mp hmem
    · exact List.mem_takeWhile_imp htake
    · exact List.rdropWhile_eq_nil_iff.mp hnil c hdrop
  rw [hc] at hspace
  cases hspace

theorem strip_sublist (u : UnicodeData) (s : Text) : (strip u s).Sublist s :=
  (List.rdropWhile_prefix u.isSpace _).sublist.trans (List.dropWhile_sublist u.isSpace)

theorem strip_strip (u : UnicodeData) (s : Text) : strip u (strip u s) = strip u s := by
  have hhead : (strip u s).dropWhile u.isSpace = strip u s := by
    obtain ⟨tail, htail⟩ := List.rdropWhile_prefix u.isSpace (s.dropWhile u.isSpace)
    cases h : strip u s with
    | nil => rfl
    | cons c t =>
      have hdrop : s.dropWhile u.isSpace = c :: (t ++ tail) := by
        rw [← htail, ← List.cons_append, ← h]
        rfl
      have hc := List.head?_dropWhile_not u.isSpace s
      rw [hdrop] at hc
      rw [List.dropWhile_cons_of_neg (by simpa using hc)]
  rw [strip, hhead, strip, List.rdropWhile_idempotent]

theorem replaceChar_eq_self {a b : Char} {s : Text} (h : a ∉ s) : replaceChar a b s = s := by
  rw [replaceChar]
  conv_rhs => rw [← List.map_id s]
  apply List.map_congr_left
  intro c hc
  exact if_neg (ne_of_mem_of_not_mem hc h)

theorem not_mem_replaceChar_self {a b : Char} (hab : a ≠ b) (s : Text) : a ∉ replaceChar a b s := by
  rw [replaceChar, List.mem_map]
  intro h
  obtain ⟨c, -, hc⟩ := h
  split at hc
  · exact hab hc.symm
  · next hne => exact hne hc

theorem not_mem_replaceChar {a b c : Char} (hcb : c ≠ b) {s : Text} (h : c ∉ s) : c ∉ replaceChar a b s := by
  rw [replaceChar, List.mem_map]
  intro hmem
  obtain ⟨d, hd, hc⟩ := hmem
  split at hc
  · exact hcb hc.symm
  · exact h (hc ▸ hd)

theorem line_inj {line line' rest rest' : Text} (h : '\n' ∉ line) (h' : '\n' ∉ line')
    (heq : line ++ '\n' :: rest = line' ++ '\n' :: rest') : line = line' ∧ rest = rest' := by
  have hpos : ∀ {l : Text}, '\n' ∉ l → ∀ c ∈ l, decide (c ≠ '\n') = true := by
    intro l hl c hc
    rw [decide_eq_true_eq]
    rintro rfl
    exact hl hc
  have htake := congrArg (List.takeWhile (fun c => decide (c ≠ '\n'))) heq
  rw [List.takeWhile_append_of_pos (hpos h), List.takeWhile_append_of_pos (hpos h')] at htake
  have hline : line = line' := by simpa using htake
  subst hline
  exact ⟨rfl, (List.cons.inj (List.append_cancel_left heq)).2⟩

/-- A text is whole lines and a rest without a line end in one way only. -/
theorem unlines_inj {lines lines' : List Text} {rest : Text} (h : ∀ line ∈ lines, '\n' ∉ line)
    (h' : ∀ line ∈ lines', '\n' ∉ line) (hrest : '\n' ∉ rest)
    (heq : unlines lines = unlines lines' ++ rest) : lines = lines' ∧ rest = [] := by
  induction lines generalizing lines' with
  | nil =>
    cases lines' with
    | nil => exact ⟨rfl, by simpa [unlines] using heq.symm⟩
    | cons line lines' => simp [unlines] at heq
  | cons line lines ih =>
    cases lines' with
    | nil =>
      refine absurd ?_ hrest
      have hmem : '\n' ∈ unlines (line :: lines) := by simp [unlines]
      rw [heq] at hmem
      simpa [unlines] using hmem
    | cons line' lines' =>
      have hcons : line ++ '\n' :: unlines lines = line' ++ '\n' :: (unlines lines' ++ rest) := by
        simpa [unlines] using heq
      obtain ⟨hline, htail⟩ := line_inj (h line List.mem_cons_self) (h' line' List.mem_cons_self) hcons
      obtain ⟨hlines, hnil⟩ := ih (fun l hl => h l (List.mem_cons_of_mem line hl))
        (fun l hl => h' l (List.mem_cons_of_mem line' hl)) htail
      exact ⟨by rw [hline, hlines], hnil⟩

theorem exists_unlines (s : Text) : ∃ lines rest, s = unlines lines ++ rest ∧
    (∀ line ∈ lines, '\n' ∉ line) ∧ '\n' ∉ rest := by
  induction s with
  | nil => exact ⟨[], [], rfl, by simp, by simp⟩
  | cons c s ih =>
    obtain ⟨lines, rest, rfl, hlines, hrest⟩ := ih
    by_cases hc : c = '\n'
    · subst hc
      exact ⟨[] :: lines, rest, by simp [unlines], by simpa using hlines, hrest⟩
    · cases lines with
      | nil => exact ⟨[], c :: rest, by simp [unlines], by simp, by simp [Ne.symm hc, hrest]⟩
      | cons line lines =>
        refine ⟨(c :: line) :: lines, rest, by simp [unlines], ?_, hrest⟩
        simp only [List.forall_mem_cons] at hlines ⊢
        exact ⟨by simp [Ne.symm hc, hlines.1], hlines.2⟩

theorem casefold_lower (u : UnicodeData) {s : Text} (h : Lower s) : casefold u s = s := by
  unfold casefold
  induction s with
  | nil => rfl
  | cons c s ih =>
    rw [List.flatMap_cons, u.casefold_lower c (h c List.mem_cons_self),
      ih (fun d hd => h d (List.mem_cons_of_mem c hd))]
    rfl

theorem isdecimal_lower (u : UnicodeData) {s : Text} (h : Lower s) : isdecimal u s = false := by
  cases s with
  | nil => rfl
  | cons c s =>
    simp [isdecimal, u.decimal_lower c (h c List.mem_cons_self)]

end OpenAdb.Lib.PyText
