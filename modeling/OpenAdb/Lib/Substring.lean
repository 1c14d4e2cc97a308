import OpenAdb.Lib.PyText

namespace OpenAdb.Lib.Substring

open OpenAdb.Lib.PyText

theorem prefix_append_cons {α : Type} {w a b : List α} {m : α} (hm : m ∉ w)
    (h : w <+: a ++ m :: b) : w <+: a := by
  induction a generalizing w with
  | nil =>
    obtain hw | ⟨rest, hw, -⟩ := List.prefix_cons_iff.mp h
    · subst hw
      exact List.nil_prefix
    · rw [hw] at hm
      exact absurd List.mem_cons_self hm
  | cons x a ih =>
    obtain hw | ⟨rest, hw, hrest⟩ := List.prefix_cons_iff.mp h
    · rw [hw]
      exact List.nil_prefix
    · rw [hw] at hm ⊢
      exact (List.prefix_cons_inj x).mpr (ih (fun hin => hm (List.mem_cons_of_mem x hin)) hrest)

/-- A word without the separator lies on one side of it. -/
theorem infix_append_cons {α : Type} {w a b : List α} {m : α} (hm : m ∉ w)
    (h : w <:+: a ++ m :: b) : w <:+: a ∨ w <:+: b := by
  induction a with
  | nil =>
    obtain hpre | hin := List.infix_cons_iff.mp h
    · exact .inl (prefix_append_cons (a := []) hm hpre).isInfix
    · exact .inr hin
  | cons x a ih =>
    obtain hpre | hin := List.infix_cons_iff.mp h
    · exact .inl (prefix_append_cons (a := x :: a) hm hpre).isInfix
    · obtain ha | hb := ih hin
      · exact .inl (ha.trans (List.suffix_cons x a).isInfix)
      · exact .inr hb

/-- The first place of a separator. -/
theorem cut_inj {α : Type} {m : α} {a a' b b' : List α} (h : m ∉ a) (h' : m ∉ a') (heq : a ++ m :: b = a' ++ m :: b') :
    a = a' ∧ b = b' := by
  induction a generalizing a' with
  | nil =>
    cases a' with
    | nil => exact ⟨rfl, (List.cons.inj heq).2⟩
    | cons x a' => exact absurd (List.mem_cons.mpr (.inl (List.cons.inj heq).1)) h'
  | cons x a ih =>
    cases a' with
    | nil => exact absurd (List.mem_cons.mpr (.inl (List.cons.inj heq).1.symm)) h
    | cons y a' =>
      obtain ⟨rfl, hrest⟩ := List.cons.inj heq
      obtain ⟨rfl, hb⟩ := ih (List.not_mem_of_not_mem_cons h) (List.not_mem_of_not_mem_cons h') hrest
      exact ⟨rfl, hb⟩

/-- A word with a separator lies across the first one of a text or behind it. -/
theorem infix_across {α : Type} {m : α} {a b x y : List α} (ha : m ∉ a) (hx : m ∉ x)
    (h : a ++ m :: b <:+: x ++ m :: y) : (a <:+ x ∧ b <+: y) ∨ a ++ m :: b <:+: y := by
  obtain ⟨before, after, heq⟩ := h
  by_cases hbefore : m ∈ before
  · obtain ⟨first, second, rfl, hfirst⟩ := List.eq_append_cons_of_mem hbefore
    have hsame : first ++ m :: (second ++ (a ++ m :: b) ++ after) = x ++ m :: y := by
      rw [← heq]
      simp
    exact .inr ⟨second, after, (cut_inj hfirst hx hsame).2⟩
  · have hsame : (before ++ a) ++ m :: (b ++ after) = x ++ m :: y := by
      rw [← heq]
      simp
    have hnot : m ∉ before ++ a := fun hmem => (List.mem_append.mp hmem).elim hbefore ha
    obtain ⟨hleft, hright⟩ := cut_inj hnot hx hsame
    exact .inl ⟨⟨before, hleft⟩, ⟨after, hright⟩⟩

/-- A text that a word is put around or next to without being part of it. -/
structure Label (word label : Text) : Prop where
  brackets : ∃ l mid r, label = l :: mid ++ [r] ∧ l ∉ word ∧ r ∉ word
  not_in : ¬ word <:+: label

variable {word label : Text}

/-- A word in a text around a label is before or after the label. -/
theorem infix_around_label (hlabel : Label word label) {a b : Text} (h : word <:+: a ++ (label ++ b)) :
    word <:+: a ∨ word <:+: b := by
  obtain ⟨l, mid, r, hparts, hl, hr⟩ := hlabel.brackets
  have hsplit : a ++ (label ++ b) = a ++ l :: (mid ++ r :: b) := by
    rw [hparts]
    simp
  rw [hsplit] at h
  obtain ha | hrest := infix_append_cons hl h
  · exact .inl ha
  · obtain hmid | hb := infix_append_cons hr hrest
    · refine absurd ?_ hlabel.not_in
      rw [hparts]
      exact hmid.trans ⟨[l], [r], by simp⟩
    · exact .inr hb

/-- Replacing another text by the label puts no word where none was. -/
theorem not_infix_replaceFrom (hlabel : Label word label) {old : Text} {skip : Nat} {s : Text}
    (before : Text) (h : ¬ word <:+: before ++ s.drop skip) : ¬ word <:+: before ++ replaceFrom old label skip s := by
  induction s generalizing skip before with
  | nil => simpa [replaceFrom] using h
  | cons c s ih =>
    cases skip with
    | succ skip => exact ih before (by simpa using h)
    | zero =>
      rw [replaceFrom]
      split
      · intro hin
        rw [List.drop_zero] at h
        obtain hbefore | hafter := infix_around_label hlabel hin
        · exact h (hbefore.trans (List.prefix_append _ _).isInfix)
        · refine absurd hafter (ih [] (fun hs => h ?_))
          refine hs.trans ((List.drop_suffix _ s).trans ?_).isInfix
          exact (List.suffix_cons c s).trans (List.suffix_append before _)
      · have hnext : ¬ word <:+: (before ++ [c]) ++ s.drop 0 := by simpa using h
        simpa using ih (before ++ [c]) hnext

/-- No occurrence begins in the characters before. -/
theorem not_infix_replaceFrom_self (hword : word ≠ []) (hlabel : Label word label) {skip : Nat}
    {s : Text} (before : Text) (hskip : 0 < skip → before = [])
    (h : ∀ kept rest, before = kept ++ rest → rest ≠ [] → ¬ word <+: rest ++ s) :
    ¬ word <:+: before ++ replaceFrom word label skip s := by
  induction s generalizing skip before with
  | nil =>
    rw [replaceFrom, List.append_nil]
    intro hin
    obtain ⟨kept, rest, hrest⟩ := hin
    refine h kept (word ++ rest) (by simpa using hrest.symm) (by simp [hword]) ?_
    exact ⟨rest, by simp⟩
  | cons c s ih =>
    cases skip with
    | succ skip =>
      have hbefore := hskip (Nat.succ_pos skip)
      refine ih before (fun _ => hbefore) ?_
      intro kept rest hrest hne
      rw [hbefore] at hrest
      exact absurd (List.append_eq_nil_iff.mp hrest.symm).2 hne
    | zero =>
      rw [replaceFrom]
      split
      case isTrue hlead =>
        intro hin
        obtain hbefore | hafter := infix_around_label hlabel hin
        · obtain ⟨kept, rest, hrest⟩ := hbefore
          refine h kept (word ++ rest) (by simpa using hrest.symm) (by simp [hword]) ?_
          exact ⟨rest ++ c :: s, by simp⟩
        · refine absurd hafter (ih [] (fun _ => rfl) ?_)
          intro kept rest hrest hne
          exact absurd (List.append_eq_nil_iff.mp hrest.symm).2 hne
      case isFalse hlead =>
        have hhere : ¬ word <+: c :: s := fun hpre => hlead (List.isPrefixOf_iff_prefix.mpr hpre)
        have hnext : ¬ word <:+: (before ++ [c]) ++ replaceFrom word label 0 s := by
          refine ih (before ++ [c]) (fun hpos => absurd hpos (Nat.lt_irrefl 0)) ?_
          intro kept rest hrest hne
          obtain ⟨tail, -, hlast⟩ | ⟨tail, hkept, htail⟩ := List.append_eq_append_iff.mp hrest
          · obtain ⟨-, hc⟩ | ⟨-, hnil⟩ := List.append_eq_singleton_iff.mp hlast.symm
            · rwa [hc]
            · exact absurd hnil hne
          · rw [htail, List.append_assoc, List.singleton_append]
            by_cases htail : tail = []
            · rwa [htail]
            · exact h kept tail hkept htail
        simpa using hnext

theorem not_infix_replaceText (hlabel : Label word label) (old : Text) {s : Text}
    (h : ¬ word <:+: s) : ¬ word <:+: replaceText old label s :=
  not_infix_replaceFrom hlabel [] h

theorem not_infix_replaceText_self (hword : word ≠ []) (hlabel : Label word label) (s : Text) :
    ¬ word <:+: replaceText word label s := by
  refine not_infix_replaceFrom_self hword hlabel [] (fun _ => rfl) ?_
  intro kept rest hrest hne
  exact absurd (List.append_eq_nil_iff.mp hrest.symm).2 hne

/-- Replacing word after word leaves none of them. -/
theorem not_infix_foldl_replaceText {words : List Text} (hlabel : Label word label)
    (hword : word ≠ []) (s : Text) (h : word ∈ words ∨ ¬ word <:+: s) :
    ¬ word <:+: words.foldl (fun t old => replaceText old label t) s := by
  induction words generalizing s with
  | nil => exact h.resolve_left (by simp)
  | cons old words ih =>
    refine ih _ ?_
    obtain hmem | hs := h
    · obtain heq | hmem := List.mem_cons.mp hmem
      · rw [← heq]
        exact .inr (not_infix_replaceText_self hword hlabel s)
      · exact .inl hmem
    · exact .inr (not_infix_replaceText hlabel old hs)

end OpenAdb.Lib.Substring
