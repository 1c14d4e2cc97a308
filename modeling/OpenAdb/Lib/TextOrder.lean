import OpenAdb.Lib.PyText

namespace OpenAdb.Lib.TextOrder

open OpenAdb.Lib.PyText

/-- `str` is ordered by code points. -/
def textLess : Text → Text → Bool
  | _, [] => false
  | [], _ :: _ => true
  | a :: as, b :: bs => a.toNat < b.toNat || a.toNat = b.toNat && textLess as bs

theorem textLess_cons {a b : Char} {as bs : Text} :
    textLess (a :: as) (b :: bs) = true ↔ a.toNat < b.toNat ∨ a.toNat = b.toNat ∧ textLess as bs = true := by
  rw [textLess, Bool.or_eq_true, Bool.and_eq_true, decide_eq_true_eq, decide_eq_true_eq]

theorem not_textLess_cons {a b : Char} {as bs : Text} :
    textLess (a :: as) (b :: bs) = false ↔ b.toNat < a.toNat ∨ a.toNat = b.toNat ∧ textLess as bs = false := by
  rw [← Bool.not_eq_true, textLess_cons]
  cases textLess as bs with
  | false => simp; omega
  | true => simp; omega

/-- A text comes before its continuations. -/
theorem textLess_append (a : Text) (c : Char) (rest : Text) : textLess a (a ++ c :: rest) = true := by
  induction a with
  | nil => rfl
  | cons x a ih => exact textLess_cons.mpr (.inr ⟨rfl, ih⟩)

theorem textLess_total (a b : Text) : textLess a b = false ∨ textLess b a = false := by
  induction a generalizing b with
  | nil => exact .inr (by cases b <;> rfl)
  | cons x a ih =>
    cases b with
    | nil => exact .inl rfl
    | cons y b =>
      rw [not_textLess_cons, not_textLess_cons]
      obtain hlt | heq | hlt := Nat.lt_trichotomy x.toNat y.toNat
      · exact .inr (.inl hlt)
      · obtain h | h := ih b
        · exact .inl (.inr ⟨heq, h⟩)
        · exact .inr (.inr ⟨heq.symm, h⟩)
      · exact .inl (.inl hlt)

theorem not_textLess_trans {a b c : Text} (hab : textLess a b = false) (hbc : textLess b c = false) :
    textLess a c = false := by
  induction a generalizing b c with
  | nil =>
    cases c with
    | nil => rfl
    | cons z c =>
      cases b with
      | nil => cases hbc
      | cons y b => cases hab
  | cons x a ih =>
    cases c with
    | nil => rfl
    | cons z c =>
      cases b with
      | nil => cases hbc
      | cons y b =>
        rw [not_textLess_cons] at hab hbc ⊢
        obtain hab | ⟨hxy, hab⟩ := hab
        · omega
        · obtain hbc | ⟨hyz, hbc⟩ := hbc
          · omega
          · exact .inr ⟨hxy.trans hyz, ih hab hbc⟩

end OpenAdb.Lib.TextOrder
