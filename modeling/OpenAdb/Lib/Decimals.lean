import Mathlib.Algebra.Group.Nat.Defs
import OpenAdb.Lib.PyText

namespace OpenAdb.Lib.Decimals

open OpenAdb.Lib.PyText

variable {u : UnicodeData}

theorem isDigit_of_mem_repr {n : Nat} {c : Char} (h : c ∈ (Nat.repr n).toList) : c.isDigit = true := by
  rw [Nat.toList_repr] at h
  exact Nat.isDigit_of_mem_toDigits (by decide) (by decide) h

theorem repr_ne_nil (n : Nat) : (Nat.repr n).toList ≠ [] := by
  rw [Nat.toList_repr]
  exact List.ne_nil_of_length_pos Nat.length_toDigits_pos

theorem not_mem_repr {n : Nat} {c : Char} (h : c.isDigit = false) : c ∉ (Nat.repr n).toList := by
  intro hc
  rw [isDigit_of_mem_repr hc] at h
  cases h

theorem length_repr_le {n k : Nat} (hk : 0 < k) : (Nat.repr n).toList.length ≤ k ↔ n < 10 ^ k := by
  rw [Nat.toList_repr]
  exact Nat.length_toDigits_le_iff (by decide) hk

theorem foldl_decimal (hdecimal : ∀ c : Char, c.isDigit = true → u.decimal c = some (c.toNat - 48))
    {digits : Text} (h : ∀ c ∈ digits, c.isDigit = true) (a : Nat) :
    digits.foldl (fun n c => 10 * n + (u.decimal c).getD 0) a = Nat.ofDigitChars 10 digits a := by
  induction digits generalizing a with
  | nil => rfl
  | cons c digits ih =>
    obtain ⟨hc, hdigits⟩ := List.forall_mem_cons.mp h
    rw [List.foldl_cons, Nat.ofDigitChars_cons, hdecimal c hc]
    exact ih hdigits _

/-- A number is read back from its decimal digits. -/
theorem intOfDigits_repr (hdecimal : ∀ c : Char, c.isDigit = true → u.decimal c = some (c.toNat - 48)) (n : Nat) :
    intOfDigits u (Nat.repr n).toList = n := by
  rw [intOfDigits, foldl_decimal hdecimal (fun c hc => isDigit_of_mem_repr hc), Nat.toList_repr,
    Nat.ofDigitChars_toDigits (by decide) (by decide)]

theorem isdecimal_repr (hdecimal : ∀ c : Char, c.isDigit = true → u.decimal c = some (c.toNat - 48)) (n : Nat) :
    isdecimal u (Nat.repr n).toList = true := by
  rw [isdecimal, Bool.and_eq_true, List.all_eq_true]
  refine ⟨by simp, fun c hc => ?_⟩
  rw [hdecimal c (isDigit_of_mem_repr hc)]
  rfl

end OpenAdb.Lib.Decimals
