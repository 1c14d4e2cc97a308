import OpenAdb.Lib.PyText

namespace OpenAdb.Lib.PackageName

open OpenAdb.Lib.PyText

/-- Tables in which the visible ASCII characters are no spaces. -/
structure VisibleTables extends UnicodeData where
  isSpace_visible : ∀ c : Char, 33 ≤ c.toNat → c.toNat ≤ 126 → isSpace c = false

def VisibleTables.ascii : VisibleTables where
  toUnicodeData := .ascii
  isSpace_visible c hlow hhigh := by
    simp only [UnicodeData.ascii, decide_eq_false_iff_not]
    omega

variable {u : VisibleTables} {p : Text}

def packageChar (c : Char) : Bool := c.isAlphanum || c = '_' || c = '.'

def ValidPackage (p : Text) : Prop := p ≠ [] ∧ ∀ c ∈ p, packageChar c = true

instance (p : Text) : Decidable (ValidPackage p) :=
  @instDecidableAnd _ _ _ (List.decidableBAll (packageChar · = true) p)

theorem packageChar_range {c : Char} (h : packageChar c = true) : 46 ≤ c.toNat ∧ c.toNat ≤ 122 := by
  change ((((decide (65 ≤ c.val ∧ c.val ≤ 90)) || (decide (97 ≤ c.val) && decide (c.val ≤ 122))) ||
    (decide (48 ≤ c.val) && decide (c.val ≤ 57))) || decide (c = '_') || decide (c = '.')) = true at h
  simp only [Bool.or_eq_true, Bool.and_eq_true, decide_eq_true_eq, UInt32.le_iff_toNat_le] at h
  change ((((65 ≤ c.toNat ∧ c.toNat ≤ 90) ∨ (97 ≤ c.toNat ∧ c.toNat ≤ 122)) ∨
    (48 ≤ c.toNat ∧ c.toNat ≤ 57)) ∨ c = '_') ∨ c = '.' at h
  obtain ((((h | h) | h) | h) | h) := h
  · omega
  · omega
  · omega
  · subst h
    decide
  · subst h
    decide

theorem isSpace_packageChar {c : Char} (h : packageChar c = true) : u.isSpace c = false := by
  have hrange := packageChar_range h
  exact u.isSpace_visible c (by omega) (by omega)

theorem rdropWhile_append_package (hp : ValidPackage p) (a : Text) :
    (a ++ p).rdropWhile u.isSpace = a ++ p := by
  rw [List.rdropWhile_eq_self_iff]
  intro hne
  rw [List.getLast_append_of_ne_nil _ hp.1, isSpace_packageChar (hp.2 _ (List.getLast_mem hp.1))]
  exact Bool.false_ne_true

theorem strip_unspaced {s : Text} (h : ∀ c ∈ s, u.isSpace c = false) : strip u.toUnicodeData s = s := by
  have hdrop : s.dropWhile u.isSpace = s := by
    cases s with
    | nil => rfl
    | cons c rest => rw [List.dropWhile_cons_of_neg (by simp [h c List.mem_cons_self])]
  rw [strip, hdrop, List.rdropWhile_eq_self_iff]
  intro hne
  rw [h _ (List.getLast_mem hne)]
  exact Bool.false_ne_true

theorem strip_package (hp : ValidPackage p) : strip u.toUnicodeData p = p :=
  strip_unspaced (fun c hc => isSpace_packageChar (hp.2 c hc))

end OpenAdb.Lib.PackageName
