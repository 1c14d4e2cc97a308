import OpenAdb.Lib.PyText
import Mathlib.Tactic.Ring
import Mathlib.Algebra.Order.Ring.Nat

namespace OpenAdb.Lib.Encoding

open OpenAdb.Lib.PyText

abbrev Bytes := List UInt8

/-- The `w` low bytes of a number, most significant first. -/
def bigEndian : Nat → Nat → Bytes
  | 0, _ => []
  | w + 1, n => UInt8.ofNat (n / 256 ^ w) :: bigEndian w n

def ofBigEndian (bs : Bytes) : Nat := bs.foldl (fun n b => 256 * n + b.toNat) 0

def toSigned (bits n : Nat) : Int := if n < 2 ^ (bits - 1) then n else n - 2 ^ bits

@[simp]
theorem length_bigEndian (w n : Nat) : (bigEndian w n).length = w := by
  induction w with
  | zero => rfl
  | succ w ih => simp [bigEndian, ih]

theorem foldl_bigEndian (w n a : Nat) :
    (bigEndian w n).foldl (fun n b => 256 * n + b.toNat) a = 256 ^ w * a + n % 256 ^ w := by
  induction w generalizing a with
  | zero => simp [bigEndian, Nat.mod_one]
  | succ w ih =>
    have hdigit : (UInt8.ofNat (n / 256 ^ w)).toNat = n / 256 ^ w % 256 := by
      simp [UInt8.toNat_ofNat']
    have hsplit := Nat.mod_mul (a := 256 ^ w) (b := 256) (x := n)
    rw [bigEndian, List.foldl_cons, ih, hdigit, Nat.pow_succ, hsplit]
    ring

theorem ofBigEndian_bigEndian {w n : Nat} (h : n < 256 ^ w) : ofBigEndian (bigEndian w n) = n := by
  rw [ofBigEndian, foldl_bigEndian, Nat.mod_eq_of_lt h]
  simp

theorem toSigned_of_lt {bits n : Nat} (h : n < 2 ^ (bits - 1)) : toSigned bits n = n := by
  simp [toSigned, h]

theorem toSigned_nonneg (bits : Nat) {n : Nat} (hn : n < 2 ^ bits) (h : 0 ≤ toSigned bits n) :
    n < 2 ^ (bits - 1) := by
  by_contra hc
  rw [toSigned, if_neg hc] at h
  have : (n : Int) < 2 ^ bits := by exact_mod_cast hn
  omega

theorem ofBigEndian_append (bs : Bytes) (b : UInt8) :
    ofBigEndian (bs ++ [b]) = 256 * ofBigEndian bs + b.toNat := by
  simp [ofBigEndian]

theorem bigEndian_append (w n : Nat) :
    bigEndian (w + 1) n = bigEndian w (n / 256) ++ [UInt8.ofNat n] := by
  induction w with
  | zero => simp [bigEndian]
  | succ w ih =>
    have hdiv : n / 256 ^ (w + 1) = n / 256 / 256 ^ w := by
      rw [Nat.pow_succ, Nat.mul_comm, Nat.div_div_eq_div_mul]
    rw [bigEndian, ih, bigEndian, hdiv, List.cons_append]

theorem bigEndian_ofBigEndian {w : Nat} {bs : Bytes} (h : bs.length = w) :
    bigEndian w (ofBigEndian bs) = bs ∧ ofBigEndian bs < 256 ^ w := by
  subst h
  induction bs using List.reverseRecOn with
  | nil => exact ⟨rfl, by decide⟩
  | append_singleton bs b ih =>
    have hb := b.toNat_lt
    have hbyte : UInt8.ofNat (256 * ofBigEndian bs + b.toNat) = b := by
      apply UInt8.toNat_inj.mp
      rw [UInt8.toNat_ofNat']
      omega
    have hdiv : (256 * ofBigEndian bs + b.toNat) / 256 = ofBigEndian bs := by omega
    rw [List.length_append, List.length_singleton, ofBigEndian_append, bigEndian_append, hdiv,
      hbyte, ih.1, Nat.pow_succ]
    refine ⟨rfl, ?_⟩
    have := ih.2
    omega

def utf8 (s : Text) : Bytes := s.flatMap String.utf8EncodeChar

/-- A decoder is free in what it makes of ill-formed bytes. -/
structure Utf8Decoder where
  decode : Bytes → Text
  decode_utf8 : ∀ s, decode (utf8 s) = s

theorem utf8_toByteArray (s : Text) : (utf8 s).toByteArray = s.utf8Encode := rfl

/-- The decoder that maps every ill-formed input to one replacement character. -/
def Utf8Decoder.replacing : Utf8Decoder where
  decode bs := (bs.toByteArray.utf8Decode?.map Array.toList).getD ['\uFFFD']
  decode_utf8 s := by
    rw [utf8_toByteArray, List.utf8Decode?_utf8Encode]
    simp

/-- The decoder that reports ill-formed input. -/
def strictUtf8 (bs : Bytes) : Option Text := bs.toByteArray.utf8Decode?.map Array.toList

theorem strictUtf8_utf8 (s : Text) : strictUtf8 (utf8 s) = some s := by
  rw [strictUtf8, utf8_toByteArray, List.utf8Decode?_utf8Encode]
  simp

theorem utf8_strictUtf8 {bs : Bytes} {s : Text} (h : strictUtf8 bs = some s) : utf8 s = bs := by
  obtain ⟨a, ha, rfl⟩ := Option.map_eq_some_iff.mp h
  have hsome : bs.toByteArray.utf8Decode?.isSome = true := by rw [ha]; rfl
  have hget := ByteArray.utf8Encode_get_utf8Decode? (b := bs.toByteArray) (h := hsome)
  rw [Option.get_of_eq_some hsome ha, ← utf8_toByteArray] at hget
  exact List.toByteArray_inj.mp hget

theorem utf8_ascii {s : Text} (h : ∀ c ∈ s, c.toNat < 128) :
    utf8 s = s.map (fun c => UInt8.ofNat c.toNat) := by
  induction s with
  | nil => rfl
  | cons c s ih =>
    have hc : String.utf8EncodeChar c = [UInt8.ofNat c.toNat] := by
      have := h c List.mem_cons_self
      exact if_pos (Nat.le_of_lt_succ this)
    rw [utf8, List.flatMap_cons, hc, List.map_cons]
    exact congrArg _ (ih (fun d hd => h d (List.mem_cons_of_mem c hd)))

def utf16Length (s : Text) : Nat := (s.map (fun c => if c.toNat < 65536 then 1 else 2)).sum

theorem utf16Length_le_utf8 (s : Text) : utf16Length s ≤ (utf8 s).length := by
  induction s with
  | nil => simp [utf16Length, utf8]
  | cons c s ih =>
    have hc : (if c.toNat < 65536 then 1 else 2) ≤ (String.utf8EncodeChar c).length := by
      unfold String.utf8EncodeChar
      simp only [Char.toNat]
      split_ifs <;> simp only [List.length_cons, List.length_nil] <;> omega
    simp only [utf16Length, utf8, List.map_cons, List.sum_cons, List.flatMap_cons,
      List.length_append] at ih ⊢
    omega

theorem utf8_length_le (s : Text) : (utf8 s).length ≤ 4 * utf16Length s := by
  induction s with
  | nil => simp [utf16Length, utf8]
  | cons c s ih =>
    have hc : (String.utf8EncodeChar c).length ≤ 4 := by
      rw [String.length_utf8EncodeChar]
      exact c.utf8Size_le_four
    have hunit : 1 ≤ (if c.toNat < 65536 then 1 else 2) := by split_ifs <;> omega
    simp only [utf16Length, utf8, List.map_cons, List.sum_cons, List.flatMap_cons,
      List.length_append] at ih ⊢
    omega

theorem utf8_length_pos {s : Text} (h : s ≠ []) : 0 < (utf8 s).length := by
  cases s with
  | nil => exact absurd rfl h
  | cons c s =>
    have hne := String.utf8EncodeChar_ne_nil (c := c)
    simp only [utf8, List.flatMap_cons, List.length_append]
    have := List.length_pos_iff.mpr hne
    omega

/-- An ASCII byte occurs in the encoding only where its character occurs. -/
theorem ascii_mem_utf8 {s : Text} {b : UInt8} (hb : b.toNat < 128) (h : b ∈ utf8 s) :
    Char.ofNat b.toNat ∈ s := by
  obtain ⟨c, hc, hbc⟩ := List.mem_flatMap.mp h
  suffices hcb : c.toNat = b.toNat by
    rw [← hcb, Char.ofNat_toNat]
    exact hc
  have hbyte : ∀ n : Nat, b = UInt8.ofNat n → b.toNat = n % 256 := by
    rintro n rfl
    simp [UInt8.toNat_ofNat']
  unfold String.utf8EncodeChar at hbc
  dsimp only [Char.toNat] at hbc ⊢
  split_ifs at hbc <;> simp only [List.mem_cons, List.not_mem_nil, or_false] at hbc
  · have := hbyte _ hbc
    omega
  · rcases hbc with hbc | hbc <;> have := hbyte _ hbc <;> omega
  · rcases hbc with hbc | hbc | hbc <;> have := hbyte _ hbc <;> omega
  · rcases hbc with hbc | hbc | hbc | hbc <;> have := hbyte _ hbc <;> omega

end OpenAdb.Lib.Encoding
