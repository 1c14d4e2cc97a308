import Mathlib.Data.Nat.Digits.Lemmas
import Mathlib.Data.List.Infix

namespace OpenAdb.Lib.ByteFields

abbrev Bytes := List UInt8

def littleEndian (bs : Bytes) : Nat := Nat.ofDigits 256 (bs.map UInt8.toNat)

def bigEndian (bs : Bytes) : Nat := littleEndian bs.reverse

/-- The shortest big-endian form of a number. -/
def octets (n : Nat) : Bytes := ((Nat.digits 256 n).map UInt8.ofNat).reverse

/-- A number of some width in the bytes. -/
def HasField (data : Bytes) (offset width value : Nat) : Prop :=
  offset + width ≤ data.length ∧ littleEndian ((data.drop offset).take width) = value

/-- With zeros for a part. -/
def blank (offset width : Nat) (data : Bytes) : Bytes :=
  data.take offset ++ List.replicate width 0 ++ data.drop (offset + width)

/-- The next multiple of eight. -/
def align (n : Nat) : Nat := (n + 7) / 8 * 8

def Zeros (bs : Bytes) : Prop := ∀ b ∈ bs, b = 0

instance (bs : Bytes) : Decidable (Zeros bs) := List.decidableBAll (fun b => b = 0) bs

variable {data other : Bytes} {offset width value n m i : Nat} {bs : Bytes}

theorem toNat_lt_of_mem {d : Nat} (h : d ∈ bs.map UInt8.toNat) : d < 256 := by
  obtain ⟨b, -, rfl⟩ := List.mem_map.mp h
  exact b.toNat_lt

theorem littleEndian_lt : littleEndian bs < 256 ^ bs.length := by
  have h := Nat.ofDigits_lt_base_pow_length (b := 256) (by decide) (fun d hd => @toNat_lt_of_mem bs _ hd)
  rw [List.length_map] at h
  exact h

theorem HasField.lt (h : HasField data offset width value) : value < 256 ^ width := by
  rw [← h.2]
  have hlength : ((data.drop offset).take width).length = width := by
    rw [List.length_take, List.length_drop]
    have := h.1
    omega
  have hlt := @littleEndian_lt ((data.drop offset).take width)
  rw [hlength] at hlt
  exact hlt

/-- A field of a part of the bytes is one of the whole. -/
theorem hasField_drop (h : n ≤ data.length) : HasField (data.drop n) offset width value ↔ HasField data (n + offset) width value := by
  rw [HasField, HasField, List.drop_drop, List.length_drop]
  refine and_congr_left (fun _ => ?_)
  omega

theorem octets_bigEndian (hne : bs.head? ≠ some 0) : octets (bigEndian bs) = bs := by
  have hdigits : Nat.digits 256 (bigEndian bs) = bs.reverse.map UInt8.toNat := by
    refine Nat.digits_ofDigits 256 (by decide) _ (fun d hd => toNat_lt_of_mem hd) ?_
    intro hnil hzero
    have hlast : (bs.reverse.map UInt8.toNat).getLast? = some 0 := by
      rw [List.getLast?_eq_some_getLast hnil, hzero]
    rw [List.getLast?_map, List.getLast?_reverse] at hlast
    obtain ⟨b, hb, hzero⟩ := Option.map_eq_some_iff.mp hlast
    obtain rfl : b = 0 := UInt8.toNat_inj.mp hzero
    exact hne hb
  have hback : UInt8.ofNat ∘ UInt8.toNat = id := by
    funext b
    exact UInt8.ofNat_toNat
  rw [octets, hdigits, List.map_map, hback, List.map_id, List.reverse_reverse]

theorem toNat_octets : ((Nat.digits 256 n).map UInt8.ofNat).map UInt8.toNat = Nat.digits 256 n := by
  rw [List.map_map]
  refine (List.map_congr_left (fun d hd => ?_)).trans (List.map_id _)
  exact UInt8.toNat_ofNat_of_lt' (Nat.digits_lt_base (by decide) hd)

theorem bigEndian_octets : bigEndian (octets n) = n := by
  rw [bigEndian, octets, List.reverse_reverse, littleEndian, toNat_octets, Nat.ofDigits_digits]

theorem length_octets_le {width : Nat} (h : n < 256 ^ width) : (octets n).length ≤ width := by
  rw [octets, List.length_reverse, List.length_map]
  exact (Nat.digits_length_le_iff (by decide) n).mpr h

theorem head_octets (hn : n ≠ 0) : ∃ b rest, octets n = b :: rest ∧ b ≠ 0 := by
  have hnil := Nat.digits_ne_nil_iff_ne_zero (b := 256).mpr hn
  have hlast := Nat.getLast_digit_ne_zero 256 hn
  have hlt := Nat.digits_lt_base (b := 256) (by decide) (List.getLast_mem hnil)
  refine ⟨UInt8.ofNat ((Nat.digits 256 n).getLast hnil), ((Nat.digits 256 n).dropLast.map UInt8.ofNat).reverse, ?_, ?_⟩
  · rw [octets]
    conv_lhs => rw [← List.dropLast_append_getLast hnil]
    rw [List.map_append, List.reverse_append]
    rfl
  · intro hzero
    refine hlast ?_
    have hnat := congrArg UInt8.toNat hzero
    rw [UInt8.toNat_ofNat_of_lt' hlt] at hnat
    exact hnat

theorem length_blank (h : offset + width ≤ data.length) : (blank offset width data).length = data.length := by
  rw [blank, List.length_append, List.length_append, List.length_take, List.length_replicate, List.length_drop]
  omega

theorem getElem?_blank (h : offset + width ≤ data.length) :
    (blank offset width data)[i]? = if offset ≤ i ∧ i < offset + width then some 0 else data[i]? := by
  have hfirst : (data.take offset).length = offset := by
    rw [List.length_take]
    omega
  rw [blank, List.append_assoc]
  by_cases hi : i < offset
  · rw [if_neg (fun hin => absurd hi (Nat.not_lt.mpr hin.1)), List.getElem?_append_left (hfirst.symm ▸ hi),
      List.getElem?_take_of_lt hi]
  · rw [List.getElem?_append_right (by omega), hfirst]
    by_cases hin : i < offset + width
    · rw [if_pos ⟨by omega, hin⟩, List.getElem?_append_left (by rw [List.length_replicate]; omega),
        List.getElem?_replicate_of_lt (by omega)]
    · rw [if_neg (fun h => hin h.2), List.getElem?_append_right (by rw [List.length_replicate]; omega),
        List.length_replicate, List.getElem?_drop]
      congr 1
      omega

theorem le_align (n : Nat) : n ≤ align n := by
  unfold align
  omega

theorem align_lt (n : Nat) : align n < n + 8 := by
  unfold align
  omega

theorem dvd_align (n : Nat) : 8 ∣ align n := Nat.dvd_mul_left _ _

theorem align_eq_iff (h : 8 ∣ m) : align n = m ↔ n ≤ m ∧ m < n + 8 := by
  unfold align
  omega

end OpenAdb.Lib.ByteFields
