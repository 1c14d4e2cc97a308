import OpenAdb.Lib.Effects
import OpenAdb.Lib.Encoding

namespace OpenAdb.Lib.ByteStream

open OpenAdb.Lib.Effects OpenAdb.Lib.Encoding

variable {ε : Type} {e : ε}

/-- Take exactly `n` bytes; a stream that ends before is used up. -/
def readExactly (e : ε) (n : Nat) : Effect ε Bytes Bytes := fun input =>
  if n ≤ input.length then (.ok (input.take n), input.drop n) else (.error e, [])

theorem readExactly_append {n : Nat} {data : Bytes} (h : data.length = n) (rest : Bytes) :
    readExactly e n (data ++ rest) = (.ok data, rest) := by
  subst h
  rw [readExactly, if_pos (by simp), List.take_left, List.drop_left]

theorem readExactly_outcome (n : Nat) (input : Bytes) :
    (∃ data rest, input = data ++ rest ∧ data.length = n ∧
      readExactly e n input = (.ok data, rest)) ∨ readExactly e n input = (.error e, []) := by
  by_cases h : n ≤ input.length
  · refine .inl ⟨input.take n, input.drop n, (List.take_append_drop n input).symm, ?_, ?_⟩
    · rw [List.length_take, Nat.min_eq_left h]
    · rw [readExactly, if_pos h]
  · exact .inr (if_neg h)

end OpenAdb.Lib.ByteStream
