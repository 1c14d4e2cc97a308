import OpenAdb.Lib.Encoding

namespace OpenAdb.Lib.Base64

open OpenAdb.Lib.PyText OpenAdb.Lib.Encoding

def symbol (n : Nat) : Char :=
  if n < 26 then Char.ofNat (65 + n)
  else if n < 52 then Char.ofNat (71 + n)
  else if n < 62 then Char.ofNat (n - 4)
  else if n = 62 then '+' else '/'

/-- The standard alphabet, padded to whole groups of four characters. -/
def encode : Bytes → Text
  | [] => []
  | [a] => [symbol (a.toNat / 4), symbol (a.toNat % 4 * 16), '=', '=']
  | [a, b] => [symbol (a.toNat / 4), symbol (a.toNat % 4 * 16 + b.toNat / 16),
      symbol (b.toNat % 16 * 4), '=']
  | a :: b :: c :: rest => symbol (a.toNat / 4) :: symbol (a.toNat % 4 * 16 + b.toNat / 16) ::
      symbol (b.toNat % 16 * 4 + c.toNat / 64) :: symbol (c.toNat % 64) :: encode rest

inductive Digit
  | data (n : Nat)
  | equals
  | skip
  deriving DecidableEq

def classify (c : Char) : Digit :=
  let n := c.toNat
  if 65 ≤ n ∧ n ≤ 90 then .data (n - 65)
  else if 97 ≤ n ∧ n ≤ 122 then .data (n - 71)
  else if 48 ≤ n ∧ n ≤ 57 then .data (n + 4)
  else if c = '+' then .data 62
  else if c = '/' then .data 63
  else if c = '=' then .equals
  else .skip

/-- Where the decoder stands in a group of four, with the bits it has read. -/
inductive Phase
  | start
  | one (value : Nat)
  | two (value : Nat)
  | three (value : Nat)
  | padding
  | finished

def Phase.advance : Phase → Digit → Option (Phase × Bytes)
  | s, .skip => some (s, [])
  | .start, .data d => some (.one d, [])
  | .one v, .data d => some (.two (v * 64 + d), [])
  | .two v, .data d => some (.three (v * 64 + d), [])
  | .two v, .equals => some (.padding, [UInt8.ofNat (v / 16)])
  | .three v, .data d =>
    let w := v * 64 + d
    some (.start, [UInt8.ofNat (w / 65536), UInt8.ofNat (w / 256), UInt8.ofNat w])
  | .three v, .equals => some (.finished, [UInt8.ofNat (v / 1024), UInt8.ofNat (v / 4)])
  | .padding, .equals => some (.finished, [])
  | _, _ => none

/-- A group that ends early is complete without its padding, except after one
character or after the first of two padding characters. -/
def Phase.finish : Phase → Option Bytes
  | .start | .finished => some []
  | .two v => some [UInt8.ofNat (v / 16)]
  | .three v => some [UInt8.ofNat (v / 1024), UInt8.ofNat (v / 4)]
  | .one _ | .padding => none

def decodeFrom : Phase → Text → Option Bytes
  | s, [] => s.finish
  | s, c :: rest => do
    let (s, out) ← s.advance (classify c)
    let bytes ← decodeFrom s rest
    return out ++ bytes

/-- The lenient decoder of `android.util.Base64`; `none` is its exception. -/
def decode (s : Text) : Option Bytes := decodeFrom .start s

/-- A decoder that takes nothing but whole groups, the last one padded. -/
def decodeStrict : Text → Option Bytes
  | [] => some []
  | [a, b, '=', '='] =>
    match classify a, classify b with
    | .data i, .data j => some [UInt8.ofNat ((i * 64 + j) / 16)]
    | _, _ => none
  | [a, b, c, '='] =>
    match classify a, classify b, classify c with
    | .data i, .data j, .data k =>
      let w := (i * 64 + j) * 64 + k
      some [UInt8.ofNat (w / 1024), UInt8.ofNat (w / 4)]
    | _, _, _ => none
  | a :: b :: c :: d :: rest =>
    match classify a, classify b, classify c, classify d with
    | .data i, .data j, .data k, .data l =>
      let w := ((i * 64 + j) * 64 + k) * 64 + l
      (decodeStrict rest).map ([UInt8.ofNat (w / 65536), UInt8.ofNat (w / 256), UInt8.ofNat w] ++ ·)
    | _, _, _, _ => none
  | _ => none

theorem classify_symbol {n : Nat} (h : n < 64) : classify (symbol n) = .data n := by
  have hall : ∀ i : Fin 64, classify (symbol i) = .data i := by decide
  exact hall ⟨n, h⟩

theorem symbol_ascii {n : Nat} (h : n < 64) : 43 ≤ (symbol n).toNat ∧ (symbol n).toNat < 128 := by
  have hall : ∀ i : Fin 64, 43 ≤ (symbol i).toNat ∧ (symbol i).toNat < 128 := by decide
  exact hall ⟨n, h⟩

variable (a b c : UInt8) (rest : Text)

theorem decode_one : decodeFrom .start (symbol (a.toNat / 4) :: rest) =
    decodeFrom (.one (a.toNat / 4)) rest := by
  have ha := a.toNat_lt
  simp [decodeFrom, classify_symbol (show a.toNat / 4 < 64 by omega), Phase.advance]

theorem decode_two (n : Nat) (h : n < 16) :
    decodeFrom .start (symbol (a.toNat / 4) :: symbol (a.toNat % 4 * 16 + n) :: rest) =
      decodeFrom (.two (a.toNat * 16 + n)) rest := by
  have hn : a.toNat / 4 * 64 + (a.toNat % 4 * 16 + n) = a.toNat * 16 + n := by omega
  rw [decode_one, decodeFrom, classify_symbol (by omega)]
  simp [Phase.advance, hn]

theorem decode_three (n : Nat) (h : n < 4) :
    decodeFrom .start (symbol (a.toNat / 4) :: symbol (a.toNat % 4 * 16 + b.toNat / 16) ::
        symbol (b.toNat % 16 * 4 + n) :: rest) =
      decodeFrom (.three ((a.toNat * 256 + b.toNat) * 4 + n)) rest := by
  have hb := b.toNat_lt
  have hn : (a.toNat * 16 + b.toNat / 16) * 64 + (b.toNat % 16 * 4 + n) =
      (a.toNat * 256 + b.toNat) * 4 + n := by omega
  rw [decode_two a _ _ (by omega), decodeFrom, classify_symbol (by omega)]
  simp [Phase.advance, hn]

theorem ofNat_eq {n : Nat} {a : UInt8} (h : n % 256 = a.toNat) : UInt8.ofNat n = a := by
  apply UInt8.toNat_inj.mp
  rw [UInt8.toNat_ofNat', ← h]

theorem decode_group :
    decodeFrom .start (symbol (a.toNat / 4) :: symbol (a.toNat % 4 * 16 + b.toNat / 16) ::
        symbol (b.toNat % 16 * 4 + c.toNat / 64) :: symbol (c.toNat % 64) :: rest) =
      (decodeFrom .start rest).map ([a, b, c] ++ ·) := by
  have ha := a.toNat_lt
  have hb := b.toNat_lt
  have hc := c.toNat_lt
  have hw : ((a.toNat * 256 + b.toNat) * 4 + c.toNat / 64) * 64 + c.toNat % 64 =
      (a.toNat * 256 + b.toNat) * 256 + c.toNat := by omega
  rw [decode_three a b _ _ (by omega), decodeFrom, classify_symbol (by omega)]
  simp only [Phase.advance, hw, Option.bind_eq_bind, Option.bind_some]
  rw [ofNat_eq (a := a) (by omega), ofNat_eq (a := b) (by omega), ofNat_eq (a := c) (by omega)]
  cases decodeFrom .start rest <;> rfl

theorem decode_end_two {n : Nat} (h : n < 16) :
    decodeFrom (.two (a.toNat * 16 + n)) [] = some [a] := by
  have hbyte : UInt8.ofNat ((a.toNat * 16 + n) / 16) = a := by
    have ha := a.toNat_lt
    exact ofNat_eq (by omega)
  simp [decodeFrom, Phase.finish, hbyte]

theorem decode_end_three {n : Nat} (h : n < 4) :
    decodeFrom (.three ((a.toNat * 256 + b.toNat) * 4 + n)) [] = some [a, b] := by
  have ha := a.toNat_lt
  have hb := b.toNat_lt
  have hfst : UInt8.ofNat (((a.toNat * 256 + b.toNat) * 4 + n) / 1024) = a := ofNat_eq (by omega)
  have hsnd : UInt8.ofNat (((a.toNat * 256 + b.toNat) * 4 + n) / 4) = b := ofNat_eq (by omega)
  simp [decodeFrom, Phase.finish, hfst, hsnd]

theorem decode_padded_two : decodeFrom (.two (a.toNat * 16)) ['='] = none ∧
    decodeFrom (.two (a.toNat * 16)) ['=', '='] = some [a] := by
  have hpad : classify '=' = .equals := rfl
  simp [decodeFrom, Phase.finish, Phase.advance, hpad]

theorem decode_padded_three :
    decodeFrom (.three ((a.toNat * 256 + b.toNat) * 4)) ['='] = some [a, b] := by
  have hpad : classify '=' = .equals := rfl
  have hfst : UInt8.ofNat ((a.toNat * 256 + b.toNat) * 4 / 1024) = a := by
    have ha := a.toNat_lt
    have hb := b.toNat_lt
    exact ofNat_eq (by omega)
  simp [decodeFrom, Phase.finish, Phase.advance, hpad, hfst]

/-- What the first `j` characters of an encoding stand for. -/
theorem decode_take (bs : Bytes) {j : Nat} (hj : j ≤ (encode bs).length) :
    decode ((encode bs).take j) =
      if j % 4 = 1 ∨ j % 4 = 3 ∧ bs.length < 3 * j / 4 then none
      else some (bs.take (3 * j / 4)) := by
  rw [decode]
  induction bs using encode.induct generalizing j with
  | case1 =>
    obtain rfl : j = 0 := by simpa [encode] using hj
    simp [encode, decodeFrom, Phase.finish]
  | case2 a =>
    have htwo := fun t => decode_two a t 0 (by omega)
    have hend := decode_end_two a (n := 0) (by omega)
    simp only [Nat.add_zero] at htwo hend
    match j, hj with
    | 0, _ => simp [decodeFrom, Phase.finish]
    | 1, _ => simp [encode, decode_one, decodeFrom, Phase.finish]
    | 2, _ => simp [encode, htwo, hend]
    | 3, _ => simp [encode, htwo, decode_padded_two]
    | 4, _ => simp [encode, htwo, decode_padded_two]
    | j + 5, hj => simp [encode] at hj
  | case3 a b =>
    have hthree := fun t => decode_three a b t 0 (by omega)
    have hend := decode_end_three a b (n := 0) (by omega)
    have hb : b.toNat / 16 < 16 := by
      have := b.toNat_lt
      omega
    simp only [Nat.add_zero] at hthree hend
    match j, hj with
    | 0, _ => simp [decodeFrom, Phase.finish]
    | 1, _ => simp [encode, decode_one, decodeFrom, Phase.finish]
    | 2, _ => simp [encode, decode_two a [] _ hb, decode_end_two a hb]
    | 3, _ => simp [encode, hthree, hend]
    | 4, _ => simp [encode, hthree, decode_padded_three]
    | j + 5, hj => simp [encode] at hj
  | case4 a b c rest ih =>
    have hb : b.toNat / 16 < 16 := by
      have := b.toNat_lt
      omega
    have hc : c.toNat / 64 < 4 := by
      have := c.toNat_lt
      omega
    match j, hj with
    | 0, _ => simp [decodeFrom, Phase.finish]
    | 1, _ => simp [encode, decode_one, decodeFrom, Phase.finish]
    | 2, _ => simp [encode, decode_two a [] _ hb, decode_end_two a hb]
    | 3, _ => simp [encode, decode_three a b [] _ hc, decode_end_three a b hc]
    | j + 4, hj =>
      have hj' : j ≤ (encode rest).length := by simpa [encode] using hj
      have hdiv : 3 * (j + 4) / 4 = 3 * j / 4 + 3 := by omega
      have hmod : (j + 4) % 4 = j % 4 := by omega
      simp only [encode, List.take_succ_cons, decode_group, ih hj', hdiv, hmod, List.length_cons]
      split_ifs <;> first | rfl | omega

theorem length_encode (bs : Bytes) : (encode bs).length = 4 * ((bs.length + 2) / 3) := by
  induction bs using encode.induct with
  | case1 | case2 | case3 => simp [encode]
  | case4 a b c rest ih =>
    simp only [encode, List.length_cons, ih]
    omega

theorem decode_encode (bs : Bytes) : decode (encode bs) = some bs := by
  have htake := decode_take bs (Nat.le_refl (encode bs).length)
  rw [List.take_length] at htake
  rw [htake, if_neg, List.take_of_length_le] <;> rw [length_encode] <;> omega

theorem symbol_ne_equals {n : Nat} (h : n < 64) : symbol n ≠ '=' := by
  have hall : ∀ i : Fin 64, symbol i ≠ '=' := by decide
  exact hall ⟨n, h⟩

/-- A group of data is read by itself, whatever follows it. -/
theorem decodeStrict_group {i j k l : Nat} (hi : i < 64) (hj : j < 64) (hk : k < 64) (hl : l < 64) :
    decodeStrict (symbol i :: symbol j :: symbol k :: symbol l :: rest) =
      (decodeStrict rest).map ([UInt8.ofNat ((((i * 64 + j) * 64 + k) * 64 + l) / 65536),
        UInt8.ofNat ((((i * 64 + j) * 64 + k) * 64 + l) / 256),
        UInt8.ofNat (((i * 64 + j) * 64 + k) * 64 + l)] ++ ·) := by
  have hend := symbol_ne_equals hl
  rw [decodeStrict]
  · rw [classify_symbol hi, classify_symbol hj, classify_symbol hk, classify_symbol hl]
  · exact fun _ hcontra _ => hend hcontra
  · exact fun hcontra _ => hend hcontra

theorem decodeStrict_encode (bs : Bytes) : decodeStrict (encode bs) = some bs := by
  induction bs using encode.induct with
  | case1 => rfl
  | case2 a =>
    have ha := a.toNat_lt
    have hbyte : UInt8.ofNat ((a.toNat / 4 * 64 + a.toNat % 4 * 16) / 16) = a := ofNat_eq (by omega)
    rw [encode, decodeStrict, classify_symbol (by omega), classify_symbol (by omega)]
    exact congrArg (fun byte => some [byte]) hbyte
  | case3 a b =>
    have ha := a.toNat_lt
    have hb := b.toNat_lt
    have hfst : UInt8.ofNat (((a.toNat / 4 * 64 + (a.toNat % 4 * 16 + b.toNat / 16)) * 64 +
        b.toNat % 16 * 4) / 1024) = a := ofNat_eq (by omega)
    have hsnd : UInt8.ofNat (((a.toNat / 4 * 64 + (a.toNat % 4 * 16 + b.toNat / 16)) * 64 +
        b.toNat % 16 * 4) / 4) = b := ofNat_eq (by omega)
    rw [encode, decodeStrict, classify_symbol (by omega), classify_symbol (by omega),
      classify_symbol (by omega)]
    · change some [_, _] = some [a, b]
      rw [hfst, hsnd]
    · exact symbol_ne_equals (by omega)
  | case4 a b c rest ih =>
    have ha := a.toNat_lt
    have hb := b.toNat_lt
    have hc := c.toNat_lt
    rw [encode, decodeStrict_group _ (by omega) (by omega) (by omega) (by omega), ih]
    rw [ofNat_eq (a := a) (by omega), ofNat_eq (a := b) (by omega), ofNat_eq (a := c) (by omega)]
    rfl

theorem encode_ascii (bs : Bytes) : ∀ c ∈ encode bs, 43 ≤ c.toNat ∧ c.toNat < 128 := by
  have hpad : 43 ≤ '='.toNat ∧ '='.toNat < 128 := by decide
  induction bs using encode.induct with
  | case1 => simp [encode]
  | case2 a =>
    have ha := a.toNat_lt
    simp only [encode, List.forall_mem_cons]
    exact ⟨symbol_ascii (by omega), symbol_ascii (by omega), hpad, hpad, by simp⟩
  | case3 a b =>
    have ha := a.toNat_lt
    have hb := b.toNat_lt
    simp only [encode, List.forall_mem_cons]
    exact ⟨symbol_ascii (by omega), symbol_ascii (by omega), symbol_ascii (by omega), hpad, by simp⟩
  | case4 a b c rest ih =>
    have ha := a.toNat_lt
    have hb := b.toNat_lt
    have hc := c.toNat_lt
    simp only [encode, List.forall_mem_cons]
    exact ⟨symbol_ascii (by omega), symbol_ascii (by omega), symbol_ascii (by omega),
      symbol_ascii (by omega), ih⟩

end OpenAdb.Lib.Base64
