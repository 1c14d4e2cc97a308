import OpenAdb.Shizuku.Request

namespace OpenAdb.Shizuku.StoredRequest

open OpenAdb.Lib OpenAdb.Lib.PyText OpenAdb.Lib.Encoding OpenAdb.Lib.JavaText
open OpenAdb.Shizuku.Request OpenAdb.Shizuku.Request.Service

/-- A text cut short ends inside one of its lines or right before its line end. -/
theorem take_unlines {lines : List Text} {n : Nat} (h : n < (unlines lines).length) :
    ∃ done line rest j, lines = done ++ line :: rest ∧ j ≤ line.length ∧
      n = (unlines done).length + j ∧ (unlines lines).take n = unlines done ++ line.take j := by
  induction lines generalizing n with
  | nil => exact absurd h (by simp [unlines])
  | cons line lines ih =>
    have hcons : unlines (line :: lines) = (line ++ ['\n']) ++ unlines lines := by simp [unlines]
    by_cases hn : n ≤ line.length
    · refine ⟨[], line, lines, n, rfl, hn, by simp [unlines], ?_⟩
      rw [hcons, List.append_assoc, List.take_append_of_le_length hn]
      rfl
    · have hlen : (line ++ ['\n']).length = line.length + 1 := by simp
      have hn' : n - (line.length + 1) < (unlines lines).length := by
        rw [hcons, List.length_append, hlen] at h
        omega
      obtain ⟨done, last, rest, j, hlines, hj, hoffset, htake⟩ := ih hn'
      refine ⟨line :: done, last, rest, j, by rw [hlines, List.cons_append], hj, ?_, ?_⟩
      · simp only [unlines, List.flatMap_cons, List.length_append, hlen] at hoffset ⊢
        omega
      · have hsplit : n = (line ++ ['\n']).length + (n - (line.length + 1)) := by omega
        rw [hcons, hsplit, List.take_length_add_append, htake]
        simp [unlines]

def skipLines : Nat → Text → Option Text
  | 0, reader => some reader
  | n + 1, reader => do
    let (_, reader) ← readLine reader
    skipLines n reader

theorem skipLines_short {done : List Text} {part : Text}
    (hdone : ∀ line ∈ done, ∀ c ∈ line, inLine c = true) (hpart : ∀ c ∈ part, inLine c = true)
    {n : Nat} (hn : done.length + 2 ≤ n) : skipLines n (unlines done ++ part) = none := by
  induction done generalizing n with
  | nil =>
    obtain ⟨n, rfl⟩ : ∃ m, n = m + 2 := ⟨n - 2, by simp at hn; omega⟩
    by_cases hne : part = []
    · simp [hne, unlines, skipLines, readLine]
    · have hlast : unlines [] ++ part = part := rfl
      rw [hlast, skipLines, readLine_last hne hpart]
      rfl
  | cons line done ih =>
    obtain ⟨n, rfl⟩ : ∃ m, n = m + 1 := ⟨n - 1, by simp at hn; omega⟩
    have hline := hdone line List.mem_cons_self
    rw [skipLines, readLine_unlines _ _ hline]
    exact ih (fun l hl => hdone l (List.mem_cons_of_mem line hl)) (by simp at hn; omega)

theorem skipLines_of_readArguments {n : Nat} {reader : Text} {argv : List Text} {rest : Text}
    (h : readArguments n reader = some (argv, rest)) : skipLines n reader = some rest := by
  induction n generalizing reader argv with
  | zero =>
    simp only [readArguments, Option.some.injEq, Prod.mk.injEq] at h
    rw [skipLines, h.2]
  | succ n ih =>
    simp only [readArguments, Option.bind_eq_bind, Option.bind_eq_some_iff] at h
    obtain ⟨⟨line, reader'⟩, hline, argument, -, ⟨argv', rest'⟩, hargv, hpure⟩ := h
    obtain ⟨-, rfl⟩ := Prod.mk.inj (Option.some.inj hpure)
    rw [skipLines, hline]
    exact ih hargv

theorem skipLines_of_parseRequest {reader : Text} {request : CommandRequest}
    (h : parseRequest reader = some request) : ∃ rest, skipLines 4 reader = some rest := by
  simp only [parseRequest, Option.bind_eq_bind, Option.bind_eq_some_iff] at h
  obtain ⟨⟨_, r₁⟩, h₁, _, -, ⟨_, r₂⟩, h₂, _, -, _, -, ⟨_, r₃⟩, h₃, count, -, _, hcount,
    ⟨argv, r₄⟩, h₄, -⟩ := h
  obtain ⟨n, hn⟩ : ∃ n, count.toNat = n + 1 := by
    simp only [guard] at hcount
    split at hcount
    next hrange => exact ⟨count.toNat - 1, by omega⟩
    next => cases hcount
  rw [hn] at h₄
  have hskip := skipLines_of_readArguments h₄
  simp only [skipLines, Option.bind_eq_bind, Option.bind_eq_some_iff] at hskip ⊢
  obtain ⟨⟨_, r₅⟩, h₅, -⟩ := hskip
  exact ⟨r₅, ⟨_, r₁⟩, h₁, ⟨_, r₂⟩, h₂, ⟨_, r₃⟩, h₃, ⟨_, r₅⟩, h₅, rfl⟩

variable {arguments : List Text} {expectedUid : Nat}

/-- A cut before the last line leaves too few lines. -/
theorem parseRequest_early (haccepted : Accepted arguments expectedUid) {done rest : List Text}
    {line : Text} (hlines : requestLines arguments expectedUid = done ++ line :: rest)
    (hrest : rest ≠ []) (j : Nat) : parseRequest (unlines done ++ line.take j) = none := by
  have hplain := plain_requestLines arguments expectedUid
  rw [hlines] at hplain
  have hdone : ∀ l ∈ done, ∀ c ∈ l, inLine c = true := fun l hl c hc =>
    inLine_of_plain (hplain l (List.mem_append_left _ hl) c hc)
  have hpart : ∀ c ∈ line.take j, inLine c = true := fun c hc =>
    inLine_of_plain (hplain line (by simp) c (List.mem_of_mem_take hc))
  have hlength := congrArg List.length hlines
  have hrest' := List.length_pos_iff.mpr hrest
  simp only [requestLines, List.length_cons, List.length_map, List.length_append] at hlength
  by_cases hshort : done.length ≤ 2
  · have hnone := skipLines_short hdone hpart (n := 4) (by omega)
    cases hparse : parseRequest (unlines done ++ line.take j) with
    | none => rfl
    | some request =>
      obtain ⟨r, hr⟩ := skipLines_of_parseRequest hparse
      rw [hr] at hnone
      cases hnone
  · -- The three opening lines are whole, so the count of arguments is known.
    have htake : done.take 3 = (requestLines arguments expectedUid).take 3 := by
      rw [hlines, List.take_append_of_le_length (by omega)]
    have hsplit : unlines done ++ line.take j =
        unlines ((requestLines arguments expectedUid).take 3) ++
          (unlines (done.drop 3) ++ line.take j) := by
      rw [← htake, ← List.append_assoc, unlines, unlines, unlines, ← List.flatMap_append,
        List.take_append_drop]
    have hdrop : ∀ l ∈ done.drop 3, ∀ c ∈ l, inLine c = true :=
      fun l hl => hdone l (List.mem_of_mem_drop hl)
    have hnone := skipLines_short hdrop hpart (n := arguments.length) (by
      rw [List.length_drop]
      omega)
    rw [hsplit, parseRequest_opening haccepted.uid haccepted.nonempty haccepted.count]
    cases hread : readArguments arguments.length (unlines (done.drop 3) ++ line.take j) with
    | none => rfl
    | some r =>
      rw [skipLines_of_readArguments hread] at hnone
      cases hnone

theorem afterPrefix_take (start s : Text) (j : Nat) :
    afterPrefix start ((start ++ s).take j) =
      if j < start.length then none else some (s.take (j - start.length)) := by
  by_cases hj : j < start.length
  · rw [if_pos hj]
    apply afterPrefix_short
    simp only [List.length_take, List.length_append]
    omega
  · have hsplit : j = start.length + (j - start.length) := by omega
    rw [if_neg hj, hsplit, List.take_length_add_append, afterPrefix_append, Nat.add_sub_cancel_left]

theorem decodeArgument_early (argument : Text) {j : Nat} (hj : j < 8) :
    decodeArgument ((argumentLine argument).take j) = none := by
  have hlength : "arg_b64=".toList.length = 8 := by decide
  have hafter := afterPrefix_take "arg_b64=".toList (Base64.encode (utf8 argument)) j
  rw [hlength, if_pos hj] at hafter
  unfold decodeArgument argumentLine
  rw [hafter]
  rfl

/-- What the service makes of the first `j` characters of an argument's encoding. -/
theorem decodeArgument_cut {argument : Text} (hnul : '\x00' ∉ argument)
    (hbytes : (utf8 argument).length ≤ Service.maxArgumentBytes) {j : Nat}
    (hj : j ≤ (Base64.encode (utf8 argument)).length) :
    decodeArgument ((argumentLine argument).take (8 + j)) =
      if j % 4 = 1 ∨ j % 4 = 3 ∧ (utf8 argument).length < 3 * j / 4 then none
      else strictUtf8 ((utf8 argument).take (3 * j / 4)) := by
  have hafter : afterPrefix "arg_b64=".toList ((argumentLine argument).take (8 + j)) =
      some ((Base64.encode (utf8 argument)).take j) := by
    have hlength : "arg_b64=".toList.length = 8 := by decide
    have htake := afterPrefix_take "arg_b64=".toList (Base64.encode (utf8 argument)) (8 + j)
    rwa [hlength, if_neg (by omega), Nat.add_sub_cancel_left] at htake
  have hsize : ((utf8 argument).take (3 * j / 4)).length ≤ Service.maxArgumentBytes := by
    rw [List.length_take]
    omega
  unfold decodeArgument
  simp only [hafter, Option.bind_eq_bind, Option.bind_some, Base64.decode_take _ hj]
  split_ifs with hbad
  · rfl
  · simp only [Option.bind_some, guard, if_pos hsize]
    cases hstrict : strictUtf8 ((utf8 argument).take (3 * j / 4)) with
    | none => rfl
    | some s =>
      have hs : '\x00' ∉ s := by
        intro hmem
        have hzero : (0 : UInt8) ∈ utf8 s := List.mem_flatMap.mpr ⟨'\x00', hmem, by decide⟩
        rw [utf8_strictUtf8 hstrict] at hzero
        exact hnul (ascii_mem_utf8 (by decide) (List.mem_of_mem_take hzero))
      simp only [Option.bind_some, if_pos hs]
      rfl

theorem parseRequest_last {init : List Text} {a : Text}
    (haccepted : Accepted (init ++ [a]) expectedUid) (j : Nat) :
    parseRequest (unlines (requestLines (init ++ [a]) expectedUid).dropLast ++
        (argumentLine a).take j) =
      (decodeArgument ((argumentLine a).take j)).map (fun x => ⟨expectedUid, init ++ [x]⟩) := by
  have hsplit : unlines (requestLines (init ++ [a]) expectedUid).dropLast =
      unlines ((requestLines (init ++ [a]) expectedUid).take 3) ++
        unlines (init.map argumentLine) := by
    have hconcat : requestLines (init ++ [a]) expectedUid =
        ((requestLines (init ++ [a]) expectedUid).take 3 ++ init.map argumentLine) ++
          [argumentLine a] := by
      simp [requestLines]
    have hdrop := congrArg List.dropLast hconcat
    rw [List.dropLast_concat] at hdrop
    rw [hdrop, unlines, List.flatMap_append]
    rfl
  have hinit : ∀ b ∈ init, '\x00' ∉ b ∧ (utf8 b).length ≤ Service.maxArgumentBytes := fun b hb =>
    ⟨haccepted.noNul b (List.mem_append_left _ hb),
      haccepted.argumentBytes b (List.mem_append_left _ hb)⟩
  have hcount : (init ++ [a]).length = init.length + 1 := by simp
  rw [hsplit, List.append_assoc, parseRequest_opening haccepted.uid haccepted.nonempty
    haccepted.count, hcount, readArguments_unlines hinit]
  have hpart : ∀ c ∈ (argumentLine a).take j, inLine c = true := fun c hc =>
    inLine_of_plain (plain_argumentLine a c (List.mem_of_mem_take hc))
  by_cases hne : (argumentLine a).take j = []
  · have hnone : decodeArgument [] = none := rfl
    rw [hne, hnone]
    rfl
  · rw [readArguments, readLine_last hne hpart]
    simp only [Option.bind_eq_bind, Option.bind_some]
    cases decodeArgument ((argumentLine a).take j) with
    | none => rfl
    | some x => simp [readArguments, readLine]

/-- A cut inside the last argument that leaves whole bytes and whole characters of it. -/
def DamagingCut (arguments : List Text) (expectedUid n : Nat) : Prop :=
  ∃ argument j, arguments.getLast? = some argument ∧
    n + (Base64.encode (utf8 argument)).length + 1 =
      (requestPayload arguments expectedUid).length + j ∧
    j % 4 ≠ 1 ∧ 3 * j / 4 < (utf8 argument).length ∧
    (strictUtf8 ((utf8 argument).take (3 * j / 4))).isSome

theorem length_requestPayload (arguments : List Text) (expectedUid : Nat) :
    (requestPayload arguments expectedUid).length = (requestText arguments expectedUid).length := by
  rw [requestPayload, utf8_ascii (requestText_ascii arguments expectedUid), List.length_map]

theorem length_unlines_append (first second : List Text) :
    (unlines (first ++ second)).length = (unlines first).length + (unlines second).length := by
  rw [unlines, List.flatMap_append, List.length_append]
  rfl

theorem length_argumentLine (argument : Text) :
    (argumentLine argument).length = 8 + (Base64.encode (utf8 argument)).length := by
  have hlead : "arg_b64=".toList.length = 8 := by decide
  unfold argumentLine
  simp only [List.length_append, hlead]

theorem requestLines_concat (init : List Text) (a : Text) (expectedUid : Nat) :
    requestLines (init ++ [a]) expectedUid =
      (requestLines (init ++ [a]) expectedUid).dropLast ++ [argumentLine a] := by
  have hconcat : requestLines (init ++ [a]) expectedUid =
      ((requestLines (init ++ [a]) expectedUid).take 3 ++ init.map argumentLine) ++
        [argumentLine a] := by
    simp [requestLines]
  rw [hconcat, List.dropLast_concat]

theorem length_requestText_concat (init : List Text) (a : Text) (expectedUid : Nat) :
    (requestText (init ++ [a]) expectedUid).length =
      (unlines (requestLines (init ++ [a]) expectedUid).dropLast).length +
        (8 + (Base64.encode (utf8 a)).length + 1) := by
  have hline : (unlines [argumentLine a]).length = 8 + (Base64.encode (utf8 a)).length + 1 := by
    simp only [unlines, List.flatMap_cons, List.flatMap_nil, List.append_nil, List.length_append,
      length_argumentLine, List.length_singleton]
  rw [requestText_eq]
  conv_lhs => rw [requestLines_concat, length_unlines_append, hline]

theorem damagingCut_concat (init : List Text) (a : Text) (expectedUid j : Nat) :
    DamagingCut (init ++ [a]) expectedUid
        ((unlines (requestLines (init ++ [a]) expectedUid).dropLast).length + j) ↔
      ∃ i, j = 8 + i ∧ i % 4 ≠ 1 ∧ 3 * i / 4 < (utf8 a).length ∧
        (strictUtf8 ((utf8 a).take (3 * i / 4))).isSome := by
  have hlength := length_requestText_concat init a expectedUid
  rw [← length_requestPayload] at hlength
  constructor
  · intro h
    obtain ⟨b, i, hb, hi, hrest⟩ := h
    obtain rfl : a = b := by simpa using hb
    exact ⟨i, by omega, hrest⟩
  · intro h
    obtain ⟨i, rfl, hrest⟩ := h
    exact ⟨a, i, by simp, by omega, hrest⟩

theorem strictUtf8_take_eq (a : Text) (k : Nat) :
    strictUtf8 ((utf8 a).take k) = some a ↔ (utf8 a).length ≤ k := by
  constructor
  · intro h
    have hlength := congrArg List.length (utf8_strictUtf8 h)
    rw [List.length_take] at hlength
    omega
  · intro h
    rw [List.take_of_length_le h, strictUtf8_utf8]

/-- A cut request is rejected or read as it was, except at a damaging cut. -/
theorem parseRequest_cut (haccepted : Accepted arguments expectedUid) {n : Nat}
    (hn : n < (requestText arguments expectedUid).length) :
    (parseRequest ((requestText arguments expectedUid).take n) = none ∨
      parseRequest ((requestText arguments expectedUid).take n) = some ⟨expectedUid, arguments⟩) ↔
      ¬DamagingCut arguments expectedUid n := by
  obtain ⟨init, a, rfl⟩ : ∃ init a, arguments = init ++ [a] :=
    ⟨_, _, (List.dropLast_append_getLast haccepted.nonempty).symm⟩
  have hlength := length_requestText_concat init a expectedUid
  have hpayload := length_requestPayload (init ++ [a]) expectedUid
  have hcut := hn
  rw [requestText_eq] at hcut
  obtain ⟨done, line, rest, j, hlines, hj, hoffset, htake⟩ := take_unlines hcut
  rw [requestText_eq, htake]
  by_cases hrest : rest = []
  · subst hrest
    have hconcat := (requestLines_concat init a expectedUid).symm.trans hlines
    obtain ⟨hdone, hline⟩ := List.append_inj' hconcat rfl
    rw [← List.singleton_inj.mp hline] at hj ⊢
    rw [← hdone, parseRequest_last haccepted]
    rw [← hdone] at hoffset
    rw [length_argumentLine] at hj
    rw [hoffset, damagingCut_concat]
    by_cases hearly : j < 8
    · rw [decodeArgument_early a hearly]
      refine iff_of_true (.inl rfl) ?_
      intro hbad
      obtain ⟨i, hi, -⟩ := hbad
      omega
    · obtain ⟨i, rfl⟩ : ∃ i, j = 8 + i := ⟨j - 8, by omega⟩
      rw [decodeArgument_cut (haccepted.noNul a (by simp)) (haccepted.argumentBytes a (by simp))
        (by omega)]
      split_ifs with hillegal
      · refine iff_of_true (.inl rfl) ?_
        intro hbad
        obtain ⟨k, hk, hmod, hshort, -⟩ := hbad
        omega
      · cases hstrict : strictUtf8 ((utf8 a).take (3 * i / 4)) with
        | none =>
          refine iff_of_true (.inl rfl) ?_
          intro hbad
          obtain ⟨k, hk, -, -, hsome⟩ := hbad
          obtain rfl : i = k := by omega
          rw [hstrict] at hsome
          cases hsome
        | some s =>
          have hsame := strictUtf8_take_eq a (3 * i / 4)
          rw [hstrict, Option.some.injEq] at hsame
          have hread : ((some s).map fun x => (⟨expectedUid, init ++ [x]⟩ : CommandRequest)) = none ∨
              ((some s).map fun x => (⟨expectedUid, init ++ [x]⟩ : CommandRequest)) =
                some ⟨expectedUid, init ++ [a]⟩ ↔ s = a := by simp
          rw [hread, hsame]
          constructor
          · intro hlong hbad
            obtain ⟨k, hk, -, hshort, -⟩ := hbad
            omega
          · intro hgood
            by_contra hshort
            exact hgood ⟨i, rfl, by omega, by omega, by rw [hstrict]; rfl⟩
  · refine iff_of_true (.inl (parseRequest_early haccepted hlines hrest j)) ?_
    intro hbad
    obtain ⟨b, i, hb, hi, -⟩ := hbad
    obtain rfl : a = b := by simpa using hb
    obtain ⟨front, last, rfl⟩ : ∃ front last, rest = front ++ [last] :=
      ⟨_, _, (List.dropLast_append_getLast hrest).symm⟩
    have hdone : (requestLines (init ++ [a]) expectedUid).dropLast = done ++ line :: front := by
      rw [hlines, ← List.cons_append, ← List.append_assoc, List.dropLast_concat]
    have hline : (unlines (line :: front)).length = line.length + 1 + (unlines front).length := by
      simp only [unlines, List.flatMap_cons, List.length_append, List.length_singleton]
    rw [hdone, length_unlines_append, hline] at hlength
    omega

end OpenAdb.Shizuku.StoredRequest
