import OpenAdb.Signing.Authenticode

namespace OpenAdb.Signing.PermittedChanges

open OpenAdb.Lib.ByteFields OpenAdb.Signing.Authenticode

variable {α β : Type} {c : Prop} {e : AuthenticodePayloadError} {data bs : Bytes} {n offset width value : Nat}

theorem bind_eq_ok {x : Checked α} {f : α → Checked β} {b : β} :
    (x >>= f) = .ok b ↔ ∃ a, x = .ok a ∧ f a = .ok b := by
  cases x with
  | error e =>
    constructor
    · intro h
      cases h
    · rintro ⟨a, h, -⟩
      cases h
  | ok a =>
    constructor
    · intro h
      exact ⟨a, rfl, h⟩
    · rintro ⟨a', h, h'⟩
      cases h
      exact h'

theorem check_eq_ok [Decidable c] {u : Unit} : check c e = .ok u ↔ c := by
  rw [check]
  by_cases h : c
  · rw [if_pos h]
    exact iff_of_true rfl h
  · rw [if_neg h]
    exact iff_of_false (fun heq => by cases heq) h

/-- What follows a check goes on just when this holds. -/
theorem check_bind [Decidable c] {f : Unit → Checked β} {b : β} :
    (check c e >>= f) = .ok b ↔ c ∧ f () = .ok b := by
  rw [bind_eq_ok]
  constructor
  · rintro ⟨u, h, h'⟩
    exact ⟨check_eq_ok.mp h, h'⟩
  · rintro ⟨h, h'⟩
    exact ⟨(), check_eq_ok.mpr h, h'⟩

theorem pure_eq_ok {a b : α} : (pure a : Checked α) = .ok b ↔ a = b :=
  ⟨fun h => Except.ok.inj h, fun h => congrArg _ h⟩

theorem unpack_eq_ok : unpack width data offset = .ok value ↔ HasField data offset width value := by
  rw [unpack, check_bind, pure_eq_ok, HasField]

theorem directoryOffsets_eq_ok {magic : Nat} {offsets : Nat × Nat} :
    directoryOffsets magic = .ok offsets ↔
      magic = 0x10B ∧ offsets = (92, 96) ∨ magic = 0x20B ∧ offsets = (108, 112) := by
  rw [directoryOffsets]
  split
  · next h =>
    constructor
    · intro heq
      cases heq
      exact .inl ⟨h, rfl⟩
    · rintro (⟨-, rfl⟩ | ⟨h', -⟩)
      · rfl
      · exact absurd (h.symm.trans h') (by decide)
  · split
    · next h =>
      constructor
      · intro heq
        cases heq
        exact .inr ⟨h, rfl⟩
      · rintro (⟨h', -⟩ | ⟨-, rfl⟩)
        · exact absurd (h.symm.trans h') (by decide)
        · rfl
    · next h h' =>
      constructor
      · intro heq
        cases heq
      · rintro (⟨heq, -⟩ | ⟨heq, -⟩)
        · exact absurd heq h
        · exact absurd heq h'

theorem parseLayout_eq_ok {layout : PeSecurityLayout} : parseLayout data = .ok layout ↔
    PeImage data layout.checksumOffset layout.securityDirectoryOffset ∧
      HasField data layout.securityDirectoryOffset 4 layout.certificateOffset ∧
      HasField data (layout.securityDirectoryOffset + 4) 4 layout.certificateSize := by
  obtain ⟨checksum, directory, certificateOffset, certificateSize⟩ := layout
  simp only [parseLayout, u32, u16, bind_eq_ok, check_eq_ok, exists_const, unpack_eq_ok, directoryOffsets_eq_ok,
    pure_eq_ok, PeSecurityLayout.mk.injEq, PeImage]
  constructor
  · rintro ⟨⟨hlength, hmz⟩, pe, hpe, ⟨hlow, -⟩, hsignature, size, hsize, hend, magic, hmagic, offsets, hoffsets,
      count, hcount, hmany, hdirectory, certificate, hcertificate, csize, hcsize, rfl, rfl, rfl, rfl⟩
    refine ⟨⟨hlength, hmz, pe, size, count, hpe, hlow, hsignature, hsize, hend, rfl, hdirectory, hmany, ?_⟩,
      hcertificate, hcsize⟩
    obtain ⟨rfl, rfl⟩ | ⟨rfl, rfl⟩ := hoffsets
    · exact .inl ⟨hmagic, hcount, rfl⟩
    · exact .inr ⟨hmagic, hcount, rfl⟩
  · rintro ⟨⟨hlength, hmz, pe, size, count, hpe, hlow, hsignature, hsize, hend, rfl, hdirectory, hmany, hmagic⟩,
      hcertificate, hcsize⟩
    obtain ⟨hmagic, hcount, rfl⟩ | ⟨hmagic, hcount, rfl⟩ := hmagic
    · exact ⟨⟨hlength, hmz⟩, pe, hpe, ⟨hlow, by omega⟩, hsignature, size, hsize, hend, _, hmagic, _,
        .inl ⟨rfl, rfl⟩, count, hcount, hmany, hdirectory, _, hcertificate, _, hcsize, rfl, rfl, rfl, rfl⟩
    · exact ⟨⟨hlength, hmz⟩, pe, hpe, ⟨hlow, by omega⟩, hsignature, size, hsize, hend, _, hmagic, _,
        .inr ⟨rfl, rfl⟩, count, hcount, hmany, hdirectory, _, hcertificate, _, hcsize, rfl, rfl, rfl, rfl⟩

theorem normalizedPrefix_eq_ok {layout : PeSecurityLayout} {normalized : Bytes} :
    normalizedPrefix data layout n = .ok normalized ↔ n ≤ data.length ∧ layout.checksumOffset + 4 ≤ n ∧
      layout.securityDirectoryOffset + 8 ≤ n ∧
      blank layout.securityDirectoryOffset 8 (blank layout.checksumOffset 4 (data.take n)) = normalized := by
  simp only [normalizedPrefix, bind_eq_ok, check_eq_ok, exists_const, pure_eq_ok]

theorem blanks_eq_iff {checksum directory : Nat} {unsigned body : Bytes} (hlength : body.length = unsigned.length)
    (hchecksum : checksum + 4 ≤ unsigned.length) (hdirectory : directory + 8 ≤ unsigned.length) :
    blank directory 8 (blank checksum 4 unsigned) = blank directory 8 (blank checksum 4 body) ↔
      SameImage checksum directory unsigned body := by
  have hget : ∀ (bs : Bytes) (i : Nat), bs.length = unsigned.length →
      (blank directory 8 (blank checksum 4 bs))[i]? = if directory ≤ i ∧ i < directory + 8 then some 0
        else if checksum ≤ i ∧ i < checksum + 4 then some 0 else bs[i]? := by
    intro bs i hbs
    rw [getElem?_blank (by rw [length_blank (by omega)]; omega), getElem?_blank (by omega)]
  constructor
  · intro h
    refine ⟨hlength, fun i hc hd => ?_⟩
    have hi := congrArg (fun bs : Bytes => bs[i]?) h
    beta_reduce at hi
    rw [hget unsigned i rfl, hget body i hlength, if_neg hd, if_neg hd, if_neg hc, if_neg hc] at hi
    exact hi.symm
  · rintro ⟨-, hsame⟩
    apply List.ext_getElem?
    intro i
    rw [hget unsigned i rfl, hget body i hlength]
    by_cases hd : directory ≤ i ∧ i < directory + 8
    · rw [if_pos hd, if_pos hd]
    · rw [if_neg hd, if_neg hd]
      by_cases hc : checksum ≤ i ∧ i < checksum + 4
      · rw [if_pos hc, if_pos hc]
      · rw [if_neg hc, if_neg hc, hsame i hc hd]

theorem longLength_eq_ok {sizes : Nat × Nat} {rest : Bytes} : longLength n rest = .ok sizes ↔
    (n ≠ 0 ∧ n ≤ 4 ∧ n ≤ rest.length) ∧ (rest.take n).head? ≠ some 0 ∧ 0x80 ≤ bigEndian (rest.take n) ∧
      (2 + n, bigEndian (rest.take n)) = sizes := by
  simp only [longLength, bind_eq_ok, check_eq_ok, exists_const, pure_eq_ok]

variable {first : UInt8} {rest content : Bytes}

theorem toNat_ofNat_of_lt (h : n < 256) : (UInt8.ofNat n).toNat = n := UInt8.toNat_ofNat_of_lt' h

/-- What is in front of a content that fits takes at most four octets after the first. -/
theorem length_le_of_prefix {lead : Bytes} (hlead : lead ≠ []) (h : lead ++ content <+: first :: rest) :
    content.length ≤ rest.length := by
  have := h.length_le
  have := List.length_pos_of_ne_nil hlead
  rw [List.length_append, List.length_cons] at *
  omega

theorem derLength_ne_nil : derLength n ≠ [] := by
  rw [derLength]
  split
  · exact List.cons_ne_nil _ _
  · exact List.cons_ne_nil _ _

theorem short_start (hfirst : first.toNat < 0x80) (hlt : rest.length < 256 ^ 4) :
    derLength content.length ++ content <+: first :: rest ↔ content.length = first.toNat ∧ content <+: rest := by
  constructor
  · intro h
    have hle := length_le_of_prefix derLength_ne_nil h
    rw [derLength] at h
    by_cases hshort : content.length < 0x80
    · rw [if_pos hshort, List.singleton_append, List.cons_prefix_cons] at h
      rw [← h.1, toNat_ofNat_of_lt (by omega)]
      exact ⟨rfl, h.2⟩
    · rw [if_neg hshort, List.cons_append, List.cons_prefix_cons] at h
      have hfew := length_octets_le (hle.trans_lt hlt)
      rw [← h.1, toNat_ofNat_of_lt (by omega)] at hfirst
      omega
  · rintro ⟨hlength, hlead⟩
    rw [derLength, if_pos (hlength ▸ hfirst), hlength, UInt8.ofNat_toNat, List.singleton_append,
      List.cons_prefix_cons]
    exact ⟨rfl, hlead⟩

theorem long_start (hfirst : ¬first.toNat < 0x80) (hlt : rest.length < 256 ^ 4) :
    derLength content.length ++ content <+: first :: rest ↔ 0x80 ≤ content.length ∧
      (octets content.length).length = first.toNat - 0x80 ∧ octets content.length ++ content <+: rest := by
  constructor
  · intro h
    have hle := length_le_of_prefix derLength_ne_nil h
    rw [derLength] at h
    by_cases hshort : content.length < 0x80
    · rw [if_pos hshort, List.singleton_append, List.cons_prefix_cons] at h
      rw [← h.1, toNat_ofNat_of_lt (by omega)] at hfirst
      exact absurd hshort hfirst
    · rw [if_neg hshort, List.cons_append, List.cons_prefix_cons] at h
      have hfew := length_octets_le (hle.trans_lt hlt)
      have hcount := toNat_ofNat_of_lt (n := 0x80 + (octets content.length).length) (by omega)
      rw [h.1] at hcount
      exact ⟨by omega, by omega, h.2⟩
  · rintro ⟨hlong, hcount, hlead⟩
    have hsame : 0x80 + (octets content.length).length = first.toNat := by omega
    rw [derLength, if_neg (by omega), hsame, UInt8.ofNat_toNat, List.cons_append, List.cons_prefix_cons]
    exact ⟨rfl, hlead⟩

theorem long_eq_ok (hfirst : ¬first.toNat < 0x80) (hlt : rest.length < 256 ^ 4) {sizes : Nat × Nat} :
    longLength (first.toNat - 0x80) rest = .ok sizes ∧ sizes.1 + sizes.2 ≤ rest.length + 2 ↔
      ∃ content, derLength content.length ++ content <+: first :: rest ∧
        sizes = (1 + (derLength content.length).length, content.length) := by
  rw [longLength_eq_ok]
  constructor
  · rintro ⟨⟨⟨hn, -, hle⟩, hhead, hlong, rfl⟩, hsize⟩
    dsimp only at hsize
    have hoctets := octets_bigEndian hhead
    have hlead : (octets (bigEndian (rest.take (first.toNat - 0x80)))).length = first.toNat - 0x80 := by
      rw [hoctets, List.length_take, Nat.min_eq_left hle]
    generalize hlength : bigEndian (rest.take (first.toNat - 0x80)) = length at *
    have hcontent : ((rest.drop (first.toNat - 0x80)).take length).length = length := by
      rw [List.length_take, List.length_drop]
      omega
    refine ⟨(rest.drop (first.toNat - 0x80)).take length, (long_start hfirst hlt).mpr ?_, ?_⟩
    · rw [hcontent]
      refine ⟨hlong, hlead, ?_⟩
      rw [hoctets]
      conv_rhs => rw [← List.take_append_drop (first.toNat - 0x80) rest]
      exact (List.prefix_append_right_inj _).mpr (List.take_prefix _ _)
    · have hheader : 2 + (first.toNat - 0x80) = 1 + (first.toNat - 0x80 + 1) := by omega
      rw [hcontent, derLength, if_neg (by omega), List.length_cons, hlead, hheader]
  · rintro ⟨content, hlead, rfl⟩
    have hle := length_le_of_prefix derLength_ne_nil hlead
    obtain ⟨hlong, hcount, hlead⟩ := (long_start hfirst hlt).mp hlead
    have hfew := length_octets_le (hle.trans_lt hlt)
    have htake : rest.take (first.toNat - 0x80) = octets content.length := by
      rw [← hcount]
      exact (List.prefix_iff_eq_take.mp ((List.prefix_append _ _).trans hlead)).symm
    obtain ⟨b, tail, hhead, hb⟩ := head_octets (n := content.length) (by omega)
    have hall := hlead.length_le
    rw [List.length_append] at hall
    rw [htake, bigEndian_octets, derLength, if_neg (by omega), List.length_cons, hcount]
    have hpos : (octets content.length).length ≠ 0 := by
      rw [hhead]
      exact Nat.succ_ne_zero _
    refine ⟨⟨⟨by omega, by omega, by omega⟩, ?_, hlong, ?_⟩, ?_⟩
    · rw [hhead, List.head?_cons]
      exact fun h => hb (Option.some.inj h)
    · have hheader : 2 + (first.toNat - 0x80) = 1 + (first.toNat - 0x80 + 1) := by omega
      rw [hheader]
    · dsimp only
      omega

theorem short_eq_ok (hfirst : first.toNat < 0x80) (hlt : rest.length < 256 ^ 4) {sizes : Nat × Nat} :
    (.ok (2, first.toNat) : Checked (Nat × Nat)) = .ok sizes ∧ sizes.1 + sizes.2 ≤ rest.length + 2 ↔
      ∃ content, derLength content.length ++ content <+: first :: rest ∧
        sizes = (1 + (derLength content.length).length, content.length) := by
  have hheader : (derLength first.toNat).length = 1 := by
    rw [derLength, if_pos hfirst]
    rfl
  constructor
  · rintro ⟨h, hsize⟩
    cases h
    have hcontent : (rest.take first.toNat).length = first.toNat := by
      rw [List.length_take]
      dsimp only at hsize
      omega
    refine ⟨rest.take first.toNat, (short_start hfirst hlt).mpr ⟨hcontent, List.take_prefix _ _⟩, ?_⟩
    rw [hcontent, hheader]
  · rintro ⟨content, hlead, rfl⟩
    obtain ⟨hlength, hcontent⟩ := (short_start hfirst hlt).mp hlead
    have := hcontent.length_le
    rw [hlength, hheader]
    exact ⟨rfl, by dsimp only; omega⟩

theorem sizes_iff (hlt : rest.length < 256 ^ 4) {sizes : Nat × Nat} :
    derSizes first rest = .ok sizes ∧ sizes.1 + sizes.2 ≤ rest.length + 2 ↔
      ∃ content, derLength content.length ++ content <+: first :: rest ∧
        sizes = (1 + (derLength content.length).length, content.length) := by
  rw [derSizes]
  by_cases hfirst : first.toNat < 0x80
  · rw [if_pos hfirst]
    exact short_eq_ok hfirst hlt
  · rw [if_neg hfirst]
    exact long_eq_ok hfirst hlt

theorem derSequence_ne {bs : Bytes} (h : DerSequence bs) : ∃ first rest, bs = 0x30 :: first :: rest := by
  obtain ⟨content, rfl⟩ := h
  rw [derLength]
  split
  · exact ⟨_, _, rfl⟩
  · exact ⟨_, _, rfl⟩

/-- The object that is read is the one that is there in canonical form. -/
theorem derObjectLength_eq_ok (hlt : data.length < 256 ^ 4) : derObjectLength data = .ok n ↔
    n ≤ data.length ∧ DerSequence (data.take n) := by
  unfold derObjectLength
  split
  · next tag first rest =>
    rw [List.length_cons, List.length_cons] at hlt
    have hrest : rest.length < 256 ^ 4 := by omega
    simp only [bind_eq_ok, check_eq_ok, exists_const, pure_eq_ok, List.length_cons]
    constructor
    · rintro ⟨rfl, sizes, hsizes, hsize, rfl⟩
      obtain ⟨content, hlead, rfl⟩ := (sizes_iff hrest).mp ⟨hsizes, hsize⟩
      refine ⟨hsize, content, ?_⟩
      have htotal : 1 + (derLength content.length).length + content.length =
          (derLength content.length ++ content).length + 1 := by
        rw [List.length_append]
        omega
      rw [htotal, List.take_succ_cons, ← List.prefix_iff_eq_take.mp hlead, List.cons_append]
    · rintro ⟨hn, content, hcontent⟩
      have hwhole : 0x30 :: (derLength content.length ++ content) <+: tag :: first :: rest := by
        rw [← List.cons_append, ← hcontent]
        exact List.take_prefix _ _
      have hlength : n = (derLength content.length ++ content).length + 1 := by
        have h := congrArg List.length hcontent
        rw [List.length_take, List.length_cons, List.length_cons, Nat.min_eq_left hn, List.cons_append,
          List.length_cons] at h
        exact h
      obtain ⟨htag, hlead⟩ := List.cons_prefix_cons.mp hwhole
      obtain ⟨hsizes, hsize⟩ := (sizes_iff hrest).mpr ⟨content, hlead, rfl⟩
      refine ⟨htag.symm, _, hsizes, hsize, ?_⟩
      rw [hlength, List.length_append]
      dsimp only
      omega
  · next hshort =>
    refine iff_of_false (fun h => by cases h) ?_
    rintro ⟨-, hder⟩
    obtain ⟨first, rest, hbytes⟩ := derSequence_ne hder
    obtain ⟨tail, htail⟩ := List.take_prefix n data
    rw [hbytes] at htail
    exact hshort _ _ _ htail.symm

example : derObjectLength [0x30, 0x02, 0xAA, 0xBB, 0x00] = .ok 4 := by decide

example : derObjectLength [0x30, 0x81, 0x02, 0xAA, 0xBB] = .error .derLengthNotCanonical := by decide +kernel

theorem slice_eq (signed : Bytes) (a n m : Nat) :
    (signed.take (a + n)).drop (a + m) = ((signed.drop a).drop m).take (n - m) := by
  rw [List.drop_take, List.drop_drop]
  congr 1
  omega

variable {signed : Bytes} {start size : Nat}

theorem checkCertificate_fields {u : Unit} : checkCertificate signed start (start + size) = .ok u ↔
    ∃ length der, HasField signed start 4 length ∧ HasField signed (start + 4) 2 0x0200 ∧
      HasField signed (start + 6) 2 0x0002 ∧ 8 < length ∧ align (start + length) = start + size ∧
      derObjectLength ((signed.take (start + length)).drop (start + 8)) = .ok der ∧
      align (start + 8 + der) = start + size ∧ start + 8 + der ≤ start + length ∧
      Zeros ((signed.take (start + size)).drop (start + 8 + der)) := by
  simp only [checkCertificate, u32, u16, bind_eq_ok, check_eq_ok, unpack_eq_ok, exists_const]
  constructor
  · rintro ⟨length, hlength, revision, hrevision, type, htype, ⟨hlong, halign, rfl, rfl⟩, der, hder, ⟨hend, hle⟩,
      hzeros⟩
    exact ⟨length, der, hlength, hrevision, htype, hlong, halign, hder, hend, hle, hzeros⟩
  · rintro ⟨length, der, hlength, hrevision, htype, hlong, halign, hder, hend, hle, hzeros⟩
    exact ⟨length, hlength, _, hrevision, _, htype, ⟨hlong, halign, rfl, rfl⟩, der, hder, ⟨hend, hle⟩, hzeros⟩

/-- The checks pass just on a table with one certificate. -/
theorem checkCertificate_eq_ok {u : Unit} (hend : start + size = signed.length) (hstart : 8 ∣ start)
    (hsize : 8 ∣ size) (hlt : size < 256 ^ 4) :
    checkCertificate signed start (start + size) = .ok u ↔ CertificateTable (signed.drop start) := by
  have hle : start ≤ signed.length := by omega
  have hlength : (signed.drop start).length = size := by
    rw [List.length_drop]
    omega
  have hdvd : 8 ∣ start + size := Nat.dvd_add hstart hsize
  have hfield : ∀ offset width value, HasField (signed.drop start) offset width value ↔
      HasField signed (start + offset) width value := fun offset width value => hasField_drop hle
  rw [checkCertificate_fields, CertificateTable, hlength]
  simp only [hfield, Nat.add_zero]
  constructor
  · rintro ⟨length, der, hwin, hrevision, htype, -, halign, hder, hderEnd, hderLe, hzeros⟩
    rw [align_eq_iff hdvd] at halign hderEnd
    rw [slice_eq] at hder
    have hfit : (((signed.drop start).drop 8).take (length - 8)).length < 256 ^ 4 := by
      rw [List.length_take, List.length_drop, hlength]
      omega
    obtain ⟨hn, hsequence⟩ := (derObjectLength_eq_ok hfit).mp hder
    rw [List.take_take, Nat.min_eq_left (by omega)] at hsequence
    have hderLength : (((signed.drop start).drop 8).take der).length = der := by
      rw [List.length_take, List.length_drop, hlength]
      omega
    refine ⟨length, ((signed.drop start).drop 8).take der, ((signed.drop start).drop 8).drop der,
      (List.take_append_drop _ _).symm, hsequence, ?_, ?_, hsize, hwin, hrevision, htype, ?_, by omega⟩
    · rw [Nat.add_assoc, slice_eq, ← List.drop_drop, List.take_of_length_le] at hzeros
      · exact hzeros
      · rw [List.length_drop, List.length_drop, hlength]
        omega
    · rw [List.length_drop, List.length_drop, hlength]
      omega
    · rw [hderLength]
      omega
  · rintro ⟨length, der, padding, htable, hsequence, hzeros, hpadding, -, hwin, hrevision, htype, hderLe, hwinLe⟩
    have hsum := congrArg List.length htable
    rw [List.length_drop, List.length_append, hlength] at hsum
    have hpos : 2 ≤ der.length := by
      obtain ⟨first, rest, rfl⟩ := derSequence_ne hsequence
      rw [List.length_cons, List.length_cons]
      omega
    refine ⟨length, der.length, hwin, hrevision, htype, by omega, ?_, ?_, ?_, by omega, ?_⟩
    · rw [align_eq_iff hdvd]
      omega
    · rw [slice_eq, htable, derObjectLength_eq_ok]
      · refine ⟨?_, ?_⟩
        · rw [List.length_take, List.length_append]
          omega
        · rw [List.take_take, Nat.min_eq_left (by omega), List.take_left]
          exact hsequence
      · rw [List.length_take, List.length_append]
        omega
    · rw [align_eq_iff hdvd]
      omega
    · rw [Nat.add_assoc, slice_eq, ← List.drop_drop, htable, List.drop_left, List.take_of_length_le (by omega)]
      exact hzeros

theorem peImage_bounds {checksum directory : Nat} (h : PeImage data checksum directory) :
    checksum + 4 ≤ data.length ∧ directory + 8 ≤ data.length := by
  obtain ⟨-, -, pe, optionalSize, count, -, -, -, -, hend, rfl, hdirectory, -, ⟨-, -, rfl⟩ | ⟨-, -, rfl⟩⟩ := h
  · omega
  · omega

theorem peImage_ne_nil {checksum directory : Nat} (h : PeImage data checksum directory) : data ≠ [] := by
  rintro rfl
  exact absurd h.1 (by decide)

theorem table_large {table : Bytes} (h : CertificateTable table) : 8 ≤ table.length ∧ 8 ∣ table.length := by
  obtain ⟨length, der, padding, -, -, -, -, hdvd, -, -, -, hder, hle⟩ := h
  exact ⟨by omega, hdvd⟩

/-- The parts of a file that is accepted. -/
structure Parts (unsigned signed : Bytes) (checksum directory size : Nat) : Prop where
  unsignedImage : PeImage unsigned checksum directory
  signedImage : PeImage signed checksum directory
  noOffset : HasField unsigned directory 4 0
  noSize : HasField unsigned (directory + 4) 4 0
  offset : HasField signed directory 4 (align unsigned.length)
  extent : HasField signed (directory + 4) 4 size
  aligned : 8 ∣ size
  fills : align unsigned.length + size = signed.length
  zeros : Zeros ((signed.take (align unsigned.length)).drop unsigned.length)
  same : SameImage checksum directory unsigned (signed.take unsigned.length)
  certificate : CertificateTable (signed.drop (align unsigned.length))

/-- The check accepts just the files with these parts. -/
theorem verify_parts (sha256 : Bytes → Bytes) (unsigned signed : Bytes) :
    (∃ report, verifyAuthenticodePayload sha256 unsigned signed = .ok report) ↔
      ∃ checksum directory size, Parts unsigned signed checksum directory size := by
  simp only [verifyAuthenticodePayload, bind_eq_ok, check_eq_ok, exists_const, parseLayout_eq_ok,
    normalizedPrefix_eq_ok, pure_eq_ok]
  constructor
  · rintro ⟨report, -, ⟨cu, du, ou, su⟩, ⟨hu, huOffset, huSize⟩, ⟨c, d, o, size⟩, ⟨hs, hsOffset, hsSize⟩, ⟨hc, hd⟩,
      ⟨h0, h0'⟩, hfollow, ⟨-, -, hmod⟩, hend, hzeros, _, ⟨-, -, -, rfl⟩, _, ⟨hle, -, -, rfl⟩, hsame, _, hcert, -⟩
    dsimp only at *
    subst hc hd h0 h0' hfollow
    obtain ⟨hbc, hbd⟩ := peImage_bounds hu
    have hdvd := Nat.dvd_of_mod_eq_zero hmod
    have hbody : (signed.take unsigned.length).length = unsigned.length := by
      rw [List.length_take, Nat.min_eq_left hle]
    rw [List.take_length, blanks_eq_iff hbody hbc hbd] at hsame
    exact ⟨_, _, size, hu, hs, huOffset, huSize, hsOffset, hsSize, hdvd, hend, hzeros, hsame,
      (checkCertificate_eq_ok hend (dvd_align _) hdvd hsSize.lt).mp hcert⟩
  · rintro ⟨c, d, size, h⟩
    obtain ⟨hbc, hbd⟩ := peImage_bounds h.unsignedImage
    have hle : unsigned.length ≤ signed.length := by
      have := le_align unsigned.length
      have := h.fills
      omega
    have hbody : (signed.take unsigned.length).length = unsigned.length := by
      rw [List.length_take, Nat.min_eq_left hle]
    have hlarge := (table_large h.certificate).1
    rw [List.length_drop] at hlarge
    have hsize : 8 ≤ size := by
      have := h.fills
      omega
    refine ⟨_, ⟨peImage_ne_nil h.unsignedImage, peImage_ne_nil h.signedImage⟩, ⟨c, d, 0, 0⟩,
      ⟨h.unsignedImage, h.noOffset, h.noSize⟩, ⟨c, d, align unsigned.length, size⟩,
      ⟨h.signedImage, h.offset, h.extent⟩,
      ⟨rfl, rfl⟩, ⟨rfl, rfl⟩, rfl, ⟨Nat.mod_eq_zero_of_dvd (dvd_align _), hsize, Nat.mod_eq_zero_of_dvd h.aligned⟩,
      h.fills, h.zeros, _, ⟨Nat.le_refl _, hbc, hbd, rfl⟩, _, ⟨hle, hbc, hbd, rfl⟩, ?_, ⟨⟩, ?_, rfl⟩
    · rw [List.take_length]
      exact (blanks_eq_iff hbody hbc hbd).mpr h.same
    · exact (checkCertificate_eq_ok h.fills (dvd_align _) h.aligned h.extent.lt).mpr h.certificate

theorem parts_iff {unsigned : Bytes} : (∃ checksum directory size, Parts unsigned signed checksum directory size) ↔
    Permitted unsigned signed := by
  constructor
  · rintro ⟨c, d, size, h⟩
    have hle : unsigned.length ≤ align unsigned.length := le_align _
    have hfills := h.fills
    have hfirst : (signed.take (align unsigned.length)).length = align unsigned.length := by
      rw [List.length_take, Nat.min_eq_left (by omega)]
    have hsplit : signed.take unsigned.length ++ (signed.take (align unsigned.length)).drop unsigned.length =
        signed.take (align unsigned.length) := by
      conv_rhs => rw [← List.take_append_drop unsigned.length (signed.take (align unsigned.length))]
      rw [List.take_take, Nat.min_eq_left hle]
    have htable : (signed.drop (align unsigned.length)).length = size := by
      rw [List.length_drop]
      omega
    have hpadding : ((signed.take (align unsigned.length)).drop unsigned.length).length < 8 := by
      have := align_lt unsigned.length
      rw [List.length_drop, hfirst]
      omega
    refine ⟨c, d, h.unsignedImage, h.signedImage, h.noOffset, h.noSize, signed.take unsigned.length,
      (signed.take (align unsigned.length)).drop unsigned.length, signed.drop (align unsigned.length), ?_, h.same,
      h.zeros, hpadding, ?_, ?_, ?_, h.certificate⟩
    · rw [hsplit, List.take_append_drop]
    · rw [hsplit, hfirst]
      exact dvd_align _
    · rw [hsplit, hfirst]
      exact h.offset
    · rw [htable]
      exact h.extent
  · rintro ⟨c, d, hu, hs, h0, h0', body, padding, table, rfl, hsame, hzeros, hpadding, hdvd, hoffset, hsize, hcert⟩
    have hfollow : align unsigned.length = (body ++ padding).length := by
      rw [align_eq_iff hdvd, List.length_append, hsame.1]
      omega
    refine ⟨c, d, table.length, hu, hs, h0, h0', ?_, hsize, (table_large hcert).2, ?_, ?_, ?_, ?_⟩
    · rw [hfollow]
      exact hoffset
    · rw [hfollow, @List.length_append _ _ table]
    · rw [hfollow, List.take_left, ← hsame.1, List.drop_left]
      exact hzeros
    · rw [← hsame.1, List.append_assoc, List.take_left]
      exact hsame
    · rw [hfollow, List.drop_left]
      exact hcert

/-- The check accepts just the permitted changes. -/
theorem verify_iff_permitted (sha256 : Bytes → Bytes) (unsigned signed : Bytes) :
    (∃ report, verifyAuthenticodePayload sha256 unsigned signed = .ok report) ↔ Permitted unsigned signed :=
  (verify_parts sha256 unsigned signed).trans parts_iff

end OpenAdb.Signing.PermittedChanges
