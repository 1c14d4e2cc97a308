import OpenAdb.Lib.ByteStream

namespace OpenAdb.Lib.ChunkedStream

open OpenAdb.Lib.Effects OpenAdb.Lib.Encoding OpenAdb.Lib.ByteStream

section Simulation

variable {ε σ τ α β : Type} {R : σ → τ → Prop}

/-- From related states the two computations have the same result and stay related. -/
def Simulates (R : σ → τ → Prop) (x : Effect ε σ α) (y : Effect ε τ α) : Prop :=
  ∀ s t, R s t → (x s).1 = (y t).1 ∧ R (x s).2 (y t).2

theorem Simulates.pure (a : α) : Simulates R (pure a : Effect ε σ α) (pure a : Effect ε τ α) :=
  fun _ _ h => ⟨rfl, h⟩

theorem Simulates.require (c : Prop) [Decidable c] (e : ε) :
    Simulates R (require c e : Effect ε σ Unit) (require c e : Effect ε τ Unit) := by
  intro s t h
  by_cases hc : c
  · rw [require_pos hc, require_pos hc]
    exact ⟨rfl, h⟩
  · rw [require_neg hc, require_neg hc]
    exact ⟨rfl, h⟩

theorem Simulates.bind {x : Effect ε σ α} {y : Effect ε τ α} {f : α → Effect ε σ β} {g : α → Effect ε τ β}
    (hx : Simulates R x y) (hf : ∀ a, Simulates R (f a) (g a)) : Simulates R (x >>= f) (y >>= g) := by
  intro s t h
  obtain ⟨hresult, hstate⟩ := hx s t h
  cases hrun : y t with
  | mk r t' =>
    rw [hrun] at hresult hstate
    have hrun' : x s = (r, (x s).2) := Prod.ext hresult rfl
    cases r with
    | ok a =>
      rw [bind_ok hrun, bind_ok hrun']
      exact hf a _ _ hstate
    | error e =>
      rw [bind_error hrun, bind_error hrun']
      exact ⟨rfl, hstate⟩

end Simulation

variable {ε : Type}

/-- What one `recv` of at most `size` bytes gives; nothing when the peer has sent everything. -/
def receive (size : Nat) : Effect ε (List Bytes) Bytes := fun chunks =>
  match chunks with
  | [] => (.ok [], [])
  | chunk :: rest =>
    if size < chunk.length then (.ok (chunk.take size), chunk.drop size :: rest) else (.ok chunk, rest)

/-- Receive until `size` bytes are there. -/
def receiveExactly (e : ε) (size : Nat) : Effect ε (List Bytes) Bytes :=
  if _h0 : size = 0 then pure []
  else do
    let chunk ← receive size
    if _h : chunk = [] then raise e
    else do
      let rest ← receiveExactly e (size - chunk.length)
      pure (chunk ++ rest)
termination_by size
decreasing_by exact Nat.sub_lt (Nat.pos_of_ne_zero _h0) (List.length_pos_iff.mpr _h)

/-- The chunks, none of them empty, that deliver a stream. -/
def Carries (chunks : List Bytes) (stream : Bytes) : Prop := chunks.flatten = stream ∧ [] ∉ chunks

theorem Carries.tail {chunk : Bytes} {rest : List Bytes} {stream : Bytes} (h : Carries (chunk :: rest) stream) :
    chunk ≠ [] ∧ stream = chunk ++ rest.flatten ∧ Carries rest rest.flatten :=
  ⟨fun hnil => h.2 (hnil ▸ List.mem_cons_self), h.1.symm, rfl, fun hmem => h.2 (List.mem_cons_of_mem _ hmem)⟩

theorem readExactly_more {e : ε} {size : Nat} {chunk : Bytes} (h : chunk.length ≤ size) (stream : Bytes) :
    readExactly e size (chunk ++ stream) =
      (do
        let rest ← readExactly e (size - chunk.length)
        pure (chunk ++ rest) : Effect ε Bytes Bytes) stream := by
  by_cases hle : size - chunk.length ≤ stream.length
  · have hall : size ≤ (chunk ++ stream).length := by
      rw [List.length_append]
      omega
    have hrun : readExactly e (size - chunk.length) stream =
        (.ok (stream.take (size - chunk.length)), stream.drop (size - chunk.length)) := if_pos hle
    rw [bind_ok hrun, readExactly, if_pos hall, List.take_append, List.drop_append,
      List.take_of_length_le h, List.drop_of_length_le h]
    rfl
  · have hall : ¬size ≤ (chunk ++ stream).length := by
      rw [List.length_append]
      omega
    have hrun : readExactly e (size - chunk.length) stream = (.error e, []) := if_neg hle
    rw [bind_error hrun, readExactly, if_neg hall]

theorem receiveExactly_zero (e : ε) (chunks : List Bytes) : receiveExactly e 0 chunks = (.ok [], chunks) := by
  rw [receiveExactly, dif_pos rfl]
  rfl

/-- However it is chunked, a stream is read as if it were there at once. -/
theorem receiveExactly_simulates (e : ε) (size : Nat) :
    Simulates Carries (receiveExactly e size) (readExactly e size) := by
  induction size using Nat.strong_induction_on with
  | _ size ih =>
    intro chunks stream h
    by_cases h0 : size = 0
    · subst h0
      rw [receiveExactly_zero, readExactly, if_pos (Nat.zero_le _)]
      exact ⟨rfl, h⟩
    rw [receiveExactly, dif_neg h0]
    cases chunks with
    | nil =>
      obtain ⟨rfl, hne⟩ := h
      have hrun : receive (ε := ε) size [] = (.ok [], []) := rfl
      have hlong : ¬size ≤ ([] : List Bytes).flatten.length := by simpa using h0
      rw [bind_ok hrun, dif_pos rfl, readExactly, if_neg hlong]
      exact ⟨rfl, rfl, hne⟩
    | cons chunk rest =>
      obtain ⟨hchunk, rfl, hrest⟩ := h.tail
      have hpos := List.length_pos_iff.mpr hchunk
      by_cases hsize : size < chunk.length
      · have hrun : receive (ε := ε) size (chunk :: rest) = (.ok (chunk.take size), chunk.drop size :: rest) :=
          if_pos hsize
        have hlen : (chunk.take size).length = size := by
          rw [List.length_take]
          omega
        have htake : chunk.take size ≠ [] := by
          rw [← List.length_pos_iff, hlen]
          exact Nat.pos_of_ne_zero h0
        have hfits : size ≤ (chunk ++ rest.flatten).length := by
          rw [List.length_append]
          omega
        rw [bind_ok hrun, dif_neg htake, hlen, Nat.sub_self, bind_ok (receiveExactly_zero e _), readExactly,
          if_pos hfits, List.take_append_of_le_length hsize.le, List.drop_append_of_le_length hsize.le]
        refine ⟨by rw [List.append_nil]; rfl, rfl, fun hmem => ?_⟩
        obtain hmem | hmem := List.mem_cons.mp hmem
        · have hdrop := congrArg List.length hmem
          rw [List.length_drop, List.length_nil] at hdrop
          omega
        · exact hrest.2 hmem
      · have hrun : receive (ε := ε) size (chunk :: rest) = (.ok chunk, rest) := if_neg hsize
        rw [bind_ok hrun, dif_neg hchunk, readExactly_more (Nat.le_of_not_lt hsize)]
        exact Simulates.bind (ih (size - chunk.length) (by omega)) (fun _ => .pure _) rest rest.flatten hrest

end OpenAdb.Lib.ChunkedStream
