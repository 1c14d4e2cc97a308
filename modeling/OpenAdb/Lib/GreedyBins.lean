import Mathlib.Data.List.Basic

namespace OpenAdb.Lib.GreedyBins

variable {α : Type} (size : α → Nat)

/-- The first index with the smallest load. -/
def leastLoaded (loads : List Nat) : Nat := loads.findIdx (fun x => loads.all (x ≤ ·))

structure Bins (α : Type) where
  bins : List (List α)
  loads : List Nat

def Bins.empty (w : Nat) : Bins α := ⟨List.replicate w [], List.replicate w 0⟩

def Bins.place (st : Bins α) (x : α) : Bins α :=
  let target := leastLoaded st.loads
  ⟨st.bins.modify target (· ++ [x]), st.loads.modify target (· + size x)⟩

/-- Give every item in turn to the bin with the smallest load so far. -/
def fill (w : Nat) (items : List α) : Bins α := items.foldl (Bins.place size) (Bins.empty w)

theorem leastLoaded_lt {loads : List Nat} (h : loads ≠ []) : leastLoaded loads < loads.length := by
  apply List.findIdx_lt_length_of_exists
  cases hm : loads.min? with
  | none => exact absurd (List.min?_eq_none_iff.mp hm) h
  | some m =>
    obtain ⟨hmem, hle⟩ := List.min?_eq_some_iff.mp hm
    exact ⟨m, hmem, by simpa using hle⟩

theorem leastLoaded_append {used rest : List Nat} (hpos : ∀ x ∈ used, 0 < x) :
    leastLoaded (used ++ 0 :: rest) = used.length := by
  unfold leastLoaded
  rw [List.findIdx_eq (by simp)]
  constructor
  · simp
  · intro j hj
    have h := hpos used[j] (List.getElem_mem hj)
    simp only [List.getElem_append_left hj, List.all_eq_false, decide_eq_true_eq]
    exact ⟨0, by simp, by omega⟩

theorem modify_append_cons {β : Type} (a : List β) (x : β) (b : List β) (f : β → β) :
    (a ++ x :: b).modify a.length f = a ++ f x :: b := by
  induction a with
  | nil => rfl
  | cons y a ih => simp [ih]

theorem flatten_modify_perm (bins : List (List α)) (i : Nat) (x : α) (hi : i < bins.length) :
    (bins.modify i (· ++ [x])).flatten.Perm (bins.flatten ++ [x]) := by
  induction bins generalizing i with
  | nil => simp at hi
  | cons b bins ih =>
    cases i with
    | zero =>
      simp only [List.modify_zero_cons, List.flatten_cons, List.append_assoc]
      exact (List.perm_append_comm).append_left b
    | succ i =>
      simp only [List.modify_succ_cons, List.flatten_cons, List.append_assoc]
      exact (ih i (by simpa using hi)).append_left b

theorem place_lengths (st : Bins α) (x : α) :
    (st.place size x).bins.length = st.bins.length ∧
      (st.place size x).loads.length = st.loads.length := by
  simp [Bins.place]

theorem foldl_place_perm (st : Bins α) (items : List α) (hw : 0 < st.bins.length)
    (hlen : st.loads.length = st.bins.length) :
    (items.foldl (Bins.place size) st).bins.flatten.Perm (st.bins.flatten ++ items) ∧
      (items.foldl (Bins.place size) st).bins.length = st.bins.length := by
  induction items generalizing st with
  | nil => simp
  | cons x items ih =>
    obtain ⟨hb, hl⟩ := place_lengths size st x
    obtain ⟨hperm, hcount⟩ := ih (st.place size x) (by omega) (by omega)
    have hne : st.loads ≠ [] := by
      intro h
      simp [h] at hlen
      omega
    have ht := leastLoaded_lt hne
    have hx := flatten_modify_perm st.bins (leastLoaded st.loads) x (by omega)
    refine ⟨?_, hcount.trans hb⟩
    have h := hperm.trans (hx.append_right items)
    simpa using h

/-- Filling loses and repeats no item and uses the bins it was given. -/
theorem fill_perm {w : Nat} (hw : 0 < w) (items : List α) :
    (fill size w items).bins.flatten.Perm items ∧ (fill size w items).bins.length = w := by
  have h := foldl_place_perm size (Bins.empty w) items (by simpa [Bins.empty] using hw)
    (by simp [Bins.empty])
  simpa [fill, Bins.empty] using h

/-- The used bins come first, and `m` untouched ones follow. -/
structure Shape (st : Bins α) (m : Nat) : Prop where
  exists_used : ∃ (loads : List Nat) (bins : List (List α)),
    st.loads = loads ++ List.replicate m 0 ∧ st.bins = bins ++ List.replicate m [] ∧
      loads.length = bins.length ∧ (∀ x ∈ loads, 0 < x) ∧ ∀ b ∈ bins, b ≠ []

theorem empty_shape (w : Nat) : Shape (Bins.empty w : Bins α) w :=
  ⟨[], [], by simp [Bins.empty]⟩

theorem Shape.place_fresh {st : Bins α} {m : Nat} (h : Shape st (m + 1)) {x : α}
    (hx : 0 < size x) : Shape (st.place size x) m := by
  obtain ⟨loads, bins, hl, hb, hlen, hpos, hne⟩ := h
  refine ⟨loads ++ [size x], bins ++ [[x]], ?_, ?_, by simp [hlen], ?_, ?_⟩
  · simp [Bins.place, hl, List.replicate_succ, leastLoaded_append hpos, modify_append_cons]
  · simp only [Bins.place, hl, hb, List.replicate_succ, leastLoaded_append hpos, hlen,
      modify_append_cons, List.append_assoc, List.singleton_append, List.nil_append]
  · intro y hy
    rcases List.mem_append.mp hy with hy | hy
    · exact hpos y hy
    · simp only [List.mem_singleton] at hy
      omega
  · intro b hb'
    rcases List.mem_append.mp hb' with hb' | hb'
    · exact hne b hb'
    · simp only [List.mem_singleton] at hb'
      simp [hb']

theorem Shape.place_full {st : Bins α} (h : Shape st 0) (x : α) : Shape (st.place size x) 0 := by
  obtain ⟨loads, bins, hl, hb, hlen, hpos, hne⟩ := h
  simp only [List.replicate_zero, List.append_nil] at hl hb
  refine ⟨_, _, (List.append_nil _).symm, (List.append_nil _).symm, ?_, ?_, ?_⟩
  · simp [Bins.place, hl, hb, hlen]
  · intro y hy
    obtain ⟨i, hi⟩ := List.mem_iff_getElem?.mp hy
    simp only [Bins.place, hl, List.getElem?_modify] at hi
    obtain ⟨z, hz, rfl⟩ := Option.map_eq_some_iff.mp hi
    have hzpos := hpos z (List.mem_of_getElem? hz)
    split <;> simp <;> omega
  · intro b hb'
    obtain ⟨i, hi⟩ := List.mem_iff_getElem?.mp hb'
    simp only [Bins.place, hb, List.getElem?_modify] at hi
    obtain ⟨c, hc, rfl⟩ := Option.map_eq_some_iff.mp hi
    have hcne := hne c (List.mem_of_getElem? hc)
    split <;> simp [hcne]

theorem Shape.place_all {st : Bins α} {m : Nat} (h : Shape st m) (items : List α)
    (hpos : ∀ x ∈ items, 0 < size x) :
    Shape (items.foldl (Bins.place size) st) (m - items.length) := by
  induction items generalizing st m with
  | nil => exact h
  | cons x items ih =>
    have hrest : ∀ y ∈ items, 0 < size y := fun y hy => hpos y (List.mem_cons_of_mem x hy)
    cases m with
    | zero =>
      have h' := ih (h.place_full size x) hrest
      simpa using h'
    | succ m =>
      have h' := ih (h.place_fresh size (hpos x List.mem_cons_self)) hrest
      simpa using h'

/-- One bin without load collects every empty item, and `m` bins stay untouched. -/
structure Collecting (st : Bins α) (m : Nat) : Prop where
  exists_used : ∃ (loads : List Nat) (bins : List (List α)) (b : List α),
    st.loads = loads ++ 0 :: List.replicate m 0 ∧ st.bins = bins ++ b :: List.replicate m [] ∧
      loads.length = bins.length ∧ (∀ x ∈ loads, 0 < x) ∧ (∀ c ∈ bins, c ≠ []) ∧ b ≠ []

theorem Collecting.place {st : Bins α} {m : Nat} (h : Collecting st m) {x : α}
    (hx : size x = 0) : Collecting (st.place size x) m := by
  obtain ⟨loads, bins, b, hl, hb, hlen, hpos, hne, hbne⟩ := h
  refine ⟨loads, bins, b ++ [x], ?_, ?_, hlen, hpos, hne, by simp⟩
  · simp [Bins.place, hl, leastLoaded_append hpos, modify_append_cons, hx]
  · simp only [Bins.place, hl, hb, leastLoaded_append hpos, hlen, modify_append_cons]

theorem Shape.collect {st : Bins α} {m : Nat} (h : Shape st (m + 1)) {x : α}
    (hx : size x = 0) : Collecting (st.place size x) m := by
  obtain ⟨loads, bins, hl, hb, hlen, hpos, hne⟩ := h
  refine ⟨loads, bins, [x], ?_, ?_, hlen, hpos, hne, by simp⟩
  · simp [Bins.place, hl, List.replicate_succ, leastLoaded_append hpos, modify_append_cons, hx]
  · simp only [Bins.place, hl, hb, List.replicate_succ, leastLoaded_append hpos, hlen,
      modify_append_cons, List.nil_append]

theorem Collecting.place_all {st : Bins α} {m : Nat} (h : Collecting st m) (items : List α)
    (hzero : ∀ x ∈ items, size x = 0) : Collecting (items.foldl (Bins.place size) st) m := by
  induction items generalizing st with
  | nil => exact h
  | cons x items ih =>
    exact ih (h.place size (hzero x List.mem_cons_self))
      (fun y hy => hzero y (List.mem_cons_of_mem x hy))

theorem Shape.place_any {st : Bins α} (h : Shape st 0) (items : List α) :
    Shape (items.foldl (Bins.place size) st) 0 := by
  induction items generalizing st with
  | nil => exact h
  | cons x items ih => exact ih (h.place_full size x)

theorem split_of_pairwise {items : List α}
    (hsorted : items.Pairwise (fun a b => size b ≤ size a)) :
    ∃ big empty, items = big ++ empty ∧ (∀ x ∈ big, 0 < size x) ∧ (∀ x ∈ empty, size x = 0) := by
  induction items with
  | nil => exact ⟨[], [], by simp⟩
  | cons x items ih =>
    obtain ⟨hx, hrest⟩ := List.pairwise_cons.mp hsorted
    obtain ⟨big, empty, rfl, hbig, hempty⟩ := ih hrest
    by_cases h0 : size x = 0
    · refine ⟨[], x :: (big ++ empty), rfl, by simp, ?_⟩
      intro y hy
      rcases List.mem_cons.mp hy with rfl | hy
      · exact h0
      · have := hx y hy
        omega
    · refine ⟨x :: big, empty, rfl, ?_, hempty⟩
      intro y hy
      rcases List.mem_cons.mp hy with rfl | hy
      · omega
      · exact hbig y hy

/-- Items in decreasing order of size reach every bin exactly when at most one
bin is left for the items of size zero. -/
theorem fill_nonempty_iff {w : Nat} (items : List α)
    (hsorted : items.Pairwise (fun a b => size b ≤ size a)) (hlen : w ≤ items.length) :
    (∀ b ∈ (fill size w items).bins, b ≠ []) ↔
      w ≤ items.countP (fun x => decide (0 < size x)) + 1 := by
  obtain ⟨big, empty, rfl, hbig, hempty⟩ := split_of_pairwise size hsorted
  have hcount : (big ++ empty).countP (fun x => decide (0 < size x)) = big.length := by
    rw [List.countP_append, List.countP_eq_length.mpr (by simpa using hbig),
      List.countP_eq_zero.mpr (by simpa using hempty)]
    rfl
  rw [hcount]
  unfold fill
  rw [List.foldl_append]
  have hshape := (empty_shape (α := α) w).place_all size big hbig
  cases hm : w - big.length with
  | zero =>
    rw [hm] at hshape
    obtain ⟨loads, bins, -, hb, -, -, hne⟩ := (hshape.place_any size empty).exists_used
    refine iff_of_true ?_ (by omega)
    rw [hb]
    simpa using hne
  | succ m =>
    rw [hm] at hshape
    cases empty with
    | nil =>
      simp only [List.append_nil] at hlen
      omega
    | cons x empty =>
      have hcol := (hshape.collect size (hempty x List.mem_cons_self)).place_all size empty
        (fun y hy => hempty y (List.mem_cons_of_mem x hy))
      obtain ⟨loads, bins, b, -, hb, -, -, hne, hbne⟩ := hcol.exists_used
      rw [List.foldl_cons, hb]
      constructor
      · intro h
        cases m with
        | zero => omega
        | succ m => exact absurd rfl (h [] (by simp [List.replicate_succ]))
      · intro h
        have hm0 : m = 0 := by omega
        subst m
        intro c hc
        simp only [List.replicate_zero, List.mem_append, List.mem_singleton] at hc
        rcases hc with hc | rfl
        · exact hne c hc
        · exact hbne

theorem place_head {st : Bins α} (h : ∀ b, st.bins.head? = some b → b ≠ []) (x : α) :
    ∀ b, (st.place size x).bins.head? = some b → b ≠ [] := by
  intro b hb
  simp only [Bins.place, List.head?_eq_getElem?, List.getElem?_modify] at hb
  obtain ⟨c, hc, rfl⟩ := Option.map_eq_some_iff.mp hb
  have hcne := h c (by rw [List.head?_eq_getElem?]; exact hc)
  split
  · simp
  · exact hcne

/-- The first item goes to the first bin, which is never empty afterwards. -/
theorem fill_head (w : Nat) {items : List α} (h : items ≠ []) :
    ∀ b, (fill size w items).bins.head? = some b → b ≠ [] := by
  cases items with
  | nil => exact absurd rfl h
  | cons x items =>
    have hfirst : ∀ b, ((Bins.empty w).place size x).bins.head? = some b → b ≠ [] := by
      intro b hb
      cases w with
      | zero => simp [Bins.place, Bins.empty] at hb
      | succ w =>
        have ht : leastLoaded (0 :: List.replicate w 0) = 0 :=
          @leastLoaded_append [] _ (by simp)
        simp only [Bins.place, Bins.empty, ht, List.replicate_succ, List.modify_zero_cons,
          List.nil_append, List.head?_cons, Option.some.injEq] at hb
        simp [← hb]
    have hrest : ∀ (items : List α) (st : Bins α), (∀ b, st.bins.head? = some b → b ≠ []) →
        ∀ b, (items.foldl (Bins.place size) st).bins.head? = some b → b ≠ [] := by
      intro items
      induction items with
      | nil => exact fun st h => h
      | cons y items ih => exact fun st h => ih _ (place_head size h y)
    exact hrest items _ hfirst

end OpenAdb.Lib.GreedyBins
