import Mathlib.Algebra.Order.Ring.Nat
import Mathlib.Data.List.Perm.Subperm
import OpenAdb.Lib.GreedyBins

namespace OpenAdb.Lib.GreedyBins

variable {α : Type} (size : α → Nat)

def total (bin : List α) : Nat := (bin.map size).sum

/-- No two items of at least size `q` that weigh two fit together under `t`, nor do three of them,
when `t < 3 * q`. -/
def weight (q t : Nat) (x : α) : Nat := if size x < q then 0 else if size x + q ≤ t then 1 else 2

variable {size}

@[simp] theorem total_nil : total size ([] : List α) = 0 := rfl

@[simp] theorem total_cons (x : α) (bin : List α) : total size (x :: bin) = size x + total size bin := by
  rw [total, total, List.map_cons, List.sum_cons]

@[simp] theorem total_append (a b : List α) : total size (a ++ b) = total size a + total size b := by
  rw [total, total, total, List.map_append, List.sum_append]

theorem total_perm {a b : List α} (h : a.Perm b) : total size a = total size b := (h.map size).sum_nat

theorem total_sublist {a b : List α} (h : a.Sublist b) : total size a ≤ total size b := by
  induction h with
  | slnil => exact Nat.le_refl _
  | cons x h ih =>
    rw [total_cons]
    omega
  | cons_cons x h ih =>
    rw [total_cons, total_cons]
    omega

theorem total_subperm (size : α → Nat) {a b : List α} (h : a.Subperm b) : total size a ≤ total size b := by
  obtain ⟨l, hperm, hsub⟩ := h
  rw [← total_perm hperm]
  exact total_sublist hsub

theorem size_le_total {x : α} {bin : List α} (h : x ∈ bin) : size x ≤ total size bin := by
  have hone := total_subperm size (List.singleton_subperm_iff.mpr h)
  simpa using hone

theorem total_flatten_le {c : Nat} (bins : List (List α)) (h : ∀ b ∈ bins, total size b ≤ c) :
    total size bins.flatten ≤ bins.length * c := by
  induction bins with
  | nil => simp
  | cons b bins ih =>
    have hb := h b List.mem_cons_self
    have hbins := ih fun b' hb' => h b' (List.mem_cons_of_mem _ hb')
    rw [List.flatten_cons, total_append, List.length_cons, Nat.add_mul]
    omega

theorem le_total_flatten {c : Nat} (bins : List (List α)) (h : ∀ b ∈ bins, c ≤ total size b) :
    bins.length * c ≤ total size bins.flatten := by
  induction bins with
  | nil => simp
  | cons b bins ih =>
    have hb := h b List.mem_cons_self
    have hbins := ih fun b' hb' => h b' (List.mem_cons_of_mem _ hb')
    rw [List.flatten_cons, total_append, List.length_cons, Nat.add_mul]
    omega

/-- In a bin under `t` the large items weigh at most two. -/
theorem weight_packed (size : α → Nat) {q t : Nat} (hq : t < 3 * q) (bin : List α) :
    (total (weight size q t) bin = 0 ∨ q ≤ total size bin) ∧
      (total (weight size q t) bin ≤ 1 ∨ t < total size bin + q) ∧
      (total (weight size q t) bin ≤ 2 ∨ t < total size bin) := by
  induction bin with
  | nil => simp
  | cons x bin ih =>
    obtain ⟨hone, htwo, hthree⟩ := ih
    rw [total_cons, total_cons, weight]
    split_ifs with hsmall hfits
    · omega
    · omega
    · omega

/-- In a bin of large items that has no room for another one they weigh at least two. -/
theorem weight_crowded {q t : Nat} (hq : q ≤ t) {bin : List α} (hlarge : ∀ x ∈ bin, q ≤ size x)
    (hfull : t < total size bin + q) : 2 ≤ total (weight size q t) bin := by
  have hweight (x : α) (hx : x ∈ bin) : 1 ≤ weight size q t x := by
    rw [weight, if_neg (Nat.not_lt.mpr (hlarge x hx))]
    split_ifs <;> omega
  match bin with
  | [] =>
    rw [total_nil] at hfull
    omega
  | [x] =>
    simp only [total_cons, total_nil, Nat.add_zero] at hfull ⊢
    have htwo : weight size q t x = 2 := by
      rw [weight, if_neg (Nat.not_lt.mpr (hlarge x List.mem_cons_self)), if_neg (Nat.not_le.mpr hfull)]
    exact Nat.le_of_eq htwo.symm
  | x :: y :: rest =>
    have hx := hweight x List.mem_cons_self
    have hy := hweight y (List.mem_cons_of_mem _ List.mem_cons_self)
    simp only [total_cons]
    omega

/-- An item no larger than those already placed goes to a bin that is not too full for it, if all of
them fit into as many bins under `t`. -/
theorem placed_le {bins other : List (List α)} {x : α} {t l : Nat} (hlen : other.length = bins.length)
    (hsub : (bins.flatten ++ [x]).Subperm other.flatten) (hlarge : ∀ y ∈ bins.flatten, size x ≤ size y)
    (hcap : ∀ b ∈ other, total size b ≤ t) (hleast : ∀ b ∈ bins, l ≤ total size b) :
    3 * (l + size x) ≤ 4 * t := by
  have hmem : x ∈ other.flatten := hsub.subset (List.mem_append_right _ List.mem_cons_self)
  obtain ⟨b, hb, hxb⟩ := List.mem_flatten.mp hmem
  have hxt : size x ≤ t := Nat.le_trans (size_le_total hxb) (hcap b hb)
  have hpos : 0 < bins.length := hlen ▸ List.length_pos_of_mem hb
  have hsum := total_subperm size hsub
  simp only [total_append, total_cons, total_nil, Nat.add_zero] at hsum
  have hall := total_flatten_le other hcap
  have hplaced := le_total_flatten bins hleast
  rw [hlen] at hall
  have hlt : l ≤ t := by
    have hmul : bins.length * l ≤ bins.length * t := by omega
    exact Nat.le_of_mul_le_mul_left hmul hpos
  by_cases hsmall : 3 * size x ≤ t
  · omega
  by_contra hover
  have hcrowded : bins.length * 2 ≤ total (weight size (size x) t) bins.flatten := by
    refine le_total_flatten bins fun b hb => weight_crowded hxt (fun y hy => ?_) ?_
    · exact hlarge y (List.mem_flatten.mpr ⟨b, hb, hy⟩)
    · have hb := hleast b hb
      omega
  have hpacked : total (weight size (size x) t) other.flatten ≤ other.length * 2 := by
    refine total_flatten_le other fun b hb => ?_
    obtain ⟨_, _, htwo | hfull⟩ := weight_packed size (Nat.not_le.mp hsmall) b
    · exact htwo
    · exact absurd (hcap b hb) (Nat.not_le.mpr hfull)
  have hweights := total_subperm (weight size (size x) t) hsub
  have hself : 1 ≤ weight size (size x) t x := by
    rw [weight, if_neg (Nat.lt_irrefl _)]
    split_ifs <;> omega
  simp only [total_append, total_cons, total_nil, Nat.add_zero] at hweights
  omega

theorem leastLoaded_le {loads : List Nat} {l x : Nat} (hl : loads[leastLoaded loads]? = some l)
    (hx : x ∈ loads) : l ≤ x := by
  obtain ⟨hlt, heq⟩ := List.getElem?_eq_some_iff.mp hl
  have hall := List.findIdx_getElem (w := hlt)
  have hle := List.all_eq_true.mp hall x hx
  rw [decide_eq_true_eq] at hle
  exact heq ▸ hle

theorem map_modify {β γ : Type} (l : List β) (i : Nat) (f : β → β) (g : β → γ) (h : γ → γ)
    (hfg : ∀ b, g (f b) = h (g b)) : (l.modify i f).map g = (l.map g).modify i h := by
  induction l generalizing i with
  | nil => simp
  | cons b l ih =>
    cases i with
    | zero => simp [hfg]
    | succ i => simp [ih]

/-- The loads are those of the bins. -/
def Loaded (size : α → Nat) (st : Bins α) : Prop := st.loads = st.bins.map (total size)

theorem Loaded.empty (w : Nat) : Loaded size (Bins.empty w : Bins α) := by
  rw [Loaded, Bins.empty, List.map_replicate]
  rfl

theorem Loaded.place {st : Bins α} (h : Loaded size st) (x : α) : Loaded size (st.place size x) := by
  rw [Loaded] at h ⊢
  rw [Bins.place, map_modify st.bins _ (· ++ [x]) (total size) (· + size x), h]
  intro b
  simp

theorem mem_modify {β : Type} {l : List β} {i : Nat} {f : β → β} {y : β} (h : y ∈ l.modify i f) :
    y ∈ l ∨ ∃ b, l[i]? = some b ∧ y = f b := by
  obtain ⟨j, hj⟩ := List.mem_iff_getElem?.mp h
  rw [List.getElem?_modify] at hj
  obtain ⟨b, hb, rfl⟩ := Option.map_eq_some_iff.mp hj
  split_ifs with hij
  · exact .inr ⟨b, hij ▸ hb, rfl⟩
  · exact .inl (List.mem_of_getElem? hb)

/-- Items in order of decreasing size, on bins that hold no smaller item. -/
theorem foldl_place_le {other : List (List α)} {t : Nat} (hcap : ∀ b ∈ other, total size b ≤ t)
    {items : List α} (hsorted : items.Pairwise (fun a b => size b ≤ size a)) {st : Bins α}
    (hst : Loaded size st) (hlen : other.length = st.bins.length)
    (hsub : (st.bins.flatten ++ items).Subperm other.flatten)
    (hlarge : ∀ x ∈ items, ∀ y ∈ st.bins.flatten, size x ≤ size y) (hle : ∀ l ∈ st.loads, 3 * l ≤ 4 * t) :
    ∀ l ∈ (items.foldl (Bins.place size) st).loads, 3 * l ≤ 4 * t := by
  induction items generalizing st with
  | nil => exact hle
  | cons x items ih =>
    obtain ⟨hx, hsorted⟩ := List.pairwise_cons.mp hsorted
    have hfirst : (st.bins.flatten ++ [x]).Subperm other.flatten := by
      refine List.Subperm.trans (List.Sublist.subperm ?_) hsub
      exact (List.Sublist.refl _).append (List.singleton_sublist.mpr List.mem_cons_self)
    have hpos : 0 < st.bins.length := by
      have hmem := hfirst.subset (List.mem_append_right _ List.mem_cons_self)
      obtain ⟨b, hb, _⟩ := List.mem_flatten.mp hmem
      exact hlen ▸ List.length_pos_of_mem hb
    have hlengths := (place_lengths size st x).1
    have hloads : st.loads.length = st.bins.length := by rw [hst, List.length_map]
    have hperm : (st.place size x).bins.flatten.Perm (st.bins.flatten ++ [x]) := by
      have hne : st.loads ≠ [] := List.ne_nil_of_length_pos (hloads ▸ hpos)
      exact flatten_modify_perm st.bins _ x (hloads ▸ leastLoaded_lt hne)
    refine ih hsorted (hst.place x) (hlen.trans hlengths.symm) ?_ (fun y hy z hz => ?_) fun l hl => ?_
    · have hrest := hperm.append_right items
      rw [List.append_assoc] at hrest
      exact hrest.subperm.trans hsub
    · obtain hz | hz := List.mem_append.mp (hperm.mem_iff.mp hz)
      · exact hlarge y (List.mem_cons_of_mem _ hy) z hz
      · rw [List.mem_singleton.mp hz]
        exact hx y hy
    · obtain hl | ⟨least, hleast, rfl⟩ := mem_modify hl
      · exact hle l hl
      · refine placed_le hlen hfirst (hlarge x List.mem_cons_self) hcap fun b hb => ?_
        have hmem : total size b ∈ st.loads := hst ▸ List.mem_map_of_mem hb
        exact leastLoaded_le hleast hmem

/-- The heaviest bin of a greedy filling, the largest items first, has at most 4/3 of the size of the
heaviest one of any other filling of as many bins. -/
theorem fill_le {items : List α} (hsorted : items.Pairwise (fun a b => size b ≤ size a))
    {other : List (List α)} (hperm : other.flatten.Perm items) {t : Nat} (hcap : ∀ b ∈ other, total size b ≤ t) :
    ∀ b ∈ (fill size other.length items).bins, 3 * total size b ≤ 4 * t := by
  have hempty : (Bins.empty other.length : Bins α).bins.flatten = [] := by
    rw [Bins.empty, List.flatten_replicate_nil]
  have hloaded : Loaded size (fill size other.length items) := by
    suffices h : ∀ (st : Bins α), Loaded size st → Loaded size (items.foldl (Bins.place size) st) from
      h _ (Loaded.empty _)
    clear hsorted hperm
    induction items with
    | nil => exact fun _ h => h
    | cons x items ih => exact fun st h => ih _ (h.place x)
  intro b hb
  have hmem : total size b ∈ (fill size other.length items).loads := hloaded ▸ List.mem_map_of_mem hb
  refine foldl_place_le hcap hsorted (Loaded.empty _) ?_ ?_ (fun x _ y hy => ?_) (fun l hl => ?_) _ hmem
  · rw [Bins.empty, List.length_replicate]
  · rw [hempty]
    exact hperm.symm.subperm
  · rw [hempty] at hy
    cases hy
  · rw [Bins.empty] at hl
    rw [List.eq_of_mem_replicate hl]
    omega

end OpenAdb.Lib.GreedyBins
