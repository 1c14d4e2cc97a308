import Mathlib.Data.List.InsertIdx
import Mathlib.Data.List.Perm.Basic
import Mathlib.Data.List.Sort
import Mathlib.Data.List.TakeWhile

namespace OpenAdb.Lib.SortedRows

variable {α β κ : Type}

/-- A stable sort by a key. -/
def stableSort (before : κ → κ → Bool) (key : α → κ) (rows : List α) : List α :=
  rows.insertionSort (fun a b => before (key b) (key a) = false)

/-- Where the row at an index belongs among the others: at their lower bound, unless it follows an equal row. -/
def place (before : κ → κ → Bool) (keys : List κ) (i : Nat) : Nat :=
  match keys[i]? with
  | none => i
  | some x =>
    let others := keys.eraseIdx i
    let first := (others.takeWhile (before · x)).length
    if first < i && others[i - 1]?.all (fun y => !before x y && !before y x) then i else first

def moveTo (rows : List α) (i j : Nat) : List α :=
  match rows[i]? with
  | none => rows
  | some row => (rows.eraseIdx i).insertIdx j row

/-- Take the row at an index to its place. -/
def settle (before : κ → κ → Bool) (key : α → κ) (rows : List α) (i : Nat) : List α :=
  moveTo rows i (place before (rows.map key) i)

variable {before : κ → κ → Bool} {key : α → κ} {rows : List α} {i j : Nat}

theorem stableSort_perm (before : κ → κ → Bool) (key : α → κ) (rows : List α) :
    (stableSort before key rows).Perm rows := List.perm_insertionSort _ rows

theorem stableSort_pairwise (htotal : ∀ a b : κ, before a b = false ∨ before b a = false)
    (htrans : ∀ a b c : κ, before a b = false → before b c = false → before a c = false) (key : α → κ) (rows : List α) :
    (stableSort before key rows).Pairwise (fun a b => before (key b) (key a) = false) := by
  have : Std.Total (fun a b => before (key b) (key a) = false) := ⟨fun a b => htotal (key b) (key a)⟩
  have : IsTrans α (fun a b => before (key b) (key a) = false) := ⟨fun a b c hab hbc => htrans _ _ _ hbc hab⟩
  exact List.pairwise_insertionSort _ rows

theorem stableSort_map (before : κ → κ → Bool) (key : α → κ) (f : β → α) (marks : List β) :
    stableSort before key (marks.map f) = (stableSort before (key ∘ f) marks).map f :=
  (List.map_insertionSort _ _ f marks (fun _ _ _ _ => Iff.rfl)).symm

theorem moveTo_map (f : β → α) (marks : List β) (i j : Nat) :
    moveTo (marks.map f) i j = (moveTo marks i j).map f := by
  rw [moveTo, moveTo, List.getElem?_map]
  cases marks[i]? with
  | none => rfl
  | some mark => rw [Option.map_some, List.map_insertIdx, List.eraseIdx_map]

theorem moveTo_self (rows : List α) (i : Nat) : moveTo rows i i = rows := by
  rw [moveTo]
  cases hi : rows[i]? with
  | none => rfl
  | some row =>
    obtain ⟨hlt, rfl⟩ := List.getElem?_eq_some_iff.mp hi
    exact List.insertIdx_eraseIdx_getElem hlt

theorem moveTo_perm (h : i < rows.length → j < rows.length) : (moveTo rows i j).Perm rows := by
  rw [moveTo]
  cases hi : rows[i]? with
  | none => exact .refl _
  | some row =>
    obtain ⟨hlt, rfl⟩ := List.getElem?_eq_some_iff.mp hi
    have hj : j ≤ (rows.eraseIdx i).length := by
      rw [List.length_eraseIdx_of_lt hlt]
      exact Nat.le_sub_one_of_lt (h hlt)
    exact (List.perm_insertIdx _ _ hj).trans (List.getElem_cons_eraseIdx_perm hlt)

theorem place_lt (before : κ → κ → Bool) {keys : List κ} (h : i < keys.length) : place before keys i < keys.length := by
  rw [place, List.getElem?_eq_getElem h]
  dsimp only
  split
  · exact h
  · have hprefix := (List.takeWhile_prefix (before · keys[i]) (l := keys.eraseIdx i)).length_le
    rw [List.length_eraseIdx_of_lt h] at hprefix
    omega

/-- Rows that no key tells apart stay where they are. -/
theorem place_of_equal {keys : List κ} (h : ∀ x ∈ keys, ∀ y ∈ keys, before x y = false) :
    place before keys i = i := by
  rw [place]
  cases hi : keys[i]? with
  | none => rfl
  | some x =>
    have hx : x ∈ keys := List.mem_of_getElem? hi
    have hothers : ∀ y ∈ keys.eraseIdx i, y ∈ keys := fun y hy => List.mem_of_mem_eraseIdx hy
    have hfirst : (keys.eraseIdx i).takeWhile (before · x) = [] := by
      rw [List.takeWhile_eq_nil_iff]
      intro hpos
      rw [h _ (hothers _ (List.get_mem _ ⟨0, hpos⟩)) x hx]
      exact Bool.false_ne_true
    have hequal : (keys.eraseIdx i)[i - 1]?.all (fun y => !before x y && !before y x) = true := by
      cases hprevious : (keys.eraseIdx i)[i - 1]? with
      | none => rfl
      | some y =>
        have hy := hothers y (List.mem_of_getElem? hprevious)
        rw [Option.all_some, h x hx y hy, h y hy x hx]
        rfl
    dsimp only
    rw [hfirst, List.length_nil, hequal, Bool.and_true]
    obtain rfl | hpos := Nat.eq_zero_or_pos i
    · rfl
    · rw [if_pos (decide_eq_true hpos)]

theorem map_modify {f : β → α} {g : α → α} {m : β → β} {marks : List β} {mark : β} (hi : marks[i]? = some mark)
    (h : g (f mark) = f (m mark)) : (marks.map f).modify i g = (marks.modify i m).map f := by
  induction marks generalizing i with
  | nil => cases hi
  | cons first marks ih =>
    cases i with
    | zero =>
      obtain rfl : first = mark := by simpa using hi
      rw [List.map_cons, List.modify_zero_cons, List.modify_zero_cons, List.map_cons, h]
    | succ i =>
      rw [List.getElem?_cons_succ] at hi
      rw [List.map_cons, List.modify_succ_cons, List.modify_succ_cons, List.map_cons, ih hi]

theorem modify_congr {f g : α → α} {x : α} (hi : rows[i]? = some x) (hx : f x = g x) :
    rows.modify i f = rows.modify i g := by
  have hmap := map_modify (f := id) (g := f) (m := g) hi hx
  rwa [List.map_id, List.map_id] at hmap

theorem modify_of_fixed {f : α → α} {x : α} (hi : rows[i]? = some x) (hx : f x = x) : rows.modify i f = rows :=
  (modify_congr hi hx).trans (List.modify_id i rows)

/-- With one row for each name, a change of the row of a name is a change of that row alone. -/
theorem modify_eq_map {name : α → κ} [DecidableEq κ] {x : α} (hnodup : (rows.map name).Nodup)
    (hx : rows[i]? = some x) (f : α → α) :
    rows.modify i f = rows.map (fun row => if name row = name x then f row else row) := by
  induction rows generalizing i with
  | nil => cases hx
  | cons row rows ih =>
    rw [List.map_cons, List.nodup_cons] at hnodup
    cases i with
    | zero =>
      obtain rfl : row = x := by simpa using hx
      have hrest : rows.map (fun other => if name other = name row then f other else other) = rows := by
        refine (List.map_congr_left (fun other hother => if_neg (fun heq => ?_))).trans (List.map_id rows)
        exact hnodup.1 (List.mem_map.mpr ⟨other, hother, heq⟩)
      rw [List.modify_zero_cons, List.map_cons, if_pos rfl, hrest]
    | succ i =>
      rw [List.getElem?_cons_succ] at hx
      have hne : name row ≠ name x := fun heq =>
        hnodup.1 (List.mem_map.mpr ⟨x, List.mem_of_getElem? hx, heq.symm⟩)
      rw [List.modify_succ_cons, List.map_cons, if_neg hne, ih hnodup.2 hx]

theorem indexes_absent [DecidableEq κ] {names : List κ} {x : κ} (h : x ∉ names) (n : Nat) :
    (names.zipIdx n).filterMap (fun place => if place.1 = x then some place.2 else none) = [] := by
  rw [List.filterMap_eq_nil_iff]
  intro place hplace
  have hmem : place.1 ∈ names := List.fst_mem_of_mem_zipIdx hplace
  have hne : place.1 ≠ x := fun heq => h (heq ▸ hmem)
  exact if_neg hne

theorem indexes_unique [DecidableEq κ] {names : List κ} {x : κ} (hnodup : names.Nodup) (hi : names[i]? = some x)
    (n : Nat) :
    (names.zipIdx n).filterMap (fun place => if place.1 = x then some place.2 else none) = [n + i] := by
  induction names generalizing i n with
  | nil => cases hi
  | cons name names ih =>
    rw [List.nodup_cons] at hnodup
    rw [List.zipIdx_cons]
    cases i with
    | zero =>
      obtain rfl : name = x := by simpa using hi
      rw [List.filterMap_cons, if_pos rfl, indexes_absent hnodup.1, Nat.add_zero]
    | succ i =>
      rw [List.getElem?_cons_succ] at hi
      have hne : name ≠ x := fun heq => hnodup.1 (heq ▸ List.mem_of_getElem? hi)
      rw [List.filterMap_cons, if_neg hne, ih hnodup.2 hi, Nat.add_assoc, Nat.add_comm 1 i]

theorem filterMap_zipIdx {f : α → Nat → Option β} {g : α → Option β} (h : ∀ x ∈ rows, ∀ i, f x i = g x) (n : Nat) :
    (rows.zipIdx n).filterMap (fun place => f place.1 place.2) = rows.filterMap g := by
  rw [← List.zipIdx_map_fst n rows, List.filterMap_map, List.zipIdx_map_fst]
  exact List.filterMap_congr (fun place hplace => h place.1 (List.fst_mem_of_mem_zipIdx hplace) place.2)

end OpenAdb.Lib.SortedRows
