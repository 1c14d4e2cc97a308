import Mathlib.Data.List.Infix
import Mathlib.Data.List.Nodup

namespace OpenAdb.Lib.LinkTree

variable {ν α κ : Type}

inductive Step (ν : Type)
  | up
  | into (name : ν)
  deriving DecidableEq

inductive Kind (ν : Type)
  | dir
  | file
  | link (absolute : Bool) (target : List (Step ν))
  deriving DecidableEq

structure Entry (ν α : Type) where
  kind : Kind ν
  data : α
  deriving DecidableEq

/-- A file tree with links: its entries at their places. A directory files the names of its entries under keys. -/
structure Tree (ν α κ : Type) (key : α → ν → κ) where
  nodes : List (List ν × Entry ν α)
  nodup : (nodes.map Prod.fst).Nodup
  parent : ∀ x ∈ nodes, x.1 ≠ [] → ∃ y ∈ nodes, y.1 = x.1.dropLast ∧ y.2.kind = .dir
  distinct : ∀ d ∈ nodes, ∀ x ∈ nodes, ∀ y ∈ nodes, x.1 ≠ [] → y.1 ≠ [] → x.1.dropLast = d.1 → y.1.dropLast = d.1 →
    x.1.getLast?.map (key d.2.data) = y.1.getLast?.map (key d.2.data) → x.1 = y.1

theorem exists_depth (nodes : List (List ν × Entry ν α)) : ∃ depth, ∀ x ∈ nodes, x.1.length ≤ depth := by
  induction nodes with
  | nil => exact ⟨0, fun x hx => absurd hx List.not_mem_nil⟩
  | cons x nodes ih =>
    obtain ⟨depth, hdepth⟩ := ih
    refine ⟨max x.1.length depth, List.forall_mem_cons.mpr ⟨Nat.le_max_left _ _, ?_⟩⟩
    exact fun y hy => (hdepth y hy).trans (Nat.le_max_right _ _)

namespace Tree

variable [DecidableEq ν] {key : α → ν → κ} (t : Tree ν α κ key)

def entry (p : List ν) : Option (Entry ν α) := (t.nodes.find? (fun x => decide (x.1 = p))).map Prod.snd

/-- The names in a directory, in the order of a listing. -/
def names (p : List ν) : List ν := t.nodes.filterMap (fun x => if x.1.dropLast = p then x.1.getLast? else none)

def IsDir (p : List ν) : Prop := ∃ e, t.entry p = some e ∧ e.kind = .dir

def IsLink (p : List ν) : Prop := ∃ e absolute target, t.entry p = some e ∧ e.kind = .link absolute target

variable {t} {p q : List ν} {n m : ν} {e : Entry ν α}

theorem entry_eq_some : t.entry p = some e ↔ (p, e) ∈ t.nodes := by
  rw [entry]
  constructor
  · intro h
    obtain ⟨x, hx, rfl⟩ := Option.map_eq_some_iff.mp h
    have hp : x.1 = p := by simpa using List.find?_some hx
    rw [← hp]
    exact List.mem_of_find?_eq_some hx
  · intro h
    cases hx : t.nodes.find? (fun x => decide (x.1 = p)) with
    | none =>
      have hne := List.find?_eq_none.mp hx (p, e) h
      exact absurd (decide_eq_true rfl) hne
    | some x =>
      have hp : x.1 = p := by simpa using List.find?_some hx
      have hmem := List.mem_of_find?_eq_some hx
      have heq : x = (p, e) := List.inj_on_of_nodup_map t.nodup hmem h hp
      rw [heq]
      rfl

theorem entry_ne_none : t.entry p ≠ none ↔ ∃ e, (p, e) ∈ t.nodes := by
  rw [Option.ne_none_iff_exists']
  exact exists_congr (fun e => entry_eq_some)

theorem mem_names : n ∈ t.names p ↔ t.entry (p ++ [n]) ≠ none := by
  rw [names, List.mem_filterMap, entry_ne_none]
  constructor
  · rintro ⟨⟨q, e⟩, hmem, h⟩
    by_cases hq : q.dropLast = p
    · rw [if_pos hq] at h
      obtain ⟨hne, hlast⟩ := List.mem_getLast?_eq_getLast h
      refine ⟨e, ?_⟩
      rw [← hq, hlast, List.dropLast_append_getLast hne]
      exact hmem
    · rw [if_neg hq] at h
      cases h
  · rintro ⟨e, hmem⟩
    refine ⟨(p ++ [n], e), hmem, ?_⟩
    rw [if_pos List.dropLast_concat, List.getLast?_concat]

theorem names_nodup : (t.names p).Nodup := by
  have hnames : t.names p = (t.nodes.map Prod.fst).filterMap (fun q => if q.dropLast = p then q.getLast? else none) := by
    rw [names, List.filterMap_map]
    rfl
  rw [hnames]
  refine t.nodup.filterMap ?_
  intro q q' n hq hq'
  have hplace : ∀ q : List ν, n ∈ (if q.dropLast = p then q.getLast? else none) → q = p ++ [n] := by
    intro q hq
    by_cases hp : q.dropLast = p
    · rw [if_pos hp] at hq
      obtain ⟨hne, rfl⟩ := List.mem_getLast?_eq_getLast hq
      rw [← hp, List.dropLast_append_getLast hne]
    · rw [if_neg hp] at hq
      cases hq
  rw [hplace q hq, hplace q' hq']

theorem isDir_of_entry (h : t.entry (p ++ [n]) ≠ none) : t.IsDir p := by
  obtain ⟨e, hmem⟩ := entry_ne_none.mp h
  obtain ⟨⟨q, d⟩, hd, hq, hkind⟩ := t.parent _ hmem (List.append_ne_nil_of_right_ne_nil _ (List.cons_ne_nil _ _))
  rw [List.dropLast_concat] at hq
  refine ⟨d, entry_eq_some.mpr ?_, hkind⟩
  rw [← hq]
  exact hd

/-- What is above an entry is there. -/
theorem entry_of_start (hp : p <+: q) (h : t.entry q ≠ none) : t.entry p ≠ none := by
  obtain ⟨rest, rfl⟩ := hp
  induction rest using List.reverseRecOn with
  | nil =>
    rw [List.append_nil] at h
    exact h
  | append_singleton rest n ih =>
    rw [← List.append_assoc] at h
    obtain ⟨e, he, -⟩ := isDir_of_entry h
    apply ih
    rw [he]
    exact Option.some_ne_none e

/-- Below an entry that is not a directory there is nothing. -/
theorem entry_below (h : ¬t.IsDir p) (hp : p <+: q) (hne : q ≠ p) : t.entry q = none := by
  obtain ⟨rest, rfl⟩ := hp
  cases rest with
  | nil => exact absurd (List.append_nil p) hne
  | cons n rest =>
    by_contra hq
    refine h (isDir_of_entry (n := n) (entry_of_start ?_ hq))
    exact ⟨rest, by rw [List.append_assoc, List.singleton_append]⟩

variable (t p) in
/-- Without an entry that has nothing in it. -/
def remove (h : t.names p = []) : Tree ν α κ key where
  nodes := t.nodes.filter (fun x => decide (x.1 ≠ p))
  nodup := (List.filter_sublist.map Prod.fst).nodup t.nodup
  parent := by
    intro x hx hne
    obtain ⟨y, hy, hplace, hkind⟩ := t.parent x (List.mem_of_mem_filter hx) hne
    refine ⟨y, List.mem_filter.mpr ⟨hy, decide_eq_true ?_⟩, hplace, hkind⟩
    intro hyp
    have hname : x.1.getLast hne ∈ t.names p := by
      rw [mem_names, entry_ne_none, ← hyp, hplace, List.dropLast_append_getLast hne]
      exact ⟨x.2, List.mem_of_mem_filter hx⟩
    rw [h] at hname
    cases hname
  distinct := fun d hd x hx y hy => t.distinct d (List.mem_of_mem_filter hd) x (List.mem_of_mem_filter hx) y
    (List.mem_of_mem_filter hy)

theorem entry_remove (h : t.names p = []) : (t.remove p h).entry q = if q = p then none else t.entry q := by
  apply Option.ext
  intro e
  rw [entry_eq_some, remove, List.mem_filter, decide_eq_true_eq]
  by_cases hq : q = p
  · rw [if_pos hq]
    simp [hq]
  · rw [if_neg hq, entry_eq_some]
    exact and_iff_left hq

/-- The place of what was below `a` once this is at `b`. -/
def rebase (a b p : List ν) : List ν := if a <+: p then b ++ p.drop a.length else p

theorem rebase_append (a b rest : List ν) : rebase a b (a ++ rest) = b ++ rest := by
  rw [rebase, if_pos (List.prefix_append a rest), List.drop_left]

theorem rebase_of_not {a b : List ν} (h : ¬a <+: p) : rebase a b p = p := if_neg h

/-- An entry can take a place: this is in a directory where no other name is filed under the same key, and not
below the entry itself. -/
structure CanMove (t : Tree ν α κ key) (a b : List ν) : Prop where
  source : a ≠ []
  outside : ¬a <+: b
  target : ∃ p n d, b = p ++ [n] ∧ t.entry p = some d ∧ d.kind = .dir ∧
    ∀ m ∈ t.names p, key d.data m = key d.data n → p ++ [m] = a

variable {a b : List ν}

theorem CanMove.free (h : CanMove t a b) : t.entry b = none := by
  obtain ⟨p, n, d, rfl, hd, -, hfree⟩ := h.target
  by_contra hb
  have hsame := hfree n (mem_names.mpr hb) rfl
  exact h.outside ⟨[], by rw [List.append_nil, hsame]⟩

theorem CanMove.free_below (h : CanMove t a b) (hq : t.entry q ≠ none) : ¬b <+: q :=
  fun hb => entry_of_start hb hq h.free

theorem CanMove.rebase_inj (h : CanMove t a b) (hp : t.entry p ≠ none) (hq : t.entry q ≠ none)
    (heq : rebase a b p = rebase a b q) : p = q := by
  by_cases hap : a <+: p
  · obtain ⟨rest, rfl⟩ := hap
    rw [rebase_append] at heq
    by_cases haq : a <+: q
    · obtain ⟨rest', rfl⟩ := haq
      rw [rebase_append] at heq
      rw [List.append_cancel_left heq]
    · rw [rebase_of_not haq] at heq
      exact absurd ⟨rest, heq⟩ (h.free_below hq)
  · rw [rebase_of_not hap] at heq
    by_cases haq : a <+: q
    · obtain ⟨rest', rfl⟩ := haq
      rw [rebase_append] at heq
      exact absurd ⟨rest', heq.symm⟩ (h.free_below hp)
    · rw [rebase_of_not haq] at heq
      exact heq

/-- The place of a parent, for all entries but the one that is moved. -/
theorem dropLast_rebase (hpa : p ≠ a) :
    (rebase a b p).dropLast = rebase a b p.dropLast := by
  by_cases hap : a <+: p
  · obtain ⟨rest, rfl⟩ := hap
    have hrest : rest ≠ [] := by
      rintro rfl
      exact hpa (List.append_nil a)
    rw [rebase_append, List.dropLast_append_of_ne_nil hrest, List.dropLast_append_of_ne_nil hrest, rebase_append]
  · rw [rebase_of_not hap, rebase_of_not]
    exact fun hlead => hap (hlead.trans (List.dropLast_prefix p))

theorem getLast_rebase (hpa : p ≠ a) : (rebase a b p).getLast? = p.getLast? := by
  by_cases hap : a <+: p
  · obtain ⟨rest, rfl⟩ := hap
    have hrest : rest ≠ [] := by
      rintro rfl
      exact hpa (List.append_nil a)
    rw [rebase_append, List.getLast?_append_of_ne_nil _ hrest, List.getLast?_append_of_ne_nil _ hrest]
  · rw [rebase_of_not hap]

theorem CanMove.rebase_target (h : CanMove t a (p ++ [n])) : rebase a (p ++ [n]) p = p :=
  rebase_of_not (fun ha => h.outside (ha.trans (List.prefix_append p [n])))

/-- A child of the directory that is moved to has another key, or is what is moved. -/
theorem CanMove.key_ne (h : CanMove t a b) {d x : List ν × Entry ν α} (hd : d ∈ t.nodes) (hx : x ∈ t.nodes)
    (hxa : x.1 ≠ a) (hxne : x.1 ≠ []) (hdb : b.dropLast = rebase a b d.1)
    (hxd : (rebase a b x.1).dropLast = rebase a b d.1) :
    x.1.getLast?.map (key d.2.data) ≠ b.getLast?.map (key d.2.data) := by
  obtain ⟨p, n, e, rfl, he, hkind, hfree⟩ := h.target
  have hpe : t.entry p ≠ none := by
    rw [he]
    exact Option.some_ne_none e
  have hde : t.entry d.1 ≠ none := entry_ne_none.mpr ⟨d.2, hd⟩
  have hdp : p = d.1 := by
    refine h.rebase_inj hpe hde ?_
    rw [← hdb, h.rebase_target, List.dropLast_concat]
  have hxp : x.1.dropLast = p := by
    obtain ⟨y, hy, hplace, -⟩ := t.parent x hx hxne
    refine h.rebase_inj (entry_ne_none.mpr ⟨y.2, hplace ▸ hy⟩) hpe ?_
    rw [← dropLast_rebase hxa, hxd, hdp]
  have hed : e = d.2 := by
    rw [hdp, entry_eq_some.mpr hd, Option.some_inj] at he
    exact he.symm
  have hlast : p ++ [x.1.getLast hxne] = x.1 := by
    rw [← hxp]
    exact List.dropLast_append_getLast hxne
  intro hkey
  rw [List.getLast?_concat, List.getLast?_eq_some_getLast hxne, Option.map_some, Option.map_some, Option.some_inj,
    ← hed] at hkey
  refine hxa ?_
  rw [← hlast]
  refine hfree _ (mem_names.mpr ?_) hkey
  rw [hlast]
  exact entry_ne_none.mpr ⟨x.2, hx⟩

theorem CanMove.ne_nil_of_rebase (h : CanMove t a b) (hp : rebase a b p ≠ []) : p ≠ [] := by
  rintro rfl
  refine hp (rebase_of_not ?_)
  rw [List.prefix_nil]
  exact h.source

variable (t a b) in
/-- With an entry, and all that is below it, at another place. -/
def move (h : CanMove t a b) : Tree ν α κ key where
  nodes := t.nodes.map (fun x => (rebase a b x.1, x.2))
  nodup := by
    rw [List.map_map]
    refine (List.Nodup.of_map Prod.fst t.nodup).map_on ?_
    intro x hx y hy heq
    have hplace := h.rebase_inj (entry_ne_none.mpr ⟨x.2, hx⟩) (entry_ne_none.mpr ⟨y.2, hy⟩) heq
    exact List.inj_on_of_nodup_map t.nodup hx hy hplace
  parent := by
    intro x' hx' hne
    obtain ⟨x, hx, rfl⟩ := List.mem_map.mp hx'
    by_cases hxa : x.1 = a
    · obtain ⟨p, n, d, rfl, hd, hkind, -⟩ := h.target
      refine ⟨_, List.mem_map.mpr ⟨(p, d), entry_eq_some.mp hd, rfl⟩, ?_, hkind⟩
      have hb : rebase a (p ++ [n]) x.1 = p ++ [n] := by
        have := rebase_append a (p ++ [n]) []
        rw [List.append_nil, List.append_nil] at this
        rw [hxa, this]
      rw [hb, List.dropLast_concat, h.rebase_target]
    · obtain ⟨y, hy, hplace, hkind⟩ := t.parent x hx (h.ne_nil_of_rebase hne)
      refine ⟨_, List.mem_map.mpr ⟨y, hy, rfl⟩, ?_, hkind⟩
      rw [hplace, dropLast_rebase hxa]
  distinct := by
    intro d' hd' x' hx' y' hy' hxne hyne hxd hyd hkey
    obtain ⟨d, hd, rfl⟩ := List.mem_map.mp hd'
    obtain ⟨x, hx, rfl⟩ := List.mem_map.mp hx'
    obtain ⟨y, hy, rfl⟩ := List.mem_map.mp hy'
    have hb : ∀ z : List ν × Entry ν α, z.1 = a → rebase a b z.1 = b := by
      intro z hz
      have := rebase_append a b []
      rw [List.append_nil, List.append_nil] at this
      rw [hz, this]
    dsimp only at hxne hyne hxd hyd hkey ⊢
    by_cases hxa : x.1 = a
    · by_cases hya : y.1 = a
      · rw [hxa, hya]
      · rw [hb x hxa] at hxd hkey
        rw [getLast_rebase hya] at hkey
        exact absurd hkey.symm (h.key_ne hd hy hya (h.ne_nil_of_rebase hyne) hxd hyd)
    · by_cases hya : y.1 = a
      · rw [hb y hya] at hyd hkey
        rw [getLast_rebase hxa] at hkey
        exact absurd hkey (h.key_ne hd hx hxa (h.ne_nil_of_rebase hxne) hyd hxd)
      · have hparent : ∀ z ∈ t.nodes, z.1 ≠ a → rebase a b z.1 ≠ [] →
            (rebase a b z.1).dropLast = rebase a b d.1 → z.1.dropLast = d.1 := by
          intro z hz hza hzne hzd
          obtain ⟨w, hw, hplace, -⟩ := t.parent z hz (h.ne_nil_of_rebase hzne)
          refine h.rebase_inj (entry_ne_none.mpr ⟨w.2, hplace ▸ hw⟩) (entry_ne_none.mpr ⟨d.2, hd⟩) ?_
          rw [← dropLast_rebase hza, hzd]
        rw [getLast_rebase hxa, getLast_rebase hya] at hkey
        rw [t.distinct d hd x hx y hy (h.ne_nil_of_rebase hxne) (h.ne_nil_of_rebase hyne)
          (hparent x hx hxa hxne hxd) (hparent y hy hya hyne hyd) hkey]

/-- What is at the new place was at the old one. -/
theorem entry_move_target (h : CanMove t a b) (rest : List ν) :
    (t.move a b h).entry (b ++ rest) = t.entry (a ++ rest) := by
  apply Option.ext
  intro e
  rw [entry_eq_some, entry_eq_some, move, List.mem_map]
  constructor
  · rintro ⟨x, hx, heq⟩
    obtain ⟨hplace, rfl⟩ := Prod.mk.inj heq
    by_cases hax : a <+: x.1
    · obtain ⟨rest', hrest⟩ := hax
      rw [← hrest, rebase_append] at hplace
      rw [← List.append_cancel_left hplace, hrest]
      exact hx
    · rw [rebase_of_not hax] at hplace
      exact absurd ⟨rest, hplace.symm⟩ (h.free_below (entry_ne_none.mpr ⟨x.2, hx⟩))
  · intro hmem
    exact ⟨_, hmem, by rw [rebase_append]⟩

/-- Nothing is left at the old place, and the rest is as it was. -/
theorem entry_move (h : CanMove t a b) (hq : ¬b <+: q) :
    (t.move a b h).entry q = if a <+: q then none else t.entry q := by
  apply Option.ext
  intro e
  rw [entry_eq_some, move, List.mem_map]
  by_cases haq : a <+: q
  · rw [if_pos haq]
    refine ⟨?_, fun h => by cases h⟩
    rintro ⟨x, hx, heq⟩
    obtain ⟨hplace, rfl⟩ := Prod.mk.inj heq
    exfalso
    by_cases hax : a <+: x.1
    · obtain ⟨rest, hrest⟩ := hax
      rw [← hrest, rebase_append] at hplace
      exact hq ⟨rest, hplace⟩
    · rw [rebase_of_not hax] at hplace
      exact hax (hplace ▸ haq)
  · rw [if_neg haq, entry_eq_some]
    constructor
    · rintro ⟨x, hx, heq⟩
      obtain ⟨hplace, rfl⟩ := Prod.mk.inj heq
      by_cases hax : a <+: x.1
      · obtain ⟨rest, hrest⟩ := hax
        rw [← hrest, rebase_append] at hplace
        exact absurd ⟨rest, hplace⟩ hq
      · rw [rebase_of_not hax] at hplace
        rw [← hplace]
        exact hx
    · intro hmem
      exact ⟨_, hmem, by rw [rebase_of_not haq]⟩

/-- Each entry of the one tree is in the other as well. -/
def Within (t' t : Tree ν α κ key) : Prop := ∀ p e, t'.entry p = some e → t.entry p = some e

variable {t' : Tree ν α κ key}

theorem Within.refl (t : Tree ν α κ key) : Within t t := fun _ _ h => h

theorem Within.trans {t'' : Tree ν α κ key} (h' : Within t'' t') (h : Within t' t) : Within t'' t :=
  fun p e he => h p e (h' p e he)

theorem within_remove (h : t.names p = []) : Within (t.remove p h) t := by
  intro q e he
  rw [entry_remove] at he
  by_cases hq : q = p
  · rw [if_pos hq] at he
    cases he
  · rw [if_neg hq] at he
    exact he

/-- No part of a tree repeats itself below itself. -/
theorem entry_of_repeat {a w : List ν} (hw : w ≠ [])
    (h : ∀ rest, t.entry (a ++ (w ++ rest)) = t.entry (a ++ rest)) : t.entry a = none := by
  by_contra ha
  have hdeep : ∀ depth : Nat, ∃ rest : List ν, depth ≤ rest.length ∧ t.entry (a ++ rest) ≠ none := by
    intro depth
    induction depth with
    | zero => exact ⟨[], Nat.zero_le _, by rw [List.append_nil]; exact ha⟩
    | succ depth ih =>
      obtain ⟨rest, hlength, hrest⟩ := ih
      refine ⟨w ++ rest, ?_, by rw [h]; exact hrest⟩
      have := List.length_pos_of_ne_nil hw
      rw [List.length_append]
      omega
  obtain ⟨depth, hdepth⟩ := exists_depth t.nodes
  obtain ⟨rest, hlength, hrest⟩ := hdeep (depth + 1)
  obtain ⟨e, hmem⟩ := entry_ne_none.mp hrest
  have hle := hdepth _ hmem
  rw [List.length_append] at hle
  omega

variable [DecidableEq κ] (t)

/-- The entry that a name denotes, by the name under which it is kept. -/
def child (p : List ν) (n : ν) : Option ν :=
  match t.entry p with
  | none => none
  | some d => (t.names p).find? (fun m => decide (key d.data m = key d.data n))

/-- Walk down from a directory; a link is followed by `again`, unless it is the last and to be kept. -/
def walk (again : List ν → List (Step ν) → Option (List ν)) : List ν → List (Step ν) → Option (List ν)
  | p, [] => some p
  | p, .up :: steps => walk again p.dropLast steps
  | p, .into n :: steps =>
    match t.child p n with
    | none => none
    | some m =>
      match t.entry (p ++ [m]) with
      | none => none
      | some ⟨.dir, _⟩ => walk again (p ++ [m]) steps
      | some ⟨.file, _⟩ => if steps = [] then some (p ++ [m]) else none
      | some ⟨.link absolute target, _⟩ => again (if absolute = true then [] else p) (target ++ steps)

/-- The place that a path leads to, with no more links on the way than allowed. -/
def follow : Nat → List ν → List (Step ν) → Option (List ν)
  | 0 => t.walk (fun _ _ => none)
  | links + 1 => t.walk (follow links)

/-- The directory that a path from the root names its entry in. -/
def folder (links : Nat) (names : List ν) : Option (List ν) := t.follow links [] (names.dropLast.map .into)

/-- The place of the entry that the names from the root lead to. A link at their end is not followed. -/
def place (links : Nat) (names : List ν) : Option (List ν) :=
  match names.getLast? with
  | none => some []
  | some n =>
    match t.folder links names with
    | none => none
    | some p => (t.child p n).map (fun m => p ++ [m])

/-- The place of the entry that a path from the root names. A link at its end is not followed. -/
def locate (links : Nat) (steps : List (Step ν)) : Option (List ν) :=
  match steps.getLast? with
  | some (.into n) =>
    match t.follow links [] steps.dropLast with
    | none => none
    | some p => (t.child p n).map (fun m => p ++ [m])
  | _ => t.follow links [] steps

variable {t}

theorem child_mem (h : t.child p n = some m) : m ∈ t.names p := by
  rw [child] at h
  cases hd : t.entry p with
  | none =>
    rw [hd] at h
    cases h
  | some d =>
    rw [hd] at h
    exact List.mem_of_find?_eq_some h

theorem child_eq_some {d : Entry ν α} (hd : t.entry p = some d) :
    t.child p n = some m ↔ m ∈ t.names p ∧ key d.data m = key d.data n := by
  rw [child, hd]
  dsimp only
  constructor
  · intro h
    have hkey : key d.data m = key d.data n := by simpa using List.find?_some h
    exact ⟨List.mem_of_find?_eq_some h, hkey⟩
  · rintro ⟨hm, hkey⟩
    cases hfound : (t.names p).find? (fun m => decide (key d.data m = key d.data n)) with
    | none => exact absurd (decide_eq_true hkey) (List.find?_eq_none.mp hfound m hm)
    | some m' =>
      have hm' := List.mem_of_find?_eq_some hfound
      have hkey' : key d.data m' = key d.data n := by simpa using List.find?_some hfound
      obtain ⟨x, hx⟩ := entry_ne_none.mp (mem_names.mp hm)
      obtain ⟨x', hx'⟩ := entry_ne_none.mp (mem_names.mp hm')
      have hsame := t.distinct _ (entry_eq_some.mp hd) _ hx' _ hx
        (List.append_ne_nil_of_right_ne_nil _ (List.cons_ne_nil _ _))
        (List.append_ne_nil_of_right_ne_nil _ (List.cons_ne_nil _ _)) List.dropLast_concat List.dropLast_concat
        (by rw [List.getLast?_concat, List.getLast?_concat, Option.map_some, Option.map_some, hkey, hkey'])
      rw [(List.cons.inj (List.append_cancel_left hsame)).1]

theorem child_eq_none {d : Entry ν α} (hd : t.entry p = some d) :
    t.child p n = none ↔ ∀ m ∈ t.names p, key d.data m ≠ key d.data n := by
  rw [child, hd]
  dsimp only
  rw [List.find?_eq_none]
  simp only [decide_eq_true_eq]

theorem entry_child (h : t.child p n = some m) : t.entry (p ++ [m]) ≠ none := mem_names.mp (child_mem h)

/-- A path with one more name leads on from where the path leads, and no further unless the name is that of a link. -/
theorem walk_concat {again : List ν → List (Step ν) → Option (List ν)} {steps : List (Step ν)} {r : List ν}
    (hagain : ∀ p steps r, again p (steps ++ [.into n]) = some r →
      ∃ q m, again p steps = some q ∧ t.child q n = some m ∧ (¬t.IsLink (q ++ [m]) → r = q ++ [m]))
    (h : t.walk again p (steps ++ [.into n]) = some r) :
    ∃ q m, t.walk again p steps = some q ∧ t.child q n = some m ∧ (¬t.IsLink (q ++ [m]) → r = q ++ [m]) := by
  induction steps generalizing p with
  | nil =>
    rw [List.nil_append, walk] at h
    cases hchild : t.child p n with
    | none =>
      rw [hchild] at h
      cases h
    | some m =>
      rw [hchild] at h
      dsimp only at h
      refine ⟨p, m, rfl, hchild, fun hlink => ?_⟩
      cases hentry : t.entry (p ++ [m]) with
      | none =>
        rw [hentry] at h
        cases h
      | some e =>
        obtain ⟨kind, data⟩ := e
        rw [hentry] at h
        cases kind with
        | dir => exact (Option.some_inj.mp h).symm
        | file => exact (Option.some_inj.mp h).symm
        | link absolute target => exact absurd ⟨_, absolute, target, hentry, rfl⟩ hlink
  | cons step steps ih =>
    cases step with
    | up => exact ih h
    | into first =>
      rw [List.cons_append, walk] at h
      rw [walk]
      cases hchild : t.child p first with
      | none =>
        rw [hchild] at h
        cases h
      | some m =>
        rw [hchild] at h
        dsimp only at h ⊢
        cases hentry : t.entry (p ++ [m]) with
        | none =>
          rw [hentry] at h
          cases h
        | some e =>
          obtain ⟨kind, data⟩ := e
          rw [hentry] at h
          cases kind with
          | dir => exact ih h
          | file =>
            dsimp only at h
            rw [if_neg (List.append_ne_nil_of_right_ne_nil _ (List.cons_ne_nil _ _))] at h
            cases h
          | link absolute target =>
            dsimp only at h ⊢
            rw [← List.append_assoc] at h
            exact hagain _ _ _ h

theorem follow_concat {links : Nat} {steps : List (Step ν)} {r : List ν}
    (h : t.follow links p (steps ++ [.into n]) = some r) :
    ∃ q m, t.follow links p steps = some q ∧ t.child q n = some m ∧ (¬t.IsLink (q ++ [m]) → r = q ++ [m]) := by
  induction links generalizing p steps r with
  | zero =>
    refine walk_concat ?_ h
    intro _ _ _ h
    cases h
  | succ links ih =>
    refine walk_concat ?_ h
    intro _ _ _ h
    exact ih h

/-- A path with the name of a directory leads to this from where the path leads. -/
theorem walk_concat_dir {again : List ν → List (Step ν) → Option (List ν)} {steps : List (Step ν)}
    (hagain : ∀ p steps, again p steps = some q → again p (steps ++ [.into n]) = some (q ++ [m]))
    (h : t.walk again p steps = some q) (hchild : t.child q n = some m) (hdir : t.IsDir (q ++ [m])) :
    t.walk again p (steps ++ [.into n]) = some (q ++ [m]) := by
  induction steps generalizing p with
  | nil =>
    rw [walk, Option.some_inj] at h
    subst h
    obtain ⟨⟨kind, data⟩, he, hkind⟩ := hdir
    dsimp only at hkind
    subst hkind
    rw [List.nil_append, walk, hchild]
    dsimp only
    rw [he]
    rfl
  | cons step steps ih =>
    cases step with
    | up => exact ih h
    | into first =>
      rw [walk] at h
      rw [List.cons_append, walk]
      cases hfirst : t.child p first with
      | none =>
        rw [hfirst] at h
        cases h
      | some m' =>
        rw [hfirst] at h
        dsimp only at h ⊢
        cases hentry : t.entry (p ++ [m']) with
        | none =>
          rw [hentry] at h
          cases h
        | some e =>
          obtain ⟨kind, data⟩ := e
          rw [hentry] at h
          cases kind with
          | dir => exact ih h
          | file =>
            dsimp only at h
            by_cases hsteps : steps = []
            · rw [if_pos hsteps, Option.some_inj] at h
              subst h
              obtain ⟨e', he', hkind⟩ := isDir_of_entry (entry_child hchild)
              rw [hentry] at he'
              cases he'
              cases hkind
            · rw [if_neg hsteps] at h
              cases h
          | link absolute target =>
            dsimp only at h ⊢
            rw [← List.append_assoc]
            exact hagain _ _ h

theorem follow_concat_dir {links : Nat} {steps : List (Step ν)} (h : t.follow links p steps = some q)
    (hchild : t.child q n = some m) (hdir : t.IsDir (q ++ [m])) :
    t.follow links p (steps ++ [.into n]) = some (q ++ [m]) := by
  induction links generalizing p steps with
  | zero =>
    refine walk_concat_dir ?_ h hchild hdir
    intro _ _ h
    cases h
  | succ links ih =>
    refine walk_concat_dir ?_ h hchild hdir
    intro _ _ h
    exact ih h

theorem follow_nil (links : Nat) (p : List ν) : t.follow links p [] = some p := by
  cases links with
  | zero => rfl
  | succ links => rfl

theorem child_self (hn : n ∈ t.names p) : t.child p n = some n := by
  obtain ⟨d, hd, -⟩ := isDir_of_entry (mem_names.mp hn)
  exact (child_eq_some hd).mpr ⟨hn, rfl⟩

theorem locate_concat {links : Nat} {steps : List (Step ν)} (h : t.follow links [] steps = some p) :
    t.locate links (steps ++ [.into n]) = (t.child p n).map (fun m => p ++ [m]) := by
  rw [locate, List.getLast?_concat]
  dsimp only
  rw [List.dropLast_concat, h]

/-- A path that names a directory leads to it. -/
theorem follow_of_locate {links : Nat} {steps : List (Step ν)} (h : t.locate links steps = some p)
    (hdir : t.IsDir p) : t.follow links [] steps = some p := by
  rw [locate] at h
  cases hlast : steps.getLast? with
  | none =>
    rw [hlast] at h
    exact h
  | some step =>
    rw [hlast] at h
    cases step with
    | up => exact h
    | into n =>
      obtain ⟨hne, hstep⟩ := List.mem_getLast?_eq_getLast hlast
      dsimp only at h
      cases hfollow : t.follow links [] steps.dropLast with
      | none =>
        rw [hfollow] at h
        cases h
      | some q =>
        rw [hfollow] at h
        obtain ⟨m, hm, rfl⟩ := Option.map_eq_some_iff.mp h
        have hto := follow_concat_dir hfollow hm hdir
        rw [hstep, List.dropLast_append_getLast hne] at hto
        exact hto

theorem Within.child (h : Within t' t) (hchild : t'.child p n = some m) : t.child p n = some m := by
  have hm := child_mem hchild
  obtain ⟨d, hd, -⟩ := isDir_of_entry (mem_names.mp hm)
  obtain ⟨e, he⟩ := Option.ne_none_iff_exists'.mp (mem_names.mp hm)
  refine (child_eq_some (h _ _ hd)).mpr ⟨mem_names.mpr ?_, ((child_eq_some hd).mp hchild).2⟩
  rw [h _ _ he]
  exact Option.some_ne_none e

theorem Within.walk (h : Within t' t) {again again' : List ν → List (Step ν) → Option (List ν)}
    (hagain : ∀ p steps r, again' p steps = some r → again p steps = some r) {steps : List (Step ν)} {r : List ν}
    (hwalk : t'.walk again' p steps = some r) : t.walk again p steps = some r := by
  induction steps generalizing p with
  | nil => exact hwalk
  | cons step steps ih =>
    cases step with
    | up => exact ih hwalk
    | into n =>
      rw [Tree.walk] at hwalk ⊢
      cases hchild : t'.child p n with
      | none =>
        rw [hchild] at hwalk
        cases hwalk
      | some m =>
        rw [hchild] at hwalk
        rw [h.child hchild]
        dsimp only at hwalk ⊢
        cases hentry : t'.entry (p ++ [m]) with
        | none =>
          rw [hentry] at hwalk
          cases hwalk
        | some e =>
          obtain ⟨kind, data⟩ := e
          rw [hentry] at hwalk
          rw [h _ _ hentry]
          cases kind with
          | dir => exact ih hwalk
          | file => exact hwalk
          | link absolute target => exact hagain _ _ _ hwalk

/-- Where a path leads in a part of a tree, it leads in the tree. -/
theorem Within.follow (h : Within t' t) {links : Nat} {steps : List (Step ν)} {r : List ν}
    (hfollow : t'.follow links p steps = some r) : t.follow links p steps = some r := by
  induction links generalizing p steps r with
  | zero => exact h.walk (fun _ _ _ hnone => hnone) hfollow
  | succ links ih => exact h.walk (fun _ _ _ hlink => ih hlink) hfollow

theorem Within.locate (h : Within t' t) {links : Nat} {steps : List (Step ν)} {r : List ν}
    (hlocate : t'.locate links steps = some r) : t.locate links steps = some r := by
  rw [Tree.locate] at hlocate ⊢
  cases hlast : steps.getLast? with
  | none =>
    rw [hlast] at hlocate
    exact h.follow hlocate
  | some step =>
    rw [hlast] at hlocate
    cases step with
    | up => exact h.follow hlocate
    | into n =>
      dsimp only at hlocate ⊢
      cases hfollow : t'.follow links [] steps.dropLast with
      | none =>
        rw [hfollow] at hlocate
        cases hlocate
      | some p =>
        rw [hfollow] at hlocate
        rw [h.follow hfollow]
        obtain ⟨m, hm, rfl⟩ := Option.map_eq_some_iff.mp hlocate
        dsimp only
        rw [h.child hm]
        rfl

theorem place_eq_some {links : Nat} {names : List ν} (hne : names ≠ []) (h : t.place links names = some q) :
    ∃ p n m, t.folder links names = some p ∧ names.getLast? = some n ∧ t.child p n = some m ∧ q = p ++ [m] := by
  have hlast := List.getLast?_eq_some_getLast hne
  rw [place, hlast] at h
  dsimp only at h
  cases hfolder : t.folder links names with
  | none =>
    rw [hfolder] at h
    cases h
  | some p =>
    rw [hfolder] at h
    obtain ⟨m, hm, rfl⟩ := Option.map_eq_some_iff.mp h
    exact ⟨p, _, m, rfl, hlast, hm, rfl⟩

/-- Two names under one key are one. -/
theorem name_unique {d : Entry ν α} {m' : ν} (hd : t.entry p = some d) (hm : m ∈ t.names p) (hm' : m' ∈ t.names p)
    (hkey : key d.data m = key d.data m') : m = m' := by
  have h1 : t.child p m' = some m := (child_eq_some hd).mpr ⟨hm, hkey⟩
  have h2 : t.child p m' = some m' := (child_eq_some hd).mpr ⟨hm', rfl⟩
  rw [h1, Option.some_inj] at h2
  exact h2

end Tree

end OpenAdb.Lib.LinkTree
