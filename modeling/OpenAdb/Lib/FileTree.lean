import Mathlib.Data.Finmap
import Mathlib.Data.Finset.Lattice.Fold
import Mathlib.Order.Lattice.Nat

namespace OpenAdb.Lib.FileTree

variable {ν α : Type} [DecidableEq ν]

inductive Node (α : Type)
  | dir
  | file (a : α)
  deriving DecidableEq

/-- Paths are relative to a root that is always a directory. -/
abbrev Tree (ν α : Type) := Finmap (fun _ : List ν => Node α)

def isDir (t : Tree ν α) (p : List ν) : Bool :=
  p.isEmpty || match t.lookup p with
    | some .dir => true
    | _ => false

def contentAt (t : Tree ν α) (p : List ν) : Option α :=
  match t.lookup p with
  | some (.file a) => some a
  | _ => none

def HasChildren (t : Tree ν α) (p : List ν) : Prop := ∃ q ∈ t.keys, q ≠ [] ∧ q.dropLast = p

instance (t : Tree ν α) (p : List ν) : Decidable (HasChildren t p) :=
  inferInstanceAs (Decidable (∃ q ∈ t.keys, q ≠ [] ∧ q.dropLast = p))

/-- Walk down from `base` and create what is missing; a file in the way ends the walk. -/
def makeDirectories (t : Tree ν α) (base : List ν) : List ν → Bool × Tree ν α
  | [] => (true, t)
  | n :: rest =>
    match t.lookup (base ++ [n]) with
    | some .dir => makeDirectories t (base ++ [n]) rest
    | some (.file _) => (false, t)
    | none => makeDirectories (t.insert (base ++ [n]) .dir) (base ++ [n]) rest

theorem contentAt_insert_file (t : Tree ν α) (p : List ν) (a : α) :
    contentAt (t.insert p (.file a)) = Function.update (contentAt t) p (some a) := by
  funext q
  by_cases h : q = p
  · subst h
    rw [contentAt, Finmap.lookup_insert, Function.update_self]
  · rw [contentAt, Finmap.lookup_insert_of_ne _ h, Function.update_of_ne h]
    rfl

theorem contentAt_insert_dir {t : Tree ν α} {p : List ν} (h : contentAt t p = none) :
    contentAt (t.insert p .dir) = contentAt t := by
  funext q
  by_cases hq : q = p
  · subst hq
    rw [h, contentAt, Finmap.lookup_insert]
  · rw [contentAt, Finmap.lookup_insert_of_ne _ hq]
    rfl

theorem contentAt_erase (t : Tree ν α) (p : List ν) :
    contentAt (t.erase p) = Function.update (contentAt t) p none := by
  funext q
  by_cases h : q = p
  · subst h
    rw [contentAt, Finmap.lookup_erase, Function.update_self]
  · rw [contentAt, Finmap.lookup_erase_ne h, Function.update_of_ne h]
    rfl

theorem contentAt_of_lookup_none {t : Tree ν α} {p : List ν} (h : t.lookup p = none) :
    contentAt t p = none := by
  rw [contentAt, h]

/-- Creating directories touches no file. -/
theorem contentAt_makeDirectories (t : Tree ν α) (base rest : List ν) :
    contentAt (makeDirectories t base rest).2 = contentAt t := by
  induction rest generalizing t base with
  | nil => rfl
  | cons n rest ih =>
    rw [makeDirectories]
    cases hl : t.lookup (base ++ [n]) with
    | none => exact (ih _ _).trans (contentAt_insert_dir (contentAt_of_lookup_none hl))
    | some node =>
      cases node with
      | dir => exact ih _ _
      | file a => rfl

/-- A source of names that are new in a directory and differ from a given name. -/
structure FreshNames (ν α : Type) [DecidableEq ν] where
  next : Tree ν α → List ν → ν → ν
  fresh : ∀ (t : Tree ν α) (parent : List ν) (avoid : ν),
    t.lookup (parent ++ [next t parent avoid]) = none
  ne : ∀ (t : Tree ν α) (parent : List ν) (avoid : ν), next t parent avoid ≠ avoid

/-- The name that is longer than every name in the tree. -/
def FreshNames.longest (α : Type) : FreshNames (List Char) α where
  next t _ avoid :=
    List.replicate (t.keys.sup (fun p => (p.getLast?.getD []).length) + avoid.length + 1) 'x'
  fresh t parent avoid := by
    by_contra h
    rw [← ne_eq, ← Option.isSome_iff_ne_none, Finmap.lookup_isSome, ← Finmap.mem_keys] at h
    have hle := Finset.le_sup (f := fun p : List (List Char) => (p.getLast?.getD []).length) h
    simp only [List.getLast?_append, List.getLast?_singleton, Option.some_or, Option.getD_some,
      List.length_replicate] at hle
    omega
  ne t _ avoid h := by
    have := congrArg List.length h
    rw [List.length_replicate] at this
    omega

end OpenAdb.Lib.FileTree
