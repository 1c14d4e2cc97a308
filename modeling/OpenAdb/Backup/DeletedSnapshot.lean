import OpenAdb.Backup.Deletion

namespace OpenAdb.Backup.DeletedSnapshot

open OpenAdb.Lib.Effects OpenAdb.Lib.EventLog OpenAdb.Lib.LinkTree OpenAdb.Lib.PyText
open OpenAdb.Backup.Deletion

variable {α κ π : Type} {key : α → Text → κ} {w : World} {t t' : Tree Text α κ key} {a p q : List Text}
  {n : Text} {names : List Text} {op : Op} {allowed : Entry Text α → Bool} {frames links : Nat}
  {path root : List (Step Text)} {part : Text → π}

/-- Entries went only at or below a place. -/
structure Removed (t : Tree Text α κ key) (a : List Text) (t' : Tree Text α κ key) : Prop where
  within : t'.Within t
  frame : ∀ q, t'.entry q ≠ t.entry q → a <+: q

/-- What a deletion is for: it removes entries, and only at or below a place. -/
def RemovesOnly (t : Tree Text α κ key) (a : List Text) (t' : Tree Text α κ key) : Prop :=
  ∀ q, t'.entry q ≠ t.entry q → t'.entry q = none ∧ a <+: q

theorem Removed.refl (t : Tree Text α κ key) (a : List Text) : Removed t a t :=
  ⟨Tree.Within.refl t, fun _ h => absurd rfl h⟩

theorem Removed.removesOnly (h : Removed t a t') : RemovesOnly t a t' := by
  intro q hq
  refine ⟨?_, h.frame q hq⟩
  rw [Option.eq_none_iff_forall_ne_some]
  intro e he
  exact hq (he.trans (h.within _ _ he).symm)

theorem Removed.trans {t'' : Tree Text α κ key} (h : Removed t a t') (h' : Removed t' p t'') (hp : a <+: p) :
    Removed t a t'' := by
  refine ⟨h'.within.trans h.within, fun q hq => ?_⟩
  by_cases heq : t'.entry q = t.entry q
  · rw [← heq] at hq
    exact hp.trans (h'.frame q hq)
  · exact h.frame q heq

theorem attempt_keeps : Keeps State.tree (attempt w op : Effect Raised (State α κ key) Bool) := by
  intro s
  rfl

theorem isCancelled_keeps : Keeps State.tree (isCancelled w : Effect Raised (State α κ key) Bool) := by
  intro s
  rfl

theorem isProfileCurrent_keeps : Keeps State.tree (isProfileCurrent w : Effect Raised (State α κ key) Bool) := by
  intro s
  rfl

theorem managerForProfile_keeps : Keeps State.tree (managerForProfile w : Effect Raised (State α κ key) Unit) := by
  refine Keeps.bind attempt_keeps (fun going => ?_)
  cases going with
  | false => exact .raise _
  | true => exact .pure _

theorem isRealDir_keeps : Keeps State.tree (isRealDir w p : Effect Raised (State α κ key) Bool) := by
  refine Keeps.bind attempt_keeps (fun going => ?_)
  cases going with
  | false => exact .pure _
  | true => exact .read _

theorem scandir_keeps : Keeps State.tree (scandir w p : Effect Raised (State α κ key) (List Text)) := by
  refine Keeps.bind attempt_keeps (fun going => ?_)
  cases going with
  | false => exact .raise _
  | true =>
    refine Keeps.bind (.read _) (fun found => ?_)
    obtain ⟨real, names⟩ := found
    cases real with
    | false => exact .raise _
    | true => exact .pure _

/-- What follows a step that changes nothing. -/
theorem meets_after {β γ : Type} {x : Effect Raised (State α κ key) β} {f : β → Effect Raised (State α κ key) γ}
    {Q : γ → State α κ key → Prop} (hx : Keeps State.tree x)
    (hf : ∀ b, Meets (fun s => s.tree = t) (f b) Q (fun _ s => Removed t a s.tree)) :
    Meets (fun s => s.tree = t) (x >>= f) Q (fun _ s => Removed t a s.tree) := by
  refine Meets.bind ((hx.meets (fun tree => tree = t)).weaken (fun _ s hs => ?_)) hf
  rw [hs]
  exact Removed.refl _ _

/-- One entry at a time goes, and none that has something in it. -/
theorem removing_meets (ha : a <+: p) :
    Meets (fun s => Removed t a s.tree) (removing w op p allowed : Effect Raised (State α κ key) Unit)
      (fun _ s => Removed t a s.tree) (fun _ s => Removed t a s.tree) := by
  refine Meets.bind (attempt_keeps.meets (Removed t a)) (fun going => ?_)
  cases going with
  | false => exact Meets.raise (fun _ h => h)
  | true =>
    intro s hs
    dsimp only
    by_cases hnames : s.tree.names p = []
    · rw [dif_pos hnames]
      by_cases hallowed : (s.tree.entry p).any allowed = true
      · rw [if_pos hallowed]
        refine Removed.trans hs ⟨Tree.within_remove hnames, fun q hq => ?_⟩ ha
        by_contra hout
        refine hq ?_
        rw [Tree.entry_remove, if_neg (fun h => hout (by rw [h]))]
      · rw [if_neg hallowed]
        exact hs
    · rw [dif_neg hnames]
      exact hs

theorem removeEntries_meets (ha : a <+: p) {remove : List Text → Effect Raised (State α κ key) Unit}
    (hremove : ∀ p, a <+: p → Meets (fun s => Removed t a s.tree) (remove p) (fun _ s => Removed t a s.tree)
      (fun _ s => Removed t a s.tree)) :
    Meets (fun s => Removed t a s.tree) (removeEntries w remove p names) (fun _ s => Removed t a s.tree)
      (fun _ s => Removed t a s.tree) := by
  induction names with
  | nil => exact Meets.pure (fun _ h => h)
  | cons n names ih =>
    have hn : a <+: p ++ [n] := ha.trans (List.prefix_append _ _)
    refine Meets.bind (isRealDir_keeps.meets (Removed t a)) (fun real => ?_)
    cases real with
    | false => exact Meets.bind (removing_meets hn) (fun _ => ih)
    | true => exact Meets.bind (hremove _ hn) (fun _ => ih)

/-- Whatever fails, only what is below goes. -/
theorem rmtree_meets (ha : a <+: p) :
    Meets (fun s => Removed t a s.tree) (rmtree w frames p : Effect Raised (State α κ key) Unit)
      (fun _ s => Removed t a s.tree) (fun _ s => Removed t a s.tree) := by
  induction frames generalizing p with
  | zero => exact Meets.raise (fun _ h => h)
  | succ frames ih =>
    refine Meets.bind (scandir_keeps.meets (Removed t a)) (fun names => ?_)
    refine Meets.bind (removeEntries_meets ha (fun _ h => ih h)) (fun _ => ?_)
    exact removing_meets ha

theorem entry_of_isDir (h : t.IsDir p) : t.entry p ≠ none := by
  obtain ⟨e, he, -⟩ := h
  rw [he]
  exact Option.some_ne_none e

theorem isDir_of_prefix (hp : p <+: q) (hdir : t.IsDir q) : t.IsDir p := by
  obtain ⟨rest, rfl⟩ := hp
  cases rest with
  | nil =>
    rw [List.append_nil] at hdir
    exact hdir
  | cons n rest =>
    have hbelow : p ++ [n] <+: p ++ n :: rest := ⟨rest, by rw [List.append_assoc, List.singleton_append]⟩
    exact Tree.isDir_of_entry (Tree.entry_of_start hbelow (entry_of_isDir hdir))

/-! Nothing fails. -/

theorem never_sticky (log : Log) (e : Event) (h : (fun _ => false) log = true) :
    (fun _ => false) (e :: log) = true :=
  h

def calm : World := ⟨⟨fun _ => false, never_sticky⟩, fun _ => true, fun _ _ => false⟩

/-- A state of the loop over a directory: what is left in it are the names to come. -/
structure Emptying (t : Tree Text α κ key) (p names : List Text) (t' : Tree Text α κ key) : Prop where
  within : t'.Within t
  frame : ∀ q, t'.entry q ≠ t.entry q → p <+: q ∧ q ≠ p
  names : ∀ m, m ∈ t'.names p ↔ m ∈ names

/-- Removed with all that was below it. -/
def Gone (t : Tree Text α κ key) (p : List Text) (t' : Tree Text α κ key) : Prop :=
  Removed t p t' ∧ t'.entry p = none

theorem Emptying.step (h : Emptying t p (n :: names) t') {t'' : Tree Text α κ key} (hnodup : (n :: names).Nodup)
    (hgone : Gone t' (p ++ [n]) t'') : Emptying t p names t'' := by
  obtain ⟨hremoved, hnone⟩ := hgone
  refine ⟨hremoved.within.trans h.within, fun q hq => ?_, fun m => ?_⟩
  · by_cases heq : t'.entry q = t.entry q
    · rw [← heq] at hq
      have hpre := hremoved.frame q hq
      refine ⟨(List.prefix_append p [n]).trans hpre, ?_⟩
      rintro rfl
      exact absurd hpre.length_le (by simp)
    · exact h.frame q heq
  · rw [List.nodup_cons] at hnodup
    have hnames := h.names m
    rw [Tree.mem_names] at hnames ⊢
    by_cases hm : m = n
    · subst hm
      exact ⟨fun hthere => absurd hnone hthere, fun hmem => absurd hmem hnodup.1⟩
    · have hsame : t''.entry (p ++ [m]) = t'.entry (p ++ [m]) := by
        by_contra hne
        obtain ⟨rest, hrest⟩ := hremoved.frame _ hne
        rw [List.append_assoc] at hrest
        have := List.append_cancel_left hrest
        rw [List.singleton_append, List.cons.injEq] at this
        exact hm this.1.symm
      rw [hsame, hnames, List.mem_cons]
      exact or_iff_right hm

/-- What follows a step with a known result. -/
theorem meets_known {β γ : Type} {x : Effect Raised (State α κ key) β} {f : β → Effect Raised (State α κ key) γ}
    {b : β} {Q : γ → State α κ key → Prop} {E : Raised → State α κ key → Prop}
    (hx : Meets (fun s => s.tree = t) x (fun found s => s.tree = t ∧ found = b) (fun _ _ => False))
    (hf : Meets (fun s => s.tree = t) (f b) Q E) : Meets (fun s => s.tree = t) (x >>= f) Q E := by
  refine Meets.bind (hx.weaken (fun _ _ h => h.elim)) (fun found => ?_)
  refine Meets.of_pre (fun s hs => hs.2) ?_
  rintro rfl
  exact hf.mono (fun s hs => hs.1) (fun _ _ h => h) (fun _ _ h => h)

theorem attempt_calm :
    Meets (fun s => s.tree = t) (attempt calm op : Effect Raised (State α κ key) Bool)
      (fun going s => s.tree = t ∧ going = true) (fun _ _ => False) := by
  intro s hs
  exact ⟨hs, rfl⟩

theorem isCancelled_calm :
    Meets (fun s => s.tree = t) (isCancelled calm : Effect Raised (State α κ key) Bool)
      (fun cancelled s => s.tree = t ∧ cancelled = false) (fun _ _ => False) := by
  intro s hs
  exact ⟨hs, rfl⟩

theorem isProfileCurrent_calm :
    Meets (fun s => s.tree = t) (isProfileCurrent calm : Effect Raised (State α κ key) Bool)
      (fun current s => s.tree = t ∧ current = true) (fun _ _ => False) := by
  intro s hs
  exact ⟨hs, rfl⟩

theorem managerForProfile_calm :
    Meets (fun s => s.tree = t) (managerForProfile calm : Effect Raised (State α κ key) Unit)
      (fun found s => s.tree = t ∧ found = ()) (fun _ _ => False) := by
  intro s hs
  exact ⟨hs, rfl⟩

theorem removing_calm {e : Entry Text α} (he : t.entry p = some e) (hallowed : allowed e = true)
    (hnames : t.names p = []) :
    Meets (fun s => s.tree = t) (removing calm op p allowed : Effect Raised (State α κ key) Unit)
      (fun _ s => Gone t p s.tree) (fun _ _ => False) := by
  refine meets_known attempt_calm ?_
  rintro s rfl
  dsimp only
  have hany : (s.tree.entry p).any allowed = true := by
    rw [he]
    exact hallowed
  rw [dif_pos hnames, if_pos hany]
  refine ⟨⟨Tree.within_remove hnames, fun q hq => ?_⟩, ?_⟩
  · by_contra hout
    refine hq ?_
    rw [Tree.entry_remove, if_neg (fun h => hout (by rw [h]))]
  · rw [Tree.entry_remove, if_pos rfl]

theorem isRealDir_calm {e : Entry Text α} (he : t.entry p = some e) :
    Meets (fun s => s.tree = t) (isRealDir calm p : Effect Raised (State α κ key) Bool)
      (fun real s => s.tree = t ∧ real = isReal e) (fun _ _ => False) := by
  rintro s rfl
  refine ⟨rfl, ?_⟩
  change (s.tree.entry p).any isReal = isReal e
  rw [he]
  rfl

theorem scandir_calm (hdir : t.IsDir p) :
    Meets (fun s => s.tree = t) (scandir calm p : Effect Raised (State α κ key) (List Text))
      (fun names s => s.tree = t ∧ names = t.names p) (fun _ _ => False) := by
  obtain ⟨e, he, hkind⟩ := hdir
  have hread : Meets (fun s => s.tree = t)
      (read (fun s : State α κ key => ((s.tree.entry p).any isReal, s.tree.names p)))
      (fun found s => s.tree = t ∧ found = (true, t.names p)) (fun (_ : Raised) _ => False) := by
    refine Meets.read ?_
    rintro s rfl
    refine ⟨rfl, ?_⟩
    rw [he, Option.any_some, isReal, hkind]
    rfl
  exact meets_known attempt_calm (meets_known hread (Meets.pure (fun s hs => ⟨hs, rfl⟩)))

theorem removeEntries_calm {remove : List Text → Effect Raised (State α κ key) Unit} (hnodup : names.Nodup)
    (hremove : ∀ n T, T.Within t → T.IsDir (p ++ [n]) →
      Meets (fun s => s.tree = T) (remove (p ++ [n])) (fun _ s => Gone T (p ++ [n]) s.tree) (fun _ _ => False)) :
    Meets (fun s => Emptying t p names s.tree) (removeEntries calm remove p names)
      (fun _ s => Emptying t p [] s.tree) (fun _ _ => False) := by
  induction names with
  | nil => exact Meets.pure (fun _ h => h)
  | cons n names ih =>
    intro s hs
    have hthere : s.tree.entry (p ++ [n]) ≠ none := Tree.mem_names.mp ((hs.names n).mpr List.mem_cons_self)
    obtain ⟨e, he⟩ := Option.ne_none_iff_exists'.mp hthere
    have hafter : Meets (fun s' => Gone s.tree (p ++ [n]) s'.tree) (removeEntries calm remove p names)
        (fun _ s => Emptying t p [] s.tree) (fun _ _ => False) :=
      (ih (List.nodup_cons.mp hnodup).2).mono (fun s' hgone => hs.step hnodup hgone) (fun _ _ h => h) (fun _ _ h => h)
    refine Meets.bind (isRealDir_calm he) (fun real => ?_) s rfl
    refine Meets.of_pre (fun s hs => hs.2) ?_
    rintro rfl
    cases hreal : isReal e with
    | true =>
      have hdir : s.tree.IsDir (p ++ [n]) := ⟨e, he, of_decide_eq_true hreal⟩
      exact Meets.bind ((hremove n s.tree hs.within hdir).mono (fun s hs => hs.1) (fun _ _ h => h) (fun _ _ h => h))
        (fun _ => hafter)
    | false =>
      have hempty : s.tree.names (p ++ [n]) = [] := by
        rw [List.eq_nil_iff_forall_not_mem]
        intro m hm
        obtain ⟨d, hd, hkind⟩ := Tree.isDir_of_entry (Tree.mem_names.mp hm)
        rw [he, Option.some_inj] at hd
        rw [hd, isReal, hkind] at hreal
        cases hreal
      have hallowed : (!isReal e) = true := by rw [hreal]; rfl
      exact Meets.bind ((removing_calm he hallowed hempty).mono (fun s hs => hs.1) (fun _ _ h => h) (fun _ _ h => h))
        (fun _ => hafter)

/-- With frames enough, nothing is left. -/
theorem rmtree_calm (hdir : t.IsDir p) (hdeep : ∀ rest, t.entry (p ++ rest) ≠ none → rest.length < frames) :
    Meets (fun s => s.tree = t) (rmtree calm frames p : Effect Raised (State α κ key) Unit)
      (fun _ s => Gone t p s.tree) (fun _ _ => False) := by
  induction frames generalizing t p with
  | zero =>
    obtain ⟨e, he, -⟩ := hdir
    refine absurd (hdeep [] ?_) (Nat.not_lt_zero _)
    rw [List.append_nil, he]
    exact Option.some_ne_none e
  | succ frames ih =>
    refine meets_known (scandir_calm hdir) (Meets.bind (Q := fun _ s => Emptying t p [] s.tree) ?_ (fun _ => ?_))
    · refine (removeEntries_calm (t := t) Tree.names_nodup (fun n T hT hn => ih hn (fun rest hrest => ?_))).mono ?_
        (fun _ _ h => h) (fun _ _ h => h)
      · obtain ⟨e, he⟩ := Option.ne_none_iff_exists'.mp hrest
        rw [List.append_assoc] at he
        have := hdeep ([n] ++ rest) (by rw [hT _ _ he]; exact Option.some_ne_none e)
        rw [List.length_append, List.length_singleton] at this
        omega
      · rintro s rfl
        exact ⟨Tree.Within.refl _, fun q hq => absurd rfl hq, fun m => Iff.rfl⟩
    · intro s hs
      obtain ⟨e, he, hkind⟩ := hdir
      have hsame : s.tree.entry p = some e := by
        rw [← he]
        by_contra hne
        exact (hs.frame p hne).2 rfl
      have hnames : s.tree.names p = [] := by
        rw [List.eq_nil_iff_forall_not_mem]
        exact fun m hm => List.not_mem_nil ((hs.names m).mp hm)
      have hreal : isReal e = true := decide_eq_true hkind
      refine (removing_calm hsame hreal hnames s rfl).mono ?_ (fun _ _ h => h)
      rintro _ s' ⟨hremoved, hnone⟩
      exact ⟨Removed.trans ⟨hs.within, fun q hq => (hs.frame q hq).1⟩ hremoved (List.prefix_refl p), hnone⟩

variable [DecidableEq κ] [DecidableEq π]

theorem resolve_meets :
    Meets (fun s => s.tree = t) (resolve w links path : Effect Raised (State α κ key) (List Text))
      (fun p s => s.tree = t ∧ t.follow links [] path = some p) (fun _ s => s.tree = t) := by
  refine Meets.bind (attempt_keeps.meets (fun tree => tree = t)) (fun going => ?_)
  cases going with
  | false => exact Meets.raise (fun _ h => h)
  | true =>
    refine Meets.bind (Q := fun found s => s.tree = t ∧ t.follow links [] path = found) (Meets.read ?_)
      (fun found => ?_)
    · rintro s rfl
      exact ⟨rfl, rfl⟩
    · cases found with
      | none => exact Meets.raise (fun _ h => h.1)
      | some p => exact Meets.pure (fun _ h => h)

theorem belongs_meets {r : List Text} (hr : t.follow links [] root = some r) :
    Meets (fun s => s.tree = t) (belongs w part links root path : Effect Raised (State α κ key) Unit)
      (fun _ s => s.tree = t ∧ ∃ target, t.follow links [] path = some target ∧ r.map part <+: target.map part)
      (fun _ s => s.tree = t) := by
  refine Meets.bind resolve_meets (fun target => ?_)
  refine Meets.of_pre (fun s hs => hs.2) (fun htarget => ?_)
  refine Meets.bind (resolve_meets.mono (fun s hs => hs.1) (fun _ _ h => h) (fun _ _ h => h)) (fun place => ?_)
  refine Meets.of_pre (fun s hs => hs.2) (fun hplace => ?_)
  rw [hr, Option.some_inj] at hplace
  subst hplace
  refine Meets.require (fun hpart s hs => ?_) (fun _ s hs => hs.1)
  exact ⟨hs.1, target, htarget, hpart⟩

/-- A path that leads out of the root is refused, and one that leads to its own place takes nothing else along. -/
theorem deleteBackup_meets {r : List Text} (hr : t.follow links [] root = some r)
    (ha : ∀ target, t.follow links [] path = some target → r.map part <+: target.map part → a <+: target) :
    Meets (fun s => s.tree = t) (deleteBackup w part links frames root path : Effect Raised (State α κ key) Unit)
      (fun _ s => Removed t a s.tree) (fun _ s => Removed t a s.tree) := by
  have hkept : ∀ s : State α κ key, s.tree = t → Removed t a s.tree := by
    rintro s rfl
    exact Removed.refl _ _
  refine Meets.bind (resolve_meets.weaken (fun _ s => hkept s)) (fun place => ?_)
  refine Meets.of_pre (fun s hs => hs.2) (fun hplace => ?_)
  rw [hr, Option.some_inj] at hplace
  subst hplace
  refine Meets.bind (resolve_meets.mono (fun s hs => hs.1) (fun _ _ h => h) (fun _ s => hkept s)) (fun target => ?_)
  refine Meets.of_pre (fun s hs => hs.2) (fun htarget => ?_)
  refine Meets.require_bind (fun hpart => ?_) (fun _ s hs => hkept s hs.1)
  exact (rmtree_meets (ha target htarget hpart)).mono (fun s hs => hkept s hs.1) (fun _ _ h => h) (fun _ _ h => h)

theorem deleteLocalBackup_meets {r : List Text} (hr : t.follow links [] root = some r)
    (ha : ∀ target, t.follow links [] path = some target → r.map part <+: target.map part → a <+: target) :
    Meets (fun s => s.tree = t)
      (deleteLocalBackup w part links frames root path : Effect Raised (State α κ key) Bool)
      (fun _ s => Removed t a s.tree) (fun _ s => Removed t a s.tree) := by
  have hkept : ∀ s : State α κ key, s.tree = t → Removed t a s.tree := by
    rintro s rfl
    exact Removed.refl _ _
  refine meets_after isCancelled_keeps (fun cancelled => ?_)
  cases cancelled with
  | true => exact Meets.pure hkept
  | false =>
    refine Meets.bind (Meets.catching ((belongs_meets hr).mono (fun _ h => h) (fun _ s hs => hs.1) (fun _ _ h => h))
      (fun _ => Meets.raise hkept)) (fun _ => ?_)
    refine meets_after isProfileCurrent_keeps (fun current => ?_)
    cases current with
    | false => exact Meets.raise hkept
    | true =>
      refine meets_after managerForProfile_keeps (fun _ => ?_)
      refine meets_after isCancelled_keeps (fun cancelled => ?_)
      cases cancelled with
      | true => exact Meets.pure hkept
      | false =>
        refine meets_after isProfileCurrent_keeps (fun current => ?_)
        cases current with
        | false => exact Meets.raise hkept
        | true => exact Meets.bind (deleteBackup_meets hr ha) (fun _ => Meets.pure (fun _ h => h))

theorem resolve_calm (hp : t.follow links [] path = some p) :
    Meets (fun s => s.tree = t) (resolve calm links path : Effect Raised (State α κ key) (List Text))
      (fun found s => s.tree = t ∧ found = p) (fun _ _ => False) := by
  have hread : Meets (fun s => s.tree = t) (read (fun s : State α κ key => s.tree.follow links [] path))
      (fun found s => s.tree = t ∧ found = some p) (fun (_ : Raised) _ => False) := by
    refine Meets.read ?_
    rintro s rfl
    exact ⟨rfl, hp⟩
  exact meets_known attempt_calm (meets_known hread (Meets.pure (fun s hs => ⟨hs, rfl⟩)))

/-- What a listed path leads to below the root is removed when nothing fails. -/
theorem deleteLocalBackup_calm {r target : List Text} (hr : t.follow links [] root = some r)
    (htarget : t.follow links [] path = some target) (hpart : r.map part <+: target.map part)
    (hdir : t.IsDir target) (hdeep : ∀ rest, t.entry (target ++ rest) ≠ none → rest.length < frames) :
    Meets (fun s => s.tree = t)
      (deleteLocalBackup calm part links frames root path : Effect Raised (State α κ key) Bool)
      (fun _ s => Gone t target s.tree) (fun _ _ => False) := by
  have hbelongs : Meets (fun s => s.tree = t)
      (requireBackupInProfile calm part links root path : Effect Raised (State α κ key) Unit)
      (fun _ s => s.tree = t) (fun _ _ => False) := by
    refine Meets.catching (E := fun _ _ => False) ?_ (fun _ _ h => h.elim)
    refine meets_known (resolve_calm htarget) (meets_known (resolve_calm hr) ?_)
    exact Meets.require (fun _ _ hs => hs) (fun hout => absurd hpart hout)
  have hdelete : Meets (fun s => s.tree = t)
      (deleteBackup calm part links frames root path : Effect Raised (State α κ key) Unit)
      (fun _ s => Gone t target s.tree) (fun _ _ => False) := by
    refine meets_known (resolve_calm hr) (meets_known (resolve_calm htarget) ?_)
    exact Meets.require_bind (fun _ => rmtree_calm hdir hdeep) (fun hout => absurd hpart hout)
  refine meets_known isCancelled_calm (Meets.bind hbelongs (fun _ => ?_))
  refine meets_known isProfileCurrent_calm (meets_known managerForProfile_calm ?_)
  refine meets_known isCancelled_calm (meets_known isProfileCurrent_calm ?_)
  exact Meets.bind hdelete (fun _ => Meets.pure (fun _ h => h))

theorem follow_own {r : List Text} {m : Text} (hr : t.follow links [] root = some r)
    (hdir : t.IsDir (r ++ [n] ++ [m])) :
    t.follow links [] (root ++ [.into n] ++ [.into m]) = some (r ++ [n] ++ [m]) := by
  have hthere : t.entry (r ++ [n] ++ [m]) ≠ none := entry_of_isDir hdir
  have hpackage := Tree.isDir_of_entry hthere
  have hto := Tree.follow_concat_dir hr (Tree.child_self (Tree.mem_names.mpr (entry_of_isDir hpackage))) hpackage
  exact Tree.follow_concat_dir hto (Tree.child_self (Tree.mem_names.mpr hthere)) hdir

theorem isDirectory_eq_true :
    isDirectory links t path = true ↔ ∃ p, t.follow links [] path = some p ∧ t.IsDir p := by
  rw [isDirectory]
  cases hp : t.follow links [] path with
  | none => simp
  | some p =>
    rw [Option.bind_some]
    cases he : t.entry p with
    | none => simp [Tree.IsDir, he]
    | some e => simp [Tree.IsDir, he]

theorem leads_of_listed {x : Listing} (hx : x ∈ listed links root t) :
    ∃ target, t.follow links [] (x.path root) = some target ∧ t.IsDir target := by
  rw [listed, List.mem_flatMap] at hx
  obtain ⟨package, -, hx⟩ := hx
  obtain ⟨snapshot, hsnapshot, rfl⟩ := List.mem_map.mp hx
  have hdir := (List.mem_filter.mp hsnapshot).2
  rw [Bool.and_eq_true] at hdir
  exact isDirectory_eq_true.mp hdir.1

theorem state_of_meets {β σ ε : Type} {x : Effect ε σ β} {P R : σ → Prop} {s : σ}
    (h : Meets P x (fun _ => R) (fun _ => R)) (hs : P s) : R (x s).2 := by
  have ho := h s hs
  cases hrun : x s with
  | mk r s' =>
    rw [hrun] at ho
    cases r with
    | ok b => exact ho
    | error e => exact ho

/-- A deletion takes nothing but the listed snapshot, whatever fails, just when neither the snapshot nor its package
folder is a link, or the path leads out of the backup root. -/
theorem deletion_removesOnly_iff {x : Listing} {r : List Text} (hr : t.follow links [] root = some r)
    (hx : x ∈ listed links root t) :
    (∀ w frames log, RemovesOnly t (r ++ [x.package] ++ [x.snapshot])
        (deleteLocalBackup w part links frames root (x.path root) ⟨t, log⟩).2.tree) ↔
      t.IsDir (r ++ [x.package] ++ [x.snapshot]) ∨
        ∀ target, t.follow links [] (x.path root) = some target → ¬r.map part <+: target.map part := by
  constructor
  · intro h
    obtain ⟨target, htarget, hdir⟩ := leads_of_listed hx
    by_cases hpart : r.map part <+: target.map part
    · left
      obtain ⟨depth, hdepth⟩ := exists_depth t.nodes
      have hdeep : ∀ rest, t.entry (target ++ rest) ≠ none → rest.length < depth + 1 := by
        intro rest hrest
        obtain ⟨e, he⟩ := Tree.entry_ne_none.mp hrest
        have := hdepth _ he
        rw [List.length_append] at this
        omega
      obtain ⟨_, s, hrun, -, hnone⟩ := (deleteLocalBackup_calm hr htarget hpart hdir hdeep).runs
        (show (⟨t, []⟩ : State α κ key).tree = t from rfl)
      have hsafe := h calm (depth + 1) []
      rw [hrun] at hsafe
      obtain ⟨e, he, hkind⟩ := hdir
      refine isDir_of_prefix (hsafe target ?_).2 ⟨e, he, hkind⟩
      rw [hnone, he]
      exact (Option.some_ne_none e).symm
    · right
      intro target' htarget'
      rw [htarget, Option.some_inj] at htarget'
      rw [← htarget']
      exact hpart
  · intro h w frames log
    have ha : ∀ target, t.follow links [] (x.path root) = some target → r.map part <+: target.map part →
        r ++ [x.package] ++ [x.snapshot] <+: target := by
      intro target htarget hpart
      obtain hdir | hout := h
      · rw [Listing.path, follow_own hr hdir, Option.some_inj] at htarget
        rw [htarget]
      · exact absurd hpart (hout target htarget)
    have hstart : (⟨t, log⟩ : State α κ key).tree = t := rfl
    exact (state_of_meets (deleteLocalBackup_meets hr ha) hstart).removesOnly

/-! A snapshot, and a link to it in the folder of another package. -/

def plainKey (_ : Unit) (name : Text) : Text := name

def linkedNodes : List (List Text × Entry Text Unit) :=
  [([], ⟨.dir, ()⟩), ([['b']], ⟨.dir, ()⟩), ([['b'], ['a']], ⟨.dir, ()⟩), ([['b'], ['a'], ['s']], ⟨.dir, ()⟩),
    ([['b'], ['a'], ['s'], ['f']], ⟨.file, ()⟩), ([['b'], ['c']], ⟨.dir, ()⟩),
    ([['b'], ['c'], ['l']], ⟨.link true [.into ['b'], .into ['a'], .into ['s']], ()⟩)]

theorem linkedNodes_wellFormed :
    (linkedNodes.map Prod.fst).Nodup ∧
      (∀ x ∈ linkedNodes, x.1 ≠ [] → ∃ y ∈ linkedNodes, y.1 = x.1.dropLast ∧ y.2.kind = .dir) ∧
      ∀ d ∈ linkedNodes, ∀ x ∈ linkedNodes, ∀ y ∈ linkedNodes, x.1 ≠ [] → y.1 ≠ [] →
        x.1.dropLast = d.1 → y.1.dropLast = d.1 →
        x.1.getLast?.map (plainKey d.2.data) = y.1.getLast?.map (plainKey d.2.data) → x.1 = y.1 := by
  decide +kernel

def linkedBackups : Tree Text Unit Text plainKey :=
  ⟨linkedNodes, linkedNodes_wellFormed.1, linkedNodes_wellFormed.2.1, linkedNodes_wellFormed.2.2⟩

def linkedSnapshot : Listing := ⟨['c'], ['l']⟩

def realSnapshot : Listing := ⟨['a'], ['s']⟩

theorem linkedBackups_lists : listed 8 [.into ['b']] linkedBackups = [realSnapshot, linkedSnapshot] := by
  decide +kernel

/-- A snapshot in a folder of its own is deleted alone. -/
theorem realSnapshot_removesOnly :
    RemovesOnly linkedBackups [['b'], ['a'], ['s']]
      (deleteLocalBackup calm id 8 4 [.into ['b']] (realSnapshot.path [.into ['b']])
        ⟨linkedBackups, []⟩).2.tree := by
  have hroot : linkedBackups.follow 8 [] [.into ['b']] = some [['b']] := by decide +kernel
  have hlisted : realSnapshot ∈ listed 8 [.into ['b']] linkedBackups := by
    rw [linkedBackups_lists]
    exact List.mem_cons_self
  exact (deletion_removesOnly_iff hroot hlisted).mpr (.inl ⟨⟨.dir, ()⟩, by decide +kernel, rfl⟩) calm 4 []

/-- The deletion of the one snapshot empties the folder of the other. -/
theorem linked_snapshot_takes_another : linkedSnapshot ∈ listed 8 [.into ['b']] linkedBackups ∧
    ¬RemovesOnly linkedBackups [['b'], ['c'], ['l']]
      (deleteLocalBackup calm id 8 4 [.into ['b']] (linkedSnapshot.path [.into ['b']])
        ⟨linkedBackups, []⟩).2.tree := by
  constructor
  · rw [linkedBackups_lists]
    exact List.mem_cons_of_mem _ List.mem_cons_self
  · intro h
    have hlost := (h [['b'], ['a'], ['s'], ['f']] (by decide +kernel)).2
    exact absurd hlost (by decide +kernel)

end OpenAdb.Backup.DeletedSnapshot
