import OpenAdb.Files.LocalDelete

namespace OpenAdb.Files.DeletedItems

open OpenAdb.Lib.Effects OpenAdb.Lib.EventLog OpenAdb.Lib.LinkTree
open OpenAdb.Files.LocalDelete

variable {ν κ : Type} {key : Attributes → ν → κ}

def isRemoval : Event ν → Bool
  | .removed _ => true
  | _ => false

/-- No checkpoint has found the action cancelled. -/
def Unstopped (log : Log ν) : Prop := ∀ e ∈ log, e ≠ .checkpoint true

/-- Nothing was removed after a checkpoint that found the action cancelled. -/
def Stops (log : Log ν) : Prop := Each (fun past e => isRemoval e = true → Unstopped past) log

variable {w : World ν} {path : LocalPath ν} {t t' r : Tree ν Attributes κ key} {log : Log ν} {a p q : List ν}

/-- A tree, and no checkpoint so far that found the action cancelled. -/
def Running (t : Tree ν Attributes κ key) (s : State ν κ key) : Prop := s.tree = t ∧ Unstopped s.log ∧ Stops s.log

/-- An error of the file system, that has changed nothing. -/
def Failed (t : Tree ν Attributes κ key) (e : Raised) (s : State ν κ key) : Prop := e = .osError ∧ Running t s

theorem Unstopped.cons {e : Event ν} (h : Unstopped log) (he : e ≠ .checkpoint true) : Unstopped (e :: log) :=
  List.forall_mem_cons.mpr ⟨he, h⟩

theorem Stops.cons {e : Event ν} (h : Stops log) (he : isRemoval e = true → Unstopped log) :
    Stops (e :: log) :=
  ⟨he, h⟩

theorem Running.note {s : State ν κ key} {e : Event ν} (h : Running t s) (he : e ≠ .checkpoint true) :
    Running t ⟨s.tree, e :: s.log⟩ :=
  ⟨h.1, h.2.1.cons he, h.2.2.cons (fun _ => h.2.1)⟩

theorem attempt_meets {op : Op} :
    Meets (Running t) (attempt w path op)
      (fun fault s => Running t s ∧ ∃ past, fault = w.fault past op path) (fun _ _ => False) := by
  intro s hs
  exact ⟨hs.note (fun h => by cases h), s.log, rfl⟩

theorem checkpoint_meets :
    Meets (Running t) (checkpoint w)
      (fun cancelled s => s.tree = t ∧ Stops s.log ∧ (cancelled = false → Unstopped s.log)) (fun _ _ => False) := by
  intro s hs
  refine ⟨hs.1, hs.2.2.cons (fun h => by cases h), fun hcancelled => hs.2.1.cons ?_⟩
  intro hevent
  cases (Event.checkpoint.inj hevent).symm.trans hcancelled

variable [DecidableEq ν] [DecidableEq κ]

/-- A junction or a symbolic link. -/
def Junction (t : Tree ν Attributes κ key) (p : List ν) : Prop := t.IsLink p ∧ ∃ e, t.entry p = some e ∧ e.data.reparse = true

def Symlink (t : Tree ν Attributes κ key) (p : List ν) : Prop := t.IsLink p ∧ ∃ e, t.entry p = some e ∧ e.data.reparse = false

/-- The surroundings let links be seen: what asks for the kind of a link does not fail, or is not taken for a no. -/
def Honest (w : World ν) (links : Nat) (t : Tree ν Attributes κ key) : Prop :=
  ∀ log path a, t.locate links path = some a →
    (Junction t a → w.fault log .lstat path = none) ∧ (Symlink t a → w.fault log .isSymlink path ≠ some .ignored)

/-- The frames suffice for what is below a path. -/
def Fits (links frames : Nat) (t : Tree ν Attributes κ key) (path : LocalPath ν) : Prop :=
  0 < frames ∧ ∀ a, t.locate links path = some a → ∀ rest, t.entry (a ++ rest) ≠ none → rest.length < frames

/-- Entries were removed only at or below the place of a path. -/
structure Affects (links : Nat) (t : Tree ν Attributes κ key) (path : LocalPath ν) (t' : Tree ν Attributes κ key) :
    Prop where
  within : t'.Within t
  frame : ∀ q, t'.entry q ≠ t.entry q → ∃ a, t.locate links path = some a ∧ a <+: q

/-- The entry of a path was removed. -/
structure Gone (links : Nat) (t : Tree ν Attributes κ key) (path : LocalPath ν) (t' : Tree ν Attributes κ key) :
    Prop extends Affects links t path t' where
  removed : ∃ a, t.locate links path = some a ∧ t.entry a ≠ none ∧ t'.entry a = none

/-- The entry of a path is still there. -/
structure Left (links : Nat) (t : Tree ν Attributes κ key) (path : LocalPath ν) (t' : Tree ν Attributes κ key) :
    Prop extends Affects links t path t' where
  kept : ∀ a, t.locate links path = some a → t'.entry a = t.entry a

variable {links frames : Nat}

theorem Affects.refl : Affects links t path t := ⟨Tree.Within.refl t, fun _ h => absurd rfl h⟩

theorem Left.refl : Left links t path t := ⟨.refl, fun _ _ => rfl⟩

theorem entryAt_eq_some {e : Entry ν Attributes} :
    entryAt links path t = some e ↔ ∃ a, t.locate links path = some a ∧ t.entry a = some e := by
  rw [entryAt]
  exact Option.bind_eq_some_iff

theorem readEntry_meets {fact : State ν κ key → Prop} {E : Raised → State ν κ key → Prop} :
    Meets (fun s => Running t s ∧ fact s) (read (fun s => entryAt links path s.tree))
      (fun o s => Running t s ∧ o = entryAt links path t) E := by
  refine Meets.read ?_
  rintro s ⟨hs, -⟩
  exact ⟨hs, by rw [hs.1]⟩

theorem isReparsePoint_meets (hhonest : Honest w links r) (hwithin : t.Within r) :
    Meets (Running t) (isWindowsDirectoryReparsePoint w links path)
      (fun b s => Running t s ∧ (b = false → ∀ a, t.locate links path = some a → ¬Junction t a))
      (fun _ _ => False) := by
  refine Meets.bind attempt_meets (fun fault => ?_)
  cases fault with
  | some fault =>
    refine Meets.pure ?_
    rintro s ⟨hs, past, hfault⟩
    refine ⟨hs, fun _ a ha hjunction => ?_⟩
    obtain ⟨⟨e, absolute, target, he, hkind⟩, e', he', hreparse⟩ := hjunction
    have hclear := (hhonest past path a (hwithin.locate ha)).1
      ⟨⟨e, absolute, target, hwithin _ _ he, hkind⟩, e', hwithin _ _ he', hreparse⟩
    rw [hclear] at hfault
    cases hfault
  | none =>
    refine Meets.bind readEntry_meets (fun o => ?_)
    cases o with
    | none =>
      refine Meets.pure ?_
      rintro s ⟨hs, hentry⟩
      refine ⟨hs, fun _ a ha hjunction => ?_⟩
      obtain ⟨-, e, he, -⟩ := hjunction
      rw [entryAt_eq_some.mpr ⟨a, ha, he⟩] at hentry
      cases hentry
    | some e =>
      refine Meets.pure ?_
      rintro s ⟨hs, hentry⟩
      refine ⟨hs, fun hfalse a ha hjunction => ?_⟩
      obtain ⟨⟨e', absolute, target, he', hkind⟩, e'', he'', hreparse⟩ := hjunction
      obtain ⟨a', ha', he⟩ := entryAt_eq_some.mp hentry.symm
      rw [ha, Option.some_inj] at ha'
      subst ha'
      rw [he, Option.some_inj] at he' he''
      rw [← he''] at hreparse
      rw [← he'] at hkind
      rw [hreparse, looksLikeDirectory, hkind, Bool.true_and] at hfalse
      dsimp only at hfalse
      rw [hreparse] at hfalse
      cases hfalse

theorem leadsToDirectory_eq_true : leadsToDirectory links path t = true ↔ ∃ p, t.follow links [] path = some p ∧ t.IsDir p := by
  rw [leadsToDirectory, decide_eq_true_eq, Option.map_eq_some_iff]
  constructor
  · rintro ⟨e, he, hkind⟩
    obtain ⟨p, hp, hentry⟩ := Option.bind_eq_some_iff.mp he
    exact ⟨p, hp, e, hentry, hkind⟩
  · rintro ⟨p, hp, e, hentry, hkind⟩
    exact ⟨e, Option.bind_eq_some_iff.mpr ⟨p, hp, hentry⟩, hkind⟩

theorem isDir_meets :
    Meets (Running t) (isDir w links path)
      (fun b s => Running t s ∧ (b = true → ∃ p, t.follow links [] path = some p ∧ t.IsDir p)) (Failed t) := by
  refine Meets.bind (attempt_meets.weaken (fun _ _ h => h.elim)) (fun fault => ?_)
  cases fault with
  | none =>
    refine Meets.read ?_
    rintro s ⟨hs, -⟩
    refine ⟨hs, fun hb => ?_⟩
    rw [hs.1] at hb
    exact leadsToDirectory_eq_true.mp hb
  | some fault =>
    cases fault with
    | ignored => exact Meets.pure (fun s hs => ⟨hs.1, fun hb => by cases hb⟩)
    | raised => exact Meets.raise (fun s hs => ⟨rfl, hs.1⟩)

theorem isSymlink_meets (hhonest : Honest w links r) (hwithin : t.Within r) :
    Meets (Running t) (isSymlink w links path)
      (fun b s => Running t s ∧ (b = false → ∀ a, t.locate links path = some a → ¬Symlink t a)) (Failed t) := by
  refine Meets.bind (attempt_meets.weaken (fun _ _ h => h.elim)) (fun fault => ?_)
  cases fault with
  | some fault =>
    cases fault with
    | ignored =>
      refine Meets.pure ?_
      rintro s ⟨hs, past, hfault⟩
      refine ⟨hs, fun _ a ha hsymlink => ?_⟩
      obtain ⟨⟨e, absolute, target, he, hkind⟩, e', he', hreparse⟩ := hsymlink
      exact (hhonest past path a (hwithin.locate ha)).2
        ⟨⟨e, absolute, target, hwithin _ _ he, hkind⟩, e', hwithin _ _ he', hreparse⟩ hfault.symm
    | raised => exact Meets.raise (fun s hs => ⟨rfl, hs.1⟩)
  | none =>
    refine Meets.bind readEntry_meets (fun o => ?_)
    cases o with
    | none =>
      refine Meets.pure ?_
      rintro s ⟨hs, hentry⟩
      refine ⟨hs, fun _ a ha hsymlink => ?_⟩
      obtain ⟨-, e, he, -⟩ := hsymlink
      rw [entryAt_eq_some.mpr ⟨a, ha, he⟩] at hentry
      cases hentry
    | some e =>
      refine Meets.pure ?_
      rintro s ⟨hs, hentry⟩
      refine ⟨hs, fun hfalse a ha hsymlink => ?_⟩
      obtain ⟨⟨e', absolute, target, he', hkind⟩, e'', he'', hreparse⟩ := hsymlink
      obtain ⟨a', ha', he⟩ := entryAt_eq_some.mp hentry.symm
      rw [ha, Option.some_inj] at ha'
      subst ha'
      rw [he, Option.some_inj] at he' he''
      rw [← he''] at hreparse
      rw [← he'] at hkind
      rw [hkind, hreparse] at hfalse
      simp at hfalse

/-- A path that leads to a directory and does not name a link names the directory. -/
theorem locate_of_follow (h : t.follow links [] path = some p) (hdir : t.IsDir p)
    (hlink : ∀ a, t.locate links path = some a → ¬t.IsLink a) : ∃ a, t.locate links path = some a ∧ t.IsDir a := by
  cases hlast : path.getLast? with
  | none => exact ⟨p, by rw [Tree.locate, hlast]; exact h, hdir⟩
  | some step =>
    cases step with
    | up => exact ⟨p, by rw [Tree.locate, hlast]; exact h, hdir⟩
    | into n =>
      obtain ⟨hne, hstep⟩ := List.mem_getLast?_eq_getLast hlast
      have hpath : path = path.dropLast ++ [.into n] := by
        rw [hstep, List.dropLast_append_getLast hne]
      rw [hpath] at h
      obtain ⟨q, m, hq, hm, hto⟩ := Tree.follow_concat h
      have hlocate : t.locate links path = some (q ++ [m]) := by
        rw [hpath, Tree.locate_concat hq, hm, Option.map_some]
      rw [hto (hlink _ hlocate)] at hdir
      exact ⟨_, hlocate, hdir⟩

omit [DecidableEq κ] in
theorem not_isLink_of {a : List ν} (hjunction : ¬Junction t a) (hsymlink : ¬Symlink t a) : ¬t.IsLink a := by
  intro hlink
  obtain ⟨e, absolute, target, he, hkind⟩ := hlink
  cases hreparse : e.data.reparse with
  | true => exact hjunction ⟨⟨e, absolute, target, he, hkind⟩, e, he, hreparse⟩
  | false => exact hsymlink ⟨⟨e, absolute, target, he, hkind⟩, e, he, hreparse⟩

theorem isRealDirectory_meets (hhonest : Honest w links r) (hwithin : t.Within r)
    (hjunction : ∀ a, t.locate links path = some a → ¬Junction t a) :
    Meets (Running t) (isRealDirectory w links path)
      (fun b s => Running t s ∧ (b = true → ∃ a, t.locate links path = some a ∧ t.IsDir a)) (Failed t) := by
  refine Meets.bind isDir_meets (fun b => ?_)
  cases b with
  | false => exact Meets.pure (fun s hs => ⟨hs.1, fun h => by cases h⟩)
  | true =>
    refine Meets.of_pre (fun s hs => hs.2 rfl) ?_
    rintro ⟨p, hp, hdir⟩
    refine Meets.bind ((isSymlink_meets hhonest hwithin).mono (fun s hs => hs.1) (fun _ _ h => h) (fun _ _ h => h))
      (fun symlink => ?_)
    refine Meets.pure ?_
    rintro s ⟨hs, hsymlink⟩
    refine ⟨hs, fun hb => ?_⟩
    rw [Bool.not_eq_true'] at hb
    exact locate_of_follow hp hdir (fun a ha => not_isLink_of (hjunction a ha) (hsymlink hb a ha))

theorem scandir_meets (ha : t.locate links path = some a) (hdir : t.IsDir a) :
    Meets (Running t) (scandir w links path) (fun names s => Running t s ∧ names = t.names a) (Failed t) := by
  have hfollow := Tree.follow_of_locate ha hdir
  have hleads := leadsToDirectory_eq_true.mpr ⟨a, hfollow, hdir⟩
  refine Meets.bind (attempt_meets.weaken (fun _ _ h => h.elim)) (fun fault => ?_)
  cases fault with
  | some fault => exact Meets.raise (fun s hs => ⟨rfl, hs.1⟩)
  | none =>
    refine Meets.bind (Q := fun o s => Running t s ∧ o = (true, some (t.names a))) (Meets.read ?_) (fun o => ?_)
    · rintro s ⟨hs, -⟩
      refine ⟨hs, ?_⟩
      rw [hs.1, hleads, hfollow]
      rfl
    · refine Meets.of_pre (fun s hs => hs.2) ?_
      rintro rfl
      exact Meets.pure (fun s hs => ⟨hs.1, rfl⟩)

/-- What is removed is the entry of the path, and nothing else. -/
theorem removing_meets {op : Op} {allowed : Entry ν Attributes → Bool} :
    Meets (Running t) (removing w links path op allowed)
      (fun _ s => Gone links t path s.tree ∧ Unstopped s.log ∧ Stops s.log) (Failed t) := by
  refine Meets.bind (attempt_meets.weaken (fun _ _ h => h.elim)) (fun fault => ?_)
  cases fault with
  | some fault => exact Meets.raise (fun s hs => ⟨rfl, hs.1⟩)
  | none =>
    rintro s ⟨hs, -⟩
    dsimp only
    cases hlocate : s.tree.locate links path with
    | none => exact ⟨rfl, hs⟩
    | some a =>
      dsimp only
      by_cases hnames : s.tree.names a = []
      · rw [dif_pos hnames]
        by_cases hallowed : (s.tree.entry a).any allowed = true
        · rw [if_pos hallowed]
          have hthere : s.tree.entry a ≠ none := by
            intro hnone
            rw [hnone] at hallowed
            cases hallowed
          have hgone : (s.tree.remove a hnames).entry a = none := by rw [Tree.entry_remove, if_pos rfl]
          rw [← hs.1]
          refine ⟨⟨⟨Tree.within_remove hnames, fun q hq => ⟨a, hlocate, ?_⟩⟩, a, hlocate, hthere, hgone⟩,
            hs.2.1.cons (fun h => by cases h), hs.2.2.cons (fun _ => hs.2.1)⟩
          by_contra hout
          refine hq ?_
          rw [Tree.entry_remove, if_neg (fun h => hout (by rw [h]))]
        · rw [if_neg hallowed]
          exact ⟨rfl, hs⟩
      · rw [dif_neg hnames]
        exact ⟨rfl, hs⟩

/-- Only what is below a place has changed. -/
structure Below (t : Tree ν Attributes κ key) (a : List ν) (t' : Tree ν Attributes κ key) : Prop where
  within : t'.Within t
  frame : ∀ q, t'.entry q ≠ t.entry q → a <+: q ∧ q ≠ a

/-- How a deletion may end that does not end well. -/
def Ended (links : Nat) (t : Tree ν Attributes κ key) (path : LocalPath ν) (e : Raised) (s : State ν κ key) : Prop :=
  Left links t path s.tree ∧ Stops s.log ∧ e ≠ .recursion ∧ (e = .osError → Unstopped s.log)

theorem Below.left (h : Below t a t') (ha : t.locate links path = some a) : Left links t path t' := by
  refine ⟨⟨h.within, fun q hq => ⟨a, ha, (h.frame q hq).1⟩⟩, fun b hb => ?_⟩
  rw [ha, Option.some_inj] at hb
  subst hb
  by_contra hne
  exact (h.frame a hne).2 rfl

theorem Failed.ended {e : Raised} {s : State ν κ key} (h : Failed t e s) : Ended links t path e s := by
  obtain ⟨rfl, htree, hlog, hstops⟩ := h
  rw [Ended, htree]
  exact ⟨.refl, hstops, by decide, fun _ => hlog⟩

/-- What one entry of a directory can change is below the directory. -/
theorem Below.entry {T : Tree ν Attributes κ key} {n : ν} (h : Below t a T) (ha : t.locate links path = some a)
    (hdir : t.IsDir a) (hn : n ∈ t.names a) (haffects : Affects links T (path ++ [.into n]) t') : Below t a t' := by
  refine ⟨haffects.within.trans h.within, fun q hq => ?_⟩
  by_cases hT : T.entry q = t.entry q
  · rw [← hT] at hq
    obtain ⟨b, hb, hpre⟩ := haffects.frame q hq
    have hplace := h.within.locate hb
    rw [Tree.locate_concat (Tree.follow_of_locate ha hdir), Tree.child_self hn, Option.map_some,
      Option.some_inj] at hplace
    rw [← hplace] at hpre
    refine ⟨(List.prefix_append a [n]).trans hpre, ?_⟩
    rintro rfl
    exact absurd hpre.length_le (by simp)
  · exact h.frame q hT

/-- The frames that are left suffice for what is in a directory. -/
theorem Below.fits {T : Tree ν Attributes κ key} {n : ν} (h : Below t a T) (ha : t.locate links path = some a)
    (hdir : t.IsDir a) (hn : n ∈ t.names a) (hfits : Fits links (frames + 1) t path) :
    Fits links frames T (path ++ [.into n]) := by
  have hdeep := hfits.2 a ha
  constructor
  · have := hdeep [n] (Tree.mem_names.mp hn)
    rw [List.length_singleton] at this
    omega
  · intro b hb rest hrest
    have hplace := h.within.locate hb
    rw [Tree.locate_concat (Tree.follow_of_locate ha hdir), Tree.child_self hn, Option.map_some,
      Option.some_inj] at hplace
    rw [← hplace, List.append_assoc] at hrest
    obtain ⟨e, he⟩ := Option.ne_none_iff_exists'.mp hrest
    have := hdeep ([n] ++ rest) (by rw [h.within _ _ he]; exact Option.some_ne_none e)
    rw [List.length_append, List.length_singleton] at this
    omega

/-- A state of the loop over a directory. -/
def Looping (t : Tree ν Attributes κ key) (a : List ν) (s : State ν κ key) : Prop :=
  Below t a s.tree ∧ Unstopped s.log ∧ Stops s.log

theorem deleteEntries_meets {names : List ν} (ha : t.locate links path = some a) (hdir : t.IsDir a)
    (hnames : ∀ n ∈ names, n ∈ t.names a)
    {delete : LocalPath ν → Effect Raised (State ν κ key) Unit}
    (hdelete : ∀ n ∈ names, ∀ T, Below t a T → Meets (Running T) (delete (path ++ [.into n]))
      (fun _ s => Gone links T (path ++ [.into n]) s.tree ∧ Unstopped s.log ∧ Stops s.log)
      (Ended links T (path ++ [.into n]))) :
    Meets (Looping t a) (deleteEntries w path delete names) (fun _ => Looping t a)
      (fun e s => Below t a s.tree ∧ Stops s.log ∧ e ≠ .recursion ∧ (e = .osError → Unstopped s.log)) := by
  have hnext : Meets (Looping t a) (attempt w path .next : Effect Raised (State ν κ key) _)
      (fun _ => Looping t a) (fun _ _ => False) := by
    rintro s ⟨hbelow, hlog, hstops⟩
    exact ⟨hbelow, hlog.cons (fun h => by cases h), hstops.cons (fun _ => hlog)⟩
  induction names with
  | nil =>
    refine Meets.bind (hnext.weaken (fun _ _ h => h.elim)) (fun fault => ?_)
    cases fault with
    | some fault => exact Meets.raise (fun s hs => ⟨hs.1, hs.2.2, by decide, fun _ => hs.2.1⟩)
    | none => exact Meets.pure (fun s hs => hs)
  | cons n names ih =>
    refine Meets.bind (hnext.weaken (fun _ _ h => h.elim)) (fun fault => ?_)
    cases fault with
    | some fault => exact Meets.raise (fun s hs => ⟨hs.1, hs.2.2, by decide, fun _ => hs.2.1⟩)
    | none =>
      have hn := hnames n List.mem_cons_self
      refine Meets.bind (Q := fun _ => Looping t a) ?_ (fun _ => ih (fun m hm => hnames m (List.mem_cons_of_mem _ hm))
        (fun m hm => hdelete m (List.mem_cons_of_mem _ hm)))
      intro s hs
      refine (hdelete n List.mem_cons_self s.tree hs.1 s ⟨rfl, hs.2⟩).mono ?_ ?_
      · rintro _ s' ⟨hgone, hlog⟩
        exact ⟨hs.1.entry ha hdir hn hgone.toAffects, hlog⟩
      · rintro e s' ⟨hleft, hstops, hrecursion, hlog⟩
        exact ⟨hs.1.entry ha hdir hn hleft.toAffects, hstops, hrecursion, hlog⟩

/-- The directory itself goes last. -/
theorem finish_meets {T : Tree ν Attributes κ key} (hbelow : Below t a T) (ha : t.locate links path = some a) :
    Meets (Running T)
      (do
        match ← checkpoint w with
        | true => raise .cancelled
        | false => rmdir w links path)
      (fun _ s => Gone links t path s.tree ∧ Unstopped s.log ∧ Stops s.log) (Ended links t path) := by
  refine Meets.bind (checkpoint_meets.weaken (fun _ _ h => h.elim)) (fun cancelled => ?_)
  cases cancelled with
  | true =>
    refine Meets.raise ?_
    rintro s ⟨htree, hstops, -⟩
    rw [Ended, htree]
    exact ⟨hbelow.left ha, hstops, by decide, fun h => absurd h (by decide)⟩
  | false =>
    refine removing_meets.mono (fun s hs => ⟨hs.1, hs.2.2 rfl, hs.2.1⟩) ?_ ?_
    · rintro _ s ⟨hgone, hlog⟩
      obtain ⟨b, hb, hthere, hnone⟩ := hgone.removed
      have hsame := hbelow.within.locate hb
      rw [ha, Option.some_inj] at hsame
      subst hsame
      obtain ⟨e, he⟩ := Option.ne_none_iff_exists'.mp hthere
      refine ⟨⟨⟨hgone.within.trans hbelow.within, fun q hq => ⟨a, ha, ?_⟩⟩, a, ha, ?_, hnone⟩, hlog⟩
      · by_cases hT : T.entry q = t.entry q
        · rw [← hT] at hq
          obtain ⟨b', hb', hpre⟩ := hgone.frame q hq
          rw [hb, Option.some_inj] at hb'
          rw [hb']
          exact hpre
        · exact (hbelow.frame q hT).1
      · rw [hbelow.within _ _ he]
        exact Option.some_ne_none e
    · rintro e s ⟨rfl, htree, hlog, hstops⟩
      rw [Ended, htree]
      exact ⟨hbelow.left ha, hstops, by decide, fun _ => hlog⟩

/-- A path that is deleted is gone, and nothing outside of it. One that is not is still there. -/
theorem deleteWindowsPath_meets (hhonest : Honest w links r) (hwithin : t.Within r) (hfits : Fits links frames t path) :
    Meets (Running t) (deleteWindowsPath w links frames path)
      (fun _ s => Gone links t path s.tree ∧ Unstopped s.log ∧ Stops s.log) (Ended links t path) := by
  induction frames generalizing t path with
  | zero => exact absurd hfits.1 (Nat.lt_irrefl 0)
  | succ frames ih =>
    refine Meets.bind (checkpoint_meets.weaken (fun _ _ h => h.elim)) (fun cancelled => ?_)
    cases cancelled with
    | true =>
      refine Meets.raise ?_
      rintro s ⟨htree, hstops, -⟩
      rw [Ended, htree]
      exact ⟨.refl, hstops, by decide, fun h => absurd h (by decide)⟩
    | false =>
      refine Meets.bind ((isReparsePoint_meets hhonest hwithin).mono (fun s hs => ⟨hs.1, hs.2.2 rfl, hs.2.1⟩)
        (fun _ _ h => h) (fun _ _ h => h.elim)) (fun reparse => ?_)
      cases reparse with
      | true => exact removing_meets.mono (fun s hs => hs.1) (fun _ _ h => h) (fun _ _ h => h.ended)
      | false =>
        refine Meets.of_pre (fun s hs => hs.2 rfl) (fun hjunction => ?_)
        refine Meets.bind ((isRealDirectory_meets hhonest hwithin hjunction).mono (fun s hs => hs.1)
          (fun _ _ h => h) (fun _ _ h => h.ended)) (fun real => ?_)
        cases real with
        | false => exact removing_meets.mono (fun s hs => hs.1) (fun _ _ h => h) (fun _ _ h => h.ended)
        | true =>
          refine Meets.of_pre (fun s hs => hs.2 rfl) ?_
          rintro ⟨a, ha, hdir⟩
          refine Meets.bind ((scandir_meets ha hdir).mono (fun s hs => hs.1) (fun _ _ h => h) (fun _ _ h => h.ended))
            (fun names => ?_)
          refine Meets.of_pre (fun s hs => hs.2) ?_
          rintro rfl
          refine Meets.bind (Q := fun _ => Looping t a) ?_ (fun _ => ?_)
          · refine (deleteEntries_meets ha hdir (fun n hn => hn) (fun n hn T hT => ?_)).mono ?_ (fun _ _ h => h) ?_
            · exact ih (hT.within.trans hwithin) (hT.fits ha hdir hn hfits)
            · rintro s ⟨⟨htree, hlog⟩, -⟩
              refine ⟨?_, hlog⟩
              rw [htree]
              exact ⟨Tree.Within.refl t, fun q hq => absurd rfl hq⟩
            · rintro e s ⟨hbelow, hrest⟩
              exact ⟨hbelow.left ha, hrest⟩
          · intro s hs
            exact finish_meets hs.1 ha s ⟨rfl, hs.2⟩

/-! A whole request. -/

/-- There is an entry at a path. -/
def Present (links : Nat) (t : Tree ν Attributes κ key) (path : LocalPath ν) : Prop :=
  ∃ a, t.locate links path = some a ∧ t.entry a ≠ none

def Reported (items : List (FileActionItemResult ν)) (path : LocalPath ν) : Prop :=
  ∃ item ∈ items, item.path = path ∧ item.success = true

/-- What a deletion is for: entries go only at or below the requested paths, none after a checkpoint that finds the
action cancelled, and a success is reported for just the paths whose entry is gone. -/
structure DeletesOnly (links : Nat) (t : Tree ν Attributes κ key) (paths : List (LocalPath ν))
    (run : Except Raised (FileManagerActionResult ν) × State ν κ key) : Prop where
  frame : ∀ q, run.2.tree.entry q ≠ t.entry q →
    run.2.tree.entry q = none ∧ ∃ path ∈ paths, ∃ a, t.locate links path = some a ∧ a <+: q
  stops : Stops run.2.log
  reports : ∃ result, run.1 = .ok result ∧
    ∀ path ∈ paths, Reported result.items path ↔ Present links t path ∧ ¬Present links run.2.tree path

/-- Whatever is removed at or below the other requested paths, and below this one, there is still an entry at it. -/
def Steady (links : Nat) (t : Tree ν Attributes κ key) (paths : List (LocalPath ν)) (path : LocalPath ν) : Prop :=
  ∀ t' : Tree ν Attributes κ key, t'.Within t →
    (∀ q, t'.entry q ≠ t.entry q → (∃ p ∈ paths, p ≠ path ∧ ∃ a, t.locate links p = some a ∧ a <+: q) ∨
      ∃ a, t.locate links path = some a ∧ a <+: q ∧ q ≠ a) →
    Present links t path → Present links t' path

/-- What holds of the items of the paths that were tried. -/
structure Tried (links : Nat) (t : Tree ν Attributes κ key) (done : List (LocalPath ν))
    (items : List (FileActionItemResult ν)) (t' : Tree ν Attributes κ key) : Prop where
  within : t'.Within t
  frame : ∀ q, t'.entry q ≠ t.entry q → ∃ p ∈ done, ∃ a, t.locate links p = some a ∧ a <+: q
  gone : ∀ path, Reported items path → ∃ a, t.locate links path = some a ∧ t.entry a ≠ none ∧ t'.entry a = none
  kept : ∀ path, ¬Reported items path → ∀ q, t'.entry q ≠ t.entry q →
    (∃ p ∈ done, p ≠ path ∧ ∃ a, t.locate links p = some a ∧ a <+: q) ∨
      ∃ a, t.locate links path = some a ∧ a <+: q ∧ q ≠ a

variable {done paths : List (LocalPath ν)} {items : List (FileActionItemResult ν)}

theorem Tried.start : Tried links t [] [] t :=
  ⟨Tree.Within.refl t, fun _ h => absurd rfl h, fun _ ⟨_, h, _⟩ => absurd h List.not_mem_nil, fun _ _ _ h => absurd rfl h⟩

omit [DecidableEq ν] in
theorem Reported.append {item : FileActionItemResult ν} (h : Reported items path) : Reported (items ++ [item]) path := by
  obtain ⟨found, hmem, hfound⟩ := h
  exact ⟨found, List.mem_append_left _ hmem, hfound⟩

theorem Tried.success (h : Tried links r done items t) (hgone : Gone links t path t') :
    Tried links r (done ++ [path]) (items ++ [⟨path, true⟩]) t' := by
  have hplace : ∀ q, t'.entry q ≠ t.entry q → ∃ a, r.locate links path = some a ∧ a <+: q := by
    intro q hq
    obtain ⟨a, ha, hpre⟩ := hgone.frame q hq
    exact ⟨a, h.within.locate ha, hpre⟩
  refine ⟨hgone.within.trans h.within, fun q hq => ?_, fun p hp => ?_, fun p hp q hq => ?_⟩
  · by_cases hold : t.entry q = r.entry q
    · rw [← hold] at hq
      exact ⟨path, List.mem_append_right _ List.mem_cons_self, hplace q hq⟩
    · obtain ⟨p, hp, hrest⟩ := h.frame q hold
      exact ⟨p, List.mem_append_left _ hp, hrest⟩
  · obtain ⟨item, hitem, rfl, hsuccess⟩ := hp
    obtain hitem | hitem := List.mem_append.mp hitem
    · obtain ⟨a, ha, hthere, hnone⟩ := h.gone item.path ⟨item, hitem, rfl, hsuccess⟩
      refine ⟨a, ha, hthere, ?_⟩
      rw [Option.eq_none_iff_forall_ne_some]
      intro e he
      rw [hgone.within _ _ he] at hnone
      cases hnone
    · rw [List.mem_singleton] at hitem
      subst hitem
      obtain ⟨a, ha, hthere, hnone⟩ := hgone.removed
      obtain ⟨e, he⟩ := Option.ne_none_iff_exists'.mp hthere
      refine ⟨a, h.within.locate ha, ?_, hnone⟩
      rw [h.within _ _ he]
      exact Option.some_ne_none e
  · have hne : path ≠ p := by
      rintro rfl
      exact hp ⟨_, List.mem_append_right _ List.mem_cons_self, rfl, rfl⟩
    by_cases hold : t.entry q = r.entry q
    · rw [← hold] at hq
      exact .inl ⟨path, List.mem_append_right _ List.mem_cons_self, hne, hplace q hq⟩
    · obtain ⟨other, hother, hrest⟩ | hbelow := h.kept p (fun hold => hp hold.append) q hold
      · exact .inl ⟨other, List.mem_append_left _ hother, hrest⟩
      · exact .inr hbelow

theorem Tried.failure {reported : List (FileActionItemResult ν)} (h : Tried links r done items t)
    (hleft : Left links t path t') (hreported : ∀ p, Reported reported p ↔ Reported items p) :
    Tried links r (done ++ [path]) reported t' := by
  have hplace : ∀ q, t'.entry q ≠ t.entry q → ∃ a, r.locate links path = some a ∧ a <+: q ∧ q ≠ a := by
    intro q hq
    obtain ⟨a, ha, hpre⟩ := hleft.frame q hq
    refine ⟨a, h.within.locate ha, hpre, ?_⟩
    rintro rfl
    exact hq (hleft.kept q ha)
  refine ⟨hleft.within.trans h.within, fun q hq => ?_, fun p hp => ?_, fun p hp q hq => ?_⟩
  · by_cases hold : t.entry q = r.entry q
    · rw [← hold] at hq
      obtain ⟨a, ha, hpre, -⟩ := hplace q hq
      exact ⟨path, List.mem_append_right _ List.mem_cons_self, a, ha, hpre⟩
    · obtain ⟨p, hp, hrest⟩ := h.frame q hold
      exact ⟨p, List.mem_append_left _ hp, hrest⟩
  · obtain ⟨a, ha, hthere, hnone⟩ := h.gone p ((hreported p).mp hp)
    refine ⟨a, ha, hthere, ?_⟩
    rw [Option.eq_none_iff_forall_ne_some]
    intro e he
    rw [hleft.within _ _ he] at hnone
    cases hnone
  · by_cases hold : t.entry q = r.entry q
    · rw [← hold] at hq
      obtain ⟨a, ha, hpre, hne⟩ := hplace q hq
      by_cases hp' : path = p
      · subst hp'
        exact .inr ⟨a, ha, hpre, hne⟩
      · exact .inl ⟨path, List.mem_append_right _ List.mem_cons_self, hp', a, ha, hpre⟩
    · obtain ⟨other, hother, hrest⟩ | hbelow := h.kept p (fun hold => hp ((hreported p).mpr hold)) q hold
      · exact .inl ⟨other, List.mem_append_left _ hother, hrest⟩
      · exact .inr hbelow

omit [DecidableEq ν] in
theorem reported_failure {p : LocalPath ν} : Reported (items ++ [⟨path, false⟩]) p ↔ Reported items p := by
  constructor
  · rintro ⟨item, hitem, hpath, hsuccess⟩
    obtain hitem | hitem := List.mem_append.mp hitem
    · exact ⟨item, hitem, hpath, hsuccess⟩
    · rw [List.mem_singleton.mp hitem] at hsuccess
      cases hsuccess
  · exact Reported.append

theorem Fits.within (h : Fits links frames r path) (hwithin : t.Within r) : Fits links frames t path := by
  refine ⟨h.1, fun a ha rest hrest => h.2 a (hwithin.locate ha) rest ?_⟩
  obtain ⟨e, he⟩ := Option.ne_none_iff_exists'.mp hrest
  rw [hwithin _ _ he]
  exact Option.some_ne_none e

/-- The paths one after the other, each with its step. -/
theorem deleteItems_meets (hhonest : Honest w links r) (hfits : ∀ path ∈ paths, Fits links frames r path) :
    Meets (fun s => Tried links r done items s.tree ∧ Unstopped s.log ∧ Stops s.log)
      (deleteItems w links frames paths items)
      (fun items s => Stops s.log ∧ ∃ tried, tried ⊆ done ++ paths ∧ Tried links r tried items s.tree)
      (fun _ _ => False) := by
  induction paths generalizing done items with
  | nil =>
    refine Meets.pure ?_
    rintro s ⟨htried, -, hstops⟩
    exact ⟨hstops, done, List.subset_append_left _ _, htried⟩
  | cons path paths ih =>
    rintro s ⟨htried, hlog⟩
    refine Meets.bind (Q := fun cancelled s' => s'.tree = s.tree ∧ Stops s'.log ∧ (cancelled = false → Unstopped s'.log))
      (checkpoint_meets.weaken (fun _ _ h => h.elim)) (fun cancelled => ?_) s ⟨rfl, hlog⟩
    cases cancelled with
    | true =>
      refine Meets.pure ?_
      rintro s' ⟨htree, hstops, -⟩
      rw [← htree] at htried
      exact ⟨hstops, done, List.subset_append_left _ _, htried⟩
    | false =>
      have hdelete := deleteWindowsPath_meets hhonest htried.within
        ((hfits path List.mem_cons_self).within htried.within)
      have hsubset : ∀ {l}, l ⊆ (done ++ [path]) ++ paths → l ⊆ done ++ path :: paths := by
        intro l hl
        rw [List.append_assoc, List.singleton_append] at hl
        exact hl
      refine Meets.bind (Meets.trying (hdelete.mono (fun s' h => ⟨h.1, h.2.2 rfl, h.2.1⟩) (fun _ _ h => h) (fun _ _ h => h)))
        (fun result => ?_)
      have hpaths : ∀ p ∈ paths, Fits links frames r p := fun p hp => hfits p (List.mem_cons_of_mem _ hp)
      cases result with
      | ok _ =>
        refine (@ih (done ++ [path]) (items ++ [⟨path, true⟩]) hpaths).mono ?_ ?_ (fun _ _ h => h)
        · rintro s' ⟨hgone, hlog'⟩
          exact ⟨htried.success hgone, hlog'⟩
        · rintro items' s' ⟨hstops, tried, hsub, htried'⟩
          exact ⟨hstops, tried, hsubset hsub, htried'⟩
      | error e =>
        cases e with
        | cancelled =>
          refine Meets.pure ?_
          rintro s' ⟨hleft, hstops, -⟩
          exact ⟨hstops, done ++ [path], hsubset (List.subset_append_left _ _), htried.failure hleft (fun _ => Iff.rfl)⟩
        | osError =>
          refine (@ih (done ++ [path]) (items ++ [⟨path, false⟩]) hpaths).mono ?_ ?_ (fun _ _ h => h)
          · rintro s' ⟨hleft, hstops, -, hlog'⟩
            exact ⟨htried.failure hleft (fun _ => reported_failure), hlog' rfl, hstops⟩
          · rintro items' s' ⟨hstops, tried, hsub, htried'⟩
            exact ⟨hstops, tried, hsubset hsub, htried'⟩
        | recursion =>
          refine Meets.raise ?_
          rintro s' ⟨-, -, hrecursion, -⟩
          exact hrecursion rfl

theorem DeletesOnly.of_tried {s : State ν κ key} {cancelled : Bool} {tried : List (LocalPath ν)}
    (hsteady : ∀ path ∈ paths, Steady links t paths path) (hsub : tried ⊆ paths)
    (htried : Tried links t tried items s.tree) (hstops : Stops s.log) :
    DeletesOnly links t paths (.ok ⟨items, cancelled⟩, s) := by
  refine ⟨fun q hq => ⟨?_, ?_⟩, hstops, _, rfl, fun path hpath => ⟨fun hreported => ?_, fun h => ?_⟩⟩
  · rw [Option.eq_none_iff_forall_ne_some]
    intro e he
    exact hq (he.trans (htried.within _ _ he).symm)
  · obtain ⟨p, hp, hrest⟩ := htried.frame q hq
    exact ⟨p, hsub hp, hrest⟩
  · obtain ⟨a, ha, hthere, hnone⟩ := htried.gone path hreported
    refine ⟨⟨a, ha, hthere⟩, ?_⟩
    rintro ⟨b, hb, hentry⟩
    have hsame := htried.within.locate hb
    rw [ha, Option.some_inj] at hsame
    rw [hsame] at hnone
    exact hentry hnone
  · by_contra hreported
    refine h.2 (hsteady path hpath s.tree htried.within (fun q hq => ?_) h.1)
    obtain ⟨p, hp, hrest⟩ | hbelow := htried.kept path hreported q hq
    · exact .inl ⟨p, hsub hp, hrest⟩
    · exact .inr hbelow

theorem executeWindows_meets (hhonest : Honest w links t) (hfits : ∀ path ∈ paths, Fits links frames t path) :
    Meets (fun s => s.tree = t ∧ s.log = []) (executeWindows w links frames paths)
      (fun result s => Stops s.log ∧ ∃ tried, tried ⊆ paths ∧ Tried links t tried result.items s.tree)
      (fun _ _ => False) := by
  have hstart : ∀ s : State ν κ key, s.tree = t ∧ s.log = [] → Running t s := by
    rintro s ⟨htree, hlog⟩
    rw [Running, hlog]
    exact ⟨htree, fun _ h => absurd h List.not_mem_nil, trivial⟩
  refine Meets.bind (checkpoint_meets.mono hstart (fun _ _ h => h) (fun _ _ h => h)) (fun cancelled => ?_)
  cases cancelled with
  | true =>
    refine Meets.pure ?_
    rintro s ⟨htree, hstops, -⟩
    rw [htree]
    exact ⟨hstops, [], List.nil_subset _, .start⟩
  | false =>
    refine Meets.bind ((@deleteItems_meets _ _ _ w _ _ _ links frames [] paths [] hhonest hfits).mono ?_
      (fun _ _ h => h) (fun _ _ h => h)) (fun items => ?_)
    · rintro s ⟨htree, hstops, hlog⟩
      rw [htree]
      exact ⟨.start, hlog rfl, hstops⟩
    · exact Meets.bind (Q := fun _ s => Stops s.log ∧ ∃ tried, tried ⊆ paths ∧ Tried links t tried items s.tree)
        (Meets.read (fun _ h => h)) (fun _ => Meets.pure (fun _ h => h))

theorem present_top {n : ν} (h : t.entry [n] ≠ none) : Present links t [.into n] := by
  refine ⟨[n], ?_, h⟩
  have hlocate := @Tree.locate_concat _ _ _ _ _ t [] n _ links [] (Tree.follow_nil links [])
  rw [Tree.child_self (Tree.mem_names.mpr h)] at hlocate
  exact hlocate

/-- An entry of the root stays while the other requested paths are elsewhere. -/
theorem steady_top {n : ν} (hn : t.entry [n] ≠ none)
    (hclear : ∀ p ∈ paths, p ≠ [.into n] → ∀ a, t.locate links p = some a → ¬a <+: [n]) :
    Steady links t paths [.into n] := by
  intro t' _ hchanged _
  refine present_top ?_
  have hkept : t'.entry [n] = t.entry [n] := by
    by_contra hne
    obtain ⟨p, hp, hother, a, ha, hpre⟩ | ⟨a, ha, hpre, hself⟩ := hchanged _ hne
    · exact hclear p hp hother a ha hpre
    · have hlocate := @Tree.locate_concat _ _ _ _ _ t [] n _ links [] (Tree.follow_nil links [])
      rw [Tree.child_self (Tree.mem_names.mpr hn), Option.map_some, List.nil_append, List.nil_append] at hlocate
      rw [hlocate, Option.some_inj] at ha
      exact hself ha
  rw [hkept]
  exact hn

/-! A folder, and a junction to it. -/

def plainKey (_ : Attributes) (name : String) : String := name

def folderNodes : List (List String × Entry String Attributes) :=
  [([], ⟨.dir, ⟨false⟩⟩), (["docs"], ⟨.dir, ⟨false⟩⟩), (["docs", "text"], ⟨.file, ⟨false⟩⟩),
    (["link"], ⟨.link true [.into "docs"], ⟨true⟩⟩)]

theorem folderNodes_wellFormed :
    (folderNodes.map Prod.fst).Nodup ∧
      (∀ x ∈ folderNodes, x.1 ≠ [] → ∃ y ∈ folderNodes, y.1 = x.1.dropLast ∧ y.2.kind = .dir) ∧
      (∀ d ∈ folderNodes, ∀ x ∈ folderNodes, ∀ y ∈ folderNodes, x.1 ≠ [] → y.1 ≠ [] →
        x.1.dropLast = d.1 → y.1.dropLast = d.1 →
        x.1.getLast?.map (plainKey d.2.data) = y.1.getLast?.map (plainKey d.2.data) → x.1 = y.1) ∧
      ∀ x ∈ folderNodes, x.1.length < 4 := by
  decide +kernel

def linkedFolder : Tree String Attributes String plainKey :=
  ⟨folderNodes, folderNodes_wellFormed.1, folderNodes_wellFormed.2.1, folderNodes_wellFormed.2.2.1⟩

theorem never_sticky (log : Log String) (e : Event String) (h : (fun _ => false) log = true) :
    (fun _ => false) (e :: log) = true :=
  h

def never : Flag (Event String) := ⟨fun _ => false, never_sticky⟩

def calm : World String := ⟨never, fun _ _ _ => none⟩

theorem linkedFolder_fits (path : LocalPath String) : Fits 8 4 linkedFolder path := by
  refine ⟨by decide, fun a _ rest hrest => ?_⟩
  obtain ⟨e, hmem⟩ := Tree.entry_ne_none.mp hrest
  have hlength := folderNodes_wellFormed.2.2.2 _ hmem
  rw [List.length_append] at hlength
  omega

theorem calm_honest : Honest calm 8 linkedFolder := fun _ _ _ _ => ⟨fun _ => rfl, fun _ h => by cases h⟩

/-- The kind of the junction cannot be told. -/
def unreadable : World String := ⟨never, fun _ op _ => if op = .lstat then some .raised else none⟩

end OpenAdb.Files.DeletedItems
