import OpenAdb.Backup.Cleanup

namespace OpenAdb.Backup.CleanedRoots

open OpenAdb.Lib.Effects OpenAdb.Lib.LinkTree OpenAdb.Lib.PyText
open OpenAdb.Backup.Scan (Json)
open OpenAdb.Backup.Cleanup

variable {κ : Type} {key : Data → Text → κ} {h : Host κ key} {links frames : Nat}
variable {t t' : Tree Text Data κ key} {path place q root packagePlace : Path} {n package snapshot : Text}

section Steps

variable {α β : Type}

theorem linked_of_isLink (hlink : t.IsLink q) {e : Entry Text Data} (he : t.entry q = some e) :
    linked e = true := by
  obtain ⟨e', absolute, target, he', hkind⟩ := hlink
  rw [he, Option.some_inj] at he'
  rw [linked, he', hkind, Bool.or_true]

theorem attempt_keeps (op : Op) : Keeps State.tree (attempt h op) := by
  refine Keeps.bind (.read _) fun fault => Keeps.bind (.update fun _ => rfl) fun _ => ?_
  cases fault with
  | none => exact .pure _
  | some message => exact .raise _

theorem orOsError_keeps {x : Step κ key α} {handler : Text → Step κ key α} (hx : Keeps State.tree x)
    (hhandler : ∀ message, Keeps State.tree (handler message)) : Keeps State.tree (orOsError x handler) := by
  refine Keeps.catching hx fun raised => ?_
  cases raised with
  | osError message => exact hhandler message
  | unicodeDecode => exact .raise _
  | value => exact .raise _
  | recursion => exact .raise _

/-- The tree at the start of a step may be named. -/
theorem meets_of_tree {C : Tree Text Data κ key → Prop} {x : Step κ key α} {Q : α → State κ key → Prop}
    {E : Raised → State κ key → Prop} (hx : ∀ t', C t' → Meets (fun s => s.tree = t') x Q E) :
    Meets (fun s => C s.tree) x Q E :=
  fun s hs => hx s.tree hs s rfl

theorem orOsError_meets {P : State κ key → Prop} {x : Step κ key α} {handler : Text → Step κ key α}
    {Q : α → State κ key → Prop} (hx : Meets P x Q (fun _ => P))
    (hhandler : ∀ message, Meets P (handler message) Q (fun _ => P)) :
    Meets P (orOsError x handler) Q (fun _ => P) := by
  refine Meets.catching hx fun raised => ?_
  cases raised with
  | osError message => exact hhandler message
  | unicodeDecode => exact Meets.raise fun _ hs => hs
  | value => exact Meets.raise fun _ hs => hs
  | recursion => exact Meets.raise fun _ hs => hs

end Steps

section Removal

/-- A condition on the tree that outlives the removal of allowed entries. -/
def Outlives (allowed : Path → Prop) (C : Tree Text Data κ key → Prop) : Prop :=
  ∀ t p (hempty : t.names p = []), allowed p → C t → C (t.remove p hempty)

variable {allowed : Path → Prop} {C : Tree Text Data κ key → Prop}

theorem removing_meets (hC : Outlives allowed C) (hp : allowed place) (op : Op) (kind : Entry Text Data → Bool) :
    Meets (fun s => C s.tree) (removing h op place kind)
      (fun _ s => C s.tree ∧ s.tree.entry place = none) (fun _ s => C s.tree) := by
  refine Meets.bind ((attempt_keeps op).meets C) fun _ s hs => ?_
  split_ifs with hempty hkind
  · exact ⟨hC _ _ hempty hp hs, by rw [Tree.entry_remove, if_pos rfl]⟩
  · exact hs
  · exact hs

theorem removeEntries_meets {remove : Path → Step κ key Unit} (hstart : ∀ q, place <+: q → allowed q)
    (hremove : ∀ q, (∀ q', q <+: q' → allowed q') → Meets (fun s => C s.tree) (remove q)
      (fun _ s => C s.tree ∧ s.tree.entry q = none) (fun _ s => C s.tree)) (names : List Text) :
    Meets (fun s => C s.tree) (removeEntries remove place names) (fun _ s => C s.tree) (fun _ s => C s.tree) := by
  induction names with
  | nil => exact Meets.pure fun _ hs => hs
  | cons name names ih =>
    refine Meets.bind (Q := fun _ s => C s.tree) ?_ fun _ => ih
    refine (hremove (place ++ [name]) fun q hq => hstart q ?_).mono (fun _ hs => hs) (fun _ _ hs => hs.1)
      fun _ _ hs => hs
    exact (List.prefix_append _ _).trans hq

/-- A tree that is removed is gone, and only what is in it goes. -/
theorem removeBackupTree_meets (hC : Outlives allowed C) (rootPlace : Path) (hstart : ∀ q, place <+: q → allowed q) :
    Meets (fun s => C s.tree) (removeBackupTree h root rootPlace frames place)
      (fun _ s => C s.tree ∧ s.tree.entry place = none) (fun _ s => C s.tree) := by
  induction frames generalizing place with
  | zero => exact Meets.raise fun _ hs => hs
  | succ frames ih =>
    have hplace : allowed place := hstart place List.prefix_rfl
    refine Meets.require_bind (fun _ => ?_) fun _ _ hs => hs
    refine Meets.bind ((Keeps.read _).meets C) fun found => ?_
    cases found with
    | none => exact Meets.raise fun _ hs => hs
    | some e =>
      dsimp only
      refine Meets.ite (fun _ => Meets.ite ?_ ?_) fun _ => Meets.ite (fun _ => ?_) fun _ => ?_
      · exact fun _ => removing_meets hC hplace _ _
      · exact fun _ => removing_meets hC hplace _ _
      · refine Meets.bind (Q := fun _ s => C s.tree) ?_ fun names => ?_
        · exact Meets.bind ((attempt_keeps _).meets C) fun _ => (Keeps.read _).meets C
        refine Meets.bind (removeEntries_meets hstart (fun q hq => ih hq) names) fun _ => ?_
        exact removing_meets hC hplace _ _
      · exact removing_meets hC hplace _ _

end Removal

variable [DecidableEq κ]

/-- The names lead to the place without a link or a reparse point on the way. -/
def Plain (t : Tree Text Data κ key) : Path → Path → Path → Prop
  | start, [], place => place = start
  | start, n :: names, place => ∃ m e, t.child start n = some m ∧ t.entry (start ++ [m]) = some e ∧
      linked e = false ∧ Plain t (start ++ [m]) names place

/-- A folder that is an OpenADB snapshot of the package: an unfinished one by its name, or one with metadata. -/
def Recognized (h : Host κ key) (t : Tree Text Data κ key) (packagePlace : Path) (package snapshot : Text) : Prop :=
  (∃ e, t.entry (packagePlace ++ [snapshot]) = some e ∧ linked e = false ∧ e.kind = .dir) ∧
    (isPartialName h snapshot = true ∨ ∃ m e text fields,
      t.child (packagePlace ++ [snapshot]) metadataName = some m ∧
        t.entry (packagePlace ++ [snapshot] ++ [m]) = some e ∧ linked e = false ∧ e.kind = .file ∧
        h.python.decode e.data.content = some text ∧ h.python.loads text = .ok (.object fields) ∧
        describes h package fields = true)

/-- An entry that a cleanup of the root may remove: at or below a recognised snapshot two levels below
the root, or the folder of its package. -/
def Owned (h : Host κ key) (t : Tree Text Data κ key) (root q : Path) : Prop :=
  ∃ place package snapshot, Plain t [] root place ∧ Recognized h t (place ++ [package]) package snapshot ∧
    (place ++ [package] ++ [snapshot] <+: q ∨ q = place ++ [package])

section Trees

theorem Recognized.mono (hr : Recognized h t' packagePlace package snapshot) (hw : t'.Within t) :
    Recognized h t packagePlace package snapshot := by
  obtain ⟨⟨e, he, hdir⟩, hname | ⟨m, e', text, fields, hm, he', hfile⟩⟩ := hr
  · exact ⟨⟨e, hw _ _ he, hdir⟩, .inl hname⟩
  · exact ⟨⟨e, hw _ _ he, hdir⟩, .inr ⟨m, e', text, fields, hw.child hm, hw _ _ he', hfile⟩⟩

theorem Plain.of_not_crosses {again : Path → List (Step Text) → Option Path} {start : Path}
    (hcross : crossesLink t start path = false) (hwalk : t.walk again start (path.map .into) = some place) :
    Plain t start path place := by
  induction path generalizing start with
  | nil => exact (Option.some_inj.mp hwalk).symm
  | cons n names ih =>
    rw [crossesLink] at hcross
    rw [List.map_cons, Tree.walk] at hwalk
    cases hchild : t.child start n with
    | none =>
      rw [hchild] at hwalk
      cases hwalk
    | some m =>
      rw [hchild] at hcross hwalk
      dsimp only at hcross hwalk
      cases hentry : t.entry (start ++ [m]) with
      | none =>
        rw [hentry] at hwalk
        cases hwalk
      | some e =>
        rw [hentry, Bool.or_eq_false_iff] at hcross
        rw [hentry] at hwalk
        obtain ⟨kind, data⟩ := e
        refine ⟨m, _, hchild, hentry, by simpa using hcross.1, ?_⟩
        cases kind with
        | dir => exact ih hcross.2 hwalk
        | file =>
          dsimp only at hwalk
          split_ifs at hwalk with hnil
          cases names with
          | nil => exact (Option.some_inj.mp hwalk).symm
          | cons n' names => cases hnil
        | link absolute target =>
          have hlinked := hcross.1
          simp [linked] at hlinked

theorem Plain.of_follow (hcross : crossesLink t [] path = false)
    (hfollow : t.follow links [] (path.map .into) = some place) : Plain t [] path place := by
  cases links with
  | zero => exact .of_not_crosses hcross hfollow
  | succ links => exact .of_not_crosses hcross hfollow

theorem place_concat (hfollow : t.follow links [] (path.map .into) = some place) :
    t.place links (path ++ [n]) = (t.child place n).map fun m => place ++ [m] := by
  rw [Tree.place, List.getLast?_concat]
  dsimp only
  rw [Tree.folder, List.dropLast_concat, hfollow]

/-- In a part of the tree a listed name denotes itself or nothing. -/
theorem child_listed {m : Text} (hw : t'.Within t) (hn : n ∈ t.names place) (hm : t'.child place n = some m) :
    m = n := by
  have h1 := hw.child hm
  rw [Tree.child_self hn, Option.some_inj] at h1
  exact h1.symm

omit [DecidableEq κ] in
theorem names_of_within (hw : t'.Within t) (hn : n ∈ t'.names place) : n ∈ t.names place := by
  obtain ⟨e, he⟩ := Option.ne_none_iff_exists'.mp (Tree.mem_names.mp hn)
  rw [Tree.mem_names, hw _ _ he]
  exact Option.some_ne_none e

/-- What is looked at below a folder is what is there. -/
theorem seen_entry (hfollow : t'.follow links [] (path.map .into) = some place)
    (hlink : isLinkOrReparsePoint links t' (path ++ [n]) = false) {e : Entry Text Data}
    (he : entryAt links t' (path ++ [n]) = some e) :
    ∃ m, t'.child place n = some m ∧ t'.follow links [] ((path ++ [n]).map .into) = some (place ++ [m]) ∧
      t'.entry (place ++ [m]) = some e ∧ linked e = false := by
  obtain ⟨r, hr, hre⟩ := Option.bind_eq_some_iff.mp he
  rw [List.map_append, List.map_singleton] at hr ⊢
  obtain ⟨q, m, hq, hm, hto⟩ := Tree.follow_concat hr
  rw [hfollow, Option.some_inj] at hq
  subst hq
  obtain ⟨e', he'⟩ := Option.ne_none_iff_exists'.mp (Tree.entry_child hm)
  rw [isLinkOrReparsePoint, place_concat hfollow, hm, Option.map_some, Option.bind_some, he', Option.any_some] at hlink
  have hrm : r = place ++ [m] := by
    refine hto fun hislink => ?_
    rw [linked_of_isLink hislink he'] at hlink
    cases hlink
  rw [hrm] at hr hre
  rw [he', Option.some_inj] at hre
  rw [hre] at he' hlink
  exact ⟨m, hm, hr, he', hlink⟩

theorem seen_directory (hw : t'.Within t) (hfollow : t.follow links [] (path.map .into) = some place)
    (hn : n ∈ t.names place) (hlink : isLinkOrReparsePoint links t' (path ++ [n]) = false)
    (hdir : isDirectory links t' (path ++ [n]) = true) :
    t'.follow links [] ((path ++ [n]).map .into) = some (place ++ [n]) ∧
      ∃ e, t'.entry (place ++ [n]) = some e ∧ linked e = false ∧ e.kind = .dir := by
  rw [isDirectory, Option.any_eq_true] at hdir
  obtain ⟨e, he, hkind⟩ := hdir
  obtain ⟨r, hr, -⟩ := Option.bind_eq_some_iff.mp he
  rw [List.map_append, List.map_singleton] at hr
  obtain ⟨q, -, hq, -⟩ := Tree.follow_concat hr
  have hsame := hw.follow hq
  rw [hfollow, Option.some_inj] at hsame
  obtain ⟨m, hm, hto, he', hlinked⟩ := seen_entry (hsame ▸ hq) hlink he
  obtain rfl := child_listed hw hn hm
  exact ⟨hto, e, he', hlinked, of_decide_eq_true hkind⟩

end Trees

section Readings

theorem iterdir_keeps (path : Path) : Keeps State.tree (iterdir h links path) := by
  refine Keeps.bind (attempt_keeps _) fun _ => Keeps.bind (.read _) fun found => ?_
  split
  case h_1 => exact .pure _
  case h_2 => exact .raise _

theorem tryIterdir_keeps (path : Path) : Keeps State.tree (tryIterdir h links path) :=
  orOsError_keeps (Keeps.bind (iterdir_keeps path) fun _ => .pure _) fun _ => .pure _

theorem loadJson_keeps (path : Path) : Keeps State.tree (loadJson h links path) := by
  refine orOsError_keeps (Keeps.bind (attempt_keeps _) fun _ => Keeps.bind (.read _) fun found => ?_) fun _ => .pure _
  split
  case h_1 data =>
    cases h.python.decode data.content with
    | none => exact .raise _
    | some text =>
      dsimp only
      cases h.python.loads text with
      | ok value => exact .pure _
      | error e => cases e <;> first | exact .pure _ | exact .raise _
  case h_2 => exact .raise _

theorem iterdir_meets (path : Path) : Meets (fun s => s.tree = t) (iterdir h links path)
    (fun names s => s.tree = t ∧ ∃ place, t.follow links [] (path.map .into) = some place ∧ names = t.names place)
    (fun _ s => s.tree = t) := by
  refine Meets.bind ((attempt_keeps _).meets fun tree => tree = t) fun _ => ?_
  refine Meets.reading (b := (isDirectory links t path, t.follow links [] (path.map .into), t))
    (fun s hs => by rw [hs]) ?_
  split
  case h_1 place tree hfound =>
    obtain ⟨-, hplace⟩ := Prod.mk.inj hfound
    obtain ⟨hfollow, rfl⟩ := Prod.mk.inj hplace
    exact Meets.pure fun s hs => ⟨hs, place, hfollow, rfl⟩
  case h_2 => exact Meets.raise fun s hs => hs

theorem tryIterdir_meets (path : Path) : Meets (fun s => s.tree = t) (tryIterdir h links path)
    (fun found s => s.tree = t ∧ ∀ names, found = .ok names →
      ∃ place, t.follow links [] (path.map .into) = some place ∧ names = t.names place)
    (fun _ s => s.tree = t) := by
  refine orOsError_meets (Meets.bind (iterdir_meets path) fun names => Meets.pure ?_) fun message => Meets.pure ?_
  · exact fun s hs => ⟨hs.1, fun names' heq => Except.ok.inj heq ▸ hs.2⟩
  · exact fun s hs => ⟨hs, fun names heq => by cases heq⟩

theorem loadJson_meets (path : Path) : Meets (fun s => s.tree = t) (loadJson h links path)
    (fun found s => s.tree = t ∧ ∀ value, found = some value → ∃ data text,
      entryAt links t path = some ⟨.file, data⟩ ∧ h.python.decode data.content = some text ∧
        h.python.loads text = .ok value)
    (fun _ s => s.tree = t) := by
  have hnone : ∀ s : State κ key, s.tree = t → s.tree = t ∧ ∀ value, (none : Option Json) = some value →
      ∃ data text, entryAt links t path = some ⟨.file, data⟩ ∧ h.python.decode data.content = some text ∧
        h.python.loads text = .ok value := fun s hs => ⟨hs, fun value heq => by cases heq⟩
  refine orOsError_meets ?_ fun _ => Meets.pure hnone
  refine Meets.bind ((attempt_keeps _).meets fun tree => tree = t) fun _ => ?_
  refine Meets.reading (b := entryAt links t path) (fun s hs => by rw [hs]) ?_
  split
  case h_1 data hfound =>
    cases hdecode : h.python.decode data.content with
    | none => exact Meets.raise fun s hs => hs
    | some text =>
      dsimp only
      cases hloads : h.python.loads text with
      | ok value =>
        exact Meets.pure fun s hs => ⟨hs, fun value' heq => ⟨data, text, hfound, hdecode,
          Option.some.inj heq ▸ hloads⟩⟩
      | error e =>
        cases e with
        | jsonDecode => exact Meets.pure hnone
        | value => exact Meets.raise fun s hs => hs
        | recursion => exact Meets.raise fun s hs => hs
  case h_2 => exact Meets.raise fun s hs => hs

variable (hw : t'.Within t) {packageDir : Path}

include hw

theorem looksLike_meets (hfollow : t.follow links [] (packageDir.map .into) = some packagePlace)
    (hn : n ∈ t.names packagePlace) :
    Meets (fun s => s.tree = t') (looksLikeOpenadbBackupSnapshot h links package (packageDir ++ [n]))
      (fun owned s => s.tree = t' ∧ (owned = true → Recognized h t packagePlace package n))
      (fun _ s => s.tree = t') := by
  have hno : ∀ s : State κ key, s.tree = t' → s.tree = t' ∧ (false = true → Recognized h t packagePlace package n) :=
    fun s hs => ⟨hs, fun heq => by cases heq⟩
  refine Meets.reading (fun _ hs => hs) ?_
  refine Meets.ite (fun _ => Meets.pure hno) fun hlink => Meets.ite (fun _ => Meets.pure hno) fun hdir => ?_
  obtain ⟨hto, e, he, hlinked, hkind⟩ := seen_directory hw hfollow hn (by simpa using hlink) (by simpa using hdir)
  refine Meets.ite (fun hstem => Meets.pure fun s hs => ⟨hs, fun _ => ?_⟩) fun _ => ?_
  · rw [List.getLast?_concat, Option.getD_some] at hstem
    exact Recognized.mono ⟨⟨e, he, hlinked, hkind⟩, .inl hstem⟩ hw
  refine Meets.ite (fun _ => Meets.pure hno) fun hmeta => ?_
  refine Meets.bind (loadJson_meets _) fun found => ?_
  refine Meets.fact fun hfound => ?_
  split
  case h_1 fields =>
    refine Meets.pure fun s hs => ⟨hs, fun hdescribes => ?_⟩
    obtain ⟨data, text, hentry, hdecode, hloads⟩ := hfound _ rfl
    obtain ⟨m, hm, -, hfile, hplain⟩ := seen_entry hto (by simpa using hmeta) hentry
    exact Recognized.mono ⟨⟨e, he, hlinked, hkind⟩, .inr ⟨m, _, text, fields, hm, hfile, hplain, rfl, hdecode, hloads,
      hdescribes⟩⟩ hw
  case h_2 => exact Meets.pure hno

theorem ownedCandidates_meets (hfollow : t.follow links [] (packageDir.map .into) = some packagePlace)
    {names : List Text} (hnames : ∀ n ∈ names, n ∈ t.names packagePlace) :
    Meets (fun s => s.tree = t') (ownedCandidates h links packageDir package names)
      (fun owned s => s.tree = t' ∧ ∀ n ∈ owned, n ∈ t.names packagePlace ∧ Recognized h t packagePlace package n)
      (fun _ s => s.tree = t') := by
  induction names with
  | nil => exact Meets.pure fun s hs => ⟨hs, by simp⟩
  | cons name names ih =>
    obtain ⟨hname, hnames⟩ := List.forall_mem_cons.mp hnames
    refine Meets.bind (looksLike_meets hw hfollow hname) fun owned => ?_
    refine Meets.fact fun howned => ?_
    refine Meets.bind (ih hnames) fun rest => Meets.pure fun s hs => ⟨hs.1, ?_⟩
    split_ifs with hyes
    · exact List.forall_mem_cons.mpr ⟨⟨hname, howned hyes⟩, hs.2⟩
    · exact hs.2

end Readings

section Cleaning

variable {allowed : Path → Prop}

/-- What is reported as removed is at places where nothing is any more. -/
def Gone (links : Nat) (t t' : Tree Text Data κ key) (removed : List Path) : Prop :=
  ∀ path ∈ removed, path ≠ [] ∧ ∃ place, t.place links path = some place ∧ t'.entry place = none

/-- The tree while it is cleaned: some allowed entries are gone, those of the reported paths among them. -/
structure Cleaned (links : Nat) (t : Tree Text Data κ key) (allowed : Path → Prop) (removed : List Path)
    (t' : Tree Text Data κ key) : Prop where
  within : t'.Within t
  frame : ∀ q, t'.entry q ≠ t.entry q → allowed q
  gone : Gone links t t' removed

theorem Cleaned.outlives {removed : List Path} : Outlives allowed (Cleaned links t allowed removed) := by
  intro t' p hempty hp hc
  refine ⟨(Tree.within_remove hempty).trans hc.within, fun q hq => ?_, fun path hpath => ?_⟩
  · by_cases hqp : q = p
    · exact hqp ▸ hp
    · rw [Tree.entry_remove, if_neg hqp] at hq
      exact hc.frame q hq
  · obtain ⟨hne, place, hplace, hgone⟩ := hc.gone path hpath
    refine ⟨hne, place, hplace, ?_⟩
    rw [Tree.entry_remove, hgone, ite_self]

theorem Cleaned.refl : Cleaned links t allowed [] t :=
  ⟨.refl t, fun _ hq => absurd rfl hq, by simp [Gone]⟩

theorem Cleaned.append {removed : List Path} (hc : Cleaned links t allowed removed t') (hne : path ≠ [])
    (hplace : t.place links path = some place) (hgone : t'.entry place = none) :
    Cleaned links t allowed (removed ++ [path]) t' := by
  refine ⟨hc.within, hc.frame, fun p hp => ?_⟩
  obtain hp | hp := List.mem_append.mp hp
  · exact hc.gone p hp
  · rw [List.mem_singleton.mp hp]
    exact ⟨hne, place, hplace, hgone⟩

theorem Cleaned.forget {removed : List Path} (hc : Cleaned links t allowed removed t') :
    Cleaned links t allowed [] t' :=
  ⟨hc.within, hc.frame, by simp [Gone]⟩

/-- How a step that cleans ends, with its report or with a raise. -/
def Cleans (links : Nat) (t : Tree Text Data κ key) (allowed : Path → Prop) (x : Step κ key Report) (r : Report) :
    Prop :=
  Meets (fun s => Cleaned links t allowed r.removed s.tree) x
    (fun r' s => Cleaned links t allowed r'.removed s.tree) (fun _ s => Cleaned links t allowed [] s.tree)

variable {r : Report} {packageDir rootPlace : Path}

theorem removeOwned_cleans (hfollow : t.follow links [] (packageDir.map .into) = some packagePlace)
    {names : List Text} (hnames : ∀ n ∈ names, n ∈ t.names packagePlace)
    (howned : ∀ n ∈ names, ∀ q, packagePlace ++ [n] <+: q → allowed q) :
    Cleans links t allowed (removeOwned h frames root rootPlace packagePlace packageDir r names) r := by
  induction names generalizing r with
  | nil => exact Meets.pure fun _ hs => hs
  | cons name names ih =>
    obtain ⟨hname, hnames⟩ := List.forall_mem_cons.mp hnames
    obtain ⟨hfirst, howned⟩ := List.forall_mem_cons.mp howned
    refine Meets.bind ((orOsError_meets ?_ fun message => ?_).weaken fun _ s hs => hs.forget)
      fun r' => ih hnames howned
    · refine Meets.bind (removeBackupTree_meets Cleaned.outlives rootPlace hfirst) fun _ => Meets.pure fun s hs => ?_
      refine hs.1.append (List.append_ne_nil_of_right_ne_nil _ (List.cons_ne_nil _ _)) ?_ hs.2
      rw [place_concat hfollow, Tree.child_self hname, Option.map_some]
    · exact Meets.pure fun _ hs => hs

theorem removeEmptyPackage_cleans (hallowed : allowed packagePlace) :
    Cleans links t allowed (removeEmptyPackage h links packagePlace packageDir r) r := by
  refine Meets.weaken (orOsError_meets (P := fun s : State κ key => Cleaned links t allowed r.removed s.tree) ?_
    fun message => Meets.pure fun _ hs => hs) fun _ s hs => hs.forget
  refine Meets.bind ((iterdir_keeps _).meets (Cleaned links t allowed r.removed)) fun names => ?_
  refine Meets.ite (fun _ => ?_) fun _ => ?_
  · exact Meets.bind (removing_meets Cleaned.outlives hallowed _ _) fun _ => Meets.pure fun _ hs => hs.1
  · exact Meets.pure fun _ hs => hs

/-- Below a root only recognised snapshots and the folders of their packages are allowed to go. -/
def AllowsOwned (h : Host κ key) (t : Tree Text Data κ key) (allowed : Path → Prop) (root : Path) : Prop :=
  ∀ q, Owned h t root q → allowed q

variable (hroot : t.follow links [] (root.map .into) = some rootPlace) (hplain : Plain t [] root rootPlace)
variable (hallowed : AllowsOwned h t allowed root)

include hroot hplain hallowed

theorem removePackage_cleans (hpackage : package ∈ t.names rootPlace) :
    Cleans links t allowed (removePackage h links frames root rootPlace r package) r := by
  refine meets_of_tree fun t' hc => ?_
  have hkeep : ∀ (removed : List Path), removed = r.removed → ∀ s : State κ key, s.tree = t' →
      Cleaned links t allowed removed s.tree := fun removed heq s hs => by rw [hs, heq]; exact hc
  refine Meets.reading (fun _ hs => hs) ?_
  refine Meets.ite (fun _ => Meets.pure (hkeep _ rfl)) fun hlink =>
    Meets.ite (fun _ => Meets.pure (hkeep _ rfl)) fun hdir => ?_
  obtain ⟨hto, -⟩ := seen_directory hc.within hroot hpackage (by simpa using hlink) (by simpa using hdir)
  have hfollow := hc.within.follow hto
  refine Meets.bind ((tryIterdir_meets _).weaken fun _ s hs => (hkeep _ rfl s hs).forget) fun found => ?_
  cases found with
  | error message => exact Meets.pure fun s hs => hkeep _ rfl s hs.1
  | ok candidates =>
    refine Meets.fact fun hlisted => ?_
    obtain ⟨place, hplace, rfl⟩ := hlisted _ rfl
    rw [hto, Option.some_inj] at hplace
    subst hplace
    refine Meets.bind ((ownedCandidates_meets hc.within hfollow fun _ => names_of_within hc.within).weaken
      fun _ s hs => (hkeep _ rfl s hs).forget) fun owned =>
        Meets.ite (fun _ => Meets.pure fun s hs => hkeep _ rfl s hs.1)
        fun hne => Meets.fact fun howned => Meets.pre ?_ (hkeep _ rfl)
    have hgoes : ∀ n ∈ owned, ∀ q, rootPlace ++ [package] ++ [n] <+: q → allowed q := fun n hn q hq =>
      hallowed q ⟨rootPlace, package, n, hplain, (howned n hn).2, .inl hq⟩
    refine Meets.bind (removeOwned_cleans hfollow (fun n hn => (howned n hn).1) hgoes) fun r' => ?_
    obtain ⟨n, hn⟩ := List.exists_mem_of_ne_nil _ hne
    exact removeEmptyPackage_cleans (hallowed _ ⟨rootPlace, package, n, hplain, (howned n hn).2, .inr rfl⟩)

theorem removePackages_cleans {packages : List Text} (hpackages : ∀ n ∈ packages, n ∈ t.names rootPlace) :
    Cleans links t allowed (removePackages h links frames root rootPlace r packages) r := by
  induction packages generalizing r with
  | nil => exact Meets.pure fun _ hs => hs
  | cons package packages ih =>
    obtain ⟨hpackage, hpackages⟩ := List.forall_mem_cons.mp hpackages
    exact Meets.bind (removePackage_cleans hroot hplain hallowed hpackage) fun r' => ih hpackages

omit hroot hplain

theorem removeBackupSnapshots_cleans (hcross : crossesLink t [] root = false) :
    Cleans links t allowed (removeBackupSnapshots h links frames r root) r := by
  refine meets_of_tree fun t' hc => ?_
  have hkeep : ∀ (removed : List Path), removed = r.removed → ∀ s : State κ key, s.tree = t' →
      Cleaned links t allowed removed s.tree := fun removed heq s hs => by rw [hs, heq]; exact hc
  refine Meets.reading (b := t'.follow links [] (root.map .into)) (fun s hs => by rw [hs]) ?_
  cases hfound : t'.follow links [] (root.map .into) with
  | none => exact Meets.pure (hkeep _ rfl)
  | some rootPlace =>
    have hroot := hc.within.follow hfound
    refine Meets.bind ((tryIterdir_meets _).weaken fun _ s hs => (hkeep _ rfl s hs).forget) fun found => ?_
    cases found with
    | error message => exact Meets.pure fun s hs => hkeep _ rfl s hs.1
    | ok packages =>
      refine Meets.fact fun hlisted => Meets.pre ?_ (hkeep _ rfl)
      obtain ⟨place, hplace, rfl⟩ := hlisted _ rfl
      rw [hfound, Option.some_inj] at hplace
      subst hplace
      exact removePackages_cleans hroot (Plain.of_follow hcross hroot) hallowed fun _ => names_of_within hc.within

omit hallowed

theorem removeAll_cleans {roots : List Path} (hallowed : ∀ root ∈ roots, AllowsOwned h t allowed root)
    (hcross : ∀ root ∈ roots, crossesLink t [] root = false) :
    Cleans links t allowed (removeAll h links frames r roots) r := by
  induction roots generalizing r with
  | nil => exact Meets.pure fun _ hs => hs
  | cons root roots ih =>
    obtain ⟨hfirst, hallowed⟩ := List.forall_mem_cons.mp hallowed
    obtain ⟨hplain, hcross⟩ := List.forall_mem_cons.mp hcross
    exact Meets.bind (removeBackupSnapshots_cleans hfirst hplain) fun r' => ih hallowed hcross

end Cleaning

section Discovery

variable {settings : Settings} {d : Discovery}

theorem foldl_enterName {names : Path} (hnames : "..".toList ∉ names) (start : Path) :
    names.foldl enterName start = start ++ names := by
  induction names generalizing start with
  | nil => exact (List.append_nil start).symm
  | cons name names ih =>
    obtain ⟨hname, hnames⟩ := not_or.mp (List.mem_cons.not.mp hnames)
    rw [List.foldl_cons, enterName, if_neg (Ne.symm hname), ih hnames, List.append_assoc, List.singleton_append]

theorem lexicalAbsolutePath_of_not_mem (hpath : "..".toList ∉ path) : lexicalAbsolutePath path = path :=
  (foldl_enterName hpath []).trans (List.nil_append path)

theorem not_mem_enterName {start : Path} {name : Text} (hstart : "..".toList ∉ start) :
    "..".toList ∉ enterName start name := by
  rw [enterName]
  split_ifs with hname
  · intro hmem
    obtain hmem | hmem := List.mem_append.mp hmem
    · exact hstart (List.mem_of_mem_take hmem)
    · exact hstart (List.mem_of_mem_tail (List.mem_of_mem_dropLast hmem))
  · intro hmem
    obtain hmem | hmem := List.mem_append.mp hmem
    · exact hstart hmem
    · exact hname (List.mem_singleton.mp hmem).symm

theorem not_mem_lexicalAbsolutePath (path : Path) : "..".toList ∉ lexicalAbsolutePath path := by
  have hfold : ∀ (names start : Path), "..".toList ∉ start → "..".toList ∉ names.foldl enterName start := by
    intro names
    induction names with
    | nil => exact fun start hstart => hstart
    | cons name names ih => exact fun start hstart => ih _ (not_mem_enterName hstart)
  exact hfold path [] (by simp)

/-- The roots that are found are normal paths. -/
def Normal (paths : List Path) : Prop := ∀ p ∈ paths, lexicalAbsolutePath p = p

omit [DecidableEq κ] in
theorem Normal.append {paths : List Path} (hpaths : Normal paths) (path : Path) :
    Normal (appendUniqueLexicalPath h paths path) := by
  rw [appendUniqueLexicalPath]
  split_ifs
  · exact hpaths
  · intro p hp
    obtain hp | hp := List.mem_append.mp hp
    · exact hpaths p hp
    · rw [List.mem_singleton.mp hp]
      exact lexicalAbsolutePath_of_not_mem (not_mem_lexicalAbsolutePath path)

theorem inspectProfile_normal {container : Path} {name : Text} (hd : Normal d.paths) :
    Normal (inspectProfile h links t container d name).paths := by
  rw [inspectProfile]
  split_ifs
  · exact hd.append _
  · exact hd
  · exact hd

theorem inspectProfiles_normal {container : Path} {names : List Text} (hd : Normal d.paths) :
    Normal (names.foldl (inspectProfile h links t container) d).paths := by
  induction names generalizing d with
  | nil => exact hd
  | cons name names ih => exact ih (inspectProfile_normal hd)

/-- A step of the discovery changes nothing and finds normal paths. -/
def Finds (t : Tree Text Data κ key) (x : Step κ key Discovery) : Prop :=
  Meets (fun s => s.tree = t) x (fun d s => s.tree = t ∧ Normal d.paths) (fun _ s => s.tree = t)

omit [DecidableEq κ] in
theorem finds_bind {x : Step κ key Discovery} {f : Discovery → Step κ key Discovery} (hx : Finds t x)
    (hf : ∀ d, Normal d.paths → Finds t (f d)) : Finds t (x >>= f) := by
  refine Meets.bind hx fun d => ?_
  refine Meets.fact fun hd => ?_
  exact hf d hd

theorem inspectContainer_finds (name : String) (hd : Normal d.paths) :
    Finds t (inspectContainer h links settings d name) := by
  have hpure : ∀ d' : Discovery, Normal d'.paths → Finds t (pure d' : Step κ key Discovery) :=
    fun d' hd' => Meets.pure fun s hs => ⟨hs, hd'⟩
  refine Meets.bind ((Keeps.read _).meets fun tree => tree = t) fun tree => ?_
  refine Meets.ite (fun _ => hpure _ (hd.append _)) fun _ => Meets.ite (fun _ => hpure _ hd) fun _ =>
    Meets.ite (fun _ => hpure _ hd) fun _ => ?_
  refine Meets.bind ((tryIterdir_keeps _).meets fun tree => tree = t) fun found => ?_
  cases found with
  | error message => exact hpure _ hd
  | ok names => exact hpure _ (inspectProfiles_normal hd)

omit [DecidableEq κ] in
theorem addFolder_normal (value : Text) (hd : Normal d.paths) : Normal (addFolder h d value).paths := by
  rw [addFolder]
  split_ifs
  · exact hd.append _
  · exact hd

theorem readFolder_finds (file : Path) (hd : Normal d.paths) : Finds t (readFolder h links d file) := by
  refine Meets.bind ((loadJson_keeps _).meets fun tree => tree = t) fun found => ?_
  split
  case h_1 => exact Meets.pure fun s hs => ⟨hs, addFolder_normal _ hd⟩
  case h_2 => exact Meets.pure fun s hs => ⟨hs, hd⟩

theorem readConfigDirs_finds {dirs : List Path} (hd : Normal d.paths) : Finds t (readConfigDirs h links d dirs) := by
  induction dirs generalizing d with
  | nil => exact Meets.pure fun s hs => ⟨hs, hd⟩
  | cons dir dirs ih =>
    refine finds_bind (readFolder_finds _ (hd.append _)) fun d hd => ?_
    exact finds_bind (readFolder_finds _ hd) fun d hd => ih hd

theorem discover_finds : Finds t (discoverApkBackupFolders h links settings) := by
  refine Meets.bind ((Keeps.read _).meets fun tree => tree = t) fun tree => ?_
  have hstart : Normal
      ([settings.baseConfigDir, settings.configDir].foldl (inspectConfigDir h links tree) ⟨[], [], []⟩).paths := by
    rw [List.foldl_cons, List.foldl_cons, List.foldl_nil, inspectConfigDir, inspectConfigDir]
    dsimp only
    split_ifs <;> exact fun p hp => by cases hp
  refine finds_bind (inspectContainer_finds _ hstart) fun d hd => ?_
  refine finds_bind (inspectContainer_finds _ hd) fun d hd => ?_
  refine finds_bind (inspectContainer_finds _ hd) fun d hd => ?_
  refine finds_bind (readConfigDirs_finds hd) fun d hd => ?_
  exact Meets.pure fun s hs => ⟨hs, addFolder_normal _ hd⟩

end Discovery

section Main

variable {settings : Settings} {protectedPaths : List Path}

theorem configuredFolderPaths_keeps (field : String) (paths dirs : List Path) :
    Keeps State.tree (configuredFolderPaths h links field paths dirs) := by
  induction dirs generalizing paths with
  | nil => exact .pure _
  | cons dir dirs ih =>
    refine Keeps.bind (.read _) fun t => .ite (ih _) (Keeps.bind (loadJson_keeps _) fun found => ?_)
    split
    case h_1 => exact ih _
    case h_2 => exact ih _

theorem protectedFolders_keeps (dirs : List Path) (field : String) (folders : List Path) :
    Keeps State.tree (protectedFolders h links settings dirs field folders) :=
  Keeps.bind (configuredFolderPaths_keeps _ _ _) fun _ => Keeps.bind (.read _) fun _ => .pure _

theorem backupCleanupProtectedPaths_keeps (dirs : List Path) :
    Keeps State.tree (backupCleanupProtectedPaths h links settings dirs) :=
  Keeps.bind (protectedFolders_keeps _ _ _) fun _ => Keeps.bind (protectedFolders_keeps _ _ _) fun _ =>
    Keeps.bind (.read _) fun _ => .pure _

theorem packageFailures_keeps (root : Path) (packages : List Text) :
    Keeps State.tree (packageFailures h links root packages) := by
  induction packages with
  | nil => exact .pure _
  | cons package packages ih =>
    refine Keeps.bind (.read _) fun t => Keeps.bind (.ite (.pure _) (.ite (.pure _) ?_)) fun _ =>
      Keeps.bind ih fun _ => .pure _
    refine Keeps.bind (tryIterdir_keeps _) fun found => ?_
    cases found with
    | error message => exact .pure _
    | ok candidates => exact .pure _

theorem contentFailures_keeps (roots : List Path) : Keeps State.tree (contentFailures h links roots) := by
  induction roots with
  | nil => exact .pure _
  | cons root roots ih =>
    refine Keeps.bind (.read _) fun t => Keeps.bind (.ite ?_ (.pure _)) fun _ => Keeps.bind ih fun _ => .pure _
    refine Keeps.bind (tryIterdir_keeps _) fun found => ?_
    cases found with
    | error message => exact .pure _
    | ok packages => exact packageFailures_keeps _ _

theorem crossesLink_of_safe (hsafe : backupRootSafetyError h links t protectedPaths root = none)
    (hnormal : lexicalAbsolutePath root = root) : crossesLink t [] root = false := by
  rw [backupRootSafetyError, hnormal] at hsafe
  cases hcross : crossesLink t [] root with
  | false => rfl
  | true =>
    rw [hcross, if_pos rfl] at hsafe
    split_ifs at hsafe

/-- A root for which all that is checked before the first removal went well. -/
def Approved (h : Host κ key) (links : Nat) (settings : Settings) (expected : Option (List Path)) (s : State κ key)
    (root : Path) : Prop :=
  ∃ d s1 protectedPaths s2 s3, discoverApkBackupFolders h links settings s = (.ok d, s1) ∧ root ∈ d.paths ∧
    asExpected h expected d.paths = true ∧ d.failures = [] ∧
    backupCleanupProtectedPaths h links settings d.configDirs s1 = (.ok protectedPaths, s2) ∧
    (∀ r ∈ d.paths, backupRootSafetyError h links s.tree protectedPaths r = none) ∧
    contentFailures h links d.paths s2 = (.ok [], s3)

/-- What a cleanup may remove. -/
def Removable (h : Host κ key) (links : Nat) (settings : Settings) (expected : Option (List Path)) (s : State κ key)
    (q : Path) : Prop :=
  ∃ root, Approved h links settings expected s root ∧ Owned h s.tree root q

structure Tidied (h : Host κ key) (links : Nat) (settings : Settings) (expected : Option (List Path))
    (s s' : State κ key) : Prop where
  within : s'.tree.Within s.tree
  frame : ∀ q, s'.tree.entry q ≠ s.tree.entry q → Removable h links settings expected s q

/-- The result names the roots, and what it reports as removed is gone. -/
def Truthful (h : Host κ key) (links : Nat) (settings : Settings) (expected : Option (List Path)) (s : State κ key)
    (result : ApkBackupCleanupResult) (s' : State κ key) : Prop :=
  Tidied h links settings expected s s' ∧
    (∀ root, Approved h links settings expected s root → root ∈ result.backupRoots) ∧
    ∀ path ∈ result.removedSnapshots, s'.tree.place links path = none

variable {expected : Option (List Path)} {s s' : State κ key}

theorem Tidied.unchanged (hs : s'.tree = s.tree) : Tidied h links settings expected s s' :=
  ⟨hs ▸ Tree.Within.refl _, fun q hq => absurd (congrArg (fun tree => tree.entry q) hs) hq⟩

/-- What keeps the tree may raise before anything is removed. -/
theorem tidied_of_keeps {α : Type} {x : Step κ key α} (hx : Keeps State.tree x) (hs : s'.tree = s.tree) :
    Outcome (fun _ s'' => s''.tree = s.tree) (fun _ => Tidied h links settings expected s) (x s') :=
  (hx.meets (· = s.tree) s' hs).mono (fun _ _ hs => hs) fun _ _ hs => .unchanged hs

theorem place_of_within (hw : t'.Within t) (hplace : t'.place links path = some q) : t.place links path = some q := by
  by_cases hne : path = []
  · rw [hne] at hplace ⊢
    exact hplace
  · obtain ⟨p, n, m, hp, hlast, hm, rfl⟩ := Tree.place_eq_some hne hplace
    rw [Tree.place, hlast]
    dsimp only
    rw [Tree.folder, hw.follow hp]
    dsimp only
    rw [hw.child hm, Option.map_some]

/-- A reported place that is empty is not reached any more. -/
theorem Cleaned.not_reached {allowed : Path → Prop} {removed : List Path} (hc : Cleaned links t allowed removed t')
    (hpath : path ∈ removed) : t'.place links path = none := by
  obtain ⟨hne, place, hplace, hgone⟩ := hc.gone path hpath
  rw [Option.eq_none_iff_forall_ne_some]
  intro q hq
  have hsame := place_of_within hc.within hq
  rw [hplace, Option.some_inj] at hsame
  subst hsame
  obtain ⟨p, n, m, -, -, hm, rfl⟩ := Tree.place_eq_some hne hq
  exact Tree.entry_child hm hgone

theorem removeAll_tidies {paths : List Path} {s₁ : State κ key} (htree : s₁.tree = s.tree)
    (happroved : ∀ root ∈ paths, Approved h links settings expected s root)
    (hcross : ∀ root ∈ paths, crossesLink s.tree [] root = false)
    (hpaths : ∀ root, Approved h links settings expected s root → root ∈ paths) :
    Outcome (Truthful h links settings expected s) (fun _ => Tidied h links settings expected s)
      ((do
        let r ← removeAll h links frames ⟨[], []⟩ paths
        pure (⟨paths, r.removed, r.failures⟩ : ApkBackupCleanupResult)) s₁) := by
  have hstart : Cleaned links s.tree (Removable h links settings expected s) [] s₁.tree := by
    rw [htree]
    exact .refl
  have hcleans : Cleans links s.tree (Removable h links settings expected s) (removeAll h links frames ⟨[], []⟩ paths)
      ⟨[], []⟩ := removeAll_cleans (fun root hroot q hq => ⟨root, happroved root hroot, hq⟩) hcross
  have hrun := (hcleans s₁ hstart).mono (fun _ _ hclean => hclean) fun _ _ hclean =>
    Tidied.mk hclean.within hclean.frame
  refine hrun.bind fun r s' _ hclean => ?_
  exact ⟨⟨hclean.within, hclean.frame⟩, hpaths, fun path hpath => hclean.not_reached hpath⟩

end Main

end OpenAdb.Backup.CleanedRoots
