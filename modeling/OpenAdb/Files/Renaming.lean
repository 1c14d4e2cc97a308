import OpenAdb.Acbridge.Probe
import OpenAdb.Files.Actions
import OpenAdb.Lib.LinkTree
import OpenAdb.Lib.ShellWords

namespace OpenAdb.Files.Renaming

open OpenAdb.Lib.PyText OpenAdb.Lib.PackageName OpenAdb.Lib.SlashPath OpenAdb.Lib.Effects OpenAdb.Lib.LinkTree
open OpenAdb.Lib.ShellWords
open OpenAdb.Acbridge.Probe (shellQuote)
open OpenAdb.Context.Device (DeviceContext)
open OpenAdb.Files.Actions
open OpenAdb.Files.Requests (FileManagerAction)

/-- What the device keeps with an entry. A directory may take names that differ in case for one. -/
structure Item where
  folds : Bool
  inode : Nat
  content : List UInt8
  deriving DecidableEq

variable (caseKey : Text → Text)

def key (item : Item) (name : Text) : Text := if item.folds = true then caseKey name else name

abbrev DeviceTree := Tree Text Item Text (key caseKey)

variable {caseKey} (links : Nat) (t : DeviceTree caseKey) (source target : List Text)

/-- The directory and the name that `mv` moves to: into the target where it leads to a directory, else its own name. -/
def destination : Option (List Text × Text) :=
  match source.getLast?, target.getLast? with
  | some n, some k =>
    match t.follow links [] (target.map .into) with
    | none => (t.folder links target).map (fun p => (p, k))
    | some q =>
      if (t.entry q).map Entry.kind = some .dir then some (q, n) else (t.folder links target).map (fun p => (p, k))
  | _, _ => none

def SameFile (a b : List Text) : Prop :=
  ∃ e e', t.entry a = some e ∧ t.entry b = some e' ∧ e.data.inode = e'.data.inode

/-- The kinds let an entry take the place of another: neither is a directory, or both are and the other is empty. -/
def Replaces (a b : List Text) : Prop := t.names b = [] ∧ (t.IsDir a ↔ t.IsDir b)

/-- What a successful `mv` leaves of a tree. -/
inductive Outcome (a p : List Text) (n : Text) : DeviceTree caseKey → Prop
  | moved (free : t.child p n = none) (h : Tree.CanMove t a (p ++ [n])) : Outcome a p n (t.move a (p ++ [n]) h)
  | same {m : Text} (found : t.child p n = some m) (self : p ++ [m] = a) : Outcome a p n t
  | kept {m : Text} (found : t.child p n = some m) (other : ¬a <+: p ++ [m]) (linked : SameFile t a (p ++ [m])) :
      Outcome a p n t
  | dropped {m : Text} (found : t.child p n = some m) (other : ¬a <+: p ++ [m]) (linked : SameFile t a (p ++ [m]))
      (leaf : t.names a = []) : Outcome a p n (t.remove a leaf)
  | replaced {m : Text} (found : t.child p n = some m) (other : ¬SameFile t a (p ++ [m]))
      (fits : Replaces t a (p ++ [m])) (h : Tree.CanMove (t.remove (p ++ [m]) fits.1) a (p ++ [m])) :
      Outcome a p n ((t.remove (p ++ [m]) fits.1).move a (p ++ [m]) h)

/-- A successful `mv` of one path to another. -/
def Moves (t' : DeviceTree caseKey) : Prop :=
  ∃ a p n, t.place links source = some a ∧ t.entry a ≠ none ∧ destination links t source target = some (p, n) ∧
    Outcome t a p n t'

structure CommandResult where
  success : Bool
  stdout : Text
  stderr : Text
  status : Text

/-- A shell of the device. -/
abbrev Shell (caseKey : Text → Text) := Text → DeviceTree caseKey → CommandResult × DeviceTree caseKey

/-- The script is an `mv` of the two paths, as it is or as root. -/
def RunsMove (script source target : Text) : Prop :=
  words script = some ["mv".toList, source, target] ∨
    ∃ command, words script = some ["su".toList, "-c".toList, command] ∧
      words command = some ["mv".toList, source, target]

def Posix (shell : Shell caseKey) : Prop :=
  ∀ script source target, RunsMove script source target → ∀ t, (shell script t).1.success = true →
    Moves links t (components source) (components target) (shell script t).2

/-- `AdbClient.rename` -/
def rename (shell : Shell caseKey) (old_path new_path : Text) (use_root : Bool) :
    DeviceTree caseKey → CommandResult × DeviceTree caseKey :=
  let command := "mv ".toList ++ shellQuote old_path ++ ' ' :: shellQuote new_path
  if use_root = true then shell ("su -c ".toList ++ shellQuote command) else shell command

structure FileActionItemResult where
  path : Text
  success : Bool
  message : Text

structure FileManagerActionResult where
  action : FileManagerAction
  items : List FileActionItemResult
  cancelled : Bool

def FileManagerActionResult.success (r : FileManagerActionResult) : Bool :=
  !r.items.isEmpty && r.items.all FileActionItemResult.success && !r.cancelled

variable (u : VisibleTables)

def statusText (result : CommandResult) (fallback : Text) : Text :=
  let fields := if result.success = true then [result.stdout, result.status, result.stderr]
    else [result.stderr, result.stdout, result.status]
  strip u.toUnicodeData ((fields.find? (fun field => decide (field ≠ []))).getD fallback)

def commandItem (path : Text) (result : CommandResult) : FileActionItemResult :=
  let status := statusText u result "Command finished without a status".toList
  ⟨path, result.success, if path <:+: status then status else path ++ ": ".toList ++ status⟩

/-- What the surroundings of an action answer: its checkpoints in their order, the binding of the client, the
privileged client, whether it may use root, and whether it is cancelled in the end. -/
structure Session where
  checkpoint : Nat → Except Text Unit
  boundAdb : Except Text Unit
  privilegedAdb : Except Text Unit
  resolveRoot : Except Text Bool
  cancelled : Bool

variable {π : Type} {u}

/-- Go on with the result of a command. -/
def running (command : DeviceTree caseKey → CommandResult × DeviceTree caseKey) :
    Effect Text (DeviceTree caseKey) CommandResult := fun t =>
  match command t with
  | (r, t') => (.ok r, t')

/-- `execute_android`, for a rename -/
def executeAndroid (session : Session) (shell : Shell caseKey) (request : AndroidActionRequest u π) :
    Effect Text (DeviceTree caseKey) FileManagerActionResult := do
  lift (session.checkpoint 0)
  lift session.boundAdb
  lift session.privilegedAdb
  lift (session.checkpoint 1)
  let use_root ← lift session.resolveRoot
  let source := request.paths.headD []
  let result ← running (rename shell source request.target use_root)
  lift (session.checkpoint 2)
  pure ⟨request.action, [commandItem u source result], session.cancelled⟩

/-- The entry of one place is at another, and all else is as it was. -/
def Relocated (t t' : DeviceTree caseKey) (a b : List Text) : Prop :=
  (∀ rest, t'.entry (b ++ rest) = t.entry (a ++ rest)) ∧
  (∀ q, ¬a <+: q → t.entry q ≠ none → t'.entry q = t.entry q) ∧
  (∀ q, ¬b <+: q → t'.entry q ≠ none → t'.entry q = t.entry q ∧ ¬a <+: q)

/-- The entry of the source is in its directory under the name of the target, and all else is as it was. -/
def Renamed (t t' : DeviceTree caseKey) : Prop :=
  ∃ p d n k m m', t.folder links source = some p ∧ t.entry p = some d ∧ source.getLast? = some n ∧
    target.getLast? = some k ∧ t.child p n = some m ∧ key caseKey d.data m' = key caseKey d.data k ∧
    Relocated t t' (p ++ [m]) (p ++ [m'])

/-- The kinds of the two entries let `mv` do something. -/
def Movable : Prop :=
  ∃ a p n, t.place links source = some a ∧ t.entry a ≠ none ∧ destination links t source target = some (p, n) ∧
    t.IsDir p ∧ ¬a <+: p ∧
    ∀ m, t.child p n = some m → p ++ [m] = a ∨ SameFile t a (p ++ [m]) ∨ Replaces t a (p ++ [m])

/-- No entry has the name of the target, or it is the source itself and `mv` stays there. -/
def Unoccupied : Prop :=
  ∃ p k, t.folder links target = some p ∧ target.getLast? = some k ∧
    (t.child p k = none ∨ ∃ m, t.child p k = some m ∧ t.place links source = some (p ++ [m]) ∧
      ∃ q n m', destination links t source target = some (q, n) ∧ t.child q n = some m' ∧ q ++ [m'] = p ++ [m])

variable {links : Nat} {t t' : DeviceTree caseKey} {source target a b p q : List Text} {n k m : Text}

/-! The command. -/

theorem words_mv (old_path new_path : Text) :
    words ("mv ".toList ++ shellQuote old_path ++ ' ' :: shellQuote new_path) =
      some ["mv".toList, old_path, new_path] := by
  rw [List.append_assoc]
  exact words_two "mv".toList (fun _ => wordsFrom_space) old_path new_path

theorem words_su (command : Text) :
    words ("su -c ".toList ++ shellQuote command) = some ["su".toList, "-c".toList, command] :=
  words_option "su".toList "-c".toList (fun _ => wordsFrom_space) (fun _ => wordsFrom_space) command

/-- As root or not, the script moves the two paths. -/
theorem rename_runs (old_path new_path : Text) (use_root : Bool) :
    ∃ script, RunsMove script old_path new_path ∧ (∀ old new, RunsMove script old new → old = old_path ∧ new = new_path) ∧
      ∀ shell : Shell caseKey, rename shell old_path new_path use_root = shell script := by
  have hmv := words_mv old_path new_path
  have hsu := words_su ("mv ".toList ++ shellQuote old_path ++ ' ' :: shellQuote new_path)
  cases use_root with
  | false =>
    refine ⟨_, .inl hmv, ?_, fun _ => rfl⟩
    rintro old new (h | ⟨command, h, -⟩)
    · rw [hmv] at h
      cases h
      exact ⟨rfl, rfl⟩
    · rw [hmv] at h
      cases h
  | true =>
    refine ⟨_, .inr ⟨_, hsu, hmv⟩, ?_, fun _ => rfl⟩
    rintro old new (h | ⟨command, h, hcommand⟩)
    · rw [hsu] at h
      cases h
    · rw [hsu] at h
      cases h
      rw [hmv] at hcommand
      cases hcommand
      exact ⟨rfl, rfl⟩

/-! One move. -/

theorem ne_nil_of_no_start (h : ¬a <+: p) : a ≠ [] := by
  rintro rfl
  exact h (List.nil_prefix)

theorem canMove_free (hdir : t.IsDir p) (ha : t.entry a ≠ none) (hout : ¬a <+: p) (hfree : t.child p n = none) :
    Tree.CanMove t a (p ++ [n]) := by
  obtain ⟨d, hd, hkind⟩ := hdir
  have hkeys := (Tree.child_eq_none hd).mp hfree
  refine ⟨ne_nil_of_no_start hout, ?_, p, n, d, rfl, hd, hkind, ?_⟩
  · intro hlead
    obtain h | h := List.prefix_concat_iff.mp hlead
    · subst h
      exact hkeys n (Tree.mem_names.mpr ha) rfl
    · exact hout h
  · intro m hm hkey
    exact absurd hkey (hkeys m hm)

theorem not_prefix_child (hout : ¬a <+: p) (hne : p ++ [m] ≠ a) : ¬a <+: p ++ [m] := by
  intro hlead
  obtain h | h := List.prefix_concat_iff.mp hlead
  · exact hne h.symm
  · exact hout h

theorem canMove_replaced (hout : ¬a <+: p) (hne : p ++ [m] ≠ a) (hm : m ∈ t.names p) (hleaf : t.names (p ++ [m]) = []) :
    Tree.CanMove (t.remove (p ++ [m]) hleaf) a (p ++ [m]) := by
  obtain ⟨d, hd, hkind⟩ := Tree.isDir_of_entry (Tree.mem_names.mp hm)
  refine ⟨ne_nil_of_no_start hout, not_prefix_child hout hne, p, m, d, rfl, ?_, hkind, ?_⟩
  · rw [Tree.entry_remove, if_neg (by simp), hd]
  · intro m' hm' hkey
    rw [Tree.mem_names, Tree.entry_remove] at hm'
    by_cases heq : p ++ [m'] = p ++ [m]
    · rw [if_pos heq] at hm'
      exact absurd rfl hm'
    · rw [if_neg heq] at hm'
      exact absurd (congrArg (p ++ [·]) (Tree.name_unique hd (Tree.mem_names.mpr hm') hm hkey)) heq

/-- What `mv` does, the kinds let it do. -/
theorem Moves.movable (h : Moves links t source target t') : Movable links t source target := by
  obtain ⟨a, p, n, hplace, ha, hdest, houtcome⟩ := h
  cases houtcome with
  | moved free hmove =>
    refine ⟨a, p, n, hplace, ha, hdest, ?_, fun hap => hmove.outside (hap.trans (List.prefix_append _ _)), ?_⟩
    · obtain ⟨p', n', d, heq, hd, hkind, -⟩ := hmove.target
      rw [(List.append_inj' heq rfl).1]
      exact ⟨d, hd, hkind⟩
    · intro m hm
      rw [free] at hm
      cases hm
  | same found self =>
    refine ⟨a, p, n, hplace, ha, hdest, Tree.isDir_of_entry (Tree.entry_child found), ?_, ?_⟩
    · rw [← self]
      exact fun hap => absurd hap.length_le (by simp)
    · intro m' hm'
      rw [found, Option.some_inj] at hm'
      rw [← hm']
      exact .inl self
  | kept found other linked =>
    refine ⟨a, p, n, hplace, ha, hdest, Tree.isDir_of_entry (Tree.entry_child found), ?_, ?_⟩
    · exact fun hap => other (hap.trans (List.prefix_append _ _))
    · intro m' hm'
      rw [found, Option.some_inj] at hm'
      rw [← hm']
      exact .inr (.inl linked)
  | dropped found other linked leaf =>
    refine ⟨a, p, n, hplace, ha, hdest, Tree.isDir_of_entry (Tree.entry_child found), ?_, ?_⟩
    · exact fun hap => other (hap.trans (List.prefix_append _ _))
    · intro m' hm'
      rw [found, Option.some_inj] at hm'
      rw [← hm']
      exact .inr (.inl linked)
  | replaced found other fits hmove =>
    refine ⟨a, p, n, hplace, ha, hdest, Tree.isDir_of_entry (Tree.entry_child found), ?_, ?_⟩
    · exact fun hap => hmove.outside (hap.trans (List.prefix_append _ _))
    · intro m' hm'
      rw [found, Option.some_inj] at hm'
      rw [← hm']
      exact .inr (.inr fits)

theorem relocated_move (h : Tree.CanMove t a b) : Relocated t (t.move a b h) a b := by
  refine ⟨Tree.entry_move_target h, ?_, ?_⟩
  · intro q haq hq
    rw [Tree.entry_move h (h.free_below hq), if_neg haq]
  · intro q hbq hq
    rw [Tree.entry_move h hbq] at hq ⊢
    by_cases haq : a <+: q
    · rw [if_pos haq] at hq
      exact absurd rfl hq
    · rw [if_neg haq]
      exact ⟨rfl, haq⟩

theorem relocated_self : Relocated t t a a := ⟨fun _ => rfl, fun _ _ _ => rfl, fun _ h _ => ⟨rfl, h⟩⟩

theorem folder_eq (h : source.dropLast = target.dropLast) : t.folder links source = t.folder links target := by
  rw [Tree.folder, Tree.folder, h]

theorem map_into_concat (htarget : target.getLast? = some k) :
    target.map Step.into = target.dropLast.map Step.into ++ [Step.into k] := by
  obtain ⟨hne, rfl⟩ := List.mem_getLast?_eq_getLast htarget
  rw [← List.map_singleton, ← List.map_append, List.dropLast_append_getLast hne]

/-- A name that no entry has leads nowhere. -/
theorem destination_free (hsource : source.getLast? = some n) (htarget : target.getLast? = some k)
    (hfolder : t.folder links target = some p) (hfree : t.child p k = none) :
    destination links t source target = some (p, k) := by
  have hfollow : t.follow links [] (target.map .into) = none := by
    rw [Option.eq_none_iff_forall_ne_some]
    intro r hr
    rw [map_into_concat htarget] at hr
    obtain ⟨q, m, hq, hm, -⟩ := Tree.follow_concat hr
    rw [Tree.folder, hq, Option.some_inj] at hfolder
    rw [← hfolder, hm] at hfree
    cases hfree
  rw [destination, hsource, htarget]
  dsimp only
  rw [hfollow, hfolder]
  rfl

/-- Into a directory that has the name of the target. -/
theorem destination_dir (hsource : source.getLast? = some n) (htarget : target.getLast? = some k)
    (hfolder : t.folder links target = some p) (hchild : t.child p k = some m) (hdir : t.IsDir (p ++ [m])) :
    destination links t source target = some (p ++ [m], n) := by
  have hfollow : t.follow links [] (target.map .into) = some (p ++ [m]) := by
    rw [map_into_concat htarget]
    exact Tree.follow_concat_dir hfolder hchild hdir
  obtain ⟨e, he, hkind⟩ := hdir
  rw [destination, hsource, htarget]
  dsimp only
  rw [hfollow]
  dsimp only
  rw [he, Option.map_some, hkind, if_pos rfl]

theorem Moves.renamed (h : Moves links t source target t') (hsame : source.dropLast = target.dropLast)
    (hsource : source ≠ []) (hfree : Unoccupied links t source target) : Renamed links source target t t' := by
  obtain ⟨a, q, n', hplace, ha, hdest, houtcome⟩ := h
  obtain ⟨p, n, m, hfolder, hlast, hchild, rfl⟩ := Tree.place_eq_some hsource hplace
  obtain ⟨d, hd, -⟩ := Tree.isDir_of_entry ha
  obtain ⟨p', k, hfolder', hlast', hfree⟩ := hfree
  rw [← folder_eq hsame, hfolder, Option.some_inj] at hfolder'
  subst hfolder'
  obtain hfree | ⟨m', hm', hplace', q', n'', m'', hdest', hm'', hself⟩ := hfree
  · rw [destination_free hlast hlast' (folder_eq hsame ▸ hfolder) hfree] at hdest
    cases hdest
    cases houtcome with
    | moved free hmove => exact ⟨q, d, n, n', m, n', hfolder, hd, hlast, hlast', hchild, rfl, relocated_move hmove⟩
    | same found => rw [hfree] at found; cases found
    | kept found => rw [hfree] at found; cases found
    | dropped found => rw [hfree] at found; cases found
    | replaced found => rw [hfree] at found; cases found
  · rw [hplace, Option.some_inj] at hplace'
    rw [hdest] at hdest'
    cases hdest'
    have hother : ∀ x, t.child q n' = some x → p ++ [m] = q ++ [x] := by
      intro x hx
      rw [hm'', Option.some_inj] at hx
      rw [hplace', ← hself, hx]
    cases houtcome with
    | moved free => rw [hm''] at free; cases free
    | same found self =>
      refine ⟨p, d, n, k, m, m, hfolder, hd, hlast, hlast', hchild, ?_, relocated_self⟩
      rw [(List.cons.inj (List.append_cancel_left hplace')).1]
      exact ((Tree.child_eq_some hd).mp hm').2
    | kept found other => exact absurd ⟨[], by rw [List.append_nil]; exact hother _ found⟩ other
    | dropped found other => exact absurd ⟨[], by rw [List.append_nil]; exact hother _ found⟩ other
    | replaced found other fits hmove =>
      exact absurd ⟨[], by rw [List.append_nil]; exact hother _ found⟩ hmove.outside

theorem Relocated.entry_target (h : Relocated t t' a b) : t'.entry b = t.entry a := by
  have hself := h.1 []
  rw [List.append_nil, List.append_nil] at hself
  exact hself

/-- In the directory of the source, the name of the target can only be that of the entry that has it. -/
theorem Relocated.target_eq {d : Entry Text Item} {m' mk : Text} (h : Relocated t t' (p ++ [m]) (p ++ [m']))
    (hd : t.entry p = some d) (ha : t.entry (p ++ [m]) ≠ none) (hk : t.child p k = some mk)
    (hkey : key caseKey d.data m' = key caseKey d.data k) (hmk : t'.entry (p ++ [mk]) ≠ none) : m' = mk := by
  have hp : t'.entry p = some d := by
    rw [h.2.1 p (fun hpre => absurd hpre.length_le (by simp)) (by rw [hd]; exact Option.some_ne_none d), hd]
  have hb : t'.entry (p ++ [m']) ≠ none := by
    rw [h.entry_target]
    exact ha
  exact Tree.name_unique hp (Tree.mem_names.mpr hb) (Tree.mem_names.mpr hmk)
    (hkey.trans ((Tree.child_eq_some hd).mp hk).2.symm)

/-- Nothing was done: then the source has the name already. -/
theorem Relocated.eq_of_unchanged (h : Relocated t t (p ++ [m]) (p ++ [n])) (ha : t.entry (p ++ [m]) ≠ none) : n = m := by
  by_contra hne
  have hout : ¬p ++ [n] <+: p ++ [m] := by
    intro hpre
    have heq := hpre.eq_of_length (by simp)
    exact hne (List.cons.inj (List.append_cancel_left heq)).1
  exact (h.2.2 _ hout ha).2 List.prefix_rfl

/-- An entry that took a free name elsewhere is not where the target is. -/
theorem not_relocated_moved {d : Entry Text Item} {m' mk : Text} (hmove : Tree.CanMove t (p ++ [m]) (q ++ [n]))
    (hfree : t.child q n = none) (hdir : t.IsDir q) (hd : t.entry p = some d) (ha : t.entry (p ++ [m]) ≠ none)
    (hk : t.child p k = some mk) (hkey : key caseKey d.data m' = key caseKey d.data k) :
    ¬Relocated t (t.move _ _ hmove) (p ++ [m]) (p ++ [m']) := by
  intro h
  have hdone : (t.move _ _ hmove).entry (q ++ [n]) = t.entry (p ++ [m]) := by
    have := Tree.entry_move_target hmove []
    rw [List.append_nil, List.append_nil] at this
    exact this
  have hbelow : p ++ [m'] <+: q ++ [n] := by
    by_contra hout
    have hkept := (h.2.2 _ hout (by rw [hdone]; exact ha)).1
    rw [hmove.free, hdone] at hkept
    exact ha hkept
  obtain heq | hpre := List.prefix_concat_iff.mp hbelow
  · -- The free name would be that of the target.
    obtain ⟨hp, hn⟩ := List.append_inj' heq rfl
    subst hp
    have hkeys := (Tree.child_eq_none hd).mp hfree mk (Tree.child_mem hk)
    rw [← (List.cons.inj hn).1, hkey] at hkeys
    exact hkeys ((Tree.child_eq_some hd).mp hk).2
  · -- The entry would hold itself.
    obtain ⟨rest, rfl⟩ := hpre
    refine ha (@Tree.entry_of_repeat _ _ _ _ _ _ _ (rest ++ [n]) (by simp) ?_)
    intro more
    rw [← h.1, ← Tree.entry_move_target hmove more]
    simp only [List.append_assoc]

/-- An entry that took the place of another is not where the target is. -/
theorem not_relocated_replaced {x : Text} {hleaf : t.names (q ++ [x]) = []}
    (hmove : Tree.CanMove (t.remove (q ++ [x]) hleaf) a (q ++ [x])) (ha : t.entry a ≠ none)
    (hx : t.child q n = some x) (hne : a ≠ q ++ [x]) (hother : ¬SameFile t a (q ++ [x])) :
    ¬Relocated t ((t.remove _ hleaf).move _ _ hmove) a b := by
  intro h
  obtain ⟨e', he'⟩ := Option.ne_none_iff_exists'.mp (Tree.entry_child hx)
  obtain ⟨e, he⟩ := Option.ne_none_iff_exists'.mp ha
  have hdone := Tree.entry_move_target hmove []
  rw [List.append_nil, List.append_nil, Tree.entry_remove, if_neg hne,
    h.2.1 _ hmove.outside (Tree.entry_child hx), he', he, Option.some_inj] at hdone
  exact hother ⟨e, e', he, he', by rw [hdone]⟩

theorem exists_not_renamed (hmovable : Movable links t source target) (hsame : source.dropLast = target.dropLast)
    (htarget : target ≠ []) (hoccupied : ¬Unoccupied links t source target) :
    ∃ t', Moves links t source target t' ∧ ¬Renamed links source target t t' := by
  obtain ⟨a, q, n', hplace, ha, hdest, hdir, hout, hkinds⟩ := hmovable
  have hsource : source ≠ [] := by
    rintro rfl
    cases hplace
    exact hout List.nil_prefix
  obtain ⟨p, n, m, hfolder, hlast, hchild, rfl⟩ := Tree.place_eq_some hsource hplace
  obtain ⟨d, hd, -⟩ := Tree.isDir_of_entry ha
  have hlast' := List.getLast?_eq_some_getLast htarget
  have hfolder' : t.folder links target = some p := by
    rw [← folder_eq hsame]
    exact hfolder
  obtain ⟨mk, hmk⟩ : ∃ mk, t.child p (target.getLast htarget) = some mk := by
    rw [← Option.ne_none_iff_exists']
    exact fun hnone => hoccupied ⟨p, _, hfolder', hlast', .inl hnone⟩
  have hname : ∀ t', (∀ m', key caseKey d.data m' = key caseKey d.data (target.getLast htarget) →
      ¬Relocated t t' (p ++ [m]) (p ++ [m'])) → ¬Renamed links source target t t' := by
    rintro t' hnot ⟨p', d', n'', k', m'', m', hp', hd', hn'', hk', hm'', hkey, hrelocated⟩
    rw [hfolder, Option.some_inj] at hp'
    subst hp'
    rw [hd, Option.some_inj] at hd'
    subst hd'
    rw [hlast, Option.some_inj] at hn''
    rw [hlast', Option.some_inj] at hk'
    rw [← hn'', hchild, Option.some_inj] at hm''
    rw [← hk'] at hkey
    rw [← hm''] at hrelocated
    exact hnot m' hkey hrelocated
  cases hfound : t.child q n' with
  | none =>
    have hmove := canMove_free hdir ha hout hfound
    exact ⟨_, ⟨_, q, n', hplace, ha, hdest, .moved hfound hmove⟩,
      hname _ (fun m' hkey => not_relocated_moved hmove hfound hdir hd ha hmk hkey)⟩
  | some x =>
    by_cases hself : q ++ [x] = p ++ [m]
    · -- The source stays where it is, under a name that is not its own.
      refine ⟨t, ⟨_, q, n', hplace, ha, hdest, .same hfound hself⟩, hname _ (fun m' hkey hrelocated => ?_)⟩
      have hm' := hrelocated.target_eq hd ha hmk hkey (Tree.entry_child hmk)
      have hm := hrelocated.eq_of_unchanged ha
      have hmkm : mk = m := hm'.symm.trans hm
      refine hoccupied ⟨p, _, hfolder', hlast', .inr ⟨mk, hmk, ?_, q, n', x, hdest, hfound, ?_⟩⟩
      · rw [hmkm]
        exact hplace
      · rw [hmkm]
        exact hself
    · have hother := not_prefix_child hout hself
      by_cases hlinked : SameFile t (p ++ [m]) (q ++ [x])
      · by_cases hown : mk = m
        · -- The source has the name, so it is no directory, and is dropped.
          subst hown
          have hleaf : t.names (p ++ [mk]) = [] := by
            rw [List.eq_nil_iff_forall_not_mem]
            intro name hname
            have hdest' := destination_dir hlast hlast' hfolder' hmk (Tree.isDir_of_entry (Tree.mem_names.mp hname))
            rw [hdest, Option.some_inj, Prod.mk.injEq] at hdest'
            exact hout ⟨[], by rw [List.append_nil, hdest'.1]⟩
          refine ⟨_, ⟨_, q, n', hplace, ha, hdest, .dropped hfound hother hlinked hleaf⟩,
            hname _ (fun m' hkey hrelocated => ?_)⟩
          have hb := hrelocated.entry_target
          rw [Tree.entry_remove] at hb
          by_cases hm' : p ++ [m'] = p ++ [mk]
          · rw [if_pos hm'] at hb
            exact ha hb.symm
          · rw [if_neg hm'] at hb
            refine hm' (congrArg (p ++ [·]) (Tree.name_unique hd (Tree.mem_names.mpr ?_) (Tree.child_mem hmk)
              (hkey.trans ((Tree.child_eq_some hd).mp hmk).2.symm)))
            rw [hb]
            exact ha
        · refine ⟨t, ⟨_, q, n', hplace, ha, hdest, .kept hfound hother hlinked⟩, hname _ (fun m' hkey hrelocated => ?_)⟩
          have hm' := hrelocated.target_eq hd ha hmk hkey (Tree.entry_child hmk)
          exact hown (hm'.symm.trans (hrelocated.eq_of_unchanged ha))
      · obtain hkind | hkind | hfits := hkinds x hfound
        · exact absurd hkind hself
        · exact absurd hkind hlinked
        · have hmove := canMove_replaced hout hself (Tree.child_mem hfound) hfits.1
          exact ⟨_, ⟨_, q, n', hplace, ha, hdest, .replaced hfound hlinked hfits hmove⟩,
            hname _ (fun m' hkey => not_relocated_replaced hmove ha hfound (Ne.symm hself) hlinked)⟩

/-! The request and its execution. -/

theorem androidPath_ok {value path : Text} (h : androidPath u value = .ok path) :
    ¬Traversal u value ∧ path = render (segments u value) := by
  rw [androidPath] at h
  dsimp only at h
  split at h
  · cases h
  · split at h
    · cases h
    · next ht => exact ⟨ht, (Except.ok.inj h).symm⟩

variable {context : DeviceContext π} {request : AndroidActionRequest u π} {flag : Bool}

/-- Source and target of a request have one parent. -/
theorem rename_request {path new_name : Text}
    (h : AndroidActionRequest.rename u context path new_name flag = .ok request) :
    (components (request.paths.headD [])).dropLast = (components request.target).dropLast ∧
      components request.target ≠ [] := by
  simp only [AndroidActionRequest.rename, bind_eq_ok, cleanName_eq_ok, build_eq_ok] at h
  obtain ⟨source_path, hsource, name, ⟨hgood, rfl⟩, target, htarget, hr⟩ := h
  obtain ⟨htraversal, rfl⟩ := androidPath_ok hsource
  have hplain := plain_segments htraversal
  rw [parentAndroidPath_render hplain,
    androidPath_join (fun name h => hplain name (List.mem_of_mem_dropLast h)) hgood] at htarget
  have hnames : ∀ name ∈ (segments u path).dropLast, IsName name :=
    fun name h => (hplain name (List.mem_of_mem_dropLast h)).1
  rw [hr, htarget]
  dsimp only
  rw [List.headD_cons, AndroidActionRequest.components_segments,
    AndroidActionRequest.components_concat _ hnames hgood, List.dropLast_concat]
  exact ⟨rfl, List.append_ne_nil_of_right_ne_nil _ (List.cons_ne_nil _ _)⟩

theorem lift_bind_ok {ε σ α β : Type} {x : Except ε α} {f : α → Effect ε σ β} {s s' : σ} {b : β}
    (h : (lift x >>= f) s = (.ok b, s')) : ∃ a, x = .ok a ∧ f a s = (.ok b, s') := by
  cases x with
  | error e => cases h
  | ok a => exact ⟨a, rfl, h⟩

theorem running_run {command : DeviceTree caseKey → CommandResult × DeviceTree caseKey} {r : CommandResult}
    (h : command t = (r, t')) : running command t = (.ok r, t') := by
  rw [running, h]

/-- A success is that of the command. -/
theorem executeAndroid_success {session : Session} {shell : Shell caseKey} {result : FileManagerActionResult}
    (h : executeAndroid session shell request t = (.ok result, t')) (hsuccess : result.success = true) :
    ∃ use_root r, rename shell (request.paths.headD []) request.target use_root t = (r, t') ∧ r.success = true := by
  obtain ⟨_, -, h⟩ := lift_bind_ok h
  obtain ⟨_, -, h⟩ := lift_bind_ok h
  obtain ⟨_, -, h⟩ := lift_bind_ok h
  obtain ⟨_, -, h⟩ := lift_bind_ok h
  obtain ⟨use_root, -, h⟩ := lift_bind_ok h
  cases hrun : rename shell (request.paths.headD []) request.target use_root t with
  | mk r mid =>
    dsimp only at h
    rw [bind_ok (running_run hrun)] at h
    obtain ⟨_, -, h⟩ := lift_bind_ok h
    cases h
    refine ⟨use_root, r, hrun, ?_⟩
    rw [FileManagerActionResult.success, Bool.and_eq_true, Bool.and_eq_true, List.all_cons, Bool.and_eq_true] at hsuccess
    exact hsuccess.1.2.1

/-- Surroundings in which nothing is in the way. -/
def willing : Session := ⟨fun _ => .ok (), .ok (), .ok (), .ok false, false⟩

theorem executeAndroid_willing {shell : Shell caseKey} {r : CommandResult}
    (hrun : rename shell (request.paths.headD []) request.target false t = (r, t')) (hsuccess : r.success = true) :
    ∃ result, executeAndroid willing shell request t = (.ok result, t') ∧ result.success = true := by
  refine ⟨⟨request.action, [commandItem u (request.paths.headD []) r], false⟩, ?_, ?_⟩
  · have hstep : executeAndroid willing shell request t =
        (running (rename shell (request.paths.headD []) request.target false) >>= fun result => do
          lift (willing.checkpoint 2)
          pure ⟨request.action, [commandItem u (request.paths.headD []) result], false⟩) t := rfl
    rw [hstep, bind_ok (running_run hrun)]
    rfl
  · rw [FileManagerActionResult.success]
    change (true && (r.success && true) && true) = true
    rw [hsuccess]
    rfl

variable (links t request) in
/-- Whatever the surroundings, and on every device with a POSIX `mv`, a success has renamed the item and done nothing
else. -/
def RenamesOnly : Prop :=
  ∀ (session : Session) (shell : Shell caseKey), Posix links shell → ∀ result t',
    executeAndroid session shell request t = (.ok result, t') → result.success = true →
      Renamed links (components (request.paths.headD [])) (components request.target) t t'

/-- A shell on which one script has one outcome, and every other command fails. -/
theorem exists_posix {script old_path new_path : Text}
    (honly : ∀ old new, RunsMove script old new → old = old_path ∧ new = new_path)
    (h : Moves links t (components old_path) (components new_path) t') :
    ∃ shell : Shell caseKey, Posix links shell ∧ shell script t = (⟨true, [], [], []⟩, t') := by
  classical
  refine ⟨fun s tree => if s = script ∧ tree = t then (⟨true, [], [], []⟩, t') else (⟨false, [], [], []⟩, tree), ?_,
    if_pos ⟨rfl, rfl⟩⟩
  intro s old new hruns tree hsuccess
  dsimp only at hsuccess ⊢
  by_cases hcase : s = script ∧ tree = t
  · obtain ⟨rfl, rfl⟩ := hcase
    obtain ⟨rfl, rfl⟩ := honly old new hruns
    rw [if_pos ⟨rfl, rfl⟩]
    exact h
  · rw [if_neg hcase] at hsuccess
    cases hsuccess

theorem not_renamesOnly {path new_name : Text}
    (h : AndroidActionRequest.rename u context path new_name flag = .ok request)
    (hmovable : Movable links t (components (request.paths.headD [])) (components request.target))
    (hoccupied : ¬Unoccupied links t (components (request.paths.headD [])) (components request.target)) :
    ¬RenamesOnly links t request := by
  intro hrenames
  obtain ⟨hsame, htarget⟩ := rename_request h
  obtain ⟨t', hmoves, hnot⟩ := exists_not_renamed hmovable hsame htarget hoccupied
  obtain ⟨script, -, honly, hscript⟩ := @rename_runs caseKey (request.paths.headD []) request.target false
  obtain ⟨shell, hposix, hshell⟩ := exists_posix honly hmoves
  have hrename : rename shell (request.paths.headD []) request.target false t = (⟨true, [], [], []⟩, t') := by
    rw [hscript, hshell]
  obtain ⟨result, hrun, hsuccess⟩ := executeAndroid_willing hrename rfl
  exact hnot (hrenames willing shell hposix result t' hrun hsuccess)

theorem renamesOnly_of_unoccupied {path new_name : Text}
    (h : AndroidActionRequest.rename u context path new_name flag = .ok request)
    (hfree : Movable links t (components (request.paths.headD [])) (components request.target) →
      Unoccupied links t (components (request.paths.headD [])) (components request.target)) :
    RenamesOnly links t request := by
  intro session shell hposix result t' hrun hsuccess
  obtain ⟨use_root, r, hrename, hok⟩ := executeAndroid_success hrun hsuccess
  obtain ⟨script, hruns, -, hscript⟩ := @rename_runs caseKey (request.paths.headD []) request.target use_root
  rw [hscript] at hrename
  have hmoves := hposix script _ _ hruns t (by rw [hrename]; exact hok)
  rw [hrename] at hmoves
  have hmovable := hmoves.movable
  refine hmoves.renamed (rename_request h).1 ?_ (hfree hmovable)
  intro hnil
  obtain ⟨a, p, n, hplace, -, -, -, hout, -⟩ := hmovable
  rw [hnil] at hplace
  cases hplace
  exact hout List.nil_prefix

/-- A rename changes the item only, just when no other entry has the new name, or the kinds of the two entries keep
`mv` from doing anything. -/
theorem renamesOnly_iff {path new_name : Text}
    (h : AndroidActionRequest.rename u context path new_name flag = .ok request) :
    RenamesOnly links t request ↔
      (Movable links t (components (request.paths.headD [])) (components request.target) →
        Unoccupied links t (components (request.paths.headD [])) (components request.target)) := by
  constructor
  · intro hrenames hmovable
    by_contra hoccupied
    exact not_renamesOnly h hmovable hoccupied hrenames
  · exact renamesOnly_of_unoccupied h

/-! Two files in one folder. -/

def ownCase (name : Text) : Text := name

def twoNodes : List (List Text × Entry Text Item) :=
  [([], ⟨.dir, ⟨false, 1, []⟩⟩), (["sdcard".toList], ⟨.dir, ⟨false, 2, []⟩⟩),
    (["sdcard".toList, "a".toList], ⟨.file, ⟨false, 3, [1]⟩⟩), (["sdcard".toList, "b".toList], ⟨.file, ⟨false, 4, [2]⟩⟩)]

theorem twoNodes_wellFormed :
    (twoNodes.map Prod.fst).Nodup ∧
      (∀ x ∈ twoNodes, x.1 ≠ [] → ∃ y ∈ twoNodes, y.1 = x.1.dropLast ∧ y.2.kind = .dir) ∧
      ∀ d ∈ twoNodes, ∀ x ∈ twoNodes, ∀ y ∈ twoNodes, x.1 ≠ [] → y.1 ≠ [] →
        x.1.dropLast = d.1 → y.1.dropLast = d.1 →
        x.1.getLast?.map (key ownCase d.2.data) = y.1.getLast?.map (key ownCase d.2.data) → x.1 = y.1 := by
  decide +kernel

def twoFiles : DeviceTree ownCase := ⟨twoNodes, twoNodes_wellFormed.1, twoNodes_wellFormed.2.1, twoNodes_wellFormed.2.2⟩

def phone : DeviceContext Unit := ⟨['s'], OpenAdb.Context.Device.adbMode, [], [], [], ⟨(), (), (), ()⟩, 0⟩

def renameToB : RequestFields Unit where
  action := .rename
  deviceContext := phone
  paths := ["/sdcard/a".toList]
  target := "/sdcard/b".toList

theorem renameToB_checked : postInit .ascii renameToB = .ok () := rfl

theorem renameToB_made :
    AndroidActionRequest.rename .ascii phone "/sdcard/a".toList "b".toList false = .ok ⟨renameToB, renameToB_checked⟩ :=
  rfl

theorem renamesOnly_twoFiles :
    RenamesOnly 8 twoFiles (⟨renameToB, renameToB_checked⟩ : AndroidActionRequest .ascii Unit) ↔
      (Movable 8 twoFiles (components "/sdcard/a".toList) (components "/sdcard/b".toList) →
        Unoccupied 8 twoFiles (components "/sdcard/a".toList) (components "/sdcard/b".toList)) :=
  renamesOnly_iff renameToB_made

theorem twoFiles_movable : Movable 8 twoFiles (components "/sdcard/a".toList) (components "/sdcard/b".toList) := by
  refine ⟨["sdcard".toList, "a".toList], ["sdcard".toList], "b".toList, by decide +kernel, by decide +kernel,
    by decide +kernel, ⟨_, rfl, rfl⟩, by decide +kernel, ?_⟩
  intro m hm
  have hb : twoFiles.child ["sdcard".toList] "b".toList = some "b".toList := by decide +kernel
  rw [hb, Option.some_inj] at hm
  subst hm
  refine .inr (.inr ⟨by decide +kernel, iff_of_false ?_ ?_⟩)
  · rintro ⟨e, he, hkind⟩
    cases he
    cases hkind
  · rintro ⟨e, he, hkind⟩
    cases he
    cases hkind

theorem twoFiles_occupied :
    ¬Unoccupied 8 twoFiles (components "/sdcard/a".toList) (components "/sdcard/b".toList) := by
  rintro ⟨p, k, hp, hk, h⟩
  have hfolder : twoFiles.folder 8 (components "/sdcard/b".toList) = some ["sdcard".toList] := by decide +kernel
  have hlast : (components "/sdcard/b".toList).getLast? = some "b".toList := by decide +kernel
  have hb : twoFiles.child ["sdcard".toList] "b".toList = some "b".toList := by decide +kernel
  have ha : twoFiles.place 8 (components "/sdcard/a".toList) = some ["sdcard".toList, "a".toList] := by decide +kernel
  rw [hfolder, Option.some_inj] at hp
  rw [hlast, Option.some_inj] at hk
  subst hp hk
  obtain h | ⟨m, hm, hplace, -⟩ := h
  · rw [hb] at h
    cases h
  · rw [hb, Option.some_inj] at hm
    rw [ha, ← hm, Option.some_inj] at hplace
    exact absurd hplace (by decide +kernel)

/-- The file that has the new name is lost. -/
theorem existing_file_replaced :
    ¬∀ request, AndroidActionRequest.rename .ascii phone "/sdcard/a".toList "b".toList false = .ok request →
      RenamesOnly 8 twoFiles request := by
  intro h
  exact not_renamesOnly renameToB_made twoFiles_movable twoFiles_occupied (h _ renameToB_made)

end OpenAdb.Files.Renaming
