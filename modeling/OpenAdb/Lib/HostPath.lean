import OpenAdb.Lib.PyText

namespace OpenAdb.Lib.HostPath

open OpenAdb.Lib.PyText

/-- The rules for local paths, with the letters and the names that Windows takes for the same. -/
inductive Host
  | posix
  | windows (lower canon : Text → Text)

structure PurePath where
  drive : Text
  root : Text
  parts : List Text
  deriving DecidableEq

def sep : Char := '\\'

def isUncPrefix (s : Text) : Bool :=
  match s with
  | ['\\', '\\', '?', '\\', a, b, c, '\\'] => (a = 'U' || a = 'u') && (b = 'N' || b = 'n') && (c = 'C' || c = 'c')
  | _ => false

/-- `ntpath.splitroot`, of a text that starts with two separators: the drive is the server and its share. -/
def splitUnc (s : Text) : Text × Text × Text :=
  let start := if isUncPrefix (s.take 8) = true then 8 else 2
  let rest := s.drop start
  if sep ∉ rest then (s, [], [])
  else
    let server := rest.takeWhile (· ≠ sep)
    let share := (rest.drop (server.length + 1)).takeWhile (· ≠ sep)
    let length := start + server.length + 1 + share.length
    (s.take length, (s.drop length).take 1, s.drop (length + 1))

/-- `ntpath.splitroot`, of a text without slashes -/
def splitRoot (s : Text) : Text × Text × Text :=
  match s with
  | '\\' :: '\\' :: _ => splitUnc s
  | '\\' :: rest => ([], ['\\'], rest)
  | letter :: ':' :: '\\' :: rest => ([letter, ':'], ['\\'], rest)
  | letter :: ':' :: rest => ([letter, ':'], [], rest)
  | _ => ([], [], s)

/-- The root that a path on a whole share has. -/
def shareRoot (drive root : Text) : Text :=
  if root = [] ∧ drive.head? = some sep ∧ drive.getLast? ≠ some sep then
    match drive.splitOn sep with
    | [_, _, server, _] => if server ∈ [[], ['?'], ['.'], ['?', '.']] then root else [sep]
    | [_, _, _, _, _, _] => [sep]
    | _ => root
  else root

def components (separator : Char) (s : Text) : List Text :=
  (s.splitOn separator).filter (fun part => part ≠ [] ∧ part ≠ ['.'])

/-- `folder / name`, for a name without slashes -/
def join : Host → PurePath → Text → PurePath
  | .posix, folder, name => { folder with parts := folder.parts ++ components '/' name }
  | .windows lower _, folder, name =>
    let (drive, root, rest) := splitRoot name
    let parts := components sep rest
    if root ≠ [] then ⟨if drive ≠ [] then drive else folder.drive, root, parts⟩
    else if drive ≠ [] ∧ lower drive ≠ lower folder.drive then ⟨drive, shareRoot drive root, parts⟩
    else ⟨if drive ≠ [] then drive else folder.drive, folder.root, folder.parts ++ parts⟩

/-- `with_name`; a path without a name has none. -/
def withName (path : PurePath) (name : Text) : Option PurePath :=
  if path.parts = [] then none else some { path with parts := path.parts.dropLast ++ [name] }

def parent (path : PurePath) : PurePath := { path with parts := path.parts.dropLast }

/-- Where a path leads, with the innermost name first. -/
structure Place where
  drive : Text
  root : Text
  names : List Text
  deriving DecidableEq

/-- Windows takes the dots out of a path by its text alone. -/
def resolveDots (rooted : Bool) (names : List Text) (part : Text) : List Text :=
  if part ≠ ['.', '.'] then part :: names
  else match names with
    | [] => if rooted then [] else [part]
    | name :: outer => if name = ['.', '.'] then part :: names else outer

def locate : Host → PurePath → Place
  | .posix, path => ⟨path.drive, path.root, path.parts.reverse⟩
  | .windows lower canon, path => ⟨lower path.drive, path.root,
      (path.parts.foldl (resolveDots (path.root ≠ [])) []).map canon⟩

def Place.ChildOf (child folder : Place) : Prop :=
  child.drive = folder.drive ∧ child.root = folder.root ∧ ∃ name, child.names = name :: folder.names

/-- The folders above a place. -/
def Place.above (place : Place) : List Place := place.names.tail.tails.map (fun names => { place with names := names })

variable {host : Host} {folder path : PurePath} {name : Text}

theorem withName_isSome {path' : PurePath} (h : withName path name = some path') :
    path.parts ≠ [] ∧ path' = { parent path with parts := (parent path).parts ++ [name] } := by
  rw [withName] at h
  by_cases hempty : path.parts = []
  · rw [if_pos hempty] at h
    cases h
  · rw [if_neg hempty] at h
    exact ⟨hempty, (Option.some.inj h).symm⟩

/-- A sibling lies where its folder lies. -/
theorem locate_withName {path' : PurePath} (hname : name ≠ ['.', '.'])
    (h : withName path name = some path') : (locate host path').ChildOf (locate host (parent path)) := by
  obtain ⟨_, rfl⟩ := withName_isSome h
  cases host with
  | posix => exact ⟨rfl, rfl, name, by simp [locate]⟩
  | windows lower canon =>
    refine ⟨rfl, rfl, canon name, ?_⟩
    simp [locate, List.foldl_append, resolveDots, hname]

/-- A path leads into its folder, or, through dots, to the folder itself or to the one around it. -/
theorem locate_parent (hparts : path.parts ≠ []) :
    (locate host path).ChildOf (locate host (parent path)) ∨ locate host path = locate host (parent path) ∨
      (locate host (parent path)).ChildOf (locate host path) := by
  have hsplit := List.dropLast_append_getLast hparts
  cases host with
  | posix =>
    refine .inl ⟨rfl, rfl, path.parts.getLast hparts, ?_⟩
    rw [locate, locate, parent]
    conv_lhs => rw [← hsplit]
    simp
  | windows lower canon =>
    have hnames : (locate (.windows lower canon) path).names =
        (resolveDots (path.root ≠ []) (path.parts.dropLast.foldl (resolveDots (path.root ≠ [])) [])
          (path.parts.getLast hparts)).map canon := by
      rw [locate]
      conv_lhs => rw [← hsplit]
      simp [List.foldl_append]
    have houter : (locate (.windows lower canon) (parent path)).names =
        (path.parts.dropLast.foldl (resolveDots (path.root ≠ [])) []).map canon := rfl
    generalize hstack : path.parts.dropLast.foldl (resolveDots (path.root ≠ [])) [] = stack at hnames houter
    rw [resolveDots.eq_def] at hnames
    by_cases hdots : path.parts.getLast hparts ≠ ['.', '.']
    · rw [if_pos hdots] at hnames
      exact .inl ⟨rfl, rfl, _, by rw [hnames, houter]; rfl⟩
    · rw [if_neg hdots] at hnames
      cases stack with
      | nil =>
        by_cases hroot : (decide (path.root ≠ [])) = true
        · simp only [hroot, if_true] at hnames
          refine .inr (.inl ?_)
          rw [Place.mk.injEq]
          exact ⟨rfl, rfl, hnames.trans houter.symm⟩
        · simp only [hroot] at hnames
          exact .inl ⟨rfl, rfl, _, by rw [hnames, houter]; rfl⟩
      | cons name outer =>
        simp only at hnames
        split at hnames
        · exact .inl ⟨rfl, rfl, _, by rw [hnames, houter]; rfl⟩
        · exact .inr (.inr ⟨rfl, rfl, canon name, by rw [hnames, houter]; rfl⟩)

theorem Place.ChildOf.tail {child folder : Place} (h : child.ChildOf folder) :
    { child with names := child.names.tail } = folder := by
  obtain ⟨hdrive, hroot, name, hnames⟩ := h
  cases child
  cases folder
  simp only at hdrive hroot hnames
  rw [hdrive, hroot, hnames, List.tail_cons]

theorem components_plain {separator : Char} (hsep : separator ∉ name) (hne : name ≠ [])
    (hdot : name ≠ ['.']) : components separator name = [name] := by
  rw [components, List.splitOn_eq_singleton hsep]
  simp [hne, hdot]

theorem splitRoot_plain (hsep : sep ∉ name) (hcolon : name.tail.head? ≠ some ':') :
    splitRoot name = ([], [], name) := by
  have hhead : ∀ rest, name ≠ '\\' :: rest := by
    intro rest heq
    rw [heq] at hsep
    exact hsep List.mem_cons_self
  have hsecond : ∀ letter rest, name ≠ letter :: ':' :: rest := by
    intro letter rest heq
    rw [heq] at hcolon
    exact hcolon rfl
  rw [splitRoot]
  · exact fun rest heq => hhead _ heq
  · exact hhead
  · exact fun letter rest heq => hsecond _ _ heq
  · exact hsecond

/-- A name without separators and without a drive is one entry of the folder. -/
theorem parent_join (hslash : '/' ∉ name) (hne : name ≠ []) (hdot : name ≠ ['.'])
    (hwindows : host ≠ .posix → sep ∉ name ∧ name.tail.head? ≠ some ':') :
    parent (join host folder name) = folder ∧ (join host folder name).parts ≠ [] := by
  cases host with
  | posix => simp [parent, join, components_plain hslash hne hdot]
  | windows lower canon =>
    have hw : Host.windows lower canon ≠ .posix := fun heq => by cases heq
    obtain ⟨hsep, hcolon⟩ := hwindows hw
    simp [parent, join, splitRoot_plain hsep hcolon, components_plain hsep hne hdot]

end OpenAdb.Lib.HostPath
