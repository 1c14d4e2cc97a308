import OpenAdb.Lib.FileTree
import OpenAdb.P2p.Receiver

namespace OpenAdb.P2p.Storage

open OpenAdb.Lib.PyText OpenAdb.Lib.Encoding OpenAdb.Lib.JavaText OpenAdb.Lib.Effects
open OpenAdb.Lib.FileTree OpenAdb.P2p.Receiver

abbrev Files := Tree Text Bytes

/-- A temporary document and the place it is meant for. Whether there is something
to replace is known from before in one kind of access, and looked up again in the
other, where `existing` is always set. -/
structure TempFile where
  relativePath : Text
  temp : List Text
  target : List Text
  existing : Bool

def pathComponents (path : Text) : List Text :=
  ((replaceChar '\\' '/' path).splitOn '/').filter (fun part => part ≠ [])

variable (names : FreshNames Text Bytes) (renames : Bool)

/-- Append to a file that is open for writing. -/
def appendTo (temp : TempFile) (chunk : Bytes) : Effect JavaException Files Unit :=
  update (fun t => t.insert temp.temp (.file ((contentAt t temp.temp).getD [] ++ chunk)))

def removeTemp (temp : TempFile) : Effect JavaException Files Unit :=
  update (fun t => t.erase temp.temp)

def openTemp (relativePath : Text) (parent : List Text) (fileName : Text) (existing : Bool) :
    Effect JavaException Files TempFile := fun t =>
  let temp := parent ++ [names.next t parent fileName]
  (.ok ⟨relativePath, temp, parent ++ [fileName], existing⟩, t.insert temp (.file []))

/-- Give the content of the temporary file to its target. -/
def moveTemp (temp : TempFile) : Effect JavaException Files Unit :=
  update (fun t => (t.erase temp.temp).insert temp.target (.file ((contentAt t temp.temp).getD [])))

def copyTemp (temp : TempFile) : Effect JavaException Files Unit :=
  update (fun t => t.insert temp.target (.file ((contentAt t temp.temp).getD [])))

section Saf

def findChild (parent : List Text) (name : Text) : Effect JavaException Files (Option (Node Bytes)) :=
  read (fun t => t.lookup (parent ++ [name]))

def ensureDirectoryComponents : List Text → List Text → Effect JavaException Files (List Text)
  | current, [] => pure current
  | current, component :: components => do
    match ← findChild current component with
    | some .dir => ensureDirectoryComponents (current ++ [component]) components
    | some (.file _) => raise ⟨.io, "A file blocks destination directory ".toList ++ component⟩
    | none => do
      update (fun t => t.insert (current ++ [component]) .dir)
      ensureDirectoryComponents (current ++ [component]) components

def ensureRelativeDirectory (relativePath : Text) : Effect JavaException Files Unit := do
  let _ ← ensureDirectoryComponents [] (pathComponents relativePath)
  return ()

/-- `receiveFile` up to the open temporary document. -/
def createSafTemp (relativePath : Text) : Effect JavaException Files TempFile :=
  match (pathComponents relativePath).getLast? with
  | none => raise ⟨.indexOutOfBounds, []⟩
  | some fileName => do
    let parent ← ensureDirectoryComponents [] (pathComponents relativePath).dropLast
    let existingChild ← findChild parent fileName
    require (existingChild ≠ some .dir)
      ⟨.io, "A directory already exists where a file would be written: ".toList ++ relativePath⟩
    openTemp names relativePath parent fileName existingChild.isSome

/-- A provider may not support renaming. -/
def renameOrCopyDocument (temp : TempFile) : Effect JavaException Files Unit := do
  let occupied ← read (fun t => (t.lookup temp.target).isSome)
  if renames && !occupied then moveTemp temp
  else do
    require (occupied = false) ⟨.io, "SAF provider cannot rename or create ".toList ++ temp.target.getLast?.getD []⟩
    copyTemp temp
    removeTemp temp

def deleteExisting (temp : TempFile) : Effect JavaException Files Unit :=
  if temp.existing then update (fun t => t.erase temp.target) else pure ()

/-- `receiveFile` after the checks. -/
def publishSaf (temp : TempFile) : Effect JavaException Files Unit := do
  deleteExisting temp
  renameOrCopyDocument renames temp

end Saf

section Direct

/-- No part of a validated path is `.` or `..`, and the storage holds no links. -/
def resolveDirectChild (relativePath : Text) : Except JavaException (List Text) :=
  let target := pathComponents relativePath
  if target = [] then .error (insecure ("Unsafe P2P destination path: ".toList ++ relativePath))
  else .ok target

def mkdirs (path : List Text) : Effect JavaException Files Bool := fun t =>
  if (t.lookup path).isSome || path.isEmpty then (.ok false, t)
  else let r := makeDirectories t [] path; (.ok r.1, r.2)

def requireDirectory (path : List Text) (relativePath : Text) : Effect JavaException Files Unit := do
  if ← read (fun t => isDir t path) then pure ()
  else
    let created ← mkdirs path
    let present ← read (fun t => isDir t path)
    require (created ∨ present)
      ⟨.io, "Could not create destination directory for ".toList ++ relativePath⟩

def ensureDirectDirectory (relativePath : Text) : Effect JavaException Files Unit := do
  let target ← lift (resolveDirectChild relativePath)
  let blocked ← read (fun t => (contentAt t target).isSome)
  require (blocked = false)
    ⟨.io, "A file blocks destination directory ".toList ++ relativePath⟩
  requireDirectory target relativePath

/-- `receiveDirectFile` up to the open temporary file. -/
def createDirectTemp (relativePath : Text) : Effect JavaException Files TempFile := do
  let target ← lift (resolveDirectChild relativePath)
  requireDirectory target.dropLast relativePath
  let occupied ← read (fun t => isDir t target)
  require (occupied = false)
    ⟨.io, "A directory already exists where a file would be written: ".toList ++ relativePath⟩
  openTemp names relativePath target.dropLast (target.getLast?.getD []) true

/-- `delete` of a file or of an empty directory. -/
def deleteTarget (temp : TempFile) : Effect JavaException Files Unit := fun t =>
  match t.lookup temp.target with
  | none => (.ok (), t)
  | some .dir =>
    if HasChildren t temp.target then
      (.error ⟨.io, "Could not replace existing file ".toList ++ temp.relativePath⟩, t)
    else (.ok (), t.erase temp.target)
  | some (.file _) => (.ok (), t.erase temp.target)

def renameOrCopyFile (temp : TempFile) : Effect JavaException Files Unit :=
  if renames then moveTemp temp
  else do
    copyTemp temp
    removeTemp temp

/-- `receiveDirectFile` after the checks. -/
def publishDirect (temp : TempFile) : Effect JavaException Files Unit := do
  deleteTarget temp
  renameOrCopyFile renames temp

end Direct

inductive Access
  | saf
  | direct
  deriving DecidableEq

def storageOf : Access → Storage Files TempFile
  | .saf =>
    { directAccess := false
      ensureDirectory := ensureRelativeDirectory
      createTemp := createSafTemp names
      write := appendTo
      publish := publishSaf renames
      discard := removeTemp }
  | .direct =>
    { directAccess := true
      ensureDirectory := ensureDirectDirectory
      createTemp := createDirectTemp names
      write := appendTo
      publish := publishDirect renames
      discard := removeTemp }

/-- What the documents contain after storing the entries of a log, last one wins. -/
def published (initial : List Text → Option Bytes) (log : List Stored) : List Text → Option Bytes :=
  log.foldl (fun view s => match s with
    | .directory _ => view
    | .file path content => Function.update view (pathComponents path) (some content)) initial

def idle (initial : List Text → Option Bytes) (log : List Stored) (t : Files) : Prop :=
  contentAt t = published initial log

/-- The temporary file is the only difference to the published documents. -/
structure Writing (initial : List Text → Option Bytes) (log : List Stored) (h : TempFile)
    (path : Text) (content : Bytes) (t : Files) : Prop where
  view : contentAt t = Function.update (published initial log) h.temp (some content)
  fresh : published initial log h.temp = none
  target : h.target = pathComponents path
  ne : h.target ≠ h.temp
  not_dir : t.lookup h.target ≠ some .dir
  vacant : h.existing = false → t.lookup h.target = none

variable {names renames} {initial : List Text → Option Bytes} {log : List Stored}

theorem published_directory (path : Text) :
    published initial (log ++ [.directory path]) = published initial log := by
  rw [published, List.foldl_append]
  rfl

theorem published_file (path : Text) (content : Bytes) :
    published initial (log ++ [.file path content]) =
      Function.update (published initial log) (pathComponents path) (some content) := by
  rw [published, List.foldl_append]
  rfl

theorem ensureDirectoryComponents_meets (v : List Text → Option Bytes)
    (current components : List Text) :
    Meets (fun t => contentAt t = v) (ensureDirectoryComponents current components)
      (fun p t => p = current ++ components ∧ contentAt t = v) (fun _ t => contentAt t = v) := by
  induction components generalizing current with
  | nil => exact Meets.pure (fun t ht => ⟨(List.append_nil current).symm, ht⟩)
  | cons component components ih =>
    intro t ht
    have hstep := ih (current ++ [component])
    rw [List.append_assoc, List.singleton_append] at hstep
    have hchild : findChild current component t =
        (.ok (t.lookup (current ++ [component])), t) := rfl
    rw [ensureDirectoryComponents]
    apply Outcome.bind_ok hchild
    cases hl : t.lookup (current ++ [component]) with
    | none =>
      apply Outcome.bind_ok (rfl : update _ t = _)
      apply hstep
      rw [contentAt_insert_dir (contentAt_of_lookup_none hl)]
      exact ht
    | some node =>
      cases node with
      | dir => exact hstep t ht
      | file a => exact ht

theorem Writing.of_openTemp {t : Files} {path fileName : Text} {parent : List Text}
    {existing : Bool} (hview : idle initial log t)
    (htarget : parent ++ [fileName] = pathComponents path)
    (hdir : t.lookup (parent ++ [fileName]) ≠ some .dir)
    (hvacant : existing = false → t.lookup (parent ++ [fileName]) = none) :
    Outcome (fun h => Writing initial log h path []) (fun _ _ => False)
      (openTemp names path parent fileName existing t) := by
  have hfresh := names.fresh t parent fileName
  have hne : parent ++ [fileName] ≠ parent ++ [names.next t parent fileName] := by
    intro h
    have := List.append_cancel_left h
    exact names.ne t parent fileName (List.cons.inj this).1.symm
  refine ⟨?_, ?_, htarget, hne, ?_, ?_⟩
  · rw [contentAt_insert_file, hview]
  · rw [← hview]
    exact contentAt_of_lookup_none hfresh
  · rw [Finmap.lookup_insert_of_ne _ hne]
    exact hdir
  · intro he
    rw [Finmap.lookup_insert_of_ne _ hne]
    exact hvacant he

theorem components_eq {path fileName : Text}
    (h : (pathComponents path).getLast? = some fileName) :
    (pathComponents path).dropLast ++ [fileName] = pathComponents path := by
  obtain ⟨init, hinit⟩ := List.getLast?_eq_some_iff.mp h
  rw [hinit, List.dropLast_concat]

theorem createSafTemp_meets (path : Text) :
    Meets (idle initial log) (createSafTemp names path)
      (fun h => Writing initial log h path []) (fun _ => idle initial log) := by
  rw [createSafTemp]
  cases hlast : (pathComponents path).getLast? with
  | none => exact Meets.raise (fun t ht => ht)
  | some fileName =>
    refine (ensureDirectoryComponents_meets (published initial log) [] _).bind (fun parent => ?_)
    apply Meets.of_fact
    rintro rfl t ht
    rw [List.nil_append]
    apply Outcome.bind_ok (rfl : findChild _ fileName t = _)
    by_cases hdir : t.lookup ((pathComponents path).dropLast ++ [fileName]) = some .dir
    · exact (congrArg (Outcome _ _) (bind_error (require_neg (not_not.mpr hdir)))).mpr ht
    · apply Outcome.bind_ok (require_pos hdir)
      refine (Writing.of_openTemp ht (components_eq hlast) hdir ?_).mono (fun _ _ h => h)
        (fun _ _ h => h.elim)
      intro he
      simpa using he

theorem mkdirs_view {t : Files} {path : List Text} {v : List Text → Option Bytes}
    (h : contentAt t = v) :
    Outcome (fun _ t => contentAt t = v) (fun _ _ => False) (mkdirs path t) := by
  unfold mkdirs
  split_ifs
  · exact h
  · exact (contentAt_makeDirectories t [] path).trans h

theorem requireDirectory_meets (v : List Text → Option Bytes) (target : List Text) (path : Text) :
    Meets (fun t => contentAt t = v) (requireDirectory target path)
      (fun _ t => contentAt t = v) (fun _ t => contentAt t = v) := by
  have hread : Meets (fun t => contentAt t = v) (read (fun t : Files => isDir t target))
      (fun _ t => contentAt t = v) (fun (_ : JavaException) t => contentAt t = v) :=
    Meets.read (fun t ht => ht)
  have hmkdirs : Meets (fun t => contentAt t = v) (mkdirs target)
      (fun _ t => contentAt t = v) (fun _ t => contentAt t = v) :=
    fun t ht => (mkdirs_view ht).mono (fun _ _ h => h) (fun _ _ h => h.elim)
  rw [requireDirectory]
  refine hread.bind (fun present => Meets.ite (fun _ => Meets.pure (fun t ht => ht)) (fun _ => ?_))
  refine hmkdirs.bind (fun created => hread.bind (fun present => ?_))
  exact Meets.require (fun _ t ht => ht) (fun _ t ht => ht)

theorem resolveDirectChild_ok {path : Text} {target : List Text}
    (h : resolveDirectChild path = .ok target) :
    target = pathComponents path ∧ target ≠ [] := by
  rw [resolveDirectChild] at h
  by_cases hnil : pathComponents path = []
  · rw [if_pos hnil] at h
    cases h
  · rw [if_neg hnil] at h
    cases h
    exact ⟨rfl, hnil⟩

theorem ensureDirectDirectory_meets (v : List Text → Option Bytes) (path : Text) :
    Meets (fun t => contentAt t = v) (ensureDirectDirectory path)
      (fun _ t => contentAt t = v) (fun _ t => contentAt t = v) := by
  rw [ensureDirectDirectory]
  apply Meets.bind (Q := fun _ t => contentAt t = v)
  · exact Meets.lift (fun _ _ t ht => ht) (fun _ _ t ht => ht)
  intro target
  apply Meets.bind (Q := fun _ t => contentAt t = v)
  · exact Meets.read (fun t ht => ht)
  intro blocked
  apply Meets.bind (Q := fun _ t => contentAt t = v)
  · exact Meets.require (fun _ t ht => ht) (fun _ t ht => ht)
  intro _
  exact requireDirectory_meets v target path

theorem createDirectTemp_meets (path : Text) :
    Meets (idle initial log) (createDirectTemp names path)
      (fun h => Writing initial log h path []) (fun _ => idle initial log) := by
  rw [createDirectTemp]
  apply Meets.bind (Q := fun target t => (target = pathComponents path ∧ target ≠ []) ∧
    idle initial log t)
  · exact Meets.lift (fun target h t ht => ⟨resolveDirectChild_ok h, ht⟩) (fun _ _ t ht => ht)
  intro target
  apply Meets.of_fact
  rintro ⟨htarget, hne⟩
  have hjoin : target.dropLast ++ [target.getLast?.getD []] = target := by
    rw [List.getLast?_eq_some_getLast hne, Option.getD_some, List.dropLast_append_getLast]
  refine (requireDirectory_meets (published initial log) target.dropLast path).bind (fun _ => ?_)
  intro t ht
  apply Outcome.bind_ok (rfl : read _ t = _)
  by_cases hdir : isDir t target = false
  · apply Outcome.bind_ok (require_pos hdir)
    refine (Writing.of_openTemp ht (hjoin.trans htarget) ?_ (fun h => by cases h)).mono
      (fun _ _ h => h) (fun _ _ h => h.elim)
    rw [hjoin]
    intro hl
    simp [isDir, hl] at hdir
  · exact (congrArg (Outcome _ _) (bind_error (require_neg hdir))).mpr ht

variable {h : TempFile} {path : Text} {content : Bytes} {t : Files}

theorem Writing.temp_content (hw : Writing initial log h path content t) :
    contentAt t h.temp = some content := by
  rw [hw.view, Function.update_self]

theorem Writing.appendTo (hw : Writing initial log h path content t) (chunk : Bytes) :
    Writing initial log h path (content ++ chunk)
      (t.insert h.temp (.file ((contentAt t h.temp).getD [] ++ chunk))) where
  view := by
    rw [contentAt_insert_file, hw.temp_content, hw.view, Function.update_idem]
    rfl
  fresh := hw.fresh
  target := hw.target
  ne := hw.ne
  not_dir := by
    rw [Finmap.lookup_insert_of_ne _ hw.ne]
    exact hw.not_dir
  vacant he := by
    rw [Finmap.lookup_insert_of_ne _ hw.ne]
    exact hw.vacant he

/-- Without the temporary file the published documents are back. -/
theorem Writing.erase_view (hw : Writing initial log h path content t) :
    contentAt (t.erase h.temp) = published initial log := by
  rw [contentAt_erase, hw.view, Function.update_idem, ← hw.fresh, Function.update_eq_self]

theorem Writing.moved_view (hw : Writing initial log h path content t) :
    contentAt ((t.erase h.temp).insert h.target (.file content)) =
      published initial (log ++ [.file path content]) := by
  rw [contentAt_insert_file, hw.erase_view, published_file, hw.target]

theorem Writing.copied_view (hw : Writing initial log h path content t) :
    contentAt ((t.insert h.target (.file content)).erase h.temp) =
      published initial (log ++ [.file path content]) := by
  rw [contentAt_erase, contentAt_insert_file, Function.update_comm hw.ne, ← contentAt_erase,
    hw.erase_view, published_file, hw.target]

/-- Making room for the target loses only its document. -/
theorem Writing.vacate (hw : Writing initial log h path content t) :
    contentAt (t.erase h.target) h.temp = some content ∧
      contentAt (((t.erase h.target).erase h.temp).insert h.target (.file content)) =
        published initial (log ++ [.file path content]) ∧
      contentAt (((t.erase h.target).insert h.target (.file content)).erase h.temp) =
        published initial (log ++ [.file path content]) := by
  refine ⟨?_, ?_, ?_⟩
  · rw [contentAt_erase, Function.update_of_ne hw.ne.symm, hw.temp_content]
  · rw [contentAt_insert_file, contentAt_erase, contentAt_erase, Function.update_comm hw.ne,
      Function.update_idem, ← contentAt_erase, ← contentAt_insert_file, hw.moved_view]
  · rw [contentAt_erase, contentAt_insert_file, contentAt_erase, Function.update_idem,
      ← contentAt_insert_file, ← contentAt_erase, hw.copied_view]

theorem moveTemp_run (hc : contentAt t h.temp = some content) :
    moveTemp h t = (.ok (), (t.erase h.temp).insert h.target (.file content)) := by
  rw [moveTemp, update, hc]
  rfl

theorem copyTemp_run (hc : contentAt t h.temp = some content) :
    copyTemp h t = (.ok (), t.insert h.target (.file content)) := by
  rw [copyTemp, update, hc]
  rfl

theorem Writing.renameOrCopyFile (hw : Writing initial log h path content t) :
    Outcome (fun _ => idle initial (log ++ [.file path content])) (fun _ _ => False)
      (renameOrCopyFile renames h (t.erase h.target)) := by
  obtain ⟨htemp, hmoved, hcopied⟩ := hw.vacate
  cases renames with
  | true => exact (congrArg (Outcome _ _) (moveTemp_run htemp)).mpr hmoved
  | false => exact Outcome.bind_ok (copyTemp_run htemp) hcopied

theorem Writing.renameOrCopyDocument (hw : Writing initial log h path content t) :
    Outcome (fun _ => idle initial (log ++ [.file path content])) (fun _ _ => False)
      (renameOrCopyDocument renames h (t.erase h.target)) := by
  obtain ⟨htemp, hmoved, hcopied⟩ := hw.vacate
  apply Outcome.bind_ok (read_run _ _)
  rw [Finmap.lookup_erase]
  cases renames with
  | true => exact (congrArg (Outcome _ _) (moveTemp_run htemp)).mpr hmoved
  | false => exact Outcome.bind_ok (require_pos rfl) (Outcome.bind_ok (copyTemp_run htemp) hcopied)

theorem erase_of_lookup_none {p : List Text} (hl : t.lookup p = none) : t.erase p = t := by
  apply Finmap.ext_lookup
  intro q
  by_cases hq : q = p
  · rw [hq, Finmap.lookup_erase, hl]
  · rw [Finmap.lookup_erase_ne hq]

theorem publishSaf_meets :
    Meets (Writing initial log h path content) (publishSaf renames h)
      (fun _ => idle initial (log ++ [.file path content])) (fun _ _ => False) := by
  intro t hw
  have hvacate : deleteExisting h t = (.ok (), t.erase h.target) := by
    rw [deleteExisting]
    cases he : h.existing with
    | true => rfl
    | false =>
      rw [erase_of_lookup_none (hw.vacant he)]
      rfl
  exact Outcome.bind_ok hvacate hw.renameOrCopyDocument

theorem publishDirect_meets :
    Meets (Writing initial log h path content) (publishDirect renames h)
      (fun _ => idle initial (log ++ [.file path content])) (fun _ _ => False) := by
  intro t hw
  have hvacate : deleteTarget h t = (.ok (), t.erase h.target) := by
    rw [deleteTarget]
    cases hl : t.lookup h.target with
    | none => rw [erase_of_lookup_none hl]
    | some node =>
      cases node with
      | dir => exact absurd hl hw.not_dir
      | file a => rfl
  exact Outcome.bind_ok hvacate hw.renameOrCopyFile

/-- Both kinds of access are storages in the sense of the receiver. -/
theorem storageOf_stores (names : FreshNames Text Bytes) (renames : Bool) (access : Access)
    (initial : List Text → Option Bytes) :
    Stores (storageOf names renames access) True (idle initial) (Writing initial) := by
  have hwrite : ∀ log temp path content chunk, Meets (Writing initial log temp path content)
      (appendTo temp chunk) (fun _ => Writing initial log temp path (content ++ chunk))
      (fun _ _ => False) :=
    fun _ _ _ _ chunk => Meets.update (fun _ hw => hw.appendTo chunk)
  have hdiscard : ∀ log temp path content, Meets (Writing initial log temp path content)
      (removeTemp temp) (fun _ => idle initial log) (fun _ _ => False) :=
    fun _ _ _ _ => Meets.update (fun _ hw => hw.erase_view)
  cases access with
  | saf =>
    refine ⟨fun log path => ?_, fun log path => ?_, hwrite, fun _ _ _ _ => publishSaf_meets,
      hdiscard⟩
    · refine ((ensureDirectoryComponents_meets (published initial log) [] _).bind
        (R := fun _ => idle initial (log ++ [.directory path])) (fun p => ?_)).mono
        (fun _ ht => ht) (fun _ _ ht => ht) (fun _ _ ht => ⟨trivial, ht⟩)
      apply Meets.pure
      intro t ht
      rw [idle, published_directory]
      exact ht.2
    · exact (createSafTemp_meets path).mono (fun _ ht => ht) (fun _ _ ht => ht)
        (fun _ _ ht => ⟨trivial, ht⟩)
  | direct =>
    refine ⟨fun log path => ?_, fun log path => ?_, hwrite, fun _ _ _ _ => publishDirect_meets,
      hdiscard⟩
    · refine (ensureDirectDirectory_meets (published initial log) path).mono
        (fun _ ht => ht) (fun _ t ht => ?_) (fun _ _ ht => ⟨trivial, ht⟩)
      rw [idle, published_directory]
      exact ht
    · exact (createDirectTemp_meets path).mono (fun _ ht => ht) (fun _ _ ht => ht)
        (fun _ _ ht => ⟨trivial, ht⟩)

end OpenAdb.P2p.Storage
