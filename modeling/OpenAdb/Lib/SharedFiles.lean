import OpenAdb.Lib.EventLog

namespace OpenAdb.Lib.SharedFiles

open OpenAdb.Lib.Effects

inductive Kind
  | folder | file | folderLink | fileLink | deadLink
  deriving DecidableEq

/-- An entry of a disk. The mark tells it from others without a look at its content. -/
structure Entry (μ : Type) where
  kind : Kind
  mark : μ
  content : List UInt8

abbrev Disk (π μ : Type) := π → Option (Entry μ)

inductive Look
  | exists | isSymlink | isDir | stat
  deriving DecidableEq

inductive Op (π : Type)
  | look (l : Look) (place : π)
  | create (place : π)
  | write (place : π)
  | utime (place : π)
  | replace (source place : π)
  | link (source place : π)
  | rename (source place : π)
  | unlink (place : π)
  | mkdir (place : π)
  | rmdir (place : π)
  | call

inductive Event (π μ : Type)
  | asked
  | failed (op : Op π)
  | called
  | looked (l : Look) (place : π) (found : Option (Entry μ))
  | created (place : π)
  | wrote (place : π)
  | replaced (source place : π) (entry : Entry μ) (former : Option (Entry μ))
  | published (source place : π) (entry : Entry μ)
  | unlinked (place : π) (entry : Option (Entry μ))
  | made (place : π)
  | dropped (place : π)

variable {π μ ν ε α : Type}

/-- A disk that others use too, the operations on it with the latest first, and the variables of the program. -/
structure Files (π μ ν : Type) where
  disk : Disk π μ
  log : List (Event π μ)
  vars : ν

/-- What others do to the disk before an operation, which operations fail, and the marks of what is written.
Others leave alone what the program has created. -/
structure World (π μ ε : Type) where
  outside : List (Event π μ) → Disk π μ → Disk π μ
  fails : List (Event π μ) → Disk π μ → Op π → Option ε
  mark : List (Event π μ) → μ
  missing : ε
  present : ε
  blocked : ε
  leaves : ∀ log disk place, .created place ∈ log → outside log disk place = disk place

abbrev Step (π μ ν ε : Type) := Effect ε (Files π μ ν)

section Operations

variable [DecidableEq π] (w : World π μ ε)

def put (disk : Disk π μ) (place : π) (entry : Option (Entry μ)) : Disk π μ := fun other =>
  if other = place then entry else disk other

/-- Others come first, and then the operation fails or not. -/
def attempt (op : Op π) : Step π μ ν ε Unit := fun s =>
  match w.fails s.log (w.outside s.log s.disk) op with
  | some e => (.error e, ⟨w.outside s.log s.disk, .failed op :: s.log, s.vars⟩)
  | none => (.ok (), { s with disk := w.outside s.log s.disk })

/-- A change of the disk, with the event that tells of it. -/
def change (op : Op π) (f : List (Event π μ) → Disk π μ → Except ε (Disk π μ × Event π μ)) : Step π μ ν ε Unit :=
  fun s =>
    match f s.log s.disk with
    | .error e => (.error e, { s with log := .failed op :: s.log })
    | .ok (disk, event) => (.ok (), ⟨disk, event :: s.log, s.vars⟩)

def act (op : Op π) (f : List (Event π μ) → Disk π μ → Except ε (Disk π μ × Event π μ)) : Step π μ ν ε Unit := do
  attempt w op
  change op f

def ask (f : List (Event π μ) → α) : Step π μ ν ε α := fun s =>
  (.ok (f s.log), { s with log := .asked :: s.log })

def call : Step π μ ν ε Unit := act w .call fun _ disk => .ok (disk, .called)

def look (l : Look) (place : π) : Step π μ ν ε (Option (Entry μ)) := do
  attempt w (.look l place)
  fun s => (.ok (s.disk place), { s with log := .looked l place (s.disk place) :: s.log })

def setVars (f : ν → ν) : Step π μ ν ε Unit := update fun s => { s with vars := f s.vars }

def Entry.isLink (e : Entry μ) : Bool := e.kind = .folderLink || e.kind = .fileLink || e.kind = .deadLink

def Entry.leads (e : Entry μ) : Bool := e.kind ≠ .deadLink

def Entry.isDir (e : Entry μ) : Bool := e.kind = .folder || e.kind = .folderLink

def existsAt (place : π) : Step π μ ν ε Bool := do
  let found ← look w .exists place
  pure (found.any Entry.leads)

def isSymlink (place : π) : Step π μ ν ε Bool := do
  let found ← look w .isSymlink place
  pure (found.any Entry.isLink)

def isDir (place : π) : Step π μ ν ε Bool := do
  let found ← look w .isDir place
  pure (found.any Entry.isDir)

/-- Create an empty file at a place where nothing is. -/
def create (place : π) : Step π μ ν ε Unit :=
  act w (.create place) fun log disk =>
    match disk place with
    | some _ => .error w.present
    | none => .ok (put disk place (some ⟨.file, w.mark log, []⟩), .created place)

def write (place : π) (chunk : List UInt8) : Step π μ ν ε Unit :=
  act w (.write place) fun log disk =>
    match disk place with
    | none => .error w.missing
    | some e => .ok (put disk place (some ⟨e.kind, w.mark log, e.content ++ chunk⟩), .wrote place)

def utime (place : π) : Step π μ ν ε Unit :=
  act w (.utime place) fun log disk =>
    match disk place with
    | none => .error w.missing
    | some e => .ok (put disk place (some { e with mark := w.mark log }), .wrote place)

def move (disk : Disk π μ) (source place : π) (e : Entry μ) : Disk π μ := put (put disk source none) place (some e)

/-- Neither a folder in the place of a file nor the other way. -/
def replace (source place : π) : Step π μ ν ε Unit :=
  act w (.replace source place) fun _ disk =>
    match disk source with
    | none => .error w.missing
    | some e =>
      if (disk place).any (fun former => decide (e.kind = .folder) || decide (former.kind = .folder)) then .error w.blocked
      else .ok (move disk source place e, .replaced source place e (disk place))

def link (source place : π) : Step π μ ν ε Unit :=
  act w (.link source place) fun _ disk =>
    match disk place, disk source with
    | some _, _ => .error w.present
    | none, none => .error w.missing
    | none, some e => .ok (put disk place (some e), .published source place e)

/-- A rename that does not replace. -/
def rename (source place : π) : Step π μ ν ε Unit :=
  act w (.rename source place) fun _ disk =>
    match disk place, disk source with
    | some _, _ => .error w.present
    | none, none => .error w.missing
    | none, some e => .ok (move disk source place e, .published source place e)

/-- A missing file is no error. -/
def unlink (place : π) : Step π μ ν ε Unit :=
  act w (.unlink place) fun _ disk =>
    if (disk place).any (fun e => decide (e.kind = .folder)) then .error w.blocked
    else .ok (put disk place none, .unlinked place (disk place))

def mkdir (place : π) : Step π μ ν ε Unit :=
  act w (.mkdir place) fun log disk =>
    match disk place with
    | some _ => .error w.present
    | none => .ok (put disk place (some ⟨.folder, w.mark log, []⟩), .made place)

def rmdir (place : π) : Step π μ ν ε Unit :=
  act w (.rmdir place) fun _ disk =>
    if (disk place).any (fun e => decide (e.kind = .folder)) then .ok (put disk place none, .dropped place)
    else .error w.missing

end Operations

section Stability

variable [DecidableEq π] {w : World π μ ε} {I P E : Files π μ ν → Prop} {Q : Unit → Files π μ ν → Prop}
variable {s : Files π μ ν} {place source : π} {e : Entry μ} {disk : Disk π μ}

/-- An event that leaves the disk as it is. -/
def Event.quiet : Event π μ → Bool
  | .asked | .failed _ | .called | .looked _ _ _ => true
  | _ => false

/-- What neither others nor quiet events change. -/
structure Stable (w : World π μ ε) (I : Files π μ ν → Prop) : Prop where
  outside : ∀ s, I s → I { s with disk := w.outside s.log s.disk }
  quiet : ∀ s event, event.quiet = true → I s → I { s with log := event :: s.log }

/-- What others leave alone, and what a failure leads to. -/
structure Bears (w : World π μ ε) (P E : Files π μ ν → Prop) : Prop where
  outside : ∀ s, P s → P { s with disk := w.outside s.log s.disk }
  failed : ∀ s op, P s → E { s with log := .failed op :: s.log }

omit [DecidableEq π] in
theorem Stable.bears (hI : Stable w I) : Bears w I I := ⟨hI.outside, fun s op => hI.quiet s (.failed op) rfl⟩

theorem put_same : put disk place (some e) place = some e := if_pos rfl

theorem put_of_ne {entry : Option (Entry μ)} {other : π} (h : other ≠ place) :
    put disk place entry other = disk other := if_neg h

theorem move_of_ne {other : π} (hsource : other ≠ source) (hplace : other ≠ place) :
    move disk source place e other = disk other := by
  rw [move, put_of_ne hplace, put_of_ne hsource]

omit [DecidableEq π] in
theorem Stable.fact {φ : Prop} (hI : Stable w I) : Stable w fun s => φ ∧ I s :=
  ⟨fun s h => h.imp_right (hI.outside s), fun s event hquiet h => h.imp_right (hI.quiet s event hquiet)⟩

omit [DecidableEq π] in
theorem Stable.of_exists {ι : Type} {J : ι → Files π μ ν → Prop} (hJ : ∀ i, Stable w (J i)) :
    Stable w fun s => ∃ i, J i s :=
  ⟨fun s h => h.imp fun i => (hJ i).outside s, fun s event hquiet h => h.imp fun i => (hJ i).quiet s event hquiet⟩

omit [DecidableEq π] in
theorem attempt_meets (hP : Bears w P E) (op : Op π) : Meets P (attempt w op) (fun _ => P) (fun _ => E) := by
  intro s hs
  have hout := hP.outside s hs
  rw [attempt]
  cases hfails : w.fails s.log (w.outside s.log s.disk) op with
  | none => exact hout
  | some e => exact hP.failed _ op hout

omit [DecidableEq π] in
theorem ask_meets (hI : Stable w I) (f : List (Event π μ) → α) :
    Meets I (ask f) (fun _ => I) (fun _ : ε => I) :=
  fun s hs => hI.quiet s _ rfl hs

omit [DecidableEq π] in
theorem act_meets (hP : Bears w P E) {op : Op π}
    {f : List (Event π μ) → Disk π μ → Except ε (Disk π μ × Event π μ)}
    (hf : ∀ s r, P s → f s.log s.disk = .ok r → Q () ⟨r.1, r.2 :: s.log, s.vars⟩) :
    Meets P (act w op f) Q (fun _ => E) := by
  refine Meets.bind (attempt_meets hP op) fun _ s hs => ?_
  rw [change]
  cases hrun : f s.log s.disk with
  | error e => exact hP.failed s op hs
  | ok r => exact hf s r hs hrun

omit [DecidableEq π] in
theorem look_bears (hP : Bears w P E) {l : Look} {R : Option (Entry μ) → Files π μ ν → Prop}
    (h : ∀ s, P s → R (s.disk place) { s with log := .looked l place (s.disk place) :: s.log }) :
    Meets P (look w l place) R (fun _ => E) :=
  Meets.bind (attempt_meets hP _) fun _ s hs => h s hs

omit [DecidableEq π] in
/-- What was seen is still there. -/
theorem look_meets (hI : Stable w I) (l : Look) (place : π) :
    Meets I (look w l place) (fun found s => s.disk place = found ∧ I s) (fun _ => I) :=
  look_bears hI.bears fun s hs => ⟨rfl, hI.quiet s _ rfl hs⟩

omit [DecidableEq π] in
theorem call_meets (hI : Stable w I) : Meets I (call w) (fun _ => I) (fun _ => I) := by
  refine act_meets hI.bears fun s r hs hrun => ?_
  cases hrun
  exact hI.quiet s _ rfl hs

omit [DecidableEq π] in
theorem setVars_meets {f : ν → ν} (h : ∀ s, P s → Q () { s with vars := f s.vars }) :
    Meets P (setVars f) Q (fun _ : ε => E) := Meets.update h

theorem create_meets (hI : Stable w I)
    (h : ∀ s, I s → s.disk place = none →
      Q () ⟨put s.disk place (some ⟨.file, w.mark s.log, []⟩), .created place :: s.log, s.vars⟩) :
    Meets I (create w place) Q (fun _ => I) := by
  refine act_meets hI.bears fun s r hs hrun => ?_
  split at hrun
  · cases hrun
  · cases hrun
    exact h s hs ‹_›

theorem write_meets (hI : Stable w I) {chunk : List UInt8}
    (h : ∀ s e, I s → s.disk place = some e →
      Q () ⟨put s.disk place (some ⟨e.kind, w.mark s.log, e.content ++ chunk⟩), .wrote place :: s.log, s.vars⟩) :
    Meets I (write w place chunk) Q (fun _ => I) := by
  refine act_meets hI.bears fun s r hs hrun => ?_
  split at hrun
  · cases hrun
  · cases hrun
    exact h s _ hs ‹_›

theorem utime_meets (hI : Stable w I)
    (h : ∀ s e, I s → s.disk place = some e →
      Q () ⟨put s.disk place (some { e with mark := w.mark s.log }), .wrote place :: s.log, s.vars⟩) :
    Meets I (utime w place) Q (fun _ => I) := by
  refine act_meets hI.bears fun s r hs hrun => ?_
  split at hrun
  · cases hrun
  · cases hrun
    exact h s _ hs ‹_›

theorem replace_meets (hP : Bears w P E)
    (h : ∀ s e, P s → s.disk source = some e → (∀ former, s.disk place = some former → e.kind ≠ .folder) →
      Q () ⟨move s.disk source place e, .replaced source place e (s.disk place) :: s.log, s.vars⟩) :
    Meets P (replace w source place) Q (fun _ => E) := by
  refine act_meets hP fun s r hs hrun => ?_
  split at hrun
  · cases hrun
  · rename_i e hdisk
    split_ifs at hrun with hkinds
    cases hrun
    refine h s e hs hdisk fun former hover hfolder => hkinds ?_
    rw [hover, Option.any_some, hfolder]
    rfl

theorem link_meets (hI : Stable w I)
    (h : ∀ s e, I s → s.disk place = none → s.disk source = some e →
      Q () ⟨put s.disk place (some e), .published source place e :: s.log, s.vars⟩) :
    Meets I (link w source place) Q (fun _ => I) := by
  refine act_meets hI.bears fun s r hs hrun => ?_
  split at hrun
  · cases hrun
  · cases hrun
  · cases hrun
    exact h s _ hs ‹_› ‹_›

theorem rename_meets (hI : Stable w I)
    (h : ∀ s e, I s → s.disk place = none → s.disk source = some e →
      Q () ⟨move s.disk source place e, .published source place e :: s.log, s.vars⟩) :
    Meets I (rename w source place) Q (fun _ => I) := by
  refine act_meets hI.bears fun s r hs hrun => ?_
  split at hrun
  · cases hrun
  · cases hrun
  · cases hrun
    exact h s _ hs ‹_› ‹_›

theorem unlink_meets (hP : Bears w P E)
    (h : ∀ s, P s → Q () ⟨put s.disk place none, .unlinked place (s.disk place) :: s.log, s.vars⟩) :
    Meets P (unlink w place) Q (fun _ => E) := by
  refine act_meets hP fun s r hs hrun => ?_
  split_ifs at hrun
  cases hrun
  exact h s hs

theorem mkdir_meets (hI : Stable w I)
    (h : ∀ s, I s → s.disk place = none →
      Q () ⟨put s.disk place (some ⟨.folder, w.mark s.log, []⟩), .made place :: s.log, s.vars⟩) :
    Meets I (mkdir w place) Q (fun _ => I) := by
  refine act_meets hI.bears fun s r hs hrun => ?_
  split at hrun
  · cases hrun
  · cases hrun
    exact h s hs ‹_›

theorem rmdir_meets (hI : Stable w I)
    (h : ∀ s e, I s → s.disk place = some e → e.kind = .folder →
      Q () ⟨put s.disk place none, .dropped place :: s.log, s.vars⟩) :
    Meets I (rmdir w place) Q (fun _ => I) := by
  refine act_meets hI.bears fun s r hs hrun => ?_
  split_ifs at hrun with hfolder
  obtain ⟨e, he, hkind⟩ := (Option.any_eq_true _ _).mp hfolder
  cases hrun
  exact h s e hs he (of_decide_eq_true hkind)

end Stability

end OpenAdb.Lib.SharedFiles
