import OpenAdb.Transfer.TarPull

namespace OpenAdb.Transfer.PullSteps

open OpenAdb.Lib.Effects OpenAdb.Lib.EventLog OpenAdb.Lib.PyText OpenAdb.Lib.SharedFiles
open OpenAdb.Transfer.TarPull

variable {μ : Type}

abbrev Log (μ : Type) := List (Event Path μ)

abbrev State (μ : Type) := Files Path μ (Vars μ)

def IsTemp (place : Path) : Prop := ∃ dir text, place = dir ++ [tempPrefix ++ text]

def IsBackup (place : Path) : Prop := ∃ dir text, place = dir ++ [backupPrefix ++ text]

theorem IsTemp.ne_backup {temp backup : Path} (htemp : IsTemp temp) (hbackup : IsBackup backup) : temp ≠ backup := by
  obtain ⟨dir, text, rfl⟩ := htemp
  obtain ⟨dir', text', rfl⟩ := hbackup
  intro heq
  have hlast := congrArg List.getLast? heq
  rw [List.getLast?_concat, List.getLast?_concat, Option.some_inj] at hlast
  have htake := congrArg (List.take 10) hlast
  rw [List.take_append_of_le_length (by decide), List.take_append_of_le_length (by decide)] at htake
  exact absurd htake (by decide)

section Rules

variable (p : Pull μ)

/-- A place that is made up. -/
def Chosen (place : Path) : Prop :=
  ∃ log dir, place = dir ++ [tempPrefix ++ p.random log] ∨ place = dir ++ [backupPrefix ++ p.random log]

def Named (place : Path) : Prop := ∃ names, p.resolve names = .ok place

/-- The last that was done is a look at the place, which showed the mark of a file that was published there. -/
def StillOurs (past : Log μ) (place : Path) : Prop :=
  ∃ found earlier temp e, past = .looked .stat place (some found) :: earlier ∧ .published temp place e ∈ earlier ∧
    e.mark = found.mark

/-- The last that was done shows nothing at the place, or still what was published there. -/
def FreeOrOurs (past : Log μ) (place : Path) : Prop :=
  StillOurs past place ∨ ∃ seen found earlier,
    past = .looked .isSymlink place seen :: .looked .exists place found :: earlier ∧
      seen.any Entry.isLink = false ∧ found.any Entry.leads = false

/-- What a pull may do to a disk that is not its own. -/
def Allowed (past : Log μ) : Event Path μ → Prop
  | .wrote place => .created place ∈ past
  | .replaced source place _ _ =>
    .created place ∈ past ∧ p.root <+: source ∨
      .created source ∈ past ∧ Named p place ∧ p.root <+: place ∧ FreeOrOurs past place
  | .published source place _ => .created source ∈ past ∧ p.root <+: place
  | .unlinked place (some _) => .created place ∈ past ∨ p.root <+: place ∧ StillOurs past place
  | .dropped place => .made place ∈ past
  | _ => True

end Rules

/-- An event that neither creates nor replaces. -/
def plain : Event Path μ → Bool
  | .created _ | .replaced _ _ _ _ => false
  | _ => true

/-- An entry has been moved to a backup. -/
def Aside (log : Log μ) (target backup : Path) (e : Entry μ) : Prop :=
  ∃ former, .replaced target backup e former ∈ log ∧ .created backup ∈ log

def Restored (log : Log μ) (target backup : Path) (e : Entry μ) : Prop :=
  ∃ former, .replaced backup target e former ∈ log

/-- What the log and the variables have to do with each other. -/
structure Base (p : Pull μ) (s : State μ) : Prop where
  careful : Each (Allowed p) s.log
  created : ∀ place, .created place ∈ s.log → Chosen p place
  pending : ∀ target temp, (target, temp) ∈ s.vars.pending →
    Named p target ∧ p.root <+: target ∧ IsTemp temp ∧ .created temp ∈ s.log
  backups : ∀ target backup, s.vars.backups.lookup target = some backup →
    IsBackup backup ∧ .created backup ∈ s.log ∧ target ∈ s.vars.pending.map Prod.fst
  reserved : ∀ backup ∈ s.vars.reserved, IsBackup backup ∧ .created backup ∈ s.log
  marks : ∀ target mark, s.vars.marks.lookup target = some mark →
    ∃ temp e, .published temp target e ∈ s.log ∧ e.mark = mark
  folders : ∀ place ∈ s.vars.created, .made place ∈ s.log

/-- What was moved aside is back, or in its backup; each target has a backup of its own, with an entry in it. -/
structure Kept (s : State μ) : Prop where
  originals : ∀ target backup e, Aside s.log target backup e → Restored s.log target backup e ∨
    s.vars.backups.lookup target = some backup ∧ s.disk backup = some e ∧ e.kind ≠ .folder
  filled : ∀ target backup, s.vars.backups.lookup target = some backup →
    ∃ e, s.disk backup = some e ∧ e.kind ≠ .folder
  distinct : ∀ target target' backup, s.vars.backups.lookup target = some backup →
    s.vars.backups.lookup target' = some backup → target = target'

/-- What is known of a state: whether the originals are kept, two variables, some of what was done, and the
entries of some created places. -/
structure View (μ : Type) where
  guarded : Bool
  pending : List (Path × Path)
  backups : List (Path × Path)
  known : Log μ
  held : List (Path × Entry μ)

structure At (p : Pull μ) (v : View μ) (s : State μ) : Prop where
  base : Base p s
  kept : v.guarded = true → Kept s
  pending : s.vars.pending = v.pending
  backups : s.vars.backups = v.backups
  known : ∀ event ∈ v.known, event ∈ s.log
  held : ∀ place e, (place, e) ∈ v.held → .created place ∈ s.log ∧ s.disk place = some e ∧ e.kind ≠ .folder

/-- Nothing is known to be at the place. -/
def View.frees (v : View μ) (place : Path) : Prop :=
  (∀ target, v.backups.lookup target ≠ some place) ∧ ∀ e, (place, e) ∉ v.held

section Transitions

variable {p : Pull μ} {v : View μ} {s : State μ} {event : Event Path μ} {disk : Disk Path μ} {place : Path}

theorem named_ne_chosen {target : Path} (htarget : Named p target) (hchosen : Chosen p place) : target ≠ place := by
  obtain ⟨names, hnames⟩ := htarget
  obtain ⟨log, dir, rfl | rfl⟩ := hchosen
  · exact (p.apart names target log dir hnames).1
  · exact (p.apart names target log dir hnames).2

theorem Aside.cons {log : Log μ} {target backup : Path} {e : Entry μ} (hplain : plain event = true)
    (h : Aside (event :: log) target backup e) : Aside log target backup e := by
  obtain ⟨former, hevent, hplace⟩ := h
  refine ⟨former, (List.mem_cons.mp hevent).resolve_left ?_, (List.mem_cons.mp hplace).resolve_left ?_⟩
  · rintro rfl
    cases hplain
  · rintro rfl
    cases hplain

theorem Restored.cons {log : Log μ} {target backup : Path} {e : Entry μ} (h : Restored log target backup e) :
    Restored (event :: log) target backup e := by
  obtain ⟨former, hevent⟩ := h
  exact ⟨former, List.mem_cons_of_mem _ hevent⟩

/-- A step with the same backups, of which each keeps its entry. -/
theorem Kept.step (h : Kept s)
    (haside : ∀ target backup e, Aside (event :: s.log) target backup e → Aside s.log target backup e)
    (hdisk : ∀ target backup e, s.vars.backups.lookup target = some backup → s.disk backup = some e →
      e.kind ≠ .folder → disk backup = some e) : Kept ⟨disk, event :: s.log, s.vars⟩ where
  originals := fun target backup e hnew => by
    refine (h.originals target backup e (haside _ _ _ hnew)).imp Restored.cons fun hkept => ?_
    obtain ⟨hlookup, he, hkind⟩ := hkept
    exact ⟨hlookup, hdisk target backup e hlookup he hkind, hkind⟩
  filled := fun target backup hlookup => by
    obtain ⟨e, he, hkind⟩ := h.filled target backup hlookup
    exact ⟨e, hdisk target backup e hlookup he hkind, hkind⟩
  distinct := h.distinct

theorem Base.cons (h : Base p s) (hallowed : Allowed p s.log event)
    (hchosen : ∀ place, event = .created place → Chosen p place) : Base p ⟨disk, event :: s.log, s.vars⟩ where
  careful := ⟨hallowed, h.careful⟩
  created := fun place hplace => (List.mem_cons.mp hplace).elim (fun heq => hchosen place heq.symm) (h.created place)
  pending := fun target temp hmem => (h.pending target temp hmem).imp_right fun h =>
    h.imp_right fun h => h.imp_right (List.mem_cons_of_mem _)
  backups := fun target backup hlookup => (h.backups target backup hlookup).imp_right fun h =>
    h.imp_left (List.mem_cons_of_mem _)
  reserved := fun backup hmem => (h.reserved backup hmem).imp_right (List.mem_cons_of_mem _)
  marks := fun target mark hlookup => by
    obtain ⟨temp, e, hpublished, hmark⟩ := h.marks target mark hlookup
    exact ⟨temp, e, List.mem_cons_of_mem _ hpublished, hmark⟩
  folders := fun place hmem => List.mem_cons_of_mem _ (h.folders place hmem)

/-- An event with changes only where nothing is known to be. -/
theorem At.touch (h : At p v s) (hallowed : Allowed p s.log event) (hplain : plain event = true) (touched : Path → Prop)
    (hdisk : ∀ place, ¬touched place → disk place = s.disk place)
    (htouched : ∀ place e, touched place → s.disk place = some e → e.kind ≠ .folder → v.frees place) :
    At p v ⟨disk, event :: s.log, s.vars⟩ where
  base := h.base.cons hallowed fun place heq => by rw [heq] at hplain; cases hplain
  kept := fun hguarded => by
    refine (h.kept hguarded).step (fun _ _ _ haside => haside.cons hplain) fun target backup e hlookup he hkind => ?_
    exact (hdisk backup fun ht => (htouched backup e ht he hkind).1 target (h.backups ▸ hlookup)).trans he
  pending := h.pending
  backups := h.backups
  known := fun event hmem => List.mem_cons_of_mem _ (h.known event hmem)
  held := fun place e hmem => by
    obtain ⟨hplace, he, hkind⟩ := h.held place e hmem
    refine ⟨List.mem_cons_of_mem _ hplace, (hdisk place fun ht => ?_).trans he, hkind⟩
    exact (htouched place e ht he hkind).2 e hmem

theorem allowed_of_quiet {past : Log μ} (hquiet : event.quiet = true) : Allowed p past event := by
  cases event <;> first | exact trivial | cases hquiet

theorem At.stable (p : Pull μ) (v : View μ) : Stable p.world (At p v) where
  outside := fun s h => by
    refine { h with base := { h.base with }, kept := fun hguarded => ?_, held := fun place e hmem => ?_ }
    · have hkept := h.kept hguarded
      have hleaves : ∀ target backup, s.vars.backups.lookup target = some backup →
          p.world.outside s.log s.disk backup = s.disk backup := fun target backup hlookup =>
        p.world.leaves _ _ _ (h.base.backups target backup hlookup).2.1
      refine ⟨fun target backup e haside => ?_, fun target backup hlookup => ?_, hkept.distinct⟩
      · refine (hkept.originals target backup e haside).imp_right fun hkept => ?_
        exact ⟨hkept.1, (hleaves target backup hkept.1).trans hkept.2.1, hkept.2.2⟩
      · obtain ⟨e, he, hkind⟩ := hkept.filled target backup hlookup
        exact ⟨e, (hleaves target backup hlookup).trans he, hkind⟩
    · obtain ⟨hcreated, he, hkind⟩ := h.held place e hmem
      exact ⟨hcreated, (p.world.leaves _ _ _ hcreated).trans he, hkind⟩
  quiet := fun s event hquiet h => by
    refine h.touch (allowed_of_quiet hquiet) ?_ (fun _ => False) (fun _ _ => rfl) fun _ _ ht => ht.elim
    cases event <;> first | rfl | cases hquiet

/-- Less may be known. -/
theorem At.mono {v' : View μ} (h : At p v s) (hguarded : v'.guarded = true → v.guarded = true)
    (hpending : v'.pending = v.pending) (hbackups : v'.backups = v.backups) (hknown : ∀ event ∈ v'.known, event ∈ s.log)
    (hheld : ∀ x ∈ v'.held, x ∈ v.held) : At p v' s :=
  ⟨h.base, fun hg => h.kept (hguarded hg), h.pending.trans hpending.symm, h.backups.trans hbackups.symm, hknown,
    fun place e hmem => h.held place e (hheld _ hmem)⟩

theorem At.learn (h : At p v s) {events : Log μ} (hevents : ∀ event ∈ events, event ∈ s.log) :
    At p { v with known := events ++ v.known } s :=
  h.mono id rfl rfl (fun event hmem => (List.mem_append.mp hmem).elim (hevents event) (h.known event)) fun _ hx => hx

theorem At.note (h : At p v s) (hevent : event ∈ s.log) : At p { v with known := event :: v.known } s := by
  have hevents : ∀ other ∈ [event], other ∈ s.log := fun _ hmem => List.mem_singleton.mp hmem ▸ hevent
  exact h.learn hevents

/-- An event with a change at one place, where nothing is known to be. -/
theorem At.placing {entry : Option (Entry μ)} (h : At p v s) (hallowed : Allowed p s.log event)
    (hplain : plain event = true) (hplace : ∀ e, s.disk place = some e → e.kind ≠ .folder → v.frees place) :
    At p v ⟨put s.disk place entry, event :: s.log, s.vars⟩ := by
  refine h.touch hallowed hplain (· = place) (fun other hne => put_of_ne hne) fun other e heq he hkind => ?_
  rw [heq] at he ⊢
  exact hplace e he hkind

/-- Variables that tell less. -/
theorem At.reset (h : At p v s) {vars : Vars μ} (hpending : vars.pending = s.vars.pending)
    (hbackups : vars.backups = s.vars.backups) (hreserved : ∀ backup ∈ vars.reserved, backup ∈ s.vars.reserved)
    (hmarks : vars.marks = s.vars.marks) (hcreated : ∀ place ∈ vars.created, .made place ∈ s.log) :
    At p v { s with vars := vars } := by
  obtain ⟨pending, backups, reserved, committed, marks, created, bytes, files⟩ := vars
  subst hpending hbackups hmarks
  exact { h with
    base := { h.base with reserved := fun b hb => h.base.reserved b (hreserved b hb), folders := hcreated }
    kept := fun hguarded => { h.kept hguarded with } }

theorem At.hold {e : Entry μ} (h : At p v s) (hcreated : .created place ∈ s.log) (he : s.disk place = some e)
    (hkind : e.kind ≠ .folder) : At p { v with held := (place, e) :: v.held } s := by
  refine { h with held := fun other e' hmem => ?_ }
  obtain heq | hmem := List.mem_cons.mp hmem
  · cases heq
    exact ⟨hcreated, he, hkind⟩
  · exact h.held other e' hmem

/-- An event of the log was allowed when it came. -/
theorem each_of_mem {R : Log μ → Event Path μ → Prop} {log : Log μ} {event : Event Path μ} (h : Each R log)
    (hmem : event ∈ log) : ∃ past, R past event ∧ past ⊆ log := by
  obtain ⟨later, past, rfl⟩ := List.append_of_mem hmem
  exact ⟨past, h.at, fun x hx => List.mem_append_right _ (List.mem_cons_of_mem _ hx)⟩

/-- What was replaced at a chosen place was moved aside. -/
theorem Base.created_of_replaced (h : Base p s) {source : Path} {e : Entry μ} {former : Option (Entry μ)}
    (hchosen : Chosen p place)
    (hmem : .replaced source place e former ∈ s.log) : .created place ∈ s.log := by
  obtain ⟨past, hallowed | hallowed, hpast⟩ := each_of_mem h.careful hmem
  · exact hpast hallowed.1
  · exact absurd rfl (named_ne_chosen hallowed.2.1 hchosen)

theorem At.create {e : Entry μ} (h : At p v s) (hnone : s.disk place = none) (hchosen : Chosen p place)
    (hkind : e.kind ≠ .folder) :
    At p { v with known := .created place :: v.known, held := (place, e) :: v.held }
      ⟨put s.disk place (some e), .created place :: s.log, s.vars⟩ := by
  have hplain : At p v ⟨put s.disk place (some e), .created place :: s.log, s.vars⟩ := by
    have hother : ∀ other e', s.disk other = some e' → put s.disk place (some e) other = some e' := by
      refine fun other e' he' => (put_of_ne fun heq => ?_).trans he'
      rw [heq, hnone] at he'
      cases he'
    refine ⟨h.base.cons trivial fun other heq => ?_, fun hguarded =>
        (h.kept hguarded).step (fun target backup e' haside => ?_) (fun _ _ _ _ he _ => hother _ _ he),
      h.pending, h.backups, fun event hmem => List.mem_cons_of_mem _ (h.known event hmem),
      fun other e' hmem => ?_⟩
    · exact Event.created.inj heq ▸ hchosen
    · obtain ⟨former, hreplaced, hcreated⟩ := haside
      have hreplaced := (List.mem_cons.mp hreplaced).resolve_left fun heq => by cases heq
      refine ⟨former, hreplaced, ?_⟩
      obtain heq | hmem := List.mem_cons.mp hcreated
      · exact h.base.created_of_replaced (Event.created.inj heq ▸ hchosen) hreplaced
      · exact hmem
    · obtain ⟨hcreated, he', hkind'⟩ := h.held other e' hmem
      exact ⟨List.mem_cons_of_mem _ hcreated, hother other e' he', hkind'⟩
  exact At.hold (hplain.note List.mem_cons_self) List.mem_cons_self put_same hkind

end Transitions

section Calm

variable {p : Pull μ} {v : View μ} {α : Type} {x : Run μ α} {place : Path}

/-- What is known stays known. -/
def Calm (p : Pull μ) (v : View μ) (x : Run μ α) : Prop := Meets (At p v) x (fun _ => At p v) (fun _ => At p v)

theorem orOsError_meets {P : State μ → Prop} {Q : α → State μ → Prop} {handler : Text → Run μ α}
    (hx : Meets P x Q (fun _ => P)) (hhandler : ∀ message, Meets P (handler message) Q (fun _ => P)) :
    Meets P (orOsError x handler) Q (fun _ => P) := by
  refine hx.catching fun raised => ?_
  cases raised with
  | fileExists message => exact hhandler message
  | osError message => exact hhandler message
  | other => exact Meets.raise fun _ h => h

theorem pure_calm (a : α) : Calm p v (pure a) := Meets.pure fun _ h => h

theorem raise_calm (e : Raised) : Calm p v (raise e : Run μ α) := Meets.raise fun _ h => h

theorem bind_calm {β : Type} {f : α → Run μ β} (hx : Calm p v x) (hf : ∀ a, Calm p v (f a)) : Calm p v (x >>= f) :=
  Meets.bind hx hf

theorem ask_calm (f : Log μ → α) : Calm p v (ask f) := ask_meets (At.stable p v) f

theorem look_calm (l : Look) (place : Path) : Calm p v (look p.world l place) :=
  (look_meets (At.stable p v) l place).mono (fun _ h => h) (fun _ _ h => h.2) fun _ _ h => h

theorem existsAt_calm (place : Path) : Calm p v (existsAt p.world place) :=
  bind_calm (look_calm _ _) fun _ => pure_calm _

theorem isSymlink_calm (place : Path) : Calm p v (isSymlink p.world place) :=
  bind_calm (look_calm _ _) fun _ => pure_calm _

theorem isDir_calm (place : Path) : Calm p v (isDir p.world place) :=
  bind_calm (look_calm _ _) fun _ => pure_calm _

theorem targetExists_calm (place : Path) : Calm p v (targetExists p place) :=
  bind_calm (existsAt_calm _) fun _ => Meets.ite (fun _ => pure_calm _) fun _ => isSymlink_calm _

theorem checkCancelled_meets {P E : State μ → Prop} (hP : Stable p.world P) (hE : ∀ s, P s → E s) :
    Meets P (checkCancelled p) (fun _ => P) (fun _ => E) := by
  refine Meets.bind ((ask_meets hP _).weaken fun _ => hE) fun _ => ?_
  exact Meets.ite (fun _ => Meets.raise hE) fun _ => Meets.pure fun _ h => h

theorem checkCancelled_calm : Calm p v (checkCancelled p) := checkCancelled_meets (At.stable p v) fun _ h => h

theorem unlink_calm (hcreated : .created place ∈ v.known) (hfree : v.frees place) :
    Calm p v (unlink p.world place) := by
  refine unlink_meets (At.stable p v).bears fun s h => h.placing ?_ rfl fun _ _ _ => hfree
  cases s.disk place with
  | none => exact trivial
  | some e => exact .inl (h.known _ hcreated)

theorem removeTempFile_calm (hcreated : .created place ∈ v.known) (hfree : v.frees place) :
    Calm p v (removeTempFile p place) :=
  orOsError_meets (unlink_calm hcreated hfree) fun _ => pure_calm _

theorem removeTempFiles_calm {places : List Path}
    (hplaces : ∀ place ∈ places, .created place ∈ v.known ∧ v.frees place) : Calm p v (removeTempFiles p places) := by
  induction places with
  | nil => exact pure_calm _
  | cons place places ih =>
    obtain ⟨hplace, hplaces⟩ := List.forall_mem_cons.mp hplaces
    exact bind_calm (removeTempFile_calm hplace.1 hplace.2) fun _ => ih hplaces

theorem climb_calm (names : List Text) : Calm p v (climb p names) := by
  induction names with
  | nil => exact bind_calm (targetExists_calm _) fun _ => Meets.ite (fun _ => pure_calm _) fun _ => pure_calm _
  | cons name names ih =>
    refine bind_calm (targetExists_calm _) fun _ => Meets.ite (fun _ => pure_calm _) fun _ => ?_
    exact bind_calm ih fun _ => pure_calm _

theorem mkdir_learns : Meets (At p v) (mkdir p.world place)
    (fun _ => At p { v with known := .made place :: v.known }) (fun _ => At p v) := by
  refine mkdir_meets (At.stable p v) fun s h hnone => ?_
  refine At.note (h.placing trivial rfl fun e he => ?_) List.mem_cons_self
  rw [hnone] at he
  cases he

theorem makeFolder_learns : Meets (At p v) (makeFolder p place)
    (fun made => At p { v with known := if made then .made place :: v.known else v.known }) (fun _ => At p v) := by
  refine Meets.catching (Meets.bind mkdir_learns fun _ => Meets.pure fun _ h => h) fun raised => ?_
  cases raised with
  | fileExists message =>
    exact Meets.bind (isDir_calm _) fun _ => Meets.ite (fun _ => Meets.pure fun _ h => h) fun _ =>
      Meets.raise fun _ h => h
  | osError message => exact Meets.raise fun _ h => h
  | other => exact Meets.raise fun _ h => h

theorem makeFolders_calm (places : List Path) : Calm p v (makeFolders p places) := by
  induction places with
  | nil => exact pure_calm _
  | cons place places ih =>
    refine Meets.bind makeFolder_learns fun made => ?_
    cases made with
    | false => exact Meets.ite (fun hmade => by cases hmade) fun _ => ih
    | true =>
      refine Meets.ite (fun _ => Meets.bind (Q := fun _ => At p v) ?_ fun _ => ih) fun hmade => absurd rfl hmade
      refine setVars_meets fun s h => ?_
      refine At.mono (h.reset rfl rfl (fun _ hb => hb) rfl fun other hmem => ?_) id rfl rfl
        (fun event hmem => h.known event (List.mem_cons_of_mem _ hmem)) fun _ hx => hx
      rw [add] at hmem
      split_ifs at hmem
      · exact h.base.folders other hmem
      · obtain hmem | hmem := List.mem_append.mp hmem
        · exact h.base.folders other hmem
        · exact List.mem_singleton.mp hmem ▸ h.known _ List.mem_cons_self

theorem ensureDirectory_calm (directory : Path) : Calm p v (ensureDirectory p directory) := by
  refine bind_calm (climb_calm _) fun found => bind_calm (isDir_calm _) fun _ => ?_
  exact Meets.ite (fun _ => makeFolders_calm _) fun _ => raise_calm _

theorem removeFolders_calm {places : List Path} (hplaces : ∀ place ∈ places, .made place ∈ v.known) :
    Calm p v (removeFolders p places) := by
  induction places with
  | nil => exact pure_calm _
  | cons place places ih =>
    obtain ⟨hplace, hplaces⟩ := List.forall_mem_cons.mp hplaces
    refine bind_calm (orOsError_meets (rmdir_meets (At.stable p v) fun s e h he hkind => ?_) fun _ => pure_calm _)
      fun _ => ih hplaces
    refine h.placing (h.known _ hplace) rfl fun e' he' hkind' => ?_
    rw [he, Option.some_inj] at he'
    exact absurd (he' ▸ hkind) hkind'

/-- A step that uses more events of the log. -/
theorem calm_learning {f : α → Run μ Unit} {g : State μ → α} (events : α → Log μ)
    (hevents : ∀ s, At p v s → ∀ event ∈ events (g s), event ∈ s.log)
    (hf : ∀ s, At p v s → Calm p { v with known := events (g s) ++ v.known } (f (g s))) :
    Calm p v (read g >>= f) := by
  intro s h
  rw [bind_ok (read_run g s)]
  have hlearned := h.learn (hevents s h)
  have hforget : ∀ s', At p { v with known := events (g s) ++ v.known } s' → At p v s' := fun s' h' =>
    h'.mono id rfl rfl (fun event hmem => h'.known event (List.mem_append_right _ hmem)) fun _ hx => hx
  exact (hf s h s hlearned).mono (fun _ s' => hforget s') fun _ s' => hforget s'

theorem cleanupCreatedDirectories_calm : Calm p v (cleanupCreatedDirectories p) := by
  refine calm_learning (fun created => created.map .made) (fun s h event hmem => ?_) fun s h => ?_
  · obtain ⟨place, hplace, rfl⟩ := List.mem_map.mp hmem
    exact h.base.folders place hplace
  · refine removeFolders_calm fun place hplace => List.mem_append_left _ (List.mem_map.mpr ⟨place, ?_, rfl⟩)
    exact List.mem_mergeSort.mp hplace

theorem cleanupPendingFiles_calm (hheld : v.held = []) : Calm p v (cleanupPendingFiles p) := by
  refine calm_learning (fun temps => temps.map .created) (fun s h event hmem => ?_) fun s h => ?_
  · obtain ⟨place, hplace, rfl⟩ := List.mem_map.mp hmem
    obtain ⟨⟨target, temp⟩, hpending, rfl⟩ := List.mem_map.mp hplace
    exact (h.base.pending target temp hpending).2.2.2
  · refine removeTempFiles_calm fun place hplace => ⟨List.mem_append_left _ (List.mem_map.mpr ⟨place, hplace, rfl⟩), ?_⟩
    obtain ⟨⟨target, temp⟩, hpending, rfl⟩ := List.mem_map.mp hplace
    refine ⟨fun other hlookup => ?_, fun e hmem => ?_⟩
    · have hbackup := (h.base.backups other temp (h.backups ▸ hlookup)).1
      exact (h.base.pending target temp hpending).2.2.1.ne_backup hbackup rfl
    · rw [hheld] at hmem
      cases hmem

end Calm

end OpenAdb.Transfer.PullSteps
