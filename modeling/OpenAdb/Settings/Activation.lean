import OpenAdb.Settings.Profile
import OpenAdb.Settings.Recovery

namespace OpenAdb.Settings.Activation

open OpenAdb.Lib.Effects OpenAdb.Lib.Faults OpenAdb.Lib.PyText OpenAdb.Settings.Files
  OpenAdb.Settings.Values OpenAdb.Settings.Profile

variable {F β ρ α : Type} {h : Host F β ρ} {plan : Nat → Verdict} {clock : Nat → Nat}
  {p : Prepared β} {s s₀ t : Store F β ρ} {dir : Dir} {f : F} {w : World β Data}

theorem report_disk (records : List RecoveryRecord) (s : Store F β ρ) : (s.report dir records).disk = s.disk := by
  rw [Store.report]
  split
  · rfl
  · split <;> rfl

theorem report_memory (records : List RecoveryRecord) (s : Store F β ρ) :
    (s.report dir records).memory = s.memory := by
  rw [Store.report]
  split
  · rfl
  · split <;> rfl

theorem report_locals (records : List RecoveryRecord) (s : Store F β ρ) :
    (s.report dir records).locals = s.locals := by
  rw [Store.report]
  split
  · rfl
  · split <;> rfl

theorem report_deferred (records : List RecoveryRecord) {s : Store F β ρ} (hnone : s.deferred = none) :
    (s.report dir records).deferred = none := by
  rw [Store.report, hnone]

theorem report_nil (s : Store F β ρ) : s.report dir [] = s := by
  rw [Store.report]
  split
  next hnone => rw [List.map_nil, List.append_nil]
  next path kept hsome =>
    split
    · rw [List.append_nil, ← hsome]
    · rw [List.map_nil, List.append_nil]

theorem isNothing_iff {scope : Scope β} : Scope.isNothing scope = true ↔ scope = nothing := by
  obtain ⟨primary, backup, temporaries, forensic⟩ := scope
  rw [Scope.isNothing, nothing]
  simp only [Bool.and_eq_true, Option.isNone_iff_eq_none, List.isEmpty_iff, Scope.mk.injEq, and_assoc]

theorem world_congr (hdisk : s.disk f = t.disk f) : s.world f = t.world f := by
  rw [Store.world, Store.world, hdisk]

/-- The two settings files of a folder. -/
def files (disk : F → Option (Folder β ρ)) (f : F) : Snapshot β :=
  ((disk f).bind (fun folder => folder.scope.primary), (disk f).bind (fun folder => folder.scope.backup))

theorem files_world (s : Store F β ρ) (f : F) :
    files s.disk f = ((s.world f).scope.primary, (s.world f).scope.backup) := by
  rw [files, Store.world]
  cases s.disk f <;> rfl

theorem files_congr {disk disk' : F → Option (Folder β ρ)} (hdisk : disk f = disk' f) :
    files disk f = files disk' f := by
  rw [files, files, hdisk]

theorem files_none {disk : F → Option (Folder β ρ)} (hnone : disk f = none) : files disk f = (none, none) := by
  rw [files, hnone]
  rfl

theorem does_trivial {σ : Type} {x : Effect Interrupt (Counted σ) α} {P : σ → Prop} :
    Does P x (fun _ _ => True) (fun _ _ => True) := by
  intro s _
  cases hr : x s with
  | mk r t =>
    cases r with
    | ok a => trivial
    | error i => trivial

theorem memory_does {P : Store F β ρ → Prop} {E : Interrupt → Store F β ρ → Prop} :
    Does P memory (fun m s => m = s.memory ∧ P s) E := Does.read (fun _ hs => ⟨rfl, hs⟩)

theorem writeJsonAtomic_writes {c : Codec β Data} {d : Data} {P : World β Data → Prop}
    {history : World β Data → World β Data} (hhistory : ∀ w, (history w).scope = w.scope) :
    Does P (writeJsonAtomic c plan d history) (fun _ w => w.scope.primary = some (c.encode d))
      (fun _ _ => True) := by
  apply (does_trivial (P := P)).bind
  intro _
  apply does_trivial.bind
  intro _
  apply Does.tidying
  · apply does_trivial.bind
    intro _
    apply Does.perform
    · intro w _
      rw [hhistory]
      rfl
    · exact fun _ _ _ => trivial
  · exact fun _ _ => trivial
  · exact fun _ _ _ => trivial
  · exact fun _ _ => trivial

theorem save_writes {c : Codec β Data} {nt : Bool} {d : Data} {P : World β Data → Prop} :
    Does P (Files.save c plan nt clock d) (fun _ w => w.scope.primary = some (c.encode d))
      (fun _ _ => True) := by
  apply (does_trivial (P := P)).bind
  intro before
  apply does_trivial.bind
  intro found
  cases found with
  | true =>
    apply does_trivial.bind
    intro _
    exact writeJsonAtomic_writes (fun _ => rfl)
  | false => exact writeJsonAtomic_writes (fun _ => rfl)

/-- Only the disk and the work folders may differ from a first state. -/
structure Placed (s₀ : Store F β ρ) (disk : F → Option (Folder β ρ)) (s : Store F β ρ) : Prop where
  disk : s.disk = disk
  memory : s.memory = s₀.memory
  locals : s.locals = s₀.locals
  deferred : s.deferred = s₀.deferred

/-- What a new profile folder is made of. -/
def candidateOf (h : Host F β ρ) (s₀ : Store F β ρ) : Option Dir → Option (Folder β ρ)
  | none => some ⟨nothing, h.empty⟩
  | some dir => s₀.disk (h.resolve dir)

theorem exists?_does : Does (Placed s₀ s₀.disk) (exists? h plan dir)
    (fun found s => found = (s₀.disk (h.resolve dir)).isSome ∧ Placed s₀ s₀.disk s)
    (fun _ => Placed s₀ s₀.disk) := by
  apply Does.consult
  · intro s hs
    rw [hs.disk]
    exact ⟨rfl, hs⟩
  · exact fun _ _ => id

/-- Inside the `try` block: only the target folder changes, and the base folder once the commit has
started. -/
structure Working (h : Host F β ρ) (p : Prepared β) (s₀ : Store F β ρ) (created commit : Bool)
    (s : Store F β ρ) : Prop where
  others : ∀ f, f ≠ h.resolve p.target → (commit = true → f ≠ h.resolve []) → s.disk f = s₀.disk f
  there : (s.disk (h.resolve p.target)).isSome = true
  absent : created = (s₀.disk (h.resolve p.target)).isNone
  locals : s.locals = { s₀.locals with
    candidateCreated := created, recoveryTransactionStarted := created, globalCommitStarted := commit }
  configDir : s.memory.configDir = p.target
  serial : s.memory.activeProfileSerial = p.serial
  kind : s.memory.activeProfileKind = some p.kind
  deferred : s₀.deferred = none → created = false → s.deferred = none

def Broken (h : Host F β ρ) (p : Prepared β) (s₀ s : Store F β ρ) : Prop :=
  Placed s₀ s₀.disk s ∨ ∃ created commit, Working h p s₀ created commit s

variable {created commit : Bool} {R : Data → Prop}

theorem Working.broken (hs : Working h p s₀ created commit s) : Broken h p s₀ s := .inr ⟨created, commit, hs⟩

theorem Working.withData (hs : Working h p s₀ created commit s) (d : Data) :
    Working h p s₀ created commit { s with memory := { s.memory with data := d } } :=
  ⟨hs.others, hs.there, hs.absent, hs.locals, hs.configDir, hs.serial, hs.kind, hs.deferred⟩

/-- With a property of the settings in memory. -/
def WorkingOn (h : Host F β ρ) (p : Prepared β) (s₀ : Store F β ρ) (created commit : Bool)
    (R : Data → Prop) (s : Store F β ρ) : Prop := Working h p s₀ created commit s ∧ R s.memory.data

theorem setData_does {R' : Data → Prop} {g : Data → Data} (hg : ∀ d, R d → R' (g d)) :
    Does (WorkingOn h p s₀ created commit R) (setData g) (fun _ => WorkingOn h p s₀ created commit R')
      (fun _ => Broken h p s₀) := by
  rw [setData, setMemory]
  exact Does.note (fun _ hs => ⟨hs.1.withData _, hg _ hs.2⟩)

theorem setData_any (g : Data → Data) : Does (WorkingOn h p s₀ created commit R) (setData g)
    (fun _ => WorkingOn h p s₀ created commit fun _ => True) (fun _ => Broken h p s₀) :=
  setData_does (fun _ _ => trivial)

/-- What the settings of an activated profile say. -/
structure Chosen (p : Prepared β) (d : Data) : Prop where
  serial : d .activeDeviceSerial = some (.str p.serial)
  last : d .lastConnectedDeviceSerial = some (.str p.serial)
  kind : d .deviceProfileKind = some (.str p.kind.text)
  backend : ∀ b, p.pending = some b →
    d .privilegeBackend = some (.str b.text) ∧ d .rootModeEnabled = some (.bool (b = .root))

theorem Chosen.set_folder {d : Data} (hd : Chosen p d) (key : FolderKey) (value : PyObject) :
    Chosen p (set d (.folder key) value) := by
  refine ⟨?_, ?_, ?_, fun b hb => ⟨?_, ?_⟩⟩
  · simpa using hd.serial
  · simpa using hd.last
  · simpa using hd.kind
  · simpa using (hd.backend b hb).1
  · simpa using (hd.backend b hb).2

theorem profileData_chosen (source : Option Dir) (d : Data) : Chosen p (profileData h p source d) := by
  constructor <;> cases hp : p.pending <;> by_cases hname : p.displayName.isEmpty = true <;>
    simp_all [profileData, chosen]

theorem ensureDefaultFolder_does (key : FolderKey) :
    Does (WorkingOn h p s₀ created commit (Chosen p)) (ensureDefaultFolder h plan key)
      (fun _ => WorkingOn h p s₀ created commit (Chosen p)) (fun _ => Broken h p s₀) := by
  apply memory_does.bind
  intro m
  have hset : Does (fun s => m = s.memory ∧ WorkingOn h p s₀ created commit (Chosen p) s)
      (setMemory (withFolder h key)) (fun _ => WorkingOn h p s₀ created commit (Chosen p))
      (fun _ => Broken h p s₀) := by
    rw [setMemory]
    apply Does.note
    intro s ⟨_, hs⟩
    rw [withFolder]
    split
    · exact ⟨hs.1.withData _, hs.2.set_folder key _⟩
    · exact hs
  apply hset.bind
  intro _
  have hensured : Does (WorkingOn h p s₀ created commit (Chosen p)) (ensureDir plan)
      (fun _ => WorkingOn h p s₀ created commit (Chosen p)) (fun _ => Broken h p s₀) :=
    Does.perform (fun _ => id) (fun _ _ hs => hs.1.broken)
  apply hensured.bind
  intro _
  exact Does.pure (fun _ => id)

/-- The profile folder that an activation works on. -/
def openedFolder (h : Host F β ρ) (s₀ : Store F β ρ) (target : Dir) (r : Option Dir × Bool) :
    Option (Folder β ρ) :=
  if r.2 then candidateOf h s₀ r.1 else s₀.disk (h.resolve target)

structure Migrated (h : Host F β ρ) (s₀ : Store F β ρ) (serial : Text) (kind : Kind) (target : Dir)
    (r : Option Dir × Bool) : Prop where
  created : r.2 = (s₀.disk (h.resolve target)).isNone
  source : ∀ dir, r.1 = some dir → r.2 = true ∧ (dir = legacyDeviceProfileDir h serial ∨
    dir = deviceProfileDir h serial (oppositeProfileKind kind))
  opened : (openedFolder h s₀ target r).isSome = true

/-- A migrated profile has a source, and had no folder before. -/
def MigratedFrom (h : Host F β ρ) (p : Prepared β) (s₀ : Store F β ρ) (source : Option Dir) : Prop :=
  ∀ dir, source = some dir → s₀.disk (h.resolve p.target) = none ∧ (s₀.disk (h.resolve dir)).isSome = true ∧
    (dir = legacyDeviceProfileDir h p.serial ∨ dir = deviceProfileDir h p.serial (oppositeProfileKind p.kind))

theorem Migrated.migratedFrom {r : Option Dir × Bool} (hr : Migrated h s₀ p.serial p.kind p.target r) :
    MigratedFrom h p s₀ r.1 := by
  intro dir hdir
  obtain ⟨hcreated, hsource⟩ := hr.source dir hdir
  refine ⟨Option.isNone_iff_eq_none.mp (hr.created.symm.trans hcreated), ?_, hsource⟩
  have hopened := hr.opened
  rwa [openedFolder, if_pos hcreated, hdir] at hopened

/-- The profile is complete, and only the global settings are left. -/
structure Ready (h : Host F β ρ) (p : Prepared β) (s₀ : Store F β ρ) (created : Bool) (s : Store F β ρ) :
    Prop where
  working : Working h p s₀ created true s
  chosen : Chosen p s.memory.data
  written : (s.world (h.resolve p.target)).scope.primary = some (h.encode s.memory.data)

/-- What the global settings say after an activation. -/
structure Pointed (p : Prepared β) (g : Data) : Prop where
  serial : g .activeDeviceSerial = some (.str p.serial)
  last : g .lastConnectedDeviceSerial = some (.str p.serial)
  kind : g .deviceProfileKind = some (.str p.kind.text)
  cleared : p.pending.isSome = true → g .pendingPrivilegeBackend = some (.str []) ∧
    g .privilegeBackend = some (.str Backend.standard.text) ∧ g .rootModeEnabled = some (.bool false)

theorem pointer_pointed (d : Data) : Pointed p (pointer p.serial p.displayName p.kind p.pending.isSome d) := by
  constructor <;> cases hp : p.pending <;> by_cases hname : p.displayName.isEmpty = true <;>
    simp_all [pointer, clearedChoice, Profile.chosen]

variable [DecidableEq F]

theorem put_disk : (s.put h dir w).disk =
    Function.update s.disk (h.resolve dir) (filled h w.scope (s.disk (h.resolve dir))) := report_disk _ _

theorem put_memory : (s.put h dir w).memory = s.memory := report_memory _ _

theorem put_locals : (s.put h dir w).locals = s.locals := report_locals _ _

theorem put_deferred (hnone : s.deferred = none) : (s.put h dir w).deferred = none := report_deferred _ hnone

theorem put_other (hf : f ≠ h.resolve dir) : (s.put h dir w).disk f = s.disk f := by
  rw [put_disk, Function.update_of_ne hf]

theorem put_there (hthere : (s.disk (h.resolve dir)).isSome = true) :
    ((s.put h dir w).disk (h.resolve dir)).isSome = true := by
  obtain ⟨folder, hfolder⟩ := Option.isSome_iff_exists.mp hthere
  rw [put_disk, Function.update_self, hfolder]
  rfl

/-- What was put in a folder is found there. -/
theorem put_world : ((s.put h dir w).world (h.resolve dir)).scope = w.scope := by
  rw [Store.world, put_disk, Function.update_self]
  cases s.disk (h.resolve dir) with
  | some folder => rfl
  | none =>
    rw [filled]
    split
    next hnothing => exact (isNothing_iff.mp hnothing).symm
    next => rfl

theorem put_self : s.put h dir (s.world (h.resolve dir)) = s := by
  have hsame : filled h (s.world (h.resolve dir)).scope (s.disk (h.resolve dir)) = s.disk (h.resolve dir) := by
    rw [Store.world]
    cases s.disk (h.resolve dir) with
    | some folder => rfl
    | none => rfl
  rw [Store.put, hsame, Function.update_eq_self]
  exact report_nil s

theorem onPath_does {P : Store F β ρ → Prop} {Q : α → Store F β ρ → Prop} {E : Interrupt → Store F β ρ → Prop}
    {x : Files.Disk β Data α}
    (hx : ∀ s, P s → Does (fun w => w = s.world (h.resolve dir)) x (fun a w => Q a (s.put h dir w))
      (fun i w => E i (s.put h dir w))) : Does P (onPath h dir x) Q E := by
  intro s hs
  have hrun := hx s.value hs ⟨s.value.world (h.resolve dir), s.ops⟩ rfl
  rw [onPath, within]
  cases hr : x ⟨s.value.world (h.resolve dir), s.ops⟩ with
  | mk r t =>
    rw [hr] at hrun
    cases r with
    | ok a => exact hrun
    | error i => exact hrun

/-- Whatever happens to the settings files of one folder. -/
theorem onPath_frame {P : Store F β ρ → Prop} {x : Files.Disk β Data α}
    (hput : ∀ s w, P s → P (s.put h dir w)) :
    Does P (onPath h dir x) (fun _ => P) (fun _ => P) := by
  apply onPath_does
  intro s hs
  exact does_trivial.mono (fun _ => id) (fun _ w _ => hput s w hs) (fun _ w _ => hput s w hs)

theorem publishProfileCandidate_does {target : Dir} {source : Option Dir} {folder : Folder β ρ}
    (hfolder : candidateOf h s₀ source = some folder) :
    Does (Placed s₀ s₀.disk) (publishProfileCandidate h plan target source)
      (fun _ => Placed s₀ (Function.update s₀.disk (h.resolve target) (candidateOf h s₀ source)))
      (fun _ => Placed s₀ s₀.disk) := by
  have hmade : Does (Placed s₀ s₀.disk)
      (perform plan (fun s => { s with work := ⟨nothing, h.empty⟩ :: s.work }))
      (fun _ s => s.work.head? = some ⟨nothing, h.empty⟩ ∧ Placed s₀ s₀.disk s)
      (fun _ => Placed s₀ s₀.disk) :=
    Does.perform (fun _ hs => ⟨rfl, ⟨hs.disk, hs.memory, hs.locals, hs.deferred⟩⟩) (fun _ _ => id)
  have hcopied : Does (fun s => s.work.head? = some ⟨nothing, h.empty⟩ ∧ Placed s₀ s₀.disk s)
      (copySource h plan source) (fun _ s => s.work.head? = some folder ∧ Placed s₀ s₀.disk s)
      (fun _ => Placed s₀ s₀.disk) := by
    cases source with
    | none =>
      cases hfolder
      exact Does.pure (fun _ => id)
    | some dir =>
      change s₀.disk (h.resolve dir) = some folder at hfolder
      apply Does.perform
      · intro s hs
        have hsource : s.disk (h.resolve dir) = some folder := by rw [hs.2.disk, hfolder]
        rw [copyTree, hsource]
        exact ⟨rfl, ⟨hs.2.disk, hs.2.memory, hs.2.locals, hs.2.deferred⟩⟩
      · exact fun _ _ hs => hs.2
  have hrenamed : Does (fun s => s.work.head? = some folder ∧ Placed s₀ s₀.disk s)
      (perform plan (renameWork h target))
      (fun _ => Placed s₀ (Function.update s₀.disk (h.resolve target) (some folder)))
      (fun _ => Placed s₀ s₀.disk) := by
    apply Does.perform
    · intro s hs
      refine ⟨?_, hs.2.memory, hs.2.locals, hs.2.deferred⟩
      rw [renameWork, hs.1, hs.2.disk]
    · exact fun _ _ hs => hs.2
  rw [hfolder]
  apply hmade.bind
  intro _
  apply Does.cleaning
  · apply hcopied.bind
    exact fun _ => hrenamed
  · exact fun _ hs => ⟨hs.disk, hs.memory, hs.locals, hs.deferred⟩
  · exact fun _ => id

/-- By induction on the sources that are left. -/
theorem migrateFrom_does {target : Dir} (sources : List Dir) (failed : Bool) :
    Does (Placed s₀ s₀.disk) (migrateFrom h plan target sources failed)
      (fun source s => ((∀ dir, source = some dir → dir ∈ sources) ∧ (candidateOf h s₀ source).isSome = true) ∧
        Placed s₀ (Function.update s₀.disk (h.resolve target) (candidateOf h s₀ source)) s)
      (fun _ => Placed s₀ s₀.disk) := by
  induction sources generalizing failed with
  | nil =>
    cases failed with
    | true => exact Meets.raise (fun _ => id)
    | false =>
      have hcandidate : candidateOf h s₀ none = some ⟨nothing, h.empty⟩ := rfl
      apply (publishProfileCandidate_does hcandidate).bind
      intro _
      exact Does.pure (fun _ hs => ⟨⟨nofun, rfl⟩, hs⟩)
  | cons source sources ih =>
    have hlater (failed : Bool) : Does (Placed s₀ s₀.disk) (migrateFrom h plan target sources failed)
        (fun chosen s => ((∀ dir, chosen = some dir → dir ∈ source :: sources) ∧
            (candidateOf h s₀ chosen).isSome = true) ∧
          Placed s₀ (Function.update s₀.disk (h.resolve target) (candidateOf h s₀ chosen)) s)
        (fun _ => Placed s₀ s₀.disk) := by
      apply (ih failed).mono (fun _ => id) _ (fun _ _ => id)
      intro chosen s ⟨⟨hmem, hsome⟩, hs⟩
      exact ⟨⟨fun dir hdir => List.mem_cons_of_mem source (hmem dir hdir), hsome⟩, hs⟩
    apply exists?_does.bind
    intro found
    apply Does.of_fact
    intro hfound
    cases found with
    | false => exact hlater failed
    | true =>
      obtain ⟨folder, hfolder⟩ := Option.isSome_iff_exists.mp hfound.symm
      have hcandidate : candidateOf h s₀ (some source) = some folder := hfolder
      have hattempted : Does (Placed s₀ s₀.disk) (attempt (publishProfileCandidate h plan target (some source)))
          (fun result => Placed s₀ (if result.isSome then
            Function.update s₀.disk (h.resolve target) (candidateOf h s₀ (some source)) else s₀.disk))
          (fun _ => Placed s₀ s₀.disk) :=
        (publishProfileCandidate_does hcandidate).attempt (fun _ _ => id) (fun _ => id) (fun _ => id)
      apply hattempted.bind
      intro result
      cases result with
      | none => exact hlater true
      | some _ =>
        apply Does.pure
        intro s hs
        refine ⟨⟨?_, Option.isSome_of_eq_some hcandidate⟩, hs⟩
        intro dir hdir
        cases hdir
        exact List.mem_cons_self

theorem migrateDeviceProfile_does {serial : Text} {kind : Kind} {target : Dir} :
    Does (Placed s₀ s₀.disk) (migrateDeviceProfile h plan serial kind target)
      (fun r s => Migrated h s₀ serial kind target r ∧
        Placed s₀ (Function.update s₀.disk (h.resolve target) (openedFolder h s₀ target r)) s)
      (fun _ => Placed s₀ s₀.disk) := by
  apply exists?_does.bind
  intro found
  apply Does.of_fact
  intro hfound
  cases found with
  | true =>
    apply Does.pure
    intro s hs
    refine ⟨⟨?_, nofun, hfound.symm⟩, ?_⟩
    · rw [Option.isNone_eq_false_iff.mpr hfound.symm]
    · rw [openedFolder, if_neg nofun, Function.update_eq_self]
      exact hs
  | false =>
    have hensured : Does (Placed s₀ s₀.disk) (ensureDir plan) (fun _ => Placed s₀ s₀.disk)
        (fun _ => Placed s₀ s₀.disk) := Does.perform (fun _ => id) (fun _ _ => id)
    apply hensured.bind
    intro _
    apply (migrateFrom_does _ false).bind
    intro source
    apply Does.of_fact
    intro ⟨hmem, hsome⟩
    apply Does.pure
    intro s hs
    refine ⟨⟨?_, ?_, hsome⟩, hs⟩
    · rw [Option.isSome_eq_false_iff.mp hfound.symm]
    · intro dir hdir
      exact ⟨rfl, by simpa using hmem dir hdir⟩

theorem Working.put_target (hs : Working h p s₀ created commit s) (w : World β Data) :
    Working h p s₀ created commit (s.put h p.target w) where
  others f hf hcommit := (put_other hf).trans (hs.others f hf hcommit)
  there := put_there hs.there
  absent := hs.absent
  locals := put_locals.trans hs.locals
  configDir := (congrArg Memory.configDir put_memory).trans hs.configDir
  serial := (congrArg Memory.activeProfileSerial put_memory).trans hs.serial
  kind := (congrArg Memory.activeProfileKind put_memory).trans hs.kind
  deferred hnone hcreated := put_deferred (hs.deferred hnone hcreated)

theorem Working.put_base (hown : h.resolve p.target ≠ h.resolve []) (hs : Working h p s₀ created true s)
    (w : World β Data) : Working h p s₀ created true (s.put h [] w) where
  others f hf hcommit := (put_other (hcommit rfl)).trans (hs.others f hf hcommit)
  there := by
    rw [put_other hown]
    exact hs.there
  absent := hs.absent
  locals := put_locals.trans hs.locals
  configDir := (congrArg Memory.configDir put_memory).trans hs.configDir
  serial := (congrArg Memory.activeProfileSerial put_memory).trans hs.serial
  kind := (congrArg Memory.activeProfileKind put_memory).trans hs.kind
  deferred hnone hcreated := put_deferred (hs.deferred hnone hcreated)

theorem WorkingOn.put_target (hs : WorkingOn h p s₀ created commit R s) (w : World β Data) :
    WorkingOn h p s₀ created commit R (s.put h p.target w) := by
  refine ⟨hs.1.put_target w, ?_⟩
  rw [put_memory]
  exact hs.2

theorem onTarget_does {x : Files.Disk β Data α} {dir : Dir} (hdir : dir = p.target) :
    Does (WorkingOn h p s₀ created commit R) (onPath h dir x)
      (fun _ => WorkingOn h p s₀ created commit R) (fun _ => Broken h p s₀) := by
  subst hdir
  exact (onPath_frame (fun _ w hs => hs.put_target w)).mono (fun _ => id) (fun _ _ => id)
    (fun _ _ hs => hs.1.broken)

theorem save_does : Does (WorkingOn h p s₀ created commit R) (save h plan clock)
    (fun _ s => WorkingOn h p s₀ created commit R s ∧
      (s.world (h.resolve p.target)).scope.primary = some (h.encode s.memory.data))
    (fun _ => Broken h p s₀) := by
  apply memory_does.bind
  intro m
  apply onPath_does
  intro s ⟨hm, hs⟩
  have hpath : m.path = p.target := by rw [hm, Memory.path, hs.1.configDir]
  rw [hpath]
  apply save_writes.mono (fun _ => id)
  · intro _ w hw
    refine ⟨hs.put_target w, ?_⟩
    rw [put_world, put_memory, hw, hm]
    rfl
  · exact fun _ w _ => (hs.1.put_target w).broken

theorem load_does : Does (WorkingOn h p s₀ created commit fun _ => True) (load h plan clock)
    (fun _ => WorkingOn h p s₀ created commit fun _ => True) (fun _ => Broken h p s₀) := by
  apply memory_does.bind
  intro m
  have hloaded : Does (fun s => m = s.memory ∧ WorkingOn h p s₀ created commit (fun _ => True) s)
      (loadSettingsPath h plan clock m.path)
      (fun _ => WorkingOn h p s₀ created commit fun _ => True) (fun _ => Broken h p s₀) := by
    apply Does.of_pre (φ := m.path = p.target)
    · intro s ⟨hm, hs⟩
      rw [hm, Memory.path, hs.1.configDir]
    · intro hpath
      exact (onTarget_does hpath).mono (fun _ hs => hs.2) (fun _ _ => id) (fun _ _ => id)
  apply hloaded.bind
  intro loaded
  cases loaded with
  | none => exact Does.pure (fun _ => id)
  | some d => exact setData_any _

theorem openProfile_does : Does (WorkingOn h p s₀ created commit fun _ => True) (openProfile h plan clock p)
    (fun _ => WorkingOn h p s₀ created commit fun _ => True) (fun _ => Broken h p s₀) := by
  apply (onTarget_does rfl).bind
  intro found
  cases found with
  | true =>
    apply (setData_any _).bind
    intro _
    exact load_does
  | false =>
    rw [if_neg nofun]
    exact setData_any _

theorem ensureDefaultFolders_does :
    Does (WorkingOn h p s₀ created commit (Chosen p)) (ensureDefaultFolders h plan clock)
      (fun _ => WorkingOn h p s₀ created commit (Chosen p)) (fun _ => Broken h p s₀) := by
  apply (ensureDefaultFolder_does .backups).bind
  intro backups
  apply (ensureDefaultFolder_does .temp).bind
  intro temp
  apply (ensureDefaultFolder_does .logs).bind
  intro logs
  by_cases hchanged : (backups || temp || logs) = true
  · rw [if_pos hchanged]
    exact save_does.mono (fun _ => id) (fun _ _ hs => hs.1) (fun _ _ => id)
  · rw [if_neg hchanged]
    exact Does.pure (fun _ => id)

theorem Ready.put_base (hown : h.resolve p.target ≠ h.resolve []) (hs : Ready h p s₀ created s)
    (w : World β Data) : Ready h p s₀ created (s.put h [] w) := by
  refine ⟨hs.working.put_base hown w, ?_, ?_⟩
  · rw [put_memory]
    exact hs.chosen
  · rw [put_memory, world_congr (put_other hown)]
    exact hs.written

theorem writeGlobalActiveDevice_does (hown : h.resolve p.target ≠ h.resolve []) :
    Does (Ready h p s₀ created)
      (writeGlobalActiveDevice h plan clock p.serial p.displayName p.kind p.pending.isSome)
      (fun _ s => Ready h p s₀ created s ∧ ∃ g, Pointed p g ∧
        (s.world (h.resolve [])).scope.primary = some (h.encode g)) (fun _ => Broken h p s₀) := by
  have hloaded : Does (Ready h p s₀ created) (loadSettingsPath h plan clock [])
      (fun _ => Ready h p s₀ created) (fun _ => Broken h p s₀) :=
    (onPath_frame (fun _ w hs => hs.put_base hown w)).mono (fun _ => id) (fun _ _ => id)
      (fun _ _ hs => hs.working.broken)
  apply hloaded.bind
  intro loaded
  apply onPath_does
  intro s hs
  apply (writeJsonAtomic_writes (fun _ => rfl)).mono (fun _ => id)
  · intro _ w hw
    refine ⟨hs.put_base hown w, _,
      pointer_pointed (merge (defaultSettings h.toTables) (loaded.getD noValues)), ?_⟩
    rw [put_world, hw]
    rfl
  · exact fun _ w _ => (hs.put_base hown w).working.broken

theorem enterProfile_working {r : Option Dir × Bool} (hr : Migrated h s₀ p.serial p.kind p.target r)
    (hlocals : s₀.locals.globalCommitStarted = false)
    (hs : Placed s₀ (Function.update s₀.disk (h.resolve p.target) (openedFolder h s₀ p.target r)) s) :
    Working h p s₀ r.2 false (enterProfile p r.2 s) where
  others f hf _ := by
    change s.disk f = s₀.disk f
    rw [hs.disk, Function.update_of_ne hf]
  there := by
    change (s.disk (h.resolve p.target)).isSome = true
    rw [hs.disk, Function.update_self]
    exact hr.opened
  absent := hr.created
  locals := by
    change { s.locals with candidateCreated := r.2, recoveryTransactionStarted := r.2 } = _
    rw [hs.locals, ← hlocals]
  configDir := rfl
  serial := rfl
  kind := rfl
  deferred hnone hcreated := by
    change (if r.2 then some (p.target, []) else s.deferred) = none
    rw [hcreated, if_neg nofun, hs.deferred, hnone]

theorem commitProfile_does (hown : h.resolve p.target ≠ h.resolve [])
    (hlocals : s₀.locals.globalCommitStarted = false) :
    Does (Placed s₀ s₀.disk) (commitProfile h plan clock p)
      (fun source s => MigratedFrom h p s₀ source ∧ (∃ created, Ready h p s₀ created s) ∧
        ∃ g, Pointed p g ∧ (s.world (h.resolve [])).scope.primary = some (h.encode g))
      (fun _ => Broken h p s₀) := by
  apply (migrateDeviceProfile_does.mono (fun _ => id) (fun _ _ => id) (fun _ _ hs => .inl hs)).bind
  intro r
  obtain ⟨source, created⟩ := r
  apply Does.of_fact
  intro hr
  have hentered : Does
      (Placed s₀ (Function.update s₀.disk (h.resolve p.target) (openedFolder h s₀ p.target (source, created))))
      (note (enterProfile p created)) (fun _ => WorkingOn h p s₀ created false fun _ => True)
      (fun _ => Broken h p s₀) := Does.note (fun _ hs => ⟨enterProfile_working hr hlocals hs, trivial⟩)
  apply hentered.bind
  intro _
  apply openProfile_does.bind
  intro _
  apply (setData_does (fun d _ => profileData_chosen source d)).bind
  intro _
  apply ensureDefaultFolders_does.bind
  intro _
  apply save_does.bind
  intro _
  have hstarted : Does (fun s => WorkingOn h p s₀ created false (Chosen p) s ∧
        (s.world (h.resolve p.target)).scope.primary = some (h.encode s.memory.data))
      (note startGlobalCommit) (fun _ => Ready h p s₀ created) (fun _ => Broken h p s₀) := by
    apply Does.note
    intro s ⟨hs, hwritten⟩
    refine ⟨⟨fun f hf _ => hs.1.others f hf nofun, hs.1.there, hs.1.absent, ?_, hs.1.configDir, hs.1.serial,
      hs.1.kind, hs.1.deferred⟩, hs.2, hwritten⟩
    change { s.locals with globalCommitStarted := true } = _
    rw [hs.1.locals]
  apply hstarted.bind
  intro _
  apply (writeGlobalActiveDevice_does hown).bind
  intro _
  exact Does.pure (fun _ hs => ⟨hr.migratedFrom, ⟨created, hs.1⟩, hs.2⟩)

end OpenAdb.Settings.Activation
