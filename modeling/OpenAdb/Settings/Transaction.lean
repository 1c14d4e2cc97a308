import OpenAdb.Settings.Rollback

namespace OpenAdb.Settings.Transaction

open OpenAdb.Lib.Effects OpenAdb.Lib.Faults OpenAdb.Lib.PyText OpenAdb.Settings.Files
  OpenAdb.Settings.Values OpenAdb.Settings.Profile OpenAdb.Settings.Activation
  OpenAdb.Settings.Rollback
open OpenAdb.Settings.Recovery (readFile_stays)

variable {F β ρ : Type} {h : Host F β ρ} {plan : Nat → Verdict} {clock : Nat → Nat}
  {p : Prepared β} {s s₀ t : Store F β ρ} {dir target : Dir} {m : Memory} {pending : Option Backend}
  {serial displayName : Text} {kind : Kind}

/-- Before the `try` block: nothing but the disk and the published recoveries changes. -/
structure Before (m : Memory) (locals : Locals F β ρ) (s : Store F β ρ) : Prop where
  memory : s.memory = m
  locals : s.locals = locals
  deferred : s.deferred = none

variable {locals : Locals F β ρ}

/-- The variables of an activation before its `try` block begins. -/
def started (F β ρ : Type) (pending : Option Backend) : Locals F β ρ := ⟨pending, false, false, false, none⟩

def trying (pending : Option Backend) (disk : F → Option (Folder β ρ)) : Locals F β ρ :=
  ⟨pending, false, false, false, some disk⟩

structure PreparedFor (serial displayName : Text) (kind : Kind) (target : Dir) (pending : Option Backend)
    (m : Memory) (p : Prepared β) : Prop where
  serial : p.serial = serial
  displayName : p.displayName = displayName
  kind : p.kind = kind
  target : p.target = target
  pending : p.pending = pending
  previous : p.previous = m

/-- After an activation that raised. -/
structure Failed (h : Host F β ρ) (m : Memory) (target : Dir) (active : Prop) (t : Store F β ρ) : Prop where
  memory : t.memory = m
  deferred : t.deferred = none
  rolledBack : ∀ disk₀, t.locals.tryDisk = some disk₀ →
    RolledBack h target t.locals.pendingBackend active disk₀ t.disk

/-- After an activation that returned. -/
structure Committed (h : Host F β ρ) (serial : Text) (kind : Kind) (target : Dir) (active : Prop)
    (t : Store F β ρ) : Prop where
  configDir : t.memory.configDir = target
  activeSerial : t.memory.activeProfileSerial = serial
  activeKind : t.memory.activeProfileKind = some kind
  profile : (files t.disk (h.resolve target)).1.bind h.decode = some t.memory.data
  chosen : ∀ b, t.locals.pendingBackend = some b → t.memory.data .privilegeBackend = some (.str b.text) ∧
    t.memory.data .rootModeEnabled = some (.bool (b = .root))
  global : ∃ g, (files t.disk (h.resolve [])).1.bind h.decode = some g ∧
    (t.locals.pendingBackend.isSome = true → g .pendingPrivilegeBackend = some (.str []) ∧
      g .privilegeBackend = some (.str Backend.standard.text) ∧ g .rootModeEnabled = some (.bool false)) ∧
    (¬active → g .activeDeviceSerial = some (.str serial) ∧
      g .lastConnectedDeviceSerial = some (.str serial) ∧ g .deviceProfileKind = some (.str kind.text))

theorem Before.failed {h : Host F β ρ} {active : Prop} (hs : Before m (started F β ρ pending) s) :
    Failed h m target active s := by
  refine ⟨hs.memory, hs.deferred, ?_⟩
  rw [hs.locals]
  nofun

/-- The folders of the device are not the base folder. -/
def OwnFolders (h : Host F β ρ) (serial : Text) : Prop :=
  (∀ kind, h.resolve (deviceProfileDir h serial kind) ≠ h.resolve []) ∧
    h.resolve (legacyDeviceProfileDir h serial) ≠ h.resolve []

theorem ready_committed {created : Bool} {active : Prop} (hp : PreparedFor serial displayName kind target pending m p)
    (hlocals : s₀.locals = trying pending s₀.disk) (hs : Ready h p s₀ created s)
    (hglobal : ∃ g, Pointed p g ∧ (s.world (h.resolve [])).scope.primary = some (h.encode g)) :
    Committed h serial kind target active s := by
  obtain ⟨g, hpointed, hg⟩ := hglobal
  obtain ⟨rfl, rfl, rfl, rfl, rfl, rfl⟩ := hp
  have hpending : s.locals.pendingBackend = p.pending := by rw [hs.working.locals, hlocals]; rfl
  refine ⟨hs.working.configDir, hs.working.serial, hs.working.kind, ?_, ?_, g, ?_, ?_, ?_⟩
  · rw [files_world, hs.written]
    exact h.decode_encode _
  · rw [hpending]
    exact hs.chosen.backend
  · rw [files_world, hg]
    exact h.decode_encode g
  · rw [hpending]
    exact hpointed.cleared
  · exact fun _ => ⟨hpointed.serial, hpointed.last, hpointed.kind⟩

/-- Changes elsewhere. -/
theorem Committed.congr {active : Prop} (hs : Committed h serial kind target active s)
    (hmemory : t.memory = s.memory) (hlocals : t.locals = s.locals)
    (htarget : t.disk (h.resolve target) = s.disk (h.resolve target))
    (hbase : t.disk (h.resolve []) = s.disk (h.resolve [])) : Committed h serial kind target active t := by
  obtain ⟨hdir, hserial, hkind, hprofile, hchosen, hglobal⟩ := hs
  rw [← hmemory] at hdir hserial hkind hprofile hchosen
  rw [← hlocals] at hchosen hglobal
  rw [← files_congr htarget] at hprofile
  rw [← files_congr hbase] at hglobal
  exact ⟨hdir, hserial, hkind, hprofile, hchosen, hglobal⟩

/-- The rollback leaves the first of the variables alone. -/
theorem broken_locals (hs : Broken h p s₀ s) : s.locals.pendingBackend = s₀.locals.pendingBackend ∧
    s.locals.tryDisk = s₀.locals.tryDisk := by
  obtain hs | ⟨created, commit, hs⟩ := hs
  · rw [hs.locals]
    exact ⟨rfl, rfl⟩
  · rw [hs.locals]
    exact ⟨rfl, rfl⟩

variable [DecidableEq F]

theorem Before.put (hs : Before m locals s) (w : World β Data) : Before m locals (s.put h dir w) :=
  ⟨put_memory.trans hs.memory, put_locals.trans hs.locals, put_deferred hs.deferred⟩

theorem onPath_before {α : Type} {x : Files.Disk β Data α} :
    Does (Before m locals) (onPath h dir x) (fun _ => Before m locals) (fun _ => Before m locals) :=
  onPath_frame (fun _ w hs => hs.put w)

theorem save_before : Does (Before m locals) (save h plan clock) (fun _ => Before m locals)
    (fun _ => Before m locals) := by
  apply memory_does.bind
  intro _
  exact onPath_before.mono (fun _ hs => hs.2) (fun _ _ => id) (fun _ _ => id)

theorem snapshotSettingsFiles_does {P : Store F β ρ → Prop} :
    Does P (snapshotSettingsFiles h plan dir)
      (fun snapshot s => snapshot = files s.disk (h.resolve dir) ∧ P s) (fun _ => P) := by
  apply onPath_does
  intro s hs
  have hE (w : World β Data) (hw : w = s.world (h.resolve dir)) : P (s.put h dir w) := by
    rw [hw, put_self]
    exact hs
  have hread (file : File) : Does (fun w => w = s.world (h.resolve dir)) (readFile plan file)
      (fun content w => content = (s.world (h.resolve dir)).scope.get file ∧ w = s.world (h.resolve dir))
      (fun _ w => P (s.put h dir w)) := readFile_stays file (fun _ => hE _ rfl)
  apply (hread .primary).bind
  intro primary
  apply Does.of_fact
  intro hprimary
  apply (hread .backup).bind
  intro backup
  apply Does.of_fact
  intro hbackup
  apply Does.pure
  intro w hw
  refine ⟨?_, hE w hw⟩
  rw [hw, put_self, files_world, hprimary, hbackup]
  rfl

/-- The snapshot of the target, which is only taken when a choice is pending. -/
structure TargetSnapshot (h : Host F β ρ) (target : Dir) (pending : Option Backend)
    (disk : F → Option (Folder β ρ)) (snapshot : Option (Snapshot β)) : Prop where
  there : ∀ files', snapshot = some files' → files' = files disk (h.resolve target) ∧
    disk (h.resolve target) ≠ none
  taken : pending.isSome = true → disk (h.resolve target) ≠ none → snapshot.isSome = true

theorem snapshotTarget_does {P : Store F β ρ → Prop} :
    Does P (snapshotTarget h plan target pending)
      (fun snapshot s => TargetSnapshot h target pending s.disk snapshot ∧ P s) (fun _ => P) := by
  cases pending with
  | none => exact Does.pure (fun _ hs => ⟨⟨nofun, nofun⟩, hs⟩)
  | some backend =>
    have hfound : Does P (exists? h plan target)
        (fun found s => found = (s.disk (h.resolve target)).isSome ∧ P s) (fun _ => P) :=
      Does.consult (fun _ hs => ⟨rfl, hs⟩) (fun _ _ => id)
    apply hfound.bind
    intro found
    cases found with
    | false =>
      apply Does.pure
      intro s ⟨hnone, hs⟩
      refine ⟨⟨nofun, fun _ hthere => absurd ?_ hthere⟩, hs⟩
      exact Option.not_isSome_iff_eq_none.mp (by rw [← hnone]; nofun)
    | true =>
      rw [if_pos rfl]
      apply (snapshotSettingsFiles_does.mono (fun _ => id) (fun _ _ => id) (fun _ _ hs => hs.2)).bind
      intro snapshot
      apply Does.pure
      intro s ⟨hsnapshot, hthere, hs⟩
      refine ⟨⟨fun files' hfiles => ?_, fun _ _ => rfl⟩, hs⟩
      cases hfiles
      exact ⟨hsnapshot, Option.isSome_iff_ne_none.mp hthere.symm⟩

theorem prepare_does :
    Does (Before m (started F β ρ pending)) (prepare h plan clock serial displayName kind target pending)
      (fun p s => PreparedFor serial displayName kind target pending m p ∧ Snapshots h p s ∧
        Before m (trying pending s.disk) s)
      (fun _ => Before m (started F β ρ pending)) := by
  apply memory_does.bind
  intro previous
  apply Does.of_each
  intro s₁ ⟨hprevious, hs₁⟩
  have hm : previous = m := hprevious.trans hs₁.memory
  subst hm
  apply (save_before.mono (fun _ hs => hs ▸ hs₁) (fun _ _ => id) (fun _ _ => id)).bind
  intro _
  apply onPath_before.bind
  intro _
  apply snapshotSettingsFiles_does.bind
  intro globalSnapshot
  apply (snapshotTarget_does.mono (fun _ => id) (fun _ _ => id) (fun _ _ hs => hs.2)).bind
  intro targetSnapshot
  have hbegun : Does (fun s => TargetSnapshot h target pending s.disk targetSnapshot ∧
        globalSnapshot = files s.disk (h.resolve []) ∧ Before previous (started F β ρ pending) s)
      (note beginTry) (fun _ s => (TargetSnapshot h target pending s.disk targetSnapshot ∧
        globalSnapshot = files s.disk (h.resolve [])) ∧ Before previous (trying pending s.disk) s)
      (fun _ => Before previous (started F β ρ pending)) := by
    apply Does.note
    intro s ⟨htarget, hglobal, hs⟩
    refine ⟨⟨htarget, hglobal⟩, ⟨hs.memory, ?_, hs.deferred⟩⟩
    change { s.locals with tryDisk := some s.disk } = trying pending s.disk
    rw [hs.locals]
    rfl
  apply hbegun.bind
  intro _
  apply Does.pure
  intro s ⟨⟨htarget, hglobal⟩, hs⟩
  refine ⟨⟨rfl, rfl, rfl, rfl, rfl, rfl⟩, ⟨hglobal, htarget.there, htarget.taken, ?_, ?_, ?_⟩, hs⟩
  · rw [hs.locals]
    rfl
  · rw [hs.locals]
    rfl
  · rw [hs.locals]
    rfl

/-- Only a call that raised without being stopped has an outcome. -/
def Raised (h : Host F β ρ) (m : Memory) (target : Dir) (active : Prop) (i : Interrupt) (t : Store F β ρ) : Prop :=
  i = .osError → Failed h m target active t

theorem setFolder_other {f : F} (hf : f ≠ h.resolve dir) (o : Option (Folder β ρ)) :
    (s.setFolder h dir o).disk f = s.disk f := by
  change Function.update s.disk (h.resolve dir) o f = s.disk f
  rw [Function.update_of_ne hf]

theorem retireMigratedProfile_does {active : Prop} {source : Option Dir}
    (hsource : ∀ dir, source = some dir → h.resolve target ≠ h.resolve dir ∧ h.resolve [] ≠ h.resolve dir) :
    Does (Committed h serial kind target active) (retireMigratedProfile h plan source)
      (fun _ => Committed h serial kind target active) (Raised h m target active) := by
  cases source with
  | none => exact Does.pure (fun _ => id)
  | some dir =>
    obtain ⟨htarget, hbase⟩ := hsource dir rfl
    have hleft (o : Option (Folder β ρ)) (s : Store F β ρ) (hs : Committed h serial kind target active s) :
        Committed h serial kind target active (s.setFolder h dir o) :=
      hs.congr rfl rfl (setFolder_other htarget o) (setFolder_other hbase o)
    intro s hs
    cases hplan : plan s.ops with
    | proceeds =>
      simp only [retireMigratedProfile, hplan]
      exact hleft none s.value hs
    | fails =>
      simp only [retireMigratedProfile, hplan]
      exact hleft _ s.value hs
    | stops =>
      simp only [retireMigratedProfile, hplan]
      exact fun hraised => Interrupt.noConfusion hraised

theorem switchProfile_does (active : Prop) (hown : OwnFolders h serial)
    (htarget : target = deviceProfileDir h serial kind) :
    Does (Before m (started F β ρ pending)) (switchProfile h plan clock serial displayName kind target pending)
      (fun result t => result = true ∧ Committed h serial kind target active t)
      (Raised h m target active) := by
  have hbase : h.resolve target ≠ h.resolve [] := htarget ▸ hown.1 kind
  apply (prepare_does.mono (fun _ => id) (fun _ _ => id) (fun _ _ hs _ => hs.failed)).bind
  intro p
  apply Does.of_each
  intro s₀ ⟨hp, hsnapshots, hs₀⟩
  have hownTarget : h.resolve p.target ≠ h.resolve [] := hp.target ▸ hbase
  have hcommit : Does (fun s => s = s₀) (commitProfile h plan clock p)
      (fun source s => MigratedFrom h p s₀ source ∧ Committed h serial kind target active s)
      (fun _ => Broken h p s₀) := by
    apply (commitProfile_does hownTarget hsnapshots.globalCommitStarted).mono
    · intro s hs
      subst hs
      exact ⟨rfl, rfl, rfl, rfl⟩
    · intro source s ⟨hsource, ⟨created, hready⟩, hglobal⟩
      exact ⟨hsource, ready_committed hp hs₀.locals hready hglobal⟩
    · exact fun _ _ => id
  have hrolled (s : Store F β ρ) (hs : Broken h p s₀ s) : Failed h m target active (rollback h p s) := by
    refine ⟨(rollback_memory s).trans hp.previous, rollback_deferred hsnapshots hs₀.deferred hs, ?_⟩
    intro disk₀ hdisk
    have hlocals := broken_locals hs
    have hrolledBack := rollback_rolledBack active hownTarget hsnapshots hs
    rw [rollback_locals, hlocals.2, hs₀.locals] at hdisk
    cases hdisk
    rw [rollback_locals, hlocals.1, hs₀.locals]
    rw [hp.target, hp.pending] at hrolledBack
    exact hrolledBack
  have hbody : Does (fun s => s = s₀) (cleaning (commitProfile h plan clock p) (rollback h p))
      (fun source s => MigratedFrom h p s₀ source ∧ Committed h serial kind target active s)
      (Raised h m target active) := by
    apply hcommit.cleaning
    · exact fun s hs _ => hrolled s hs
    · exact fun _ _ hraised => Interrupt.noConfusion hraised
  apply hbody.bind
  intro source
  apply Does.of_fact
  intro hsource
  have hfinished : Does (Committed h serial kind target active) (note finishRecoveryTransaction)
      (fun _ => Committed h serial kind target active) (Raised h m target active) := by
    apply Does.note
    intro s hs
    rw [finishRecoveryTransaction]
    split
    · exact hs
    · exact hs.congr rfl rfl rfl rfl
  apply hfinished.bind
  intro _
  have hsourceDirs (dir : Dir) (hdir : source = some dir) :
      h.resolve target ≠ h.resolve dir ∧ h.resolve [] ≠ h.resolve dir := by
    obtain ⟨habsent, hthere, hnames⟩ := hsource dir hdir
    refine ⟨fun hsame => ?_, ?_⟩
    · rw [← hsame, ← hp.target, habsent] at hthere
      cases hthere
    · rw [hp.serial] at hnames
      obtain rfl | rfl := hnames
      · exact hown.2.symm
      · exact (hown.1 _).symm
  apply (retireMigratedProfile_does hsourceDirs).bind
  intro _
  exact Does.pure (fun _ hs => ⟨rfl, hs⟩)

/-- While a choice is applied to the active profile. -/
structure Applying (h : Host F β ρ) (m : Memory) (pending : Option Backend) (s₀ s : Store F β ρ) : Prop where
  others : ∀ f, f ≠ h.resolve m.path → f ≠ h.resolve [] → s.disk f = s₀.disk f
  configDir : s.memory.configDir = m.configDir
  serial : s.memory.activeProfileSerial = m.activeProfileSerial
  kind : s.memory.activeProfileKind = m.activeProfileKind
  locals : s.locals = trying pending s₀.disk
  deferred : s.deferred = none

theorem Applying.put (hs : Applying h m pending s₀ s) (hdir : dir = m.path ∨ dir = []) (w : World β Data) :
    Applying h m pending s₀ (s.put h dir w) where
  others f hpath hbase := by
    obtain rfl | rfl := hdir
    · exact (put_other hpath).trans (hs.others f hpath hbase)
    · exact (put_other hbase).trans (hs.others f hpath hbase)
  configDir := (congrArg Memory.configDir put_memory).trans hs.configDir
  serial := (congrArg Memory.activeProfileSerial put_memory).trans hs.serial
  kind := (congrArg Memory.activeProfileKind put_memory).trans hs.kind
  locals := put_locals.trans hs.locals
  deferred := put_deferred hs.deferred

theorem rollbackChoice_failed {active : Prop} (hactive : active) (hown : h.resolve m.path ≠ h.resolve [])
    (hs : Applying h m pending s₀ s) :
    Failed h m m.path active (rollbackChoice h m (files s₀.disk (h.resolve m.path))
      (files s₀.disk (h.resolve [])) s) := by
  have hpath : s.memory.path = m.path := hs.configDir
  rw [rollbackChoice, hpath]
  refine ⟨?_, put_deferred (put_deferred hs.deferred), ?_⟩
  · apply put_memory.trans
    apply put_memory.trans
    exact Memory.ext hs.configDir hs.serial hs.kind rfl
  · intro disk₀ hdisk
    have hlocals : (restoreSettingsFiles h [] (files s₀.disk (h.resolve []))
        (restoreSettingsFiles h m.path (files s₀.disk (h.resolve m.path))
          { s with memory := { s.memory with data := m.data } })).locals = s.locals :=
      put_locals.trans put_locals
    rw [hlocals, hs.locals] at hdisk
    cases hdisk
    rw [hlocals, hs.locals]
    refine ⟨fun f hf hbase => ?_, restore_files _, fun _ => ?_, fun _ hinactive => absurd hactive hinactive⟩
    · rw [restore_other _ hbase, restore_other _ hf]
      exact hs.others f hf hbase
    · rw [files_congr (restore_other _ hown)]
      exact restore_files _

/-- The choice is in the profile, and the global settings are left. -/
structure Applied (h : Host F β ρ) (m : Memory) (b : Backend) (s₀ s : Store F β ρ) : Prop where
  applying : Applying h m (some b) s₀ s
  data : s.memory.data = chosen b m.data
  written : (s.world (h.resolve m.path)).scope.primary = some (h.encode s.memory.data)

theorem Applied.put_base {b : Backend} (hown : h.resolve m.path ≠ h.resolve []) (hs : Applied h m b s₀ s)
    (w : World β Data) : Applied h m b s₀ (s.put h [] w) := by
  refine ⟨hs.applying.put (.inr rfl) w, ?_, ?_⟩
  · rw [put_memory]
    exact hs.data
  · rw [put_memory, world_congr (put_other hown)]
    exact hs.written

theorem clearPendingPrivilegeBackend_does {b : Backend} (hown : h.resolve m.path ≠ h.resolve []) :
    Does (Applied h m b s₀) (clearPendingPrivilegeBackend h plan clock)
      (fun _ s => Applied h m b s₀ s ∧ ∃ d, (s.world (h.resolve [])).scope.primary =
        some (h.encode (merge d (clearedChoice noValues))))
      (fun _ => Applying h m (some b) s₀) := by
  apply memory_does.bind
  intro m'
  apply Does.of_pre (φ := m'.path ≠ [])
  · intro s ⟨hm, hs⟩ hnil
    apply hown
    rw [Memory.path, ← hs.applying.configDir, ← hm, ← Memory.path, hnil]
  · intro hpath
    rw [if_neg hpath]
    have hloaded : Does (fun s => m' = s.memory ∧ Applied h m b s₀ s) (loadSettingsPath h plan clock [])
        (fun _ => Applied h m b s₀) (fun _ => Applying h m (some b) s₀) :=
      (onPath_frame (fun _ w hs => hs.put_base hown w)).mono (fun _ hs => hs.2) (fun _ _ => id)
        (fun _ _ hs => hs.applying)
    apply hloaded.bind
    intro loaded
    apply onPath_does
    intro s hs
    apply (writeJsonAtomic_writes (fun _ => rfl)).mono (fun _ => id)
    · intro _ w hw
      refine ⟨hs.put_base hown w, merge (defaultSettings h.toTables) (loaded.getD noValues), ?_⟩
      rw [put_world, hw]
      rfl
    · exact fun _ w _ => (hs.put_base hown w).applying

theorem applyChoice_does {b : Backend} (hown : h.resolve m.path ≠ h.resolve [])
    (hs₀ : Before m (trying (some b) s₀.disk) s₀) :
    Does (fun s => s = s₀) (do
        setData (chosen b)
        save h plan clock
        clearPendingPrivilegeBackend h plan clock)
      (fun _ s => Applied h m b s₀ s ∧ ∃ d, (s.world (h.resolve [])).scope.primary =
        some (h.encode (merge d (clearedChoice noValues))))
      (fun _ => Applying h m (some b) s₀) := by
  have hset : Does (fun s => s = s₀) (setData (chosen b))
      (fun _ s => Applying h m (some b) s₀ s ∧ s.memory.data = chosen b m.data)
      (fun _ => Applying h m (some b) s₀) := by
    rw [setData, setMemory]
    apply Does.note
    intro s hs
    subst hs
    have hdata : s.memory = m := hs₀.memory
    refine ⟨⟨fun _ _ _ => rfl, ?_, ?_, ?_, hs₀.locals, hs₀.deferred⟩, ?_⟩
    · rw [hdata]
    · rw [hdata]
    · rw [hdata]
    · rw [hdata]
  apply hset.bind
  intro _
  have hsaved : Does (fun s => Applying h m (some b) s₀ s ∧ s.memory.data = chosen b m.data)
      (save h plan clock) (fun _ => Applied h m b s₀)
      (fun _ => Applying h m (some b) s₀) := by
    apply memory_does.bind
    intro m'
    apply onPath_does
    intro s hsaving
    obtain ⟨hm, hs, hdata⟩ := hsaving
    have hpath : m'.path = m.path := by rw [hm, Memory.path, hs.configDir, Memory.path]
    rw [hpath]
    apply save_writes.mono (fun _ => id)
    · intro _ w hw
      refine ⟨hs.put (.inl rfl) w, ?_, ?_⟩
      · rw [put_memory]
        exact hdata
      · rw [put_world, put_memory, hw, hm]
        rfl
    · exact fun _ w _ => hs.put (.inl rfl) w
  apply hsaved.bind
  intro _
  exact clearPendingPrivilegeBackend_does hown

theorem reactivate_does {b : Backend} {active : Prop} (hactive : active)
    (hown : h.resolve m.path ≠ h.resolve []) (hserial : m.activeProfileSerial = serial)
    (hkind : m.activeProfileKind = some kind) :
    Does (Before m (started F β ρ (some b))) (reactivate h plan clock b)
      (fun result t => result = true ∧ Committed h serial kind m.path active t) (Raised h m m.path active) := by
  apply memory_does.bind
  intro previous
  apply Does.of_each
  intro s₁ ⟨hprevious, hs₁⟩
  have hm : previous = m := hprevious.trans hs₁.memory
  subst hm
  apply (snapshotSettingsFiles_does.mono (fun _ hs => hs ▸ hs₁) (fun _ _ => id) (fun _ _ hs _ => hs.failed)).bind
  intro profileSnapshot
  apply (snapshotSettingsFiles_does.mono (fun _ => id) (fun _ _ => id) (fun _ _ hs _ => hs.2.failed)).bind
  intro globalSnapshot
  have hbegun : Does (fun s => globalSnapshot = files s.disk (h.resolve []) ∧
        profileSnapshot = files s.disk (h.resolve previous.path) ∧ Before previous (started F β ρ (some b)) s)
      (note beginTry) (fun _ s => globalSnapshot = files s.disk (h.resolve []) ∧
        profileSnapshot = files s.disk (h.resolve previous.path) ∧ Before previous (trying (some b) s.disk) s)
      (Raised h previous previous.path active) := by
    apply Does.note
    intro s ⟨hglobal, hprofile, hs⟩
    refine ⟨hglobal, hprofile, ⟨hs.memory, ?_, hs.deferred⟩⟩
    change { s.locals with tryDisk := some s.disk } = trying (some b) s.disk
    rw [hs.locals]
    rfl
  apply hbegun.bind
  intro _
  apply Does.of_each
  intro s₀ ⟨hglobal, hprofile, hs₀⟩
  subst hglobal hprofile
  have hcleaned : Does (fun s => s = s₀) (cleaning (do
        setData (chosen b)
        save h plan clock
        clearPendingPrivilegeBackend h plan clock)
        (rollbackChoice h previous (files s₀.disk (h.resolve previous.path)) (files s₀.disk (h.resolve []))))
      (fun _ s => Applied h previous b s₀ s ∧ ∃ d, (s.world (h.resolve [])).scope.primary =
        some (h.encode (merge d (clearedChoice noValues)))) (Raised h previous previous.path active) := by
    apply (applyChoice_does hown hs₀).cleaning
    · exact fun s hs _ => rollbackChoice_failed hactive hown hs
    · exact fun _ _ hraised => Interrupt.noConfusion hraised
  apply hcleaned.bind
  intro _
  apply Does.pure
  intro s happlied
  obtain ⟨hs, d, hd⟩ := happlied
  refine ⟨rfl, hs.applying.configDir, hs.applying.serial.trans hserial, hs.applying.kind.trans hkind, ?_, ?_,
    merge d (clearedChoice noValues), ?_, fun _ => ⟨rfl, rfl, rfl⟩, fun hinactive => absurd hactive hinactive⟩
  · rw [files_world, hs.written]
    exact h.decode_encode _
  · rw [hs.applying.locals, hs.data]
    intro b' hb
    cases hb
    exact ⟨rfl, rfl⟩
  · rw [files_world, hd]
    exact h.decode_encode _

/-- Whether the activated profile is the active one already. -/
def AlreadyActive (h : Host F β ρ) (m : Memory) (serial : Text) (kind : Kind) : Prop :=
  serial = m.activeProfileSerial ∧ some kind = m.activeProfileKind ∧ m.configDir = deviceProfileDir h serial kind

/-- What an activation from the memory `m` ends in; nothing is said of a process that stops. -/
def Ends (h : Host F β ρ) (m : Memory) (serial : Text) (kind : Kind) :
    Except Interrupt Bool → Store F β ρ → Prop
  | .ok true, t => Committed h serial kind (deviceProfileDir h serial kind) (AlreadyActive h m serial kind) t
  | .ok false, t => t.memory = m ∧
    (serial.isEmpty = true ∨ AlreadyActive h m serial kind ∧ t.locals.pendingBackend = none)
  | .error i, t => Raised h m (deviceProfileDir h serial kind) (AlreadyActive h m serial kind) i t

theorem activateSerial_does (hown : OwnFolders h serial) :
    Does (Before m (started F β ρ pending))
      (activateSerial h plan clock serial displayName kind (deviceProfileDir h serial kind) pending)
      (fun result => Ends h m serial kind (.ok result)) (fun i => Ends h m serial kind (.error i)) := by
  apply memory_does.bind
  intro m'
  apply Does.of_pre (φ := m' = m) (fun s hs => hs.1.trans hs.2.memory)
  intro hm
  subst hm
  by_cases hactive : serial = m'.activeProfileSerial ∧ some kind = m'.activeProfileKind ∧
      m'.configDir = deviceProfileDir h serial kind
  · rw [if_pos hactive]
    have hpath : m'.path = deviceProfileDir h serial kind := hactive.2.2
    cases pending with
    | none =>
      apply Does.pure
      intro s ⟨_, hs⟩
      refine ⟨hs.memory, .inr ⟨hactive, ?_⟩⟩
      rw [hs.locals]
      rfl
    | some b =>
      have hown' : h.resolve m'.path ≠ h.resolve [] := hpath ▸ hown.1 kind
      have hserial : m'.activeProfileSerial = serial := hactive.1.symm
      have hkind : m'.activeProfileKind = some kind := hactive.2.1.symm
      apply (reactivate_does hactive hown' hserial hkind).mono
      · exact fun _ hs => hs.2
      · intro result t ⟨hresult, ht⟩
        subst hresult
        rw [hpath] at ht
        exact ht
      · intro i t ht
        rw [hpath] at ht
        exact ht
  · rw [if_neg hactive]
    apply (switchProfile_does (AlreadyActive h m' serial kind) hown rfl).mono (fun _ hs => hs.2)
    · intro result t ⟨hresult, ht⟩
      subst hresult
      exact ht
    · exact fun _ _ => id

theorem pendingPrivilegeBackend_does : Does (Before m locals) (pendingPrivilegeBackend h plan clock)
    (fun _ => Before m locals) (fun _ => Before m locals) := by
  have hvalue : Does (Before m locals) (getGlobal h plan clock .pendingPrivilegeBackend)
      (fun _ => Before m locals) (fun _ => Before m locals) := by
    apply memory_does.bind
    intro m'
    by_cases hpath : m'.path = []
    · rw [if_pos hpath]
      exact Does.pure (fun _ hs => hs.2)
    · rw [if_neg hpath]
      apply (onPath_before.mono (fun _ hs => hs.2) (fun _ _ => id) (fun _ _ => id)).bind
      intro loaded
      exact Does.pure (fun _ => id)
  apply hvalue.bind
  intro value
  exact Does.pure (fun _ => id)

theorem activateDeviceProfile_does (plan : Nat → Verdict) (clock : Nat → Nat) (displayName formFactor : Text)
    (hown : OwnFolders h (strip h.unicode serial)) :
    Does (fun s => s.memory = m ∧ s.deferred = none)
      (activateDeviceProfile h plan clock serial displayName formFactor)
      (fun result => Ends h m (strip h.unicode serial)
        (profileKindForDevice h.toTables m.data (strip h.unicode serial) formFactor) (.ok result))
      (fun i => Ends h m (strip h.unicode serial)
        (profileKindForDevice h.toTables m.data (strip h.unicode serial) formFactor) (.error i)) := by
  rw [activateDeviceProfile]
  by_cases hserial : (strip h.unicode serial).isEmpty = true
  · rw [if_pos hserial]
    exact Does.pure (fun _ hs => ⟨hs.1, .inl hserial⟩)
  · rw [if_neg hserial]
    have hreset : Does (fun s => s.memory = m ∧ s.deferred = none)
        (note (fun s => { s with locals := ⟨none, false, false, false, none⟩ }))
        (fun _ => Before m (started F β ρ none)) (fun i => Ends h m (strip h.unicode serial)
          (profileKindForDevice h.toTables m.data (strip h.unicode serial) formFactor) (.error i)) :=
      Does.note (fun _ hs => ⟨hs.1, rfl, hs.2⟩)
    apply hreset.bind
    intro _
    apply (pendingPrivilegeBackend_does.mono (fun _ => id) (fun _ _ => id) (fun _ _ hs _ => hs.failed)).bind
    intro pending
    have hnoted : Does (Before m (started F β ρ none))
        (note (fun s => { s with locals := { s.locals with pendingBackend := pending } }))
        (fun _ => Before m (started F β ρ pending)) (fun i => Ends h m (strip h.unicode serial)
          (profileKindForDevice h.toTables m.data (strip h.unicode serial) formFactor) (.error i)) := by
      apply Does.note
      intro s hs
      refine ⟨hs.memory, ?_, hs.deferred⟩
      change { s.locals with pendingBackend := pending } = started F β ρ pending
      rw [hs.locals]
      rfl
    apply hnoted.bind
    intro _
    apply memory_does.bind
    intro m'
    apply Does.of_pre (φ := m' = m) (fun s hs => hs.1.trans hs.2.memory)
    intro hm
    subst hm
    exact (activateSerial_does hown).mono (fun _ hs => hs.2) (fun _ _ => id) (fun _ _ => id)

/-- An activation is a transaction, whatever fails in its `try` block. -/
theorem activateDeviceProfile_transaction (h : Host F β ρ) (plan : Nat → Verdict) (clock : Nat → Nat)
    (serial displayName formFactor : Text) (hown : OwnFolders h (strip h.unicode serial))
    {s t : Counted (Store F β ρ)} {r : Except Interrupt Bool} (hidle : s.value.deferred = none)
    (hrun : activateDeviceProfile h plan clock serial displayName formFactor s = (r, t)) :
    Ends h s.value.memory (strip h.unicode serial)
      (profileKindForDevice h.toTables s.value.memory.data (strip h.unicode serial) formFactor) r t.value := by
  have hdoes := activateDeviceProfile_does plan clock displayName formFactor hown s ⟨rfl, hidle⟩
  rw [hrun] at hdoes
  cases r with
  | ok result => exact hdoes
  | error i => exact hdoes

/-- Settings are stored as they are, and every path names a folder of its own. -/
def plain : Host Dir (Option Data) Unit where
  unicode := UnicodeData.ascii
  lower s := s.map (fun c => if 65 ≤ c.toNat ∧ c.toNat ≤ 90 then Char.ofNat (c.toNat + 32) else c)
  otherDefaults _ := none
  otherLocalUi _ := false
  encode := some
  decode := id
  decode_encode _ := rfl
  blank := none
  nt := false
  empty := ()
  resolve := id
  leftover := some
  pathText := List.flatten
  isLegacyFolder _ := false
  relocate _ _ _ := none

/-- The folders, each with a primary settings file that holds these values. -/
def withProfiles (profiles : List (Dir × Data)) (dir : Dir) : Option (Folder (Option Data) Unit) :=
  (profiles.lookup dir).map (fun d => ⟨⟨some (some d), none, [], []⟩, ()⟩)

def atBase (disk : Dir → Option (Folder (Option Data) Unit)) : Counted (Store Dir (Option Data) Unit) :=
  ⟨⟨disk, [], ⟨[], [], none, defaultSettings plain.toTables⟩, none, [], ⟨none, false, false, false, none⟩⟩, 0⟩

def failingAt (ops : List Nat) (n : Nat) : Verdict := if n ∈ ops then .fails else .proceeds

def deviceA : Text := ['A']

/-- Whether the activation of the phone returned, the serial that its profile names, the mode of the
profile and whether the old folder of the device is there. -/
def activated (profiles : List (Dir × Data)) (ops : List Nat) :
    Bool × Option (Option PyObject) × Option (Option PyObject) × Bool :=
  let (r, t) := activateDeviceProfile plain (failingAt ops) id deviceA [] [] (atBase (withProfiles profiles))
  let profile := (files t.value.disk (deviceProfileDir plain deviceA .phone)).1.bind id
  (r.isOk, profile.map (fun d => d .activeDeviceSerial), profile.map (fun d => d .privilegeBackend),
    (t.value.disk (legacyDeviceProfileDir plain deviceA)).isSome)

/-- A profile that was there keeps what a failed activation wrote when no choice was pending, and
a source that cannot be copied does not make the call fail. -/
theorem activation_not_undone :
    activated [([], noValues), (deviceProfileDir plain deviceA .phone, noValues)] [43] =
      (false, some (some (.str deviceA)), some (some (.str Backend.standard.text)), false) ∧
    activated [([], noValues), (legacyDeviceProfileDir plain deviceA, noValues),
        (deviceProfileDir plain deviceA .tv, noValues)] [16] =
      (true, some (some (.str deviceA)), some (some (.str Backend.standard.text)), true) := by
  decide +kernel

theorem plain_ownFolders : OwnFolders plain (strip plain.unicode deviceA) := by
  refine ⟨fun kind => ?_, nofun⟩
  cases kind <;> nofun

def newDevice : Counted (Store Dir (Option Data) Unit) := atBase (withProfiles [([], noValues)])

def activation : Except Interrupt Bool × Counted (Store Dir (Option Data) Unit) :=
  activateDeviceProfile plain (failingAt []) id deviceA [] [] newDevice

theorem deviceA_committed : Committed plain deviceA .phone (deviceProfileDir plain deviceA .phone)
    (AlreadyActive plain newDevice.value.memory deviceA .phone) activation.2.value := by
  have hok : activation.1 = .ok true := by decide +kernel
  have hrun : activateDeviceProfile plain (failingAt []) id deviceA [] [] newDevice = (.ok true, activation.2) :=
    Prod.ext hok rfl
  have hends := activateDeviceProfile_transaction plain (failingAt []) id deviceA [] [] plain_ownFolders rfl hrun
  have hserial : strip plain.unicode deviceA = deviceA := by decide +kernel
  have hkind : profileKindForDevice plain.toTables newDevice.value.memory.data deviceA [] = .phone := by
    decide +kernel
  rw [hserial, hkind] at hends
  exact hends

end OpenAdb.Settings.Transaction
