import OpenAdb.Settings.Choices

namespace OpenAdb.Settings.Selection

open OpenAdb.Lib.Effects OpenAdb.Lib.Faults OpenAdb.Lib.PyText OpenAdb.Settings.Files
  OpenAdb.Settings.Values OpenAdb.Settings.Profile OpenAdb.Settings.Activation
  OpenAdb.Settings.Rollback OpenAdb.Settings.Transaction OpenAdb.Settings.Readings
  OpenAdb.Settings.Choices

variable {F β ρ : Type} {h : Host F β ρ} {plan : Nat → Verdict} {clock : Nat → Nat}
  {p : Prepared β} {s s₀ t : Store F β ρ} {dir target : Dir} {m : Memory} {v : F → Option Backend}
  {b : Backend} {pending : Option Backend} {serial displayName : Text} {kind : Kind}

/-- Between two calls: this memory, and no recovery transaction. -/
def Idle (m : Memory) (s : Store F β ρ) : Prop := s.memory = m ∧ s.deferred = none

theorem base_there : h.resolve [] ≠ h.resolve [] → (v (h.resolve [])).isSome = true := fun hne => absurd rfl hne

theorem memory_held {P : Store F β ρ → Prop} : Does (fun s => Idle m s ∧ P s) memory
    (fun m' s => m' = m ∧ Idle m s ∧ P s) (fun _ s => Idle m s ∧ P s) :=
  Does.read (fun _ hs => ⟨hs.1.1, hs⟩)

variable [DecidableEq F]

/-- With what the folders say. -/
def Held (h : Host F β ρ) (v : F → Option Backend) (m : Memory) (s : Store F β ρ) : Prop :=
  Idle m s ∧ told h s.disk = v

/-- The settings in memory say what the files of the current folder say. -/
structure Fits (h : Host F β ρ) (v : F → Option Backend) (m : Memory) : Prop where
  own : m.path ≠ [] → h.resolve m.path ≠ h.resolve []
  data : v (h.resolve m.path) = reads h (h.resolve m.path) (some m.data)

theorem reads_isSome {f : F} {o : Option Data} (hbase : f ≠ h.resolve []) : (reads h f o).isSome = true := by
  rw [reads, if_neg hbase]
  rfl

theorem Fits.there (hm : Fits h v m) : h.resolve m.path ≠ h.resolve [] → (v (h.resolve m.path)).isSome = true := by
  intro hbase
  rw [hm.data]
  exact reads_isSome hbase

theorem Idle.put (hs : Idle m s) (w : World β Data) : Idle m (s.put h dir w) :=
  ⟨put_memory.trans hs.1, put_deferred hs.2⟩

theorem loadSettingsPath_held (hthere : h.resolve dir ≠ h.resolve [] → (v (h.resolve dir)).isSome = true) :
    Does (Held h v m) (loadSettingsPath h plan clock dir)
      (fun loaded s => reads h (h.resolve dir) loaded = v (h.resolve dir) ∧ Held h v m s)
      (fun _ => Held h v m) :=
  onPath_keeps (fun _ w hs => hs.put w) hthere (loadSettings_tells (reads_defaults h _))

/-- Saving settings that say what the files say, whatever fails. -/
theorem save_held (hm : Fits h v m) : Does (Held h v m) (save h plan clock) (fun _ => Held h v m)
    (fun _ => Held h v m) := by
  apply memory_held.bind
  intro m'
  apply Does.of_fact
  intro hm'
  subst hm'
  have hsaved : Does (Tells h.codec (reads h (h.resolve m'.path)) (v (h.resolve m'.path)))
      (Files.save h.codec plan h.nt clock m'.data)
      (fun _ w => True ∧ Tells h.codec (reads h (h.resolve m'.path)) (v (h.resolve m'.path)) w)
      (fun _ => Tells h.codec (reads h (h.resolve m'.path)) (v (h.resolve m'.path))) :=
    (save_tells (reads_defaults h _) hm.data.symm).mono (fun _ => id) (fun _ _ hw => ⟨trivial, hw⟩) (fun _ _ => id)
  exact (onPath_keeps (fun _ w hs => hs.put w) hm.there hsaved).mono (fun _ => id) (fun _ _ hs => hs.2)
    (fun _ _ => id)

theorem save_changes (hthere : h.resolve m.path ≠ h.resolve [] → (v (h.resolve m.path)).isSome = true) :
    Does (Held h v m) (save h plan clock)
      (fun _ => Held h (Function.update v (h.resolve m.path) (reads h (h.resolve m.path) (some m.data))) m)
      (fun _ _ => True) := by
  apply (memory_held.mono (fun _ => id) (fun _ _ => id) (fun _ _ _ => trivial)).bind
  intro m'
  apply Does.of_fact
  intro hm
  subst hm
  exact onPath_changes (fun _ w hs => hs.put w) hthere (fun _ => save_writes)

theorem getGlobal_held (hm : Fits h v m) :
    Does (Held h v m) (getGlobal h plan clock .pendingPrivilegeBackend)
      (fun value s => pendingOf h.toTables value = v (h.resolve []) ∧ Held h v m s) (fun _ => Held h v m) := by
  apply memory_held.bind
  intro m'
  apply Does.of_fact
  intro hm'
  subst hm'
  by_cases hpath : m'.path = []
  · rw [if_pos hpath]
    refine Does.pure (fun _ hs => ⟨?_, hs⟩)
    have hdata := hm.data
    rw [hpath, reads, if_pos rfl] at hdata
    exact hdata.symm
  · rw [if_neg hpath]
    apply (loadSettingsPath_held base_there).bind
    intro loaded
    apply Does.of_fact
    intro hloaded
    rw [reads, if_pos rfl] at hloaded
    exact Does.pure (fun _ hs => ⟨(pendingIn_defaults h.toTables loaded).trans hloaded, hs⟩)

theorem pendingPrivilegeBackend_held (hm : Fits h v m) :
    Does (Held h v m) (pendingPrivilegeBackend h plan clock)
      (fun q s => q = v (h.resolve []) ∧ Held h v m s) (fun _ => Held h v m) := by
  apply (getGlobal_held hm).bind
  intro value
  apply Does.of_fact
  intro hvalue
  exact Does.pure (fun _ hs => ⟨hvalue, hs⟩)

theorem prepare_held (hm : Fits h v m) :
    Does (Held h v m) (prepare h plan clock serial displayName kind target pending) (fun _ => Held h v m)
      (fun _ => Held h v m) := by
  apply memory_held.bind
  intro previous
  apply Does.of_fact
  intro _
  apply (save_held hm).bind
  intro _
  apply (loadSettingsPath_held base_there).bind
  intro loaded
  apply Does.of_fact
  intro _
  apply snapshotSettingsFiles_does.bind
  intro globalSnapshot
  apply (snapshotTarget_does.mono (fun _ hs => hs.2) (fun _ _ hs => hs.2) (fun _ _ => id)).bind
  intro targetSnapshot
  have hbegun : Does (Held h v m) (note beginTry) (fun _ => Held h v m) (fun _ => Held h v m) :=
    Does.note (fun _ hs => hs)
  apply hbegun.bind
  intro _
  exact Does.pure (fun _ => id)

/-- The mode that an activated profile starts in: its own, that of the folder it is migrated from, or the
standard one. -/
def startsAs (v : F → Option Backend) (target : F) (source : Option F) : Backend :=
  ((v target).or (source.bind v)).getD .standard

/-- Inside the `try` block, with a property of the settings in memory. -/
def Inside (p : Prepared β) (R : Data → Prop) (s : Store F β ρ) : Prop :=
  s.memory.configDir = p.target ∧ R s.memory.data

def Showing (h : Host F β ρ) (p : Prepared β) (v : F → Option Backend) (R : Data → Prop) (s : Store F β ρ) : Prop :=
  Inside p R s ∧ told h s.disk = v

variable {R R' : Data → Prop}

theorem Inside.put (hs : Inside p R s) (w : World β Data) : Inside p R (s.put h dir w) := by
  rw [Inside, put_memory]
  exact hs

theorem setData_shows {f : Data → Data} (hf : ∀ d, R d → R' (f d)) :
    Does (Showing h p v R) (setData f) (fun _ => Showing h p v R') (fun _ s => told h s.disk = v) := by
  rw [setData, setMemory]
  exact Does.note (fun s hs => ⟨⟨hs.1.1, hf _ hs.1.2⟩, hs.2⟩)

theorem memory_shows : Does (Showing h p v R) memory
    (fun m s => (m.path = p.target ∧ R m.data) ∧ Showing h p v R s) (fun _ s => told h s.disk = v) :=
  Does.read (fun _ hs => ⟨hs.1, hs⟩)

theorem save_shows (hthere : (v (h.resolve p.target)).isSome = true)
    (hR : ∀ d, R d → reads h (h.resolve p.target) (some d) = v (h.resolve p.target)) :
    Does (Showing h p v R) (save h plan clock) (fun _ => Showing h p v R) (fun _ s => told h s.disk = v) := by
  apply memory_shows.bind
  intro m
  apply Does.of_fact
  intro hm
  obtain ⟨hpath, hdata⟩ := hm
  rw [hpath]
  have hsaved : Does (Tells h.codec (reads h (h.resolve p.target)) (v (h.resolve p.target)))
      (Files.save h.codec plan h.nt clock m.data)
      (fun _ w => True ∧ Tells h.codec (reads h (h.resolve p.target)) (v (h.resolve p.target)) w)
      (fun _ => Tells h.codec (reads h (h.resolve p.target)) (v (h.resolve p.target))) :=
    (save_tells (reads_defaults h _) (hR _ hdata)).mono (fun _ => id) (fun _ _ hw => ⟨trivial, hw⟩) (fun _ _ => id)
  exact (onPath_keeps (fun _ w hs => hs.put w) (fun _ => hthere) hsaved).mono (fun _ => id) (fun _ _ hs => hs.2)
    (fun _ _ hs => hs.2)

theorem save_mode (hown : h.resolve p.target ≠ h.resolve []) (hv : v (h.resolve p.target) = some b) :
    Does (Showing h p v fun d => storedBackend h.toTables d = b) (save h plan clock)
      (fun _ => Showing h p v fun d => storedBackend h.toTables d = b) (fun _ s => told h s.disk = v) := by
  apply save_shows
  · rw [hv]
    rfl
  · intro d hd
    rw [hv, reads, if_neg hown, ← hd]
    rfl

theorem openProfile_shows (hown : h.resolve p.target ≠ h.resolve []) (hv : v (h.resolve p.target) = some b) :
    Does (Showing h p v fun _ => True) (openProfile h plan clock p)
      (fun _ => Showing h p v fun d => storedBackend h.toTables d = b) (fun _ s => told h s.disk = v) := by
  have hreads (o : Option Data) (ho : reads h (h.resolve p.target) o = v (h.resolve p.target)) :
      modeOf h.toTables o = b := by
    rw [reads, if_neg hown, hv] at ho
    exact Option.some.inj ho
  have hthere : h.resolve p.target ≠ h.resolve [] → (v (h.resolve p.target)).isSome = true := by
    rw [hv]
    exact fun _ => rfl
  have hfound : Does (Showing h p v fun _ => True) (onPath h p.target (anyExists plan))
      (fun found s => (found = false → reads h (h.resolve p.target) none = v (h.resolve p.target)) ∧
        Showing h p v (fun _ => True) s) (fun _ s => told h s.disk = v) :=
    (onPath_keeps (fun _ w hs => hs.put w) hthere anyExists_tells).mono (fun _ => id) (fun _ _ => id)
      (fun _ _ hs => hs.2)
  apply hfound.bind
  intro found
  apply Does.of_fact
  intro hnone
  cases found with
  | false =>
    rw [if_neg Bool.false_ne_true]
    apply setData_shows
    intro d _
    rw [storedBackend_initialProfileData]
    exact hreads none (hnone rfl)
  | true =>
    have hdefaults : Does (Showing h p v fun _ => True) (setData (fun _ => defaultSettings h.toTables))
        (fun _ => Showing h p v fun d => storedBackend h.toTables d = .standard) (fun _ s => told h s.disk = v) :=
      setData_shows (fun _ _ => (modeOf_defaults h.toTables).symm)
    apply hdefaults.bind
    intro _
    apply memory_shows.bind
    intro m
    apply Does.of_fact
    intro hm
    rw [hm.1]
    have hloaded : Does (Showing h p v fun d => storedBackend h.toTables d = .standard)
        (loadSettingsPath h plan clock p.target)
        (fun loaded s => reads h (h.resolve p.target) loaded = v (h.resolve p.target) ∧
          Showing h p v (fun d => storedBackend h.toTables d = .standard) s) (fun _ s => told h s.disk = v) :=
      (onPath_keeps (fun _ w hs => hs.put w) hthere (loadSettings_tells (reads_defaults h _))).mono (fun _ => id)
        (fun _ _ => id) (fun _ _ hs => hs.2)
    apply hloaded.bind
    intro loaded
    apply Does.of_fact
    intro hmode
    have hb := hreads loaded hmode
    cases loaded with
    | none =>
      apply Does.pure
      intro s hs
      exact ⟨⟨hs.1.1, hs.1.2.trans hb⟩, hs.2⟩
    | some loaded =>
      apply setData_shows
      intro _ _
      exact (storedBackend_adopt h.toTables _ loaded).trans hb

theorem ensureDefaultFolder_shows (key : FolderKey) :
    Does (Showing h p v fun d => storedBackend h.toTables d = b) (ensureDefaultFolder h plan key)
      (fun _ => Showing h p v fun d => storedBackend h.toTables d = b) (fun _ s => told h s.disk = v) := by
  apply memory_shows.bind
  intro m
  apply Does.of_fact
  intro _
  have hset : Does (Showing h p v fun d => storedBackend h.toTables d = b) (setMemory (withFolder h key))
      (fun _ => Showing h p v fun d => storedBackend h.toTables d = b) (fun _ s => told h s.disk = v) := by
    rw [setMemory]
    apply Does.note
    intro s hs
    obtain ⟨⟨hdir, hb⟩, htold⟩ := hs
    refine ⟨⟨?_, ?_⟩, htold⟩
    · exact (withFolder_configDir key s.memory).trans hdir
    · exact (storedBackend_withFolder h.toTables key s.memory).trans hb
  apply hset.bind
  intro _
  have hensured : Does (Showing h p v fun d => storedBackend h.toTables d = b) (ensureDir plan)
      (fun _ => Showing h p v fun d => storedBackend h.toTables d = b) (fun _ s => told h s.disk = v) :=
    Does.perform (fun _ => id) (fun _ _ hs => hs.2)
  apply hensured.bind
  intro _
  exact Does.pure (fun _ => id)

theorem ensureDefaultFolders_shows (hown : h.resolve p.target ≠ h.resolve []) (hv : v (h.resolve p.target) = some b) :
    Does (Showing h p v fun d => storedBackend h.toTables d = b) (ensureDefaultFolders h plan clock)
      (fun _ => Showing h p v fun d => storedBackend h.toTables d = b) (fun _ s => told h s.disk = v) := by
  apply (ensureDefaultFolder_shows .backups).bind
  intro backups
  apply (ensureDefaultFolder_shows .temp).bind
  intro temp
  apply (ensureDefaultFolder_shows .logs).bind
  intro logs
  by_cases hchanged : (backups || temp || logs) = true
  · rw [if_pos hchanged]
    exact save_mode hown hv
  · rw [if_neg hchanged]
    exact Does.pure (fun _ => id)

/-- What the folder of a profile that has just been migrated says. -/
theorem openedFolder_told {r : Option Dir × Bool} (hown : OwnFolders h p.serial)
    (htarget : h.resolve p.target ≠ h.resolve []) (hr : Migrated h s₀ p.serial p.kind p.target r) :
    told h (Function.update s₀.disk (h.resolve p.target) (openedFolder h s₀ p.target r)) =
      Function.update (told h s₀.disk) (h.resolve p.target)
        (some (startsAs (told h s₀.disk) (h.resolve p.target) (r.1.map h.resolve))) := by
  funext f
  by_cases hf : f = h.resolve p.target
  · subst hf
    rw [Function.update_self, startsAs, told, if_neg htarget, Function.update_self, openedFolder]
    obtain ⟨source, created⟩ := r
    cases hcreated : created with
    | false =>
      obtain ⟨folder, hfolder⟩ : ∃ folder, s₀.disk (h.resolve p.target) = some folder := by
        have hsome := hr.created
        rw [hcreated] at hsome
        exact Option.isSome_iff_exists.mp (Option.isNone_eq_false_iff.mp hsome.symm)
      rw [if_neg Bool.false_ne_true, told, if_neg htarget, hfolder]
      rfl
    | true =>
      have hnone : s₀.disk (h.resolve p.target) = none := by
        have habsent := hr.created
        rw [hcreated] at habsent
        exact Option.isNone_iff_eq_none.mp habsent.symm
      have hopened := hr.opened
      rw [if_pos rfl, told, if_neg htarget, hnone]
      rw [openedFolder, hcreated, if_pos rfl] at hopened
      cases source with
      | none => rfl
      | some dir =>
        have hbase : h.resolve dir ≠ h.resolve [] := by
          obtain rfl | rfl := (hr.source dir rfl).2
          · exact hown.2
          · exact hown.1 _
        obtain ⟨folder, hfolder⟩ := Option.isSome_iff_exists.mp hopened
        change s₀.disk (h.resolve dir) = some folder at hfolder
        simp only [candidateOf, Option.map_some, Option.bind_some, told, if_neg hbase, hfolder]
        rfl
  · rw [Function.update_of_ne hf, told_congr (Function.update_of_ne hf ..)]

/-- Without a choice, what the folders say once the target has its mode. -/
theorem commitProfile_told (hnone : p.pending = none) (hown : OwnFolders h p.serial)
    (htarget : h.resolve p.target ≠ h.resolve []) :
    Does (Placed s₀ s₀.disk) (commitProfile h plan clock p)
      (fun source s => told h s.disk = Function.update (told h s₀.disk) (h.resolve p.target)
          (some (startsAs (told h s₀.disk) (h.resolve p.target) (source.map h.resolve))) ∧
        storedBackend h.toTables s.memory.data =
          startsAs (told h s₀.disk) (h.resolve p.target) (source.map h.resolve))
      (fun _ s => told h s.disk = told h s₀.disk ∨ ∃ a, told h s₀.disk (h.resolve p.target) = none ∧
        told h s.disk = Function.update (told h s₀.disk) (h.resolve p.target) a) := by
  apply (migrateDeviceProfile_does.mono (fun _ => id) (fun _ _ => id)
    (fun _ _ hs => .inl (congrArg (told h) hs.disk))).bind
  intro r
  obtain ⟨source, created⟩ := r
  apply Does.of_fact
  intro hr
  generalize hb : startsAs (told h s₀.disk) (h.resolve p.target) (source.map h.resolve) = b
  generalize hv : Function.update (told h s₀.disk) (h.resolve p.target) (some b) = v
  have htold : v (h.resolve p.target) = some b := by rw [← hv, Function.update_self]
  have herror (s : Store F β ρ) (hs : told h s.disk = v) :
      told h s.disk = told h s₀.disk ∨ ∃ a, told h s₀.disk (h.resolve p.target) = none ∧
        told h s.disk = Function.update (told h s₀.disk) (h.resolve p.target) a := by
    cases hmode : told h s₀.disk (h.resolve p.target) with
    | none => exact .inr ⟨some b, rfl, hs.trans hv.symm⟩
    | some mode =>
      rw [startsAs, hmode] at hb
      change mode = b at hb
      rw [← hb, ← hmode, Function.update_eq_self] at hv
      exact .inl (hs.trans hv.symm)
  apply Does.mono _ (fun _ => id) (fun _ _ => id) (fun _ => herror)
  have hentered : Does
      (Placed s₀ (Function.update s₀.disk (h.resolve p.target) (openedFolder h s₀ p.target (source, created))))
      (note (enterProfile p created)) (fun _ => Showing h p v fun _ => True) (fun _ s => told h s.disk = v) := by
    apply Does.note
    intro s hs
    refine ⟨⟨rfl, trivial⟩, ?_⟩
    change told h s.disk = v
    rw [hs.disk, openedFolder_told hown htarget hr, ← hv, ← hb]
  apply hentered.bind
  intro _
  apply (openProfile_shows htarget htold).bind
  intro _
  have hset : Does (Showing h p v fun d => storedBackend h.toTables d = b) (setData (profileData h p source))
      (fun _ => Showing h p v fun d => storedBackend h.toTables d = b) (fun _ s => told h s.disk = v) :=
    setData_shows (fun d hd => (storedBackend_profileData h.toTables hnone source d).trans hd)
  apply hset.bind
  intro _
  apply (ensureDefaultFolders_shows htarget htold).bind
  intro _
  apply (save_mode htarget htold).bind
  intro _
  have hstarted : Does (Showing h p v fun d => storedBackend h.toTables d = b) (note startGlobalCommit)
      (fun _ => Showing h p v fun d => storedBackend h.toTables d = b) (fun _ s => told h s.disk = v) :=
    Does.note (fun _ hs => hs)
  apply hstarted.bind
  intro _
  have hwritten : Does (Showing h p v fun d => storedBackend h.toTables d = b)
      (writeGlobalActiveDevice h plan clock p.serial p.displayName p.kind p.pending.isSome)
      (fun _ => Showing h p v fun d => storedBackend h.toTables d = b) (fun _ s => told h s.disk = v) := by
    have hloaded : Does (Showing h p v fun d => storedBackend h.toTables d = b) (loadSettingsPath h plan clock [])
        (fun loaded s => reads h (h.resolve []) loaded = v (h.resolve []) ∧
          Showing h p v (fun d => storedBackend h.toTables d = b) s) (fun _ s => told h s.disk = v) :=
      (onPath_keeps (fun _ w hs => hs.put w) base_there (loadSettings_tells (reads_defaults h _))).mono (fun _ => id)
        (fun _ _ => id) (fun _ _ hs => hs.2)
    apply hloaded.bind
    intro loaded
    apply Does.of_fact
    intro hloaded
    have hpointer : reads h (h.resolve []) (some (pointer p.serial p.displayName p.kind p.pending.isSome
        (merge (defaultSettings h.toTables) (loaded.getD noValues)))) = v (h.resolve []) := by
      rw [reads, if_pos rfl] at hloaded
      rw [reads, if_pos rfl, hnone, Option.isSome_none, pendingIn_pointer, pendingIn_defaults]
      exact hloaded
    have hjson : Does (Tells h.codec (reads h (h.resolve [])) (v (h.resolve [])))
        (writeJsonAtomic h.codec plan (pointer p.serial p.displayName p.kind p.pending.isSome
          (merge (defaultSettings h.toTables) (loaded.getD noValues))) id)
        (fun _ w => True ∧ Tells h.codec (reads h (h.resolve [])) (v (h.resolve [])) w)
        (fun _ => Tells h.codec (reads h (h.resolve [])) (v (h.resolve []))) :=
      (writeJsonAtomic_tells hpointer (fun _ => rfl)).mono (fun _ => id) (fun _ _ hw => ⟨trivial, hw⟩) (fun _ _ => id)
    exact (onPath_keeps (fun _ w hs => hs.put w) base_there hjson).mono (fun _ => id) (fun _ _ hs => hs.2)
      (fun _ _ hs => hs.2)
  apply hwritten.bind
  intro _
  exact Does.pure (fun s hs => ⟨hs.2.trans (hb ▸ hv.symm), hs.1.2.trans hb.symm⟩)

/-- A profile is only new when there is nothing to migrate it from. -/
theorem migrateFrom_fresh (sources : List Dir) (failed : Bool) :
    Does (Placed s₀ s₀.disk) (migrateFrom h plan target sources failed)
      (fun source _ => source = none → failed = false ∧ ∀ dir ∈ sources, s₀.disk (h.resolve dir) = none)
      (fun _ _ => True) := by
  induction sources generalizing failed with
  | nil =>
    cases failed with
    | true => exact Meets.raise (fun _ _ => trivial)
    | false =>
      apply does_trivial.bind
      intro _
      exact Does.pure (fun _ _ _ => ⟨rfl, nofun⟩)
  | cons source sources ih =>
    apply (exists?_does.mono (fun _ => id) (fun _ _ => id) (fun _ _ _ => trivial)).bind
    intro found
    apply Does.of_fact
    intro hfound
    cases found with
    | false =>
      apply (ih failed).mono (fun _ => id) _ (fun _ _ => id)
      intro chosen s hfresh hnone
      obtain ⟨hfailed, hsources⟩ := hfresh hnone
      refine ⟨hfailed, fun dir hdir => ?_⟩
      obtain rfl | hdir := List.mem_cons.mp hdir
      · exact Option.not_isSome_iff_eq_none.mp (by rw [← hfound]; nofun)
      · exact hsources dir hdir
    | true =>
      obtain ⟨folder, hfolder⟩ := Option.isSome_iff_exists.mp hfound.symm
      have hcandidate : candidateOf h s₀ (some source) = some folder := hfolder
      have hattempted : Does (Placed s₀ s₀.disk) (attempt (publishProfileCandidate h plan target (some source)))
          (fun result s => result = none → Placed s₀ s₀.disk s) (fun _ _ => True) :=
        (publishProfileCandidate_does hcandidate).attempt (fun _ _ _ => nofun) (fun _ hs _ => hs) (fun _ _ => trivial)
      apply hattempted.bind
      intro result
      cases result with
      | some _ => exact Does.pure (fun _ _ => nofun)
      | none =>
        apply (ih true).mono (fun _ hs => hs rfl) _ (fun _ _ => id)
        intro chosen s hfresh hnone
        exact absurd (hfresh hnone).1 nofun

theorem commitProfile_fresh :
    Does (Placed s₀ s₀.disk) (commitProfile h plan clock p)
      (fun source _ => source = none → s₀.disk (h.resolve p.target) = none →
        s₀.disk (h.resolve (legacyDeviceProfileDir h p.serial)) = none ∧
          s₀.disk (h.resolve (deviceProfileDir h p.serial (oppositeProfileKind p.kind))) = none)
      (fun _ _ => True) := by
  have hmigrated : Does (Placed s₀ s₀.disk) (migrateDeviceProfile h plan p.serial p.kind p.target)
      (fun r _ => (r.1 = none → s₀.disk (h.resolve p.target) = none →
        s₀.disk (h.resolve (legacyDeviceProfileDir h p.serial)) = none ∧
          s₀.disk (h.resolve (deviceProfileDir h p.serial (oppositeProfileKind p.kind))) = none) ∧ True)
      (fun _ _ => True) := by
    apply (exists?_does.mono (fun _ => id) (fun _ _ => id) (fun _ _ _ => trivial)).bind
    intro found
    apply Does.of_fact
    intro hfound
    cases found with
    | true =>
      refine Does.pure (fun _ _ => ⟨fun _ hnone => ?_, trivial⟩)
      rw [hnone] at hfound
      cases hfound
    | false =>
      have hensured : Does (Placed s₀ s₀.disk) (ensureDir plan) (fun _ => Placed s₀ s₀.disk) (fun _ _ => True) :=
        Does.perform (fun _ => id) (fun _ _ _ => trivial)
      apply hensured.bind
      intro _
      apply (migrateFrom_fresh _ false).bind
      intro source
      refine Does.pure (fun _ hfresh => ⟨fun hnone _ => ?_, trivial⟩)
      have hsources := (hfresh hnone).2
      exact ⟨hsources _ List.mem_cons_self, hsources _ (List.mem_cons_of_mem _ List.mem_cons_self)⟩
  apply hmigrated.bind
  intro r
  obtain ⟨source, created⟩ := r
  apply Does.of_fact
  intro hfresh
  apply does_trivial.bind
  intro _
  apply does_trivial.bind
  intro _
  apply does_trivial.bind
  intro _
  apply does_trivial.bind
  intro _
  apply does_trivial.bind
  intro _
  apply does_trivial.bind
  intro _
  apply does_trivial.bind
  intro _
  exact Does.pure (fun _ _ => hfresh)

omit [DecidableEq F] in
theorem usable_files (disk : F → Option (Folder β ρ)) (f : F) :
    usable h.codec (((disk f).map Folder.scope).getD nothing) =
      ((files disk f).1.bind h.decode).or ((files disk f).2.bind h.decode) := by
  rw [files]
  cases disk f <;> rfl

theorem told_files {disk disk' : F → Option (Folder β ρ)} {f : F} (hfiles : files disk f = files disk' f)
    (hthere : f ≠ h.resolve [] → (disk f).isSome = (disk' f).isSome) : told h disk f = told h disk' f := by
  have husable : usable h.codec (((disk f).map Folder.scope).getD nothing) =
      usable h.codec (((disk' f).map Folder.scope).getD nothing) := by
    rw [usable_files, usable_files, hfiles]
  by_cases hbase : f = h.resolve []
  · rw [told, told, if_pos hbase, if_pos hbase, husable]
  · have hsame := hthere hbase
    rw [told, told, if_neg hbase, if_neg hbase]
    cases hdisk : disk f with
    | none =>
      rw [hdisk] at hsame
      have hnone : disk' f = none := Option.not_isSome_iff_eq_none.mp (by rw [← hsame]; exact Bool.false_ne_true)
      rw [hnone]
    | some folder =>
      rw [hdisk] at hsame
      obtain ⟨folder', hfolder'⟩ := Option.isSome_iff_exists.mp hsame.symm
      rw [hdisk, hfolder'] at husable
      rw [hfolder', Option.map_some, Option.map_some]
      exact congrArg (fun o => some (modeOf h.toTables o)) husable

/-- A target that was there gets the files of the snapshot back, or keeps what it has. -/
theorem rollback_target (htarget : h.resolve p.target ≠ h.resolve []) (hp : Snapshots h p s₀)
    (hs : Broken h p s₀ s) (hthere : (s₀.disk (h.resolve p.target)).isSome = true) :
    ((rollback h p s).disk (h.resolve p.target)).isSome = true ∧
      (files (rollback h p s).disk (h.resolve p.target) = files s₀.disk (h.resolve p.target) ∨
        p.pending = none ∧ (rollback h p s).disk (h.resolve p.target) = s.disk (h.resolve p.target)) := by
  have hfound := found_of_broken hp hs
  have hcreated : ¬(resumed p s).locals.candidateCreated = true := by
    intro htrue
    rw [resumed_locals] at htrue
    rw [hfound.created htrue] at hthere
    cases hthere
  have hdisk : (s.disk (h.resolve p.target)).isSome = true := by
    obtain hs | ⟨created, commit, hs⟩ := hs
    · rw [hs.disk]
      exact hthere
    · exact hs.there
  rw [files_congr (rollback_other s htarget), rollback_other s htarget, withdrawn, rollbackTarget, if_neg hcreated]
  cases hsnapshot : p.targetSnapshot with
  | some snapshot =>
    refine ⟨?_, .inl ((restore_files snapshot).trans (hp.target snapshot hsnapshot).1)⟩
    apply put_there
    rw [resumed_disk]
    exact hdisk
  | none =>
    dsimp only
    rw [resumed_disk]
    refine ⟨hdisk, .inr ⟨?_, rfl⟩⟩
    by_contra hpending
    have htaken := hp.pending (Option.isSome_iff_ne_none.mpr hpending) (Option.isSome_iff_ne_none.mp hthere)
    rw [hsnapshot] at htaken
    cases htaken

/-- The rollback brings back what the folders said. -/
theorem rollback_told (htarget : h.resolve p.target ≠ h.resolve []) (hp : Snapshots h p s₀)
    (hs : Broken h p s₀ s) (hmode : p.pending = none → (told h s₀.disk (h.resolve p.target)).isSome = true →
      told h s.disk (h.resolve p.target) = told h s₀.disk (h.resolve p.target)) :
    told h (rollback h p s).disk = told h s₀.disk := by
  have hrolled := rollback_rolledBack False htarget hp hs
  funext f
  by_cases hbase : f = h.resolve []
  · subst hbase
    exact told_files hrolled.global (fun hne => absurd rfl hne)
  · by_cases hf : f = h.resolve p.target
    · subst hf
      cases hdisk : s₀.disk (h.resolve p.target) with
      | none => exact told_congr ((hrolled.absent hdisk nofun).trans hdisk.symm)
      | some folder =>
        have hthere : (s₀.disk (h.resolve p.target)).isSome = true := by
          rw [hdisk]
          rfl
        obtain ⟨hsome, hfiles | ⟨hnone, hsame⟩⟩ := rollback_target htarget hp hs hthere
        · exact told_files hfiles (fun _ => hsome.trans hthere.symm)
        · rw [told_congr hsame]
          apply hmode hnone
          rw [told, if_neg htarget, Option.isSome_map]
          exact hthere
    · exact told_congr (hrolled.others f hf hbase)

/-- After an activation that returned true: `v` is what the folders said before. -/
structure Taken (h : Host F β ρ) (v : F → Option Backend) (serial : Text) (kind : Kind) (source : Option Dir)
    (t : Store F β ρ) : Prop where
  configDir : t.memory.configDir = deviceProfileDir h serial kind
  mode : storedBackend h.toTables t.memory.data =
    (v (h.resolve [])).getD (startsAs v (h.resolve (deviceProfileDir h serial kind)) (source.map h.resolve))
  target : told h t.disk (h.resolve (deviceProfileDir h serial kind)) =
    some (storedBackend h.toTables t.memory.data)
  base : told h t.disk (h.resolve []) = none
  others : ∀ f, f ≠ h.resolve (deviceProfileDir h serial kind) → f ≠ h.resolve [] →
    (∀ dir, source = some dir → f ≠ h.resolve dir) → told h t.disk f = v f

/-- What is known of the folder that a profile was migrated from. -/
structure Sourced (h : Host F β ρ) (v : F → Option Backend) (serial : Text) (kind : Kind) (source : Option Dir) :
    Prop where
  migrated : ∀ dir, source = some dir → v (h.resolve (deviceProfileDir h serial kind)) = none ∧
    (v (h.resolve dir)).isSome = true ∧
    (dir = legacyDeviceProfileDir h serial ∨ dir = deviceProfileDir h serial (oppositeProfileKind kind))
  fresh : source = none → v (h.resolve (deviceProfileDir h serial kind)) = none →
    v (h.resolve (legacyDeviceProfileDir h serial)) = none ∧
      v (h.resolve (deviceProfileDir h serial (oppositeProfileKind kind))) = none

omit [DecidableEq F] in
/-- The folder that a profile was migrated from is neither that of the profile nor the base folder. -/
theorem Sourced.apart {source : Option Dir} (hown : OwnFolders h serial) (hs : Sourced h v serial kind source)
    (dir : Dir) (hdir : source = some dir) :
    h.resolve (deviceProfileDir h serial kind) ≠ h.resolve dir ∧ h.resolve [] ≠ h.resolve dir := by
  obtain ⟨habsent, hthere, hnames⟩ := hs.migrated dir hdir
  refine ⟨fun hsame => ?_, ?_⟩
  · rw [← hsame, habsent] at hthere
    cases hthere
  · obtain rfl | rfl := hnames
    · exact hown.2.symm
    · exact (hown.1 _).symm

theorem Taken.congr {source : Option Dir} (hs : Taken h v serial kind source s) (hmemory : t.memory = s.memory)
    (hsame : ∀ f, (∀ dir, source = some dir → f ≠ h.resolve dir) → told h t.disk f = told h s.disk f)
    (hsource : ∀ dir, source = some dir → h.resolve (deviceProfileDir h serial kind) ≠ h.resolve dir ∧
      h.resolve [] ≠ h.resolve dir) : Taken h v serial kind source t := by
  refine ⟨?_, ?_, ?_, ?_, ?_⟩
  · rw [hmemory]
    exact hs.configDir
  · rw [hmemory]
    exact hs.mode
  · rw [hmemory, hsame _ (fun dir hdir => (hsource dir hdir).1)]
    exact hs.target
  · rw [hsame _ (fun dir hdir => (hsource dir hdir).2)]
    exact hs.base
  · exact fun f hf hbase hdir => (hsame f hdir).trans (hs.others f hf hbase hdir)

theorem told_eq_none {disk : F → Option (Folder β ρ)} {f : F} (hbase : f ≠ h.resolve []) :
    told h disk f = none ↔ disk f = none := by
  rw [told, if_neg hbase, Option.map_eq_none_iff]

theorem sourced_of_migrated {source : Option Dir} (hown : OwnFolders h p.serial)
    (htarget : h.resolve p.target ≠ h.resolve []) (hp : p.target = deviceProfileDir h p.serial p.kind)
    (hmigrated : MigratedFrom h p s₀ source)
    (hfresh : source = none → s₀.disk (h.resolve p.target) = none →
      s₀.disk (h.resolve (legacyDeviceProfileDir h p.serial)) = none ∧
        s₀.disk (h.resolve (deviceProfileDir h p.serial (oppositeProfileKind p.kind))) = none) :
    Sourced h (told h s₀.disk) p.serial p.kind source := by
  rw [hp] at hfresh htarget
  refine ⟨fun dir hdir => ?_, fun hnone htold => ?_⟩
  · obtain ⟨habsent, hthere, hnames⟩ := hmigrated dir hdir
    rw [hp] at habsent
    refine ⟨(told_eq_none htarget).mpr habsent, ?_, hnames⟩
    have hbase : h.resolve dir ≠ h.resolve [] := by
      obtain rfl | rfl := hnames
      · exact hown.2
      · exact hown.1 _
    rw [told, if_neg hbase, Option.isSome_map]
    exact hthere
  · obtain ⟨hlegacy, hopposite⟩ := hfresh hnone ((told_eq_none htarget).mp htold)
    exact ⟨(told_eq_none hown.2).mpr hlegacy, (told_eq_none (hown.1 _)).mpr hopposite⟩

/-- A committed profile with a choice: the choice is its mode, and is no longer pending. -/
theorem ready_taken {created : Bool} {source : Option Dir} (hp : p.target = deviceProfileDir h p.serial p.kind)
    (htarget : h.resolve p.target ≠ h.resolve []) (hpending : p.pending = some b)
    (hbase : told h s₀.disk (h.resolve []) = some b) (hs : Ready h p s₀ created s)
    (hglobal : ∃ g, Pointed p g ∧ (s.world (h.resolve [])).scope.primary = some (h.encode g)) :
    Taken h (told h s₀.disk) p.serial p.kind source s := by
  have hmode : storedBackend h.toTables s.memory.data = b :=
    storedBackend_text h.toTables (hs.chosen.backend b hpending).1
  obtain ⟨g, hpointed, hg⟩ := hglobal
  refine ⟨hs.working.configDir.trans hp, ?_, ?_, ?_, ?_⟩
  · rw [hmode, hbase]
    rfl
  · rw [← hp, told_world (fun _ => hs.working.there), usable_encoded (c := h.codec) hs.written, reads, if_neg htarget]
    rfl
  · rw [told_world (fun hne => absurd rfl hne), usable_encoded (c := h.codec) hg, reads, if_pos rfl, pendingIn,
      (hpointed.cleared (by rw [hpending]; rfl)).1]
    exact pendingOf_text h.toTables none
  · intro f hf hne _
    rw [← hp] at hf
    exact told_congr (hs.working.others f hf (fun _ => hne))

theorem commitProfile_taken (hp : p.target = deviceProfileDir h p.serial p.kind) (hown : OwnFolders h p.serial)
    (hpending : p.pending = told h s₀.disk (h.resolve [])) (hlocals : s₀.locals.globalCommitStarted = false) :
    Does (Placed s₀ s₀.disk) (commitProfile h plan clock p)
      (fun source s => Sourced h (told h s₀.disk) p.serial p.kind source ∧
        Taken h (told h s₀.disk) p.serial p.kind source s)
      (fun _ s => Broken h p s₀ s ∧ (p.pending = none → (told h s₀.disk (h.resolve p.target)).isSome = true →
        told h s.disk (h.resolve p.target) = told h s₀.disk (h.resolve p.target))) := by
  have htarget : h.resolve p.target ≠ h.resolve [] := by
    rw [hp]
    exact hown.1 _
  have hready : Does (Placed s₀ s₀.disk) (commitProfile h plan clock p) _ _ := commitProfile_does htarget hlocals
  have hfresh : Does (Placed s₀ s₀.disk) (commitProfile h plan clock p) _ _ := commitProfile_fresh
  have hcommit := hready.and hfresh
  cases hnone : p.pending with
  | some b =>
    apply hcommit.mono (fun _ hs => ⟨hs, hs⟩)
    · intro source s hs
      obtain ⟨⟨hmigrated, ⟨created, hready⟩, hglobal⟩, hfresh⟩ := hs
      exact ⟨sourced_of_migrated hown htarget hp hmigrated hfresh,
        ready_taken hp htarget hnone (hpending.symm.trans hnone) hready hglobal⟩
    · exact fun _ _ hs => ⟨hs.1, nofun⟩
  | none =>
    have hshows : Does (Placed s₀ s₀.disk) (commitProfile h plan clock p) _ _ :=
      commitProfile_told hnone hown htarget
    have htold := hcommit.and hshows
    apply htold.mono (fun _ hs => ⟨⟨hs, hs⟩, hs⟩)
    · intro source s hs
      obtain ⟨⟨⟨hmigrated, ⟨created, hready⟩, _⟩, hfresh⟩, hshown, hmode⟩ := hs
      rw [hnone] at hpending
      have hbase : told h s.disk (h.resolve []) = none := by
        rw [hshown, Function.update_of_ne htarget.symm]
        exact hpending.symm
      rw [hp] at hshown hmode htarget
      refine ⟨sourced_of_migrated hown (hp ▸ htarget) hp hmigrated hfresh,
        ⟨hready.working.configDir.trans hp, ?_, ?_, hbase, ?_⟩⟩
      · rw [hmode, ← hpending]
        rfl
      · rw [hshown, Function.update_self, hmode]
      · intro f hf _ _
        rw [hshown, Function.update_of_ne hf]
    · intro _ s hs
      refine ⟨hs.1.1, fun _ hsome => ?_⟩
      obtain hsame | ⟨a, habsent, _⟩ := hs.2
      · rw [hsame]
      · rw [habsent] at hsome
        cases hsome

theorem retireMigratedProfile_told {source : Option Dir} :
    Does (fun s => s = s₀) (retireMigratedProfile h plan source)
      (fun _ t => t.memory = s₀.memory ∧ t.deferred = s₀.deferred ∧
        ∀ f, (∀ dir, source = some dir → f ≠ h.resolve dir) → told h t.disk f = told h s₀.disk f)
      (fun i _ => i = .stopped) := by
  cases source with
  | none =>
    apply Does.pure
    intro s hs
    subst hs
    exact ⟨rfl, rfl, fun _ _ => rfl⟩
  | some dir =>
    have hleft (o : Option (Folder β ρ)) (f : F) (hf : ∀ dir', some dir = some dir' → f ≠ h.resolve dir') :
        told h (s₀.setFolder h dir o).disk f = told h s₀.disk f := told_congr (setFolder_other (hf dir rfl) o)
    intro s hs
    change s.value = s₀ at hs
    cases hplan : plan s.ops with
    | proceeds =>
      simp only [retireMigratedProfile, hplan, hs]
      exact ⟨rfl, rfl, hleft none⟩
    | fails =>
      simp only [retireMigratedProfile, hplan, hs]
      exact ⟨rfl, rfl, hleft _⟩
    | stops =>
      simp only [retireMigratedProfile, hplan]
      rfl

theorem switchProfile_told (hm : Fits h v m) (hown : OwnFolders h serial) (hpending : pending = v (h.resolve []))
    (htarget : target = deviceProfileDir h serial kind) :
    Does (fun s => Before m (started F β ρ pending) s ∧ Held h v m s)
      (switchProfile h plan clock serial displayName kind target pending)
      (fun result t => result = true ∧ t.deferred = none ∧ ∃ source, Sourced h v serial kind source ∧
        Taken h v serial kind source t)
      (fun i t => i = .osError → Held h v m t) := by
  have hprepared : Does (Before m (started F β ρ pending))
      (prepare h plan clock serial displayName kind target pending) _ _ := prepare_does
  apply ((hprepared.and (prepare_held hm)).mono (fun _ => id) (fun _ _ => id)
    (fun i _ hs (_ : i = .osError) => hs.2)).bind
  intro p
  apply Does.of_each
  intro s₀ h₀
  obtain ⟨⟨hp, hsnapshots, hs₀⟩, hidle, htold⟩ := h₀
  subst htold
  have hdir : p.target = deviceProfileDir h p.serial p.kind := by
    rw [hp.target, hp.serial, hp.kind]
    exact htarget
  have hownp : OwnFolders h p.serial := by
    rw [hp.serial]
    exact hown
  have hbase : h.resolve p.target ≠ h.resolve [] := by
    rw [hdir]
    exact hownp.1 _
  have hrolled (s : Store F β ρ) (hs : Broken h p s₀ s ∧ (p.pending = none →
      (told h s₀.disk (h.resolve p.target)).isSome = true →
        told h s.disk (h.resolve p.target) = told h s₀.disk (h.resolve p.target))) :
      Held h (told h s₀.disk) m (rollback h p s) :=
    ⟨⟨(rollback_memory s).trans hp.previous, rollback_deferred hsnapshots hs₀.deferred hs.1⟩,
      rollback_told hbase hsnapshots hs.1 hs.2⟩
  have hbody : Does (fun s => s = s₀) (cleaning (commitProfile h plan clock p) (rollback h p))
      (fun source s => Sourced h (told h s₀.disk) serial kind source ∧ Taken h (told h s₀.disk) serial kind source s)
      (fun i t => i = .osError → Held h (told h s₀.disk) m t) := by
    have hcommit : Does (Placed s₀ s₀.disk) (commitProfile h plan clock p) _ _ :=
      commitProfile_taken hdir hownp (hp.pending.trans hpending) hsnapshots.globalCommitStarted
    rw [hp.serial, hp.kind] at hcommit
    apply (hcommit.mono _ (fun _ _ => id) (fun _ _ => id)).cleaning
    · exact fun s hs _ => hrolled s hs
    · exact fun _ _ hraised => Interrupt.noConfusion hraised
    · intro s hs
      subst hs
      exact ⟨rfl, rfl, rfl, rfl⟩
  apply hbody.bind
  intro source
  apply Does.of_fact
  intro hsource
  have hfinished : Does (Taken h (told h s₀.disk) serial kind source) (note finishRecoveryTransaction)
      (fun _ s => s.deferred = none ∧ Taken h (told h s₀.disk) serial kind source s)
      (fun i t => i = .osError → Held h (told h s₀.disk) m t) := by
    apply Does.note
    intro s hs
    rw [finishRecoveryTransaction]
    split
    next hdeferred => exact ⟨hdeferred, hs⟩
    next => exact ⟨rfl, hs.congr rfl (fun _ _ => rfl) (hsource.apart hown)⟩
  apply hfinished.bind
  intro _
  have hretired : Does (fun s => s.deferred = none ∧ Taken h (told h s₀.disk) serial kind source s)
      (retireMigratedProfile h plan source)
      (fun _ s => s.deferred = none ∧ Taken h (told h s₀.disk) serial kind source s)
      (fun i t => i = .osError → Held h (told h s₀.disk) m t) := by
    apply Does.of_each
    intro s₁ h₁
    obtain ⟨hdeferred, hs₁⟩ := h₁
    apply retireMigratedProfile_told.mono (fun _ => id)
    · intro _ t ht
      obtain ⟨hmemory, hsame, hdisk⟩ := ht
      exact ⟨hsame.trans hdeferred, hs₁.congr hmemory hdisk (hsource.apart hown)⟩
    · intro i _ hstopped hraised
      rw [hstopped] at hraised
      cases hraised
  apply hretired.bind
  intro _
  exact Does.pure (fun _ hs => ⟨rfl, hs.1, source, hsource, hs.2⟩)

theorem put_isSome {f : F} (hs : (s.disk f).isSome = true) (w : World β Data) :
    ((s.put h dir w).disk f).isSome = true := by
  by_cases hf : f = h.resolve dir
  · subst hf
    exact put_there hs
  · rw [put_other hf]
    exact hs

/-- A folder that is there stays while a choice is applied. -/
theorem applyChoice_there {f : F} :
    Does (fun s => (s.disk f).isSome = true) (do
        setData (chosen b)
        save h plan clock
        clearPendingPrivilegeBackend h plan clock)
      (fun _ s => (s.disk f).isSome = true) (fun _ s => (s.disk f).isSome = true) := by
  have hset (g : Data → Data) : Does (fun s : Store F β ρ => (s.disk f).isSome = true) (setData g)
      (fun _ s => (s.disk f).isSome = true) (fun _ s => (s.disk f).isSome = true) := by
    rw [setData, setMemory]
    exact Does.note (fun _ hs => hs)
  have hframe {γ : Type} (dir : Dir) (x : Files.Disk β Data γ) : Does (fun s => (s.disk f).isSome = true)
      (onPath h dir x) (fun _ s => (s.disk f).isSome = true) (fun _ s => (s.disk f).isSome = true) :=
    onPath_frame (fun _ w hs => put_isSome hs w)
  have hsave : Does (fun s => (s.disk f).isSome = true) (save h plan clock)
      (fun _ s => (s.disk f).isSome = true) (fun _ s => (s.disk f).isSome = true) := by
    apply memory_does.bind
    intro m
    exact (hframe m.path _).mono (fun _ hs => hs.2) (fun _ _ => id) (fun _ _ => id)
  apply (hset _).bind
  intro _
  apply hsave.bind
  intro _
  apply memory_does.bind
  intro m
  apply Does.mono _ (fun _ hs => hs.2) (fun _ _ => id) (fun _ _ => id)
  by_cases hpath : m.path = []
  · rw [if_pos hpath]
    apply (hset _).bind
    intro _
    exact hsave
  · rw [if_neg hpath]
    apply (hframe [] _).bind
    intro _
    exact hframe [] _

theorem rollbackChoice_held (hs : Applying h m pending s₀ s)
    (hthere : (s.disk (h.resolve m.path)).isSome = true) (hfirst : (s₀.disk (h.resolve m.path)).isSome = true) :
    Held h (told h s₀.disk) m (rollbackChoice h m (files s₀.disk (h.resolve m.path))
      (files s₀.disk (h.resolve [])) s) := by
  have hpath : s.memory.path = m.path := hs.configDir
  rw [rollbackChoice, hpath]
  refine ⟨⟨?_, put_deferred (put_deferred hs.deferred)⟩, ?_⟩
  · apply put_memory.trans
    apply put_memory.trans
    exact Memory.ext hs.configDir hs.serial hs.kind rfl
  · funext f
    by_cases hbase : f = h.resolve []
    · subst hbase
      exact told_files (restore_files _) (fun hne => absurd rfl hne)
    · by_cases hf : f = h.resolve m.path
      · subst hf
        rw [told_congr (restore_other _ hbase)]
        apply told_files (restore_files _)
        intro _
        rw [restoreSettingsFiles]
        refine Eq.trans (put_there ?_) hfirst.symm
        exact hthere
      · rw [told_congr (restore_other _ hbase), told_congr (restore_other _ hf)]
        exact told_congr (hs.others f hf hbase)

theorem reactivate_told (hm : Fits h v m) (hown : h.resolve m.path ≠ h.resolve [])
    (hpath : m.path = deviceProfileDir h serial kind) (hb : v (h.resolve []) = some b) :
    Does (fun s => Before m (started F β ρ (some b)) s ∧ Held h v m s) (reactivate h plan clock b)
      (fun result t => result = true ∧ t.deferred = none ∧ Taken h v serial kind none t)
      (fun i t => i = .osError → Held h v m t) := by
  apply memory_does.bind
  intro previous
  apply Does.of_each
  intro s₁ ⟨hprevious, hs₁, hheld⟩
  have hsame : previous = m := hprevious.trans hs₁.memory
  subst hsame
  have hkept (i : Interrupt) (s : Store F β ρ) (hs : s = s₁) : i = .osError → Held h v previous s := by
    subst hs
    exact fun _ => hheld
  apply (snapshotSettingsFiles_does.mono (fun _ => id) (fun _ _ => id) hkept).bind
  intro profileSnapshot
  apply (snapshotSettingsFiles_does.mono (fun _ => id) (fun _ _ => id) (fun i s hs => hkept i s hs.2)).bind
  intro globalSnapshot
  have hbegun : Does (fun s => globalSnapshot = files s.disk (h.resolve []) ∧
        profileSnapshot = files s.disk (h.resolve previous.path) ∧ s = s₁)
      (note beginTry) (fun _ s => (globalSnapshot = files s₁.disk (h.resolve []) ∧
        profileSnapshot = files s₁.disk (h.resolve previous.path)) ∧ s = beginTry s₁)
      (fun i t => i = .osError → Held h v previous t) := by
    apply Does.note
    intro s hs
    obtain ⟨hglobal, hprofile, rfl⟩ := hs
    exact ⟨⟨hglobal, hprofile⟩, rfl⟩
  apply hbegun.bind
  intro _
  apply Does.of_fact
  intro hsnapshots
  obtain ⟨hglobal, hprofile⟩ := hsnapshots
  subst hglobal hprofile
  have htold : told h (beginTry s₁).disk = v := hheld.2
  have hthere : ((beginTry s₁).disk (h.resolve previous.path)).isSome = true := by
    apply there_of_told _ hown
    rw [htold]
    exact hm.there
  have hs₀ : Before previous (trying (some b) (beginTry s₁).disk) (beginTry s₁) := by
    refine ⟨hs₁.memory, ?_, hs₁.deferred⟩
    change { s₁.locals with tryDisk := some s₁.disk } = trying (some b) s₁.disk
    rw [hs₁.locals]
    rfl
  have happlied : Does (fun s => s = beginTry s₁) (do
      setData (chosen b)
      save h plan clock
      clearPendingPrivilegeBackend h plan clock) _ _ := applyChoice_does hown hs₀
  have hboth := happlied.and (applyChoice_there.mono (fun s (hs : s = beginTry s₁) => hs ▸ hthere)
    (fun _ _ => id) (fun _ _ => id))
  have hcleaned : Does (fun s => s = beginTry s₁) (cleaning (do
        setData (chosen b)
        save h plan clock
        clearPendingPrivilegeBackend h plan clock)
        (rollbackChoice h previous (files s₁.disk (h.resolve previous.path)) (files s₁.disk (h.resolve []))))
      (fun _ s => (Applied h previous b (beginTry s₁) s ∧ ∃ d, (s.world (h.resolve [])).scope.primary =
        some (h.encode (merge d (clearedChoice noValues)))) ∧
          (s.disk (h.resolve previous.path)).isSome = true) (fun i t => i = .osError → Held h v previous t) := by
    apply (hboth.mono (fun _ hs => ⟨hs, hs⟩) (fun _ _ => id) (fun _ _ => id)).cleaning
    · intro s hs _
      have hheld := rollbackChoice_held hs.1 hs.2 hthere
      rw [htold] at hheld
      exact hheld
    · exact fun _ _ hraised => Interrupt.noConfusion hraised
  apply hcleaned.bind
  intro _
  apply Does.pure
  intro s hs
  obtain ⟨⟨hs, d, hd⟩, hstill⟩ := hs
  have hmode : storedBackend h.toTables s.memory.data = b := by
    rw [hs.data]
    exact storedBackend_chosen h.toTables b _
  refine ⟨rfl, hs.applying.deferred, hs.applying.configDir.trans hpath, ?_, ?_, ?_, ?_⟩
  · rw [hmode, hb]
    rfl
  · rw [← hpath, told_world (fun _ => hstill), usable_encoded (c := h.codec) hs.written, reads, if_neg hown]
    rfl
  · rw [told_world (fun hne => absurd rfl hne), usable_encoded (c := h.codec) hd, reads, if_pos rfl]
    exact pendingOf_text h.toTables none
  · intro f hf hbase _
    rw [← hpath] at hf
    rw [told_congr (hs.applying.others f hf hbase)]
    exact congrFun htold f

/-- What an activation comes to when the folders say `v` before it. -/
def Comes (h : Host F β ρ) (v : F → Option Backend) (m : Memory) (serial : Text) (kind : Kind) :
    Except Interrupt Bool → Store F β ρ → Prop
  | .ok true, t => t.deferred = none ∧ ∃ source, Sourced h v serial kind source ∧ Taken h v serial kind source t
  | .ok false, t => Held h v m t
  | .error .osError, t => Held h v m t
  | .error .stopped, _ => True

theorem comes_of_raised {i : Interrupt} (ht : i = .osError → Held h v m t) : Comes h v m serial kind (.error i) t := by
  cases i with
  | osError => exact ht rfl
  | stopped => trivial

theorem activateSerial_told (hm : Fits h v m) (hown : OwnFolders h serial) (hpending : pending = v (h.resolve [])) :
    Does (fun s => Before m (started F β ρ pending) s ∧ Held h v m s)
      (activateSerial h plan clock serial displayName kind (deviceProfileDir h serial kind) pending)
      (fun result => Comes h v m serial kind (.ok result)) (fun i => Comes h v m serial kind (.error i)) := by
  apply memory_does.bind
  intro m'
  apply Does.of_pre (φ := m' = m) (fun s hs => hs.1.trans hs.2.2.1.1)
  intro hm'
  subst hm'
  by_cases hactive : serial = m'.activeProfileSerial ∧ some kind = m'.activeProfileKind ∧
      m'.configDir = deviceProfileDir h serial kind
  · rw [if_pos hactive]
    have hpath : m'.path = deviceProfileDir h serial kind := hactive.2.2
    cases pending with
    | none => exact Does.pure (fun _ hs => hs.2.2)
    | some b =>
      have hbase : h.resolve m'.path ≠ h.resolve [] := hpath ▸ hown.1 kind
      apply (reactivate_told hm hbase hpath hpending.symm).mono (fun _ hs => hs.2)
      · intro result t ht
        obtain ⟨hresult, hdeferred, htaken⟩ := ht
        subst hresult
        refine ⟨hdeferred, none, ⟨nofun, fun _ hnone => ?_⟩, htaken⟩
        have hthere := hm.there hbase
        rw [hpath, hnone] at hthere
        cases hthere
      · exact fun _ _ => comes_of_raised
  · rw [if_neg hactive]
    apply (switchProfile_told hm hown hpending rfl).mono (fun _ hs => hs.2)
    · intro result t ht
      obtain ⟨hresult, ht⟩ := ht
      subst hresult
      exact ht
    · exact fun _ _ => comes_of_raised

theorem activateDeviceProfile_told (displayName formFactor : Text) (hm : Fits h v m)
    (hown : OwnFolders h (strip h.unicode serial)) :
    Does (Held h v m) (activateDeviceProfile h plan clock serial displayName formFactor)
      (fun result => Comes h v m (strip h.unicode serial)
        (profileKindForDevice h.toTables m.data (strip h.unicode serial) formFactor) (.ok result))
      (fun i => Comes h v m (strip h.unicode serial)
        (profileKindForDevice h.toTables m.data (strip h.unicode serial) formFactor) (.error i)) := by
  rw [activateDeviceProfile]
  by_cases hserial : (strip h.unicode serial).isEmpty = true
  · rw [if_pos hserial]
    exact Does.pure (fun _ => id)
  · rw [if_neg hserial]
    have hreset : Does (Held h v m) (note (fun s => { s with locals := ⟨none, false, false, false, none⟩ }))
        (fun _ s => Before m (started F β ρ none) s ∧ Held h v m s) (fun i => Comes h v m (strip h.unicode serial)
          (profileKindForDevice h.toTables m.data (strip h.unicode serial) formFactor) (.error i)) :=
      Does.note (fun _ hs => ⟨⟨hs.1.1, rfl, hs.1.2⟩, hs⟩)
    apply hreset.bind
    intro _
    have hread : Does (fun s => Before m (started F β ρ none) s ∧ Held h v m s) (pendingPrivilegeBackend h plan clock)
        (fun pending s => pending = v (h.resolve []) ∧ Before m (started F β ρ none) s ∧ Held h v m s)
        (fun i => Comes h v m (strip h.unicode serial)
          (profileKindForDevice h.toTables m.data (strip h.unicode serial) formFactor) (.error i)) :=
      (pendingPrivilegeBackend_does.and (pendingPrivilegeBackend_held hm)).mono (fun _ => id)
        (fun _ _ hs => ⟨hs.2.1, hs.1, hs.2.2⟩) (fun _ _ hs => comes_of_raised (fun _ => hs.2))
    apply hread.bind
    intro pending
    apply Does.of_fact
    intro hpending
    have hnoted : Does (fun s => Before m (started F β ρ none) s ∧ Held h v m s)
        (note (fun s => { s with locals := { s.locals with pendingBackend := pending } }))
        (fun _ s => Before m (started F β ρ pending) s ∧ Held h v m s)
        (fun i => Comes h v m (strip h.unicode serial)
          (profileKindForDevice h.toTables m.data (strip h.unicode serial) formFactor) (.error i)) := by
      apply Does.note
      intro s hs
      obtain ⟨hs, hheld⟩ := hs
      refine ⟨⟨hs.memory, ?_, hs.deferred⟩, hheld⟩
      change { s.locals with pendingBackend := pending } = started F β ρ pending
      rw [hs.locals]
      rfl
    apply hnoted.bind
    intro _
    apply memory_does.bind
    intro m'
    apply Does.of_pre (φ := m' = m) (fun s hs => hs.1.trans hs.2.2.1.1)
    intro hm'
    subst hm'
    exact (activateSerial_told hm hown hpending).mono (fun _ hs => hs.2) (fun _ _ => id) (fun _ _ => id)

end OpenAdb.Settings.Selection
