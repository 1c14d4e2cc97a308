import OpenAdb.Lib.Runs
import OpenAdb.Settings.Selection

namespace OpenAdb.Settings.Offline

open OpenAdb.Lib.Effects OpenAdb.Lib.Faults OpenAdb.Lib.PyText OpenAdb.Lib.Runs
  OpenAdb.Settings.Files OpenAdb.Settings.Values OpenAdb.Settings.Profile
  OpenAdb.Settings.Activation OpenAdb.Settings.Transaction OpenAdb.Settings.Readings
  OpenAdb.Settings.Choices OpenAdb.Settings.Selection
open OpenAdb.Backup.Names (isDots safeFilename)

variable {F β ρ : Type} {h : Host F β ρ} {plan : Nat → Verdict} {clock : Nat → Nat}
  {s t : Store F β ρ} {m : Memory} {v : F → Option Backend} {serial : Text} {kind : Kind}

/-- A new settings manager, which knows nothing but the disk. -/
def fresh (h : Host F β ρ) (s : Store F β ρ) : Store F β ρ :=
  { s with
    memory := ⟨[], [], none, defaultSettings h.toTables⟩
    deferred := none
    published := [] }

inductive Action
  | select (value : PyObject) (profileAvailable : Bool)
  | activate (serial displayName formFactor : Text)
  | restart

/-- A call, and what becomes of its file operations. -/
structure Call where
  action : Action
  plan : Nat → Verdict
  clock : Nat → Nat

/-- What is chosen: the mode that waits for a profile, and the mode of each profile by its folder. -/
@[ext] structure Choices (F : Type) where
  pending : Option Backend
  modes : F → Option Backend

/-- An activation uses the pending choice up. Without one a profile keeps its mode, a migrated one that of
its source, and a new one is standard; the folder of the source is given up. -/
structure Choices.Activated (A A' : Choices F) (target : F) (olds : List F) (source : Option F) : Prop where
  pending : A'.pending = none
  mode : A'.modes target = some (A.pending.getD (startsAs A.modes target source))
  others : ∀ f, f ≠ target → source ≠ some f → A'.modes f = A.modes f
  migrated : ∀ f, source = some f → f ∈ olds ∧ A.modes target = none ∧ (A.modes f).isSome = true
  fresh : source = none → A.modes target = none → ∀ f ∈ olds, A.modes f = none

/-- A name of dots would name a folder that holds the profiles of others. -/
def OwnProfile (h : Host F β ρ) (serial : Text) : Prop :=
  ¬isDots (safeFilename h.unicode serial) ∧ OwnFolders h serial

/-- The condition on a call. -/
def Call.Own (h : Host F β ρ) (c : Call) : Prop :=
  match c.action with
  | .activate serial _ _ => OwnProfile h (strip h.unicode serial)
  | _ => True

variable [DecidableEq F]

/-- The constructor. -/
def start (h : Host F β ρ) (plan : Nat → Verdict) (clock : Nat → Nat) : Act F β ρ Unit := do
  note (fresh h)
  ensureDir plan
  load h plan clock
  setData (normalizeWirelessModeSettings h.toTables)
  setData (normalizePrivilegeSettings h.toTables true)
  ensureDefaultFolders h plan clock

/-- The result is whether an activation switched or changed a profile. -/
def Call.run (h : Host F β ρ) (c : Call) : Act F β ρ Bool :=
  match c.action with
  | .select value profileAvailable => do
    let _ ← selectPrivilegeBackend h c.plan c.clock value profileAvailable
    pure false
  | .activate serial displayName formFactor =>
    activateDeviceProfile h c.plan c.clock serial displayName formFactor
  | .restart => do
    start h c.plan c.clock
    pure false

def Call.result (h : Host F β ρ) (s : Store F β ρ) (c : Call) : Except Interrupt Bool := (c.run h ⟨s, 0⟩).1

/-- Of the calls only an activation may fail. -/
def step (h : Host F β ρ) (s : Store F β ρ) (c : Call) : Option (Store F β ρ) :=
  match c.action, c.run h ⟨s, 0⟩ with
  | _, (.ok _, t) => some t.value
  | .activate _ _ _, (.error .osError, t) => some t.value
  | _, _ => none

def choices (h : Host F β ρ) (s : Store F β ρ) : Choices F :=
  ⟨told h s.disk (h.resolve []), fun f => if f = h.resolve [] then none else told h s.disk f⟩

/-- The folder of the profile that an activation is for, and those it may be migrated from. -/
def targetOf (h : Host F β ρ) (s : Store F β ρ) (serial formFactor : Text) : F :=
  h.resolve (deviceProfileDir h (strip h.unicode serial)
    (profileKindForDevice h.toTables s.memory.data (strip h.unicode serial) formFactor))

def sourcesOf (h : Host F β ρ) (s : Store F β ρ) (serial formFactor : Text) : List F :=
  [h.resolve (legacyDeviceProfileDir h (strip h.unicode serial)),
    h.resolve (deviceProfileDir h (strip h.unicode serial) (oppositeProfileKind
      (profileKindForDevice h.toTables s.memory.data (strip h.unicode serial) formFactor)))]

/-- What a call does to the choices. -/
def Follows (h : Host F β ρ) (s : Store F β ρ) (c : Call) (t : Store F β ρ) : Prop :=
  match c.action with
  | .restart => choices h t = choices h s
  | .select value false =>
    choices h t = { choices h s with
      pending := some (normalizePrivilegeBackendValue h.toTables value) }
  | .select value true => choices h t = if s.memory.path = [] then choices h s else
      { choices h s with
        modes := Function.update (choices h s).modes (h.resolve s.memory.path)
          (some (normalizePrivilegeBackendValue h.toTables value)) }
  | .activate serial _ formFactor =>
    if c.result h s = .ok true then
      ∃ source, (choices h s).Activated (choices h t) (targetOf h s serial formFactor)
        (sourcesOf h s serial formFactor) source
    else choices h t = choices h s

/-- A call that neither queues a choice nor uses one up. -/
def Quiet (h : Host F β ρ) (s : Store F β ρ) (c : Call) : Prop :=
  (∀ value, c.action ≠ .select value false) ∧ c.result h s ≠ .ok true

/-- What is promised from a state on. A queued choice waits through every call that neither replaces it nor
activates a profile, and then goes to the first profile that is activated. -/
structure UsedOnce (h : Host F β ρ) (s : Store F β ρ) : Prop where
  follows : ∀ c t, c.Own h → step h s c = some t → Follows h s c t
  waits : ∀ later t, (∀ c ∈ later, c.Own h) → exec (step h) s later = some t → Along (step h) (Quiet h) s later →
    (choices h t).pending = (choices h s).pending
  applied : ∀ value plan clock s₁ later s₂ serial displayName formFactor plan' clock' t,
    step h s ⟨.select value false, plan, clock⟩ = some s₁ →
    (∀ c ∈ later, c.Own h) → exec (step h) s₁ later = some s₂ → Along (step h) (Quiet h) s₁ later →
    OwnProfile h (strip h.unicode serial) →
    Call.result h s₂ ⟨.activate serial displayName formFactor, plan', clock'⟩ = .ok true →
    step h s₂ ⟨.activate serial displayName formFactor, plan', clock'⟩ = some t →
      (choices h s₂).pending = some (normalizePrivilegeBackendValue h.toTables value) ∧
      (choices h t).pending = none ∧
      (choices h t).modes (targetOf h s₂ serial formFactor) =
        some (normalizePrivilegeBackendValue h.toTables value)

/-- Between two calls memory and disk agree. -/
structure Settled (h : Host F β ρ) (v : F → Option Backend) (s : Store F β ρ) : Prop where
  deferred : s.deferred = none
  told : told h s.disk = v
  fits : Fits h v s.memory

theorem Settled.held (hs : Settled h v s) : Held h v s.memory s := ⟨⟨rfl, hs.deferred⟩, hs.told⟩

theorem settled_of_held (hs : Held h v m s) (hm : Fits h v m) : Settled h v s := by
  obtain ⟨⟨rfl, hdeferred⟩, htold⟩ := hs
  exact ⟨hdeferred, htold, hm⟩

theorem settled_of_taken {source : Option Dir} (hown : OwnFolders h serial) (hdeferred : t.deferred = none)
    (ht : Taken h v serial kind source t) : Settled h (told h t.disk) t := by
  have hpath : t.memory.path = deviceProfileDir h serial kind := ht.configDir
  refine ⟨hdeferred, rfl, ⟨fun _ => ?_, ?_⟩⟩
  · rw [hpath]
    exact hown.1 kind
  · rw [hpath, ht.target, reads, if_neg (hown.1 kind)]
    rfl

theorem setData_held (g : Data → Data) : Does (Held h v m) (setData g)
    (fun _ => Held h v { m with data := g m.data }) (fun _ => Held h v m) := by
  rw [setData, setMemory]
  apply Does.note
  intro s hs
  obtain ⟨⟨rfl, hdeferred⟩, htold⟩ := hs
  exact ⟨⟨rfl, hdeferred⟩, htold⟩

/-- A choice for the current folder. -/
theorem select_available (value : PyObject) (hm : Fits h v m) :
    Does (Held h v m) (selectPrivilegeBackend h plan clock value true)
      (fun _ => Settled h (Function.update v (h.resolve m.path) (reads h (h.resolve m.path)
        (some (chosen (normalizePrivilegeBackendValue h.toTables value) m.data))))) (fun _ _ => True) := by
  rw [selectPrivilegeBackend, if_pos rfl]
  generalize hb : normalizePrivilegeBackendValue h.toTables value = b
  have hset : Does (Held h v m) (setData (chosen b)) (fun _ => Held h v { m with data := chosen b m.data })
      (fun _ _ => True) := (setData_held (chosen b)).mono (fun _ => id) (fun _ _ => id) (fun _ _ _ => trivial)
  apply hset.bind
  intro _
  have hsaved : Does (Held h v { m with data := chosen b m.data }) (save h plan clock)
      (fun _ => Held h (Function.update v (h.resolve m.path) (reads h (h.resolve m.path) (some (chosen b m.data))))
        { m with data := chosen b m.data }) (fun _ _ => True) := save_changes hm.there
  apply hsaved.bind
  intro _
  apply Does.pure
  intro s hs
  exact settled_of_held hs ⟨hm.own, Function.update_self ..⟩

/-- What the global settings say once a choice is queued. -/
theorem reads_queued (b : Backend) (d : Data) : reads h (h.resolve [])
    (some (merge d (set (chosen b noValues) .pendingPrivilegeBackend (.str b.text)))) = some b := by
  rw [reads, if_pos rfl]
  exact pendingOf_text h.toTables (some b)

theorem select_queued (value : PyObject) (hm : Fits h v m) :
    Does (Held h v m) (selectPrivilegeBackend h plan clock value false)
      (fun _ => Settled h (Function.update v (h.resolve [])
        (some (normalizePrivilegeBackendValue h.toTables value)))) (fun _ _ => True) := by
  rw [selectPrivilegeBackend, if_neg nofun]
  generalize hb : normalizePrivilegeBackendValue h.toTables value = b
  generalize hvalues : set (chosen b noValues) .pendingPrivilegeBackend (.str b.text) = values
  have hreads (d : Data) : reads h (h.resolve []) (some (merge d values)) = some b := by
    rw [← hvalues]
    exact reads_queued b d
  have hset : Does (Held h v m) (setGlobalValues h plan clock values)
      (fun _ => Settled h (Function.update v (h.resolve []) (some b))) (fun _ _ => True) := by
    apply (memory_held.mono (fun _ => id) (fun _ _ => id) (fun _ _ _ => trivial)).bind
    intro m'
    apply Does.of_fact
    intro hm'
    subst hm'
    by_cases hpath : m'.path = []
    · rw [if_pos hpath]
      have hmerged : Does (Held h v m') (setData (fun d => merge d values))
          (fun _ => Held h v { m' with data := merge m'.data values }) (fun _ _ => True) :=
        (setData_held _).mono (fun _ => id) (fun _ _ => id) (fun _ _ _ => trivial)
      apply hmerged.bind
      intro _
      have hsaved : Does (Held h v { m' with data := merge m'.data values }) (save h plan clock)
          (fun _ => Held h (Function.update v (h.resolve m'.path)
            (reads h (h.resolve m'.path) (some (merge m'.data values)))) { m' with data := merge m'.data values })
          (fun _ _ => True) := save_changes hm.there
      rw [hpath, hreads] at hsaved
      apply hsaved.mono (fun _ => id) _ (fun _ _ => id)
      intro _ s hs
      refine settled_of_held hs ⟨fun hne => absurd hpath hne, ?_⟩
      change Function.update v (h.resolve []) (some b) (h.resolve m'.path) =
        reads h (h.resolve m'.path) (some (merge m'.data values))
      rw [hpath, Function.update_self, hreads]
    · rw [if_neg hpath]
      apply ((loadSettingsPath_held base_there).mono (fun _ => id) (fun _ _ hs => hs.2) (fun _ _ _ => trivial)).bind
      intro loaded
      have hwritten : Does (Held h v m') (writeSettingsPath h plan []
          (merge (merge (defaultSettings h.toTables) (loaded.getD noValues)) values)) _ _ :=
        onPath_changes (fun _ w hs => hs.put w) base_there (fun _ => writeJsonAtomic_writes (fun _ => rfl))
      rw [hreads] at hwritten
      apply hwritten.mono (fun _ => id) _ (fun _ _ => id)
      intro _ s hs
      refine settled_of_held hs ⟨hm.own, ?_⟩
      rw [Function.update_of_ne (hm.own hpath)]
      exact hm.data
  apply hset.bind
  intro _
  exact Does.pure (fun _ => id)

/-- While no profile is active. -/
def AtBase (h : Host F β ρ) (v : F → Option Backend) (s : Store F β ρ) : Prop :=
  s.memory.path = [] ∧ Settled h v s

theorem atBase_of_held {m : Memory} (hpath : m.path = []) (hdata : pendingIn h.toTables (some m.data) = v (h.resolve []))
    (hs : Held h v m s) : AtBase h v s := by
  refine ⟨?_, settled_of_held hs ⟨fun hne => absurd hpath hne, ?_⟩⟩
  · rw [hs.1.1]
    exact hpath
  · rw [hpath, reads, if_pos rfl, hdata]

theorem setData_atBase {g : Data → Data} (hg : ∀ d, pendingIn h.toTables (some (g d)) = pendingIn h.toTables (some d)) :
    Does (AtBase h v) (setData g) (fun _ => AtBase h v) (fun _ _ => True) := by
  apply Does.of_each
  intro s hs
  obtain ⟨hpath, hsettled⟩ := hs
  have hset : Does (Held h v s.memory) (setData g) (fun _ => Held h v { s.memory with data := g s.memory.data })
      (fun _ => Held h v s.memory) := setData_held g
  apply hset.mono _ _ (fun _ _ _ => trivial)
  · intro u hu
    subst hu
    exact hsettled.held
  · intro _ u hu
    have hdata := hsettled.fits.data
    rw [hpath, reads, if_pos rfl] at hdata
    refine atBase_of_held ?_ ?_ hu
    · exact hpath
    · exact (hg _).trans hdata.symm

theorem save_atBase : Does (AtBase h v) (save h plan clock) (fun _ => AtBase h v) (fun _ _ => True) := by
  apply Does.of_each
  intro s hs
  obtain ⟨hpath, hsettled⟩ := hs
  apply (save_held hsettled.fits).mono _ _ (fun _ _ _ => trivial)
  · intro u hu
    subst hu
    exact hsettled.held
  · intro _ u hu
    refine ⟨?_, settled_of_held hu hsettled.fits⟩
    rw [hu.1.1]
    exact hpath

theorem ensureDefaultFolder_atBase (key : FolderKey) :
    Does (AtBase h v) (ensureDefaultFolder h plan key) (fun _ => AtBase h v) (fun _ _ => True) := by
  apply memory_does.bind
  intro m
  have hset : Does (fun s => m = s.memory ∧ AtBase h v s) (setMemory (withFolder h key)) (fun _ => AtBase h v)
      (fun _ _ => True) := by
    rw [setMemory]
    apply Does.note
    intro s hs
    obtain ⟨_, hpath, hsettled⟩ := hs
    have hdata := hsettled.fits.data
    rw [hpath, reads, if_pos rfl] at hdata
    apply atBase_of_held (m := withFolder h key s.memory)
    · exact (withFolder_configDir key s.memory).trans hpath
    · exact (pendingIn_withFolder h.toTables key s.memory).trans hdata.symm
    · exact ⟨⟨rfl, hsettled.deferred⟩, hsettled.told⟩
  apply hset.bind
  intro _
  have hensured : Does (AtBase h v) (ensureDir plan) (fun _ => AtBase h v) (fun _ _ => True) :=
    Does.perform (fun _ => id) (fun _ _ _ => trivial)
  apply hensured.bind
  intro _
  exact Does.pure (fun _ => id)

theorem load_atBase {m : Memory} (hpath : m.path = []) (hdefaults : m.data = defaultSettings h.toTables) :
    Does (Held h v m) (load h plan clock) (fun _ => AtBase h v) (fun _ _ => True) := by
  apply (memory_held.mono (fun _ => id) (fun _ _ => id) (fun _ _ _ => trivial)).bind
  intro m'
  apply Does.of_fact
  intro hm'
  subst hm'
  rw [hpath]
  apply ((loadSettingsPath_held base_there).mono (fun _ => id) (fun _ _ => id) (fun _ _ _ => trivial)).bind
  intro loaded
  apply Does.of_fact
  intro hloaded
  rw [reads, if_pos rfl] at hloaded
  cases loaded with
  | none =>
    apply Does.pure
    intro s hs
    apply atBase_of_held hpath _ hs
    rw [hdefaults, ← hloaded]
    exact pendingOf_text h.toTables none
  | some loaded =>
    apply (setData_held _).mono (fun _ => id) _ (fun _ _ _ => trivial)
    intro _ s hs
    apply atBase_of_held _ _ hs
    · exact hpath
    · change pendingIn h.toTables (some (adopt h.toTables (decide ([] = ([] : Dir))) loaded)) = _
      rw [decide_eq_true rfl, pendingIn_adopt]
      exact hloaded

/-- A restart changes no choice. -/
theorem start_settled : Does (fun s => told h s.disk = v) (start h plan clock) (fun _ => Settled h v)
    (fun _ _ => True) := by
  have hfresh : Does (fun s => told h s.disk = v) (note (fresh h))
      (fun _ => Held h v ⟨[], [], none, defaultSettings h.toTables⟩) (fun _ _ => True) :=
    Does.note (fun _ hs => ⟨⟨rfl, rfl⟩, hs⟩)
  apply hfresh.bind
  intro _
  have hensured : Does (Held h v ⟨[], [], none, defaultSettings h.toTables⟩) (ensureDir plan)
      (fun _ => Held h v ⟨[], [], none, defaultSettings h.toTables⟩) (fun _ _ => True) :=
    Does.perform (fun _ => id) (fun _ _ _ => trivial)
  apply hensured.bind
  intro _
  apply (load_atBase rfl rfl).bind
  intro _
  have hwireless (d : Data) : pendingIn h.toTables (some (normalizeWirelessModeSettings h.toTables d)) =
      pendingIn h.toTables (some d) := by
    rw [pendingIn, pendingIn, normalizeWirelessModeSettings_other h.toTables .pendingPrivilegeBackend (by simp) (by simp)]
  apply (setData_atBase hwireless).bind
  intro _
  apply (setData_atBase (pendingIn_normalizePrivilegeSettings h.toTables)).bind
  intro _
  apply (ensureDefaultFolder_atBase .backups).bind
  intro backups
  apply (ensureDefaultFolder_atBase .temp).bind
  intro temp
  apply (ensureDefaultFolder_atBase .logs).bind
  intro logs
  by_cases hchanged : (backups || temp || logs) = true
  · rw [if_pos hchanged]
    exact save_atBase.mono (fun _ => id) (fun _ _ hs => hs.2) (fun _ _ => id)
  · rw [if_neg hchanged]
    exact Does.pure (fun _ hs => hs.2)

theorem choices_congr (hsame : told h t.disk = told h s.disk) : choices h t = choices h s := by
  rw [choices, choices, hsame]

theorem choices_queued {b : Backend} (ht : told h t.disk = Function.update (told h s.disk) (h.resolve []) (some b)) :
    choices h t = { choices h s with pending := some b } := by
  rw [choices, ht]
  ext1
  · exact Function.update_self ..
  · funext f
    by_cases hbase : f = h.resolve []
    · simp only [choices, if_pos hbase]
    · simp only [choices, if_neg hbase, Function.update_of_ne hbase]

theorem choices_chosen {b : Backend} {f : F} (hf : f ≠ h.resolve [])
    (ht : told h t.disk = Function.update (told h s.disk) f (some b)) :
    choices h t = { choices h s with modes := Function.update (choices h s).modes f (some b) } := by
  rw [choices, ht]
  ext1
  · exact Function.update_of_ne hf.symm ..
  · funext g
    by_cases hbase : g = h.resolve []
    · have hne : g ≠ f := fun hsame => hf (hsame ▸ hbase)
      simp only [choices, if_pos hbase, Function.update_of_ne hne]
    · by_cases hg : g = f
      · subst hg
        simp only [if_neg hbase, Function.update_self]
      · simp only [choices, if_neg hbase, Function.update_of_ne hg]

theorem modes_of_ne {f : F} (hbase : f ≠ h.resolve []) : (choices h s).modes f = told h s.disk f := if_neg hbase

theorem startsAs_modes {target : F} {source : Option F} (htarget : target ≠ h.resolve [])
    (hsource : ∀ f, source = some f → f ≠ h.resolve []) :
    startsAs (choices h s).modes target source = startsAs (told h s.disk) target source := by
  rw [startsAs, startsAs, modes_of_ne htarget]
  cases source with
  | none => rfl
  | some f => rw [Option.bind_some, Option.bind_some, modes_of_ne (hsource f rfl)]

theorem activated_of_taken {source : Option Dir} (hown : OwnFolders h serial)
    (hsource : Sourced h (told h s.disk) serial kind source) (ht : Taken h (told h s.disk) serial kind source t) :
    (choices h s).Activated (choices h t) (h.resolve (deviceProfileDir h serial kind))
      [h.resolve (legacyDeviceProfileDir h serial), h.resolve (deviceProfileDir h serial (oppositeProfileKind kind))]
      (source.map h.resolve) := by
  have hbase (f : F) (hf : source.map h.resolve = some f) : f ≠ h.resolve [] := by
    obtain ⟨dir, hdir, rfl⟩ := Option.map_eq_some_iff.mp hf
    exact (hsource.apart hown dir hdir).2.symm
  refine ⟨ht.base, ?_, ?_, ?_, ?_⟩
  · rw [modes_of_ne (hown.1 kind), ht.target, ht.mode, startsAs_modes (hown.1 kind) hbase]
    rfl
  · intro f hf hne
    by_cases hf' : f = h.resolve []
    · simp only [choices, if_pos hf']
    · rw [modes_of_ne hf', modes_of_ne hf']
      apply ht.others f hf hf'
      intro dir hdir hsame
      rw [hdir, Option.map_some, hsame] at hne
      exact hne rfl
  · intro f hf
    obtain ⟨dir, hdir, rfl⟩ := Option.map_eq_some_iff.mp hf
    obtain ⟨habsent, hthere, hnames⟩ := hsource.migrated dir hdir
    rw [modes_of_ne (hown.1 kind), modes_of_ne (hbase _ hf)]
    refine ⟨?_, habsent, hthere⟩
    obtain rfl | rfl := hnames
    · exact List.mem_cons_self
    · exact List.mem_cons_of_mem _ List.mem_cons_self
  · intro hnone habsent f hf
    rw [modes_of_ne (hown.1 kind)] at habsent
    obtain ⟨hlegacy, hopposite⟩ := hsource.fresh (Option.map_eq_none_iff.mp hnone) habsent
    obtain rfl | hf := List.mem_cons.mp hf
    · rw [modes_of_ne hown.2]
      exact hlegacy
    · rw [List.mem_singleton.mp hf, modes_of_ne (hown.1 _)]
      exact hopposite

theorem step_of_select {value : PyObject} {profileAvailable : Bool}
    (hstep : step h s ⟨.select value profileAvailable, plan, clock⟩ = some t) :
    ∃ b u, selectPrivilegeBackend h plan clock value profileAvailable ⟨s, 0⟩ = (.ok b, u) ∧ t = u.value := by
  cases hrun : selectPrivilegeBackend h plan clock value profileAvailable ⟨s, 0⟩ with
  | mk r u =>
    cases r with
    | ok b =>
      refine ⟨b, u, rfl, ?_⟩
      simp only [step, Call.run, bind_ok hrun, pure_run] at hstep
      exact (Option.some.inj hstep).symm
    | error i =>
      simp only [step, Call.run, bind_error hrun] at hstep
      cases hstep

theorem step_of_restart (hstep : step h s ⟨.restart, plan, clock⟩ = some t) :
    ∃ u, start h plan clock ⟨s, 0⟩ = (.ok (), u) ∧ t = u.value := by
  cases hrun : start h plan clock ⟨s, 0⟩ with
  | mk r u =>
    cases r with
    | ok b =>
      refine ⟨u, rfl, ?_⟩
      simp only [step, Call.run, bind_ok hrun, pure_run] at hstep
      exact (Option.some.inj hstep).symm
    | error i =>
      simp only [step, Call.run, bind_error hrun] at hstep
      cases hstep

theorem step_of_activate {displayName formFactor : Text}
    (hstep : step h s ⟨.activate serial displayName formFactor, plan, clock⟩ = some t) :
    ∃ r u, activateDeviceProfile h plan clock serial displayName formFactor ⟨s, 0⟩ = (r, u) ∧ t = u.value ∧
      r ≠ .error .stopped := by
  cases hrun : activateDeviceProfile h plan clock serial displayName formFactor ⟨s, 0⟩ with
  | mk r u =>
    refine ⟨r, u, rfl, ?_⟩
    simp only [step, Call.run, hrun] at hstep
    cases r with
    | ok result =>
      cases hstep
      exact ⟨rfl, nofun⟩
    | error i =>
      cases i with
      | osError =>
        cases hstep
        exact ⟨rfl, nofun⟩
      | stopped => cases hstep

theorem restart_settled (hstep : step h s ⟨.restart, plan, clock⟩ = some t) : Settled h (told h s.disk) t := by
  obtain ⟨u, hrun, rfl⟩ := step_of_restart hstep
  exact start_settled.returned ⟨s, 0⟩ rfl hrun

/-- A call from a state between two calls. -/
theorem settled_step (hs : Settled h (told h s.disk) s) {c : Call} (hown : c.Own h) (hstep : step h s c = some t) :
    Settled h (told h t.disk) t ∧ Follows h s c t := by
  obtain ⟨action, plan, clock⟩ := c
  cases action with
  | restart =>
    have ht := restart_settled hstep
    rw [ht.told]
    exact ⟨ht, choices_congr ht.told⟩
  | select value profileAvailable =>
    obtain ⟨b, u, hrun, rfl⟩ := step_of_select hstep
    cases profileAvailable with
    | false =>
      have ht := (select_queued value hs.fits).returned ⟨s, 0⟩ hs.held hrun
      refine ⟨?_, choices_queued ht.told⟩
      rw [ht.told]
      exact ht
    | true =>
      have ht := (select_available value hs.fits).returned ⟨s, 0⟩ hs.held hrun
      refine ⟨?_, ?_⟩
      · rw [ht.told]
        exact ht
      · change choices h u.value = ite _ _ _
        have htold := ht.told
        by_cases hpath : s.memory.path = []
        · rw [if_pos hpath]
          apply choices_congr
          have hdata := hs.fits.data
          rw [reads, if_pos (congrArg h.resolve hpath), pendingIn_chosen] at htold
          rw [reads, if_pos (congrArg h.resolve hpath)] at hdata
          rw [htold, ← hdata, Function.update_eq_self]
        · rw [if_neg hpath]
          rw [reads, if_neg (hs.fits.own hpath), modeOf, storedBackend_chosen] at htold
          exact choices_chosen (hs.fits.own hpath) htold
  | activate serial displayName formFactor =>
    obtain ⟨r, u, hrun, rfl, hstopped⟩ := step_of_activate hstep
    have hown' : OwnFolders h (strip h.unicode serial) := hown.2
    have hresult : Call.result h s ⟨.activate serial displayName formFactor, plan, clock⟩ = r :=
      congrArg Prod.fst hrun
    have hdoes : Does (Held h (told h s.disk) s.memory)
        (activateDeviceProfile h plan clock serial displayName formFactor) _ _ :=
      activateDeviceProfile_told displayName formFactor hs.fits hown'
    have hcomes := hdoes ⟨s, 0⟩ hs.held
    rw [hrun] at hcomes
    have hheld (hne : r ≠ .ok true) (hu : Held h (told h s.disk) s.memory u.value) :
        Settled h (told h u.value.disk) u.value ∧
          Follows h s ⟨.activate serial displayName formFactor, plan, clock⟩ u.value := by
      have ht := settled_of_held hu hs.fits
      rw [Follows]
      simp only [hresult, if_neg hne]
      refine ⟨?_, choices_congr ht.told⟩
      rw [ht.told]
      exact ht
    cases r with
    | error i =>
      cases i with
      | osError => exact hheld (by simp) hcomes
      | stopped => exact absurd rfl hstopped
    | ok result =>
      cases result with
      | false => exact hheld (by simp) hcomes
      | true =>
        obtain ⟨hdeferred, source, hsource, htaken⟩ := hcomes
        refine ⟨settled_of_taken hown' hdeferred htaken, ?_⟩
        rw [Follows]
        simp only [hresult, if_pos]
        exact ⟨_, activated_of_taken hown' hsource htaken⟩

theorem settled_run {cs : List Call} (hs : Settled h (told h s.disk) s) (hown : ∀ c ∈ cs, c.Own h)
    (hrun : exec (step h) s cs = some t) : Settled h (told h t.disk) t := by
  induction cs generalizing s with
  | nil =>
    cases hrun
    exact hs
  | cons c cs ih =>
    obtain ⟨u, hstep, hrest⟩ := exec_cons hrun
    exact ih (settled_step hs (hown c List.mem_cons_self) hstep).1
      (fun c' hc' => hown c' (List.mem_cons_of_mem c hc')) hrest

theorem pending_of_quiet {c : Call} (hfollows : Follows h s c t) (hquiet : Quiet h s c) :
    (choices h t).pending = (choices h s).pending := by
  obtain ⟨action, plan, clock⟩ := c
  cases action with
  | restart => exact congrArg Choices.pending hfollows
  | select value profileAvailable =>
    cases profileAvailable with
    | false => exact absurd rfl (hquiet.1 value)
    | true =>
      change choices h t = ite _ _ _ at hfollows
      rw [hfollows]
      split <;> rfl
  | activate serial displayName formFactor =>
    rw [Follows] at hfollows
    simp only [if_neg hquiet.2] at hfollows
    exact congrArg Choices.pending hfollows

/-- By induction on the calls. -/
theorem pending_waits {cs : List Call} (hs : Settled h (told h s.disk) s) (hown : ∀ c ∈ cs, c.Own h)
    (hrun : exec (step h) s cs = some t) (hquiet : Along (step h) (Quiet h) s cs) :
    (choices h t).pending = (choices h s).pending := by
  induction cs generalizing s with
  | nil =>
    cases hrun
    rfl
  | cons c cs ih =>
    obtain ⟨u, hstep, hrest⟩ := exec_cons hrun
    rw [Along, hstep] at hquiet
    obtain ⟨hu, hfollows⟩ := settled_step hs (hown c List.mem_cons_self) hstep
    rw [ih hu (fun c' hc' => hown c' (List.mem_cons_of_mem c hc')) hrest hquiet.2]
    exact pending_of_quiet hfollows hquiet.1

/-- An offline choice is used exactly once. -/
theorem offline_choice_used_once (h : Host F β ρ) {plan : Nat → Verdict} {clock : Nat → Nat}
    {s₀ s : Store F β ρ} {past : List Call} (hown : ∀ c ∈ past, c.Own h)
    (hrun : exec (step h) s₀ (⟨.restart, plan, clock⟩ :: past) = some s) : UsedOnce h s := by
  obtain ⟨u, hstart, hpast⟩ := exec_cons hrun
  have hu := restart_settled hstart
  rw [← hu.told] at hu
  have hs := settled_run hu hown hpast
  refine ⟨?_, ?_, ?_⟩
  · exact fun c t hc hstep => (settled_step hs hc hstep).2
  · exact fun later t hlater hrest hquiet => pending_waits hs hlater hrest hquiet
  · intro value plan clock s₁ later s₂ serial displayName formFactor plan' clock' t hqueue hlater hrest hquiet hserial
      hresult hstep
    have hselect : Call.Own h ⟨.select value false, plan, clock⟩ := trivial
    have hactivate : Call.Own h ⟨.activate serial displayName formFactor, plan', clock'⟩ := hserial
    obtain ⟨hs₁, hqueued⟩ := settled_step hs hselect hqueue
    have hs₂ := settled_run hs₁ hlater hrest
    have hpending : (choices h s₂).pending = some (normalizePrivilegeBackendValue h.toTables value) := by
      rw [pending_waits hs₁ hlater hrest hquiet, show choices h s₁ = _ from hqueued]
    have hfollows := (settled_step hs₂ hactivate hstep).2
    rw [Follows] at hfollows
    simp only [hresult, if_pos] at hfollows
    obtain ⟨source, hactivated⟩ := hfollows
    refine ⟨hpending, hactivated.pending, ?_⟩
    rw [hactivated.mode, hpending]
    rfl

def untroubled (action : Action) : Call := ⟨action, fun _ => .proceeds, id⟩

def nowhere : Store Dir (Option Data) Unit := (atBase (fun _ => none)).value

/-- After a first start and the activation of one phone. -/
def firstCalls : List Call := [untroubled .restart, untroubled (.activate deviceA [] [])]

theorem firstCalls_used_once : ∃ s, exec (step plain) nowhere firstCalls = some s ∧ UsedOnce plain s := by
  have hsome : (exec (step plain) nowhere firstCalls).isSome = true := by decide +kernel
  obtain ⟨s, hs⟩ := Option.isSome_iff_exists.mp hsome
  refine ⟨s, hs, offline_choice_used_once plain ?_ hs⟩
  intro c hc
  rw [List.mem_singleton.mp hc]
  exact ⟨by decide, plain_ownFolders⟩

/-- The folder that a path names when dots are followed. -/
def followDots (dir : Dir) : Dir :=
  dir.foldl (fun seen name => if name = ['.'] then seen else if name = ['.', '.'] then seen.dropLast
    else seen ++ [name]) []

def dotted : Host Dir (Option Data) Unit := { plain with resolve := followDots }

/-- The parent of the folder of all phones. -/
def deviceDots : Text := ['.', '.']

def dotsProfile : Dir := deviceProfileDir dotted deviceDots .phone

/-- The choice is no longer pending, and the profile that was activated is stored in the standard mode. -/
theorem offline_choice_lost : ∃ s t,
    exec (step dotted) nowhere
      (firstCalls ++ [untroubled (.select (.str Backend.root.text) false)]) = some s ∧
    (choices dotted s).pending = some .root ∧
    Call.result dotted s (untroubled (.activate deviceDots [] [])) = .ok true ∧
    step dotted s (untroubled (.activate deviceDots [] [])) = some t ∧
    t.memory.path = dotsProfile ∧
    (choices dotted t).pending = none ∧
    modeOf dotted.toTables (usable dotted.codec (t.world (dotted.resolve dotsProfile)).scope) = .standard := by
  have hlost : (exec (step dotted) nowhere
      (firstCalls ++ [untroubled (.select (.str Backend.root.text) false)])).any (fun s =>
        (step dotted s (untroubled (.activate deviceDots [] []))).any (fun t =>
          decide ((choices dotted s).pending = some .root) &&
          decide (Call.result dotted s (untroubled (.activate deviceDots [] [])) = .ok true) &&
          decide (t.memory.path = dotsProfile) && decide ((choices dotted t).pending = none) &&
          decide (modeOf dotted.toTables
            (usable dotted.codec (t.world (dotted.resolve dotsProfile)).scope) = .standard))) = true := by
    decide +kernel
  obtain ⟨s, hs, hstep⟩ := (Option.any_eq_true _ _).mp hlost
  obtain ⟨t, ht, hall⟩ := (Option.any_eq_true _ _).mp hstep
  simp only [Bool.and_eq_true, decide_eq_true_eq] at hall
  obtain ⟨⟨⟨⟨hpending, hresult⟩, hpath⟩, hnone⟩, hmode⟩ := hall
  exact ⟨s, t, hs, hpending, hresult, ht, hpath, hnone, hmode⟩

end OpenAdb.Settings.Offline
