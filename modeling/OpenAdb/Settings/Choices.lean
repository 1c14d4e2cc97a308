import OpenAdb.Settings.Readings
import OpenAdb.Settings.Transaction

namespace OpenAdb.Settings.Choices

open OpenAdb.Lib.Effects OpenAdb.Lib.Faults OpenAdb.Lib.PyText OpenAdb.Settings.Files
  OpenAdb.Settings.Values OpenAdb.Settings.Profile OpenAdb.Settings.Activation OpenAdb.Settings.Readings

variable (T : Tables) {d d' : Data} {b : Backend} {q : Option Backend}

/-- The mode that a profile with these settings is used in. -/
def modeOf : Option Data → Backend
  | none => .standard
  | some d => storedBackend T d

/-- The choice that global settings keep for the next profile. -/
def pendingIn : Option Data → Option Backend
  | none => none
  | some d => pendingOf T (d .pendingPrivilegeBackend)

theorem lower_text (b : Backend) : Lower b.text := by cases b <;> decide

theorem aliasOf_text (b : Backend) : aliasOf b.text = some b := by cases b <;> decide

theorem text_ne_nil (b : Backend) : b.text ≠ [] := by cases b <;> nofun

theorem normalizePrivilegeBackendValue_text (b : Backend) :
    normalizePrivilegeBackendValue T (.str b.text) = b := by
  have htruthy : (PyObject.str b.text).orElse (.str Backend.standard.text) = .str b.text := by
    cases b <;> rfl
  rw [normalizePrivilegeBackendValue, htruthy, PyObject.text, strip_lower _ (lower_text b),
    casefold_lower _ (lower_text b), aliasOf_text]
  rfl

theorem pendingOf_text (q : Option Backend) : pendingOf T (some (.str (pendingText q))) = q := by
  have hlower : Lower (pendingText q) := by
    cases q with
    | none => nofun
    | some b => exact lower_text b
  rw [pendingOf, Option.getD_some, PyObject.orEmptyText, strip_lower _ hlower,
    normalizePendingPrivilegeBackendValue, strip_lower _ hlower, casefold_lower _ hlower]
  cases q with
  | none => rfl
  | some b =>
    rw [pendingText, if_neg (by simpa using text_ne_nil b)]
    exact aliasOf_text b

/-- The mode is read off two settings. -/
theorem storedBackend_congr (hbackend : d .privilegeBackend = d' .privilegeBackend)
    (hroot : d .rootModeEnabled = d' .rootModeEnabled) : storedBackend T d = storedBackend T d' := by
  rw [storedBackend, storedBackend, hbackend, hroot]

theorem storedBackend_text (h : d .privilegeBackend = some (.str b.text)) : storedBackend T d = b := by
  rw [storedBackend, h]
  exact normalizePrivilegeBackendValue_text T b

theorem storedBackend_chosen (b : Backend) (d : Data) : storedBackend T (chosen b d) = b := by
  apply storedBackend_text
  simp [chosen]

theorem modeOf_defaults : modeOf T none = modeOf T (some (defaultSettings T)) := by
  have hbackend : defaultSettings T .privilegeBackend = some (.str Backend.standard.text) := rfl
  exact (storedBackend_text T hbackend).symm

theorem pendingIn_defaults (loaded : Option Data) :
    pendingIn T (some (merge (defaultSettings T) (loaded.getD noValues))) = pendingIn T loaded := by
  cases loaded with
  | none => exact pendingOf_text T none
  | some d =>
    rw [pendingIn, pendingIn, Option.getD_some, merge]
    cases d .pendingPrivilegeBackend with
    | none => rfl
    | some value => rfl

theorem pendingIn_normalizePrivilegeSettings (d : Data) :
    pendingIn T (some (normalizePrivilegeSettings T true d)) = pendingIn T (some d) := by
  have hset : normalizePrivilegeSettings T true d .pendingPrivilegeBackend =
      some (.str (pendingText (pendingOf T (d .pendingPrivilegeBackend)))) := by
    simp [normalizePrivilegeSettings, pendingOf, textOf]
  rw [pendingIn, hset]
  exact pendingOf_text T _

theorem storedBackend_normalizePrivilegeSettings (isGlobal : Bool) (d : Data) :
    storedBackend T (normalizePrivilegeSettings T isGlobal d) =
      normalizePrivilegeBackendValue T ((d .privilegeBackend).getD (.str Backend.standard.text)) := by
  apply storedBackend_text
  simp [normalizePrivilegeSettings]

theorem normalizeWirelessModeSettings_other (key : Key) (hmode : key ≠ .wirelessConnectionMode)
    (hadb : key ≠ .wirelessAdbMode) (d : Data) : normalizeWirelessModeSettings T d key = d key := by
  rw [normalizeWirelessModeSettings, set_of_ne hadb, set_of_ne hmode]

/-- A load keeps the mode of the loaded settings, and their choice in the global ones. -/
theorem storedBackend_adopt (isGlobal : Bool) (loaded : Data) :
    storedBackend T (adopt T isGlobal loaded) = storedBackend T loaded := by
  rw [adopt, storedBackend_normalizePrivilegeSettings,
    normalizeWirelessModeSettings_other T .privilegeBackend nofun nofun, storedBackend]
  cases hbackend : loaded .privilegeBackend with
  | some value =>
    rw [Option.isNone_some, if_neg nofun, merge, hbackend]
    rfl
  | none =>
    rw [Option.isNone_none, if_pos rfl, set_self, Option.getD_some]
    by_cases hroot : ((loaded .rootModeEnabled).getD (.bool false)).truthy = true
    · rw [if_pos hroot, if_pos hroot]
      exact normalizePrivilegeBackendValue_text T .root
    · rw [if_neg hroot, if_neg hroot]
      exact normalizePrivilegeBackendValue_text T .standard

theorem pendingIn_adopt (loaded : Data) : pendingIn T (some (adopt T true loaded)) = pendingIn T (some loaded) := by
  have hloaded := pendingIn_defaults T (some loaded)
  rw [adopt, pendingIn_normalizePrivilegeSettings, ← hloaded, pendingIn, pendingIn,
    normalizeWirelessModeSettings_other T .pendingPrivilegeBackend nofun nofun]
  by_cases hbackend : (loaded .privilegeBackend).isNone = true
  · have hne : Key.pendingPrivilegeBackend ≠ .privilegeBackend := nofun
    rw [if_pos hbackend, set_of_ne hne]
    rfl
  · rw [if_neg hbackend]
    rfl

/-- A new profile starts in the standard mode, whatever the previous one is used in. -/
theorem storedBackend_initialProfileData (previous : Data) (serial displayName : Text) (kind : Kind) :
    storedBackend T (normalizeWirelessModeSettings T (initialProfileData T previous serial displayName kind)) =
      .standard := by
  apply storedBackend_text
  rw [normalizeWirelessModeSettings_other T .privilegeBackend nofun nofun]
  simp [initialProfileData, inherited, profileLocal, defaultSettings]

section Host

variable {F β ρ α : Type} {h : Host F β ρ} {plan : Nat → Verdict} {clock : Nat → Nat} {p : Prepared β}
  {s : Store F β ρ} {dir : Dir} {f : F} {w : World β Data} {v : F → Option Backend} {m : Memory}

theorem storedBackend_rebased (source target : Dir) (key : FolderKey) (d : Data) :
    storedBackend T (rebased h source target key d) = storedBackend T d := by
  rw [rebased]
  split
  · rfl
  · split
    · rfl
    · apply storedBackend_congr
      · simp
      · simp

/-- Without a choice an activation keeps the mode of a profile. -/
theorem storedBackend_profileData (hnone : p.pending = none) (source : Option Dir) (d : Data) :
    storedBackend T (profileData h p source d) = storedBackend T d := by
  have hnamed (d : Data) : storedBackend T (profileData h p none d) = storedBackend T d := by
    apply storedBackend_congr
    · by_cases hname : p.displayName.isEmpty = true <;> simp [profileData, hnone, hname]
    · by_cases hname : p.displayName.isEmpty = true <;> simp [profileData, hnone, hname]
  cases source with
  | none => exact hnamed d
  | some source =>
    have hrebased : profileData h p (some source) d =
        profileData h p none (rebaseMigratedProfilePaths h source p.target d) := rfl
    simp only [hrebased, hnamed, rebaseMigratedProfilePaths, storedBackend_rebased]

theorem pendingIn_chosen (b : Backend) (d : Data) : pendingIn T (some (chosen b d)) = pendingIn T (some d) := by
  have hsame : chosen b d .pendingPrivilegeBackend = d .pendingPrivilegeBackend := by simp [chosen]
  rw [pendingIn, pendingIn, hsame]

theorem pendingIn_pointer (serial displayName : Text) (kind : Kind) (d : Data) :
    pendingIn T (some (pointer serial displayName kind false d)) = pendingIn T (some d) := by
  have hsame : pointer serial displayName kind false d .pendingPrivilegeBackend = d .pendingPrivilegeBackend := by
    by_cases hname : displayName.isEmpty = true <;> simp [pointer, hname]
  rw [pendingIn, pendingIn, hsame]

theorem withFolder_configDir (key : FolderKey) (m : Memory) : (withFolder h key m).configDir = m.configDir := by
  rw [withFolder]
  split <;> rfl

theorem storedBackend_withFolder (key : FolderKey) (m : Memory) :
    storedBackend T (withFolder h key m).data = storedBackend T m.data := by
  rw [withFolder]
  split
  · apply storedBackend_congr
    · simp
    · simp
  · rfl

theorem pendingIn_withFolder (key : FolderKey) (m : Memory) :
    pendingIn T (some (withFolder h key m).data) = pendingIn T (some m.data) := by
  rw [withFolder]
  split
  · simp [pendingIn]
  · rfl

variable [DecidableEq F]

/-- What is read off the settings of a folder: the base folder has the pending choice, and every
other one the mode of a profile. -/
def reads (h : Host F β ρ) (f : F) (o : Option Data) : Option Backend :=
  if f = h.resolve [] then pendingIn h.toTables o else some (modeOf h.toTables o)

/-- What the folders say, where there is no mode without a folder. -/
def told (h : Host F β ρ) (disk : F → Option (Folder β ρ)) (f : F) : Option Backend :=
  if f = h.resolve [] then pendingIn h.toTables (usable h.codec (((disk f).map Folder.scope).getD nothing))
  else (disk f).map (fun folder => modeOf h.toTables (usable h.codec folder.scope))

theorem reads_defaults (h : Host F β ρ) (f : F) :
    reads h f none = reads h f (some h.codec.defaults) := by
  by_cases hbase : f = h.resolve []
  · rw [reads, reads, if_pos hbase, if_pos hbase]
    exact (pendingOf_text h.toTables none).symm
  · rw [reads, reads, if_neg hbase, if_neg hbase, modeOf_defaults]
    rfl

theorem told_world (hthere : f ≠ h.resolve [] → (s.disk f).isSome = true) :
    told h s.disk f = reads h f (usable h.codec (s.world f).scope) := by
  by_cases hbase : f = h.resolve []
  · rw [told, reads, if_pos hbase, if_pos hbase]
    rfl
  · obtain ⟨folder, hfolder⟩ := Option.isSome_iff_exists.mp (hthere hbase)
    rw [told, reads, if_neg hbase, if_neg hbase, Store.world, hfolder]
    rfl

theorem told_congr {disk disk' : F → Option (Folder β ρ)} (hsame : disk f = disk' f) :
    told h disk f = told h disk' f := by
  rw [told, told, hsame]

/-- A profile is there when it has a mode. -/
theorem there_of_told (hsome : f ≠ h.resolve [] → (told h s.disk f).isSome = true) :
    f ≠ h.resolve [] → (s.disk f).isSome = true := by
  intro hbase
  have htold := hsome hbase
  rw [told, if_neg hbase, Option.isSome_map] at htold
  exact htold

theorem told_put (hthere : h.resolve dir ≠ h.resolve [] → (s.disk (h.resolve dir)).isSome = true) :
    told h (s.put h dir w).disk =
      Function.update (told h s.disk) (h.resolve dir) (reads h (h.resolve dir) (usable h.codec w.scope)) := by
  funext f
  by_cases hf : f = h.resolve dir
  · subst hf
    rw [Function.update_self, told_world (fun hbase => put_there (hthere hbase)), put_world]
  · rw [Function.update_of_ne hf, told_congr (put_other hf)]

/-- An operation on settings files that leaves what they tell. -/
theorem onPath_keeps {x : Files.Disk β Data α} {R : α → Prop} {P : Store F β ρ → Prop}
    (hP : ∀ s w, P s → P (s.put h dir w))
    (hthere : h.resolve dir ≠ h.resolve [] → (v (h.resolve dir)).isSome = true)
    (hx : Does (Tells h.codec (reads h (h.resolve dir)) (v (h.resolve dir))) x
      (fun r w => R r ∧ Tells h.codec (reads h (h.resolve dir)) (v (h.resolve dir)) w)
      (fun _ => Tells h.codec (reads h (h.resolve dir)) (v (h.resolve dir)))) :
    Does (fun s => P s ∧ told h s.disk = v) (onPath h dir x)
      (fun r s => R r ∧ P s ∧ told h s.disk = v) (fun _ s => P s ∧ told h s.disk = v) := by
  apply onPath_does
  intro s ⟨hs, htold⟩
  subst htold
  have hdisk := there_of_told hthere
  have hput (w : World β Data)
      (hw : Tells h.codec (reads h (h.resolve dir)) (told h s.disk (h.resolve dir)) w) :
      P (s.put h dir w) ∧ told h (s.put h dir w).disk = told h s.disk := by
    refine ⟨hP s w hs, ?_⟩
    rw [told_put hdisk]
    exact (congrArg _ hw).trans (Function.update_eq_self ..)
  apply hx.mono
  · intro w hw
    subst hw
    exact (told_world hdisk).symm
  · exact fun r w hw => ⟨hw.1, hput w hw.2⟩
  · exact fun _ w hw => hput w hw

/-- An operation that, when it returns, has changed what the files tell. -/
theorem onPath_changes {x : Files.Disk β Data α} {d : Data} {P : Store F β ρ → Prop}
    (hP : ∀ s w, P s → P (s.put h dir w))
    (hthere : h.resolve dir ≠ h.resolve [] → (v (h.resolve dir)).isSome = true)
    (hx : ∀ w₀, Does (fun w => w = w₀) x (fun _ w => w.scope.primary = some (h.encode d)) (fun _ _ => True)) :
    Does (fun s => P s ∧ told h s.disk = v) (onPath h dir x)
      (fun _ s => P s ∧ told h s.disk = Function.update v (h.resolve dir) (reads h (h.resolve dir) (some d)))
      (fun _ _ => True) := by
  apply onPath_does
  intro s ⟨hs, htold⟩
  subst htold
  apply (hx _).mono (fun _ => id)
  · intro _ w hw
    refine ⟨hP s w hs, ?_⟩
    rw [told_put (there_of_told hthere), usable_encoded (c := h.codec) hw]
  · exact fun _ _ _ => trivial

end Host

end OpenAdb.Settings.Choices
