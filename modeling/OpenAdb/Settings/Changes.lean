import OpenAdb.Settings.FailedWrites
import OpenAdb.Settings.Transaction

namespace OpenAdb.Settings.Changes

open OpenAdb.Lib.Effects OpenAdb.Lib.Faults OpenAdb.Lib.Traces OpenAdb.Lib.PyText OpenAdb.Settings.Files
  OpenAdb.Settings.Activation OpenAdb.Settings.FailedWrites
open OpenAdb.Settings.Values hiding set
open OpenAdb.Settings.Profile hiding setGlobalValues
open OpenAdb.Settings.Transaction (plain withProfiles atBase failingAt)

variable {F β ρ : Type} (h : Host F β ρ)

def scopeAt (s : Store F β ρ) (dir : Dir) : Scope β := (s.world (h.resolve dir)).scope

theorem scopeAt_at (s : Store F β ρ) (dir : Dir) :
    At (scopeAt h s dir).primary (scopeAt h s dir).backup (scopeAt h s dir).temporaries (s.world (h.resolve dir)) :=
  ⟨rfl, rfl, rfl⟩

variable [DecidableEq F] (plan : Nat → Verdict) (clock : Nat → Nat)

def set (key : Key) (value : PyObject) (saves : Bool) : Act F β ρ Unit := do
  setData (fun d => Values.set d key value)
  if saves then save h plan clock else pure ()

/-- `set_global_values`: while a profile is in memory, `update_active` changes it after the write. -/
def setGlobalValues (values : Data) (updateActive : Bool) : Act F β ρ Unit := do
  let m ← memory
  Profile.setGlobalValues h plan clock values
  if updateActive ∧ m.path ≠ [] then setData (fun d => merge d values) else pure ()

inductive Change
  | set (key : Key) (value : PyObject) (saves : Bool)
  | setGlobalValues (values : Data) (updateActive : Bool)
  | selectPrivilegeBackend (value : PyObject) (profileAvailable : Bool)

def Change.run : Change → Act F β ρ Unit
  | .set key value saves => Changes.set h plan clock key value saves
  | .setGlobalValues values updateActive => Changes.setGlobalValues h plan clock values updateActive
  | .selectPrivilegeBackend value profileAvailable => do
    let _ ← Profile.selectPrivilegeBackend h plan clock value profileAvailable
    pure ()

/-- The settings that a change gives. -/
def Change.values : Change → Data
  | .set key value _ => Values.set noValues key value
  | .setGlobalValues values _ => values
  | .selectPrivilegeBackend value profileAvailable =>
    let backend := normalizePrivilegeBackendValue h.toTables value
    if profileAvailable then chosen backend noValues
    else Values.set (chosen backend noValues) .pendingPrivilegeBackend (.str backend.text)

/-- The settings in memory change before anything is saved. -/
def Change.First (m : Memory) : Change → Prop
  | .set .. => True
  | .setGlobalValues .. => m.path = []
  | .selectPrivilegeBackend _ profileAvailable => profileAvailable = true ∨ m.path = []

instance (m : Memory) : DecidablePred (Change.First m)
  | .set .. => inferInstanceAs (Decidable True)
  | .setGlobalValues .. => inferInstanceAs (Decidable (m.path = []))
  | .selectPrivilegeBackend _ profileAvailable => inferInstanceAs (Decidable (profileAvailable = true ∨ m.path = []))

/-- The settings in memory with these in their place. -/
def withData (d : Data) (m : Memory) : Memory := { m with data := d }

variable (change : Change) (s : Store F β ρ)

/-- The memory when a change has raised. -/
def Change.memory : Memory :=
  if change.First s.memory then withData (merge s.memory.data (change.values h)) s.memory else s.memory

/-- The folder whose settings files a change writes. -/
def Change.dir : Dir := if change.First s.memory then s.memory.path else []

/-- The settings that a change writes when its folder has no settings files. -/
def Change.written : Data :=
  if change.First s.memory then merge s.memory.data (change.values h)
  else merge (defaultSettings h.toTables) (change.values h)

/-- The operations of a change that does not fail. -/
def Change.steps : List Step :=
  let scope := scopeAt h s (change.dir s)
  if change.First s.memory then saveSteps h.codec h.nt scope.primary scope.backup
  else loadSteps h.codec h.nt scope.primary scope.backup ++ publishSteps h.codec scope.primary scope.backup

/-- The settings in memory, what fresh loads take and the temporary files are as before. -/
structure Unchanged (s t : Store F β ρ) : Prop where
  memory : t.memory = s.memory
  fresh : ∀ f, fresh h.codec (t.world f).scope = fresh h.codec (s.world f).scope
  temporaries : ∀ f, (t.world f).scope.temporaries = (s.world f).scope.temporaries

/-- What a failure must not meet: a change of the memory, a temporary file that nobody removes, and, without
any settings files, a backup that was published already. -/
structure Harmless (s : Counted (Store F β ρ)) : Prop where
  memory : change.First s.value.memory → merge s.value.memory.data (change.values h) = s.value.memory.data
  cleaned : ∀ m step, Fault plan s.ops (change.steps h s.value) m step → step.Cleaned plan 0 (s.ops + m + 1)
  backup : ∀ m, Fault plan s.ops (change.steps h s.value) m (.replace .primary) →
    there (scopeAt h s.value (change.dir s.value)).primary (scopeAt h s.value (change.dir s.value)).backup = false →
    change.written h s.value = defaultSettings h.toTables

variable {h plan clock change} {s₀ s t : Store F β ρ} {dir : Dir} {α : Type} {steps : List Step} {x y : Option β}
  {τ : List (File × β)} {w : World β Data} {d : Data} {m : Memory}

theorem onPath_traced {e : Files.Disk β Data α} {Q : α → World β Data → Prop}
    {E : Nat → Step → Counted (World β Data) → Prop}
    (he : Traced plan (fun w => w = s₀.world (h.resolve dir)) e steps Q E) :
    Traced plan (fun s => s = s₀) (onPath h dir e) steps (fun a s => ∃ w, s = s₀.put h dir w ∧ Q a w)
      (fun n step t => ∃ w, t.value = s₀.put h dir w ∧ E n step ⟨w, t.ops⟩) := by
  intro s hs
  have hrun := he ⟨s.value.world (h.resolve dir), s.ops⟩ (congrArg (fun s => s.world (h.resolve dir)) hs)
  rw [onPath, within]
  cases hr : e ⟨s.value.world (h.resolve dir), s.ops⟩ with
  | mk r t =>
    rw [hr] at hrun
    cases r with
    | ok a =>
      obtain ⟨hops, hproceeds, hq⟩ := hrun
      exact ⟨hops, hproceeds, t.value, congrArg (fun s => s.put h dir t.value) hs, hq⟩
    | error i =>
      cases i with
      | stopped => trivial
      | osError =>
        obtain ⟨m, step, hfault, herror⟩ := hrun
        exact ⟨m, step, hfault, t.value, congrArg (fun s => s.put h dir t.value) hs, herror⟩

/-- Where a run over a folder has raised. -/
structure Raised (h : Host F β ρ) (plan : Nat → Verdict) (s₀ : Store F β ρ) (dir : Dir) (m : Memory) (d : Data)
    (n : Nat) (step : Step) (t : Counted (Store F β ρ)) : Prop where
  memory : t.value.memory = m
  others : ∀ f, f ≠ h.resolve dir → t.value.disk f = s₀.disk f
  files : Kept h.codec plan (freshAfter h.codec (scopeAt h s₀ dir).primary (scopeAt h s₀ dir).backup d step)
    (scopeAt h s₀ dir).temporaries n step ⟨t.value.world (h.resolve dir), t.ops⟩

/-- What was put in the folder is where the run has raised. -/
theorem raised_put {n : Nat} {step : Step} {t : Counted (Store F β ρ)} (hmemory : s.memory = m)
    (hothers : ∀ f, f ≠ h.resolve dir → s.disk f = s₀.disk f) (ht : t.value = s.put h dir w)
    (hw : Kept h.codec plan (freshAfter h.codec (scopeAt h s₀ dir).primary (scopeAt h s₀ dir).backup d step)
      (scopeAt h s₀ dir).temporaries n step ⟨w, t.ops⟩) :
    Raised h plan s₀ dir m d n step t := by
  refine ⟨?_, fun f hf => ?_, Kept.congr hw ?_⟩
  · rw [ht, put_memory, hmemory]
  · rw [ht, put_other hf, hothers f hf]
  · rw [ht, put_world]

theorem save_traced :
    Traced plan (fun s => s = s₀) (save h plan clock)
      (saveSteps h.codec h.nt (scopeAt h s₀ s₀.memory.path).primary (scopeAt h s₀ s₀.memory.path).backup)
      (fun _ _ => True) (Raised h plan s₀ s₀.memory.path s₀.memory s₀.memory.data) := by
  have hmemory : Traced plan (fun s => s = s₀) (memory : Act F β ρ Memory) ([] : List Step)
      (fun m s => m = s₀.memory ∧ s = s₀) (Raised h plan s₀ s₀.memory.path s₀.memory s₀.memory.data) :=
    Traced.read (fun _ hs => ⟨congrArg Store.memory hs, hs⟩)
  apply hmemory.bind
  intro m
  apply Traced.of_fact
  intro hm
  subst hm
  have hsaved (x y : Option β) (τ : List (File × β)) : Traced plan (At x y τ)
      (Files.save h.codec plan h.nt clock s₀.memory.data) (saveSteps h.codec h.nt x y) (fun _ _ => True)
      (fun n step => FailedWrites.Kept h.codec plan (freshAfter h.codec x y s₀.memory.data step) τ n step) :=
    FailedWrites.save_traced
  have hat (w : World β Data) (hw : w = s₀.world (h.resolve s₀.memory.path)) :
      At (scopeAt h s₀ s₀.memory.path).primary (scopeAt h s₀ s₀.memory.path).backup
        (scopeAt h s₀ s₀.memory.path).temporaries w := by
    rw [hw]
    exact scopeAt_at h s₀ s₀.memory.path
  apply (onPath_traced ((hsaved _ _ _).mono hat (fun _ _ => id) (fun _ _ _ _ => id))).mono (fun _ => id) (fun _ _ _ => trivial)
  intro n step t _ ht
  obtain ⟨w, hput, hw⟩ := ht
  exact raised_put rfl (fun _ _ => rfl) hput hw

/-- The memory changes first and is then saved. -/
theorem direct_traced (f : Data → Data) (hd : f s₀.memory.data = d) :
    Traced plan (fun s => s = s₀) (do
        setData f
        save h plan clock)
      (saveSteps h.codec h.nt (scopeAt h s₀ s₀.memory.path).primary (scopeAt h s₀ s₀.memory.path).backup)
      (fun _ _ => True) (Raised h plan s₀ s₀.memory.path (withData d s₀.memory) d) := by
  have hset : Traced plan (fun s => s = s₀) (setData f : Act F β ρ Unit) ([] : List Step)
      (fun _ s => s = { s₀ with memory := withData d s₀.memory })
      (Raised h plan s₀ s₀.memory.path (withData d s₀.memory) d) := by
    rw [setData, setMemory]
    apply Traced.note
    intro s hs
    rw [hs, ← hd]
    rfl
  apply hset.bind
  intro _
  apply save_traced.mono (fun _ => id) (fun _ _ => id)
  exact fun n step t _ ht => ⟨ht.memory, ht.others, ht.files⟩

theorem merge_chosen (b : Backend) (d : Data) : merge d (chosen b noValues) = chosen b d := by
  funext key
  rw [merge, chosen, chosen]
  by_cases hroot : key = .rootModeEnabled
  · rw [hroot, set_self, set_self]
    rfl
  · rw [set_of_ne hroot, set_of_ne hroot]
    by_cases hbackend : key = .privilegeBackend
    · rw [hbackend, set_self, set_self]
      rfl
    · rw [set_of_ne hbackend, set_of_ne hbackend]
      rfl

theorem merge_set (d : Data) (key : Key) (value : PyObject) :
    merge d (Values.set noValues key value) = Values.set d key value := by
  funext other
  rw [merge]
  by_cases hkey : other = key
  · rw [hkey, set_self, set_self]
    rfl
  · rw [set_of_ne hkey, set_of_ne hkey]
    rfl

/-- While a profile is in memory, the global settings are written from what is loaded of them. -/
theorem global_traced (values : Data) (hpath : s₀.memory.path ≠ []) :
    Traced plan (fun s => s = s₀) (Profile.setGlobalValues h plan clock values)
      (loadSteps h.codec h.nt (scopeAt h s₀ []).primary (scopeAt h s₀ []).backup ++
        publishSteps h.codec (scopeAt h s₀ []).primary (scopeAt h s₀ []).backup)
      (fun _ _ => True) (Raised h plan s₀ [] s₀.memory (merge (defaultSettings h.toTables) values)) := by
  have hmemory : Traced plan (fun s => s = s₀) (memory : Act F β ρ Memory) ([] : List Step)
      (fun m s => m = s₀.memory ∧ s = s₀)
      (Raised h plan s₀ [] s₀.memory (merge (defaultSettings h.toTables) values)) :=
    Traced.read (fun _ hs => ⟨congrArg Store.memory hs, hs⟩)
  apply hmemory.bind
  intro m
  apply Traced.of_fact
  intro hm
  subst hm
  rw [if_neg hpath]
  have hloaded : Traced plan (fun s => s = s₀) (loadSettingsPath h plan clock [])
      (loadSteps h.codec h.nt (scopeAt h s₀ []).primary (scopeAt h s₀ []).backup)
      (fun result s => ∃ w, s = s₀.put h [] w ∧ ∃ x' y', Settled h.codec (scopeAt h s₀ []).temporaries
        (scopeAt h s₀ []).primary (scopeAt h s₀ []).backup result x' y' w)
      (Raised h plan s₀ [] s₀.memory (merge (defaultSettings h.toTables) values)) := by
    have hload (x y : Option β) (τ : List (File × β)) : Traced plan (At x y τ) (loadSettings h.codec plan h.nt clock)
        (loadSteps h.codec h.nt x y) (fun result w => ∃ x' y', Settled h.codec τ x y result x' y' w)
        (FailedWrites.Kept h.codec plan (freshOf h.codec x y) τ) :=
      loadSettings_traced
    have hat (w : World β Data) (hw : w = s₀.world (h.resolve [])) :
        At (scopeAt h s₀ []).primary (scopeAt h s₀ []).backup (scopeAt h s₀ []).temporaries w := by
      rw [hw]
      exact scopeAt_at h s₀ []
    apply (onPath_traced ((hload _ _ _).mono hat (fun _ _ => id) (fun _ _ _ _ => id))).mono (fun _ => id) (fun _ _ => id)
    intro n step t hmem ht
    obtain ⟨w, hput, hw⟩ := ht
    apply raised_put rfl (fun _ _ => rfl) hput
    rwa [freshAfter_load _ hmem]
  apply hloaded.bind
  intro result
  apply Traced.of_each
  intro s₁ hs₁
  obtain ⟨w₁, hput₁, x', y', hsettled⟩ := hs₁
  have hsame : (s₁.world (h.resolve [])).scope = w₁.scope := by
    rw [hput₁, put_world]
  have hkept (w : World β Data) : (id w).scope = w.scope := rfl
  apply (onPath_traced (publish_traced (hsettled.congr hsame) hkept)).mono (fun _ => id) (fun _ _ _ => trivial)
  intro n step t _ ht
  obtain ⟨w, hput, hw⟩ := ht
  apply raised_put _ _ hput
  · cases hthere : there (scopeAt h s₀ []).primary (scopeAt h s₀ []).backup with
    | true =>
      rw [freshAfter_there _ hthere] at hw ⊢
      exact hw
    | false =>
      rw [(hsettled.absent hthere).2.2] at hw
      exact hw
  · rw [hput₁, put_memory]
  · intro f hf
    rw [hput₁, put_other hf]

theorem Raised.fresh_iff {n : Nat} {step : Step} {t : Counted (Store F β ρ)} (ht : Raised h plan s₀ dir m d n step t) :
    (∀ f, fresh h.codec (t.value.world f).scope = fresh h.codec (s₀.world f).scope) ↔
      (step = .replace .primary → there (scopeAt h s₀ dir).primary (scopeAt h s₀ dir).backup = false →
        d = defaultSettings h.toTables) := by
  obtain ⟨x, y, ⟨left, hleft⟩, hfresh⟩ := ht.files
  have hhere : fresh h.codec (t.value.world (h.resolve dir)).scope = fresh h.codec (s₀.world (h.resolve dir)).scope ↔
      freshAfter h.codec (scopeAt h s₀ dir).primary (scopeAt h s₀ dir).backup d step =
        freshOf h.codec (scopeAt h s₀ dir).primary (scopeAt h s₀ dir).backup := by
    rw [fresh_eq, fresh_eq, hleft.files.primary, hleft.files.backup, hfresh]
    rfl
  refine Iff.trans ⟨fun hall => hhere.mp (hall _), fun hsame f => ?_⟩ (freshAfter_eq_iff d)
  by_cases hf : f = h.resolve dir
  · rw [hf]
    exact hhere.mpr hsame
  · rw [world_congr (ht.others f hf)]

theorem Raised.temporaries_iff {n : Nat} {step : Step} {t : Counted (Store F β ρ)}
    (ht : Raised h plan s₀ dir m d n step t) :
    (∀ f, (t.value.world f).scope.temporaries = (s₀.world f).scope.temporaries) ↔ step.Cleaned plan 0 n := by
  obtain ⟨x, y, ⟨left, hleft⟩, _⟩ := ht.files
  rw [← hleft.cleaned]
  refine ⟨fun hall => ?_, fun hnone f => ?_⟩
  · have hsame := hall (h.resolve dir)
    rw [hleft.files.temporaries] at hsame
    exact List.append_left_eq_self.mp hsame
  · by_cases hf : f = h.resolve dir
    · rw [hf, hleft.files.temporaries, hnone]
      rfl
    · rw [world_congr (ht.others f hf)]

theorem Raised.unchanged_iff {n : Nat} {step : Step} {t : Counted (Store F β ρ)}
    (ht : Raised h plan s₀ dir m d n step t) :
    Unchanged h s₀ t.value ↔ m = s₀.memory ∧ step.Cleaned plan 0 n ∧
      (step = .replace .primary → there (scopeAt h s₀ dir).primary (scopeAt h s₀ dir).backup = false →
        d = defaultSettings h.toTables) := by
  constructor
  · intro hsame
    exact ⟨ht.memory.symm.trans hsame.memory, ht.temporaries_iff.mp hsame.temporaries, ht.fresh_iff.mp hsame.fresh⟩
  · intro hall
    obtain ⟨hmemory, hcleaned, hbackup⟩ := hall
    exact ⟨ht.memory.trans hmemory, ht.fresh_iff.mpr hbackup, ht.temporaries_iff.mpr hcleaned⟩

/-- With the global settings in memory. -/
theorem global_first (values : Data) (hpath : s₀.memory.path = []) :
    Traced plan (fun s => s = s₀) (Profile.setGlobalValues h plan clock values)
      (saveSteps h.codec h.nt (scopeAt h s₀ s₀.memory.path).primary (scopeAt h s₀ s₀.memory.path).backup)
      (fun _ _ => True) (Raised h plan s₀ s₀.memory.path (withData (merge s₀.memory.data values) s₀.memory)
        (merge s₀.memory.data values)) := by
  have hmemory : Traced plan (fun s => s = s₀) (memory : Act F β ρ Memory) ([] : List Step)
      (fun m s => m = s₀.memory ∧ s = s₀) (Raised h plan s₀ s₀.memory.path
        (withData (merge s₀.memory.data values) s₀.memory) (merge s₀.memory.data values)) :=
    Traced.read (fun _ hs => ⟨congrArg Store.memory hs, hs⟩)
  apply hmemory.bind
  intro m
  apply Traced.of_fact
  intro hm
  subst hm
  rw [if_pos hpath]
  exact direct_traced _ rfl

/-- What follows the write raises nothing. -/
theorem setGlobalValues_traced {values : Data} {updateActive : Bool} {E : Nat → Step → Counted (Store F β ρ) → Prop}
    (hwritten : Traced plan (fun s => s = s₀) (Profile.setGlobalValues h plan clock values) steps (fun _ _ => True) E) :
    Traced plan (fun s => s = s₀) (Changes.setGlobalValues h plan clock values updateActive) steps (fun _ _ => True) E := by
  have hmemory : Traced plan (fun s => s = s₀) (memory : Act F β ρ Memory) ([] : List Step)
      (fun _ s => s = s₀) E := Traced.read (fun _ hs => hs)
  apply hmemory.bind
  intro m
  rw [← List.append_nil steps]
  apply hwritten.bind
  intro _
  by_cases hactive : updateActive ∧ m.path ≠ []
  · rw [if_pos hactive, setData, setMemory]
    exact Traced.note (fun _ _ => trivial)
  · rw [if_neg hactive]
    exact Traced.pure (fun _ _ => trivial)

theorem selectPrivilegeBackend_traced {value : PyObject} {profileAvailable : Bool}
    {E : Nat → Step → Counted (Store F β ρ) → Prop}
    (hchosen : Traced plan (fun s => s = s₀) (if profileAvailable then do
        setData (chosen (normalizePrivilegeBackendValue h.toTables value))
        save h plan clock
      else
        Profile.setGlobalValues h plan clock (Change.values h (.selectPrivilegeBackend value false)))
      steps (fun _ _ => True) E) :
    Traced plan (fun s => s = s₀) (Change.run h plan clock (.selectPrivilegeBackend value profileAvailable)) steps
      (fun _ _ => True) E := by
  rw [← List.append_nil steps]
  have hrun : Change.run h plan clock (.selectPrivilegeBackend value profileAvailable) =
      (if profileAvailable then do
        setData (chosen (normalizePrivilegeBackendValue h.toTables value))
        save h plan clock
      else
        Profile.setGlobalValues h plan clock (Change.values h (.selectPrivilegeBackend value false))) >>=
      fun _ => pure () := by
    cases profileAvailable with
    | true =>
      change (setData _ >>= fun _ => save h plan clock >>= fun _ => pure _) >>= (fun _ => pure ()) = (_ >>= _) >>= _
      simp only [bind_bind]
      rfl
    | false =>
      change (_ >>= fun _ => pure _) >>= (fun _ => pure ()) = _ >>= _
      rw [bind_bind]
      rfl
  rw [hrun]
  exact hchosen.bind (fun _ => Traced.pure (fun _ _ => trivial))

theorem change_first (hfirst : change.First s₀.memory) (hsaves : ∀ key value, change ≠ .set key value false) :
    Traced plan (fun s => s = s₀) (change.run h plan clock)
      (saveSteps h.codec h.nt (scopeAt h s₀ s₀.memory.path).primary (scopeAt h s₀ s₀.memory.path).backup)
      (fun _ _ => True) (Raised h plan s₀ s₀.memory.path (withData (merge s₀.memory.data (change.values h)) s₀.memory)
        (merge s₀.memory.data (change.values h))) := by
  cases change with
  | set key value saves =>
    cases saves with
    | false => exact absurd rfl (hsaves key value)
    | true => exact direct_traced _ (merge_set _ key value).symm
  | setGlobalValues values updateActive =>
    exact setGlobalValues_traced (global_first values hfirst)
  | selectPrivilegeBackend value profileAvailable =>
    apply selectPrivilegeBackend_traced
    cases profileAvailable with
    | true => exact direct_traced _ (merge_chosen _ _).symm
    | false => exact global_first _ (hfirst.resolve_left Bool.false_ne_true)

/-- A change of the global settings beside a profile. -/
theorem change_later (hlater : ¬change.First s₀.memory) :
    Traced plan (fun s => s = s₀) (change.run h plan clock)
      (loadSteps h.codec h.nt (scopeAt h s₀ []).primary (scopeAt h s₀ []).backup ++
        publishSteps h.codec (scopeAt h s₀ []).primary (scopeAt h s₀ []).backup)
      (fun _ _ => True) (Raised h plan s₀ [] s₀.memory (merge (defaultSettings h.toTables) (change.values h))) := by
  cases change with
  | set key value saves => exact absurd trivial hlater
  | setGlobalValues values updateActive => exact setGlobalValues_traced (global_traced values hlater)
  | selectPrivilegeBackend value profileAvailable =>
    apply selectPrivilegeBackend_traced
    cases profileAvailable with
    | true => exact absurd (.inl rfl) hlater
    | false => exact global_traced _ (fun hpath => hlater (.inr hpath))

theorem change_raised {s t : Counted (Store F β ρ)} (hrun : change.run h plan clock s = (.error .osError, t)) :
    ∃ m step, Fault plan s.ops (change.steps h s.value) m step ∧
      Raised h plan s.value (change.dir s.value) (change.memory h s.value) (change.written h s.value)
        (s.ops + m + 1) step t := by
  have hsaves (key : Key) (value : PyObject) : change ≠ .set key value false := by
    intro hset
    subst hset
    cases hrun
  rw [Change.steps, Change.dir, Change.memory, Change.written]
  by_cases hfirst : change.First s.value.memory
  · simp only [if_pos hfirst]
    exact (change_first hfirst hsaves).raised rfl hrun
  · simp only [if_neg hfirst]
    exact (change_later hfirst).raised rfl hrun

omit [DecidableEq F] in
theorem memory_iff : change.memory h s = s.memory ↔
    (change.First s.memory → merge s.memory.data (change.values h) = s.memory.data) := by
  rw [Change.memory]
  by_cases hfirst : change.First s.memory
  · rw [if_pos hfirst]
    exact ⟨fun hsame _ => congrArg Memory.data hsame, fun hsame => congrArg (withData · s.memory) (hsame hfirst)⟩
  · rw [if_neg hfirst]
    exact iff_of_true rfl (fun h => absurd h hfirst)

/-- A change that raises leaves everything as it was exactly when the failure is harmless. -/
theorem failed_change_unchanged_iff (change : Change) {s t : Counted (Store F β ρ)}
    (hrun : change.run h plan clock s = (.error .osError, t)) :
    Unchanged h s.value t.value ↔ Harmless h plan change s := by
  obtain ⟨m, step, hfault, hraised⟩ := change_raised hrun
  rw [hraised.unchanged_iff, memory_iff]
  constructor
  · intro hall
    obtain ⟨hmemory, hcleaned, hbackup⟩ := hall
    refine ⟨hmemory, fun m' step' hfault' => ?_, fun m' hfault' => ?_⟩
    · obtain ⟨rfl, rfl⟩ := hfault.unique hfault'
      exact hcleaned
    · obtain ⟨_, rfl⟩ := hfault.unique hfault'
      exact hbackup rfl
  · intro hharmless
    refine ⟨hharmless.memory, hharmless.cleaned m step hfault, fun hstep => ?_⟩
    subst hstep
    exact hharmless.backup m hfault

/-- The default settings are stored and in memory. -/
def stored : Counted (Store Dir (Option Data) Unit) :=
  atBase (withProfiles [([], defaultSettings plain.toTables)])

def again : Change := .set .privilegeBackend (.str Backend.standard.text) true

/-- A setting that is given the value it has, when the files cannot be looked at. -/
theorem failed_look_unchanged :
    Unchanged plain stored.value (again.run plain (failingAt [0]) id stored).2.value := by
  have herror : (again.run plain (failingAt [0]) id stored).1 = .error .osError := by decide +kernel
  have hfirst {m : Nat} {step : Step} (hfault : Fault (failingAt [0]) stored.ops (again.steps plain stored.value) m step) :
      step = .look := by
    have hfails := hfault.fails
    have hhere := hfault.here
    cases m with
    | zero => exact (Option.some_inj.mp hhere).symm
    | succ m => cases hfails
  refine (failed_change_unchanged_iff again (Prod.ext herror rfl)).mpr ⟨fun _ => ?_, ?_, ?_⟩
  · exact (merge_set _ _ _).trans (Function.update_eq_self ..)
  · intro m step hfault
    rw [hfirst hfault]
    exact ⟨fun _ => nofun, fun j hj => absurd hj (Nat.not_lt_zero _)⟩
  · intro m hfault
    cases hfirst hfault

def chooseRoot : Change := .selectPrivilegeBackend (.str Backend.root.text) true

/-- Whether a choice of Root raised, the mode in memory, the mode that a fresh load takes and the number of
temporary files. -/
def choosing (profiles : List (Dir × Data)) (ops : List Nat) :
    Bool × Option PyObject × Option PyObject × Nat :=
  let (r, t) := chooseRoot.run plain (failingAt ops) id (atBase (withProfiles profiles))
  let scope := scopeAt plain t.value []
  (!r.isOk, t.value.memory.data .privilegeBackend, fresh plain.codec scope .privilegeBackend, scope.temporaries.length)

/-- The choice that could not be saved stays in memory; without settings files it stays in the backup as
well, and a file that could not be filled stays behind. -/
theorem failed_choice_stays :
    choosing [([], defaultSettings plain.toTables)] [8] =
      (true, some (.str Backend.root.text), some (.str Backend.standard.text), 0) ∧
    choosing [] [9] = (true, some (.str Backend.root.text), some (.str Backend.root.text), 0) ∧
    choosing [] [3] = (true, some (.str Backend.root.text), some (.str Backend.standard.text), 1) := by
  decide +kernel

end OpenAdb.Settings.Changes
