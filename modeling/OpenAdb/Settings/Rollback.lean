import OpenAdb.Settings.Activation

namespace OpenAdb.Settings.Rollback

open OpenAdb.Settings.Files OpenAdb.Settings.Values OpenAdb.Settings.Profile OpenAdb.Settings.Activation

variable {F β ρ : Type} {h : Host F β ρ} {p : Prepared β} {s s₀ : Store F β ρ} {dir : Dir} {f : F}

/-- The first part of the rollback. -/
def resumed (p : Prepared β) (s : Store F β ρ) : Store F β ρ :=
  { (if s.locals.recoveryTransactionStarted then { s with deferred := none } else s) with memory := p.previous }

theorem resumed_disk (s : Store F β ρ) : (resumed p s).disk = s.disk := by
  rw [resumed]
  split <;> rfl

theorem resumed_locals (s : Store F β ρ) : (resumed p s).locals = s.locals := by
  rw [resumed]
  split <;> rfl

/-- What the snapshots of an activation are when its `try` block begins. -/
structure Snapshots (h : Host F β ρ) (p : Prepared β) (s₀ : Store F β ρ) : Prop where
  global : p.globalSnapshot = files s₀.disk (h.resolve [])
  target : ∀ snapshot, p.targetSnapshot = some snapshot → snapshot = files s₀.disk (h.resolve p.target) ∧
    s₀.disk (h.resolve p.target) ≠ none
  pending : p.pending.isSome = true → s₀.disk (h.resolve p.target) ≠ none → p.targetSnapshot.isSome = true
  candidateCreated : s₀.locals.candidateCreated = false
  recoveryTransactionStarted : s₀.locals.recoveryTransactionStarted = false
  globalCommitStarted : s₀.locals.globalCommitStarted = false

/-- What the rollback finds, by the variables it looks at. -/
structure Found (h : Host F β ρ) (p : Prepared β) (s₀ s : Store F β ρ) : Prop where
  others : ∀ f, f ≠ h.resolve p.target → (s.locals.globalCommitStarted = true → f ≠ h.resolve []) →
    s.disk f = s₀.disk f
  created : s.locals.candidateCreated = true → s₀.disk (h.resolve p.target) = none
  kept : s.locals.candidateCreated = false → s₀.disk (h.resolve p.target) = none →
    s.disk (h.resolve p.target) = none

theorem found_of_broken (hp : Snapshots h p s₀) (hs : Broken h p s₀ s) : Found h p s₀ s := by
  obtain hs | ⟨created, commit, hs⟩ := hs
  · refine ⟨fun f _ _ => congrFun hs.disk f, ?_, fun _ hnone => (congrFun hs.disk _).trans hnone⟩
    rw [hs.locals, hp.candidateCreated]
    nofun
  · have hlocals := hs.locals
    refine ⟨?_, ?_, ?_⟩
    · rw [hlocals]
      exact hs.others
    · rw [hlocals]
      intro hcreated
      exact Option.isNone_iff_eq_none.mp (hs.absent.symm.trans hcreated)
    · rw [hlocals]
      intro hcreated hnone
      have habsent : created = true := by rw [hs.absent, hnone]; rfl
      exact absurd (hcreated.symm.trans habsent) nofun

/-- After the rollback; `active` is whether the profile was the active one already. -/
structure RolledBack (h : Host F β ρ) (target : Dir) (pending : Option Backend) (active : Prop)
    (disk₀ disk : F → Option (Folder β ρ)) : Prop where
  others : ∀ f, f ≠ h.resolve target → f ≠ h.resolve [] → disk f = disk₀ f
  global : files disk (h.resolve []) = files disk₀ (h.resolve [])
  restored : pending.isSome = true → files disk (h.resolve target) = files disk₀ (h.resolve target)
  absent : disk₀ (h.resolve target) = none → ¬active → disk (h.resolve target) = none

variable [DecidableEq F]

theorem restore_files (snapshot : Snapshot β) :
    files (restoreSettingsFiles h dir snapshot s).disk (h.resolve dir) = snapshot := by
  rw [files_world, restoreSettingsFiles, put_world]
  rfl

theorem restore_other (snapshot : Snapshot β) (hf : f ≠ h.resolve dir) :
    (restoreSettingsFiles h dir snapshot s).disk f = s.disk f := put_other hf

theorem rollbackTarget_memory (s : Store F β ρ) : (rollbackTarget h p s).memory = s.memory := by
  rw [rollbackTarget]
  split
  · rfl
  · split
    · rfl
    · exact put_memory

theorem rollbackTarget_locals (s : Store F β ρ) : (rollbackTarget h p s).locals = s.locals := by
  rw [rollbackTarget]
  split
  · rfl
  · split
    · rfl
    · exact put_locals

theorem rollbackTarget_other (s : Store F β ρ) (hf : f ≠ h.resolve p.target) :
    (rollbackTarget h p s).disk f = s.disk f := by
  rw [rollbackTarget]
  split
  · exact Function.update_of_ne hf ..
  · split
    · rfl
    · exact restore_other _ hf

theorem rollbackTarget_deferred {s : Store F β ρ} (hnone : s.deferred = none) :
    (rollbackTarget h p s).deferred = none := by
  rw [rollbackTarget]
  split
  · exact hnone
  · split
    · exact hnone
    · exact put_deferred hnone

def withdrawn (h : Host F β ρ) (p : Prepared β) (s : Store F β ρ) : Store F β ρ :=
  rollbackTarget h p (resumed p s)

theorem rollback_eq (s : Store F β ρ) : rollback h p s =
    if (withdrawn h p s).locals.globalCommitStarted then
      restoreSettingsFiles h [] p.globalSnapshot (withdrawn h p s)
    else withdrawn h p s := by
  rw [rollback, withdrawn, resumed, rollbackTarget_locals]

theorem withdrawn_locals (s : Store F β ρ) : (withdrawn h p s).locals = s.locals := by
  rw [withdrawn, rollbackTarget_locals, resumed_locals]

theorem withdrawn_memory (s : Store F β ρ) : (withdrawn h p s).memory = p.previous := by
  rw [withdrawn, rollbackTarget_memory, resumed]

theorem withdrawn_other (s : Store F β ρ) (hf : f ≠ h.resolve p.target) :
    (withdrawn h p s).disk f = s.disk f := by
  rw [withdrawn, rollbackTarget_other _ hf, resumed_disk]

theorem rollback_memory (s : Store F β ρ) : (rollback h p s).memory = p.previous := by
  rw [rollback_eq]
  split
  · exact put_memory.trans (withdrawn_memory s)
  · exact withdrawn_memory s

theorem rollback_locals (s : Store F β ρ) : (rollback h p s).locals = s.locals := by
  rw [rollback_eq]
  split
  · exact put_locals.trans (withdrawn_locals s)
  · exact withdrawn_locals s

theorem rollback_other (s : Store F β ρ) (hbase : f ≠ h.resolve []) :
    (rollback h p s).disk f = (withdrawn h p s).disk f := by
  rw [rollback_eq]
  split
  · exact restore_other _ hbase
  · rfl

theorem rollbackTarget_target (hp : Snapshots h p s₀) {s : Store F β ρ}
    (hcreated : s.locals.candidateCreated = false)
    (hthere : p.pending.isSome = true → s₀.disk (h.resolve p.target) = none →
      files s.disk (h.resolve p.target) = (none, none)) (hpending : p.pending.isSome = true) :
    files (rollbackTarget h p s).disk (h.resolve p.target) = files s₀.disk (h.resolve p.target) := by
  rw [rollbackTarget, if_neg (by rw [hcreated]; nofun)]
  cases hsnapshot : p.targetSnapshot with
  | some snapshot => exact (restore_files snapshot).trans (hp.target snapshot hsnapshot).1
  | none =>
    have hnone : s₀.disk (h.resolve p.target) = none := by
      by_contra hsome
      have htaken := hp.pending hpending hsome
      rw [hsnapshot] at htaken
      cases htaken
    exact (hthere hpending hnone).trans (files_none hnone).symm

theorem withdrawn_target (hs : Found h p s₀ s) (hp : Snapshots h p s₀) (hpending : p.pending.isSome = true) :
    files (withdrawn h p s).disk (h.resolve p.target) = files s₀.disk (h.resolve p.target) := by
  rw [withdrawn]
  cases hcreated : s.locals.candidateCreated with
  | true =>
    rw [files_none (hs.created hcreated), rollbackTarget, resumed_locals, if_pos hcreated]
    exact files_none (Function.update_self ..)
  | false =>
    apply rollbackTarget_target hp
    · rw [resumed_locals, hcreated]
    · intro _ hnone
      rw [resumed_disk]
      exact files_none (hs.kept hcreated hnone)
    · exact hpending

theorem withdrawn_absent (hs : Found h p s₀ s) (hp : Snapshots h p s₀)
    (hnone : s₀.disk (h.resolve p.target) = none) : (withdrawn h p s).disk (h.resolve p.target) = none := by
  rw [withdrawn, rollbackTarget, resumed_locals]
  cases hcreated : s.locals.candidateCreated with
  | true =>
    rw [if_pos rfl]
    exact Function.update_self ..
  | false =>
    rw [if_neg nofun]
    cases hsnapshot : p.targetSnapshot with
    | some snapshot => exact absurd hnone (hp.target snapshot hsnapshot).2
    | none =>
      dsimp only
      rw [resumed_disk]
      exact hs.kept hcreated hnone

theorem rollback_rolledBack (active : Prop) (hown : h.resolve p.target ≠ h.resolve []) (hp : Snapshots h p s₀)
    (hs : Broken h p s₀ s) : RolledBack h p.target p.pending active s₀.disk (rollback h p s).disk := by
  have hfound := found_of_broken hp hs
  refine ⟨?_, ?_, ?_, ?_⟩
  · intro f hf hbase
    rw [rollback_other s hbase, withdrawn_other s hf]
    exact hfound.others f hf (fun _ => hbase)
  · rw [rollback_eq, withdrawn_locals]
    cases hcommit : s.locals.globalCommitStarted with
    | true =>
      rw [if_pos rfl, restore_files]
      exact hp.global
    | false =>
      rw [if_neg nofun]
      apply files_congr
      rw [withdrawn_other s hown.symm]
      exact hfound.others _ hown.symm (by rw [hcommit]; nofun)
  · intro hpending
    rw [files_congr (rollback_other s hown)]
    exact withdrawn_target hfound hp hpending
  · intro hnone _
    rw [rollback_other s hown]
    exact withdrawn_absent hfound hp hnone

theorem rollback_deferred (hp : Snapshots h p s₀) (hnone : s₀.deferred = none) (hs : Broken h p s₀ s) :
    (rollback h p s).deferred = none := by
  have hcleared : (resumed p s).deferred = none := by
    rw [resumed]
    obtain hs | ⟨created, commit, hs⟩ := hs
    · rw [hs.locals, hp.recoveryTransactionStarted, if_neg nofun, hs.deferred, hnone]
    · rw [hs.locals]
      cases created with
      | true => rfl
      | false => exact hs.deferred hnone rfl
  have hwithdrawn : (withdrawn h p s).deferred = none := rollbackTarget_deferred hcleared
  rw [rollback_eq]
  split
  · exact put_deferred hwithdrawn
  · exact hwithdrawn

end OpenAdb.Settings.Rollback
