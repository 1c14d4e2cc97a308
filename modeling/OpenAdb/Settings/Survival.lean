import OpenAdb.Lib.Runs
import OpenAdb.Settings.Recovery

namespace OpenAdb.Settings.Survival

open OpenAdb.Lib.Effects OpenAdb.Lib.Faults OpenAdb.Lib.Runs OpenAdb.Settings.Files
  OpenAdb.Settings.Recovery

variable {β σ : Type} {c : Codec β σ} {plan : Nat → Verdict} {nt : Bool} {clock : Nat → Nat}
  {w : World β σ} {x y : Option β} {saved : Option (History σ)} {history : World β σ → World β σ}

/-- A save or a load with what becomes of its operations, or damage from outside. -/
inductive Action (β σ : Type)
  | save (plan : Nat → Verdict) (clock : Nat → Nat) (v : σ)
  | load (plan : Nat → Verdict) (clock : Nat → Nat)
  | damage (file : File) (content : Option β)

def damagedAt (h : History σ) : File → History σ
  | .primary => { h with lastDamaged := true }
  | .backup => h

def damage (file : File) (content : Option β) (w : World β σ) : World β σ :=
  { w with scope := w.scope.set content file, saved := w.saved.map (fun h => damagedAt h file) }

def step (c : Codec β σ) (nt : Bool) (w : World β σ) : Action β σ → Option (World β σ)
  | .save plan clock v => some (save c plan nt clock v ⟨w, 0⟩).2.value
  | .load plan clock => some (loadSettings c plan nt clock ⟨w, 0⟩).2.value
  | .damage file content => some (damage file content w)

def other : File → File
  | .primary => .backup
  | .backup => .primary

/-- Damage makes one file unusable, or removes it, while the other file is usable. -/
def DamagesOne (c : Codec β σ) (w : World β σ) : Action β σ → Prop
  | .damage file content => content.bind c.decode = none ∧ valid c (w.scope.get (other file)) = true
  | _ => True

theorem inv_of_does {α : Type} {x : Disk β σ α} {Q : α → World β σ → Prop}
    (hx : Does (fun u => u = w) x Q (fun _ => Inv c w)) (hQ : ∀ a u, Q a u → Inv c w u) :
    Inv c w (x ⟨w, 0⟩).2.value := by
  obtain ⟨a, t, hrun, ht⟩ | ⟨i, t, hrun, ht⟩ := hx.ends ⟨w, 0⟩ rfl
  · rw [hrun]
    exact hQ a t.value ht
  · rw [hrun]
    exact ht

theorem damage_sound (hs : Sound c w.saved w.scope.primary w.scope.backup) {file : File} {content : Option β}
    (hone : DamagesOne c w (.damage file content)) :
    Sound c (damage file content w).saved (damage file content w).scope.primary
      (damage file content w).scope.backup := by
  obtain ⟨hcontent, hother⟩ := hone
  have hhistory (h : History σ) (hh : (w.saved.map (fun h => damagedAt h file)) = some h) :
      ∃ g, w.saved = some g ∧ damagedAt g file = h := Option.map_eq_some_iff.mp hh
  cases file with
  | primary =>
    refine ⟨.inr (.inl hother), fun h _ x hx => ?_, ?_, ?_, ?_⟩
    · exact absurd (hcontent.symm.trans hx) nofun
    · intro h hh
      obtain ⟨g, hg, rfl⟩ := hhistory h hh
      exact hs.ofBackup g hg
    · intro h hh hintact
      obtain ⟨g, hg, rfl⟩ := hhistory h hh
      cases hintact
    · intro h u hh
      obtain ⟨g, hg, rfl⟩ := hhistory h hh
      exact hs.previous g u hg
  | backup =>
    refine ⟨.inl hother, ?_, fun h _ x hx => ?_, ?_, ?_⟩
    · intro h hh
      obtain ⟨g, hg, rfl⟩ := hhistory h hh
      exact hs.ofPrimary g hg
    · exact absurd (hcontent.symm.trans hx) nofun
    · intro h hh
      obtain ⟨g, hg, rfl⟩ := hhistory h hh
      exact hs.last g hg
    · intro h u hh
      obtain ⟨g, hg, rfl⟩ := hhistory h hh
      exact hs.previous g u hg

theorem step_inv {a : Action β σ} {w' : World β σ} (h : step c nt w a = some w')
    (hfresh : (w.scope.forensic.map Prod.fst).Nodup) :
    (w'.scope.forensic.map Prod.fst).Nodup ∧
      (DamagesOne c w a → Sound c w.saved w.scope.primary w.scope.backup →
        Sound c w'.saved w'.scope.primary w'.scope.backup) := by
  cases a with
  | save plan clock v =>
    cases h
    have hinv : Inv c w (save c plan nt clock v ⟨w, 0⟩).2.value :=
      inv_of_does (save_does hfresh) (fun _ _ h => h.1)
    exact ⟨hinv.fresh, fun _ => hinv.kept⟩
  | load plan clock =>
    cases h
    have hinv : Inv c w (loadSettings c plan nt clock ⟨w, 0⟩).2.value :=
      inv_of_does (loadSettings_does plan nt clock hfresh) (fun _ _ h => h.inv)
    exact ⟨hinv.fresh, fun _ => hinv.kept⟩
  | damage file content =>
    cases h
    refine ⟨?_, fun hone hs => damage_sound hs hone⟩
    cases file <;> exact hfresh

theorem run_fresh {actions : List (Action β σ)} {w' : World β σ}
    (hrun : exec (step c nt) w actions = some w') (hfresh : (w.scope.forensic.map Prod.fst).Nodup) :
    (w'.scope.forensic.map Prod.fst).Nodup := by
  induction actions generalizing w with
  | nil =>
    cases hrun
    exact hfresh
  | cons a as ih =>
    obtain ⟨u, hu, hrest⟩ := exec_cons hrun
    exact ih hrest (step_inv hu hfresh).1

theorem run_sound {actions : List (Action β σ)} {w' : World β σ}
    (hrun : exec (step c nt) w actions = some w')
    (hone : Along (step c nt) (DamagesOne c) w actions) (hfresh : (w.scope.forensic.map Prod.fst).Nodup)
    (hs : Sound c w.saved w.scope.primary w.scope.backup) :
    Sound c w'.saved w'.scope.primary w'.scope.backup := by
  induction actions generalizing w with
  | nil =>
    cases hrun
    exact hs
  | cons a as ih =>
    obtain ⟨u, hu, hrest⟩ := exec_cons hrun
    rw [Along, hu] at hone
    obtain ⟨hnext, hkept⟩ := step_inv hu hfresh
    exact ih hrest hone.2 hnext (hkept hone.1 hs)

/-- The settings a process starts with: no save yet, and no file or a usable one. -/
structure Start (c : Codec β σ) (w : World β σ) : Prop where
  unsaved : w.saved = none
  usable : valid c w.scope.primary = true ∨ valid c w.scope.backup = true ∨
    (w.scope.primary = none ∧ w.scope.backup = none)
  fresh : (w.scope.forensic.map Prod.fst).Nodup

theorem Start.sound (h : Start c w) : Sound c w.saved w.scope.primary w.scope.backup := by
  have hsaved := h.unsaved
  rw [hsaved]
  refine ⟨?_, nofun, nofun, nofun, nofun⟩
  obtain hprimary | hbackup | ⟨hprimary, hbackup⟩ := h.usable
  · exact .inl hprimary
  · exact .inr (.inl hbackup)
  · exact .inr (.inr ⟨hprimary, hbackup, rfl⟩)

/-- After a load that returns. -/
structure Repaired (c : Codec β σ) (nt : Bool) (w : World β σ) (result : Option σ) (w' : World β σ) :
    Prop where
  primary : ∀ v, result = some v → w'.scope.primary.bind c.decode = some v
  preserved : ∀ content, w.scope.primary = some content → c.decode content = none →
    Preserved w w' content
  forensic : w.scope.forensic <:+ w'.scope.forensic
  fresh : (w'.scope.forensic.map Prod.fst).Nodup
  again : ∀ plan clock again t, loadSettings c plan nt clock ⟨w', 0⟩ = (.ok again, t) →
    again = result ∧ t.value = w'

theorem Loaded.repaired {result : Option σ} (h : Loaded c w₀ result w) : Repaired c nt w₀ result w := by
  refine ⟨h.primary, h.preserved, h.inv.forensic, h.inv.fresh, ?_⟩
  intro plan clock again t hrun
  have hagain := h.again plan nt clock ⟨w, 0⟩ rfl
  rw [hrun] at hagain
  exact hagain

/-- The value that survives: the last one saved, or the one before it unless the primary file was
damaged in between. -/
def Survives (h : History σ) (u : σ) : Prop :=
  u = h.last ∨ h.previous = some u ∨
    (h.before = some u ∧ (h.previousDamaged = true ∨ h.previous = none))

theorem sound_survives (hs : Sound c saved x y) {h : History σ} (hsaved : saved = some h) {u : σ}
    (hu : u = h.last ∨ h.before = some u) : Survives h u := by
  obtain hlast | hbefore := hu
  · exact .inl hlast
  · cases hprevious : h.previous with
    | none => exact .inr (.inr ⟨hbefore, .inr hprevious⟩)
    | some p =>
      cases hdamaged : h.previousDamaged with
      | true => exact .inr (.inr ⟨hbefore, .inl hdamaged⟩)
      | false =>
        have hsame := hs.previous h p hsaved hprevious hdamaged
        rw [hbefore] at hsame
        exact .inr (.inl (hprevious.trans hsame.symm))

/-- Once a value was saved, a load does not return the defaults in its place. -/
theorem sound_loads {s : Scope β} (hs : Sound c saved s.primary s.backup) {h : History σ}
    (hsaved : saved = some h) :
    ∃ u file, loadable c s = some u ∧ (s.get file).bind c.decode = some u ∧ Survives h u := by
  cases hprimary : s.primary.bind c.decode with
  | some u =>
    refine ⟨u, .primary, ?_, hprimary, sound_survives hs hsaved (hs.ofPrimary h hsaved u hprimary)⟩
    rw [loadable, hprimary]
  | none =>
    have hinvalid : ¬valid c s.primary = true := not_valid hprimary
    by_cases hvalid : valid c s.backup = true
    · obtain ⟨u, hu⟩ := valid_iff.mp hvalid
      refine ⟨u, .backup, ?_, hu, sound_survives hs hsaved (hs.ofBackup h hsaved u hu)⟩
      rw [loadable, hprimary, hu]
    · rw [(hs.absent hinvalid hvalid).2.2] at hsaved
      cases hsaved

theorem writeBytesAtomic_returns (hplan : ∀ n, plan n = .proceeds) (file : File) (content : β) :
    Returns (writeBytesAtomic c plan file content history) := by
  apply (Returns.perform hplan _).bind
  intro _
  apply (Returns.perform hplan _).bind
  intro _
  exact (Returns.perform hplan _).tidying _

theorem writeBackup_returns (hplan : ∀ n, plan n = .proceeds) (temporary : β) :
    Returns (writeBackup c plan temporary : Disk β σ Unit) := by
  apply (Returns.consult hplan _).bind
  intro primary
  cases primary.filter (fun content => (c.decode content).isSome) with
  | some content => exact writeBytesAtomic_returns hplan .backup content
  | none =>
    apply (Returns.consult hplan _).bind
    intro backup
    by_cases hvalid : valid c backup = true
    · rw [if_pos hvalid]
      exact Returns.pure ()
    · rw [if_neg hvalid]
      exact writeBytesAtomic_returns hplan .backup temporary

theorem writeJsonAtomic_returns (hplan : ∀ n, plan n = .proceeds) (v : σ) :
    Returns (writeJsonAtomic c plan v history) := by
  apply (Returns.perform hplan _).bind
  intro _
  apply (Returns.perform hplan _).bind
  intro _
  apply Returns.tidying
  apply (writeBackup_returns hplan _).bind
  intro _
  exact Returns.perform hplan _

theorem preserveCorruptFile_returns (hplan : ∀ n, plan n = .proceeds) (file : File) (content : β) :
    Returns (preserveCorruptFile c plan nt clock file content : Disk β σ CorruptName) := by
  apply (Returns.read _).bind
  intro name
  cases nt with
  | true =>
    apply (Returns.perform hplan _).bind
    intro _
    exact Returns.pure name
  | false =>
    apply (Returns.perform hplan _).bind
    intro _
    apply (Returns.perform hplan _).bind
    intro _
    exact Returns.pure name

theorem repaired_returns (hplan : ∀ n, plan n = .proceeds) (v : σ) (r : RecoveryRecord) :
    Returns (do
      writeJsonAtomic c plan v id
      record r
      pure (some v)) := by
  apply (writeJsonAtomic_returns hplan v).bind
  intro _
  apply (Returns.note _).bind
  intro _
  exact Returns.pure _

theorem loadBackup_returns (hplan : ∀ n, plan n = .proceeds) (backup : β) :
    Returns (loadBackup c plan nt clock backup) := by
  rw [loadBackup]
  cases c.decode backup with
  | some recovered => exact repaired_returns hplan recovered _
  | none =>
    apply (preserveCorruptFile_returns hplan _ _).bind
    intro name
    exact repaired_returns hplan c.defaults _

theorem recoverBackup_returns (hplan : ∀ n, plan n = .proceeds) (backup : Option β) :
    Returns (recoverBackup c plan nt clock backup) := by
  cases backup with
  | none => exact Returns.pure _
  | some content =>
    cases hdecode : c.decode content with
    | some recovered =>
      simp only [recoverBackup, hdecode]
      exact Returns.pure _
    | none =>
      simp only [recoverBackup, hdecode]
      apply (preserveCorruptFile_returns hplan _ _).bind
      intro name
      exact Returns.pure _

theorem loadSettings_returns (hplan : ∀ n, plan n = .proceeds) :
    Returns (loadSettings c plan nt clock) := by
  apply (Returns.consult hplan _).bind
  intro primary
  cases primary with
  | none =>
    apply (Returns.consult hplan _).bind
    intro backup
    cases backup with
    | none => exact Returns.pure none
    | some backup => exact loadBackup_returns hplan backup
  | some primary =>
    cases hdecode : c.decode primary with
    | some loaded =>
      simp only [hdecode]
      exact Returns.pure _
    | none =>
      simp only [hdecode]
      apply (preserveCorruptFile_returns hplan _ _).bind
      intro name
      apply (Returns.consult hplan _).bind
      intro backup
      apply (recoverBackup_returns hplan backup).bind
      intro r
      exact repaired_returns hplan _ _

/-- Numbers as settings; `none` is a file that does not decode. -/
def numbers : Codec (Option Nat) Nat := ⟨some, id, fun _ => rfl, none, 0⟩

def fresh : World (Option Nat) Nat := ⟨⟨none, none, [], []⟩, [], none⟩

def calm (_ : Nat) : Verdict := .proceeds

/-- The second save stops while it writes the backup, and then the primary file is damaged. -/
def interrupted : List (Action (Option Nat) Nat) :=
  [.save calm id 1, .save (fun n => if n = 9 then .stops else .proceeds) id 2, .damage .primary (some none)]

/-- What the last and the next-to-last save wrote, and what a load returns. -/
def reloaded (actions : List (Action (Option Nat) Nat)) :
    Option (Option (Nat × Option Nat) × Option (Option Nat)) :=
  (exec (step numbers false) fresh actions).map (fun w =>
    (w.saved.map (fun h => (h.last, h.previous)), (loadSettings numbers calm false id ⟨w, 0⟩).1.toOption))

end OpenAdb.Settings.Survival
