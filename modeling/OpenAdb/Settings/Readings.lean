import OpenAdb.Settings.Recovery

namespace OpenAdb.Settings.Readings

open OpenAdb.Lib.Effects OpenAdb.Lib.Faults OpenAdb.Settings.Files
open OpenAdb.Settings.Recovery (readFile_stays anyExists_does)

variable {β σ α γ : Type} {c : Codec β σ} {plan : Nat → Verdict} {nt : Bool} {clock : Nat → Nat}
  {g : Option σ → γ} {a : γ} {v : σ} {w : World β σ} {content : β} {P : World β σ → Prop}

/-- The settings in a primary file that can be read, or else those in the backup. -/
def usable (c : Codec β σ) (s : Scope β) : Option σ := (s.primary.bind c.decode).or (s.backup.bind c.decode)

/-- What is read off the settings of a scope. -/
def Tells (c : Codec β σ) (g : Option σ → γ) (a : γ) (w : World β σ) : Prop := g (usable c w.scope) = a

theorem usable_primary {s : Scope β} (h : s.primary.bind c.decode = some v) : usable c s = some v := by
  rw [usable, h]
  rfl

theorem usable_backup {s : Scope β} (h : s.primary.bind c.decode = none) : usable c s = s.backup.bind c.decode := by
  rw [usable, h, Option.none_or]

theorem usable_encoded {s : Scope β} (h : s.primary = some (c.encode v)) : usable c s = some v := by
  apply usable_primary
  rw [h]
  exact c.decode_encode v

/-- Temporary and forensic files are not read. -/
theorem Tells.congr {w' : World β σ} (h : Tells c g a w)
    (hprimary : w'.scope.primary.bind c.decode = w.scope.primary.bind c.decode)
    (hbackup : w'.scope.backup.bind c.decode = w.scope.backup.bind c.decode) : Tells c g a w' := by
  rw [Tells, usable, hprimary, hbackup]
  exact h

/-- Whatever is not said of the temporary files. -/
def Spares (P : World β σ → Prop) : Prop :=
  ∀ w temporaries, P w → P (onScope (fun s => { s with temporaries }) w)

theorem spares_tells : Spares (Tells c g a) := fun _ _ h => h.congr rfl rfl

theorem Spares.and {P' : World β σ → Prop} (h : Spares P) (h' : Spares P') : Spares (fun w => P w ∧ P' w) :=
  fun w temporaries hw => ⟨h w temporaries hw.1, h' w temporaries hw.2⟩

theorem spares_primary (x : Option β) : Spares (fun w : World β σ => x = w.scope.primary) := fun _ _ h => h

theorem readFile_tells (file : File) : Does P (readFile plan file)
    (fun content w => content = w.scope.get file ∧ P w) (fun _ => P) :=
  Does.consult (fun _ h => ⟨rfl, h⟩) (fun _ _ => id)

theorem createTemporary_spares (hP : Spares P) (file : File) :
    Does P (createTemporary c plan file) (fun _ => P) (fun _ => P) :=
  Does.perform (fun w h => hP w _ h) (fun _ _ => id)

theorem fillTemporary_spares (hP : Spares P) (file : File) (content : β) :
    Does P (fillTemporary plan file content) (fun _ => P) (fun _ => P) :=
  Does.perform (fun w h => hP w _ h) (fun _ _ => id)

theorem writeBytesAtomic_tells (hP : Spares P) {Q : World β σ → Prop} (hPQ : ∀ w, P w → Q w)
    (hreplace : ∀ w temporaries, P w →
      Q (onScope (fun s => { s with temporaries, backup := some content }) w)) :
    Does P (writeBytesAtomic c plan .backup content id) (fun _ => Q) (fun _ => Q) := by
  apply ((createTemporary_spares hP .backup).mono (fun _ => id) (fun _ _ => id) (fun _ w => hPQ w)).bind
  intro _
  apply ((fillTemporary_spares hP .backup content).mono (fun _ => id) (fun _ _ => id) (fun _ w => hPQ w)).bind
  intro _
  apply Does.tidying (E := fun _ => P)
  · exact Does.perform (fun w h => hreplace w _ h) (fun _ _ => id)
  · exact fun w h => hPQ _ (hP w _ h)
  · exact fun _ w => hPQ w
  · exact fun w => hPQ w

theorem writeBackup_tells (hv : g (some v) = a) :
    Does (Tells c g a) (writeBackup c plan (c.encode v)) (fun _ => Tells c g a) (fun _ => Tells c g a) := by
  apply (readFile_tells .primary).bind
  intro primary
  have hspares : Spares (fun w => primary = w.scope.primary ∧ Tells c g a w) :=
    (spares_primary primary).and spares_tells
  cases hfilter : primary.filter (fun content => (c.decode content).isSome) with
  | some content =>
    obtain ⟨hcontent, hdecodes⟩ := Option.filter_eq_some_iff.mp hfilter
    obtain ⟨u, hu⟩ := Option.isSome_iff_exists.mp hdecodes
    have hprimary : primary.bind c.decode = some u := by
      rw [hcontent]
      exact hu
    apply writeBytesAtomic_tells hspares (fun _ h => h.2)
    intro w temporaries h
    have hscope : w.scope.primary.bind c.decode = some u := by
      rw [← h.1]
      exact hprimary
    have htells : g (usable c w.scope) = a := h.2
    rw [usable_primary hscope] at htells
    have hread : usable c (onScope (fun s => { s with temporaries, backup := some content }) w).scope = some u :=
      usable_primary hscope
    rwa [Tells, hread]
  | none =>
    have hunusable : primary.bind c.decode = none := by
      cases primary with
      | none => rfl
      | some content => exact Option.not_isSome_iff_eq_none.mp (Option.filter_eq_none_iff.mp hfilter content rfl)
    apply ((readFile_tells .backup).mono (fun _ => id) (fun _ _ => id) (fun _ _ h => h.2)).bind
    intro backup
    by_cases hvalid : valid c backup = true
    · rw [if_pos hvalid]
      exact Does.pure (fun _ h => h.2.2)
    · rw [if_neg hvalid]
      apply Does.mono _ (fun _ h => h.2) (fun _ _ => id) (fun _ _ => id)
      apply writeBytesAtomic_tells hspares (fun _ h => h.2)
      intro w temporaries h
      have hscope : w.scope.primary.bind c.decode = none := by
        rw [← h.1]
        exact hunusable
      have hread : usable c (onScope (fun s => { s with temporaries, backup := some (c.encode v) }) w).scope =
          some v := by
        rw [usable_backup]
        · exact c.decode_encode v
        · exact hscope
      rw [Tells, hread]
      exact hv

/-- Settings that tell what the scope tells may be written, and the writing may fail. -/
theorem writeJsonAtomic_tells (hv : g (some v) = a) {history : World β σ → World β σ}
    (hhistory : ∀ w, (history w).scope = w.scope) :
    Does (Tells c g a) (writeJsonAtomic c plan v history) (fun _ => Tells c g a) (fun _ => Tells c g a) := by
  apply (createTemporary_spares spares_tells .primary).bind
  intro _
  apply (fillTemporary_spares spares_tells .primary (c.encode v)).bind
  intro _
  apply Does.tidying (E := fun _ => Tells c g a)
  · apply (writeBackup_tells hv).bind
    intro _
    apply Does.perform
    · intro w _
      rw [Tells, hhistory, usable_encoded (v := v) rfl]
      exact hv
    · exact fun _ _ => id
  · exact fun w h => spares_tells w _ h
  · exact fun _ _ => id
  · exact fun _ => id

/-- With a file that cannot be read. -/
def Damaged (c : Codec β σ) (g : Option σ → γ) (a : γ) (file : File) (w : World β σ) : Prop :=
  (w.scope.get file).bind c.decode = none ∧ Tells c g a w

theorem Damaged.copied {file : File} (h : Damaged c g a file w) (forensic : List (CorruptName × β)) :
    Damaged c g a file (onScope (fun s => { s with forensic }) w) := by
  refine ⟨?_, h.2.congr rfl rfl⟩
  cases file <;> exact h.1

theorem Damaged.moved {file : File} (h : Damaged c g a file w) (forensic : List (CorruptName × β)) :
    Damaged c g a file (onScope (fun s => { s with forensic }.set none file) w) := by
  cases file with
  | primary => exact ⟨rfl, h.2.congr h.1.symm rfl⟩
  | backup => exact ⟨rfl, h.2.congr rfl h.1.symm⟩

/-- An unusable file is moved away, or copied and left. -/
theorem preserve_tells (file : File) :
    Does (Damaged c g a file) (preserveCorruptFile c plan nt clock file content)
      (fun _ => Damaged c g a file) (fun _ => Tells c g a) := by
  have hname : Does (Damaged c g a file) (Lib.Effects.read (fun s => candidate (clock s.ops) file s.value.scope))
      (fun _ => Damaged c g a file) (fun _ => Tells c g a) := Meets.read (fun _ => id)
  apply hname.bind
  intro name
  cases nt with
  | true =>
    have hmoved : Does (Damaged c g a file)
        (perform plan (onScope (fun s => { s with forensic := (name, content) :: s.forensic }.set none file)))
        (fun _ => Damaged c g a file) (fun _ => Tells c g a) :=
      Does.perform (fun _ h => h.moved _) (fun _ _ h => h.2)
    apply hmoved.bind
    intro _
    exact Does.pure (fun _ => id)
  | false =>
    have hopened : Does (Damaged c g a file)
        (perform plan (onScope (fun s => { s with forensic := (name, c.blank) :: s.forensic })))
        (fun _ => Damaged c g a file) (fun _ => Tells c g a) :=
      Does.perform (fun _ h => h.copied _) (fun _ _ h => h.2)
    have hcopied : Does (Damaged c g a file)
        (perform plan (onScope (fun s => { s with forensic := (name, content) :: s.forensic.tail })))
        (fun _ => Damaged c g a file) (fun _ => Tells c g a) :=
      Does.perform (fun _ h => h.copied _) (fun _ _ h => h.2)
    apply hopened.bind
    intro _
    apply hcopied.bind
    intro _
    exact Does.pure (fun _ => id)

theorem damaged_of_get {file : File} (hdecode : c.decode content = none)
    (h : some content = w.scope.get file ∧ Tells c g a w) : Damaged c g a file w := by
  refine ⟨?_, h.2⟩
  rw [← h.1]
  exact hdecode

theorem record_tells (r : RecoveryRecord) : Does (Tells c g a) (record r) (fun _ => Tells c g a)
    (fun _ => Tells c g a) := Does.note (fun _ h => h)

/-- The end of a recovery. -/
theorem recovered_tells (hv : g (some v) = a) (r : RecoveryRecord) :
    Does (Tells c g a) (do
        writeJsonAtomic c plan v id
        record r
        pure (some v)) (fun loaded w => g loaded = a ∧ Tells c g a w) (fun _ => Tells c g a) := by
  apply (writeJsonAtomic_tells hv (fun _ => rfl)).bind
  intro _
  apply (record_tells r).bind
  intro _
  exact Does.pure (fun _ h => ⟨hv, h⟩)

theorem loadBackup_tells (hdefaults : g none = g (some c.defaults)) :
    Does (fun w => some content = w.scope.get .backup ∧ none = w.scope.get .primary ∧ Tells c g a w)
      (loadBackup c plan nt clock content) (fun loaded w => g loaded = a ∧ Tells c g a w)
      (fun _ => Tells c g a) := by
  have hreads (w : World β σ) (hw : some content = w.scope.get .backup ∧ none = w.scope.get .primary ∧
      Tells c g a w) : g (c.decode content) = a := by
    obtain ⟨hbackup, hprimary, h⟩ := hw
    change some content = w.scope.backup at hbackup
    change none = w.scope.primary at hprimary
    rw [Tells, usable, ← hprimary, ← hbackup] at h
    exact h
  rw [loadBackup]
  cases hdecode : c.decode content with
  | none =>
    apply Does.of_pre hreads
    intro hnone
    rw [hdecode, hdefaults] at hnone
    apply ((preserve_tells .backup).mono (fun _ h => damaged_of_get hdecode ⟨h.1, h.2.2⟩) (fun _ _ => id)
      (fun _ _ => id)).bind
    intro name
    exact (recovered_tells hnone _).mono (fun _ h => h.2) (fun _ _ => id) (fun _ _ => id)
  | some recovered =>
    apply Does.of_pre hreads
    intro hrecovered
    rw [hdecode] at hrecovered
    exact (recovered_tells hrecovered _).mono (fun _ h => h.2.2) (fun _ _ => id) (fun _ _ => id)

theorem recoverBackup_tells {backup : Option β} :
    Does (fun w => backup = w.scope.get .backup ∧ Tells c g a w) (recoverBackup c plan nt clock backup)
      (fun r w => r.1 = backup.bind c.decode ∧ Tells c g a w) (fun _ => Tells c g a) := by
  cases backup with
  | none => exact Does.pure (fun _ h => ⟨rfl, h.2⟩)
  | some content =>
    rw [recoverBackup]
    cases hdecode : c.decode content with
    | some recovered => exact Does.pure (fun _ h => ⟨hdecode.symm, h.2⟩)
    | none =>
      apply ((preserve_tells .backup).mono (fun _ => damaged_of_get hdecode) (fun _ _ => id) (fun _ _ => id)).bind
      intro name
      exact Does.pure (fun _ h => ⟨hdecode.symm, h.2⟩)

theorem repairPrimary_tells (hdefaults : g none = g (some c.defaults)) (hdamaged : c.decode content = none) :
    Does (fun w => some content = w.scope.get .primary ∧ Tells c g a w) (repairPrimary c plan nt clock content)
      (fun loaded w => g loaded = a ∧ Tells c g a w) (fun _ => Tells c g a) := by
  apply ((preserve_tells .primary).mono (fun _ => damaged_of_get hdamaged) (fun _ _ => id) (fun _ _ => id)).bind
  intro name
  apply ((readFile_tells .backup).mono (fun _ => id) (fun _ _ => id) (fun _ _ h => h.2)).bind
  intro backup
  apply Does.of_pre (φ := g (backup.bind c.decode) = a)
  · intro w hw
    obtain ⟨hbackup, hprimary, h⟩ := hw
    rw [Tells, usable_backup hprimary] at h
    rw [hbackup]
    exact h
  · intro hbackup
    apply (recoverBackup_tells.mono (fun _ h => ⟨h.1, h.2.2⟩) (fun _ _ => id) (fun _ _ => id)).bind
    intro r
    obtain ⟨recovered, preserved⟩ := r
    apply Does.of_fact
    intro hrecovered
    change recovered = backup.bind c.decode at hrecovered
    apply recovered_tells
    rw [← hrecovered] at hbackup
    cases recovered with
    | some u => exact hbackup
    | none => exact hdefaults.symm.trans hbackup

theorem loadSettings_tells (hdefaults : g none = g (some c.defaults)) :
    Does (Tells c g a) (loadSettings c plan nt clock) (fun loaded w => g loaded = a ∧ Tells c g a w)
      (fun _ => Tells c g a) := by
  apply (readFile_tells .primary).bind
  intro primary
  cases primary with
  | none =>
    apply ((readFile_tells .backup).mono (fun _ => id) (fun _ _ => id) (fun _ _ h => h.2)).bind
    intro backup
    cases backup with
    | some content => exact loadBackup_tells hdefaults
    | none =>
      apply Does.pure
      intro w hw
      obtain ⟨hbackup, hprimary, h⟩ := hw
      refine ⟨?_, h⟩
      change none = w.scope.backup at hbackup
      change none = w.scope.primary at hprimary
      rw [Tells, usable, ← hprimary, ← hbackup] at h
      exact h
  | some content =>
    cases hdecode : c.decode content with
    | none =>
      simp only [hdecode]
      exact repairPrimary_tells hdefaults hdecode
    | some loaded =>
      simp only [hdecode]
      apply Does.pure
      intro w hw
      obtain ⟨hprimary, h⟩ := hw
      refine ⟨?_, h⟩
      change some content = w.scope.primary at hprimary
      have hscope : w.scope.primary.bind c.decode = some loaded := by
        rw [← hprimary]
        exact hdecode
      rw [Tells, usable_primary hscope] at h
      exact h

theorem anyExists_tells : Does (Tells c g a) (anyExists plan)
    (fun found w => (found = false → g none = a) ∧ Tells c g a w) (fun _ => Tells c g a) := by
  apply Does.of_each
  intro w h
  apply (anyExists_does (E := fun _ => Tells c g a) (fun _ => h)).mono (fun _ => id)
  · intro found w' hw
    obtain ⟨hfound, rfl⟩ := hw
    refine ⟨fun hnone => ?_, h⟩
    obtain ⟨hprimary, hbackup⟩ := hfound hnone
    rw [Tells, usable, hprimary, hbackup] at h
    exact h
  · exact fun _ _ => id

/-- Saving settings that tell what the files tell, and the saving may fail. -/
theorem save_tells (hdefaults : g none = g (some c.defaults)) (hv : g (some v) = a) :
    Does (Tells c g a) (save c plan nt clock v) (fun _ => Tells c g a) (fun _ => Tells c g a) := by
  have hbefore : Does (Tells c g a) (Lib.Effects.read (fun s => loadable c s.value.scope))
      (fun _ => Tells c g a) (fun _ => Tells c g a) := Meets.read (fun _ => id)
  apply hbefore.bind
  intro before
  apply anyExists_tells.bind
  intro found
  have hwritten : Does (Tells c g a) (writeJsonAtomic c plan v (recordSave v before)) (fun _ => Tells c g a)
      (fun _ => Tells c g a) := writeJsonAtomic_tells hv (fun _ => rfl)
  cases found with
  | true =>
    apply ((loadSettings_tells hdefaults).mono (fun _ h => h.2) (fun _ _ => id) (fun _ _ => id)).bind
    intro _
    exact hwritten.mono (fun _ h => h.2) (fun _ _ => id) (fun _ _ => id)
  | false => exact hwritten.mono (fun _ h => h.2) (fun _ _ => id) (fun _ _ => id)

end OpenAdb.Settings.Readings
