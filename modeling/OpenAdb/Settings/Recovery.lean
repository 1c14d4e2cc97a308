import OpenAdb.Settings.Files

namespace OpenAdb.Settings.Recovery

open OpenAdb.Lib.Effects OpenAdb.Lib.Faults OpenAdb.Settings.Files

variable {β σ : Type} {c : Codec β σ} {plan : Nat → Verdict} {nt : Bool} {clock : Nat → Nat}
  {w₀ w : World β σ} {x y : Option β} {v : σ}

/-- The last part of every repair. -/
theorem repaired_does {w₁ : World β σ} {r : RecoveryRecord} (h : Has c w₀ x y w₁)
    (hx : ¬valid c x = true) (hv : (y.bind c.decode).getD c.defaults = v) :
    Does (fun w => w = w₁) (do
        writeJsonAtomic c plan v id
        record r
        pure (some v))
      (fun result w => result = some v ∧ Inv c w₀ w ∧ w.saved = w₀.saved ∧
        w.scope.primary.bind c.decode = some v ∧ w₁.scope.forensic <:+ w.scope.forensic)
      (fun _ => Inv c w₀) := by
  have hwritten : Does (fun w => w = w₁) (writeJsonAtomic c plan v id)
      (fun _ => Has c w₁ (some (c.encode v)) (backupAfter c x y (c.encode v))) (fun _ => Inv c w₀) := by
    apply (repair_does hx hv).mono
    · intro w hw
      subst hw
      exact h.again
    · exact fun _ _ hw => hw
    · exact fun _ _ hw => h.inv.trans hw
  apply hwritten.bind
  intro _
  have hrecorded : Does (Has c w₁ (some (c.encode v)) (backupAfter c x y (c.encode v))) (record r)
      (fun _ => Has c w₁ (some (c.encode v)) (backupAfter c x y (c.encode v))) (fun _ => Inv c w₀) :=
    Does.note (fun _ hw =>
      ⟨⟨hw.inv.kept, hw.inv.forensic, hw.inv.fresh⟩, hw.saved, hw.primary, hw.backup⟩)
  apply hrecorded.bind
  intro _
  apply Does.pure
  intro w hw
  refine ⟨rfl, h.inv.trans hw.inv, hw.saved.trans h.saved, ?_, hw.inv.forensic⟩
  rw [hw.primary]
  exact c.decode_encode v

/-- What a load returns and leaves. -/
structure Loaded (c : Codec β σ) (w₀ : World β σ) (result : Option σ) (w : World β σ) : Prop where
  inv : Inv c w₀ w
  saved : w.saved = w₀.saved
  returns : result = loadable c w₀.scope
  primary : ∀ v, result = some v → w.scope.primary.bind c.decode = some v
  absent : result = none → w = w₀
  preserved : ∀ content, w₀.scope.primary = some content → c.decode content = none →
    Preserved w₀ w content

theorem loadBackup_does {backup : β} (hprimary : w₀.scope.primary = none)
    (hbackup : w₀.scope.backup = some backup) :
    Does (Has c w₀ none (some backup)) (loadBackup c plan nt clock backup) (Loaded c w₀)
      (fun _ => Inv c w₀) := by
  have hloadable : loadable c w₀.scope = some ((c.decode backup).getD c.defaults) := by
    rw [loadable, hprimary, hbackup]
    cases hdecode : c.decode backup <;> simp [hdecode]
  have hfinal (v : σ) (hv : (c.decode backup).getD c.defaults = v) (result : Option σ)
      (w₁ w : World β σ) (h : result = some v ∧ Inv c w₀ w ∧ w.saved = w₀.saved ∧
        w.scope.primary.bind c.decode = some v ∧ w₁.scope.forensic <:+ w.scope.forensic) :
      Loaded c w₀ result w := by
    obtain ⟨rfl, hinv, hsaved, hwritten, _⟩ := h
    refine ⟨hinv, hsaved, hloadable ▸ hv ▸ rfl, ?_, nofun, ?_⟩
    · intro u hu
      cases hu
      exact hwritten
    · intro content hcontent
      rw [hprimary] at hcontent
      cases hcontent
  rw [loadBackup]
  cases hdecode : c.decode backup with
  | none =>
    rw [hdecode] at hfinal
    apply (preserve_does .backup rfl hdecode).bind
    intro name
    apply Does.of_each
    intro w₁ ⟨_, h⟩
    have hunusable : (Scope.without nt (some backup)).bind c.decode = none := without_unusable hdecode
    exact (repaired_does h nofun (by rw [File.pick, hunusable]; rfl)).mono (fun _ => id)
      (fun result w => hfinal c.defaults rfl result w₁ w) (fun _ _ => id)
  | some recovered =>
    rw [hdecode] at hfinal
    apply Does.of_each
    intro w₁ h
    exact (repaired_does h nofun (by rw [Option.bind_some, hdecode]; rfl)).mono (fun _ => id)
      (fun result w => hfinal recovered rfl result w₁ w) (fun _ _ => id)

theorem recoverBackup_does :
    Does (Has c w₀ x y) (recoverBackup c plan nt clock y)
      (fun r w => r.1 = y.bind c.decode ∧ ∃ y', y'.bind c.decode = y.bind c.decode ∧ Has c w₀ x y' w)
      (fun _ => Inv c w₀) := by
  cases y with
  | none => exact Does.pure (fun _ h => ⟨rfl, none, rfl, h⟩)
  | some content =>
    cases hdecode : c.decode content with
    | some recovered =>
      simp only [recoverBackup, hdecode]
      exact Does.pure (fun _ h => ⟨hdecode.symm, some content, rfl, h⟩)
    | none =>
      simp only [recoverBackup, hdecode]
      apply (preserve_does .backup rfl hdecode).bind
      intro name
      apply Does.pure
      intro w hw
      exact ⟨hdecode.symm, _, (without_unusable hdecode).trans hdecode.symm, hw.2⟩

theorem readFile_stays (file : File) {E : Interrupt → World β σ → Prop} (hE : ∀ i, E i w₀) :
    Does (fun w => w = w₀) (readFile plan file)
      (fun content w => content = w₀.scope.get file ∧ w = w₀) E := by
  apply Does.consult
  · intro w hw
    subst hw
    exact ⟨rfl, rfl⟩
  · intro i w hw
    subst hw
    exact hE i

theorem repairPrimary_does {primary : β} (hprimary : w₀.scope.primary = some primary)
    (hdamaged : c.decode primary = none) :
    Does (Has c w₀ (some primary) w₀.scope.backup) (repairPrimary c plan nt clock primary) (Loaded c w₀)
      (fun _ => Inv c w₀) := by
  have hloadable : loadable c w₀.scope = some ((w₀.scope.backup.bind c.decode).getD c.defaults) := by
    rw [loadable, hprimary, Option.bind_some, hdamaged]
    cases w₀.scope.backup.bind c.decode <;> rfl
  have hunusable : ¬valid c (Scope.without nt (some primary)) = true := not_valid (without_unusable hdamaged)
  apply (preserve_does .primary rfl hdamaged).bind
  intro name
  apply Does.of_each
  intro w₁ ⟨hpreserved, h₁⟩
  change Has c w₀ (Scope.without nt (some primary)) w₀.scope.backup w₁ at h₁
  apply (readFile_stays .backup (fun _ => h₁.inv)).bind
  intro backup
  apply Does.of_fact
  intro hbackup
  have hsame : backup = w₀.scope.backup := hbackup.trans h₁.backup
  subst hsame
  have hrecovered : Does (fun w => w = w₁) (recoverBackup c plan nt clock w₀.scope.backup)
      (fun r w => r.1 = w₀.scope.backup.bind c.decode ∧ ∃ y',
        y'.bind c.decode = w₀.scope.backup.bind c.decode ∧
          Has c w₁ (Scope.without nt (some primary)) y' w) (fun _ => Inv c w₀) := by
    apply recoverBackup_does.mono
    · intro w hw
      subst hw
      exact h₁.again
    · exact fun _ _ hw => hw
    · exact fun _ _ hw => h₁.inv.trans hw
  apply hrecovered.bind
  intro r
  apply Does.of_each
  intro w₂ ⟨hr, y', hy', h₂⟩
  have hhas : Has c w₀ (Scope.without nt (some primary)) y' w₂ :=
    ⟨h₁.inv.trans h₂.inv, h₂.saved.trans h₁.saved, h₂.primary, h₂.backup⟩
  apply (repaired_does hhas hunusable (by rw [hy', ← hr])).mono (fun _ => id) _ (fun _ _ => id)
  intro result w ⟨hresult, hinv, hsaved, hwritten, hsuffix⟩
  refine ⟨hinv, hsaved, ?_, ?_, ?_, ?_⟩
  · rw [hresult, hloadable, hr]
  · intro u hu
    rw [hwritten, ← hresult, hu]
  · rw [hresult]
    nofun
  · intro content hcontent _
    rw [hprimary] at hcontent
    cases hcontent
    exact (hpreserved.later h₂.inv.forensic).later hsuffix

theorem Loaded.untouched {result : Option σ} (hfresh : (w.scope.forensic.map Prod.fst).Nodup)
    (hresult : result = w.scope.primary.bind c.decode)
    (habsent : result = none → w.scope.primary = none ∧ w.scope.backup = none) : Loaded c w result w := by
  have hreturns : result = loadable c w.scope := by
    rw [loadable]
    cases hdecode : w.scope.primary.bind c.decode with
    | some loaded => rw [hresult, hdecode]
    | none =>
      obtain ⟨hprimary, hbackup⟩ := habsent (hresult.trans hdecode)
      rw [hresult, hdecode, hprimary, hbackup]
      rfl
  refine ⟨Inv.refl hfresh, rfl, hreturns, fun v hv => hresult.symm.trans hv, fun _ => rfl, ?_⟩
  intro content hcontent hdamaged
  have hnone : result = none := by rw [hresult, hcontent, Option.bind_some, hdamaged]
  rw [(habsent hnone).1] at hcontent
  cases hcontent

theorem loadSettings_does (plan : Nat → Verdict) (nt : Bool) (clock : Nat → Nat)
    (hfresh : (w₀.scope.forensic.map Prod.fst).Nodup) :
    Does (fun w => w = w₀) (loadSettings c plan nt clock) (Loaded c w₀) (fun _ => Inv c w₀) := by
  have hinv := Inv.refl (c := c) hfresh
  have hstart (w : World β σ) (hw : w = w₀) : Has c w₀ w₀.scope.primary w₀.scope.backup w := by
    subst hw
    exact ⟨hinv, rfl, rfl, rfl⟩
  apply (readFile_stays .primary (fun _ => hinv)).bind
  intro primary
  apply Does.of_fact
  intro hprimary
  change primary = w₀.scope.primary at hprimary
  cases primary with
  | some primary =>
    cases hdecode : c.decode primary with
    | some loaded =>
      simp only [hdecode]
      apply Does.pure
      intro w hw
      subst hw
      exact Loaded.untouched hfresh (by rw [← hprimary, Option.bind_some, hdecode]) nofun
    | none =>
      simp only [hdecode]
      rw [← hprimary] at hstart
      exact (repairPrimary_does hprimary.symm hdecode).mono hstart (fun _ _ => id) (fun _ _ => id)
  | none =>
    apply (readFile_stays .backup (fun _ => hinv)).bind
    intro backup
    apply Does.of_fact
    intro hbackup
    change backup = w₀.scope.backup at hbackup
    cases backup with
    | some backup =>
      rw [← hprimary, ← hbackup] at hstart
      exact (loadBackup_does hprimary.symm hbackup.symm).mono hstart (fun _ _ => id) (fun _ _ => id)
    | none =>
      apply Does.pure
      intro w hw
      subst hw
      exact Loaded.untouched hfresh (by rw [← hprimary]; rfl) (fun _ => ⟨hprimary.symm, hbackup.symm⟩)

/-- A usable primary file, or no file at all, makes a load return what is there. -/
theorem loadSettings_again {result : Option σ} (h : result = w₀.scope.primary.bind c.decode)
    (habsent : result = none → w₀.scope.primary = none ∧ w₀.scope.backup = none) :
    Does (fun w => w = w₀) (loadSettings c plan nt clock) (fun again w => again = result ∧ w = w₀)
      (fun _ w => w = w₀) := by
  apply (readFile_stays .primary (E := fun _ w => w = w₀) (fun _ => rfl)).bind
  intro primary
  apply Does.of_fact
  intro hprimary
  change primary = w₀.scope.primary at hprimary
  rw [← hprimary] at h habsent
  cases result with
  | some loaded =>
    obtain ⟨content, rfl, hdecode⟩ := Option.bind_eq_some_iff.mp h.symm
    simp only [hdecode]
    exact Does.pure (fun _ hw => ⟨rfl, hw⟩)
  | none =>
    obtain ⟨rfl, hnone⟩ := habsent rfl
    apply (readFile_stays .backup (E := fun _ w => w = w₀) (fun _ => rfl)).bind
    intro backup
    apply Does.of_fact
    intro hbackup
    change backup = w₀.scope.backup at hbackup
    rw [hnone] at hbackup
    subst hbackup
    exact Does.pure (fun _ hw => ⟨rfl, hw⟩)

theorem loadable_none {s : Scope β} (h : loadable c s = none) : s.primary = none ∧ s.backup = none := by
  rw [loadable] at h
  cases hprimary : s.primary.bind c.decode with
  | some loaded =>
    rw [hprimary] at h
    cases h
  | none =>
    cases hbackup : s.backup.bind c.decode with
    | some recovered =>
      rw [hprimary, hbackup] at h
      cases h
    | none =>
      rw [hprimary, hbackup] at h
      by_cases hthere : (s.primary.isSome || s.backup.isSome) = true
      · rw [if_pos hthere] at h
        cases h
      · rw [Bool.not_eq_true, Bool.or_eq_false_iff] at hthere
        exact ⟨Option.isSome_eq_false_iff.mp hthere.1 |> Option.isNone_iff_eq_none.mp,
          Option.isSome_eq_false_iff.mp hthere.2 |> Option.isNone_iff_eq_none.mp⟩

theorem Loaded.again (plan : Nat → Verdict) (nt : Bool) (clock : Nat → Nat) {result : Option σ}
    (h : Loaded c w₀ result w) :
    Does (fun u => u = w) (loadSettings c plan nt clock) (fun again u => again = result ∧ u = w)
      (fun _ u => u = w) := by
  cases result with
  | some v => exact loadSettings_again (h.primary v rfl).symm nofun
  | none =>
    have hnone := loadable_none h.returns.symm
    rw [← h.absent rfl] at hnone
    exact loadSettings_again (by rw [hnone.1]; rfl) (fun _ => hnone)

/-- After a load the backup gets the loaded value. -/
theorem Loaded.backupAfter {result : Option σ} (h : Loaded c w₀ result w) {u : σ}
    (hu : (Files.backupAfter c w.scope.primary w.scope.backup (c.encode v)).bind c.decode = some u) :
    u = v ∨ loadable c w₀.scope = some u := by
  rw [Files.backupAfter] at hu
  cases result with
  | some loaded =>
    have hprimary := h.primary loaded rfl
    rw [if_pos (valid_iff.mpr ⟨loaded, hprimary⟩), hprimary] at hu
    exact .inr (h.returns.symm.trans hu)
  | none =>
    have hnone := loadable_none h.returns.symm
    rw [← h.absent rfl] at hnone
    rw [hnone.1, hnone.2, if_neg (not_valid rfl), if_neg (not_valid rfl)] at hu
    exact .inl (Option.some.inj (hu.symm.trans (c.decode_encode v)))

/-- Before a save, the last saved value is loaded unless the primary file was damaged. -/
theorem completed_sound {result : Option σ} (h : Loaded c w₀ result w)
    (hs : Sound c w₀.saved w₀.scope.primary w₀.scope.backup) :
    Sound c (some (Files.completed w₀.saved v (loadable c w₀.scope))) (some (c.encode v))
      (Files.backupAfter c w.scope.primary w.scope.backup (c.encode v)) := by
  refine ⟨.inl (valid_encode v), ?_, ?_, ?_, ?_⟩
  · intro g hg x hx
    cases hg
    exact .inl (Option.some.inj (hx.symm.trans (c.decode_encode v)))
  · intro g hg x hx
    cases hg
    exact h.backupAfter hx
  · intro g hg _
    cases hg
    exact c.decode_encode v
  · intro g u hg hu hintact
    cases hg
    cases hsaved : w₀.saved with
    | none =>
      rw [Files.completed, hsaved] at hu
      cases hu
    | some last =>
      rw [Files.completed, hsaved] at hu hintact
      cases hu
      have hlast := hs.last last hsaved hintact
      change loadable c w₀.scope = some last.last
      rw [loadable, hlast]

theorem anyExists_does {E : Interrupt → World β σ → Prop} (hE : ∀ i, E i w₀) :
    Does (fun w => w = w₀) (anyExists plan)
      (fun found w => (found = false → w₀.scope.primary = none ∧ w₀.scope.backup = none) ∧ w = w₀) E := by
  apply (readFile_stays .primary hE).bind
  intro primary
  apply Does.of_fact
  intro hprimary
  change primary = w₀.scope.primary at hprimary
  cases primary with
  | some content => exact Does.pure (fun _ hw => ⟨nofun, hw⟩)
  | none =>
    apply (readFile_stays .backup hE).bind
    intro backup
    apply Does.of_fact
    intro hbackup
    change backup = w₀.scope.backup at hbackup
    apply Does.pure
    intro w hw
    refine ⟨fun hfound => ⟨hprimary.symm, ?_⟩, hw⟩
    rw [← hbackup]
    exact Option.isNone_iff_eq_none.mp (Option.isSome_eq_false_iff.mp hfound)

/-- What is left of a save after loading. -/
theorem saveLoaded_does (result : Option σ) :
    Does (Loaded c w₀ result) (writeJsonAtomic c plan v (recordSave v (loadable c w₀.scope)))
      (fun _ w => Inv c w₀ w ∧ w.saved = some (completed w₀.saved v (loadable c w₀.scope)))
      (fun _ => Inv c w₀) := by
  apply Does.of_each
  intro w₁ h
  have hwritten : Does (Has c w₁ w₁.scope.primary w₁.scope.backup)
      (writeJsonAtomic c plan v (recordSave v (loadable c w₀.scope)))
      (fun _ w => Inv c w₀ w ∧ w.saved = some (completed w₀.saved v (loadable c w₀.scope)))
      (fun _ => Inv c w₁) := by
    apply writeJsonAtomic_does
    intro w temporaries hw
    have hsaved : w.saved = w₀.saved := hw.saved.trans h.saved
    refine ⟨⟨fun hs => ?_, h.inv.forensic.trans hw.inv.forensic, hw.inv.fresh⟩, ?_⟩
    · have hcompleted := completed_sound (v := v) h hs
      rw [← hw.backup, ← hsaved] at hcompleted
      exact hcompleted
    · rw [← hsaved]
      rfl
  apply hwritten.mono
  · intro w hw
    subst hw
    exact ⟨Inv.refl h.inv.fresh, rfl, rfl, rfl⟩
  · exact fun _ _ => id
  · exact fun _ _ hw => h.inv.trans hw

theorem save_does (hfresh : (w₀.scope.forensic.map Prod.fst).Nodup) :
    Does (fun w => w = w₀) (save c plan nt clock v)
      (fun _ w => Inv c w₀ w ∧ w.saved = some (completed w₀.saved v (loadable c w₀.scope)))
      (fun _ => Inv c w₀) := by
  have hread : Does (fun w => w = w₀) (Lib.Effects.read (fun s => loadable c s.value.scope))
      (fun before w => before = loadable c w₀.scope ∧ w = w₀) (fun _ => Inv c w₀) := by
    apply Meets.read
    intro s hs
    change s.value = w₀ at hs
    subst hs
    exact ⟨rfl, rfl⟩
  apply hread.bind
  intro before
  apply Does.of_fact
  intro hbefore
  subst hbefore
  apply (anyExists_does (fun _ => Inv.refl hfresh)).bind
  intro found
  apply Does.of_fact
  intro hfound
  cases found with
  | true =>
    apply (loadSettings_does plan nt clock hfresh).bind
    intro result
    exact saveLoaded_does result
  | false =>
    obtain ⟨hprimary, hbackup⟩ := hfound rfl
    apply (saveLoaded_does none).mono
    · intro w hw
      subst hw
      exact Loaded.untouched hfresh (by rw [hprimary]; rfl) (fun _ => ⟨hprimary, hbackup⟩)
    · exact fun _ _ => id
    · exact fun _ _ => id

end OpenAdb.Settings.Recovery
