import OpenAdb.Lib.Traces
import OpenAdb.Settings.Files

namespace OpenAdb.Settings.FailedWrites

open OpenAdb.Lib.Effects OpenAdb.Lib.Faults OpenAdb.Lib.Traces OpenAdb.Settings.Files

variable {β σ : Type}

/-- The operations on the files of a scope: a look at a file before anything is written and one during
a write, forensic copies, and the three operations with a temporary file. -/
inductive Step
  | look | check | preserve
  | create (file : File)
  | fill (file : File)
  | replace (file : File)
  deriving DecidableEq

/-- The temporary files that a `finally` block removes after this operation has raised. A file that
is still being filled is not among them. -/
def Step.tracked : Step → Nat
  | .look | .preserve | .create .primary | .fill .primary => 0
  | .check | .create .backup | .fill .backup | .replace .primary => 1
  | .replace .backup => 2

/-- No temporary file stays behind, with `outer` of them left to the callers. -/
def Step.Cleaned (plan : Nat → Verdict) (outer n : Nat) (step : Step) : Prop :=
  (∀ file, step ≠ .fill file) ∧ ∀ j, j + outer < step.tracked → plan (n + j) = .proceeds

def bytesSteps (file : File) : List Step := [.create file, .fill file, .replace file]

def backupSteps (primary backup : Bool) : List Step :=
  .check :: if primary then bytesSteps .backup else .check :: if backup then [] else bytesSteps .backup

def writeSteps (primary backup : Bool) : List Step :=
  [.create .primary, .fill .primary] ++ (backupSteps primary backup ++ [.replace .primary])

variable (c : Codec β σ) (nt : Bool)

def preserveSteps : List Step := if nt then [.preserve] else [.preserve, .preserve]

def recoverSteps : Option β → List Step
  | none => []
  | some content => if valid c (some content) then [] else preserveSteps nt

def loadSteps (primary backup : Option β) : List Step :=
  .look :: match primary, backup with
    | none, none => [.look]
    | none, some content =>
      .look :: (recoverSteps c nt (some content) ++ writeSteps false (valid c (some content)))
    | some content, backup =>
      if valid c (some content) then []
      else preserveSteps nt ++ (.look :: (recoverSteps c nt backup ++ writeSteps false (valid c backup)))

/-- There is a settings file. -/
def there (primary backup : Option β) : Bool := primary.isSome || backup.isSome

/-- After a load the primary file is valid, or there are no files. -/
def publishSteps (primary backup : Option β) : List Step := writeSteps (there primary backup) (valid c backup)

def existsSteps (primary : Option β) : List Step := if primary.isSome then [.look] else [.look, .look]

def saveSteps (primary backup : Option β) : List Step :=
  existsSteps primary ++
    ((if there primary backup then loadSteps c nt primary backup else []) ++
      publishSteps c primary backup)

/-- What a fresh load takes for the settings. -/
def fresh (s : Scope β) : σ := (loadable c s).getD c.defaults

/-- The same by the contents of the two files. -/
def freshOf (primary backup : Option β) : σ :=
  ((primary.bind c.decode).or (backup.bind c.decode)).getD c.defaults

variable {c} {plan : Nat → Verdict} {nt} {clock : Nat → Nat} {w : World β σ} {x y : Option β} {v : σ}
  {τ left : List (File × β)} {outer n : Nat} {step : Step} {history : World β σ → World β σ}

theorem fresh_eq (s : Scope β) : fresh c s = freshOf c s.primary s.backup := by
  rw [fresh, freshOf, loadable]
  cases hprimary : s.primary.bind c.decode with
  | some u => rfl
  | none =>
    cases hbackup : s.backup.bind c.decode with
    | some u => rfl
    | none =>
      by_cases hthere : (s.primary.isSome || s.backup.isSome) = true
      · rw [if_pos hthere]
        rfl
      · rw [if_neg hthere]
        rfl

structure At (x y : Option β) (τ : List (File × β)) (w : World β σ) : Prop where
  primary : w.scope.primary = x
  backup : w.scope.backup = y
  temporaries : w.scope.temporaries = τ

/-- The files where an operation has raised: the temporary files that stay come first. -/
structure Left (plan : Nat → Verdict) (outer : Nat) (x y : Option β) (τ : List (File × β)) (n : Nat) (step : Step)
    (t : Counted (World β σ)) (left : List (File × β)) : Prop where
  files : At x y (left ++ τ) t.value
  later : n ≤ t.ops
  ops : t.ops + outer = n + step.tracked
  backups : 0 < outer → ∀ entry ∈ left, entry.1 = .backup
  cleaned : left = [] ↔ step.Cleaned plan outer n

def Failed (plan : Nat → Verdict) (outer : Nat) (x y : Option β) (τ : List (File × β)) (n : Nat) (step : Step)
    (t : Counted (World β σ)) : Prop :=
  ∃ left, Left plan outer x y τ n step t left

/-- An operation that raised before there was a temporary file of its own. -/
theorem At.untouched (h : At x y τ w) (htracked : step.tracked = outer) (hfill : ∀ file, step ≠ .fill file) :
    Failed plan outer x y τ n step ⟨w, n⟩ := by
  refine ⟨[], h, le_refl n, by rw [htracked], fun _ _ hmem => absurd hmem List.not_mem_nil, ?_⟩
  exact iff_of_true rfl ⟨hfill, fun j hj => absurd hj (by omega)⟩

theorem At.filling {file : File} {entry : File × β} (h : At x y (entry :: τ) w)
    (htracked : (Step.fill file).tracked = outer) (hentry : 0 < outer → entry.1 = .backup) :
    Failed plan outer x y τ n (.fill file) ⟨w, n⟩ := by
  refine ⟨[entry], h, le_refl n, by rw [htracked], ?_, ?_⟩
  · intro houter other hmem
    obtain rfl := List.mem_singleton.mp hmem
    exact hentry houter
  · exact iff_of_false (List.cons_ne_nil _ _) (fun hcleaned => hcleaned.1 file rfl)

theorem createTemporary_traced (file : File) (htracked : (Step.create file).tracked = outer) :
    Traced plan (At x y τ) (createTemporary c plan file) [.create file]
      (fun _ => At x y ((file, c.blank) :: τ)) (Failed plan outer x y τ) := by
  apply Traced.perform
  · exact fun w h => ⟨h.primary, h.backup, congrArg _ h.temporaries⟩
  · exact fun w n h => h.untouched htracked (fun _ => nofun)

theorem fillTemporary_traced (file : File) (content : β) (htracked : (Step.fill file).tracked = outer)
    (hfile : 0 < outer → file = .backup) :
    Traced plan (At x y ((file, c.blank) :: τ)) (fillTemporary plan file content : Disk β σ Unit) [.fill file]
      (fun _ => At x y ((file, content) :: τ)) (Failed plan outer x y τ) := by
  apply Traced.perform
  · intro w h
    refine ⟨h.primary, h.backup, ?_⟩
    change (file, content) :: w.scope.temporaries.tail = _
    rw [h.temporaries]
    rfl
  · exact fun w n h => h.filling htracked hfile

theorem readFile_traced (step : Step) (file : File) (htracked : step.tracked = outer) (hfill : ∀ file, step ≠ .fill file) :
    Traced plan (At x y τ) (readFile plan file : Disk β σ (Option β)) [step]
      (fun content w => content = file.pick x y ∧ At x y τ w) (Failed plan outer x y τ) := by
  apply Traced.consult
  · intro w h
    cases file with
    | primary => exact ⟨h.primary, h⟩
    | backup => exact ⟨h.backup, h⟩
  · exact fun w n h => h.untouched htracked hfill

/-- The newest temporary file of this name goes. -/
theorem dropTemporary_newest {file : File} {content : β} {s : Scope β}
    (hleft : ∀ entry ∈ left, entry.1 ≠ file) (hs : s.temporaries = left ++ (file, content) :: τ) :
    (s.dropTemporary file).temporaries = left ++ τ := by
  have hskip : ∀ entry ∈ left, ¬decide (entry.1 = file) = true :=
    fun entry hmem hsame => hleft entry hmem (of_decide_eq_true hsame)
  change s.temporaries.eraseP (fun temporary => temporary.1 = file) = _
  rw [hs, List.eraseP_append_right _ hskip, List.eraseP_cons_of_pos]
  exact decide_eq_true rfl

theorem At.unlink {file : File} {content : β} (h : At x y (left ++ (file, content) :: τ) w)
    (hleft : ∀ entry ∈ left, entry.1 ≠ file) : At x y (left ++ τ) (unlinkTemporary file w) :=
  ⟨h.primary, h.backup, dropTemporary_newest hleft h.temporaries⟩

variable {file : File} {content : β} {t : Counted (World β σ)}

/-- The temporary file of the caller goes. -/
theorem Left.tidied (h : Left plan (outer + 1) x y ((file, content) :: τ) n step t left)
    (hleft : ∀ entry ∈ left, entry.1 ≠ file) (hplan : plan t.ops = .proceeds) :
    Left plan outer x y τ n step ⟨unlinkTemporary file t.value, t.ops + 1⟩ left := by
  have hops := h.ops
  refine ⟨h.files.unlink hleft, ?_, ?_, fun _ => h.backups (Nat.succ_pos _), h.cleaned.trans ?_⟩
  · exact Nat.le_succ_of_le h.later
  · change t.ops + 1 + outer = _
    omega
  · refine and_congr_right (fun _ => ⟨fun hproceeds j hj => ?_, fun hproceeds j hj => hproceeds j (by omega)⟩)
    by_cases hlast : j + outer + 1 = step.tracked
    · have hsame : n + j = t.ops := by omega
      rw [hsame]
      exact hplan
    · exact hproceeds j (by omega)

/-- The temporary file of the caller cannot be removed. -/
theorem Left.abandoned (h : Left plan (outer + 1) x y ((file, content) :: τ) n step t left)
    (hfile : 0 < outer → file = .backup) (hplan : plan t.ops = .fails) :
    Left plan outer x y τ n step ⟨t.value, t.ops + 1⟩ (left ++ [(file, content)]) := by
  have hops := h.ops
  refine ⟨?_, ?_, ?_, ?_, ?_⟩
  · rw [List.append_assoc]
    exact h.files
  · exact Nat.le_succ_of_le h.later
  · change t.ops + 1 + outer = _
    omega
  · intro houter entry hmem
    obtain hold | hnew := List.mem_append.mp hmem
    · exact h.backups (Nat.succ_pos _) entry hold
    · obtain rfl := List.mem_singleton.mp hnew
      exact hfile houter
  · refine iff_of_false (List.append_ne_nil_of_right_ne_nil _ (List.cons_ne_nil _ _)) (fun hcleaned => ?_)
    have hlater := h.later
    have hproceeds := hcleaned.2 (t.ops - n) (by omega)
    rw [Nat.add_sub_cancel' hlater, hplan] at hproceeds
    cases hproceeds

theorem writeBytesAtomic_traced (content : β) :
    Traced plan (At x y τ) (writeBytesAtomic c plan .backup content id : Disk β σ Unit) (bytesSteps .backup)
      (fun _ => At x (some content) τ) (Failed plan 1 x y τ) := by
  apply (createTemporary_traced .backup rfl).bind
  intro _
  apply (fillTemporary_traced .backup content rfl (fun _ => rfl)).bind
  intro _
  apply Traced.tidying (E := fun n step t => Left plan 2 x y ((.backup, content) :: τ) n step t [])
  · apply Traced.perform
    · intro w h
      refine ⟨h.primary, rfl, ?_⟩
      exact dropTemporary_newest (fun _ hmem => absurd hmem List.not_mem_nil) h.temporaries
    · intro w n h
      refine ⟨h, le_refl n, rfl, fun _ _ hmem => absurd hmem List.not_mem_nil, ?_⟩
      exact iff_of_true rfl ⟨fun _ => nofun, fun j hj => absurd hj (Nat.not_lt.mpr (Nat.le_add_left 2 j))⟩
  · intro n step t h hplan
    exact ⟨[], h.tidied (fun _ hmem => absurd hmem List.not_mem_nil) hplan⟩
  · intro n step t h hplan
    exact ⟨_, h.abandoned (fun _ => rfl) hplan⟩

theorem writeBackup_traced (v : σ) :
    Traced plan (At x y τ) (writeBackup c plan (c.encode v)) (backupSteps (valid c x) (valid c y))
      (fun _ => At x (backupAfter c x y (c.encode v)) τ) (Failed plan 1 x y τ) := by
  change Traced plan _ _ ([Step.check] ++ if valid c x then _ else [Step.check] ++ _) _ _
  apply (readFile_traced .check .primary rfl (fun _ => nofun)).bind
  intro primary
  apply Traced.of_fact
  intro hprimary
  change primary = x at hprimary
  subst hprimary
  rw [backupAfter]
  cases hfilter : primary.filter (fun content => (c.decode content).isSome) with
  | some content =>
    obtain ⟨rfl, hcontent⟩ := Option.filter_eq_some_iff.mp hfilter
    have hvalid : valid c (some content) = true := hcontent
    rw [if_pos hvalid, if_pos hvalid]
    exact writeBytesAtomic_traced content
  | none =>
    have hinvalid : ¬valid c primary = true := by
      cases primary with
      | none => exact Bool.false_ne_true
      | some content => exact (Option.filter_eq_none_iff.mp hfilter) content rfl
    rw [if_neg hinvalid, if_neg hinvalid]
    change Traced plan _ _ ([Step.check] ++ if valid c y then _ else _) _ _
    apply (readFile_traced .check .backup rfl (fun _ => nofun)).bind
    intro backup
    apply Traced.of_fact
    intro hbackup
    change backup = y at hbackup
    subst hbackup
    by_cases hvalid : valid c backup = true
    · rw [if_pos hvalid, if_pos hvalid, if_pos hvalid]
      exact Traced.pure (fun _ => id)
    · rw [if_neg hvalid, if_neg hvalid, if_neg hvalid]
      exact writeBytesAtomic_traced (c.encode v)

/-- The backup where a write has raised: it is new only when the primary file could not be replaced. -/
def backupAt (step : Step) (backup after : Option β) : Option β :=
  if step = .replace .primary then after else backup

theorem not_mem_backupSteps (primary backup : Bool) : Step.replace .primary ∉ backupSteps primary backup := by
  revert primary backup
  decide

/-- An operation before the primary file is replaced. -/
theorem early {α : Type} {P : World β σ → Prop} {e : Disk β σ α} {steps : List Step} {Q : α → World β σ → Prop}
    (he : Traced plan P e steps Q (Failed plan outer x y τ)) (hsteps : Step.replace .primary ∉ steps)
    (after : Option β) :
    Traced plan P e steps Q (fun n step => Failed plan outer x (backupAt step y after) τ n step) := by
  apply he.mono (fun _ => id) (fun _ _ => id)
  intro n step t hmem hfailed
  have hstep : step ≠ .replace .primary := fun hsame => hsteps (hsame ▸ hmem)
  rwa [backupAt, if_neg hstep]

theorem writeJsonAtomic_traced (v : σ) (hhistory : ∀ w, (history w).scope = w.scope) :
    Traced plan (At x y τ) (writeJsonAtomic c plan v history) (writeSteps (valid c x) (valid c y))
      (fun _ => At (some (c.encode v)) (backupAfter c x y (c.encode v)) τ)
      (fun n step => Failed plan 0 x (backupAt step y (backupAfter c x y (c.encode v))) τ n step) := by
  change Traced plan _ _ ([Step.create .primary] ++ ([Step.fill .primary] ++ _)) _ _
  apply (early (createTemporary_traced .primary rfl) (by decide) _).bind
  intro _
  apply (early (fillTemporary_traced .primary (c.encode v) rfl (fun h => absurd h (Nat.lt_irrefl 0)))
    (by decide) _).bind
  intro _
  have hprimary {left : List (File × β)} (hleft : ∀ entry ∈ left, entry.1 = File.backup) :
      ∀ entry ∈ left, entry.1 ≠ File.primary := by
    intro entry hmem hsame
    rw [hleft entry hmem] at hsame
    cases hsame
  apply Traced.tidying (E := fun n step => Failed plan 1 x (backupAt step y (backupAfter c x y (c.encode v)))
    ((.primary, c.encode v) :: τ) n step)
  · apply (early (writeBackup_traced v) (not_mem_backupSteps _ _) _).bind
    intro _
    apply Traced.perform
    · intro w h
      refine ⟨?_, ?_, ?_⟩
      · rw [hhistory]
        rfl
      · rw [hhistory]
        exact h.backup
      · rw [hhistory]
        exact dropTemporary_newest (fun _ hmem => absurd hmem List.not_mem_nil) h.temporaries
    · intro w n h
      rw [backupAt, if_pos rfl]
      exact h.untouched rfl (fun _ => nofun)
  · intro n step t hfailed hplan
    obtain ⟨left, h⟩ := hfailed
    exact ⟨left, h.tidied (hprimary (h.backups Nat.one_pos)) hplan⟩
  · intro n step t hfailed hplan
    obtain ⟨left, h⟩ := hfailed
    exact ⟨_, h.abandoned (fun h => absurd h (Nat.lt_irrefl 0)) hplan⟩

/-- The run raised where a fresh load takes `f` for the settings. -/
def Kept (c : Codec β σ) (plan : Nat → Verdict) (f : σ) (τ : List (File × β)) (n : Nat) (step : Step)
    (t : Counted (World β σ)) : Prop :=
  ∃ x y, Failed plan 0 x y τ n step t ∧ freshOf c x y = f

theorem Kept.congr {f : σ} {ops : Nat} {w' : World β σ} (h : Kept c plan f τ n step ⟨w, ops⟩)
    (hscope : w'.scope = w.scope) : Kept c plan f τ n step ⟨w', ops⟩ := by
  obtain ⟨x, y, ⟨left, hleft⟩, hfresh⟩ := h
  refine ⟨x, y, ⟨left, ⟨?_, ?_, ?_⟩, hleft.later, hleft.ops, hleft.backups, hleft.cleaned⟩, hfresh⟩
  · rw [← hleft.files.primary, hscope]
  · rw [← hleft.files.backup, hscope]
  · rw [← hleft.files.temporaries, hscope]

theorem freshOf_valid {u : σ} (h : x.bind c.decode = some u) : freshOf c x y = u := by
  rw [freshOf, h]
  rfl

theorem freshOf_unusable (h : x.bind c.decode = none) : freshOf c x y = (y.bind c.decode).getD c.defaults := by
  rw [freshOf, h, Option.none_or]

theorem preserve_traced (file : File) (content : β) :
    Traced plan (At x y τ) (preserveCorruptFile c plan nt clock file content : Disk β σ CorruptName)
      (preserveSteps nt)
      (fun _ => At (file.pick (Scope.without nt x) x) (file.pick y (Scope.without nt y)) τ)
      (Failed plan 0 x y τ) := by
  have hname : Traced plan (At x y τ)
      (Lib.Effects.read (fun s => candidate (clock s.ops) file s.value.scope) : Disk β σ CorruptName) ([] : List Step)
      (fun _ => At x y τ) (Failed plan 0 x y τ) := Traced.read (fun _ => id)
  have hfailed (w : World β σ) (n : Nat) (h : At x y τ w) : Failed plan 0 x y τ n .preserve ⟨w, n⟩ :=
    h.untouched rfl (fun _ => nofun)
  apply hname.bind
  intro name
  cases nt with
  | true =>
    have hmoved : Traced plan (At x y τ)
        (perform plan (onScope (fun s => { s with forensic := (name, content) :: s.forensic }.set none file)) :
          Disk β σ Unit) [Step.preserve] (fun _ => At (file.pick none x) (file.pick y none) τ) (Failed plan 0 x y τ) := by
      apply Traced.perform
      · intro w h
        cases file with
        | primary => exact ⟨rfl, h.backup, h.temporaries⟩
        | backup => exact ⟨h.primary, rfl, h.temporaries⟩
      · exact hfailed
    apply hmoved.bind
    intro _
    exact Traced.pure (fun _ => id)
  | false =>
    have hcopied (f : List (CorruptName × β) → List (CorruptName × β)) : Traced plan (At x y τ)
        (perform plan (onScope (fun s => { s with forensic := f s.forensic })) : Disk β σ Unit) [Step.preserve]
        (fun _ => At x y τ) (Failed plan 0 x y τ) := by
      apply Traced.perform
      · exact fun w h => ⟨h.primary, h.backup, h.temporaries⟩
      · exact hfailed
    apply (hcopied (fun forensic => (name, c.blank) :: forensic)).bind
    intro _
    apply (hcopied (fun forensic => (name, content) :: forensic.tail)).bind
    intro _
    cases file <;> exact Traced.pure (fun _ => id)

/-- The backup that a failed write leaves beside an unusable primary file. -/
theorem freshOf_backupAt (hx : ¬valid c x = true) :
    freshOf c x (backupAt step y (backupAfter c x y (c.encode v))) =
      if ¬valid c y = true ∧ step = .replace .primary then v else freshOf c x y := by
  have hunusable : x.bind c.decode = none := Option.not_isSome_iff_eq_none.mp hx
  by_cases hstep : step = .replace .primary
  · rw [backupAt, if_pos hstep, backupAfter, if_neg hx]
    by_cases hy : valid c y = true
    · rw [if_pos hy, if_neg (fun h => h.1 hy)]
    · rw [if_neg hy, if_pos ⟨hy, hstep⟩, freshOf_unusable hunusable, Option.bind_some, c.decode_encode]
      rfl
  · rw [backupAt, if_neg hstep, if_neg (fun h => hstep h.2)]

/-- What replaces an unusable primary file is what a fresh load took already. -/
theorem repair_traced (hx : ¬valid c x = true) (hv : (y.bind c.decode).getD c.defaults = v) :
    Traced plan (At x y τ) (writeJsonAtomic c plan v id) (writeSteps false (valid c y))
      (fun _ w => ∃ backup, At (some (c.encode v)) backup τ w) (Kept c plan v τ) := by
  have hfresh : freshOf c x y = v := by
    rw [freshOf_unusable (Option.not_isSome_iff_eq_none.mp hx)]
    exact hv
  rw [← eq_false_of_ne_true hx]
  apply (writeJsonAtomic_traced v (fun _ => rfl)).mono (fun _ => id)
  · exact fun _ w h => ⟨_, h⟩
  · intro n step t _ h
    refine ⟨_, _, h, ?_⟩
    rw [freshOf_backupAt hx, hfresh, ite_self]

/-- After a load: the primary file is valid, or there is no file. -/
structure Settled (c : Codec β σ) (τ : List (File × β)) (x y : Option β) (result : Option σ) (x' y' : Option β)
    (w : World β σ) : Prop where
  files : At x' y' τ w
  fresh : freshOf c x' y' = freshOf c x y
  valid : there x y = true → valid c x' = true
  absent : there x y = false → x' = none ∧ y' = none ∧ result = none

theorem valid_without (h : ¬valid c x = true) : ¬valid c (Scope.without nt x) = true := by
  cases nt with
  | true => exact Bool.false_ne_true
  | false => exact h

theorem Failed.kept {f : σ} (h : Failed plan 0 x y τ n step t) (hfresh : freshOf c x y = f) :
    Kept c plan f τ n step t :=
  ⟨x, y, h, hfresh⟩

/-- The end of a repair, from files of which the primary cannot be used. -/
theorem repaired_traced {x₀ y₀ : Option β} {usable : Bool} (r : RecoveryRecord) (hx : ¬valid c x = true)
    (hy : valid c y = usable) (hv : (y.bind c.decode).getD c.defaults = v) (hthere : there x₀ y₀ = true)
    (hfresh : freshOf c x₀ y₀ = v) :
    Traced plan (At x y τ) (do
        writeJsonAtomic c plan v id
        record r
        pure (some v)) (writeSteps false usable)
      (fun result w => ∃ x' y', Settled c τ x₀ y₀ result x' y' w) (Kept c plan v τ) := by
  rw [← List.append_nil (writeSteps false usable), ← hy]
  apply (repair_traced hx hv).bind
  intro _
  have hrecorded : Traced plan (fun w => ∃ backup, At (some (c.encode v)) backup τ w) (record r) ([] : List Step)
      (fun _ w => ∃ backup, At (some (c.encode v)) backup τ w) (Kept c plan v τ) := by
    apply Traced.note
    intro w h
    obtain ⟨backup, hfiles⟩ := h
    exact ⟨backup, hfiles.primary, hfiles.backup, hfiles.temporaries⟩
  apply hrecorded.bind
  intro _
  apply Traced.pure
  intro w h
  obtain ⟨backup, hfiles⟩ := h
  refine ⟨_, _, hfiles, ?_, fun _ => valid_encode v, fun hnone => absurd (hnone.symm.trans hthere) Bool.false_ne_true⟩
  rw [freshOf_valid (u := v), hfresh]
  exact c.decode_encode v

theorem loadBackup_traced (content : β) :
    Traced plan (At none (some content) τ) (loadBackup c plan nt clock content)
      (recoverSteps c nt (some content) ++ writeSteps false (valid c (some content)))
      (fun result w => ∃ x' y', Settled c τ none (some content) result x' y' w)
      (Kept c plan (freshOf c none (some content)) τ) := by
  have hfresh : freshOf c none (some content) = (c.decode content).getD c.defaults := freshOf_unusable rfl
  have habsent : ¬valid c none = true := Bool.false_ne_true
  rw [loadBackup, recoverSteps]
  cases hdecode : c.decode content with
  | some recovered =>
    have hvalid : valid c (some content) = true := valid_iff.mpr ⟨recovered, hdecode⟩
    rw [hdecode] at hfresh
    rw [if_pos hvalid, hfresh]
    exact repaired_traced _ habsent rfl (congrArg (fun o => Option.getD o c.defaults) hdecode) rfl hfresh
  | none =>
    have hinvalid : ¬valid c (some content) = true := not_valid hdecode
    have hlater : ¬valid c (Scope.without nt (some content)) = true := valid_without hinvalid
    rw [hdecode] at hfresh
    rw [if_neg hinvalid, hfresh]
    apply ((preserve_traced .backup content).mono (fun _ => id) (fun _ _ => id)
      (fun _ _ _ _ h => h.kept hfresh)).bind
    intro name
    exact repaired_traced _ habsent ((eq_false_of_ne_true hlater).trans (eq_false_of_ne_true hinvalid).symm)
      (congrArg (fun o => Option.getD o c.defaults) (without_unusable hdecode)) rfl hfresh

theorem recoverBackup_traced :
    Traced plan (At x y τ) (recoverBackup c plan nt clock y) (recoverSteps c nt y)
      (fun r w => r.1 = y.bind c.decode ∧ ∃ y', At x y' τ w ∧ y'.bind c.decode = y.bind c.decode)
      (Failed plan 0 x y τ) := by
  cases y with
  | none => exact Traced.pure (fun w h => ⟨rfl, none, h, rfl⟩)
  | some content =>
    rw [recoverBackup, recoverSteps]
    cases hdecode : c.decode content with
    | some recovered =>
      have hvalid : valid c (some content) = true := valid_iff.mpr ⟨recovered, hdecode⟩
      rw [if_pos hvalid]
      exact Traced.pure (fun w h => ⟨hdecode.symm, some content, h, rfl⟩)
    | none =>
      have hinvalid : ¬valid c (some content) = true := not_valid hdecode
      rw [if_neg hinvalid, ← List.append_nil (preserveSteps nt)]
      apply (preserve_traced .backup content).bind
      intro name
      apply Traced.pure
      intro w h
      exact ⟨hdecode.symm, _, h, (without_unusable hdecode).trans hdecode.symm⟩

theorem repairPrimary_traced {content : β} (hdecode : c.decode content = none) :
    Traced plan (At (some content) y τ) (repairPrimary c plan nt clock content)
      (preserveSteps nt ++ (.look :: (recoverSteps c nt y ++ writeSteps false (valid c y))))
      (fun result w => ∃ x' y', Settled c τ (some content) y result x' y' w)
      (Kept c plan (freshOf c (some content) y) τ) := by
  have hfresh : freshOf c (some content) y = (y.bind c.decode).getD c.defaults := freshOf_unusable hdecode
  have hlater : freshOf c (Scope.without nt (some content)) y = (y.bind c.decode).getD c.defaults :=
    freshOf_unusable (without_unusable hdecode)
  rw [hfresh]
  apply ((preserve_traced .primary content).mono (fun _ => id) (fun _ _ => id)
    (fun _ _ _ _ h => h.kept hfresh)).bind
  intro name
  change Traced plan (At (Scope.without nt (some content)) y τ) _ ([Step.look] ++ _) _ _
  apply ((readFile_traced .look .backup rfl (fun _ => nofun)).mono (fun _ => id) (fun _ _ => id)
    (fun _ _ _ _ h => h.kept hlater)).bind
  intro backup
  apply Traced.of_fact
  intro hbackup
  change backup = y at hbackup
  subst hbackup
  apply (recoverBackup_traced.mono (fun _ => id) (fun _ _ => id) (fun _ _ _ _ h => h.kept hlater)).bind
  intro r
  apply Traced.of_fact
  intro hr
  obtain ⟨recovered, preserved⟩ := r
  change recovered = _ at hr
  subst hr
  apply Traced.of_each
  intro w h
  obtain ⟨y', hfiles, hy'⟩ := h
  have hvalid : valid c y' = valid c backup := congrArg Option.isSome hy'
  have hdamaged : ¬valid c (Scope.without nt (some content)) = true := not_valid (without_unusable hdecode)
  have hchosen := congrArg (fun o => Option.getD o c.defaults) hy'
  apply (repaired_traced ⟨name :: preserved, (backup.bind c.decode).isSome, false⟩ hdamaged hvalid hchosen rfl
    hfresh).mono _ (fun _ _ => id) (fun _ _ _ _ => id)
  intro u hu
  rw [hu]
  exact hfiles

theorem loadSettings_traced :
    Traced plan (At x y τ) (loadSettings c plan nt clock) (loadSteps c nt x y)
      (fun result w => ∃ x' y', Settled c τ x y result x' y' w) (Kept c plan (freshOf c x y) τ) := by
  have hread (file : File) : Traced plan (At x y τ) (readFile plan file) [Step.look]
      (fun content w => content = file.pick x y ∧ At x y τ w) (Kept c plan (freshOf c x y) τ) :=
    (readFile_traced .look file rfl (fun _ => nofun)).mono (fun _ => id) (fun _ _ => id)
      (fun _ _ _ _ h => h.kept rfl)
  apply (hread .primary).bind
  intro primary
  apply Traced.of_fact
  intro hprimary
  change primary = x at hprimary
  subst hprimary
  cases primary with
  | none =>
    cases y with
    | none =>
      change Traced plan _ (readFile plan .backup >>= _) ([Step.look] ++ []) _ _
      apply (hread .backup).bind
      intro backup
      apply Traced.of_fact
      intro hbackup
      change backup = none at hbackup
      subst hbackup
      exact Traced.pure (fun w h => ⟨none, none, h, rfl, fun hthere => absurd hthere Bool.false_ne_true,
        fun _ => ⟨rfl, rfl, rfl⟩⟩)
    | some content =>
      change Traced plan _ (readFile plan .backup >>= _) ([Step.look] ++ _) _ _
      apply (hread .backup).bind
      intro backup
      apply Traced.of_fact
      intro hbackup
      change backup = some content at hbackup
      subst hbackup
      exact loadBackup_traced content
  | some content =>
    dsimp only
    cases hdecode : c.decode content with
    | some loaded =>
      have hvalid : valid c (some content) = true := valid_iff.mpr ⟨loaded, hdecode⟩
      rw [if_pos hvalid]
      exact Traced.pure (fun w h => ⟨_, _, h, rfl, fun _ => hvalid, fun hnone => absurd hnone.symm Bool.false_ne_true⟩)
    | none =>
      have hinvalid : ¬valid c (some content) = true := not_valid hdecode
      rw [if_neg hinvalid]
      exact repairPrimary_traced hdecode

theorem existsSteps_traced :
    Traced plan (At x y τ) (anyExists plan : Disk β σ Bool) (existsSteps x)
      (fun found w => found = there x y ∧ At x y τ w) (Failed plan 0 x y τ) := by
  have hread (file : File) : Traced plan (At x y τ) (readFile plan file : Disk β σ (Option β)) [Step.look]
      (fun content w => content = file.pick x y ∧ At x y τ w) (Failed plan 0 x y τ) :=
    readFile_traced .look file rfl (fun _ => nofun)
  cases x with
  | some content =>
    change Traced plan _ (readFile plan .primary >>= _) ([Step.look] ++ []) _ _
    apply (hread .primary).bind
    intro primary
    apply Traced.of_fact
    intro hprimary
    change primary = some content at hprimary
    subst hprimary
    exact Traced.pure (fun w h => ⟨rfl, h⟩)
  | none =>
    change Traced plan _ (readFile plan .primary >>= _) ([Step.look] ++ ([Step.look] ++ [])) _ _
    apply (hread .primary).bind
    intro primary
    apply Traced.of_fact
    intro hprimary
    change primary = none at hprimary
    subst hprimary
    apply (hread .backup).bind
    intro backup
    apply Traced.of_fact
    intro hbackup
    change backup = y at hbackup
    subst hbackup
    exact Traced.pure (fun w h => ⟨rfl, h⟩)

/-- What a fresh load takes where a change of the settings has raised: the same as before, unless
there were no files and only the backup is there by now. -/
def freshAfter (c : Codec β σ) (x y : Option β) (v : σ) (step : Step) : σ :=
  if there x y = false ∧ step = .replace .primary then v else freshOf c x y

theorem freshAfter_early (v : σ) (hstep : step ≠ .replace .primary) : freshAfter c x y v step = freshOf c x y := by
  rw [freshAfter, if_neg (fun h => hstep h.2)]

theorem freshOf_absent (hthere : there x y = false) : freshOf c x y = c.defaults := by
  cases x with
  | some content => cases hthere
  | none =>
    cases y with
    | some content => cases hthere
    | none => rfl

theorem freshAfter_eq_iff (v : σ) : freshAfter c x y v step = freshOf c x y ↔
    (step = .replace .primary → there x y = false → v = c.defaults) := by
  rw [freshAfter]
  by_cases hnew : there x y = false ∧ step = .replace .primary
  · rw [if_pos hnew, freshOf_absent hnew.1]
    exact ⟨fun h _ _ => h, fun h => h hnew.2 hnew.1⟩
  · rw [if_neg hnew]
    exact iff_of_true rfl (fun hstep hthere => absurd ⟨hthere, hstep⟩ hnew)

theorem freshAfter_there (v : σ) (hthere : there x y = true) : freshAfter c x y v step = freshOf c x y := by
  rw [freshAfter, hthere, if_neg (fun h => Bool.noConfusion h.1)]

/-- Without files a load writes nothing. -/
theorem freshAfter_load (v : σ) (hmem : step ∈ loadSteps c nt x y) : freshAfter c x y v step = freshOf c x y := by
  cases hthere : there x y with
  | true => exact freshAfter_there v hthere
  | false =>
    apply freshAfter_early
    cases x with
    | some content => cases hthere
    | none =>
      cases y with
      | some content => cases hthere
      | none =>
        have hlook : step ∈ [Step.look, Step.look] := hmem
        have hstep : step = .look := by simpa using hlook
        rw [hstep]
        nofun

theorem Settled.congr {result : Option σ} {x' y' : Option β} {w' : World β σ}
    (h : Settled c τ x y result x' y' w) (hscope : w'.scope = w.scope) : Settled c τ x y result x' y' w' := by
  refine ⟨⟨?_, ?_, ?_⟩, h.fresh, h.valid, h.absent⟩
  · rw [hscope, h.files.primary]
  · rw [hscope, h.files.backup]
  · rw [hscope, h.files.temporaries]

/-- The write after a load. -/
theorem publish_traced {result : Option σ} {x' y' : Option β} (hw : Settled c τ x y result x' y' w)
    (hhistory : ∀ w, (history w).scope = w.scope) :
    Traced plan (fun u => u = w) (writeJsonAtomic c plan v history) (publishSteps c x y) (fun _ _ => True)
      (fun n step => Kept c plan (freshAfter c x y v step) τ n step) := by
  have habsent : ¬valid c none = true := Bool.false_ne_true
  rw [publishSteps]
  cases hthere : there x y with
  | true =>
    obtain ⟨u, hu⟩ := valid_iff.mp (hw.valid hthere)
    have hsteps : writeSteps true (valid c y) = writeSteps (valid c x') (valid c y') := by
      rw [hw.valid hthere]
      rfl
    rw [hsteps]
    apply (writeJsonAtomic_traced v hhistory).mono _ (fun _ _ _ => trivial)
    · intro n step t _ h
      refine h.kept ?_
      rw [freshAfter_there v hthere, ← hw.fresh, freshOf_valid hu, freshOf_valid hu]
    · intro u hu
      rw [hu]
      exact hw.files
  | false =>
    obtain ⟨rfl, rfl, _⟩ := hw.absent hthere
    have hy : valid c y = valid c none := by
      cases y with
      | none => rfl
      | some content => cases x <;> cases hthere
    have hsteps : writeSteps false (valid c y) = writeSteps (valid c none) (valid c none) := by
      rw [hy]
      rfl
    rw [hsteps]
    apply (writeJsonAtomic_traced v hhistory).mono _ (fun _ _ _ => trivial)
    · intro n step t _ h
      refine h.kept ?_
      rw [freshAfter, hthere, freshOf_backupAt habsent, hw.fresh]
      exact if_congr (and_congr_left' (iff_of_true habsent rfl)) rfl rfl
    · intro u hu
      rw [hu]
      exact hw.files

theorem not_mem_existsSteps (x : Option β) : Step.replace .primary ∉ existsSteps x := by
  rw [existsSteps]
  split <;> decide

theorem settled_of_absent (hw : At x y τ w) (hthere : there x y = false) : Settled c τ x y none x y w := by
  refine ⟨hw, rfl, fun h => absurd (hthere.symm.trans h) Bool.false_ne_true, fun _ => ?_⟩
  cases x with
  | some content => cases hthere
  | none =>
    cases y with
    | some content => cases hthere
    | none => exact ⟨rfl, rfl, rfl⟩

theorem save_traced :
    Traced plan (At x y τ) (save c plan nt clock v) (saveSteps c nt x y) (fun _ _ => True)
      (fun n step => Kept c plan (freshAfter c x y v step) τ n step) := by
  have hbefore : Traced plan (At x y τ) (Lib.Effects.read (fun s => loadable c s.value.scope) : Disk β σ (Option σ))
      [] (fun _ => At x y τ) (fun n step => Kept c plan (freshAfter c x y v step) τ n step) :=
    Traced.read (fun _ => id)
  apply hbefore.bind
  intro before
  apply (existsSteps_traced.mono (fun _ => id) (fun _ _ => id) _).bind
  · intro found
    apply Traced.of_fact
    intro hfound
    subst hfound
    cases hthere : there x y with
    | true =>
      rw [if_pos rfl]
      apply (loadSettings_traced.mono (fun _ => id) (fun _ _ => id) _).bind
      · intro result
        apply Traced.of_each
        intro w hw
        obtain ⟨x', y', hsettled⟩ := hw
        exact publish_traced hsettled (fun _ => rfl)
      · intro n step t _ h
        rwa [freshAfter_there v hthere]
    | false =>
      rw [if_neg Bool.false_ne_true]
      apply Traced.of_each
      intro w hw
      exact publish_traced (settled_of_absent hw hthere) (fun _ => rfl)
  · intro n step t hmem h
    refine h.kept ?_
    rw [freshAfter_early]
    exact fun hsame => not_mem_existsSteps x (hsame ▸ hmem)

end OpenAdb.Settings.FailedWrites
