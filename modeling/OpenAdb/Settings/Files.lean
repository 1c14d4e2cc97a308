import Mathlib.Data.List.Infix
import Mathlib.Data.List.Nodup
import Mathlib.Data.List.Perm.Subperm
import Mathlib.Tactic.SplitIfs
import OpenAdb.Lib.Faults

namespace OpenAdb.Settings.Files

open OpenAdb.Lib.Effects OpenAdb.Lib.Faults

variable {β σ : Type}

/-- Settings as bytes: what `json.dump` writes, what `_decode_settings` accepts, a file that was
just created, and `DEFAULT_SETTINGS`. -/
structure Codec (β σ : Type) where
  encode : σ → β
  decode : β → Option σ
  decode_encode : ∀ v, decode (encode v) = some v
  blank : β
  defaults : σ

/-- `_corrupt_path`: equal names have equal parts. -/
structure CorruptName where
  backup : Bool
  timestamp : Nat
  suffix : Nat
  deriving DecidableEq

inductive File
  | primary | backup
  deriving DecidableEq

/-- The files of one settings scope, with the newest first: a temporary file is named after the file
it is to replace. -/
structure Scope (β : Type) where
  primary : Option β
  backup : Option β
  temporaries : List (File × β)
  forensic : List (CorruptName × β)

structure RecoveryRecord where
  preservedPaths : List CorruptName
  restoredFromBackup : Bool
  primaryWasMissing : Bool
  deriving DecidableEq

/-- The last completed save, the value saved before it, and what a load just before it would have
returned. `lastDamaged` and `previousDamaged` tell whether the primary file was damaged since. -/
structure History (σ : Type) where
  last : σ
  lastDamaged : Bool
  previous : Option σ
  previousDamaged : Bool
  before : Option σ

structure World (β σ : Type) where
  scope : Scope β
  records : List RecoveryRecord
  saved : Option (History σ)

def File.pick {α : Type} (x y : α) : File → α
  | .primary => x
  | .backup => y

def Scope.get (s : Scope β) : File → Option β := File.pick s.primary s.backup

def Scope.set (s : Scope β) (content : Option β) : File → Scope β
  | .primary => { s with primary := content }
  | .backup => { s with backup := content }

variable (c : Codec β σ) (plan : Nat → Verdict) (nt : Bool) (clock : Nat → Nat)

abbrev Disk (β σ α : Type) := Effect Interrupt (Counted (World β σ)) α

def onScope (f : Scope β → Scope β) (w : World β σ) : World β σ := { w with scope := f w.scope }

def readFile (file : File) : Disk β σ (Option β) := consult plan (fun w => w.scope.get file)

def createTemporary (file : File) : Disk β σ Unit :=
  perform plan (onScope (fun s => { s with temporaries := (file, c.blank) :: s.temporaries }))

def fillTemporary (file : File) (content : β) : Disk β σ Unit :=
  perform plan (onScope (fun s => { s with temporaries := (file, content) :: s.temporaries.tail }))

def Scope.dropTemporary (file : File) (s : Scope β) : Scope β :=
  { s with temporaries := s.temporaries.eraseP (fun temporary => temporary.1 = file) }

/-- `os.replace` of the newest temporary file of this name; `history` notes a completed save. -/
def replaceWith (file : File) (content : β) (history : World β σ → World β σ) : Disk β σ Unit :=
  perform plan (fun w => history (onScope (fun s => (s.dropTemporary file).set (some content) file) w))

def unlinkTemporary (file : File) : World β σ → World β σ := onScope (Scope.dropTemporary file)

def writeBytesAtomic (file : File) (content : β) (history : World β σ → World β σ) :
    Disk β σ Unit := do
  createTemporary c plan file
  fillTemporary plan file content
  tidying plan (replaceWith plan file content history) (unlinkTemporary file)

def valid (content : Option β) : Bool := (content.bind c.decode).isSome

/-- Before the primary file is replaced, the backup gets its content if that is valid, or the new
content if the backup itself is not. -/
def writeBackup (temporary : β) : Disk β σ Unit := do
  let primary ← readFile plan .primary
  match primary.filter (fun content => (c.decode content).isSome) with
  | some content => writeBytesAtomic c plan .backup content id
  | none =>
    let backup ← readFile plan .backup
    if valid c backup then pure () else writeBytesAtomic c plan .backup temporary id

def writeJsonAtomic (v : σ) (history : World β σ → World β σ) : Disk β σ Unit := do
  createTemporary c plan .primary
  fillTemporary plan .primary (c.encode v)
  tidying plan (do
    writeBackup c plan (c.encode v)
    replaceWith plan .primary (c.encode v) history) (unlinkTemporary .primary)

/-- The first suffix that no forensic file has. -/
def freeSuffix (timestamp : Nat) (names : List CorruptName) (backup : Bool) : Nat :=
  ((List.range (names.length + 1)).find? (fun suffix => ⟨backup, timestamp, suffix⟩ ∉ names)).getD 0

def File.isBackup (file : File) : Bool := file = .backup

def candidate (timestamp : Nat) (file : File) (s : Scope β) : CorruptName :=
  ⟨file.isBackup, timestamp, freeSuffix timestamp (s.forensic.map Prod.fst) file.isBackup⟩

/-- With `os.name == "nt"` a rename, else an exclusive copy that leaves the source. -/
def preserveCorruptFile (file : File) (content : β) : Disk β σ CorruptName := do
  let name ← Lib.Effects.read (fun s => candidate (clock s.ops) file s.value.scope)
  if nt then
    perform plan (onScope (fun s => { s with forensic := (name, content) :: s.forensic }.set none file))
  else
    perform plan (onScope (fun s => { s with forensic := (name, c.blank) :: s.forensic }))
    perform plan (onScope (fun s => { s with forensic := (name, content) :: s.forensic.tail }))
  pure name

def record (r : RecoveryRecord) : Disk β σ Unit := note (fun w => { w with records := w.records ++ [r] })

/-- The part of `_load_settings_path` for a primary file that is not there. -/
def loadBackup (backup : β) : Disk β σ (Option σ) :=
  match c.decode backup with
  | none => do
    let name ← preserveCorruptFile c plan nt clock .backup backup
    writeJsonAtomic c plan c.defaults id
    record ⟨[name], false, true⟩
    pure (some c.defaults)
  | some recovered => do
    writeJsonAtomic c plan recovered id
    record ⟨[], true, true⟩
    pure (some recovered)

/-- What replaces an unusable primary file, and the forensic copy of an unusable backup. -/
def recoverBackup (backup : Option β) : Disk β σ (Option σ × List CorruptName) :=
  match backup with
  | none => pure (none, [])
  | some content =>
    match c.decode content with
    | some recovered => pure (some recovered, [])
    | none => do
      let name ← preserveCorruptFile c plan nt clock .backup content
      pure (none, [name])

def repairPrimary (primary : β) : Disk β σ (Option σ) := do
  let name ← preserveCorruptFile c plan nt clock .primary primary
  let backup ← readFile plan .backup
  let (recovered, preserved) ← recoverBackup c plan nt clock backup
  writeJsonAtomic c plan (recovered.getD c.defaults) id
  record ⟨name :: preserved, recovered.isSome, false⟩
  pure (some (recovered.getD c.defaults))

/-- `_load_settings_path` -/
def loadSettings : Disk β σ (Option σ) := do
  match ← readFile plan .primary with
  | none =>
    match ← readFile plan .backup with
    | none => pure none
    | some backup => loadBackup c plan nt clock backup
  | some primary =>
    match c.decode primary with
    | some loaded => pure (some loaded)
    | none => repairPrimary c plan nt clock primary

/-- What `_load_settings_path` returns. -/
def loadable (s : Scope β) : Option σ :=
  match s.primary.bind c.decode with
  | some loaded => some loaded
  | none =>
    match s.backup.bind c.decode with
    | some recovered => some recovered
    | none => if s.primary.isSome || s.backup.isSome then some c.defaults else none

/-- `path.exists() or backup_path.exists()` -/
def anyExists : Disk β σ Bool := do
  let primary ← readFile plan .primary
  if primary.isSome then pure true
  else
    let backup ← readFile plan .backup
    pure backup.isSome

def completed (saved : Option (History σ)) (v : σ) (before : Option σ) : History σ :=
  { last := v, lastDamaged := false, previous := saved.map History.last,
    previousDamaged := (saved.map History.lastDamaged).getD false, before }

def recordSave (v : σ) (before : Option σ) (w : World β σ) : World β σ :=
  { w with saved := some (completed w.saved v before) }

def save (v : σ) : Disk β σ Unit := do
  let before ← Lib.Effects.read (fun s => loadable c s.value.scope)
  if ← anyExists plan then
    let _ ← loadSettings c plan nt clock
  writeJsonAtomic c plan v (recordSave v before)

/-- A usable file holds the saved value or the one before it. -/
structure Sound (saved : Option (History σ)) (primary backup : Option β) : Prop where
  usable : valid c primary = true ∨ valid c backup = true ∨
    (primary = none ∧ backup = none ∧ saved = none)
  ofPrimary : ∀ h, saved = some h → ∀ x, primary.bind c.decode = some x →
    x = h.last ∨ h.before = some x
  ofBackup : ∀ h, saved = some h → ∀ x, backup.bind c.decode = some x →
    x = h.last ∨ h.before = some x
  last : ∀ h, saved = some h → h.lastDamaged = false → primary.bind c.decode = some h.last
  previous : ∀ h u, saved = some h → h.previous = some u → h.previousDamaged = false →
    h.before = some u

def Kept (w₀ : World β σ) (saved : Option (History σ)) (primary backup : Option β) : Prop :=
  Sound c w₀.saved w₀.scope.primary w₀.scope.backup → Sound c saved primary backup

/-- What holds at every operation, from a first state on. -/
structure Inv (w₀ w : World β σ) : Prop where
  kept : Kept c w₀ w.saved w.scope.primary w.scope.backup
  forensic : w₀.scope.forensic <:+ w.scope.forensic
  fresh : (w.scope.forensic.map Prod.fst).Nodup

/-- The invariant with the contents of the two files. -/
structure Has (w₀ : World β σ) (primary backup : Option β) (w : World β σ) : Prop where
  inv : Inv c w₀ w
  saved : w.saved = w₀.saved
  primary : w.scope.primary = primary
  backup : w.scope.backup = backup

variable {c : Codec β σ} {plan : Nat → Verdict} {nt : Bool} {clock : Nat → Nat} {w₀ w : World β σ}
  {x y : Option β} {v : σ} {saved : Option (History σ)} {R : Unit → World β σ → Prop}
  {history : World β σ → World β σ}

theorem Has.kept (h : Has c w₀ x y w) : Kept c w₀ w₀.saved x y := by
  have hkept := h.inv.kept
  rwa [h.saved, h.primary, h.backup] at hkept

theorem valid_iff {content : Option β} : valid c content = true ↔ ∃ x, content.bind c.decode = some x :=
  Option.isSome_iff_exists

theorem valid_encode (v : σ) : valid c (some (c.encode v)) = true := valid_iff.mpr ⟨v, c.decode_encode v⟩

theorem not_valid {content : Option β} (h : content.bind c.decode = none) : ¬valid c content = true := by
  rw [valid, h]
  exact Bool.false_ne_true

/-- Files of the same values, of which one is there. -/
theorem Sound.congr {x' y' : Option β} (h : Sound c saved x y) (hthere : x ≠ none ∨ y ≠ none)
    (hx : x'.bind c.decode = x.bind c.decode) (hy : y'.bind c.decode = y.bind c.decode) :
    Sound c saved x' y' := by
  obtain ⟨husable, hprimary, hbackup, hlast, hprevious⟩ := h
  rw [valid, valid, ← hx, ← hy] at husable
  rw [← hx] at hprimary hlast
  rw [← hy] at hbackup
  refine ⟨?_, hprimary, hbackup, hlast, hprevious⟩
  obtain hvalid | hvalid | ⟨rfl, rfl, _⟩ := husable
  · exact .inl hvalid
  · exact .inr (.inl hvalid)
  · exact absurd hthere (by simp)

/-- A usable primary file may be copied to the backup. -/
theorem Sound.copy (h : Sound c saved x y) (hx : valid c x = true) : Sound c saved x x :=
  ⟨.inl hx, h.ofPrimary, h.ofPrimary, h.last, h.previous⟩

/-- An unusable primary file may be replaced from the backup. -/
theorem Sound.restore (h : Sound c saved x y) (hx : ¬valid c x = true) (hy : y.bind c.decode = some v) :
    Sound c saved (some (c.encode v)) y := by
  have hprimary : (some (c.encode v)).bind c.decode = y.bind c.decode := (c.decode_encode v).trans hy.symm
  refine ⟨.inl (valid_encode v), ?_, h.ofBackup, ?_, h.previous⟩
  · rw [hprimary]
    exact h.ofBackup
  · intro g hg hintact
    exact absurd (valid_iff.mpr ⟨_, h.last g hg hintact⟩) hx

theorem Sound.absent (h : Sound c saved x y) (hx : ¬valid c x = true) (hy : ¬valid c y = true) :
    x = none ∧ y = none ∧ saved = none := by
  obtain hvalid | hvalid | habsent := h.usable
  · exact absurd hvalid hx
  · exact absurd hvalid hy
  · exact habsent

/-- Nothing is promised before the first save. -/
theorem Sound.unsaved (hsaved : saved = none) (husable : valid c x = true ∨ valid c y = true) :
    Sound c saved x y := by
  subst hsaved
  exact ⟨husable.imp_right .inl, nofun, nofun, nofun, nofun⟩

/-- The backup when the primary file is replaced. -/
def backupAfter (c : Codec β σ) (primary backup : Option β) (temporary : β) : Option β :=
  if valid c primary then primary else if valid c backup then backup else some temporary

theorem Sound.backupAfter (h : Sound c saved x y) (v : σ) :
    Sound c saved x (backupAfter c x y (c.encode v)) := by
  rw [Files.backupAfter]
  split_ifs with hx hy
  · exact h.copy hx
  · exact h
  · exact Sound.unsaved (h.absent hx hy).2.2 (.inr (valid_encode v))

/-- What replaces an unusable primary file is the backup's value, or the defaults. -/
theorem Sound.recovered (h : Sound c saved x y) (hx : ¬valid c x = true)
    (hv : (y.bind c.decode).getD c.defaults = v) :
    Sound c saved (some (c.encode v)) (Files.backupAfter c x y (c.encode v)) := by
  rw [Files.backupAfter, if_neg hx]
  split_ifs with hy
  · obtain ⟨u, hu⟩ := valid_iff.mp hy
    rw [hu] at hv
    cases hv
    exact h.restore hx hu
  · exact Sound.unsaved (h.absent hx hy).2.2 (.inl (valid_encode v))

/-- Only the temporary files change. -/
theorem Has.temporaries (h : Has c w₀ x y w) (temporaries : List (File × β)) :
    Has c w₀ x y (onScope (fun s => { s with temporaries }) w) :=
  ⟨⟨h.inv.kept, h.inv.forensic, h.inv.fresh⟩, h.saved, h.primary, h.backup⟩

theorem Inv.unlink (h : Inv c w₀ w) (file : File) : Inv c w₀ (unlinkTemporary file w) :=
  ⟨h.kept, h.forensic, h.fresh⟩

theorem readFile_does (file : File) :
    Does (Has c w₀ x y) (readFile plan file)
      (fun content w => content = file.pick x y ∧ Has c w₀ x y w)
      (fun _ => Inv c w₀) := by
  apply Does.consult
  · intro w h
    cases file with
    | primary => exact ⟨h.primary, h⟩
    | backup => exact ⟨h.backup, h⟩
  · exact fun _ _ h => h.inv

theorem createTemporary_does (file : File) :
    Does (Has c w₀ x y) (createTemporary c plan file) (fun _ => Has c w₀ x y) (fun _ => Inv c w₀) :=
  Does.perform (fun _ h => h.temporaries _) (fun _ _ h => h.inv)

theorem fillTemporary_does (file : File) (content : β) :
    Does (Has c w₀ x y) (fillTemporary plan file content) (fun _ => Has c w₀ x y) (fun _ => Inv c w₀) :=
  Does.perform (fun _ h => h.temporaries _) (fun _ _ h => h.inv)

/-- The new content of a file. -/
theorem Has.replace (h : Has c w₀ x y w) {x' y' : Option β} (hkept : Kept c w₀ w₀.saved x' y')
    (temporaries : List (File × β)) :
    Has c w₀ x' y' (onScope (fun s => { s with temporaries, primary := x', backup := y' }) w) := by
  refine ⟨⟨?_, h.inv.forensic, h.inv.fresh⟩, h.saved, rfl, rfl⟩
  change Kept c w₀ w.saved x' y'
  rwa [h.saved]

theorem writeBytesAtomic_does {content : β} (hkept : Kept c w₀ w₀.saved x (some content)) :
    Does (Has c w₀ x y) (writeBytesAtomic c plan .backup content id)
      (fun _ => Has c w₀ x (some content)) (fun _ => Inv c w₀) := by
  apply (createTemporary_does .backup).bind
  intro _
  apply (fillTemporary_does .backup content).bind
  intro _
  apply Does.tidying
  · apply Does.perform
    · intro w h
      have hreplaced := h.replace hkept (w.scope.dropTemporary .backup).temporaries
      have hprimary := h.primary
      subst hprimary
      exact hreplaced
    · exact fun _ _ h => h.inv
  · exact fun _ h => h.unlink .backup
  · exact fun _ _ => id
  · exact fun _ => id

theorem writeBackup_does (v : σ) :
    Does (Has c w₀ x y) (writeBackup c plan (c.encode v))
      (fun _ => Has c w₀ x (backupAfter c x y (c.encode v))) (fun _ => Inv c w₀) := by
  apply Does.of_pre (fun _ h hs => (h.kept hs).backupAfter v)
  intro hafter
  apply (readFile_does .primary).bind
  intro primary
  apply Does.of_fact
  intro hprimary
  change primary = x at hprimary
  subst hprimary
  cases hfilter : primary.filter (fun content => (c.decode content).isSome) with
  | some content =>
    obtain ⟨rfl, hcontent⟩ := Option.filter_eq_some_iff.mp hfilter
    have hvalid : valid c (some content) = true := hcontent
    rw [backupAfter, if_pos hvalid] at hafter ⊢
    exact writeBytesAtomic_does hafter
  | none =>
    have hinvalid : ¬valid c primary = true := by
      cases primary with
      | none => nofun
      | some content => exact (Option.filter_eq_none_iff.mp hfilter) content rfl
    rw [backupAfter, if_neg hinvalid] at hafter ⊢
    apply (readFile_does .backup).bind
    intro backup
    apply Does.of_fact
    intro hbackup
    change backup = y at hbackup
    subst hbackup
    by_cases hvalid : valid c backup = true
    · rw [if_pos hvalid, if_pos hvalid]
      exact Does.pure (fun _ => id)
    · rw [if_neg hvalid] at hafter
      rw [if_neg hvalid, if_neg hvalid]
      exact writeBytesAtomic_does hafter

/-- The primary file is replaced last; `R` is what follows for the world after that. -/
theorem writeJsonAtomic_does
    (hR : ∀ w temporaries, Has c w₀ x (backupAfter c x y (c.encode v)) w →
      R () (history (onScope (fun s => { s with temporaries, primary := some (c.encode v) }) w))) :
    Does (Has c w₀ x y) (writeJsonAtomic c plan v history) R (fun _ => Inv c w₀) := by
  apply (createTemporary_does .primary).bind
  intro _
  apply (fillTemporary_does .primary (c.encode v)).bind
  intro _
  apply Does.tidying
  · apply (writeBackup_does v).bind
    intro _
    apply Does.perform
    · exact fun w h => hR w _ h
    · exact fun _ _ h => h.inv
  · exact fun _ h => h.unlink .primary
  · exact fun _ _ => id
  · exact fun _ => id

theorem repair_does (hx : ¬valid c x = true) (hv : (y.bind c.decode).getD c.defaults = v) :
    Does (Has c w₀ x y) (writeJsonAtomic c plan v id)
      (fun _ => Has c w₀ (some (c.encode v)) (backupAfter c x y (c.encode v))) (fun _ => Inv c w₀) := by
  apply Does.of_pre (fun _ h => h.kept)
  intro hkept
  apply writeJsonAtomic_does
  intro w temporaries h
  have hreplaced := h.replace (fun hs => (hkept hs).recovered hx hv) temporaries
  have hbackup := h.backup
  rw [← hbackup] at hreplaced ⊢
  exact hreplaced

theorem freeSuffix_fresh (timestamp : Nat) (names : List CorruptName) (backup : Bool) :
    (⟨backup, timestamp, freeSuffix timestamp names backup⟩ : CorruptName) ∉ names := by
  rw [freeSuffix]
  cases hfind : (List.range (names.length + 1)).find?
      (fun suffix => (⟨backup, timestamp, suffix⟩ : CorruptName) ∉ names) with
  | some suffix => simpa using List.find?_some hfind
  | none =>
    -- otherwise all these names are taken, and there are more of them than names
    have htaken : (List.range (names.length + 1)).map
        (fun suffix => (⟨backup, timestamp, suffix⟩ : CorruptName)) ⊆ names := by
      intro name hname
      obtain ⟨suffix, hsuffix, rfl⟩ := List.mem_map.mp hname
      by_contra hfree
      exact (List.find?_eq_none.mp hfind suffix hsuffix) (decide_eq_true hfree)
    have hnodup : ((List.range (names.length + 1)).map
        (fun suffix => (⟨backup, timestamp, suffix⟩ : CorruptName))).Nodup :=
      List.Nodup.map (fun a b hab => congrArg CorruptName.suffix hab) List.nodup_range
    have hlength := (List.subperm_of_subset hnodup htaken).length_le
    rw [List.length_map, List.length_range] at hlength
    omega

/-- A new forensic file, whatever it holds. -/
theorem Has.forensic (h : Has c w₀ x y w) {name : CorruptName}
    (hname : name ∉ w.scope.forensic.map Prod.fst) (content : β) :
    Has c w₀ x y (onScope (fun s => { s with forensic := (name, content) :: s.forensic }) w) :=
  ⟨⟨h.inv.kept, h.inv.forensic.trans (List.suffix_cons ..),
      List.nodup_cons.mpr ⟨hname, h.inv.fresh⟩⟩, h.saved, h.primary, h.backup⟩

/-- The damaged bytes have a forensic copy that was not there at first. -/
def Preserved (w₀ w : World β σ) (content : β) : Prop :=
  ∃ name, (name, content) ∈ w.scope.forensic ∧ name ∉ w₀.scope.forensic.map Prod.fst

def Scope.without (nt : Bool) (content : Option β) : Option β := if nt then none else content

theorem Has.without (h : Has c w₀ x y w) (file : File) {content : β}
    (hcontent : file.pick x y = some content) (hdamaged : c.decode content = none) {entry : CorruptName × β}
    (hfresh : entry.1 ∉ w.scope.forensic.map Prod.fst) :
    Has c w₀ (file.pick none x) (file.pick y none)
      (onScope (fun s => { s with forensic := entry :: s.forensic }.set none file) w) := by
  have hforensic : w₀.scope.forensic <:+ entry :: w.scope.forensic :=
    h.inv.forensic.trans (List.suffix_cons ..)
  have hnodup : ((entry :: w.scope.forensic).map Prod.fst).Nodup :=
    List.nodup_cons.mpr ⟨hfresh, h.inv.fresh⟩
  have hunusable (o : Option β) (ho : o = some content) :
      (none : Option β).bind c.decode = o.bind c.decode := by
    rw [ho]
    exact hdamaged.symm
  cases file with
  | primary =>
    refine ⟨⟨fun hs => ?_, hforensic, hnodup⟩, h.saved, rfl, h.backup⟩
    have hprimary : w.scope.primary = some content := h.primary.trans hcontent
    exact (h.inv.kept hs).congr (.inl (by rw [hprimary]; nofun)) (hunusable _ hprimary) rfl
  | backup =>
    refine ⟨⟨fun hs => ?_, hforensic, hnodup⟩, h.saved, h.primary, rfl⟩
    have hbackup : w.scope.backup = some content := h.backup.trans hcontent
    exact (h.inv.kept hs).congr (.inr (by rw [hbackup]; nofun)) rfl (hunusable _ hbackup)

/-- The renamed file is gone, and the copied one is still there. -/
theorem preserve_does (file : File) {content : β} (hcontent : file.pick x y = some content)
    (hdamaged : c.decode content = none) :
    Does (Has c w₀ x y) (preserveCorruptFile c plan nt clock file content)
      (fun _ w => Preserved w₀ w content ∧
        Has c w₀ (file.pick (Scope.without nt x) x) (file.pick y (Scope.without nt y)) w)
      (fun _ => Inv c w₀) := by
  have hread : Does (Has c w₀ x y) (Lib.Effects.read (fun s => candidate (clock s.ops) file s.value.scope))
      (fun name w => name ∉ w.scope.forensic.map Prod.fst ∧ Has c w₀ x y w) (fun _ => Inv c w₀) :=
    Meets.read (fun s h => ⟨freeSuffix_fresh (clock s.ops) _ _, h⟩)
  apply hread.bind
  intro name
  have hname (w : World β σ) (hw : name ∉ w.scope.forensic.map Prod.fst) (h : Has c w₀ x y w) :
      name ∉ w₀.scope.forensic.map Prod.fst :=
    fun hmem => hw (List.map_subset _ h.inv.forensic.subset hmem)
  cases nt with
  | true =>
    have hmoved : Does (fun w => name ∉ w.scope.forensic.map Prod.fst ∧ Has c w₀ x y w)
        (perform plan (onScope (fun s => { s with forensic := (name, content) :: s.forensic }.set none file)))
        (fun _ w => Preserved w₀ w content ∧ Has c w₀ (file.pick none x) (file.pick y none) w)
        (fun _ => Inv c w₀) := by
      apply Does.perform
      · intro w ⟨hw, h⟩
        have hkept : (name, content) ∈ (onScope (fun s =>
            { s with forensic := (name, content) :: s.forensic }.set none file) w).scope.forensic := by
          cases file <;> exact List.mem_cons_self
        exact ⟨⟨name, hkept, hname w hw h⟩, h.without file hcontent hdamaged hw⟩
      · exact fun _ _ h => h.2.inv
    apply hmoved.bind
    intro _
    apply Does.pure
    intro w hw
    cases file <;> exact hw
  | false =>
    have hopened : Does (fun w => name ∉ w.scope.forensic.map Prod.fst ∧ Has c w₀ x y w)
        (perform plan (onScope (fun s => { s with forensic := (name, c.blank) :: s.forensic })))
        (fun _ w => name ∉ w₀.scope.forensic.map Prod.fst ∧
          w₀.scope.forensic <:+ w.scope.forensic.tail ∧ Has c w₀ x y w ∧
            ∃ rest, w.scope.forensic = (name, c.blank) :: rest) (fun _ => Inv c w₀) := by
      apply Does.perform
      · intro w ⟨hw, h⟩
        exact ⟨hname w hw h, h.inv.forensic, h.forensic hw c.blank, _, rfl⟩
      · exact fun _ _ h => h.2.inv
    have hcopied : Does (fun w => name ∉ w₀.scope.forensic.map Prod.fst ∧
          w₀.scope.forensic <:+ w.scope.forensic.tail ∧ Has c w₀ x y w ∧
            ∃ rest, w.scope.forensic = (name, c.blank) :: rest)
        (perform plan (onScope (fun s => { s with forensic := (name, content) :: s.forensic.tail })))
        (fun _ w => Preserved w₀ w content ∧ Has c w₀ x y w) (fun _ => Inv c w₀) := by
      apply Does.perform
      · intro w ⟨hw, hsuffix, h, rest, hrest⟩
        have hfresh := h.inv.fresh
        rw [hrest] at hsuffix hfresh
        refine ⟨⟨name, ?_, hw⟩, ⟨h.inv.kept, ?_, ?_⟩, h.saved, h.primary, h.backup⟩
        · exact List.mem_cons_self
        · change w₀.scope.forensic <:+ (name, content) :: w.scope.forensic.tail
          rw [hrest]
          exact hsuffix.trans (List.suffix_cons ..)
        · change (((name, content) :: w.scope.forensic.tail).map Prod.fst).Nodup
          rw [hrest]
          exact hfresh
      · exact fun _ _ h => h.2.2.1.inv
    apply hopened.bind
    intro _
    apply hcopied.bind
    intro _
    apply Does.pure
    intro w hw
    cases file <;> exact hw

theorem Inv.refl (hfresh : (w₀.scope.forensic.map Prod.fst).Nodup) : Inv c w₀ w₀ :=
  ⟨id, List.suffix_refl _, hfresh⟩

theorem Inv.trans {w₁ : World β σ} (h₁ : Inv c w₀ w₁) (h : Inv c w₁ w) : Inv c w₀ w :=
  ⟨fun hs => h.kept (h₁.kept hs), h₁.forensic.trans h.forensic, h.fresh⟩

theorem Has.again (h : Has c w₀ x y w) : Has c w x y w :=
  ⟨Inv.refl h.inv.fresh, rfl, h.primary, h.backup⟩

theorem Preserved.later {w' : World β σ} {content : β} (h : Preserved w₀ w content)
    (hsuffix : w.scope.forensic <:+ w'.scope.forensic) : Preserved w₀ w' content := by
  obtain ⟨name, hmem, hnew⟩ := h
  exact ⟨name, hsuffix.subset hmem, hnew⟩

theorem without_unusable {content : β} (h : c.decode content = none) :
    (Scope.without nt (some content)).bind c.decode = none := by
  cases nt with
  | true => rfl
  | false => exact h

end OpenAdb.Settings.Files
