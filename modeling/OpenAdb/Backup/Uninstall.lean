import Mathlib.Data.List.Forall2
import OpenAdb.Backup.Contents

namespace OpenAdb.Backup.Uninstall

open OpenAdb.Lib.PyText OpenAdb.Lib.Effects OpenAdb.Backup.Names OpenAdb.Backup.Snapshot
open OpenAdb.Backup.Contents

variable {κ : Type} {u : UnicodeData} {host : Host κ}

/-- Of an adb facade only matters whether its effective privilege backend is root. -/
structure Coordinator where
  device : DeviceInfo
  adb : Bool
  preparedAdb : Option Bool
  rootEnabled : Bool
  privilegeManager : Bool

variable {c : Coordinator}

def cancelEvent (host : Host κ) : Effect Fault (World κ) Bool := poll host

def requireCurrent (host : Host κ) : Effect Fault (World κ) Unit := fun w =>
  match host.current w with
  | some f => (.error f, w.record .operation)
  | none => (.ok (), w.record .verified)

/-- `_continue` -/
def mayContinue (host : Host κ) : Effect Fault (World κ) Bool := do
  let cancelled ← cancelEvent host
  if cancelled then return false
  else
    requireCurrent host
    let cancelled ← cancelEvent host
    return !cancelled

def prepareAdb (host : Host κ) (c : Coordinator) : Effect Fault (World κ) Bool := fun w =>
  match if c.privilegeManager then host.prepared w else .ok (some c.adb) with
  | .ok (some adb) => (.ok adb, w.record .operation)
  | .ok none => (.error .other, w.record .operation)
  | .error f => (.error f, w.record .operation)

/-- What is remembered for a later call is left out. -/
def prepareWorkflowAdb (host : Host κ) (c : Coordinator) : Effect Fault (World κ) Bool :=
  match c.preparedAdb with
  | some adb => pure adb
  | none => do
    let go ← mayContinue host
    if go then
      let prepared ← prepareAdb host c
      let _ ← mayContinue host
      return prepared
    else return c.adb

def rootAvailable (host : Host κ) : Effect Fault (World κ) Bool := fun w =>
  (host.rootAvailable w, w.record .operation)

def resolveRoot (host : Host κ) (c : Coordinator) (adb : Bool) : Effect Fault (World κ) Bool := do
  let go ← mayContinue host
  if go && (if c.privilegeManager then adb else c.rootEnabled) then
    let available ← rootAvailable host
    if available then mayContinue host else return false
  else return false

def uninstallMethod (app : AppInfo) : Text :=
  if app.isSystem then "pm uninstall --user 0".toList else "pm uninstall".toList

def backupRequest (c : Coordinator) (useRoot : Bool) (app : AppInfo) : Request where
  app := app
  device := c.device
  uninstallMethod := uninstallMethod app
  iconPath := app.iconPath
  useRoot := useRoot

/-- How an iteration goes on after its backup. -/
inductive Gate
  | stop
  | skip (message : Text)
  | proceed

def safetyBackup (u : UnicodeData) (host : Host κ) (r : Request) :
    Effect Fault (World κ) Gate := do
  let (ok, _, message) ← createBackup u host r
  let cancelled ← cancelEvent host
  return if cancelled then .stop
    else if ok then .proceed
    else .skip (r.app.packageName ++ ": skipped, backup failed - ".toList ++ message)

def uninstallPackage (host : Host κ) (app : AppInfo) (useRoot : Bool) :
    Effect Fault (World κ) CommandResult := fun w =>
  (host.uninstall w app.packageName, w.record (.uninstall app.packageName app.isSystem useRoot))

/-- The second half of an iteration. Without a message the loop ends. -/
def removeApp (host : Host κ) (useRoot : Bool) (app : AppInfo) :
    Effect Fault (World κ) (Option Text) := do
  let go ← mayContinue host
  if go then
    let result ← uninstallPackage host app useRoot
    let cancelled ← cancelEvent host
    return if cancelled then none else some (app.packageName ++ [':', ' '] ++ result.status)
  else return none

def uninstallEach (u : UnicodeData) (host : Host κ) (c : Coordinator) (requireBackup useRoot : Bool)
    (messages : List Text) : List AppInfo → Effect Fault (World κ) (List Text)
  | [] => pure messages
  | app :: apps => do
    let go ← mayContinue host
    if go then
      let gate ← if requireBackup then safetyBackup u host (backupRequest c useRoot app)
        else pure .proceed
      match gate with
      | .stop => return messages
      | .skip message => uninstallEach u host c requireBackup useRoot (messages ++ [message]) apps
      | .proceed =>
        let message ← removeApp host useRoot app
        match message with
        | none => return messages
        | some message =>
          uninstallEach u host c requireBackup useRoot (messages ++ [message]) apps
    else return messages

def uninstall (u : UnicodeData) (host : Host κ) (c : Coordinator) (apps : List AppInfo)
    (requireBackup : Bool) : Effect Fault (World κ) (List Text) := do
  let go ← mayContinue host
  if go then
    let adb ← prepareWorkflowAdb host c
    let useRoot ← resolveRoot host c adb
    uninstallEach u host c requireBackup useRoot [] apps
  else return []

/-- Every APK has a file of its own with its content, and the metadata name
these files. -/
def Complete (packageName : Text) (contents : List κ) (d : Directory κ) : Prop :=
  ∃ files m, files.Nodup ∧
    List.Forall₂ (fun name content => d.lookup name = some (.apk content)) files contents ∧
    d.lookup METADATA_NAME = some (.metadata m) ∧ m.packageName = packageName ∧ m.apkFiles = files

/-- No two of the names clash, and none is the name of a file that the backup writes itself. -/
def Separate (s : Nat → Text) (n : Nat) (icon : Bool) : Prop :=
  ∀ i < n, ¬ Clash s i ∧ s i ≠ LOG_NAME ∧ s i ≠ METADATA_NAME ∧ (icon = true → s i ≠ ICON_NAME)

/-- A published backup in a trace, with the report and the pulls it was made from. -/
structure SafetyBackup (κ : Type) where
  recent : List (Event κ)
  final : Text × Text
  directory : Directory κ
  since : List (Event κ)
  freshPaths : List Text
  older : List (Event κ)
  contents : List κ

/-- The device reported the paths, each was pulled with success, and the directory with the
results was published for this package. -/
def SafetyBackup.In (b : SafetyBackup κ) (u : UnicodeData) (app : AppInfo)
    (trace : List (Event κ)) : Prop :=
  trace = b.recent ++ .published b.final b.directory ::
    (b.since ++ .reported app.packageName b.freshPaths :: b.older) ∧
  (∀ e ∈ b.since, Quiet e) ∧ b.final.1 = safeFilename u app.packageName ∧
  b.contents.length = (usedPaths app b.freshPaths).length ∧
  pullsOf b.since = delivered (usedPaths app b.freshPaths) b.contents

/-- Since the publication the context was found current, and after that cancellation not set. -/
def SafetyBackup.Checked (b : SafetyBackup κ) : Prop :=
  ∃ last between, b.recent = last ++ .verified :: between ∧ .polled false ∈ last

def SafetyBackup.Separate (b : SafetyBackup κ) (u : UnicodeData) (app : AppInfo) : Prop :=
  Uninstall.Separate (names u (usedPaths app b.freshPaths)) (usedPaths app b.freshPaths).length
    (iconTouched b.since)

/-- The backup's own files are not named like a replacement. -/
theorem exists_own_iff {s : Nat → Text} {x : Text} {c : Char} {rest : Text} (hx : x = c :: rest)
    (hdots : ¬ isDots x) (hc : c.toNat < 48 ∨ 57 < c.toNat) (n : Nat) :
    (∃ j < n, target s j = x) ↔ ∃ j < n, s j = x :=
  exists_target_iff hdots (fun _ _ => hx ▸ indexed_ne hc) n

theorem Separate.target_ne {s : Nat → Text} {n : Nat} {icon : Bool} (h : Separate s n icon) :
    ∀ j < n, target s j ≠ LOG_NAME ∧ target s j ≠ METADATA_NAME ∧
      (icon = true → target s j ≠ ICON_NAME) := by
  intro j hj
  refine ⟨fun he => ?_, fun he => ?_, fun hicon he => ?_⟩
  · obtain ⟨i, hi, hs⟩ := (exists_own_iff rfl (by decide) (by decide) n).mp ⟨j, hj, he⟩
    exact (h i hi).2.1 hs
  · obtain ⟨i, hi, hs⟩ := (exists_own_iff rfl (by decide) (by decide) n).mp ⟨j, hj, he⟩
    exact (h i hi).2.2.1 hs
  · obtain ⟨i, hi, hs⟩ := (exists_own_iff rfl (by decide) (by decide) n).mp ⟨j, hj, he⟩
    exact (h i hi).2.2.2 hicon hs

/-- A file that the backup writes itself holds no APK. -/
theorem not_own_of_complete {s : Nat → Text} {n : Nat} {contents : List κ} {d : Directory κ}
    (hfiles : List.Forall₂ (fun name content => d.lookup name = some (.apk content))
      (fileNames s n) contents) {x : Text} {c : Char} {rest : Text} (hx : x = c :: rest)
    (hdots : ¬ isDots x) (hc : c.toNat < 48 ∨ 57 < c.toNat) {f : FileContent κ}
    (hown : d.lookup x = some f) (hf : ∀ content, f ≠ .apk content) : ∀ i < n, s i ≠ x := by
  intro i hi he
  have hmem := mem_fileNames.mpr ((exists_own_iff hx hdots hc n).mpr ⟨i, hi, he⟩)
  obtain ⟨k, hk, hget⟩ := List.getElem_of_mem hmem
  have hlookup := hfiles.get hk (hfiles.length_eq ▸ hk)
  rw [List.get_eq_getElem, hget, hown] at hlookup
  exact hf _ (Option.some.inj hlookup)

theorem complete_iff {s : Nat → Text} {r : Request} {apkPaths : List Text} {d : Directory κ}
    {pulls : List (Pull κ)} {icon : Bool} (h : Whole r s apkPaths d pulls icon) :
    ∃ contents, contents.length = apkPaths.length ∧ pulls = delivered apkPaths contents ∧
      (Complete r.app.packageName contents d ↔ Separate s apkPaths.length icon) := by
  obtain ⟨contents, before, hlen, hcopied, hpulls, hfinished⟩ := h
  obtain ⟨m, hm, hname, hfiles, -⟩ := hfinished.lookup_metadata
  refine ⟨contents, hlen, hpulls, fun hcomplete i hi => ?_, fun hsep => ?_⟩
  · obtain ⟨files, m', hnodup, hall, hm', -, hfiles'⟩ := hcomplete
    rw [hm] at hm'
    cases hm'
    rw [← hfiles', hfiles] at hnodup hall
    obtain ⟨log, hlog⟩ := hfinished.lookup_log
    refine ⟨(nodup_fileNames_iff _).mp hnodup i hi, ?_, ?_, fun hicon => ?_⟩
    · exact not_own_of_complete hall rfl (by decide) (by decide) hlog nofun i hi
    · exact not_own_of_complete hall rfl (by decide) (by decide) hm nofun i hi
    · rw [if_pos hicon] at hfinished
      exact not_own_of_complete hall rfl (by decide) (by decide) hfinished.lookup_icon nofun i hi
  · refine ⟨fileNames s apkPaths.length, m, ?_, ?_, hm, hname, hfiles⟩
    · exact (nodup_fileNames_iff _).mpr (fun i hi => (hsep i hi).1)
    · rw [List.forall₂_iff_get]
      refine ⟨(length_fileNames _ _).trans hlen.symm, fun j hj hj' => ?_⟩
      rw [← hlen] at hsep
      rw [List.get_eq_getElem, getElem_fileNames]
      exact lookup_copied hcopied hfinished (fun i hi => (hsep i hi).1) j hj' (hsep.target_ne j hj')

/-- The backup is complete exactly when its names are separate. -/
def SafetyBackup.Exact (u : UnicodeData) (app : AppInfo) (b : SafetyBackup κ) : Prop :=
  Complete app.packageName b.contents b.directory ↔ b.Separate u app

def SafetyBackup.Complete (app : AppInfo) (b : SafetyBackup κ) : Prop :=
  Uninstall.Complete app.packageName b.contents b.directory

def Event.isUninstall : Event κ → Bool
  | .uninstall _ _ _ => true
  | _ => false

/-- At each uninstall there is, among the events before it, a checked backup of the app with `G`. -/
inductive Backed (u : UnicodeData) (apps : List AppInfo) (G : AppInfo → SafetyBackup κ → Prop) :
    List (Event κ) → Prop
  | nil : Backed u apps G []
  | uninstall {app : AppInfo} {b : SafetyBackup κ} {systemApp useRoot : Bool}
      {trace : List (Event κ)} (hmem : app ∈ apps) (hb : b.In u app trace ∧ G app b)
      (hchecked : b.Checked) (htrace : Backed u apps G trace) :
      Backed u apps G (.uninstall app.packageName systemApp useRoot :: trace)
  | other {e : Event κ} {trace : List (Event κ)} (he : Event.isUninstall e = false)
      (htrace : Backed u apps G trace) : Backed u apps G (e :: trace)

variable {apps : List AppInfo} {G : AppInfo → SafetyBackup κ → Prop}

theorem Mild.not_uninstall {e : Event κ} (h : Mild e) : Event.isUninstall e = false := by
  cases e <;> first | rfl | exact h.elim

theorem Backed.of_cons {e : Event κ} {trace : List (Event κ)} (h : Backed u apps G (e :: trace)) :
    Backed u apps G trace := by
  cases h with
  | uninstall hmem hb hchecked htrace => exact htrace
  | other he htrace => exact htrace

theorem backed_mild {e : Event κ} (he : Mild e) (trace : List (Event κ)) :
    Backed u apps G (e :: trace) ↔ Backed u apps G trace :=
  ⟨Backed.of_cons, Backed.other (Mild.not_uninstall he)⟩

theorem backed_append {since : List (Event κ)} (h : ∀ e ∈ since, Mild e) (trace : List (Event κ)) :
    Backed u apps G (since ++ trace) ↔ Backed u apps G trace := by
  induction since with
  | nil => rfl
  | cons e since ih =>
    obtain ⟨he, hs⟩ := List.forall_mem_cons.mp h
    exact (backed_mild he _).trans (ih hs)

theorem Backed.exists_backup {trace : List (Event κ)} (h : Backed u apps G trace)
    (hany : trace.any Event.isUninstall = true) :
    ∃ app, ∃ b : SafetyBackup κ, .published b.final b.directory ∈ trace ∧ G app b := by
  induction h with
  | nil => cases hany
  | @uninstall app b _ _ trace hmem hb hchecked htrace ih =>
    refine ⟨app, b, List.mem_cons_of_mem _ ?_, hb.2⟩
    rw [hb.1.1]
    exact List.mem_append_right _ List.mem_cons_self
  | other he htrace ih =>
    rw [List.any_cons, he] at hany
    obtain ⟨app, b, hmem, hb⟩ := ih hany
    exact ⟨app, b, List.mem_cons_of_mem _ hmem, hb⟩

variable {useRoot : Bool}

/-- The backup is in the trace. -/
def Saved (u : UnicodeData) (app : AppInfo) (b : SafetyBackup κ) (trace : List (Event κ)) : Prop :=
  b.In u app trace ∧ b.Exact u app

def Safe (u : UnicodeData) (apps : List AppInfo) (w : World κ) : Prop :=
  Backed u apps (SafetyBackup.Exact u) w.trace

def Ready (u : UnicodeData) (apps : List AppInfo) (app : AppInfo) (w : World κ) : Prop :=
  Safe u apps w ∧ ∃ b : SafetyBackup κ, Saved u app b w.trace

theorem SafetyBackup.In.later {b : SafetyBackup κ} {app : AppInfo} {trace : List (Event κ)}
    (h : b.In u app trace) (since : List (Event κ)) :
    SafetyBackup.In { b with recent := since ++ b.recent } u app (since ++ trace) := by
  obtain ⟨ht, hrest⟩ := h
  refine ⟨?_, hrest⟩
  rw [ht, ← List.append_assoc]

theorem Saved.later {b : SafetyBackup κ} {app : AppInfo} {trace : List (Event κ)}
    (h : Saved u app b trace) (since : List (Event κ)) :
    Saved u app { b with recent := since ++ b.recent } (since ++ trace) :=
  ⟨h.1.later since, h.2⟩

theorem safe_of_nothing {w₀ w : World κ} (h : NothingMade w₀ w) (hw₀ : Safe u apps w₀) :
    Safe u apps w := by
  obtain ⟨⟨since, ht, hs⟩, -⟩ := h
  rw [Safe, ht]
  exact (backed_append hs _).mpr hw₀

theorem safe_of_made {w₀ w : World κ} {r : Request}
    {C : Request → (Nat → Text) → List Text → Directory κ → List (Pull κ) → Bool → Prop}
    (h : BackupMade u r C w₀ w) (hw₀ : Safe u apps w₀) : Safe u apps w := by
  obtain ⟨later, since, before, freshPaths, final, d, ht, ⟨hl, hq, hb⟩, -⟩ := h
  rw [Safe, ht, backed_append (fun e he => (hl e he).mild)]
  apply Backed.other rfl
  rw [backed_append (fun e he => (hq e he).mild)]
  apply Backed.other rfl
  exact (backed_append (fun e he => (hb e he).mild) _).mpr hw₀

theorem saved_of_made {w₀ w : World κ} {r : Request} (h : BackupMade u r Whole w₀ w) :
    ∃ b : SafetyBackup κ, Saved u r.app b w.trace := by
  obtain ⟨later, since, before, freshPaths, final, d, ht, ⟨-, hq, -⟩, hfinal, -, hwhole⟩ := h
  obtain ⟨contents, hlen, hpulls, hiff⟩ := complete_iff hwhole
  exact ⟨⟨later, final, d, since, freshPaths, _, contents⟩, ⟨ht, hq, hfinal, hlen, hpulls⟩, hiff⟩

theorem recorded_safe {α : Type} {x : Effect Fault (World κ) α}
    (hx : ∀ w, ∃ e, Mild e ∧ (x w).2 = w.record e) :
    Meets (Safe u apps) x (fun _ => Safe u apps) (fun _ => Safe u apps) := by
  intro w hw
  obtain ⟨e, he, ht⟩ := hx w
  have hsafe : Safe u apps (x w).2 := ht ▸ (backed_mild he w.trace).mpr hw
  cases hrun : x w with
  | mk out t =>
    rw [hrun] at hsafe
    cases out with
    | ok a => exact hsafe
    | error f => exact hsafe

theorem cancelEvent_safe :
    Meets (Safe u apps) (cancelEvent host) (fun _ => Safe u apps) (fun _ => Safe u apps) :=
  recorded_safe (fun w => ⟨.polled (host.cancelled w), trivial, rfl⟩)

theorem requireCurrent_safe :
    Meets (Safe u apps) (requireCurrent host) (fun _ => Safe u apps) (fun _ => Safe u apps) := by
  refine recorded_safe (fun w => ?_)
  rw [requireCurrent]
  cases host.current w with
  | none => exact ⟨.verified, trivial, rfl⟩
  | some f => exact ⟨.operation, trivial, rfl⟩

theorem mayContinue_safe :
    Meets (Safe u apps) (mayContinue host) (fun _ => Safe u apps) (fun _ => Safe u apps) := by
  refine cancelEvent_safe.bind (fun cancelled => Meets.ite (fun _ => Meets.pure fun _ h => h) ?_)
  refine fun _ => requireCurrent_safe.bind (fun _ => ?_)
  exact cancelEvent_safe.bind (fun _ => Meets.pure fun _ h => h)

theorem prepareAdb_safe :
    Meets (Safe u apps) (prepareAdb host c) (fun _ => Safe u apps) (fun _ => Safe u apps) := by
  refine recorded_safe (fun w => ⟨.operation, trivial, ?_⟩)
  rw [prepareAdb]
  split <;> rfl

theorem prepareWorkflowAdb_safe :
    Meets (Safe u apps) (prepareWorkflowAdb host c) (fun _ => Safe u apps) (fun _ => Safe u apps) := by
  rw [prepareWorkflowAdb]
  cases c.preparedAdb with
  | some adb => exact Meets.pure (fun _ h => h)
  | none =>
    refine mayContinue_safe.bind (fun go => Meets.ite (fun _ => ?_) (fun _ => Meets.pure fun _ h => h))
    refine prepareAdb_safe.bind (fun prepared => ?_)
    exact mayContinue_safe.bind (fun _ => Meets.pure fun _ h => h)

theorem resolveRoot_safe (adb : Bool) :
    Meets (Safe u apps) (resolveRoot host c adb) (fun _ => Safe u apps) (fun _ => Safe u apps) := by
  refine mayContinue_safe.bind (fun go => Meets.ite (fun _ => ?_) (fun _ => Meets.pure fun _ h => h))
  have havailable : Meets (Safe u apps) (rootAvailable host) (fun _ => Safe u apps)
      (fun _ => Safe u apps) := recorded_safe (fun w => ⟨.operation, trivial, rfl⟩)
  refine havailable.bind (fun available => ?_)
  exact Meets.ite (fun _ => mayContinue_safe) (fun _ => Meets.pure fun _ h => h)

theorem Ready.later {app : AppInfo} {w : World κ} (h : Ready u apps app w) {e : Event κ}
    (he : Mild e) : Ready u apps app (w.record e) := by
  obtain ⟨hsafe, b, hb⟩ := h
  exact ⟨(backed_mild he w.trace).mpr hsafe, _, hb.later [e]⟩

/-- After a backup the run may go on only when the context was found current and, once more,
no cancellation. -/
theorem mayContinue_ready {app : AppInfo} :
    Meets (Ready u apps app) (mayContinue host)
      (fun go w => Safe u apps w ∧
        (go = true → ∃ b : SafetyBackup κ, Saved u app b w.trace ∧ b.Checked))
      (fun _ => Safe u apps) := by
  refine Meets.bind (Q := fun _ => Ready u apps app)
    (fun w hw => hw.later (e := .polled (host.cancelled w)) trivial) (fun cancelled => ?_)
  refine Meets.ite (fun _ => Meets.pure fun w h => ⟨h.1, nofun⟩) (fun _ => ?_)
  refine Meets.bind (Q := fun _ w => ∃ t, Ready u apps app t ∧ w = t.record .verified) ?_ (fun _ => ?_)
  · intro w hw
    rw [requireCurrent]
    cases host.current w with
    | none => exact ⟨w, hw, rfl⟩
    | some f => exact (hw.later (e := .operation) trivial).1
  · refine Meets.bind (Q := fun cancelled w =>
      ∃ t, Ready u apps app t ∧ w = (t.record .verified).record (.polled cancelled)) ?_
      (fun cancelled => ?_)
    · rintro w ⟨t, ht, rfl⟩
      exact ⟨t, ht, rfl⟩
    · refine Meets.pure ?_
      rintro w ⟨t, ht, rfl⟩
      have hsafe := ((ht.later (e := .verified) trivial).later (e := .polled cancelled) trivial).1
      refine ⟨hsafe, fun hgo => ?_⟩
      rw [Bool.not_eq_true'] at hgo
      subst hgo
      obtain ⟨-, b, hb⟩ := ht
      exact ⟨_, hb.later [.polled false, .verified], [.polled false], b.recent, rfl,
        List.mem_cons_self⟩

theorem uninstallPackage_safe {app : AppInfo} (hmem : app ∈ apps) :
    Meets (fun w => Safe u apps w ∧ ∃ b : SafetyBackup κ, Saved u app b w.trace ∧ b.Checked)
      (uninstallPackage host app useRoot) (fun _ => Safe u apps) (fun _ => Safe u apps) := by
  rintro w ⟨hsafe, b, hb, hchecked⟩
  have hstep : Safe u apps (w.record (.uninstall app.packageName app.isSystem useRoot)) :=
    Backed.uninstall hmem hb hchecked hsafe
  rw [uninstallPackage]
  cases host.uninstall w app.packageName with
  | ok result => exact hstep
  | error f => exact hstep

theorem removeApp_safe {app : AppInfo} (hmem : app ∈ apps) :
    Meets (Ready u apps app) (removeApp host useRoot app) (fun _ => Safe u apps)
      (fun _ => Safe u apps) := by
  refine mayContinue_ready.bind (fun go => Meets.ite (fun hgo => ?_) (fun _ => ?_))
  · refine Meets.bind ((uninstallPackage_safe hmem).mono (fun w h => ⟨h.1, h.2 hgo⟩) (fun _ _ h => h)
      (fun _ _ h => h)) (fun result => ?_)
    exact cancelEvent_safe.bind (fun _ => Meets.pure fun _ h => h)
  · exact Meets.pure (fun _ h => h.1)

theorem safetyBackup_safe {r : Request} :
    Meets (Safe u apps) (safetyBackup u host r)
      (fun gate w => Safe u apps w ∧ (gate = .proceed → Ready u apps r.app w))
      (fun _ => Safe u apps) := by
  refine Meets.bind (Q := fun out w => Safe u apps w ∧ (out.1 = true → Ready u apps r.app w)) ?_
    (fun out => ?_)
  · intro w hw
    refine (createBackup_meets w rfl).mono (fun out t h => ?_) (fun f t h => ?_)
    · cases hout : out.1 with
      | true =>
        have hmade := h.1 hout
        exact ⟨safe_of_made hmade hw, fun _ => ⟨safe_of_made hmade hw, saved_of_made hmade⟩⟩
      | false => exact ⟨(h.2 hout).elim (safe_of_nothing · hw) (safe_of_made · hw), nofun⟩
    · exact h.elim (safe_of_nothing · hw) (safe_of_made · hw)
  · refine Meets.bind
      (Q := fun _ w => Safe u apps w ∧ (out.1 = true → Ready u apps r.app w)) ?_ (fun cancelled => ?_)
    · rintro w ⟨hsafe, hready⟩
      exact ⟨(backed_mild (e := .polled (host.cancelled w)) trivial w.trace).mpr hsafe,
        fun hok => (hready hok).later (e := .polled (host.cancelled w)) trivial⟩
    · refine Meets.pure (fun w hw => ⟨hw.1, fun hgate => hw.2 ?_⟩)
      cases hok : out.1 with
      | true => rfl
      | false =>
        rw [hok] at hgate
        cases cancelled <;> cases hgate

theorem uninstallEach_safe (rest : List AppInfo) :
    ∀ messages, (∀ app ∈ rest, app ∈ apps) →
      Meets (Safe u apps) (uninstallEach u host c true useRoot messages rest)
        (fun _ => Safe u apps) (fun _ => Safe u apps) := by
  induction rest with
  | nil => exact fun _ _ => Meets.pure (fun _ h => h)
  | cons app rest ih =>
    intro messages hmem
    obtain ⟨happ, hrest⟩ := List.forall_mem_cons.mp hmem
    refine mayContinue_safe.bind (fun go => Meets.ite (fun _ => ?_) (fun _ => Meets.pure fun _ h => h))
    refine Meets.bind (Q := fun gate w => Safe u apps w ∧ (gate = .proceed → Ready u apps app w))
      (safetyBackup_safe (r := backupRequest c useRoot app)) (fun gate => ?_)
    cases gate with
    | stop => exact Meets.pure (fun _ h => h.1)
    | skip message => exact (ih _ hrest).mono (fun _ h => h.1) (fun _ _ h => h) (fun _ _ h => h)
    | proceed =>
      refine Meets.bind ((removeApp_safe happ).mono (fun w h => h.2 rfl) (fun _ _ h => h)
        (fun _ _ h => h)) (fun message => ?_)
      cases message with
      | none => exact Meets.pure (fun _ h => h)
      | some message => exact ih _ hrest

theorem uninstall_safe :
    Meets (Safe u apps) (uninstall u host c apps true) (fun _ => Safe u apps)
      (fun _ => Safe u apps) := by
  refine mayContinue_safe.bind (fun go => Meets.ite (fun _ => ?_) (fun _ => Meets.pure fun _ h => h))
  refine prepareWorkflowAdb_safe.bind (fun adb => (resolveRoot_safe adb).bind (fun useRoot => ?_))
  exact uninstallEach_safe apps [] (fun _ h => h)

/-- Whether each published directory of a trace lists a file twice. -/
def listsTwice : Event κ → Bool
  | .published _ d =>
    match d.lookup METADATA_NAME with
    | some (.metadata m) => !decide m.apkFiles.Nodup
    | _ => true
  | _ => true

theorem not_complete_of_listsTwice {p : Text × Text} {d : Directory κ} {packageName : Text}
    {contents : List κ} (h : listsTwice (.published p d : Event κ) = true) :
    ¬ Complete packageName contents d := by
  rintro ⟨files, m, hnodup, -, hm, -, rfl⟩
  rw [listsTwice, hm] at h
  simp only [hnodup, decide_true, Bool.not_true, Bool.false_eq_true] at h

/-- Three splits of which the third takes the place of the first. -/
def clashingPaths : List Text := [['3', '_', 'a'], ['b', '/', 'a'], ['c', '/', 'a']]

def clashingApp : AppInfo := ⟨['p'], [], [], [], [], [], []⟩

def clashingHost : Host Nat :=
  Host.steady clashingPaths (fun apkPath => ⟨some apkPath.length, .ok .ok⟩)

def clashingCoordinator : Coordinator := ⟨⟨[], [], []⟩, false, none, false, false⟩

theorem clashing_uninstalls :
    (uninstall .ascii clashingHost clashingCoordinator [clashingApp] true ⟨∅, []⟩).2.trace.any
      Event.isUninstall = true := by
  decide +kernel

theorem clashing_listsTwice :
    (uninstall .ascii clashingHost clashingCoordinator [clashingApp] true ⟨∅, []⟩).2.trace.all
      listsTwice = true := by
  decide +kernel

end OpenAdb.Backup.Uninstall
