import OpenAdb.Backup.Snapshot

namespace OpenAdb.Backup.Contents

open OpenAdb.Lib.PyText OpenAdb.Lib.Effects OpenAdb.Backup.Names OpenAdb.Backup.Snapshot

variable {κ ε : Type} {u : UnicodeData} {host : Host κ} {r : Request} {s : Nat → Text}

/-- The directory holds one pull for each of the first names, and a later pull to the same
name has replaced the earlier one. -/
structure Copied (s : Nat → Text) (contents : List κ) (d : Directory κ) : Prop where
  mem_iff : ∀ x, x ∈ d ↔ ∃ j < contents.length, target s j = x
  lookup : ∀ (j : Nat) (h : j < contents.length),
    (∀ i < contents.length, j < i → target s i ≠ target s j) →
      d.lookup (target s j) = some (.apk contents[j])

theorem Copied.empty (s : Nat → Text) : Copied s [] (∅ : Directory κ) where
  mem_iff x := by simp [Finmap.notMem_empty]
  lookup j h := absurd h (Nat.not_lt_zero j)

theorem Copied.add {contents : List κ} {d : Directory κ} (h : Copied s contents d) (c : κ) :
    Copied s (contents ++ [c]) (d.insert (target s contents.length) (.apk c)) where
  mem_iff x := by
    rw [Finmap.mem_insert, h.mem_iff, List.length_append, List.length_singleton,
      Nat.exists_lt_succ_right, or_comm, eq_comm (a := x)]
  lookup j hj hlast := by
    rw [List.length_append, List.length_singleton] at hj hlast
    by_cases he : j = contents.length
    · subst he
      rw [Finmap.lookup_insert, List.getElem_concat_length rfl]
    · have hlt : j < contents.length := by omega
      rw [Finmap.lookup_insert_of_ne _ (hlast _ (Nat.lt_succ_self _) hlt).symm,
        h.lookup j hlt (fun i hi => hlast i (by omega)), List.getElem_append_left hlt]

theorem Copied.mem_name {contents : List κ} {d : Directory κ} (h : Copied s contents d) (x : Text) :
    isDots x ∨ x ∈ d ↔ Used s contents.length x := by
  rw [used_iff, h.mem_iff]

abbrev Pull (κ : Type) := Text × Bool × Option κ

/-- The pulls of a trace, the first one first. -/
def pullsOf : List (Event κ) → List (Pull κ)
  | [] => []
  | .pulled apkPath success leaves :: trace => pullsOf trace ++ [(apkPath, success, leaves)]
  | _ :: trace => pullsOf trace

def iconTouched : List (Event κ) → Bool
  | [] => false
  | .iconWritten :: _ => true
  | _ :: trace => iconTouched trace

/-- Events that say nothing about pulls, icons, publications or packages. -/
def Neutral : Event κ → Prop
  | .polled _ | .operation => True
  | _ => False

def Quiet : Event κ → Prop
  | .polled _ | .operation | .pulled _ _ _ | .iconWritten => True
  | _ => False

theorem Neutral.quiet {e : Event κ} (h : Neutral e) : Quiet e := by
  cases e <;> first | exact trivial | exact h

theorem pullsOf_neutral {e : Event κ} (h : Neutral e) (trace : List (Event κ)) :
    pullsOf (e :: trace) = pullsOf trace := by
  cases e <;> first | rfl | exact h.elim

theorem iconTouched_neutral {e : Event κ} (h : Neutral e) (trace : List (Event κ)) :
    iconTouched (e :: trace) = iconTouched trace := by
  cases e <;> first | rfl | exact h.elim

variable {w₀ : World κ} {path : Text × Text} {base : List (Event κ)}
  {P : Directory κ → List (Pull κ) → Bool → Prop} {F : World κ → Prop}

/-- The run is filling a directory and has touched nothing else; `P` is about the directory
and the events since `base`. -/
def Inside (w₀ : World κ) (path : Text × Text) (base : List (Event κ))
    (P : Directory κ → List (Pull κ) → Bool → Prop) (w : World κ) : Prop :=
  ∃ d since, w.root.lookup path = some d ∧
    (∀ p, p ≠ path → w.root.lookup p = w₀.root.lookup p) ∧
    w.trace = since ++ base ∧ (∀ e ∈ since, Quiet e) ∧ P d (pullsOf since) (iconTouched since)

/-- The directory got its final name, and this is the last event. -/
def Published (w₀ : World κ) (path : Text × Text) (base : List (Event κ))
    (P : Directory κ → List (Pull κ) → Bool → Prop) (final : Text × Text) (w : World κ) : Prop :=
  ∃ d since, w.root.lookup final = some d ∧ w.root.lookup path = none ∧
    (final ≠ path ∧ w₀.root.lookup final = none ∧ final.1 = path.1) ∧
    (∀ p, p ≠ path → p ≠ final → w.root.lookup p = w₀.root.lookup p) ∧
    w.trace = .published final d :: (since ++ base) ∧ (∀ e ∈ since, Quiet e) ∧
    P d (pullsOf since) (iconTouched since)

def Stopped (w₀ : World κ) (path : Text × Text) (base : List (Event κ)) (F : World κ → Prop) :
    Stop → World κ → Prop
  | .failed _, w => F w
  | _, w => Inside w₀ path base (fun _ _ _ => True) w

theorem Inside.mono {P' : Directory κ → List (Pull κ) → Bool → Prop} {w : World κ}
    (h : Inside w₀ path base P w) (hP : ∀ d pulls icon, P d pulls icon → P' d pulls icon) :
    Inside w₀ path base P' w := by
  obtain ⟨d, since, hd, hothers, ht, hq, hp⟩ := h
  exact ⟨d, since, hd, hothers, ht, hq, hP _ _ _ hp⟩

theorem Inside.weaken {w : World κ} (h : Inside w₀ path base P w) :
    Inside w₀ path base (fun _ _ _ => True) w :=
  h.mono (fun _ _ _ _ => trivial)

theorem quiet_cons {e : Event κ} {since : List (Event κ)} (he : Quiet e) (h : ∀ e ∈ since, Quiet e) :
    ∀ e' ∈ e :: since, Quiet e' :=
  List.forall_mem_cons.mpr ⟨he, h⟩

theorem Inside.note {P' : Directory κ → List (Pull κ) → Bool → Prop} {w : World κ} {e : Event κ}
    (h : Inside w₀ path base P w) (he : Quiet e)
    (hP : ∀ d since, P d (pullsOf since) (iconTouched since) →
      P' d (pullsOf (e :: since)) (iconTouched (e :: since))) :
    Inside w₀ path base P' (w.record e) := by
  obtain ⟨d, since, hd, hothers, ht, hq, hp⟩ := h
  exact ⟨d, e :: since, hd, hothers, congrArg (List.cons e) ht, quiet_cons he hq, hP d since hp⟩

theorem Inside.record {w : World κ} (h : Inside w₀ path base P w) {e : Event κ} (he : Neutral e) :
    Inside w₀ path base P (w.record e) := by
  refine h.note he.quiet (fun d since hp => ?_)
  rw [pullsOf_neutral he, iconTouched_neutral he]
  exact hp

theorem Inside.directory {w : World κ} {d : Directory κ} (h : w.root.lookup path = some d) :
    w.directory path = d := by
  rw [World.directory, h]
  rfl

theorem lookup_store_of_ne {w : World κ} {p : Text × Text} (d : Directory κ) (h : p ≠ path) :
    (w.store path d).root.lookup p = w.root.lookup p :=
  Finmap.lookup_insert_of_ne _ h

theorem Inside.store {w : World κ} (h : Inside w₀ path base P w) (f : Directory κ → Directory κ) :
    Inside w₀ path base (fun d' pulls icon => ∃ d, P d pulls icon ∧ d' = f d)
      (w.store path (f (w.directory path))) := by
  obtain ⟨d, since, hd, hothers, ht, hq, hp⟩ := h
  refine ⟨f d, since, ?_, fun p hne => ?_, ht, hq, d, hp, rfl⟩
  · rw [Inside.directory hd]
    exact Finmap.lookup_insert _
  · exact (lookup_store_of_ne _ hne).trans (hothers p hne)

/-- Neutral events do not matter to the condition. -/
def Stable (S : World κ → Prop) : Prop := ∀ w e, Neutral e → S w → S (w.record e)

theorem Stable.poll {S : World κ → Prop} {E : ε → World κ → Prop} (h : Stable S) :
    Meets S (poll host) (fun _ => S) E :=
  fun w hw => h w (.polled (host.cancelled w)) trivial hw

theorem Stable.operation {S : World κ → Prop} {E : Stop → World κ → Prop} (h : Stable S)
    (hE : ∀ f w, S w → E (.fault f) w) : Meets S (operation host) (fun _ => S) E := by
  intro w hw
  have hrecord := h w .operation trivial hw
  rw [Snapshot.operation]
  cases host.fault w with
  | none => exact hrecord
  | some f => exact hE f _ hrecord

theorem Stable.checkpoint {S : World κ → Prop} {E : Stop → World κ → Prop} (h : Stable S)
    (hE : ∀ message w, S w → E (.refused message) w) (message : Text) :
    Meets S (checkpoint host message) (fun _ => S) E :=
  h.poll.bind (fun _ => Meets.require (fun _ _ hw => hw) (fun _ w hw => hE message w hw))

theorem Inside.stable : Stable (Inside w₀ path base P) := fun _ _ he h => h.record he

theorem operation_meets :
    Meets (Inside w₀ path base P) (operation host) (fun _ => Inside w₀ path base P)
      (Stopped w₀ path base F) :=
  Inside.stable.operation (fun _ _ h => h.weaken)

theorem checkpoint_meets (message : Text) :
    Meets (Inside w₀ path base P) (checkpoint host message) (fun _ => Inside w₀ path base P)
      (Stopped w₀ path base F) :=
  Inside.stable.checkpoint (fun _ _ h => h.weaken) message

theorem writeText_meets (name : Text) (content : FileContent κ) :
    Meets (Inside w₀ path base P) (writeText host path name content)
      (fun _ => Inside w₀ path base
        (fun d' pulls icon => ∃ d, P d pulls icon ∧ d' = d.insert name content))
      (Stopped w₀ path base F) :=
  operation_meets.bind (fun _ => Meets.update (fun _ h => h.store (fun d => d.insert name content)))

theorem fileExists_meets (name : Text) :
    Meets (Inside w₀ path base P) (fileExists host path name)
      (fun found => Inside w₀ path base
        (fun d pulls icon => P d pulls icon ∧ (found = true ↔ isDots name ∨ name ∈ d)))
      (Stopped w₀ path base F) := by
  refine operation_meets.bind (fun _ => Meets.read fun w h => ?_)
  obtain ⟨d, since, hd, hothers, ht, hq, hp⟩ := h
  refine ⟨d, since, hd, hothers, ht, hq, hp, ?_⟩
  rw [Inside.directory hd]
  exact decide_eq_true_iff

theorem pullApk_meets (useRoot : Bool) (apkPath name : Text) :
    Meets (Inside w₀ path base P) (pullApk host useRoot path apkPath name)
      (fun result => Inside w₀ path base
        (fun d' pulls' icon => ∃ d pulls leaves, P d pulls icon ∧ d' = leave d name leaves ∧
          pulls' = pulls ++ [(apkPath, result.success, leaves)]))
      (Stopped w₀ path base F) := by
  intro w hw
  have hstore := hw.store (fun d => leave d name (host.pull w useRoot apkPath name).leaves)
  rw [pullApk]
  cases hresult : (host.pull w useRoot apkPath name).result with
  | ok result =>
    dsimp only [Outcome]
    refine hstore.note trivial (fun d' since h => ?_)
    obtain ⟨d, hp, rfl⟩ := h
    exact ⟨d, _, _, hp, rfl, rfl⟩
  | error f =>
    dsimp only [Outcome, Stopped]
    exact hstore.note trivial (fun _ _ _ => trivial)

/-- The icon is copied once, before it no event of the run has touched it. -/
theorem copyIcon_meets (iconPath : Text) :
    Meets (Inside w₀ path base (fun d pulls icon => P d pulls icon ∧ icon = false))
      (copyIcon host path iconPath)
      (fun _ => Inside w₀ path base (fun d' pulls icon => ∃ d, P d pulls false ∧
        d' = if icon = true then d.insert ICON_NAME .icon else d))
      (Stopped w₀ path base F) := by
  intro w hw
  have hskip : Inside w₀ path base (fun d' pulls icon => ∃ d, P d pulls false ∧
      d' = if icon = true then d.insert ICON_NAME .icon else d) w := by
    refine hw.mono (fun d pulls icon h => ⟨d, ?_, ?_⟩)
    · exact h.2 ▸ h.1
    · rw [h.2]
      rfl
  rw [copyIcon]
  by_cases hpath : iconPath = []
  · rw [if_pos hpath]
    exact hskip
  · rw [if_neg hpath]
    dsimp only
    cases hwrites : (host.icon w iconPath).writes with
    | false =>
      cases (host.icon w iconPath).fault with
      | none => exact hskip.record (e := .operation) trivial
      | some f =>
        cases f with
        | osError => exact hskip.record (e := .operation) trivial
        | other => exact (hskip.record (e := .operation) trivial).weaken
    | true =>
      have hstore := hw.store (fun d => d.insert ICON_NAME .icon)
      have htouched : Inside w₀ path base (fun d' pulls icon => ∃ d, P d pulls false ∧
          d' = if icon = true then d.insert ICON_NAME .icon else d)
          ((w.store path ((w.directory path).insert ICON_NAME .icon)).record .iconWritten) := by
        refine hstore.note (e := .iconWritten) trivial (fun d' since h => ?_)
        obtain ⟨d, ⟨hp, hicon⟩, rfl⟩ := h
        exact ⟨d, hicon ▸ hp, rfl⟩
      cases (host.icon w iconPath).fault with
      | none => exact htouched
      | some f =>
        cases f with
        | osError => exact htouched
        | other => exact htouched.weaken

theorem publish_meets (timestamp : Text) :
    Meets (Inside w₀ path base P) (publishBackupDirectory host path timestamp)
      (fun final => Published w₀ path base P final) (Stopped w₀ path base F) := by
  refine operation_meets.bind (fun _ => ?_)
  intro w hw
  refine Outcome.bind_ok (read_run _ w) ?_
  by_cases hfree : finalPath path timestamp ∉ w.root
  · refine Outcome.bind_ok (require_pos (decide_eq_true hfree)) ?_
    obtain ⟨d, since, hd, hothers, ht, hq, hp⟩ := hw
    have hnone := Finmap.lookup_eq_none.mpr hfree
    have hne : finalPath path timestamp ≠ path := by
      intro he
      rw [he, hd] at hnone
      cases hnone
    have hdir := Inside.directory hd
    refine ⟨d, since, ?_, ?_, ⟨hne, ?_, rfl⟩, fun p hpath hfinal => ?_, ?_, hq, hp⟩
    · exact (Finmap.lookup_insert _).trans (congrArg some hdir)
    · exact (Finmap.lookup_insert_of_ne _ hne.symm).trans (Finmap.lookup_erase _ _)
    · rw [← hothers _ hne, hnone]
    · refine (Finmap.lookup_insert_of_ne _ hfinal).trans ?_
      rw [Finmap.lookup_erase_ne hpath, hothers p hpath]
    · dsimp only
      rw [hdir, ht]
  · refine (congrArg (Outcome _ _) (bind_error (require_neg ?_))).mpr hw.weaken
    rw [decide_eq_true_iff]
    exact hfree

/-- The pulls that reported success, with what each left at its target. -/
def delivered (apkPaths : List Text) (contents : List κ) : List (Pull κ) :=
  List.zipWith (fun apkPath c => (apkPath, true, some c)) apkPaths contents

variable {apkPaths : List Text}

theorem delivered_add {contents : List κ} (h : contents.length < apkPaths.length) (c : κ) :
    delivered (apkPaths.take contents.length) contents ++ [(apkPaths[contents.length], true, some c)] =
      delivered (apkPaths.take (contents.length + 1)) (contents ++ [c]) := by
  rw [delivered, delivered, List.take_succ_eq_append_getElem h, List.zipWith_append]
  · rfl
  · exact List.length_take_of_le (by omega)

/-- The first `m` files are there. -/
def Filled (s : Nat → Text) (apkPaths : List Text) (m : Nat) (d : Directory κ)
    (pulls : List (Pull κ)) (icon : Bool) : Prop :=
  icon = false ∧ ∃ contents, contents.length = m ∧ Copied s contents d ∧
    pulls = delivered (apkPaths.take m) contents

def Recorded (r : Request) (apkFiles : List Text) (m : Metadata) : Prop :=
  m.packageName = r.app.packageName ∧ m.apkFiles = apkFiles ∧ m.apkFilename = apkFiles.headD []

/-- The last two files are written over whatever has their names. -/
def Finished (r : Request) (apkFiles : List Text) (before d : Directory κ) : Prop :=
  ∃ log m, Recorded r apkFiles m ∧
    d = (before.insert LOG_NAME (.log log)).insert METADATA_NAME (.metadata m)

def fileNames (s : Nat → Text) (m : Nat) : List Text := (List.range m).map (target s)

theorem getElem_fileNames {s : Nat → Text} {n j : Nat} (h : j < (fileNames s n).length) :
    (fileNames s n)[j] = target s j := by
  simp [fileNames]

theorem length_fileNames (s : Nat → Text) (n : Nat) : (fileNames s n).length = n := by
  simp [fileNames]

theorem mem_fileNames {s : Nat → Text} {n : Nat} {x : Text} :
    x ∈ fileNames s n ↔ ∃ j < n, target s j = x := by
  rw [fileNames, List.mem_map]
  simp only [List.mem_range]

theorem nodup_fileNames_iff {s : Nat → Text} (n : Nat) :
    (fileNames s n).Nodup ↔ ∀ i < n, ¬ Clash s i := by
  rw [fileNames, List.nodup_map_iff_inj_on List.nodup_range]
  simp only [List.mem_range]
  constructor
  · intro h i hi hc
    obtain ⟨j, hj, he⟩ := (clash_iff i).mp hc
    exact absurd (h j (hj.trans hi) i hi he) (Nat.ne_of_lt hj)
  · exact fun h i hi j hj he => target_injOn h hi hj he

theorem Finished.lookup_metadata {r : Request} {apkFiles : List Text} {before d : Directory κ}
    (h : Finished r apkFiles before d) :
    ∃ m, d.lookup METADATA_NAME = some (.metadata m) ∧ Recorded r apkFiles m := by
  obtain ⟨log, m, hm, rfl⟩ := h
  exact ⟨m, Finmap.lookup_insert _, hm⟩

theorem Finished.lookup_of_ne {r : Request} {apkFiles : List Text} {before d : Directory κ}
    (h : Finished r apkFiles before d) {x : Text} (hlog : x ≠ LOG_NAME) (hmeta : x ≠ METADATA_NAME) :
    d.lookup x = before.lookup x := by
  obtain ⟨log, m, hm, rfl⟩ := h
  rw [Finmap.lookup_insert_of_ne _ hmeta, Finmap.lookup_insert_of_ne _ hlog]

theorem Finished.lookup_log {r : Request} {apkFiles : List Text} {before d : Directory κ}
    (h : Finished r apkFiles before d) : ∃ log, d.lookup LOG_NAME = some (.log log) := by
  obtain ⟨log, m, hm, rfl⟩ := h
  exact ⟨log, (Finmap.lookup_insert_of_ne _ (by decide)).trans (Finmap.lookup_insert _)⟩

theorem Finished.lookup_icon {r : Request} {apkFiles : List Text} {before d : Directory κ}
    (h : Finished r apkFiles (before.insert ICON_NAME .icon) d) :
    d.lookup ICON_NAME = some .icon :=
  (h.lookup_of_ne (by decide) (by decide)).trans (Finmap.lookup_insert _)

theorem lookup_copied {contents : List κ} {before d : Directory κ} {icon : Bool}
    {apkFiles : List Text} (hcopied : Copied s contents before)
    (hfinished : Finished r apkFiles (if icon = true then before.insert ICON_NAME .icon else before) d)
    (hclash : ∀ i < contents.length, ¬ Clash s i) (j : Nat) (hj : j < contents.length)
    (hne : target s j ≠ LOG_NAME ∧ target s j ≠ METADATA_NAME ∧
      (icon = true → target s j ≠ ICON_NAME)) :
    d.lookup (target s j) = some (.apk contents[j]) := by
  obtain ⟨hlog, hmeta, hicon⟩ := hne
  rw [hfinished.lookup_of_ne hlog hmeta]
  have hlast : before.lookup (target s j) = some (.apk contents[j]) :=
    hcopied.lookup j hj (fun i hi hlt he =>
      absurd (target_injOn hclash hi hj he) (Nat.ne_of_gt hlt))
  cases icon with
  | false => exact hlast
  | true => exact (Finmap.lookup_insert_of_ne _ (hicon rfl)).trans hlast

def Whole (r : Request) (s : Nat → Text) (apkPaths : List Text) (d : Directory κ)
    (pulls : List (Pull κ)) (icon : Bool) : Prop :=
  ∃ contents before, contents.length = apkPaths.length ∧ Copied s contents before ∧
    pulls = delivered apkPaths contents ∧ Finished r (fileNames s apkPaths.length)
      (if icon = true then before.insert ICON_NAME .icon else before) d

/-- The pull after the first ones failed, or it left no file. -/
def Cut (r : Request) (s : Nat → Text) (apkPaths : List Text) (d : Directory κ)
    (pulls : List (Pull κ)) (_ : Bool) : Prop :=
  ∃ contents before success leaves, ∃ h : contents.length < apkPaths.length,
    Copied s contents before ∧ (success = true → leaves = none) ∧
    pulls = delivered (apkPaths.take contents.length) contents ++
      [(apkPaths[contents.length], success, leaves)] ∧
    Finished r (fileNames s contents.length) (leave before (target s contents.length) leaves) d

def CutPublished (r : Request) (s : Nat → Text) (apkPaths : List Text) (w₀ : World κ)
    (path : Text × Text) (base : List (Event κ)) (w : World κ) : Prop :=
  ∃ final, Published w₀ path base (Cut r s apkPaths) final w

theorem writeMetadata_meets (apkFiles : List Text) (iconFilename status : Text) :
    Meets (Inside w₀ path base P) (writeMetadata host r path apkFiles iconFilename status)
      (fun _ => Inside w₀ path base (fun d' pulls icon => ∃ d m, P d pulls icon ∧
        Recorded r apkFiles m ∧ d' = d.insert METADATA_NAME (.metadata m)))
      (Stopped w₀ path base F) := by
  refine Meets.bind (Q := fun _ => Inside w₀ path base P) (Meets.read fun _ h => h) (fun date => ?_)
  refine (writeText_meets _ _).mono (fun _ h => h) (fun _ _ h => h.mono ?_) (fun _ _ h => h)
  rintro d' pulls icon ⟨d, hp, rfl⟩
  exact ⟨d, _, hp, ⟨rfl, rfl, rfl⟩, rfl⟩

theorem publishFailure_meets (timestamp filename : Text) (logs apkFiles : List Text)
    (result : CommandResult) {P' : Directory κ → List (Pull κ) → Bool → Prop}
    (hP : ∀ d d' pulls icon, P d pulls icon → Finished r apkFiles d d' → P' d' pulls icon) :
    Meets (Inside w₀ path base P)
      (publishFailure host r path timestamp filename logs apkFiles result)
      (fun _ _ => False)
      (Stopped w₀ path base (fun w => ∃ final, Published w₀ path base P' final w)) := by
  refine (checkpoint_meets _).bind (fun _ => (writeText_meets _ _).bind (fun _ => ?_))
  refine (checkpoint_meets _).bind (fun _ => (writeMetadata_meets _ _ _).bind (fun _ => ?_))
  refine (checkpoint_meets _).bind (fun _ => (publish_meets _).bind (fun final => ?_))
  refine Meets.raise (fun w h => ⟨final, ?_⟩)
  obtain ⟨d, since, hd, hpath, hfinal, hothers, ht, hq, d1, m, ⟨d0, hp, rfl⟩, hm, rfl⟩ := h
  exact ⟨_, since, hd, hpath, hfinal, hothers, ht, hq, hP _ _ _ _ hp ⟨_, m, hm, rfl⟩⟩

theorem chooseTarget_meets {m : Nat} :
    Meets (Inside w₀ path base (Filled s apkPaths m)) (chooseTarget host path (m + 1) (s m))
      (fun name w => name = target s m ∧ Inside w₀ path base (Filled s apkPaths m) w)
      (Stopped w₀ path base F) := by
  refine (fileExists_meets _).bind (fun used => Meets.pure fun w h => ?_)
  obtain ⟨d, since, hd, hothers, ht, hq, hp, hused⟩ := h
  refine ⟨?_, d, since, hd, hothers, ht, hq, hp⟩
  obtain ⟨-, contents, hlen, hcopied, -⟩ := hp
  rw [hcopied.mem_name, hlen] at hused
  rw [target]
  by_cases h : Used s m (s m)
  · rw [if_pos h, if_pos (hused.mpr h)]
  · rw [if_neg h, if_neg (fun hu => h (hused.mp hu))]

/-- The loop goes on exactly after a pull that reported success and left a file. -/
theorem copySucceeded_meets {m : Nat} (name : Text) (hname : ¬ isDots name)
    (result : CommandResult) (apkPath : Text) :
    Meets (Inside w₀ path base (fun d' pulls' icon => ∃ d pulls leaves,
        Filled s apkPaths m d pulls icon ∧ d' = leave d name leaves ∧
        pulls' = pulls ++ [(apkPath, result.success, leaves)]))
      (copySucceeded host path name result)
      (fun copied => Inside w₀ path base (fun d' pulls' icon => ∃ d pulls success leaves,
        Filled s apkPaths m d pulls icon ∧ d' = leave d name leaves ∧
        pulls' = pulls ++ [(apkPath, success, leaves)] ∧
        (copied = true ↔ success = true ∧ leaves.isSome)))
      (Stopped w₀ path base F) := by
  refine Meets.ite (fun hsuccess => ?_) (fun hsuccess => Meets.pure fun w h => h.mono ?_)
  · refine (fileExists_meets name).mono (fun _ h => h) (fun found w h => h.mono ?_) (fun _ _ h => h)
    rintro d' pulls' icon ⟨⟨d, pulls, leaves, hp, rfl, rfl⟩, hfound⟩
    refine ⟨d, pulls, _, leaves, hp, rfl, rfl, hfound.trans ?_⟩
    cases leaves with
    | none => simp [hname, leave, Finmap.mem_erase]
    | some c => simp [hsuccess, leave, Finmap.mem_insert]
  · rintro d' pulls' icon ⟨d, pulls, leaves, hp, hd, hpulls⟩
    exact ⟨d, pulls, _, leaves, hp, hd, hpulls, by simp [hsuccess]⟩

theorem fileNames_succ (s : Nat → Text) (m : Nat) :
    fileNames s m ++ [target s m] = fileNames s (m + 1) := by
  rw [fileNames, fileNames, List.range_succ, List.map_append]
  rfl

theorem drop_cons {m : Nat} {apkPath : Text} {rest : List Text}
    (h : apkPaths.drop m = apkPath :: rest) :
    ∃ hm : m < apkPaths.length, apkPath = apkPaths[m] ∧ apkPaths.drop (m + 1) = rest := by
  have hm : m < apkPaths.length := by
    by_contra hle
    rw [List.drop_eq_nil_iff.mpr (by omega)] at h
    cases h
  rw [List.drop_eq_getElem_cons hm] at h
  injection h with h1 h2
  exact ⟨hm, h1.symm, h2⟩

theorem copyApks_meets {timestamp : Text} (hs : s = names u apkPaths) (rest : List Text) :
    ∀ (m : Nat) (logs : List Text), apkPaths.drop m = rest → m ≤ apkPaths.length →
      Meets (Inside w₀ path base (Filled s apkPaths m))
        (copyApks u host r path timestamp (m + 1) logs (fileNames s m) rest)
        (fun out w => out.2 = fileNames s apkPaths.length ∧
          Inside w₀ path base (Filled s apkPaths apkPaths.length) w)
        (Stopped w₀ path base (CutPublished r s apkPaths w₀ path base)) := by
  induction rest with
  | nil =>
    intro m logs hdrop hle
    have hm : m = apkPaths.length := le_antisymm hle (List.drop_eq_nil_iff.mp hdrop)
    subst hm
    exact Meets.pure (fun w h => ⟨rfl, h⟩)
  | cons apkPath rest ih =>
    intro m logs hdrop hle
    obtain ⟨hm, rfl, hrest⟩ := drop_cons hdrop
    have hname : safeFilename u (apkName (m + 1) apkPaths[m]) = s m := by
      rw [hs, names, List.getD_eq_getElem?_getD, List.getElem?_eq_getElem hm]
      rfl
    refine (checkpoint_meets _).bind (fun _ => ?_)
    dsimp only
    rw [hname]
    refine chooseTarget_meets.bind (fun name => Meets.of_fact fun htarget => ?_)
    have hdots : ¬ isDots name := htarget ▸ hs ▸ (plain_target apkPaths m).no_dots
    refine (pullApk_meets _ _ _).bind (fun result => (checkpoint_meets _).bind (fun _ => ?_))
    refine (copySucceeded_meets name hdots result apkPaths[m]).bind (fun copied => ?_)
    cases copied with
    | true =>
      rw [if_pos rfl, htarget, fileNames_succ]
      refine (ih (m + 1) _ hrest hm).mono (fun w h => h.mono ?_) (fun _ _ h => h) (fun _ _ h => h)
      rintro d' pulls' icon ⟨d, pulls, success, leaves, hp, rfl, rfl, hsome⟩
      obtain ⟨hicon, contents, rfl, hcopied, rfl⟩ := hp
      obtain ⟨hsuccess, hleaves⟩ := hsome.mp rfl
      obtain ⟨c, rfl⟩ := Option.isSome_iff_exists.mp hleaves
      refine ⟨hicon, contents ++ [c], by simp, hcopied.add c, ?_⟩
      rw [hsuccess, delivered_add hm]
    | false =>
      rw [if_neg Bool.false_ne_true]
      refine (publishFailure_meets _ _ _ _ _ ?_).mono (fun _ h => h) (fun _ _ h => h.elim)
        (fun _ _ h => h)
      rintro d' d'' pulls' icon ⟨d, pulls, success, leaves, hp, rfl, rfl, hsome⟩ hfinished
      obtain ⟨hicon, contents, rfl, hcopied, rfl⟩ := hp
      refine ⟨contents, d, success, leaves, hm, hcopied, fun hsuccess => ?_, rfl, htarget ▸ hfinished⟩
      cases leaves with
      | none => rfl
      | some c => exact absurd (hsome.mpr ⟨hsuccess, rfl⟩) Bool.false_ne_true

theorem fillBackup_meets (timestamp : Text) (apkPaths : List Text) :
    Meets (Inside w₀ path base (Filled (names u apkPaths) apkPaths 0))
      (fillBackup u host r path timestamp apkPaths)
      (fun final => Published w₀ path base (Whole r (names u apkPaths) apkPaths) final)
      (Stopped w₀ path base (CutPublished r (names u apkPaths) apkPaths w₀ path base)) := by
  refine (checkpoint_meets _).bind (fun _ => ?_)
  refine (copyApks_meets rfl apkPaths 0 [] rfl (Nat.zero_le _)).bind
    (fun out => Meets.of_fact fun hfiles => ?_)
  refine (checkpoint_meets _).bind (fun _ => ?_)
  refine Meets.bind ((copyIcon_meets (P := Filled (names u apkPaths) apkPaths apkPaths.length)
    r.iconPath).mono (fun w h => h.mono fun _ _ _ hp => ⟨hp, hp.1⟩) (fun _ _ h => h)
    (fun _ _ h => h)) (fun iconFilename => ?_)
  refine (checkpoint_meets _).bind (fun _ => (writeText_meets _ _).bind (fun _ => ?_))
  refine (checkpoint_meets _).bind (fun _ => (writeMetadata_meets _ _ _).bind (fun _ => ?_))
  refine (checkpoint_meets _).bind (fun _ => ?_)
  refine (publish_meets timestamp).mono (fun _ h => h) (fun final w h => ?_) (fun _ _ h => h)
  obtain ⟨d, since, hd, hpath, hfinal, hothers, ht, hq, hp⟩ := h
  obtain ⟨d1, m, ⟨d0, ⟨before, ⟨-, contents, hlen, hcopied, hpulls⟩, rfl⟩, rfl⟩, hm, rfl⟩ := hp
  refine ⟨_, since, hd, hpath, hfinal, hothers, ht, hq, contents, before, hlen, hcopied, ?_, _, m,
    hfiles ▸ hm, rfl⟩
  rw [hpulls, List.take_length]

/-- Events that publish nothing and change no package. -/
def Mild : Event κ → Prop
  | .polled _ | .verified | .operation | .reported _ _ | .pulled _ _ _ | .iconWritten => True
  | _ => False

theorem Neutral.mild {e : Event κ} (h : Neutral e) : Mild e := by
  cases e <;> first | exact trivial | exact h

theorem Quiet.mild {e : Event κ} (h : Quiet e) : Mild e := by
  cases e <;> first | exact trivial | exact h

/-- No backup is new; a partial directory may be left. -/
def NothingMade (w₀ w : World κ) : Prop :=
  (∃ since, w.trace = since ++ w₀.trace ∧ ∀ e ∈ since, Mild e) ∧
    ∀ p, ¬ PARTIAL <+: p.2 → w.root.lookup p = w₀.root.lookup p

/-- `fresh_paths or app.apk_paths` -/
def usedPaths (app : AppInfo) (freshPaths : List Text) : List Text :=
  if freshPaths ≠ [] then freshPaths else app.apkPaths

/-- One backup is new, and nothing else has changed. -/
def BackupMade (u : UnicodeData) (r : Request)
    (C : Request → (Nat → Text) → List Text → Directory κ → List (Pull κ) → Bool → Prop)
    (w₀ w : World κ) : Prop :=
  ∃ later since before freshPaths final d,
    w.trace = later ++ .published final d ::
      (since ++ .reported r.app.packageName freshPaths :: (before ++ w₀.trace)) ∧
    ((∀ e ∈ later, Neutral e) ∧ (∀ e ∈ since, Quiet e) ∧ ∀ e ∈ before, Neutral e) ∧
    final.1 = safeFilename u r.app.packageName ∧
    (w₀.root.lookup final = none ∧ w.root.lookup final = some d ∧
      ∀ p, p ≠ final → w.root.lookup p = w₀.root.lookup p) ∧
    C r (names u (usedPaths r.app freshPaths)) (usedPaths r.app freshPaths) d (pullsOf since)
      (iconTouched since)

def Ended (u : UnicodeData) (r : Request) (w₀ : World κ) : Stop → World κ → Prop
  | .refused _, w => NothingMade w₀ w
  | .failed _, w => BackupMade u r Cut w₀ w
  | .fault _, w => NothingMade w₀ w ∨ BackupMade u r Whole w₀ w

def Begun (w₀ w : World κ) : Prop :=
  (∃ before, w.trace = before ++ w₀.trace ∧ ∀ e ∈ before, Neutral e) ∧ w.root = w₀.root

def Asked (w₀ : World κ) (packageName : Text) (freshPaths : List Text) (w : World κ) : Prop :=
  (∃ since before, w.trace = since ++ .reported packageName freshPaths :: (before ++ w₀.trace) ∧
    (∀ e ∈ since, Neutral e) ∧ ∀ e ∈ before, Neutral e) ∧ w.root = w₀.root

theorem neutral_cons {e : Event κ} {since : List (Event κ)} (he : Neutral e)
    (h : ∀ e ∈ since, Neutral e) : ∀ e' ∈ e :: since, Neutral e' :=
  List.forall_mem_cons.mpr ⟨he, h⟩

theorem Begun.stable : Stable (Begun w₀) := by
  rintro w e he ⟨⟨before, ht, hb⟩, hroot⟩
  exact ⟨⟨e :: before, congrArg (List.cons e) ht, neutral_cons he hb⟩, hroot⟩

theorem Asked.stable {packageName : Text} {freshPaths : List Text} :
    Stable (Asked w₀ packageName freshPaths) := by
  rintro w e he ⟨⟨since, before, ht, hs, hb⟩, hroot⟩
  exact ⟨⟨e :: since, before, congrArg (List.cons e) ht, neutral_cons he hs, hb⟩, hroot⟩

theorem Begun.nothing {w : World κ} (h : Begun w₀ w) : NothingMade w₀ w := by
  obtain ⟨⟨before, ht, hb⟩, hroot⟩ := h
  exact ⟨⟨before, ht, fun e he => (hb e he).mild⟩, fun p _ => by rw [hroot]⟩

theorem mild_asked {packageName : Text} {freshPaths : List Text} {since before : List (Event κ)}
    (hs : ∀ e ∈ since, Mild e) (hb : ∀ e ∈ before, Neutral e) :
    ∀ e ∈ since ++ .reported packageName freshPaths :: before, Mild e := by
  intro e he
  rw [List.mem_append, List.mem_cons] at he
  obtain he | rfl | he := he
  · exact hs e he
  · trivial
  · exact (hb e he).mild

theorem Asked.nothing {packageName : Text} {freshPaths : List Text} {w : World κ}
    (h : Asked w₀ packageName freshPaths w) : NothingMade w₀ w := by
  obtain ⟨⟨since, before, ht, hs, hb⟩, hroot⟩ := h
  refine ⟨⟨since ++ .reported packageName freshPaths :: before, ?_,
    mild_asked (fun e he => (hs e he).mild) hb⟩, fun p _ => by rw [hroot]⟩
  rw [ht, List.append_assoc, List.cons_append]

theorem Inside.nothing {packageName : Text} {freshPaths : List Text} {before : List (Event κ)}
    {w : World κ} (h : Inside w₀ path (.reported packageName freshPaths :: (before ++ w₀.trace)) P w)
    (hpath : PARTIAL <+: path.2) (hb : ∀ e ∈ before, Neutral e) : NothingMade w₀ w := by
  obtain ⟨d, since, hd, hothers, ht, hq, -⟩ := h
  refine ⟨⟨since ++ .reported packageName freshPaths :: before, ?_,
    mild_asked (fun e he => (hq e he).mild) hb⟩, fun p hp => hothers p ?_⟩
  · rw [ht, List.append_assoc, List.cons_append]
  · rintro rfl
    exact hp hpath

/-- Discarding a partial directory changes nothing that counts. -/
theorem NothingMade.discard {w : World κ} (h : NothingMade w₀ w) (hpath : PARTIAL <+: path.2) :
    NothingMade w₀ (discardPartialBackup host path w) := by
  obtain ⟨⟨since, ht, hs⟩, hroot⟩ := h
  have htrace : (.operation :: w.trace) = (.operation :: since) ++ w₀.trace := congrArg (_ :: ·) ht
  have hmild : ∀ e ∈ (.operation :: since : List (Event κ)), Mild e :=
    List.forall_mem_cons.mpr ⟨trivial, hs⟩
  rw [discardPartialBackup]
  cases host.fault w with
  | some f => exact ⟨⟨_, htrace, hmild⟩, hroot⟩
  | none =>
    refine ⟨⟨_, htrace, hmild⟩, fun p hp => ?_⟩
    refine (Finmap.lookup_erase_ne ?_).trans (hroot p hp)
    rintro rfl
    exact hp hpath

theorem pullsOf_of_neutral {since : List (Event κ)} (h : ∀ e ∈ since, Neutral e) :
    pullsOf since = [] ∧ iconTouched since = false := by
  induction since with
  | nil => exact ⟨rfl, rfl⟩
  | cons e since ih =>
    obtain ⟨he, hs⟩ := List.forall_mem_cons.mp h
    rw [pullsOf_neutral he, iconTouched_neutral he]
    exact ih hs

theorem makeTemporary_meets {packageName packageDir : Text} {freshPaths : List Text}
    (s : Nat → Text) (apkPaths : List Text) (timestamp : Text) :
    Meets (Asked w₀ packageName freshPaths) (makeTemporary host packageDir timestamp)
      (fun path w => (path.1 = packageDir ∧ PARTIAL <+: path.2 ∧ w₀.root.lookup path = none) ∧
        ∃ before, (∀ e ∈ before, Neutral e) ∧
          Inside w₀ path (.reported packageName freshPaths :: (before ++ w₀.trace))
            (Filled s apkPaths 0) w)
      (Ended u r w₀) := by
  refine (Asked.stable.operation fun _ _ h => .inl h.nothing).bind (fun _ => ?_)
  intro w hw
  refine Outcome.bind_ok (read_run _ w) (Outcome.bind_ok (read_run _ w) ?_)
  by_cases hfree : (packageDir, partialLead timestamp ++ host.temporary w) ∉ w.root
  · refine Outcome.bind_ok (require_pos (decide_eq_true hfree)) ?_
    obtain ⟨⟨since, before, ht, hs, hb⟩, hroot⟩ := hw
    refine ⟨⟨rfl, ⟨timestamp ++ ['-'] ++ host.temporary w, by simp [partialLead]⟩, ?_⟩, before, hb,
      ∅, since, Finmap.lookup_insert _, fun p hp => ?_, ht, fun e he => (hs e he).quiet, ?_⟩
    · rw [← hroot]
      exact Finmap.lookup_eq_none.mpr hfree
    · rw [lookup_store_of_ne _ hp, hroot]
    · obtain ⟨hpulls, hicon⟩ := pullsOf_of_neutral hs
      rw [hpulls]
      exact ⟨hicon, [], rfl, Copied.empty s, rfl⟩
  · refine (congrArg (Outcome _ _) (bind_error (require_neg ?_))).mpr (.inl hw.nothing)
    rw [decide_eq_true_iff]
    exact hfree

theorem Published.made {freshPaths : List Text} {before : List (Event κ)}
    {w : World κ} {final : Text × Text}
    {C : Request → (Nat → Text) → List Text → Directory κ → List (Pull κ) → Bool → Prop}
    (hdir : path.1 = safeFilename u r.app.packageName) (hnone : w₀.root.lookup path = none)
    (hb : ∀ e ∈ before, Neutral e)
    (h : Published w₀ path (.reported r.app.packageName freshPaths :: (before ++ w₀.trace))
      (C r (names u (usedPaths r.app freshPaths)) (usedPaths r.app freshPaths)) final w) :
    BackupMade u r C w₀ w := by
  obtain ⟨d, since, hd, hgone, ⟨hne, hfree, hparent⟩, hothers, ht, hq, hc⟩ := h
  refine ⟨[], since, before, freshPaths, final, d, ht, ⟨by simp, hq, hb⟩, hparent.trans hdir,
    ⟨hfree, hd, fun p hp => ?_⟩, hc⟩
  by_cases hpath : p = path
  · rw [hpath, hgone, hnone]
  · exact hothers p hpath hp

theorem BackupMade.stable
    {C : Request → (Nat → Text) → List Text → Directory κ → List (Pull κ) → Bool → Prop} :
    Stable (BackupMade u r C w₀) := by
  rintro w e he ⟨later, since, before, freshPaths, final, d, ht, ⟨hl, hq, hb⟩, hrest⟩
  exact ⟨e :: later, since, before, freshPaths, final, d, congrArg (List.cons e) ht,
    ⟨neutral_cons he hl, hq, hb⟩, hrest⟩

theorem discardUnpublished_meets {x : Effect Stop (World κ) (Text × Text)} {S : World κ → Prop}
    {Q : Text × Text → World κ → Prop} {E E' : Stop → World κ → Prop} (hx : Meets S x Q E)
    (hfailed : ∀ message w, E (.failed message) w → E' (.failed message) w)
    (hrefused : ∀ message w, E (.refused message) w →
      E' (.refused message) (discardPartialBackup host path w))
    (hfault : ∀ f w, E (.fault f) w → E' (.fault f) (discardPartialBackup host path w)) :
    Meets S (discardUnpublished host path x) Q E' := by
  intro w hw
  have h := hx w hw
  rw [discardUnpublished]
  cases hrun : x w with
  | mk out t =>
    rw [hrun] at h
    cases out with
    | ok a => exact h
    | error stop =>
      cases stop with
      | fault f => exact hfault f t h
      | refused message => exact hrefused message t h
      | failed message => exact hfailed message t h

theorem fillOrDiscard_meets {freshPaths : List Text} (timestamp : Text) {before : List (Event κ)}
    (hdir : path.1 = safeFilename u r.app.packageName) (hpath : PARTIAL <+: path.2)
    (hnone : w₀.root.lookup path = none) (hb : ∀ e ∈ before, Neutral e) :
    Meets (Inside w₀ path (.reported r.app.packageName freshPaths :: (before ++ w₀.trace))
        (Filled (names u (usedPaths r.app freshPaths)) (usedPaths r.app freshPaths) 0))
      (discardUnpublished host path
        (fillBackup u host r path timestamp (usedPaths r.app freshPaths)))
      (fun final w => BackupMade u r Whole w₀ w ∧ final.1 = path.1) (Ended u r w₀) := by
  refine discardUnpublished_meets
    (Q := fun final w => BackupMade u r Whole w₀ w ∧ final.1 = path.1)
    ((fillBackup_meets timestamp (usedPaths r.app freshPaths)).mono (fun _ h => h)
      (fun final w h => ⟨h.made hdir hnone hb, ?_⟩) (fun _ _ h => h))
    (fun message w h => ?_) (fun message w h => ?_) (fun f w h => .inl ?_)
  · obtain ⟨-, -, -, -, ⟨-, -, hparent⟩, -⟩ := h
    exact hparent
  · obtain ⟨final, h⟩ := h
    exact h.made hdir hnone hb
  · exact (Inside.nothing (P := fun _ _ _ => True) h hpath hb).discard hpath
  · exact (Inside.nothing (P := fun _ _ _ => True) h hpath hb).discard hpath

theorem readPublished_meets (final : Text × Text) :
    Meets (BackupMade u r Whole w₀) (readPublished host final) (fun _ => BackupMade u r Whole w₀)
      (Ended u r w₀) := by
  intro w hw
  have hrecord := BackupMade.stable w .operation trivial hw
  rw [readPublished]
  cases host.fault w with
  | none => exact hrecord
  | some f =>
    cases f with
    | osError => exact hrecord
    | other => exact .inr hrecord

theorem getPackagePath_meets (packageName : Text) :
    Meets (Begun w₀) (getPackagePath host packageName)
      (fun freshPaths => Asked w₀ packageName freshPaths) (Ended u r w₀) := by
  intro w hw
  have hrecord := Begun.stable w .operation trivial hw
  obtain ⟨⟨before, ht, hb⟩, hroot⟩ := hw
  rw [getPackagePath]
  cases host.packagePaths w packageName with
  | ok freshPaths => exact ⟨⟨[], before, congrArg (List.cons _) ht, by simp, hb⟩, hroot⟩
  | error f => exact .inl hrecord.nothing

theorem runBackup_meets :
    Meets (fun w => w = w₀) (runBackup u host r) (fun _ => BackupMade u r Whole w₀)
      (Ended u r w₀) := by
  have hstart : Meets (Begun w₀) (runBackup u host r) (fun _ => BackupMade u r Whole w₀)
      (Ended u r w₀) := by
    refine (Begun.stable.checkpoint (fun _ _ h => h.nothing) _).bind (fun _ => ?_)
    refine (Begun.stable.operation (fun _ _ h => .inl h.nothing)).bind (fun _ => ?_)
    refine (Begun.stable.checkpoint (fun _ _ h => h.nothing) _).bind (fun _ => ?_)
    refine (getPackagePath_meets _).bind (fun freshPaths => ?_)
    refine (Asked.stable.checkpoint (fun _ _ h => h.nothing) _).bind (fun _ => ?_)
    refine Meets.bind (Q := fun _ => Asked w₀ r.app.packageName freshPaths)
      (Meets.require (fun _ _ h => h) (fun _ _ h => h.nothing)) (fun _ => ?_)
    refine (Asked.stable.checkpoint (fun _ _ h => h.nothing) _).bind (fun _ => ?_)
    refine Meets.bind (Q := fun _ => Asked w₀ r.app.packageName freshPaths)
      (Meets.read fun _ h => h) (fun timestamp => ?_)
    refine (Asked.stable.operation (fun _ _ h => .inl h.nothing)).bind (fun _ => ?_)
    refine (makeTemporary_meets (names u (usedPaths r.app freshPaths))
      (usedPaths r.app freshPaths) timestamp).bind (fun path => Meets.of_fact fun hpath => ?_)
    refine Meets.of_exists fun before => Meets.of_fact fun hb => ?_
    refine Meets.bind (fillOrDiscard_meets timestamp hpath.1 hpath.2.1 hpath.2.2 hb) (fun final => ?_)
    exact (readPublished_meets final).mono (fun _ h => h.1) (fun _ _ h => h) (fun _ _ h => h)
  exact hstart.mono (fun w hw => hw ▸ ⟨⟨[], rfl, by simp⟩, rfl⟩) (fun _ _ h => h) (fun _ _ h => h)

/-- A run reports success only after it published a whole backup. -/
theorem createBackup_meets :
    Meets (fun w => w = w₀) (createBackup u host r)
      (fun out w => (out.1 = true → BackupMade u r Whole w₀ w) ∧
        (out.1 = false → NothingMade w₀ w ∨ BackupMade u r Cut w₀ w))
      (fun _ w => NothingMade w₀ w ∨ BackupMade u r Whole w₀ w) := by
  intro w hw
  have h : Outcome (fun _ => BackupMade u r Whole w₀) (Ended u r w₀) (runBackup u host r w) :=
    runBackup_meets w hw
  rw [createBackup]
  cases hrun : runBackup u host r w with
  | mk out t =>
    rw [hrun] at h
    cases out with
    | ok backup => exact ⟨fun _ => h, nofun⟩
    | error stop =>
      cases stop with
      | fault f => exact h
      | refused message => exact ⟨nofun, fun _ => .inl h⟩
      | failed message => exact ⟨nofun, fun _ => .inr h⟩

end OpenAdb.Backup.Contents
