import OpenAdb.Transfer.FolderPush

namespace OpenAdb.Transfer.FolderRepair

open OpenAdb.Lib.PyText OpenAdb.Lib.HostPath OpenAdb.Transfer.FolderPush
open OpenAdb.Commands.Results (CommandResult classifyError)
open OpenAdb.Files.Listing (joinAndroidPath)

variable (w : World) (sourceRoot : PurePath) (destination : Text) (useRoot : Bool) (ending : Ending)

/-- The output says that a path could not be read. -/
def Reported (result : CommandResult) (path : Text) : Prop := lstatFailed ++ path ++ ['\''] <:+: output result

/-- A text is the path of something that exists below the folder. -/
def Below (path : Text) (relative : List Text) : Prop :=
  relative ≠ [] ∧ purePath w.host path = { sourceRoot with parts := sourceRoot.parts ++ relative } ∧
    w.isFile (purePath w.host path) ≠ none

/-- The place below the destination that has the same relative path. -/
def ownPlace (relative : List Text) : Text :=
  joinAndroidPath (joinAndroidPath destination (pathName sourceRoot)) (['/'].intercalate relative)

/-- Whatever exists of the reported paths was sent to its own place. -/
def Complete (push : Push) : Prop :=
  ∀ path relative, Reported (pushStreaming w ending) path → Below w sourceRoot path relative →
    ∃ request, (request, true) ∈ push.streams ∧ request.source = purePath w.host path ∧
      request.target = ownPlace sourceRoot destination relative

def Truthful (result : CommandResult) : Prop := "Success".toList <+: result.status → result.success = true

/-- A text that the pattern reads leads to the file, and no file that it leads to before has the same key. -/
def Found (path : PurePath) : Prop :=
  ∃ before after, (candidates w (pushStreaming w ending)).filterMap (localFile w) = before ++ path :: after ∧
    ∀ other ∈ before, key w other ≠ key w path

def Repaired (path : PurePath) : Prop := w.stream (repairRequest w sourceRoot destination useRoot path) = true

section Unseen

variable {w} {seen : List Text} {paths : List PurePath} {path : PurePath}

theorem mem_unseen : path ∈ unseen w seen paths ↔
    key w path ∉ seen ∧ ∃ before after, paths = before ++ path :: after ∧
      ∀ other ∈ before, key w other ≠ key w path := by
  induction paths generalizing seen with
  | nil => simp [unseen]
  | cons first paths ih =>
    have hsplit : (∃ before after, first :: paths = before ++ path :: after ∧
        ∀ other ∈ before, key w other ≠ key w path) ↔
        first = path ∨ key w first ≠ key w path ∧ ∃ before after, paths = before ++ path :: after ∧
          ∀ other ∈ before, key w other ≠ key w path := by
      constructor
      · rintro ⟨before, after, heq, hother⟩
        cases before with
        | nil => exact Or.inl (List.cons.inj heq).1
        | cons other before =>
          obtain ⟨rfl, htail⟩ := List.cons.inj heq
          obtain ⟨hfirst, hbefore⟩ := List.forall_mem_cons.mp hother
          exact Or.inr ⟨hfirst, before, after, htail, hbefore⟩
      · rintro (rfl | ⟨hfirst, before, after, heq, hother⟩)
        · exact ⟨[], paths, rfl, fun _ h => absurd h List.not_mem_nil⟩
        · exact ⟨first :: before, after, by rw [heq]; rfl, List.forall_mem_cons.mpr ⟨hfirst, hother⟩⟩
    rw [unseen, hsplit]
    by_cases hseen : key w first ∈ seen
    · rw [if_pos hseen, ih]
      constructor
      · rintro ⟨hkey, hrest⟩
        exact ⟨hkey, Or.inr ⟨fun heq => hkey (heq ▸ hseen), hrest⟩⟩
      · rintro ⟨hkey, rfl | ⟨_, hrest⟩⟩
        · exact absurd hseen hkey
        · exact ⟨hkey, hrest⟩
    · rw [if_neg hseen, List.mem_cons, ih, List.mem_cons]
      constructor
      · rintro (rfl | ⟨hkey, hrest⟩)
        · exact ⟨hseen, Or.inl rfl⟩
        · push Not at hkey
          exact ⟨hkey.2, Or.inr ⟨hkey.1.symm, hrest⟩⟩
      · rintro ⟨hkey, rfl | ⟨hfirst, hrest⟩⟩
        · exact Or.inl rfl
        · refine Or.inr ⟨?_, hrest⟩
          rintro (heq | hmem)
          · exact hfirst heq.symm
          · exact hkey hmem

end Unseen

section Status

variable {w} {sourceRoot} {destination} {useRoot} {ending}

theorem mem_missing {path : PurePath} :
    path ∈ standardPushFailedLocalPaths w (pushStreaming w ending) ↔ Found w ending path := by
  rw [standardPushFailedLocalPaths, mem_unseen, Found]
  exact and_iff_right List.not_mem_nil

theorem head_of_success {status : Text} (h : "Success".toList <+: status) : status.head? = some 'S' := by
  obtain ⟨rest, rfl⟩ := h
  rfl

/-- A failed command is never reported with the word of a successful one. -/
theorem classifyError_status (lower : Text → Text) (text : Text) (exitCode : Int) :
    (classifyError lower text exitCode).1.head? ≠ some 'S' := by
  rw [classifyError]
  split_ifs
  all_goals first | decide | skip
  change some 'C' ≠ some 'S'
  decide

theorem pushStreaming_truthful : Truthful (pushStreaming w ending) := by
  intro h
  have hhead := head_of_success h
  cases ending with
  | exited exitCode stdout stderr =>
    by_cases hcode : exitCode = 0
    · rw [pushStreaming, if_pos hcode]
    · rw [pushStreaming, if_neg hcode] at hhead
      exact absurd hhead (classifyError_status _ _ _)
  | timedOut exitCode stdout stderr timeout =>
    change some 'T' = some 'S' at hhead
    exact absurd hhead (by decide)
  | stopTimedOut stdout stderr =>
    change some 'T' = some 'S' at hhead
    exact absurd hhead (by decide)
  | notFound stdout stderr =>
    change some 'E' = some 'S' at hhead
    exact absurd hhead (by decide)
  | osError stdout stderr =>
    change some 'O' = some 'S' at hhead
    exact absurd hhead (by decide)
  | shuttingDown =>
    change some 'C' = some 'S' at hhead
    exact absurd hhead (by decide)

theorem relativeTo_append (host : Host) (root : PurePath) (relative : List Text) :
    relativeTo host { root with parts := root.parts ++ relative } root = some relative := by
  have hdrop : (root.parts ++ relative).drop root.parts.length = relative := List.drop_left
  have htake : (root.parts ++ relative).take root.parts.length = root.parts := List.take_left
  cases host with
  | posix =>
    rw [relativeTo, if_pos ⟨rfl, rfl, htake⟩]
    exact congrArg some hdrop
  | windows lower canon =>
    rw [relativeTo, if_pos ⟨rfl, rfl, congrArg (List.map lower) htake⟩]
    exact congrArg some hdrop

theorem remoteTarget_of_below {path : Text} {relative : List Text} (h : Below w sourceRoot path relative) :
    remoteTarget w sourceRoot destination (purePath w.host path) = ownPlace sourceRoot destination relative := by
  obtain ⟨hne, hpath, _⟩ := h
  rw [remoteTarget, hpath, relativeTo_append]
  simp only [if_neg hne]
  rfl

theorem run_unchanged (h : ∀ path, ¬ Found w ending path) :
    runEntryCommand w sourceRoot destination useRoot ending = ⟨pushStreaming w ending, []⟩ := by
  have hnone : standardPushFailedLocalPaths w (pushStreaming w ending) = [] :=
    List.eq_nil_iff_forall_not_mem.mpr (fun path hpath => h path (mem_missing.mp hpath))
  rw [runEntryCommand]
  exact if_pos hnone

theorem missing_ne_nil {path : PurePath} (h : Found w ending path) :
    standardPushFailedLocalPaths w (pushStreaming w ending) ≠ [] :=
  List.ne_nil_of_mem (mem_missing.mpr h)

/-- Some file is not repaired. -/
theorem run_failed {path : PurePath} (hfound : Found w ending path)
    (h : ¬ Repaired w sourceRoot destination useRoot path) :
    (runEntryCommand w sourceRoot destination useRoot ending).result.success = false ∧
      (runEntryCommand w sourceRoot destination useRoot ending).result.status.head? = some 'P' := by
  have hfailed : ((repairStandardPushMissingFiles w sourceRoot destination useRoot
      (standardPushFailedLocalPaths w (pushStreaming w ending))).filter (fun stream => !stream.2)).map
        (fun stream => stream.1.source) ≠ [] := by
    apply List.ne_nil_of_mem
    apply List.mem_map_of_mem
    apply List.mem_filter.mpr
    refine ⟨List.mem_map_of_mem (mem_missing.mpr hfound), ?_⟩
    rw [Bool.not_eq_true']
    exact Bool.eq_false_iff.mpr h
  rw [runEntryCommand, if_neg (missing_ne_nil hfound), if_pos hfailed]
  exact ⟨rfl, rfl⟩

/-- Every file that was found is repaired. -/
theorem run_repaired {path : PurePath} (hfound : Found w ending path)
    (h : ∀ path, Found w ending path → Repaired w sourceRoot destination useRoot path) :
    ∃ fixed, runEntryCommand w sourceRoot destination useRoot ending =
      ⟨{ pushStreaming w ending with status := repairedStatus fixed },
        repairStandardPushMissingFiles w sourceRoot destination useRoot
          (standardPushFailedLocalPaths w (pushStreaming w ending))⟩ := by
  have hok : ∀ stream ∈ repairStandardPushMissingFiles w sourceRoot destination useRoot
      (standardPushFailedLocalPaths w (pushStreaming w ending)), stream.2 = true := by
    intro stream hstream
    obtain ⟨path, hpath, rfl⟩ := List.mem_map.mp hstream
    exact h path (mem_missing.mp hpath)
  have hfailed : (repairStandardPushMissingFiles w sourceRoot destination useRoot
      (standardPushFailedLocalPaths w (pushStreaming w ending))).filter (fun stream => !stream.2) = [] :=
    List.filter_eq_nil_iff.mpr (fun stream hstream => by simp [hok stream hstream])
  have hfixed : (repairStandardPushMissingFiles w sourceRoot destination useRoot
      (standardPushFailedLocalPaths w (pushStreaming w ending))).filter (fun stream => stream.2) =
        repairStandardPushMissingFiles w sourceRoot destination useRoot
          (standardPushFailedLocalPaths w (pushStreaming w ending)) := List.filter_eq_self.mpr hok
  have hlength : (repairStandardPushMissingFiles w sourceRoot destination useRoot
      (standardPushFailedLocalPaths w (pushStreaming w ending))).length ≠ 0 := by
    rw [repairStandardPushMissingFiles, List.length_map]
    exact fun hzero => missing_ne_nil hfound (List.length_eq_zero_iff.mp hzero)
  rw [runEntryCommand]
  simp only [hfailed, hfixed]
  rw [if_neg (missing_ne_nil hfound), if_neg (by simp), if_pos hlength]
  exact ⟨_, rfl⟩

end Status

/-- The repair of a folder push is complete and its status truthful exactly when adb itself succeeded, or found
nothing that can be repaired, or a repair fails; and when, where nothing fails, all that exists of the reported paths
is found. -/
theorem repair_truthful_iff :
    ((runEntryCommand w sourceRoot destination useRoot ending).result.success = true →
        Complete w sourceRoot destination ending (runEntryCommand w sourceRoot destination useRoot ending)) ∧
      Truthful (runEntryCommand w sourceRoot destination useRoot ending).result ↔
    ((pushStreaming w ending).success = true ∨ (∀ path, ¬ Found w ending path) ∨
        ∃ path, Found w ending path ∧ ¬ Repaired w sourceRoot destination useRoot path) ∧
      ((pushStreaming w ending).success = true →
        (∀ path, Found w ending path → Repaired w sourceRoot destination useRoot path) →
        ∀ path relative, Reported (pushStreaming w ending) path → Below w sourceRoot path relative →
          Found w ending (purePath w.host path)) := by
  by_cases hnone : ∀ path, ¬ Found w ending path
  · rw [run_unchanged hnone]
    constructor
    · rintro ⟨hcomplete, _⟩
      refine ⟨Or.inr (Or.inl hnone), fun hsuccess _ path relative hreported hbelow => ?_⟩
      obtain ⟨request, hrequest, _⟩ := hcomplete hsuccess path relative hreported hbelow
      exact absurd hrequest List.not_mem_nil
    · rintro ⟨_, hfound⟩
      refine ⟨fun hsuccess path relative hreported hbelow => ?_, pushStreaming_truthful⟩
      have hall : ∀ path, Found w ending path → Repaired w sourceRoot destination useRoot path :=
        fun path hpath => absurd hpath (hnone path)
      exact absurd (hfound hsuccess hall path relative hreported hbelow) (hnone _)
  push Not at hnone
  obtain ⟨found, hfound⟩ := hnone
  by_cases hall : ∀ path, Found w ending path → Repaired w sourceRoot destination useRoot path
  · obtain ⟨fixed, hrun⟩ := run_repaired hfound hall
    rw [hrun]
    constructor
    · rintro ⟨hcomplete, htruthful⟩
      have hsuccess : (pushStreaming w ending).success = true :=
        htruthful ⟨"; repaired ".toList ++ _ ++ _, rfl⟩
      refine ⟨Or.inl hsuccess, fun _ _ path relative hreported hbelow => ?_⟩
      obtain ⟨request, hrequest, hsource, _⟩ := hcomplete hsuccess path relative hreported hbelow
      obtain ⟨sent, hsent, heq⟩ := List.mem_map.mp hrequest
      obtain ⟨rfl, _⟩ := Prod.mk.inj heq
      rw [← hsource]
      exact mem_missing.mp hsent
    · rintro ⟨hcases, hfoundall⟩
      have hsuccess : (pushStreaming w ending).success = true := by
        obtain hsuccess | hnot | ⟨path, hpath, hfails⟩ := hcases
        · exact hsuccess
        · exact absurd hfound (hnot found)
        · exact absurd (hall path hpath) hfails
      refine ⟨fun _ path relative hreported hbelow => ?_, fun _ => hsuccess⟩
      have hpath := hfoundall hsuccess hall path relative hreported hbelow
      refine ⟨repairRequest w sourceRoot destination useRoot (purePath w.host path), ?_, rfl,
        remoteTarget_of_below hbelow⟩
      exact List.mem_map.mpr ⟨purePath w.host path, mem_missing.mpr hpath, Prod.ext rfl (hall _ hpath)⟩
  · push Not at hall
    obtain ⟨path, hpath, hfails⟩ := hall
    obtain ⟨hfalse, hstatus⟩ := run_failed hpath hfails
    constructor
    · intro _
      exact ⟨Or.inr (Or.inr ⟨path, hpath, hfails⟩), fun _ hall => absurd (hall path hpath) hfails⟩
    · intro _
      refine ⟨fun hsuccess => absurd (hfalse.symm.trans hsuccess) Bool.noConfusion, fun h => ?_⟩
      have hhead := head_of_success h
      rw [hstatus] at hhead
      exact absurd hhead (by decide)

def source : PurePath := ⟨[], [], ["src".toList]⟩

/-- A world with the single file `src/a`, in which every stream succeeds. -/
def oneFile : World where
  unicode := .ascii
  lower := id
  host := .posix
  normcase := id
  display path := ['/'].intercalate path.parts
  isFile path := if path.parts = ["src".toList, ['a']] then some true else none
  scan := some []
  size _ := some 1
  stream _ := true

def unreadable : Ending :=
  .exited 1 [] "adb: error: cannot lstat 'src/a': No such file or directory\n".toList

/-- The file is repaired and the status says so, but the flag is the one of the failed command. -/
theorem repaired_yet_failed :
    ¬ Truthful (runEntryCommand oneFile source "/sdcard".toList false unreadable).result := by
  intro h
  have hstatus : "Success".toList <+:
      (runEntryCommand oneFile source "/sdcard".toList false unreadable).result.status := by decide +kernel
  have hflag : (runEntryCommand oneFile source "/sdcard".toList false unreadable).result.success = false := by
    decide +kernel
  exact absurd (hflag.symm.trans (h hstatus)) Bool.noConfusion

end OpenAdb.Transfer.FolderRepair
