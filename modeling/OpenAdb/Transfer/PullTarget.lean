import Mathlib.Data.List.Infix
import OpenAdb.Transfer.FilePull

namespace OpenAdb.Transfer.PullTarget

open OpenAdb.Lib.PyText OpenAdb.Lib.Encoding OpenAdb.Lib.HostPath
open OpenAdb.Acbridge.Probe (formatNat)
open OpenAdb.Commands.Results (CommandResult)
open OpenAdb.Transfer.FilePull

/-- The name of a file in a folder of the phone. -/
structure AndroidName where
  text : Text
  nonempty : text ≠ []
  slash : '/' ∉ text
  nul : '\x00' ∉ text
  dot : text ≠ ['.']
  dots : text ≠ ['.', '.']

/-- One pull: a file of the phone, and a folder on a disk where every entry lies in a folder. The name of the
temporary file is a fresh one. -/
structure Pull where
  surroundings : Surroundings
  disk : Disk
  closed : ∀ place name, disk { place with names := name :: place.names } ≠ none → disk place = some .folder
  parent : Text
  name : AndroidName
  destination : PurePath
  isFolder : disk (locate surroundings.host destination) = some .folder
  entrySize : Nat
  fresh : ∀ target temp, localPullTarget surroundings (parent ++ '/' :: name.text) destination = some target →
    localTempSiblingPath surroundings target = some temp →
      disk (locate surroundings.host temp) = none ∧ locate surroundings.host temp ≠ locate surroundings.host target

variable (p : Pull)

def Pull.source : Text := p.parent ++ '/' :: p.name.text

def Pull.target : Option PurePath := localPullTarget p.surroundings p.source p.destination

def Pull.folder : Place := locate p.surroundings.host p.destination

def Pull.run : Ended := runSingleFilePull p.surroundings p.disk p.source p.destination p.entrySize

def Ended.success (e : Ended) : Bool := (e.report.map (fun report => report.result.success)).getD false

/-- What the transfer promises. -/
structure Safe (e : Ended) : Prop where
  children : ∀ place ∈ e.written, place.ChildOf p.folder
  cleaned : ∀ target ∈ p.target, ∀ temp ∈ localTempSiblingPath p.surroundings target,
    e.disk (locate p.surroundings.host temp) = none
  only : ∀ place, (∀ target ∈ p.target, place ≠ locate p.surroundings.host target) → e.disk place = p.disk place
  complete : Ended.success e = true → ∃ target ∈ p.target, ∃ content,
    e.disk (locate p.surroundings.host target) = some (.file content) ∧ content.length = p.entrySize ∧
      p.surroundings.stream.bytes = some content
  kept : Ended.success e = false → ∀ target ∈ p.target,
    e.disk (locate p.surroundings.host target) = p.disk (locate p.surroundings.host target)

/-- The folder of the target, if it has a name at all, is the destination. -/
def Stays : Prop :=
  ∀ target ∈ p.target, target.parts ≠ [] → locate p.surroundings.host (parent target) = p.folder

/-- The stream makes neither a folder nor the file. -/
def NothingWritten : Prop :=
  ∀ target ∈ p.target, ∀ temp ∈ localTempSiblingPath p.surroundings target,
    streamWritten p.surroundings p.disk (locate p.surroundings.host temp) = []

section
variable {w : Surroundings} {disk : Disk} {temp : Place} {target : PurePath} {entrySize : Nat}

theorem not_mem_above {place : Place} (h : place.names ≠ []) : place ∉ place.above := by
  intro hmem
  obtain ⟨tail, htail, heq⟩ := List.mem_map.mp hmem
  have hlength := ((List.mem_tails _ _).mp htail).length_le
  have hnames : tail = place.names := congrArg Place.names heq
  rw [hnames, List.length_tail] at hlength
  have := List.length_pos_of_ne_nil h
  omega

theorem streamed_temp (h : temp.names ≠ []) :
    streamed w disk temp temp = if w.stream.bytes.isSome = true then w.stream.bytes.map Entry.file else disk temp := by
  have hmade : temp ∉ madeFolders w disk temp := fun hmem => not_mem_above h (List.mem_filter.mp hmem).1
  rw [streamed]
  by_cases hbytes : w.stream.bytes.isSome = true
  · rw [if_pos ⟨rfl, hbytes⟩, if_pos hbytes]
  · rw [if_neg (fun hand => hbytes hand.2), if_neg hmade, if_neg hbytes]

theorem streamed_other {place : Place} (hne : place ≠ temp) (hmade : place ∉ madeFolders w disk temp) :
    streamed w disk temp place = disk place := by
  rw [streamed, if_neg (fun h => hne h.1), if_neg hmade]

/-- What is published is a file of the expected size. -/
theorem publish_ok {after : Disk} (hfile : disk temp ≠ some .folder)
    (h : publish w disk target temp entrySize = .ok after) :
    ∃ content, disk temp = some (.file content) ∧ content.length = entrySize ∧
      disk (locate w.host target) ≠ some .folder ∧
      after = put (put disk temp none) (locate w.host target) (some (.file content)) := by
  rw [publish] at h
  cases hsize : actualSize w disk temp with
  | error text =>
    rw [hsize] at h
    cases h
  | ok size =>
    rw [hsize] at h
    simp only at h
    have hcontent : ∃ content, disk temp = some (.file content) ∧ content.length = size := by
      rw [actualSize] at hsize
      cases hstat : w.stat with
      | some text =>
        rw [hstat] at hsize
        cases hsize
      | none =>
        rw [hstat] at hsize
        cases htemp : disk temp with
        | none =>
          rw [htemp] at hsize
          cases hsize
        | some entry =>
          cases entry with
          | folder => exact absurd htemp hfile
          | file content =>
            rw [htemp] at hsize
            exact ⟨content, rfl, Except.ok.inj hsize⟩
    obtain ⟨content, htemp, hlength⟩ := hcontent
    split at h
    · cases h
    · case isFalse hsame =>
      split at h
      · cases h
      · cases h
      · split at h
        · cases h
        · split at h
          · cases h
          · case isFalse hfolder =>
            rw [ne_eq, not_not] at hsame
            exact ⟨content, htemp, hlength.trans hsame, hfolder, by rw [← htemp]; exact (Except.ok.inj h).symm⟩

/-- A transfer either leaves the target alone or publishes what it received. -/
theorem transfer_cases (hnames : temp.names ≠ []) (hnone : disk temp = none) :
    (Ended.success (transfer w disk target temp entrySize) = false ∧
      (transfer w disk target temp entrySize).disk = put (streamed w disk temp) temp none ∧
      (transfer w disk target temp entrySize).written = streamWritten w disk temp) ∨
    (Ended.success (transfer w disk target temp entrySize) = true ∧ ∃ content, w.stream.bytes = some content ∧
      content.length = entrySize ∧ streamed w disk temp (locate w.host target) ≠ some .folder ∧
      (transfer w disk target temp entrySize).disk =
        put (put (streamed w disk temp) temp none) (locate w.host target) (some (.file content)) ∧
      (transfer w disk target temp entrySize).written = streamWritten w disk temp ++ [locate w.host target]) := by
  have htemp := @streamed_temp w disk _ hnames
  rw [hnone] at htemp
  rw [transfer]
  cases hresult : w.stream.result with
  | none => exact .inl ⟨rfl, rfl, rfl⟩
  | some result =>
    simp only
    by_cases hemits : w.emits = false
    · rw [if_pos hemits]
      exact .inl ⟨rfl, rfl, rfl⟩
    · rw [if_neg hemits]
      by_cases hsuccess : (cancel w result).success = false
      · rw [if_pos hsuccess]
        exact .inl ⟨hsuccess, rfl, rfl⟩
      · rw [if_neg hsuccess]
        cases hpublish : publish w (streamed w disk temp) target temp entrySize with
        | error exc => exact .inl ⟨rfl, rfl, rfl⟩
        | ok after =>
          have hfile : streamed w disk temp temp ≠ some .folder := by
            rw [htemp]
            cases w.stream.bytes <;> simp
          obtain ⟨content, hcontent, hlength, hfolder, hafter⟩ := publish_ok hfile hpublish
          have hbytes : w.stream.bytes = some content := by
            rw [hcontent] at htemp
            cases hbytes : w.stream.bytes with
            | none =>
              rw [hbytes] at htemp
              simp at htemp
            | some bytes =>
              rw [hbytes] at htemp
              simpa using htemp.symm
          rw [Bool.not_eq_false] at hsuccess
          exact .inr ⟨hsuccess, content, hbytes, hlength, hfolder, hafter, rfl⟩

end

section
variable {p}

theorem folders_of_closed {place : Place} (h : p.disk place = some .folder) {names : List Text}
    (hsuffix : names <:+ place.names) : p.disk { place with names := names } = some .folder := by
  obtain ⟨front, hfront⟩ := hsuffix
  induction front generalizing place with
  | nil => rwa [show names = place.names from hfront]
  | cons name front ih =>
    have hself : { place with names := name :: (front ++ names) } = place := by
      cases place
      simp only at hfront
      rw [← hfront]
      rfl
    have houter := p.closed { place with names := front ++ names } name (by
      change p.disk { place with names := name :: (front ++ names) } ≠ none
      rw [hself, h]
      exact Option.some_ne_none _)
    exact @ih { place with names := front ++ names } houter rfl

/-- No folder is missing above an entry of the destination. -/
theorem madeFolders_child {temp : Place} (h : temp.ChildOf p.folder) : madeFolders p.surroundings p.disk temp = [] := by
  rw [madeFolders, List.filter_eq_nil_iff]
  intro place hplace hmissing
  obtain ⟨names, hnames, heq⟩ := List.mem_map.mp hplace
  have hsuffix := (List.mem_tails _ _).mp hnames
  have hfolder := h.tail
  have htail : temp.names.tail = p.folder.names := congrArg Place.names hfolder
  have hsame : place = { p.folder with names := names } := by
    rw [← heq, ← hfolder]
  rw [htail] at hsuffix
  have hentry := folders_of_closed (p := p) p.isFolder hsuffix
  rw [hsame] at hmissing
  change (_ : Bool) = true at hmissing
  rw [show p.disk { p.folder with names := names } = some .folder from hentry] at hmissing
  cases hmissing

theorem run_not_started {target : PurePath} (htarget : p.target = none ∨
    p.target = some target ∧ localTempSiblingPath p.surroundings target = none) : p.run = ⟨none, p.disk, []⟩ := by
  rw [Pull.run, runSingleFilePull]
  obtain hnone | ⟨hsome, hnone⟩ := htarget
  · rw [show localPullTarget p.surroundings p.source p.destination = none from hnone]
  · rw [show localPullTarget p.surroundings p.source p.destination = some target from hsome]
    simp only
    rw [hnone]

theorem run_started {target temp : PurePath} (htarget : p.target = some target)
    (htemp : localTempSiblingPath p.surroundings target = some temp) :
    p.run = transfer p.surroundings p.disk target (locate p.surroundings.host temp) p.entrySize := by
  rw [Pull.run, runSingleFilePull, show localPullTarget p.surroundings p.source p.destination = some target from htarget]
  simp only
  rw [htemp]

theorem safe_not_started {target : PurePath} (htarget : p.target = none ∨
    p.target = some target ∧ localTempSiblingPath p.surroundings target = none) : Safe p p.run := by
  rw [run_not_started htarget]
  refine ⟨by simp, ?_, fun _ _ => rfl, fun h => (by cases h), fun _ _ _ => rfl⟩
  intro target' htarget' temp htemp
  obtain hnone | ⟨hsome, hnone⟩ := htarget
  · rw [hnone] at htarget'
    cases htarget'
  · rw [hsome] at htarget'
    cases htarget'
    rw [hnone] at htemp
    cases htemp

theorem temp_child {target temp : PurePath} (htemp : localTempSiblingPath p.surroundings target = some temp) :
    (locate p.surroundings.host temp).ChildOf (locate p.surroundings.host (parent target)) := by
  refine locate_withName ?_ htemp
  intro hdots
  have hlength := congrArg List.length hdots
  simp at hlength

theorem names_of_child {child folder : Place} (h : child.ChildOf folder) : child.names ≠ [] := by
  obtain ⟨_, _, name, hnames⟩ := h
  rw [hnames]
  exact List.cons_ne_nil _ _

/-- An entry with a name lies in its folder, or it is the folder itself or one around it. -/
theorem target_child {target : PurePath} (hparts : target.parts ≠ [])
    (hstays : locate p.surroundings.host (parent target) = p.folder) :
    (locate p.surroundings.host target).ChildOf p.folder ∨
      p.disk (locate p.surroundings.host target) = some .folder := by
  obtain hchild | hsame | houter := @locate_parent p.surroundings.host _ hparts
  · exact .inl (hstays ▸ hchild)
  · rw [hsame, hstays]
    exact .inr p.isFolder
  · rw [hstays] at houter
    have hentry := folders_of_closed (p := p) p.isFolder (List.tail_suffix p.folder.names)
    have hplace : { p.folder with names := p.folder.names.tail } = locate p.surroundings.host target := houter.tail
    exact .inr (hplace ▸ hentry)

/-- What the transfer leaves when it makes no folders. -/
theorem safe_of_plain {target temp : PurePath} (htarget : p.target = some target)
    (htemp : localTempSiblingPath p.surroundings target = some temp)
    (hmade : madeFolders p.surroundings p.disk (locate p.surroundings.host temp) = [])
    (hplace : p.surroundings.stream.bytes.isSome = true →
      (locate p.surroundings.host temp).ChildOf p.folder ∧
        ((locate p.surroundings.host target).ChildOf p.folder ∨
          p.disk (locate p.surroundings.host target) = some .folder)) : Safe p p.run := by
  have hnames := names_of_child (temp_child htemp)
  obtain ⟨hnone, hne⟩ := p.fresh target temp htarget htemp
  have hother : ∀ place, place ≠ locate p.surroundings.host temp →
      streamed p.surroundings p.disk (locate p.surroundings.host temp) place = p.disk place :=
    fun place hplace => streamed_other hplace (by rw [hmade]; exact List.not_mem_nil)
  have hwritten : streamWritten p.surroundings p.disk (locate p.surroundings.host temp) =
      if p.surroundings.stream.bytes.isSome = true then [locate p.surroundings.host temp] else [] := by
    rw [streamWritten, hmade, List.nil_append]
  have honly : ∀ {target' : PurePath}, target' ∈ p.target → target' = target := by
    intro target' h
    rw [htarget] at h
    exact (Option.some.inj h).symm
  rw [run_started htarget htemp]
  obtain ⟨hfailed, hdisk, hlist⟩ | ⟨hsuccess, content, hbytes, hlength, hfolder, hdisk, hlist⟩ :=
    @transfer_cases p.surroundings _ _ target p.entrySize hnames hnone
  · refine ⟨?_, ?_, ?_, ?_, ?_⟩
    · intro place hmem
      rw [hlist, hwritten] at hmem
      split at hmem
      · case isTrue hbytes =>
        rw [List.mem_singleton.mp hmem]
        exact (hplace hbytes).1
      · cases hmem
    · intro target' htarget' temp' htemp'
      rw [honly htarget', htemp] at htemp'
      rw [← Option.some.inj htemp', hdisk]
      exact if_pos rfl
    · intro place hout
      rw [hdisk, put]
      by_cases hsame : place = locate p.surroundings.host temp
      · rw [if_pos hsame, hsame, hnone]
      · rw [if_neg hsame, hother place hsame]
    · intro hsuccess
      rw [hfailed] at hsuccess
      cases hsuccess
    · intro _ target' htarget'
      rw [honly htarget', hdisk, put, if_neg hne.symm, hother _ hne.symm]
  · have hsome : p.surroundings.stream.bytes.isSome = true := by rw [hbytes]; rfl
    obtain ⟨htempChild, htargetChild⟩ := hplace hsome
    rw [hother _ hne.symm] at hfolder
    refine ⟨?_, ?_, ?_, ?_, ?_⟩
    · intro place hmem
      rw [hlist, hwritten, if_pos hsome, List.mem_append, List.mem_singleton, List.mem_singleton] at hmem
      obtain hmem | hmem := hmem
      · exact hmem ▸ htempChild
      · exact hmem ▸ htargetChild.resolve_right hfolder
    · intro target' htarget' temp' htemp'
      rw [honly htarget', htemp] at htemp'
      rw [← Option.some.inj htemp', hdisk, put, if_neg hne]
      exact if_pos rfl
    · intro place hout
      rw [hdisk, put, if_neg (hout target htarget), put]
      by_cases hsame : place = locate p.surroundings.host temp
      · rw [if_pos hsame, hsame, hnone]
      · rw [if_neg hsame, hother place hsame]
    · intro _
      exact ⟨target, htarget, content, by rw [hdisk]; exact if_pos rfl, hlength, hbytes⟩
    · intro hfailed
      rw [hsuccess] at hfailed
      cases hfailed

theorem safe_iff_stays : Safe p p.run ↔ Stays p ∨ NothingWritten p := by
  cases htarget : p.target with
  | none =>
    have hstays : Stays p := by
      intro target hmem
      rw [htarget] at hmem
      cases hmem
    exact ⟨fun _ => .inl hstays, fun _ => @safe_not_started p p.destination (.inl htarget)⟩
  | some target =>
    have honly : ∀ {target' : PurePath}, target' ∈ p.target → target' = target := by
      intro target' h
      rw [htarget] at h
      exact (Option.some.inj h).symm
    cases htemp : localTempSiblingPath p.surroundings target with
    | none =>
      have hstays : Stays p := by
        intro target' hmem hparts
        rw [honly hmem] at hparts
        rw [localTempSiblingPath, withName, if_neg hparts] at htemp
        cases htemp
      exact ⟨fun _ => .inl hstays, fun _ => safe_not_started (.inr ⟨htarget, htemp⟩)⟩
    | some temp =>
      have hchild := temp_child htemp
      have hparts := (withName_isSome htemp).1
      constructor
      · intro hsafe
        by_contra hnot
        rw [not_or] at hnot
        obtain ⟨hleaves, hwrites⟩ := hnot
        have hout : ¬ (locate p.surroundings.host temp).ChildOf p.folder := by
          intro hin
          refine hleaves fun target' hmem _ => ?_
          rw [honly hmem, ← hchild.tail, hin.tail]
        refine hwrites fun target' hmem temp' htemp' => ?_
        rw [honly hmem, htemp] at htemp'
        rw [← Option.some.inj htemp']
        have hlist : ∀ place ∈ streamWritten p.surroundings p.disk (locate p.surroundings.host temp),
            place ∈ p.run.written := by
          intro place hplace
          rw [run_started htarget htemp]
          obtain ⟨_, _, hlist⟩ | ⟨_, content, _, _, _, _, hlist⟩ := @transfer_cases p.surroundings _ _
            target p.entrySize (names_of_child hchild) (p.fresh target temp htarget htemp).1
          · rwa [hlist]
          · rw [hlist]
            exact List.mem_append_left _ hplace
        have hbytes : ¬ p.surroundings.stream.bytes.isSome = true := by
          intro hsome
          refine hout (hsafe.children _ (hlist _ ?_))
          rw [streamWritten, if_pos hsome]
          exact List.mem_append_right _ List.mem_cons_self
        rw [streamWritten, if_neg hbytes, List.append_nil, List.eq_nil_iff_forall_not_mem]
        -- a folder that was made stays behind, wherever it lies
        intro place hmade
        obtain ⟨habove, hmissing⟩ := List.mem_filter.mp hmade
        have hnone : p.disk place = none := by
          rw [Bool.and_eq_true, Option.isNone_iff_eq_none] at hmissing
          exact hmissing.1
        obtain ⟨hfailed, hdisk, _⟩ | ⟨_, content, hcontent, _⟩ := @transfer_cases p.surroundings _ _
          target p.entrySize (names_of_child hchild) (p.fresh target temp htarget htemp).1
        · rw [← run_started htarget htemp] at hfailed hdisk
          have hne : place ≠ locate p.surroundings.host temp := by
            intro heq
            rw [heq] at habove
            exact not_mem_above (names_of_child hchild) habove
          have hfolder : p.run.disk place = some .folder := by
            rw [hdisk, put, if_neg hne, streamed, if_neg (fun h => hne h.1), if_pos hmade]
          have hkept : p.run.disk place = p.disk place := by
            by_cases hsame : place = locate p.surroundings.host target
            · rw [hsame]
              exact hsafe.kept hfailed target htarget
            · exact hsafe.only place fun target' hmem => honly hmem ▸ hsame
          rw [hfolder, hnone] at hkept
          cases hkept
        · rw [hcontent] at hbytes
          exact hbytes rfl
      · rintro (hstays | hnothing)
        · have hfolder := hstays target htarget hparts
          have hin : (locate p.surroundings.host temp).ChildOf p.folder := hfolder ▸ hchild
          exact safe_of_plain htarget htemp (madeFolders_child hin) fun _ => ⟨hin, target_child hparts hfolder⟩
        · have hempty := List.append_eq_nil_iff.mp (hnothing target htarget temp htemp)
          refine safe_of_plain htarget htemp hempty.1 fun hsome => ?_
          have hcontra := hempty.2
          rw [if_pos hsome] at hcontra
          cases hcontra

end

section
variable {p}

theorem rstrip_source (p : Pull) : rstripChar '/' p.source = p.source := by
  rw [rstripChar, List.rdropWhile_eq_self_iff]
  intro hne hslash
  have hlast : p.source.getLast hne = p.name.text.getLast p.name.nonempty := by
    simp [Pull.source, List.getLast_append_of_ne_nil, List.getLast_cons p.name.nonempty]
  rw [hlast] at hslash
  exact p.name.slash (eq_of_beq hslash ▸ List.getLast_mem p.name.nonempty)

theorem posixName_source (p : Pull) : posixName (rstripChar '/' p.source) = p.name.text := by
  have hsplit : List.splitOnP (· == '/') (p.parent ++ '/' :: p.name.text) =
      List.splitOnP (· == '/') p.parent ++ List.splitOnP (· == '/') p.name.text :=
    List.splitOnP_append_cons p.parent p.name.text rfl
  have hcomponents : components '/' p.source = components '/' p.parent ++ components '/' p.name.text := by
    rw [Pull.source, components, List.splitOn_eq_splitOnP, hsplit, List.filter_append]
    rfl
  rw [rstrip_source, posixName, hcomponents, components_plain p.name.slash p.name.nonempty p.name.dot]
  simp

/-- On a host with slashes, and on Windows for a name without backslashes and without a drive, the target is an entry
of the destination. -/
theorem stays_of_plain (hfolder : p.surroundings.isFolder = some true)
    (hplain : p.surroundings.host ≠ .posix → sep ∉ p.name.text ∧ p.name.text.tail.head? ≠ some ':') : Stays p := by
  intro target htarget _
  have hname := posixName_source p
  rw [Pull.target, localPullTarget, hname, hfolder] at htarget
  simp only [ne_eq, p.name.nonempty, not_false_eq_true, if_true, Option.map_some, Option.mem_some_iff] at htarget
  rw [← htarget, (parent_join p.name.slash p.name.nonempty p.name.dot hplain).1]
  rfl

end

/-- A pull keeps what it promises exactly when the folder of its target is the destination, or when its stream
writes nothing; on a host with slashes the first is always so, and on Windows for plain names. -/
theorem pull_safe_iff (p : Pull) :
    (Safe p p.run ↔ Stays p ∨ NothingWritten p) ∧
    (p.surroundings.isFolder = some true →
      (p.surroundings.host ≠ .posix → sep ∉ p.name.text ∧ p.name.text.tail.head? ≠ some ':') → Stays p) :=
  ⟨safe_iff_stays, stays_of_plain⟩

def arrived : CommandResult := ⟨some 0, [], [], true, "Command completed".toList, []⟩

def windowsPc : Surroundings where
  host := .windows id id
  display _ := []
  isFolder := some true
  stamp := 0
  suffix := 0
  stream := ⟨1, fun _ => false, some [65], some arrived⟩
  emits := true
  cancelled := false
  stat := none
  missing := []
  targetIsFolder := .ok false
  replace := none
  blocked := []

def downloads : PurePath := ⟨"C:".toList, ['\\'], ["down".toList]⟩

def twoFolders : Disk := fun place =>
  if place.drive = "C:".toList ∧ place.root = ['\\'] ∧ place.names ∈ [[], ["down".toList]] then some .folder else none

theorem twoFolders_closed (place : Place) (name : Text)
    (h : twoFolders { place with names := name :: place.names } ≠ none) : twoFolders place = some .folder := by
  rw [twoFolders] at h
  by_cases hin : place.drive = "C:".toList ∧ place.root = ['\\'] ∧ name :: place.names ∈ [[], ["down".toList]]
  · have hdown : name = "down".toList ∧ place.names = [] := by simpa using hin.2.2
    have hnames := hdown.2
    exact if_pos ⟨hin.1, hin.2.1, by rw [hnames]; exact List.mem_cons_self⟩
  · exact absurd (if_neg hin) h

def outsideName : Text := "..\\note".toList

theorem outsideName_legal : outsideName ≠ [] ∧ '/' ∉ outsideName ∧ '\x00' ∉ outsideName ∧ outsideName ≠ ['.'] ∧
    outsideName ≠ ['.', '.'] := by decide

def outside : AndroidName where
  text := outsideName
  nonempty := outsideName_legal.1
  slash := outsideName_legal.2.1
  nul := outsideName_legal.2.2.1
  dot := outsideName_legal.2.2.2.1
  dots := outsideName_legal.2.2.2.2

def outsideTarget : PurePath := ⟨"C:".toList, ['\\'], ["down".toList, "..".toList, "note".toList]⟩

theorem outside_target : localPullTarget windowsPc ("/sdcard".toList ++ '/' :: outsideName) downloads = some outsideTarget := by
  decide +kernel

def outsideTemp : PurePath :=
  ⟨"C:".toList, ['\\'], ["down".toList, "..".toList, ".openadb-part-0-000000".toList]⟩

theorem outside_temp : localTempSiblingPath windowsPc outsideTarget = some outsideTemp := by decide +kernel

theorem outside_fresh (target temp : PurePath)
    (htarget : localPullTarget windowsPc ("/sdcard".toList ++ '/' :: outside.text) downloads = some target)
    (htemp : localTempSiblingPath windowsPc target = some temp) :
    twoFolders (locate windowsPc.host temp) = none ∧ locate windowsPc.host temp ≠ locate windowsPc.host target := by
  have hsome := outside_target.symm.trans htarget
  rw [← Option.some.inj hsome, outside_temp] at htemp
  rw [← Option.some.inj htemp, ← Option.some.inj hsome]
  decide +kernel

def outsidePull : Pull where
  surroundings := windowsPc
  disk := twoFolders
  closed := twoFolders_closed
  parent := "/sdcard".toList
  name := outside
  destination := downloads
  isFolder := rfl
  entrySize := 1
  fresh := outside_fresh

/-- A file of the phone whose name has a backslash is written outside of the destination. -/
theorem written_outside : ¬ ∀ p : Pull, Safe p p.run := by
  intro h
  have htarget : outsidePull.target = some outsideTarget := outside_target
  obtain hstays | hnothing := safe_iff_stays.mp (h outsidePull)
  · have hplace := hstays outsideTarget htarget (by decide)
    exact absurd hplace (by decide +kernel)
  · have hempty := hnothing outsideTarget htarget outsideTemp outside_temp
    exact absurd hempty (by decide +kernel)

end OpenAdb.Transfer.PullTarget
