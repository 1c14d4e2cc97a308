import OpenAdb.Transfer.TarPush
import Mathlib.Data.List.Nodup

namespace OpenAdb.Transfer.SentMembers

open OpenAdb.Lib.PyText OpenAdb.Lib.Encoding OpenAdb.Lib.SlashPath OpenAdb.Transfer.TarPush

variable (folder : Folder) (run : Run)

/-- The folder's name plus the path of an entry. -/
def ownName (path : List Text) : Text := ['/'].intercalate (folder.name :: path)

def slashed (name : Text) : Text := replaceChar '\\' '/' name

/-- Each directory and each file has exactly one member, with all of its content. -/
def Complete (members : List Member) : Prop :=
  ∀ entry, entry = top ∨ entry ∈ folder.entries → entry.isLink = false → ∀ found, entry.found = some found →
    members.filter (fun member => member.name = ownName folder entry.path) = [⟨ownName folder entry.path, found⟩]

/-- The scan comes to the entry, and the looks at it tell what it is. -/
def Seen (entry : Entry) : Prop := entry ∈ rglob folder run ∧ classify run entry ≠ .skipped

def StreamFails (entry : Entry) : Prop :=
  run.interrupted entry.path = true ∨ run.infoRaises entry.path = true ∨
    entry.found ≠ some .directory ∧ run.readRaises entry.path = true

/-- The push is cancelled, adb fails, or the stream of an entry that is planned. -/
def Fails : Prop :=
  run.cancelled ≠ none ∨ run.commandFails = true ∨
    run.checkRaises = false ∧ ∃ entry, (entry = top ∨ Seen folder run entry) ∧ StreamFails run entry

/-- Of the entries that are seen, exactly one has the path of this entry when its backslashes are read as slashes,
and the same is found there. -/
def Covered (entry : Entry) : Prop :=
  ∃ other, Seen folder run other ∧ other.found = entry.found ∧
    slashed (ownName folder other.path) = ownName folder entry.path ∧
    ∀ another, Seen folder run another →
      slashed (ownName folder another.path) = ownName folder entry.path → another = other

def memberOf (item : Item) : Member := ⟨lstripChar '/' item.arcname, item.entry.found.getD .directory⟩

def itemOf (entry : Entry) : Item := ⟨entry, arcname folder entry.path⟩

def planned (kind : Kind) : List Entry := (rglob folder run).filter (fun entry => classify run entry = kind)

/-- The members below the folder. -/
def below : List Member :=
  (planned folder run .directory ++ planned folder run .file).map (memberOf ∘ itemOf folder)

section Lists

variable {α β : Type}

theorem filter_map_singleton {l : List α} (hl : l.Nodup) (f : α → β) (p : β → Bool) (x : β) :
    (l.map f).filter p = [x] ↔ ∃ a ∈ l, f a = x ∧ p x = true ∧ ∀ b ∈ l, p (f b) = true → b = a := by
  rw [List.filter_map]
  constructor
  · intro h
    obtain ⟨a, ha, hx⟩ : ∃ a, l.filter (p ∘ f) = [a] ∧ f a = x := by
      obtain ⟨a, ha⟩ := List.length_eq_one_iff.mp (by simpa using congrArg List.length h)
      rw [ha] at h
      exact ⟨a, ha, List.singleton_inj.mp h⟩
    have hmem : ∀ b, b ∈ l ∧ p (f b) = true ↔ b = a := fun b => by
      have hfilter : b ∈ l.filter (p ∘ f) ↔ b ∈ [a] := by rw [ha]
      rwa [List.mem_filter, List.mem_singleton] at hfilter
    obtain ⟨hal, hpa⟩ := (hmem a).mpr rfl
    exact ⟨a, hal, hx, hx ▸ hpa, fun b hb hpb => (hmem b).mp ⟨hb, hpb⟩⟩
  · rintro ⟨a, hal, hx, hp, hunique⟩
    subst hx
    have hone : l.filter (p ∘ f) = [a] := by
      apply List.perm_singleton.mp
      apply (List.perm_ext_iff_of_nodup (hl.filter _) (List.nodup_cons.mpr ⟨List.not_mem_nil, List.nodup_nil⟩)).mpr
      intro b
      rw [List.mem_filter, List.mem_singleton]
      constructor
      · rintro ⟨hb, hpb⟩
        exact hunique b hb hpb
      · intro hb
        exact ⟨hb ▸ hal, hb ▸ hp⟩
    rw [hone, List.map_singleton]

theorem addAll_ok {add : Item → Option Member} {f : Item → Member} {items : List Item}
    (h : ∀ item ∈ items, add item = some (f item)) : addAll add items = ⟨items.map f, true⟩ := by
  induction items with
  | nil => rfl
  | cons item items ih =>
    obtain ⟨hitem, hitems⟩ := List.forall_mem_cons.mp h
    rw [addAll, hitem]
    simp only [ih hitems, List.map_cons]

theorem addAll_failed {add : Item → Option Member} {items : List Item} {item : Item} (hmem : item ∈ items)
    (h : add item = none) : (addAll add items).finished = false := by
  induction items with
  | nil => exact absurd hmem List.not_mem_nil
  | cons first items ih =>
    rw [addAll]
    cases hfirst : add first with
    | none => rfl
    | some member =>
      obtain heq | htail := List.mem_cons.mp hmem
      · rw [heq, hfirst] at h
        exact absurd h (Option.some_ne_none member)
      · exact ih htail

end Lists

section Names

variable {folder} {path : List Text}

theorem slash_notMem_name : '/' ∉ folder.name := folder.name_legal.2.2.2.1

theorem ownName_nil : ownName folder [] = folder.name := List.intercalate_singleton

theorem ownName_cons (h : path ≠ []) : ownName folder path = folder.name ++ '/' :: ['/'].intercalate path := by
  rw [ownName, List.intercalate_cons_of_ne_nil h]
  simp

theorem slashed_append (a b : Text) : slashed (a ++ b) = slashed a ++ slashed b := List.map_append

theorem backslash_notMem_slashed (name : Text) : '\\' ∉ slashed name := not_mem_replaceChar_self (by decide) name

/-- Both hosts join with a character that ends up as a slash. -/
theorem slashed_intercalate (names : List Text) :
    slashed ([hostSep folder].intercalate names) = slashed (['/'].intercalate names) := by
  have hsep : slashed [hostSep folder] = slashed ['/'] := by
    rw [hostSep]
    cases folder.windows <;> rfl
  induction names with
  | nil => rfl
  | cons name names ih =>
    by_cases hne : names = []
    · subst hne
      rw [List.intercalate_singleton, List.intercalate_singleton]
    · rw [List.intercalate_cons_of_ne_nil hne, List.intercalate_cons_of_ne_nil hne, slashed_append, slashed_append,
        slashed_append, slashed_append, ih, hsep]

theorem arcname_eq (path : List Text) : arcname folder path = slashed (ownName folder path) :=
  slashed_intercalate (folder.name :: path)

theorem lstrip_name_append (rest : Text) : lstripChar '/' (folder.name ++ rest) = folder.name ++ rest := by
  cases hname : folder.name with
  | nil => exact absurd hname folder.name_legal.1
  | cons c name =>
    have hc : (c == '/') = false := by
      apply beq_eq_false_iff_ne.mpr
      rintro rfl
      exact slash_notMem_name (hname ▸ List.mem_cons_self)
    rw [List.cons_append, lstripChar, List.dropWhile_cons_of_neg (by rw [hc]; exact Bool.false_ne_true)]

theorem lstrip_name : lstripChar '/' folder.name = folder.name := by
  simpa using @lstrip_name_append folder []

theorem backslash_notMem_sent (path : List Text) : '\\' ∉ lstripChar '/' (arcname folder path) := by
  rw [arcname_eq]
  exact fun h => backslash_notMem_slashed _ ((List.dropWhile_sublist _).subset h)

theorem sent_of_name (hname : '\\' ∉ folder.name) (hpath : path ≠ []) :
    lstripChar '/' (arcname folder path) = slashed (ownName folder path) ∧
      slashed (ownName folder path) = folder.name ++ '/' :: slashed (['/'].intercalate path) := by
  have hslashed : slashed (ownName folder path) = folder.name ++ '/' :: slashed (['/'].intercalate path) := by
    rw [ownName_cons hpath, slashed_append, slashed, replaceChar_eq_self hname]
    rfl
  refine ⟨?_, hslashed⟩
  rw [arcname_eq, hslashed, lstrip_name_append]

/-- An entry below the folder is never sent under the name of the folder itself. -/
theorem sent_ne_name (hpath : path ≠ []) : lstripChar '/' (arcname folder path) ≠ folder.name := by
  by_cases hname : '\\' ∈ folder.name
  · exact fun h => backslash_notMem_sent path (h ▸ hname)
  · obtain ⟨hsent, hslashed⟩ := sent_of_name hname hpath
    intro h
    rw [hsent, hslashed] at h
    have hlength := congrArg List.length h
    rw [List.length_append, List.length_cons] at hlength
    omega

theorem sent_eq_own {other : List Text} (hpath : path ≠ []) (hother : other ≠ []) :
    lstripChar '/' (arcname folder path) = ownName folder other ↔
      slashed (ownName folder path) = ownName folder other := by
  by_cases hname : '\\' ∈ folder.name
  · have hown : '\\' ∈ ownName folder other := by
      rw [ownName_cons hother]
      exact List.mem_append_left _ hname
    constructor
    · exact fun h => absurd (h ▸ hown) (backslash_notMem_sent path)
    · exact fun h => absurd (h ▸ hown) (backslash_notMem_slashed _)
  · rw [(sent_of_name hname hpath).1]

theorem own_ne_name (hpath : path ≠ []) : ownName folder path ≠ folder.name := by
  intro h
  rw [ownName_cons hpath] at h
  have hlength := congrArg List.length h
  rw [List.length_append, List.length_cons] at hlength
  omega

end Names

section Runs

variable {folder} {run} {item : Item}

theorem tarInfo_ok (hfound : item.entry.found ≠ none) (h : run.infoRaises item.entry.path = false) :
    tarInfo run item = some (memberOf item) := by
  obtain ⟨found, hsome⟩ := Option.ne_none_iff_exists'.mp hfound
  rw [tarInfo, if_neg (Bool.eq_false_iff.mp h), memberOf, hsome]
  rfl

theorem addDirectory_ok (hfound : item.entry.found = some .directory) (h : ¬ StreamFails run item.entry) :
    addDirectory run item = some (memberOf item) := by
  rw [StreamFails] at h
  push Not at h
  rw [addDirectory, if_neg h.1]
  exact tarInfo_ok (hfound ▸ Option.some_ne_none _) (Bool.eq_false_iff.mpr h.2.1)

theorem addFile_ok (hfound : item.entry.found ≠ none) (hfile : item.entry.found ≠ some .directory)
    (h : ¬ StreamFails run item.entry) : addFile run item = some (memberOf item) := by
  rw [StreamFails] at h
  push Not at h
  rw [addFile, if_neg h.1, tarInfo_ok hfound (Bool.eq_false_iff.mpr h.2.1), Option.bind_some, if_neg (h.2.2 hfile)]

theorem tarInfo_failed (h : run.infoRaises item.entry.path = true) : tarInfo run item = none := if_pos h

theorem addDirectory_failed (hfound : item.entry.found = some .directory) (h : StreamFails run item.entry) :
    addDirectory run item = none := by
  rw [addDirectory]
  obtain hstop | hinfo | hread := h
  · exact if_pos hstop
  · rw [tarInfo_failed hinfo, ite_self]
  · exact absurd hfound hread.1

theorem addFile_failed (h : StreamFails run item.entry) : addFile run item = none := by
  rw [addFile]
  obtain hstop | hinfo | hread := h
  · exact if_pos hstop
  · rw [tarInfo_failed hinfo, Option.bind_none, ite_self]
  · cases hinfo : tarInfo run item with
    | none => rw [Option.bind_none, ite_self]
    | some info => rw [Option.bind_some, if_pos hread.2, ite_self]

theorem found_of_directory {entry : Entry} (h : classify run entry = .directory) : entry.found = some .directory := by
  rw [classify] at h
  split_ifs at h with hraised hdirectory
  exact hdirectory.2

theorem found_of_file {entry : Entry} (h : classify run entry = .file) :
    entry.found ≠ none ∧ entry.found ≠ some .directory := by
  rw [classify] at h
  split_ifs at h with hraised hdirectory hskipped
  push Not at hskipped
  exact ⟨hskipped.2.2, hskipped.2.1⟩

theorem mem_planned {kind : Kind} {entry : Entry} :
    entry ∈ planned folder run kind ↔
      entry ∈ rglob folder run ∧ classify run entry = kind := by
  rw [planned, List.mem_filter, decide_eq_true_iff]

theorem items_eq (hcancelled : run.cancelled = none) (hcheck : run.checkRaises = false) :
    tarStreamItems folder run =
      (⟨top, folder.name⟩ :: (planned folder run .directory).map (itemOf folder),
        (planned folder run .file).map (itemOf folder)) := by
  have hstart : ¬ (run.cancelled = some 0 ∨ run.checkRaises = true) := by simp [hcancelled, hcheck]
  rw [tarStreamItems, if_neg hstart, visited, hcancelled]
  rfl

theorem inputWriter_of_check (hcheck : run.checkRaises = true) :
    inputWriter folder run = ⟨[], true⟩ := by
  have hitems : tarStreamItems folder run = ([], []) := if_pos (Or.inr hcheck)
  rw [inputWriter, hitems]
  rfl

theorem inputWriter_ok (hcancelled : run.cancelled = none) (hcheck : run.checkRaises = false)
    (h : ∀ entry, entry = top ∨ Seen folder run entry → ¬ StreamFails run entry) :
    inputWriter folder run = ⟨⟨folder.name, .directory⟩ :: below folder run, true⟩ := by
  have htop : addDirectory run ⟨top, folder.name⟩ = some ⟨folder.name, .directory⟩ := by
    rw [addDirectory_ok rfl (h top (Or.inl rfl)), memberOf, lstrip_name]
    rfl
  have hdirectories : ∀ item ∈ (planned folder run .directory).map (itemOf folder),
      addDirectory run item = some (memberOf item) := by
    intro item hitem
    obtain ⟨entry, hentry, rfl⟩ := List.mem_map.mp hitem
    obtain ⟨hmem, hkind⟩ := mem_planned.mp hentry
    exact addDirectory_ok (found_of_directory hkind)
      (h entry (Or.inr ⟨hmem, fun hskip => Kind.noConfusion (hkind.symm.trans hskip)⟩))
  have hfiles : ∀ item ∈ (planned folder run .file).map (itemOf folder), addFile run item = some (memberOf item) := by
    intro item hitem
    obtain ⟨entry, hentry, rfl⟩ := List.mem_map.mp hitem
    obtain ⟨hmem, hkind⟩ := mem_planned.mp hentry
    obtain ⟨hfound, hfile⟩ := found_of_file hkind
    exact addFile_ok hfound hfile
      (h entry (Or.inr ⟨hmem, fun hskip => Kind.noConfusion (hkind.symm.trans hskip)⟩))
  rw [inputWriter, items_eq hcancelled hcheck]
  simp only [addAll, htop, addAll_ok hdirectories, addAll_ok hfiles]
  rw [if_neg (by simp), below, List.map_append, ← List.map_map, ← List.map_map]
  rfl

theorem inputWriter_failed (hcancelled : run.cancelled = none) (hcheck : run.checkRaises = false) {entry : Entry}
    (hentry : entry = top ∨ Seen folder run entry) (h : StreamFails run entry) :
    (inputWriter folder run).finished = false := by
  rw [inputWriter, items_eq hcancelled hcheck]
  simp only
  split_ifs with hfirst
  · exact hfirst
  · have hfirst' : ∀ item ∈ (⟨top, folder.name⟩ :: (planned folder run .directory).map (itemOf folder) : List Item),
        addDirectory run item ≠ none := fun item hitem hnone => hfirst (addAll_failed hitem hnone)
    have hnot : ∀ item ∈ (⟨top, folder.name⟩ :: (planned folder run .directory).map (itemOf folder) : List Item),
        item.entry.found = some .directory → ¬ StreamFails run item.entry :=
      fun item hitem hfound hfails => hfirst' item hitem (addDirectory_failed hfound hfails)
    obtain rfl | ⟨hmem, hkind⟩ := hentry
    · exact absurd h (hnot _ List.mem_cons_self rfl)
    · cases hclass : classify run entry with
      | skipped => exact absurd hclass hkind
      | directory =>
        have hitem : itemOf folder entry ∈ (planned folder run .directory).map (itemOf folder) :=
          List.mem_map_of_mem (mem_planned.mpr ⟨hmem, hclass⟩)
        exact absurd h (hnot _ (List.mem_cons_of_mem _ hitem) (found_of_directory hclass))
      | file =>
        have hitem : itemOf folder entry ∈ (planned folder run .file).map (itemOf folder) :=
          List.mem_map_of_mem (mem_planned.mpr ⟨hmem, hclass⟩)
        exact addAll_failed hitem (addFile_failed h)

theorem succeeds_iff : succeeds folder run = true ↔ ¬ Fails folder run := by
  rw [TarPush.succeeds, Bool.and_eq_true, Bool.and_eq_true, Bool.not_eq_true', Option.isNone_iff_eq_none, Fails]
  constructor
  · rintro ⟨⟨hcancelled, hfinished⟩, hcommand⟩ (hcancel | hfails | ⟨hcheck, entry, hentry, hstream⟩)
    · exact hcancel hcancelled
    · rw [hcommand] at hfails
      exact Bool.false_ne_true hfails
    · rw [inputWriter_failed hcancelled hcheck hentry hstream] at hfinished
      exact Bool.false_ne_true hfinished
  · intro h
    push Not at h
    obtain ⟨hcancelled, hcommand, hstream⟩ := h
    refine ⟨⟨hcancelled, ?_⟩, Bool.eq_false_iff.mpr hcommand⟩
    cases hcheck : run.checkRaises with
    | true => rw [inputWriter_of_check hcheck]
    | false => rw [inputWriter_ok hcancelled hcheck (hstream hcheck)]

end Runs

section Members

variable {folder} {run} {entry : Entry}

theorem nodup_planned : (planned folder run .directory ++ planned folder run .file).Nodup := by
  have hentries : folder.entries.Nodup := List.Nodup.of_map _ folder.nodup
  have hrglob : (rglob folder run).Nodup := by
    rw [rglob]
    cases run.broken with
    | none => exact hentries.filter _
    | some count => exact (hentries.filter _).sublist (List.take_sublist _ _)
  apply List.Nodup.append (hrglob.filter _) (hrglob.filter _)
  intro entry hdirectory hfile
  have hkind := (mem_planned.mp hdirectory).2
  rw [(mem_planned.mp hfile).2] at hkind
  exact Kind.noConfusion hkind

theorem mem_planned_append :
    entry ∈ planned folder run .directory ++ planned folder run .file ↔ Seen folder run entry := by
  rw [List.mem_append, mem_planned, mem_planned, ← and_or_left, Seen]
  cases classify run entry <;> simp

theorem mem_entries_of_seen (h : Seen folder run entry) : entry ∈ folder.entries := by
  have hmem := h.1
  rw [rglob] at hmem
  cases hbroken : run.broken with
  | none =>
    rw [hbroken] at hmem
    exact List.mem_of_mem_filter hmem
  | some count =>
    rw [hbroken] at hmem
    exact List.mem_of_mem_filter (List.mem_of_mem_take hmem)

theorem path_of_seen (h : Seen folder run entry) : entry.path ≠ [] :=
  folder.path_ne_nil entry (mem_entries_of_seen h)

theorem found_of_seen (h : Seen folder run entry) : entry.found ≠ none := by
  cases hclass : classify run entry with
  | skipped => exact absurd hclass h.2
  | directory => exact found_of_directory hclass ▸ Option.some_ne_none _
  | file => exact (found_of_file hclass).1

theorem below_filter_name : (below folder run).filter (fun member => member.name = folder.name) = [] := by
  apply List.filter_eq_nil_iff.mpr
  intro member hmember
  obtain ⟨entry, hentry, rfl⟩ := List.mem_map.mp hmember
  rw [decide_eq_true_iff]
  exact sent_ne_name (path_of_seen (mem_planned_append.mp hentry))

theorem below_filter_iff {found : Found} (hpath : entry.path ≠ []) (hfound : entry.found = some found) :
    (below folder run).filter (fun member => member.name = ownName folder entry.path) =
      [⟨ownName folder entry.path, found⟩] ↔ Covered folder run entry := by
  have hname {other : Entry} (h : Seen folder run other) :
      (memberOf (itemOf folder other)).name = ownName folder entry.path ↔
        slashed (ownName folder other.path) = ownName folder entry.path := sent_eq_own (path_of_seen h) hpath
  rw [below, filter_map_singleton nodup_planned]
  simp only [Function.comp_apply, decide_eq_true_iff, true_and]
  constructor
  · rintro ⟨other, hother, hmember, hunique⟩
    have hseen := mem_planned_append.mp hother
    refine ⟨other, hseen, ?_, (hname hseen).mp (congrArg Member.name hmember), ?_⟩
    · have hdata : other.found.getD .directory = found := congrArg Member.found hmember
      obtain ⟨data, hsome⟩ := Option.ne_none_iff_exists'.mp (found_of_seen hseen)
      rw [hsome, Option.getD_some] at hdata
      rw [hsome, hdata, hfound]
    · intro another hanother hsame
      exact hunique another (mem_planned_append.mpr hanother) ((hname hanother).mpr hsame)
  · rintro ⟨other, hother, hsame, hown, hunique⟩
    refine ⟨other, mem_planned_append.mpr hother, ?_, ?_⟩
    · have hdata : (memberOf (itemOf folder other)).found = found := by
        change other.found.getD .directory = found
        rw [hsame, hfound, Option.getD_some]
      calc memberOf (itemOf folder other)
          = ⟨(memberOf (itemOf folder other)).name, (memberOf (itemOf folder other)).found⟩ := rfl
        _ = ⟨ownName folder entry.path, found⟩ := by rw [(hname hother).mpr hown, hdata]
    · intro another hanother hsent
      have hseen := mem_planned_append.mp hanother
      exact hunique another hseen ((hname hseen).mp hsent)

theorem complete_iff (members : List Member) (hmembers : members = ⟨folder.name, .directory⟩ :: below folder run) :
    Complete folder members ↔
      ∀ entry ∈ folder.entries, entry.isLink = false → entry.found ≠ none → Covered folder run entry := by
  subst hmembers
  have hbelow {entry : Entry} (hmem : entry ∈ folder.entries) :
      ((⟨folder.name, .directory⟩ : Member) :: below folder run).filter
          (fun member => member.name = ownName folder entry.path) =
        (below folder run).filter (fun member => member.name = ownName folder entry.path) := by
    apply List.filter_cons_of_neg
    rw [decide_eq_true_iff]
    exact fun h => own_ne_name (folder.path_ne_nil entry hmem) h.symm
  constructor
  · intro h entry hmem hlink hfound
    obtain ⟨found, hsome⟩ := Option.ne_none_iff_exists'.mp hfound
    have hfilter := h entry (Or.inr hmem) hlink found hsome
    rw [hbelow hmem] at hfilter
    exact (below_filter_iff (folder.path_ne_nil entry hmem) hsome).mp hfilter
  · intro h entry hentry hlink found hsome
    obtain rfl | hmem := hentry
    · cases hsome
      have hname : ownName folder top.path = folder.name := ownName_nil
      rw [hname, List.filter_cons, below_filter_name]
      exact if_pos (decide_eq_true rfl)
    · rw [hbelow hmem]
      exact (below_filter_iff (folder.path_ne_nil entry hmem) hsome).mpr
        (h entry hmem hlink (hsome ▸ Option.some_ne_none found))

end Members

/-- A push that succeeds has sent the whole folder exactly when planning takes up each of its directories and files,
and no other entry gets the name of one of them or is sent in its place. -/
theorem push_complete_iff :
    (succeeds folder run = true → Complete folder (inputWriter folder run).members) ↔
      Fails folder run ∨ run.checkRaises = false ∧
        ∀ entry ∈ folder.entries, entry.isLink = false → entry.found ≠ none → Covered folder run entry := by
  rw [succeeds_iff]
  by_cases hfails : Fails folder run
  · simp only [hfails, not_true_eq_false, false_imp_iff, true_or]
  · have hok := hfails
    rw [Fails] at hok
    push Not at hok
    obtain ⟨hcancelled, _, hstream⟩ := hok
    simp only [hfails, not_false_eq_true, forall_const, false_or]
    cases hcheck : run.checkRaises with
    | true =>
      rw [inputWriter_of_check hcheck]
      simp only [Bool.true_eq_false, false_and, iff_false]
      intro h
      have htop := h top (Or.inl rfl) rfl .directory rfl
      exact absurd htop (List.cons_ne_nil _ _).symm
    | false =>
      rw [inputWriter_ok hcancelled hcheck (hstream hcheck), complete_iff _ rfl]
      exact ⟨fun h => ⟨rfl, h⟩, And.right⟩

def docsName : Text := ['d', 'o', 'c', 's']

def docsEntries : List Entry := [⟨[['a']], false, some (.regular [1])⟩]

theorem docs_formed : Legal false docsName ∧ (∀ entry ∈ docsEntries, entry.path ≠ []) ∧
    (∀ entry ∈ docsEntries, ∀ name ∈ entry.path, Legal false name) ∧
    (∀ entry ∈ docsEntries, InFolder docsEntries entry) ∧ (docsEntries.map Entry.path).Nodup := by
  decide

def docs : Folder where
  windows := false
  name := docsName
  entries := docsEntries
  name_legal := docs_formed.1
  path_ne_nil := docs_formed.2.1
  path_legal := docs_formed.2.2.1
  inFolder := docs_formed.2.2.2.1
  nodup := docs_formed.2.2.2.2

/-- The size of the only file cannot be read while the push is planned. -/
def unreadSize : Run where
  checkRaises := false
  listed _ := true
  broken := none
  cancelled := none
  isDir _ := .told
  isFile _ := .told
  statRaises path := path = [['a']]
  interrupted _ := false
  infoRaises _ := false
  readRaises _ := false
  commandFails := false

/-- The file is left out, and the push succeeds. -/
theorem file_left_out : succeeds docs unreadSize = true ∧ ¬ Complete docs (inputWriter docs unreadSize).members := by
  have hsent : inputWriter docs unreadSize = ⟨[⟨docsName, .directory⟩], true⟩ := by decide
  refine ⟨by decide, fun h => ?_⟩
  have hfile := h ⟨[['a']], false, some (.regular [1])⟩ (Or.inr List.mem_cons_self) rfl (.regular [1]) rfl
  rw [hsent] at hfile
  exact absurd hfile (by decide)

end OpenAdb.Transfer.SentMembers
