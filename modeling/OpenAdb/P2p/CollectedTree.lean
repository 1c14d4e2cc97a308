import Mathlib.Data.List.Forall2
import OpenAdb.P2p.Collection

namespace OpenAdb.P2p.Collection

open OpenAdb.Lib.LinkTree OpenAdb.Lib.PyText OpenAdb.Lib.SlashPath OpenAdb.Lib.SortedRows OpenAdb.Lib.TextOrder
open OpenAdb.P2p.Entry

section names

variable {path relative rootName value name : Text} {names : List Text}

theorem components_lstrip (s : Text) : components (lstripChar '/' s) = components s := by
  induction s with
  | nil => rfl
  | cons c s ih =>
    by_cases hc : c = '/'
    · subst hc
      rw [components_slash, ← ih]
      rfl
    · rw [lstripChar, List.dropWhile_cons_of_neg (by simpa using hc)]

theorem components_rstrip (s : Text) : components (rstripChar '/' s) = components s := by
  induction s using List.reverseRecOn with
  | nil => rfl
  | append_singleton s c ih =>
    by_cases hc : c = '/'
    · subst hc
      rw [components_append_slash, rstripChar, List.rdropWhile_concat_pos _ _ _ (by simp), ← rstripChar, ih]
      exact (List.append_nil _).symm
    · rw [rstripChar, List.rdropWhile_concat_neg _ _ _ (by simpa using hc)]

/-- A relative name consists of the names between the slashes and backslashes. -/
theorem splitOn_safeRelativeName (h : safeRelativeName value = .ok relative) :
    relative.splitOn '/' = components (replaceChar '\\' '/' value) := by
  obtain ⟨-, -, hparts⟩ := safeRelativeName_parts h
  have hclean : relative = rstripChar '/' (lstripChar '/' (replaceChar '\\' '/' value)) := by
    unfold safeRelativeName at h
    dsimp only at h
    split_ifs at h <;> exact (Except.ok.inj h).symm
  have hsame : relative.splitOn '/' = components relative := by
    rw [components, List.filter_eq_self.mpr]
    intro part hpart
    refine decide_eq_true (fun hnil => ?_)
    have hsafe := hparts part hpart
    rw [hnil] at hsafe
    cases hsafe
  rw [hsame, hclean, components_rstrip, components_lstrip]

theorem nameOf_no_slash (path : Text) : '/' ∉ nameOf path := by
  rw [nameOf]
  split_ifs with hdot
  · exact List.not_mem_nil
  · cases hlast : (path.splitOn '/').getLast? with
    | none => exact List.not_mem_nil
    | some part => exact not_mem_of_mem_splitOn (List.mem_of_getLast? hlast)

theorem components_childText (hname : IsName name) (hnames : ∀ other ∈ names, IsName other) :
    components (childText name names) = name :: names := by
  rw [childText, ← components_slash, ← render]
  exact components_render (List.forall_mem_cons.mpr ⟨hname, hnames⟩)

theorem rootName_eq (h : safeRelativeName (nameOf path) = .ok rootName) (hback : '\\' ∉ nameOf path) :
    IsName (nameOf path) ∧ rootName = nameOf path := by
  have hsplit := splitOn_safeRelativeName h
  rw [replaceChar_eq_self hback, components_of_not_mem (nameOf_no_slash path)] at hsplit
  obtain ⟨hne, -, -⟩ := safeRelativeName_parts h
  have hjoin : ['/'].intercalate (rootName.splitOn '/') = rootName := List.intercalate_splitOn '/'
  by_cases hnil : nameOf path = []
  · rw [if_pos hnil] at hsplit
    exact absurd hsplit (List.splitOn_ne_nil _ _)
  · rw [if_neg hnil] at hsplit
    rw [hsplit, List.intercalate_singleton] at hjoin
    exact ⟨⟨hnil, nameOf_no_slash path⟩, hjoin.symm⟩

theorem root_components (h : safeRelativeName (nameOf path) = .ok rootName) (hback : '\\' ∉ nameOf path) :
    rootName.splitOn '/' = [nameOf path] := by
  obtain ⟨hname, -⟩ := rootName_eq h hback
  rw [splitOn_safeRelativeName h, replaceChar_eq_self hback, components_name hname]

theorem not_mem_childText {c : Char} (hc : c ≠ '/') (hname : c ∉ name) (hnames : ∀ other ∈ names, c ∉ other) :
    c ∉ childText name names := by
  intro hmem
  obtain hsep | ⟨part, hpart, hin⟩ := mem_part_of_mem_intercalate hmem
  · exact hc hsep
  obtain rfl | hpart := List.mem_cons.mp hpart
  · exact hname hin
  · exact hnames part hpart hin

/-- Without a backslash the relative path of a child has the names of the tree. -/
theorem relative_components (hroot : safeRelativeName (nameOf path) = .ok rootName)
    (h : safeRelativeName (childText rootName names) = .ok relative) (hnames : ∀ other ∈ names, IsName other)
    (hback : ∀ other ∈ nameOf path :: names, '\\' ∉ other) : relative.splitOn '/' = nameOf path :: names := by
  obtain ⟨hname, rfl⟩ := rootName_eq hroot (hback _ List.mem_cons_self)
  have hplain : '\\' ∉ childText (nameOf path) names :=
    not_mem_childText (by decide) (hback _ List.mem_cons_self) (fun other hother =>
      hback other (List.mem_cons_of_mem _ hother))
  rw [splitOn_safeRelativeName h, replaceChar_eq_self hplain, components_childText hname hnames]

end names

/-- Directories and regular files have entries. -/
def hasEntry (child : Child) : Bool :=
  match child.2.kind with
  | .dir => true
  | .file => child.2.data.isSome
  | .link _ _ => false

/-- An entry stands for what is at the end of the names. -/
structure Lists (path : Text) (child : Child) (entry : P2PEntry) : Prop where
  entry_eq : Computer.childEntry path entry.relative_path child = some entry
  components : (∀ name ∈ nameOf path :: child.1, '\\' ∉ name) →
    entry.relative_path.splitOn '/' = nameOf path :: child.1

variable {c : Computer} {path relative rootName : Text} {child : Child} {children : List Child}
variable {entries entries' : List P2PEntry} {clock clock' : Nat}

theorem childEntry_none (h : hasEntry child = false) : Computer.childEntry path relative child = none := by
  obtain ⟨names, kind, data⟩ := child
  cases kind with
  | dir => cases h
  | file =>
    cases data with
    | none => rfl
    | some size => cases h
  | link absolute target => rfl

theorem childEntry_some (path relative : Text) (h : hasEntry child = true) :
    ∃ entry, Computer.childEntry path relative child = some entry ∧ entry.relative_path = relative := by
  obtain ⟨names, kind, data⟩ := child
  cases kind with
  | dir => exact ⟨_, rfl, rfl⟩
  | file =>
    cases data with
    | none => cases h
    | some size => exact ⟨_, rfl, rfl⟩
  | link absolute target => cases h

def IsPlain (child : Child) : Prop := ∀ absolute target, child.2.kind ≠ .link absolute target

theorem addChildren_ok (hroot : safeRelativeName (nameOf path) = .ok rootName)
    (hnames : ∀ child ∈ children, ∀ name ∈ child.1, IsName name)
    (h : c.addChildren path rootName clock entries children = .ok (clock', entries')) :
    (∀ child ∈ children, IsPlain child) ∧
      ∃ segment, entries' = entries ++ segment ∧ List.Forall₂ (Lists path) (children.filter hasEntry) segment := by
  induction children generalizing clock entries with
  | nil =>
    obtain ⟨rfl, rfl⟩ := Prod.mk.inj (Except.ok.inj h)
    exact ⟨fun _ hchild => (by cases hchild), [], (List.append_nil entries).symm, .nil⟩
  | cons child children ih =>
    obtain ⟨hchild, hchildren⟩ := List.forall_mem_cons.mp hnames
    have hplain : IsPlain child := by
      intro absolute target hkind
      rw [Computer.addChildren, hkind] at h
      split_ifs at h
    have hstep : ∃ relative, safeRelativeName (childText rootName child.1) = .ok relative ∧
        c.addChildren path rootName (clock + 1) (entries ++ (Computer.childEntry path relative child).toList)
          children = .ok (clock', entries') := by
      rw [Computer.addChildren] at h
      split_ifs at h
      cases hkind : child.2.kind with
      | link absolute target => exact absurd hkind (hplain absolute target)
      | _ =>
        rw [hkind] at h
        cases hsafe : safeRelativeName (childText rootName child.1) with
        | error e =>
          rw [hsafe] at h
          cases h
        | ok relative =>
          rw [hsafe] at h
          dsimp only at h
          split_ifs at h
          exact ⟨relative, rfl, h⟩
    obtain ⟨relative, hsafe, hrest⟩ := hstep
    obtain ⟨hplains, segment, hentries, hlists⟩ := ih hchildren hrest
    refine ⟨List.forall_mem_cons.mpr ⟨hplain, hplains⟩, ?_⟩
    cases hhas : hasEntry child with
    | false =>
      rw [childEntry_none hhas, Option.toList_none, List.append_nil] at hentries
      refine ⟨segment, hentries, ?_⟩
      rwa [List.filter_cons_of_neg (by rw [hhas]; exact Bool.false_ne_true)]
    | true =>
      obtain ⟨entry, hentry, hpath⟩ := childEntry_some path relative hhas
      rw [hentry, Option.toList_some, List.append_assoc, List.singleton_append] at hentries
      refine ⟨entry :: segment, hentries, ?_⟩
      rw [List.filter_cons_of_pos hhas]
      refine .cons ⟨by rw [hpath, hentry], fun hback => ?_⟩ hlists
      rw [hpath]
      exact relative_components hroot hsafe hchild hback

theorem mem_rglob {place names : List Text} {e : Entry Text (Option Nat)} :
    (names, e) ∈ c.rglob place ↔ names ≠ [] ∧ c.tree.entry (place ++ names) = some e := by
  rw [Computer.rglob, List.mem_map]
  constructor
  · rintro ⟨x, hx, heq⟩
    obtain ⟨hmem, hplace⟩ := List.mem_filter.mp hx
    obtain ⟨⟨rest, hrest⟩, hne⟩ := of_decide_eq_true hplace
    obtain ⟨rfl, rfl⟩ := Prod.mk.inj heq
    rw [← hrest, List.drop_left, hrest]
    refine ⟨fun hnil => hne ?_, Tree.entry_eq_some.mpr hmem⟩
    rw [← hrest, hnil, List.append_nil]
  · rintro ⟨hne, he⟩
    refine ⟨(place ++ names, e), List.mem_filter.mpr ⟨Tree.entry_eq_some.mp he, decide_eq_true ⟨?_, ?_⟩⟩, ?_⟩
    · exact List.prefix_append place names
    · exact fun heq => hne (List.self_eq_append_right.mp heq.symm)
    · rw [List.drop_left]

theorem nodup_rglob (c : Computer) (place : List Text) : ((c.rglob place).map Prod.fst).Nodup := by
  rw [Computer.rglob, List.map_map]
  have hnodup : ((c.tree.nodes.filter (fun x => place <+: x.1 ∧ x.1 ≠ place)).map Prod.fst).Nodup :=
    (List.filter_sublist.map Prod.fst).nodup c.tree.nodup
  refine (List.Nodup.of_map Prod.fst hnodup).map_on ?_
  intro x hx y hy heq
  obtain ⟨hxmem, hxplace⟩ := List.mem_filter.mp hx
  obtain ⟨hymem, hyplace⟩ := List.mem_filter.mp hy
  obtain ⟨⟨a, ha⟩, -⟩ := of_decide_eq_true hxplace
  obtain ⟨⟨b, hb⟩, -⟩ := of_decide_eq_true hyplace
  have hrest : a = b := by
    rw [Function.comp_apply, Function.comp_apply, ← ha, ← hb, List.drop_left, List.drop_left] at heq
    exact heq
  refine List.inj_on_of_nodup_map c.tree.nodup hxmem hymem ?_
  rw [← ha, ← hb, hrest]

theorem names_rglob {place : List Text} (hchild : child ∈ c.rglob place) : ∀ name ∈ child.1, IsName name := by
  obtain ⟨names, e⟩ := child
  intro name hname
  obtain ⟨-, he⟩ := mem_rglob.mp hchild
  exact c.names _ (Tree.entry_eq_some.mp he) name (List.mem_append_right place hname)

theorem childText_nil (path : Text) : childText path [] = path := List.intercalate_singleton

theorem childText_cons (path name : Text) (names : List Text) :
    childText path (name :: names) = path ++ '/' :: childText name names := by
  rw [childText, List.intercalate_cons_cons, ← childText, List.append_assoc, List.singleton_append]

theorem childText_append (path : Text) (a : List Text) (name : Text) (rest : List Text) :
    childText path (a ++ name :: rest) = childText path a ++ '/' :: childText name rest := by
  induction a generalizing path with
  | nil => rw [List.nil_append, childText_nil, childText_cons]
  | cons first a ih => rw [List.cons_append, childText_cons, childText_cons, ih, List.append_assoc, List.cons_append]

/-- In the order of the folded paths a directory comes before what is in it. -/
theorem key_less (c : Computer) (path : Text) {a b : List Text} (h : a <+: b) (hne : a ≠ b) :
    textLess (casefold c.unicode (childText path a)) (casefold c.unicode (childText path b)) = true := by
  obtain ⟨rest, rfl⟩ := h
  cases rest with
  | nil => exact absurd (List.append_nil a).symm hne
  | cons name rest =>
    rw [childText_append, casefold, casefold, List.flatMap_append, List.flatMap_cons, c.casefold_slash,
      List.singleton_append]
    exact textLess_append _ _ _

/-- What stands at or below a selected path, and the entries for it. -/
structure Plan (c : Computer) (path : Text) (all : List Child) (segment : List P2PEntry) : Prop where
  once : (all.map Prod.fst).Nodup
  mem_all : ∀ names e, (names, e) ∈ all ↔ c.tree.entry (c.place path ++ names) = some e
  plain : ∀ child ∈ all, IsPlain child
  parentsFirst : all.Pairwise (fun a b => ¬b.1 <+: a.1)
  lists : List.Forall₂ (Lists path) (all.filter hasEntry) segment

theorem parentsFirst_sorted (c : Computer) (path : Text) (place : List Text) :
    (stableSort textLess (fun child => casefold c.unicode (childText path child.1)) (c.rglob place)).Pairwise
      (fun a b => ¬b.1 <+: a.1) := by
  have hsorted := stableSort_pairwise textLess_total (fun _ _ _ => not_textLess_trans)
    (fun child : Child => casefold c.unicode (childText path child.1)) (c.rglob place)
  have hnodup := ((stableSort_perm textLess (fun child : Child => casefold c.unicode (childText path child.1))
    (c.rglob place)).map Prod.fst).nodup_iff.mpr (nodup_rglob c place)
  rw [List.Nodup, List.pairwise_map] at hnodup
  refine (hsorted.and hnodup).imp ?_
  intro a b h hprefix
  have hless := key_less c path hprefix h.2.symm
  rw [h.1] at hless
  cases hless

theorem lists_root {e : Entry Text (Option Nat)} {entry : P2PEntry}
    (hroot : safeRelativeName (nameOf path) = .ok entry.relative_path)
    (hentry : Computer.childEntry path entry.relative_path ([], e) = some entry) : Lists path ([], e) entry where
  entry_eq := hentry
  components := fun hback => root_components hroot (hback _ List.mem_cons_self)

theorem plan_directory {data : Option Nat} (he : c.tree.entry (c.place path) = some ⟨.dir, data⟩)
    (h : c.addDirectory clock entries path = .ok (clock', entries')) :
    ∃ all segment, entries' = entries ++ segment ∧ Plan c path all segment := by
  rw [Computer.addDirectory] at h
  cases hroot : safeRelativeName (nameOf path) with
  | error e =>
    rw [hroot] at h
    cases h
  | ok rootName =>
    rw [hroot] at h
    dsimp only at h
    split_ifs at h
    have hperm := stableSort_perm textLess (fun child : Child => casefold c.unicode (childText path child.1))
      (c.rglob (c.place path))
    have hfirst := parentsFirst_sorted c path (c.place path)
    generalize stableSort textLess (fun child : Child => casefold c.unicode (childText path child.1))
      (c.rglob (c.place path)) = children at h hperm hfirst
    have hne : ∀ child ∈ children, child.1 ≠ [] := fun child hchild => (mem_rglob.mp (hperm.mem_iff.mp hchild)).1
    obtain ⟨hplain, segment, rfl, hlists⟩ :=
      addChildren_ok hroot (fun child hchild => names_rglob (hperm.mem_iff.mp hchild)) h
    refine ⟨([], ⟨.dir, data⟩) :: children, ⟨none, rootName, 0, true⟩ :: segment,
      by rw [List.append_assoc, List.singleton_append], ?_, ?_, ?_, ?_, ?_⟩
    · refine List.nodup_cons.mpr ⟨fun hmem => ?_, (hperm.map Prod.fst).nodup_iff.mpr (nodup_rglob c _)⟩
      obtain ⟨child, hchild, hnil⟩ := List.mem_map.mp hmem
      exact hne child hchild hnil
    · intro names e
      rw [List.mem_cons, hperm.mem_iff, mem_rglob]
      by_cases hnames : names = []
      · subst hnames
        rw [List.append_nil, he]
        simp [eq_comm]
      · simp [hnames]
    · refine List.forall_mem_cons.mpr ⟨fun absolute target hkind => ?_, hplain⟩
      cases hkind
    · refine List.pairwise_cons.mpr ⟨fun child hchild hprefix => ?_, hfirst⟩
      exact hne child hchild (List.prefix_nil.mp hprefix)
    · exact .cons (lists_root hroot rfl) hlists

theorem plan_file {size : Nat} (he : c.tree.entry (c.place path) = some ⟨.file, some size⟩)
    (hroot : safeRelativeName (nameOf path) = .ok relative) :
    Plan c path [([], ⟨.file, some size⟩)] [⟨some path, relative, size, false⟩] where
  once := List.nodup_singleton _
  mem_all := by
    intro names e
    by_cases hnames : names = []
    · subst hnames
      rw [List.append_nil, he]
      simp [eq_comm]
    · have hnone : c.tree.entry (c.place path ++ names) = none := by
        refine Tree.entry_below ?_ (List.prefix_append _ names) (fun heq => hnames (List.self_eq_append_right.mp heq.symm))
        rintro ⟨d, hd, hdir⟩
        rw [he, Option.some_inj] at hd
        subst hd
        cases hdir
      rw [hnone]
      simp [hnames]
  plain := List.forall_mem_singleton.mpr (fun _ _ hkind => by cases hkind)
  parentsFirst := List.pairwise_singleton _ _
  lists := .cons (lists_root hroot (by rw [Computer.childEntry, childText_nil]; rfl)) .nil

theorem addPath_ok {rawPath : Text} (h : c.addPath clock entries rawPath = .ok (clock', entries')) :
    ∃ path all segment, c.expanduser rawPath = some path ∧ entries' = entries ++ segment ∧ Plan c path all segment := by
  rw [Computer.addPath] at h
  split_ifs at h
  cases hpath : c.expanduser rawPath with
  | none =>
    rw [hpath] at h
    cases h
  | some path =>
    rw [hpath] at h
    dsimp only at h
    cases he : c.tree.entry (c.place path) with
    | none =>
      rw [he] at h
      cases h
    | some e =>
      obtain ⟨kind, data⟩ := e
      cases kind with
      | link absolute target =>
        rw [he] at h
        cases h
      | dir =>
        rw [he] at h
        obtain ⟨all, segment, hentries, hplan⟩ := plan_directory he h
        exact ⟨path, all, segment, rfl, hentries, hplan⟩
      | file =>
        cases data with
        | none =>
          rw [he] at h
          cases h
        | some size =>
          rw [he] at h
          dsimp only at h
          cases hroot : safeRelativeName (nameOf path) with
          | error e =>
            rw [hroot] at h
            cases h
          | ok relative =>
            rw [hroot] at h
            obtain ⟨-, rfl⟩ := Prod.mk.inj (Except.ok.inj h)
            exact ⟨path, _, _, rfl, rfl, plan_file he hroot⟩

theorem addPaths_ok {rawPaths : List Text} (h : c.addPaths clock entries rawPaths = .ok entries') :
    ∃ segments, entries' = entries ++ segments.flatten ∧
      List.Forall₂ (fun rawPath segment => ∃ path all, c.expanduser rawPath = some path ∧ Plan c path all segment)
        rawPaths segments := by
  induction rawPaths generalizing clock entries with
  | nil =>
    obtain rfl := Except.ok.inj h
    exact ⟨[], (List.append_nil entries).symm, .nil⟩
  | cons rawPath rawPaths ih =>
    rw [Computer.addPaths] at h
    cases hpath : c.addPath clock entries rawPath with
    | error e =>
      rw [hpath] at h
      cases h
    | ok next =>
      rw [hpath] at h
      obtain ⟨path, all, segment, hexpand, hentries, hplan⟩ := addPath_ok hpath
      obtain ⟨segments, rfl, hsegments⟩ := ih h
      refine ⟨segment :: segments, ?_, .cons ⟨path, all, hexpand, hplan⟩ hsegments⟩
      rw [hentries, List.flatten_cons, List.append_assoc]

def smallNodes : List Child := [([], ⟨.dir, none⟩), ([['d']], ⟨.dir, none⟩), ([['d'], ['f']], ⟨.file, some 3⟩)]

theorem smallNodes_wellFormed :
    (smallNodes.map Prod.fst).Nodup ∧
      (∀ x ∈ smallNodes, x.1 ≠ [] → ∃ y ∈ smallNodes, y.1 = x.1.dropLast ∧ y.2.kind = .dir) ∧
      ∀ d ∈ smallNodes, ∀ x ∈ smallNodes, ∀ y ∈ smallNodes, x.1 ≠ [] → y.1 ≠ [] →
        x.1.dropLast = d.1 → y.1.dropLast = d.1 →
        x.1.getLast?.map (fun name => name) = y.1.getLast?.map (fun name => name) → x.1 = y.1 := by
  decide +kernel

theorem smallNodes_names : ∀ x ∈ smallNodes, ∀ name ∈ x.1, IsName name := by
  have hall : ∀ x ∈ smallNodes, ∀ name ∈ x.1, name ∈ [['d'], ['f']] := by decide
  intro x hx name hname
  have hname := hall x hx name hname
  rw [List.mem_cons, List.mem_singleton] at hname
  obtain rfl | rfl := hname
  · exact ⟨by decide, by decide⟩
  · exact ⟨by decide, by decide⟩

def smallComputer : Computer where
  unicode := .ascii
  casefold_slash := rfl
  tree := ⟨smallNodes, smallNodes_wellFormed.1, smallNodes_wellFormed.2.1, smallNodes_wellFormed.2.2⟩
  names := smallNodes_names
  expanduser := some
  place := components
  cancelled _ := false

end OpenAdb.P2p.Collection
