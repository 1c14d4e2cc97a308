import OpenAdb.P2p.TreeGrants

namespace OpenAdb.P2p.GrantedPlace

open OpenAdb.Lib.PyText OpenAdb.Lib.JavaText OpenAdb.Lib.Effects OpenAdb.Lib.EventLog OpenAdb.Lib.SlashPath
open OpenAdb.P2p.Destination OpenAdb.P2p.TreeGrants

variable (p : Provider) (permissions : List UriPermission) (destination : Text)

/-- The path of a destination on its volume. -/
def destinationPath : List Text := pathComponents (relativePathFromStoragePath (normalizeStoragePath destination))

def destinationVolume : Text := storageIdFromPath (normalizeStoragePath destination)

/-- A grant for the volume of the destination and a folder that the destination is in. -/
def Covers (uri : Text) : Prop :=
  ∃ treeId, p.treeDocumentId uri = some treeId ∧
    equalsIgnoreCase p (destinationVolume destination) (volumeFromDocumentId treeId) = true ∧
    pathComponents (relativeFromDocumentId treeId) <+: destinationPath destination

/-- A directory that is returned is the one that the destination names, and without a grant for it the permission is
asked for. -/
def Lands (run : Except Thrown SafDirectory × Log) : Prop :=
  (∀ dir, run.1 = .ok dir → equalsIgnoreCase p (destinationVolume destination) dir.volume = true ∧
    dir.path = destinationPath destination) ∧
  ((∀ uri ∈ activeUris permissions, ¬Covers p destination uri) →
    run.1 = .error (permissionRequired (normalizeStoragePath destination)))

/-- Each tree that is taken is of the volume of the destination, and below it new directories get the names that are
asked for. -/
def Sound : Prop :=
  ∀ uri ∈ activeUris permissions, ∀ root rest, taken p (normalizeStoragePath destination) uri = some (root, rest) →
    equalsIgnoreCase p (destinationVolume destination) root.volume = true ∧
    ∀ before name after, pathComponents rest = before ++ name :: after →
      p.naming ⟨root.volume, root.path ++ before⟩ name = name

variable {p permissions destination} {w : World} {uri : Text} {uris : List Text} {root : SafDirectory} {rest : Text}

theorem mem_addNew {uris : List Text} {u v : Text} : v ∈ addNew uris u ↔ v ∈ uris ∨ v = u := by
  rw [addNew]
  by_cases h : uris.contains u = true
  · rw [if_pos h]
    have hmem : u ∈ uris := by simpa using h
    constructor
    · exact .inl
    · rintro (hv | rfl)
      · exact hv
      · exact hmem
  · rw [if_neg h, List.mem_append, List.mem_singleton]

theorem mem_foldl_addNew {uris more : List Text} {v : Text} : v ∈ more.foldl addNew uris ↔ v ∈ uris ∨ v ∈ more := by
  induction more generalizing uris with
  | nil => simp
  | cons u more ih => rw [List.foldl_cons, ih, mem_addNew, List.mem_cons, or_assoc]

theorem mem_addActivePreferenceUri {active result : List Text} {raw v : Text}
    (h : v ∈ addActivePreferenceUri active result raw) : v ∈ result ∨ v ∈ active := by
  rw [addActivePreferenceUri] at h
  by_cases hraw : raw = []
  · rw [if_pos hraw] at h
    exact .inl h
  · rw [if_neg hraw] at h
    by_cases hactive : active.contains raw = true
    · rw [if_pos hactive, mem_addNew] at h
      refine h.imp_right ?_
      rintro rfl
      simpa using hactive
    · rw [if_neg hactive] at h
      exact .inl h

/-- The preferences choose the order only. -/
theorem mem_persistedTreeUris {forVolume last v : Text} :
    v ∈ persistedTreeUris permissions forVolume last ↔ v ∈ activeUris permissions := by
  rw [persistedTreeUris, mem_foldl_addNew]
  constructor
  · rintro (h | h)
    · obtain h | h := mem_addActivePreferenceUri h
      · obtain h | h := mem_addActivePreferenceUri h
        · cases h
        · exact h
      · exact h
    · exact h
  · exact .inr

theorem pathComponents_append_slash (a b : Text) : pathComponents (a ++ '/' :: b) = pathComponents a ++ pathComponents b := by
  have hreplace : replaceChar '\\' '/' (a ++ '/' :: b) = replaceChar '\\' '/' a ++ '/' :: replaceChar '\\' '/' b := by
    simp [replaceChar]
  rw [pathComponents, hreplace, components_append_slash]
  rfl

theorem pathComponents_nil : pathComponents [] = [] := rfl

/-- The path of a tree and what is left of the destination make up the path of the destination. -/
theorem remaining_path {relative treeRelative rest : Text} (h : remaining relative treeRelative = some rest) :
    pathComponents relative = pathComponents treeRelative ++ pathComponents rest := by
  rw [remaining] at h
  by_cases hempty : treeRelative = []
  · rw [if_pos hempty, Option.some_inj] at h
    rw [hempty, h, pathComponents_nil, List.nil_append]
  · rw [if_neg hempty] at h
    by_cases hsame : relative = treeRelative
    · rw [if_pos hsame, Option.some_inj] at h
      rw [hsame, ← h, pathComponents_nil, List.append_nil]
    · rw [if_neg hsame, afterPrefix] at h
      by_cases hlead : (treeRelative ++ ['/']).isPrefixOf relative = true
      · rw [if_pos hlead, Option.some_inj] at h
        obtain ⟨more, hmore⟩ := List.isPrefixOf_iff_prefix.mp hlead
        rw [← hmore, List.drop_left] at h
        rw [← hmore, h, List.append_assoc, List.singleton_append, pathComponents_append_slash]
      · rw [if_neg hlead] at h
        cases h

theorem taken_cases (h : taken p (normalizeStoragePath destination) uri = some (root, rest)) :
    ∃ treeId, p.treeDocumentId uri = some treeId ∧
      root = ⟨volumeFromDocumentId treeId, pathComponents (relativeFromDocumentId treeId)⟩ ∧
      destinationPath destination = root.path ++ pathComponents rest := by
  rw [taken] at h
  cases htree : p.treeDocumentId uri with
  | none =>
    rw [htree] at h
    cases h
  | some treeId =>
    rw [htree] at h
    dsimp only at h
    split at h
    · obtain ⟨rest', hrest, heq⟩ := Option.map_eq_some_iff.mp h
      obtain ⟨rfl, rfl⟩ := Prod.mk.inj heq
      exact ⟨treeId, rfl, rfl, remaining_path hrest⟩
    · cases h

/-! Every answer of the system. -/

variable {log : Log} {dir : SafDirectory}

theorem findChild_run {name : Text} {r : Except Thrown (Option Bool)} (h : w.child log dir name = r) :
    findChild w dir name log = (r, .looked dir name :: log) :=
  ask_run h

theorem createDocument_run {name : Text} {r : Except Thrown Bool} (h : w.create log dir name = r) :
    createDocument w dir name log = (r, .created dir name :: log) :=
  ask_run h

theorem verify_run {r : Except Thrown Unit} (h : w.verify log dir = r) :
    verifySafDestinationWritable w dir log = (r, .verified dir :: log) :=
  ask_run h

theorem discard_run {r : Except Thrown Unit} (h : w.discard log uri = r) :
    discardStaleTreeGrant w uri log = (r, .discarded uri :: log) :=
  ask_run h

/-- The directories of a walk have the names that are asked for. -/
theorem ensure_path {components : List Text} {dir resolved : SafDirectory} {log log' : Log}
    (hnaming : ∀ before name after, components = before ++ name :: after →
      p.naming ⟨dir.volume, dir.path ++ before⟩ name = name)
    (h : ensureDirectoryComponents p w dir components log = (.ok resolved, log')) :
    resolved = ⟨dir.volume, dir.path ++ components⟩ := by
  induction components generalizing dir log with
  | nil =>
    rw [ensureDirectoryComponents, pure_run] at h
    cases h
    rw [List.append_nil]
  | cons name components ih =>
    have hrest : ∀ before name' after, components = before ++ name' :: after →
        p.naming ⟨(dir.child name).volume, (dir.child name).path ++ before⟩ name' = name' := by
      intro before name' after hsplit
      have hname := hnaming (name :: before) name' after (by rw [hsplit, List.cons_append])
      rw [SafDirectory.child, List.append_assoc]
      exact hname
    have hdone : (⟨(dir.child name).volume, (dir.child name).path ++ components⟩ : SafDirectory) =
        ⟨dir.volume, dir.path ++ name :: components⟩ := by
      rw [SafDirectory.child, List.append_assoc, List.singleton_append]
    rw [ensureDirectoryComponents] at h
    cases hchild : w.child log dir name with
    | error e =>
      rw [bind_error (findChild_run hchild)] at h
      cases h
    | ok found =>
      rw [bind_ok (findChild_run hchild)] at h
      cases found with
      | some isDir =>
        cases isDir with
        | true => exact (ih hrest h).trans hdone
        | false => cases h
      | none =>
        dsimp only at h
        cases hcreate : w.create (.looked dir name :: log) dir name with
        | error e =>
          rw [bind_error (createDocument_run hcreate)] at h
          cases h
        | ok made =>
          rw [bind_ok (createDocument_run hcreate)] at h
          cases made with
          | true =>
            have hname := hnaming [] name components rfl
            rw [List.append_nil] at hname
            dsimp only at h
            rw [hname] at h
            exact (ih hrest h).trans hdone
          | false => cases h

theorem resolveFrom_lands (hsound : Sound p permissions destination) (huris : ∀ uri ∈ uris, uri ∈ activeUris permissions)
    {dir : SafDirectory} {log log' : Log}
    (h : resolveFrom p w (normalizeStoragePath destination) uris log = (.ok dir, log')) :
    equalsIgnoreCase p (destinationVolume destination) dir.volume = true ∧ dir.path = destinationPath destination := by
  induction uris generalizing log with
  | nil => cases h
  | cons uri uris ih =>
    obtain ⟨huri, huris⟩ := List.forall_mem_cons.mp huris
    -- After a discarded grant the later ones are tried.
    have hlater : ∀ {past : Log}, (discardStaleTreeGrant w uri >>= fun _ =>
        resolveFrom p w (normalizeStoragePath destination) uris) past = (.ok dir, log') →
        equalsIgnoreCase p (destinationVolume destination) dir.volume = true ∧
          dir.path = destinationPath destination := by
      intro past hpast
      cases hdiscard : w.discard past uri with
      | error e =>
        rw [bind_error (discard_run hdiscard)] at hpast
        cases hpast
      | ok _ =>
        rw [bind_ok (discard_run hdiscard)] at hpast
        exact ih huris hpast
    rw [resolveFrom] at h
    cases htaken : taken p (normalizeStoragePath destination) uri with
    | none =>
      rw [htaken] at h
      exact ih huris h
    | some place =>
      obtain ⟨root, rest⟩ := place
      obtain ⟨hvolume, hnaming⟩ := hsound uri huri root rest htaken
      obtain ⟨treeId, -, -, hpath⟩ := taken_cases htaken
      rw [htaken] at h
      cases hensure : ensureDirectoryComponents p w root (pathComponents rest) log with
      | mk r past =>
        dsimp only at h
        rw [bind_ok (trying_run hensure)] at h
        cases r with
        | error e =>
          cases e with
          | security message => exact hlater h
          | fileNotFound message => exact hlater h
          | other message => cases h
        | ok resolved =>
          dsimp only at h
          cases hverify : w.verify past resolved with
          | error e =>
            rw [bind_ok (trying_run (verify_run hverify))] at h
            cases e with
            | security message => exact hlater h
            | fileNotFound message => cases h
            | other message => cases h
          | ok _ =>
            rw [bind_ok (trying_run (verify_run hverify))] at h
            cases h
            rw [ensure_path hnaming hensure]
            exact ⟨hvolume, hpath.symm⟩

theorem covers_of_taken (hvolume : equalsIgnoreCase p (destinationVolume destination) root.volume = true)
    (h : taken p (normalizeStoragePath destination) uri = some (root, rest)) : Covers p destination uri := by
  obtain ⟨treeId, htree, rfl, hpath⟩ := taken_cases h
  exact ⟨treeId, htree, hvolume, ⟨_, hpath.symm⟩⟩

theorem resolveFrom_none (h : ∀ uri ∈ uris, taken p (normalizeStoragePath destination) uri = none) (log : Log) :
    resolveFrom p w (normalizeStoragePath destination) uris log =
      (.error (permissionRequired (normalizeStoragePath destination)), log) := by
  induction uris with
  | nil => rfl
  | cons uri uris ih =>
    obtain ⟨huri, huris⟩ := List.forall_mem_cons.mp h
    rw [resolveFrom, huri]
    exact ih huris

/-! A system that gives up the first grants. -/

def isDiscarded : Event → Bool
  | .discarded _ => true
  | _ => false

def discards (log : Log) : Nat := log.countP isDiscarded

/-- A system that has taken back the first `stale` grants of the volume, and that has every directory after them except
those of one depth. -/
def giving (stale : Nat) (depth : Option Nat) : World where
  child log dir _ := .ok (if stale ≤ discards log ∧ depth = some dir.path.length then none else some true)
  create _ _ _ := .ok true
  verify log _ := if discards log < stale then .error (.security []) else .ok ()
  discard _ _ := .ok ()

variable {stale : Nat} {depth : Option Nat}

theorem discards_looked {name : Text} : discards (.looked dir name :: log) = discards log := by
  rw [discards, discards, List.countP_cons_of_neg Bool.false_ne_true]

theorem discards_created {name : Text} : discards (.created dir name :: log) = discards log := by
  rw [discards, discards, List.countP_cons_of_neg Bool.false_ne_true]

theorem discards_verified : discards (.verified dir :: log) = discards log := by
  rw [discards, discards, List.countP_cons_of_neg Bool.false_ne_true]

theorem discards_discarded : discards (.discarded uri :: log) = discards log + 1 := by
  rw [discards, discards, List.countP_cons_of_pos (by rfl)]

/-- A walk through directories that are all there. -/
theorem ensure_found {components : List Text}
    (h : discards log < stale ∨ ∀ k, depth = some k → k < dir.path.length ∨ dir.path.length + components.length ≤ k) :
    ∃ log', ensureDirectoryComponents p (giving stale depth) dir components log =
      (.ok ⟨dir.volume, dir.path ++ components⟩, log') ∧ discards log' = discards log := by
  induction components generalizing dir log with
  | nil =>
    refine ⟨log, ?_, rfl⟩
    rw [List.append_nil]
    rfl
  | cons name components ih =>
    have hchild : (giving stale depth).child log dir name = .ok (some true) := by
      refine congrArg Except.ok (if_neg ?_)
      rintro ⟨hstale, hdepth⟩
      obtain h | h := h
      · omega
      · obtain hk | hk := h _ hdepth
        · omega
        · rw [List.length_cons] at hk
          omega
    obtain ⟨log', hrun, hdiscards⟩ := @ih (.looked dir name :: log) (dir.child name) (by
      rw [discards_looked]
      refine h.imp_right (fun h k hk => ?_)
      have hlength : (dir.child name).path.length = dir.path.length + 1 := by
        rw [SafDirectory.child, List.length_append, List.length_singleton]
      have := h k hk
      rw [List.length_cons] at this
      omega)
    refine ⟨log', ?_, hdiscards.trans discards_looked⟩
    rw [ensureDirectoryComponents, bind_ok (findChild_run hchild)]
    dsimp only
    rw [hrun, SafDirectory.child, List.append_assoc, List.singleton_append]

/-- A walk past the one depth where a directory is missing, which is created there. -/
theorem ensure_created {before after : List Text} {name : Text} (hstale : stale ≤ discards log)
    (hdepth : depth = some (dir.path ++ before).length) :
    ∃ log', ensureDirectoryComponents p (giving stale depth) dir (before ++ name :: after) log =
      (.ok ⟨dir.volume, dir.path ++ before ++ p.naming ⟨dir.volume, dir.path ++ before⟩ name :: after⟩, log') ∧
      discards log' = discards log := by
  induction before generalizing dir log with
  | nil =>
    rw [List.append_nil] at hdepth
    have hchild : (giving stale depth).child log dir name = .ok none :=
      congrArg Except.ok (if_pos ⟨hstale, hdepth⟩)
    obtain ⟨log', hrun, hdiscards⟩ := @ensure_found p (.created dir name :: .looked dir name :: log)
      (dir.child (p.naming dir name)) stale depth after (by
        refine .inr (fun k hk => ?_)
        rw [hdepth, Option.some_inj] at hk
        rw [SafDirectory.child, List.length_append, List.length_singleton]
        omega)
    refine ⟨log', ?_, hdiscards.trans (discards_created.trans discards_looked)⟩
    rw [List.nil_append, ensureDirectoryComponents, bind_ok (findChild_run hchild)]
    dsimp only
    rw [bind_ok (createDocument_run rfl)]
    dsimp only
    rw [hrun, SafDirectory.child, List.append_nil, List.append_assoc, List.singleton_append]
  | cons first before ih =>
    have hchild : (giving stale depth).child log dir first = .ok (some true) := by
      refine congrArg Except.ok (if_neg ?_)
      rintro ⟨-, hlength⟩
      rw [hdepth, Option.some_inj, List.length_append, List.length_cons] at hlength
      omega
    obtain ⟨log', hrun, hdiscards⟩ := @ih (.looked dir first :: log) (dir.child first)
      (by rw [discards_looked]; exact hstale)
      (by rw [hdepth, SafDirectory.child, List.append_assoc, List.singleton_append])
    refine ⟨log', ?_, hdiscards.trans discards_looked⟩
    rw [List.cons_append, ensureDirectoryComponents, bind_ok (findChild_run hchild)]
    dsimp only
    rw [hrun, SafDirectory.child]
    simp only [List.append_assoc, List.cons_append, List.nil_append]

theorem trying_verify (hstale : stale ≤ discards log) :
    (trying (verifySafDestinationWritable (giving stale depth) dir) : Effect Thrown Log (Except Thrown Unit)) log =
      (.ok (.ok ()), .verified dir :: log) := by
  refine trying_run (verify_run ?_)
  exact if_neg (Nat.not_lt.mpr hstale)

/-- The first grants that are taken are given up one after the other. -/
theorem resolveFrom_skip {clean : Text} {before after : List Text}
    (h : discards log + before.countP (fun uri => (taken p clean uri).isSome) ≤ stale) :
    ∃ log', discards log' = discards log + before.countP (fun uri => (taken p clean uri).isSome) ∧
      resolveFrom p (giving stale depth) clean (before ++ after) log =
        resolveFrom p (giving stale depth) clean after log' := by
  induction before generalizing log with
  | nil => exact ⟨log, rfl, rfl⟩
  | cons uri before ih =>
    cases htaken : taken p clean uri with
    | none =>
      rw [List.countP_cons_of_neg (by rw [htaken]; decide)] at h ⊢
      obtain ⟨log', hdiscards, hrun⟩ := ih h
      refine ⟨log', hdiscards, ?_⟩
      rw [List.cons_append, resolveFrom, htaken]
      exact hrun
    | some place =>
      obtain ⟨root, rest⟩ := place
      rw [List.countP_cons_of_pos (by rw [htaken]; rfl)] at h ⊢
      have hlive : discards log < stale := by omega
      obtain ⟨past, hensure, hpast⟩ := @ensure_found p log root stale depth (pathComponents rest) (.inl hlive)
      have hverify : ∀ resolved, (giving stale depth).verify past resolved = .error (.security []) := by
        intro resolved
        exact if_pos (by rw [hpast]; exact hlive)
      have hcount : discards (.discarded uri :: .verified ⟨root.volume, root.path ++ pathComponents rest⟩ :: past) =
          discards log + 1 := by
        rw [discards_discarded, discards_verified, hpast]
      obtain ⟨log', hdiscards, hrun⟩ := @ih
        (.discarded uri :: .verified ⟨root.volume, root.path ++ pathComponents rest⟩ :: past) (by
          rw [hcount]
          omega)
      refine ⟨log', by rw [hdiscards, hcount]; omega, ?_⟩
      rw [List.cons_append, resolveFrom, htaken]
      dsimp only
      rw [bind_ok (trying_run hensure)]
      dsimp only
      rw [bind_ok (trying_run (verify_run (hverify _)))]
      dsimp only
      rw [bind_ok (discard_run rfl)]
      exact hrun

/-- The grant that is left is used. -/
theorem resolveFrom_used {clean : Text} {past : Log} {resolved : SafDirectory} (hstale : stale ≤ discards past)
    (htaken : taken p clean uri = some (root, rest))
    (hensure : ensureDirectoryComponents p (giving stale depth) root (pathComponents rest) log = (.ok resolved, past)) :
    (resolveFrom p (giving stale depth) clean (uri :: uris) log).1 = .ok resolved := by
  rw [resolveFrom, htaken]
  dsimp only
  rw [bind_ok (trying_run hensure)]
  dsimp only
  rw [bind_ok (trying_verify hstale)]
  rfl

theorem sound_of_lands {forVolume last : Text} (h : ∀ w, Lands p permissions destination
    (resolveDestinationDirectory p w permissions forVolume last destination [])) : Sound p permissions destination := by
  intro uri huri root rest htaken
  have hmem := (@mem_persistedTreeUris permissions forVolume last uri).mpr huri
  obtain ⟨before, after, hsplit⟩ := List.append_of_mem hmem
  have hskip := fun depth => @resolveFrom_skip p []
    (before.countP (fun uri => (taken p (normalizeStoragePath destination) uri).isSome)) depth
    (normalizeStoragePath destination) before (uri :: after) (Nat.zero_add _).le
  have hlands := fun depth => h (giving
    (before.countP (fun uri => (taken p (normalizeStoragePath destination) uri).isSome)) depth)
  obtain ⟨treeId, -, -, hpath⟩ := taken_cases htaken
  constructor
  · obtain ⟨log, hdiscards, hrun⟩ := hskip none
    obtain ⟨past, hensure, hpast⟩ := @ensure_found p log root
      (before.countP (fun uri => (taken p (normalizeStoragePath destination) uri).isSome)) none (pathComponents rest)
      (.inr (fun k hk => by cases hk))
    have hused := @resolveFrom_used p uri after root rest log _ none _ past _
      (by rw [hpast, hdiscards]; exact Nat.le_add_left _ _) htaken hensure
    have hresult := (hlands none).1
    rw [resolveDestinationDirectory, hsplit, hrun] at hresult
    exact (hresult _ hused).1
  · intro earlier name later hcomponents
    obtain ⟨log, hdiscards, hrun⟩ := hskip (some (root.path ++ earlier).length)
    obtain ⟨past, hensure, hpast⟩ := @ensure_created p log root _ _ earlier later name
      (show before.countP (fun uri => (taken p (normalizeStoragePath destination) uri).isSome) ≤ discards log by
        rw [hdiscards]; exact Nat.le_add_left _ _) rfl
    rw [← hcomponents] at hensure
    have hused := @resolveFrom_used p uri after root rest log _ _ _ past _
      (by rw [hpast, hdiscards]; exact Nat.le_add_left _ _) htaken hensure
    have hresult := (hlands (some (root.path ++ earlier).length)).1
    rw [resolveDestinationDirectory, hsplit, hrun] at hresult
    have hplace := (hresult _ hused).2
    rw [hpath, hcomponents, List.append_assoc] at hplace
    exact (List.cons.inj (List.append_cancel_left (List.append_cancel_left hplace))).1

theorem lands_of_sound {forVolume last : Text} (hsound : Sound p permissions destination) (w : World) :
    Lands p permissions destination (resolveDestinationDirectory p w permissions forVolume last destination []) := by
  constructor
  · intro dir hdir
    have hrun : resolveDestinationDirectory p w permissions forVolume last destination [] =
        (.ok dir, (resolveDestinationDirectory p w permissions forVolume last destination []).2) :=
      Prod.ext hdir rfl
    exact resolveFrom_lands hsound (fun uri huri => mem_persistedTreeUris.mp huri) hrun
  · intro hnone
    rw [resolveDestinationDirectory, resolveFrom_none]
    intro uri huri
    rw [Option.eq_none_iff_forall_ne_some]
    rintro ⟨root, rest⟩ htaken
    have hactive := mem_persistedTreeUris.mp huri
    exact hnone uri hactive (covers_of_taken (hsound uri hactive root rest htaken).1 htaken)

/-- Whatever the system answers, an upload lands at its destination, just when no grant of another volume is taken for
it and new directories get their names. -/
theorem lands_iff (p : Provider) (permissions : List UriPermission) (forVolume last destination : Text) :
    (∀ w, Lands p permissions destination (resolveDestinationDirectory p w permissions forVolume last destination [])) ↔
      Sound p permissions destination :=
  ⟨sound_of_lands, lands_of_sound⟩

def cards : Provider := ⟨Char.toLower, some, fun _ name => name⟩

def everything : World := giving 0 none

/-- A card of sixteen digits is taken for the one whose eight digits it begins with. -/
theorem lands_on_another_card :
    ¬Lands cards [⟨"1234567890ABCDEF:".toList, true, true⟩] "/storage/1234-5678/Movies".toList
      (resolveDestinationDirectory cards everything [⟨"1234567890ABCDEF:".toList, true, true⟩] [] []
        "/storage/1234-5678/Movies".toList []) := by
  intro h
  have hvolume := (h.1 ⟨"1234567890ABCDEF".toList, ["Movies".toList]⟩ (by decide +kernel)).1
  revert hvolume
  decide +kernel

end OpenAdb.P2p.GrantedPlace
